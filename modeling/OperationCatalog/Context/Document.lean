import OperationCatalog.Context
import OperationCatalog.Value

/-!
# Contexts in documents

A context is an object.  Of several fields with one name the last counts, but each must denote a
property; arrays denote none.
-/

namespace OperationCatalog

mutual

/-- The property that a value denotes. -/
def Property.ofValue? : Value → Option Property
  | .null => some .null
  | .bool b => some (.bool b)
  | .natural n => some (if n < signLimit then .integer n else .float (Float.ofNat n))
  | .integer i => some (.integer i)
  | .float x => some (.float x)
  | .text s => some (.text s)
  | .array _ => none
  | .object fields => (entriesOfFields? fields).map fun entries => .object (Context.ofEntries entries)
termination_by structural v => v

/-- The named properties that fields denote, in their order. -/
def entriesOfFields? : List (String × Value) → Option (List (String × Property))
  | [] => some []
  | (name, v) :: rest =>
    match Property.ofValue? v, entriesOfFields? rest with
    | some p, some entries => some ((name, p) :: entries)
    | _, _ => none
termination_by structural fields => fields

end

/-- The context that a value denotes. -/
def Context.ofValue? (v : Value) : Option Context :=
  match v with
  | .object fields => (entriesOfFields? fields).map ofEntries
  | _ => none

mutual

/-- The value that denotes a property. -/
def Property.toValue : Property → Value
  | .null => .null
  | .bool b => .bool b
  | .integer i => .integer i
  | .float x => .float x
  | .text s => .text s
  | .object properties => .object (propertiesToFields properties)
termination_by structural p => p

/-- The fields that denote the properties. -/
def propertiesToFields : List (String × Property) → List (String × Value)
  | [] => []
  | (name, p) :: rest => (name, p.toValue) :: propertiesToFields rest
termination_by structural properties => properties

end

/-- The object that denotes a context. -/
def Context.toValue (context : Context) : Value := .object (propertiesToFields context)

end OperationCatalog
