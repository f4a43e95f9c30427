import OperationCatalog.Decimal.Layout

/-!
# Contexts

The named values that expressions refer to.  A context is a list of named properties in ascending
order of the names; `insert` keeps the order.  What a property denotes in a URL is a `BoundValue`:
nothing, a text, or a context again, which is known by its place below the root.
-/

namespace OperationCatalog

/-- A property of a context. -/
inductive Property where
  | null
  | bool (value : Bool)
  | integer (value : Int)
  | float (value : Float)
  | text (value : String)
  | object (properties : List (String × Property))

/-- Named properties, ascending by name. -/
abbrev Context := List (String × Property)

namespace Context

/-- The context with `property` under `name`, in the place of what was there. -/
def insert (name : String) (property : Property) : Context → Context
  | [] => [(name, property)]
  | (k, p) :: rest =>
    if name = k then (name, property) :: rest
    else if name < k then (name, property) :: (k, p) :: rest
    else (k, p) :: insert name property rest

/-- The context made by inserting entries one after the other. -/
def ofEntries (entries : List (String × Property)) : Context :=
  entries.foldl (fun context entry => insert entry.1 entry.2 context) []

/-- The property under a name. -/
def find? (name : String) (context : Context) : Option Property := context.lookup name

/-- Numbers in a URL have the fewest digits that read back, of two equally near ones the larger, and
never an exponent. -/
def numberLayout : Decimal.Layout where
  tie := .up
  positional := fun _ => true
  wholeEnd := ""
  infinity := "inf"
  negativeInfinity := "-inf"
  notANumber := "NaN"

end Context

/-- A context with its place: the names that lead to it from the root. -/
structure Place where
  path : List String
  context : Context

/-- What an expression or a property denotes. -/
inductive BoundValue where
  | null
  | text (value : String)
  | context (place : Place)

/-- What a property that stands at `path` denotes. -/
def Property.bind (path : List String) : Property → BoundValue
  | .null => .null
  | .bool b => .text (if b then "true" else "false")
  | .integer i => .text (toString i)
  | .float x => .text (Context.numberLayout.text x)
  | .text s => .text s
  | .object properties => .context ⟨path, properties⟩

/-- What the property of this name denotes; `none` if there is none. -/
def Place.get? (place : Place) (name : String) : Option BoundValue :=
  (place.context.find? name).map (·.bind (place.path ++ [name]))

namespace BoundValue

/-- What a property of a value denotes; only contexts have properties. -/
def get? (value : BoundValue) (name : String) : Option BoundValue :=
  match value with
  | .context place => place.get? name
  | _ => none

/-- The value that a path of names leads to. -/
def walk (value : BoundValue) : List String → Option BoundValue
  | [] => some value
  | name :: rest => (value.get? name).bind (·.walk rest)

/-- A path is walked part by part. -/
theorem walk_append (value : BoundValue) (front rest : List String) :
    value.walk (front ++ rest) = (value.walk front).bind (·.walk rest) := by
  induction front generalizing value with
  | nil => rfl
  | cons name front ih =>
    rw [List.cons_append, walk, walk, Option.bind_assoc]
    exact Option.bind_congr fun v _ => ih v

theorem walk_concat (value : BoundValue) (front : List String) (name : String) :
    value.walk (front ++ [name]) = (value.walk front).bind (·.get? name) := by
  rw [walk_append]
  exact Option.bind_congr fun v _ => Option.bind_fun_some (v.get? name)

/-- Whether two values are the same: equal texts, or contexts in one place of one root. -/
def same : BoundValue → BoundValue → Bool
  | .null, .null => true
  | .text s, .text t => s = t
  | .context p, .context q => p.path = q.path
  | _, _ => false

end BoundValue

/-- The root of a context, as a value. -/
def Context.bound (context : Context) : BoundValue := .context ⟨[], context⟩

end OperationCatalog
