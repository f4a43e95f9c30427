import OperationCatalog.Expression
import OperationCatalog.Value

/-!
# Expressions in documents

An expression is an object whose `kind` says which other fields count, or an array of the kind and
those fields in order.  A kind that is not known gives an unsupported expression, so a document stays
readable.  `toValue` writes the object.
-/

namespace OperationCatalog.Expression

/-- The kind of this name; any name that is not one of a kind means an unsupported expression. -/
def Kind.ofName (name : String) : Kind := (all.find? (·.name = name)).getD .unsupported

/-- The kind that a value denotes.  Inside another expression it may also be given by its number, if
the format has unsigned numbers. -/
def Kind.ofValue? (inner : Bool) : Value → Option Kind
  | .text name => some (ofName name)
  | .natural n => if inner then some (all[n]?.getD .unsupported) else none
  | _ => none

/-- The kind that stands once among the fields of an object. -/
def Kind.ofFields? (inner : Bool) (fields : Fields) : Option Kind :=
  (fields.only? "kind").bind (ofValue? inner)

/-- The text that stands once under a name. -/
def textField? (name : String) (fields : Fields) : Option String :=
  (fields.only? name).bind Value.text?

mutual

/-- The expression that a value denotes; `inner` if it stands inside another one. -/
def ofValue? (inner : Bool) : Value → Option Expression
  | .object fields =>
    match Kind.ofFields? inner fields with
    | none => none
    | some .literal => (textField? "text" fields).map .literal
    | some .concat => (arrayField? "items" fields).map .concat
    | some .conditional => (field? "inner" fields).map .conditional
    | some .root => some .root
    | some .property =>
      match field? "base" fields, textField? "name" fields with
      | some base, some name => some (.property base name)
      | _, _ => none
    | some .parameter => (textField? "name" fields).map .parameter
    | some .formatting => (textField? "format" fields).map .formatting
    | some .unsupported => some .unsupported
  | .array (tag :: arguments) =>
    match Kind.ofValue? inner tag, arguments with
    | some .literal, [.text text] => some (.literal text)
    | some .concat, [.array items] => (ofItems? items).map .concat
    | some .conditional, [v] => (ofValue? true v).map .conditional
    | some .root, [] => some .root
    | some .property, [base, .text name] => (ofValue? true base).map (.property · name)
    | some .parameter, [.text name] => some (.parameter name)
    | some .formatting, [.text format] => some (.formatting format)
    | some .unsupported, [] => some .unsupported
    | _, _ => none
  | _ => none
termination_by structural v => v

/-- The expressions that the items of an array denote. -/
def ofItems? : List Value → Option (List Expression)
  | [] => some []
  | v :: rest =>
    match ofValue? true v, ofItems? rest with
    | some e, some es => some (e :: es)
    | _, _ => none
termination_by structural vs => vs

/-- The expressions that the items of a value denote, if it is an array. -/
def ofArray? : Value → Option (List Expression)
  | .array items => ofItems? items
  | _ => none
termination_by structural v => v

/-- The expression that stands once under a name. -/
def field? (name : String) : List (String × Value) → Option Expression
  | [] => none
  | (k, v) :: rest =>
    if k = name then if (Fields.all name rest).isEmpty then ofValue? true v else none
    else field? name rest
termination_by structural fields => fields

/-- The list of expressions that stands once under a name. -/
def arrayField? (name : String) : List (String × Value) → Option (List Expression)
  | [] => none
  | (k, v) :: rest =>
    if k = name then if (Fields.all name rest).isEmpty then ofArray? v else none
    else arrayField? name rest
termination_by structural fields => fields

end

theorem field?_eq (name : String) (fields : Fields) :
    field? name fields = (fields.only? name).bind (ofValue? true) :=
  Fields.search_eq_only? (fun _ _ _ => rfl) rfl fields

theorem arrayField?_eq (name : String) (fields : Fields) :
    arrayField? name fields = (fields.only? name).bind ofArray? :=
  Fields.search_eq_only? (fun _ _ _ => rfl) rfl fields

theorem ofItems?_eq (items : List Value) : ofItems? items = items.mapM (ofValue? true) := by
  induction items with
  | nil => rfl
  | cons v rest ih =>
    simp only [ofItems?, List.mapM_cons, ih]
    cases ofValue? true v <;> cases List.mapM (ofValue? true) rest <;> rfl

theorem ofArray?_eq (v : Value) : ofArray? v = v.items?.bind (·.mapM (ofValue? true)) := by
  cases v with
  | array items => exact ofItems?_eq items
  | _ => rfl

/-! ## Writing -/

/-- The object of a kind with further fields. -/
def Kind.toValue (kind : Kind) (fields : Fields) : Value :=
  .object (("kind", .text kind.name) :: fields)

mutual

/-- The object that denotes an expression. -/
def toValue : Expression → Value
  | .literal text => Kind.toValue .literal [("text", .text text)]
  | .concat items => Kind.toValue .concat [("items", .array (toValues items))]
  | .conditional inner => Kind.toValue .conditional [("inner", toValue inner)]
  | .root => Kind.toValue .root []
  | .property base name =>
    Kind.toValue .property [("base", toValue base), ("name", .text name)]
  | .parameter name => Kind.toValue .parameter [("name", .text name)]
  | .formatting format => Kind.toValue .formatting [("format", .text format)]
  | .unsupported => Kind.toValue .unsupported []
termination_by structural e => e

/-- The objects that denote the items. -/
def toValues : List Expression → List Value
  | [] => []
  | e :: rest => toValue e :: toValues rest
termination_by structural es => es

end

end OperationCatalog.Expression
