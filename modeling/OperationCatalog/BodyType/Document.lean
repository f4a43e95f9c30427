import OperationCatalog.BodyType
import OperationCatalog.Value

/-!
# Types of bodies in documents

A type is an object whose `kind` says which other fields count, or an array of the kind and those
fields in order; a member is an object or an array of its fields.  A kind that is not known gives an
unsupported type.  `toValue` writes the object, with every field present.
-/

namespace OperationCatalog.BodyType

/-- The kind of this name; any name that is not one of a kind means an unsupported type. -/
def Kind.ofName (name : String) : Kind := (all.find? (·.name = name)).getD .unsupported

/-- The kind that a value denotes.  Inside another type it may also be given by its number, if the
format has unsigned numbers. -/
def Kind.ofValue? (inner : Bool) : Value → Option Kind
  | .text name => some (ofName name)
  | .natural n => if inner then some (all[n]?.getD .unsupported) else none
  | _ => none

/-- The kind that stands once among the fields of an object. -/
def Kind.ofFields? (inner : Bool) (fields : Fields) : Option Kind :=
  (fields.only? "kind").bind (ofValue? inner)

/-- The texts of an array that holds nothing else. -/
def texts? (v : Value) : Option (List String) := v.items?.bind (·.mapM Value.text?)

/-- A truth value that may be missing and is false then. -/
def flag? : Option Value → Option Bool
  | none => some false
  | some v => v.bool?

/-- What a value denotes that may also be null and denote nothing then. -/
def orNull {α : Type} (v : Value) (denoted : Option α) : Option (Option α) :=
  if v.isNull then some none else denoted.map some

mutual

/-- The type that a value denotes; `inner` if it stands inside another one. -/
def ofValue? (inner : Bool) : Value → Option BodyType
  | .object fields =>
    match Kind.ofFields? inner fields with
    | none => none
    | some .object => (membersField? "members" fields).map .object
    | some .array =>
      match elementField? "elementFormat" fields, elementField? "elementType" fields with
      | some format, some type => some (.array format type)
      | _, _ => none
    | some .dictionary => some .dictionary
    | some .enumeration => ((Fields.only? "values" fields).bind texts?).map .enumeration
    | some .primitive =>
      match (Fields.only? "name" fields).bind Value.text?, (Fields.atMostOne? "nullable" fields).bind flag? with
      | some name, some nullable => some (.primitive name nullable)
      | _, _ => none
    | some .xml => some .xml
    | some .unsupported => some .unsupported
  | .array (tag :: arguments) =>
    match Kind.ofValue? inner tag, arguments with
    | some .object, [v] => (membersOfValue? v).map .object
    | some .array, [format, type] =>
      match orNull format (ofValue? true format), orNull type (ofValue? true type) with
      | some format, some type => some (.array format type)
      | _, _ => none
    | some .dictionary, [] => some .dictionary
    | some .enumeration, [v] => (texts? v).map .enumeration
    | some .primitive, [.text name] => some (.primitive name false)
    | some .primitive, [.text name, .bool nullable] => some (.primitive name nullable)
    | some .xml, [] => some .xml
    | some .unsupported, [] => some .unsupported
    | _, _ => none
  | _ => none
termination_by structural v => v

/-- The type of the elements under a name that stands there at most once. -/
def elementField? (name : String) : List (String × Value) → Option (Option BodyType)
  | [] => some none
  | (k, v) :: rest =>
    if k = name then if (Fields.all name rest).isEmpty then orNull v (ofValue? true v) else none
    else elementField? name rest
termination_by structural fields => fields

/-- The type that stands once under a name. -/
def field? (name : String) : List (String × Value) → Option BodyType
  | [] => none
  | (k, v) :: rest =>
    if k = name then if (Fields.all name rest).isEmpty then ofValue? true v else none
    else field? name rest
termination_by structural fields => fields

/-- The member that a value denotes. -/
def memberOfValue? : Value → Option (Member BodyType)
  | .object fields =>
    match (Fields.only? "name" fields).bind Value.text?, field? "type" fields,
        (Fields.atMostOne? "passThrough" fields).bind flag? with
    | some name, some type, some passThrough => some ⟨name, type, passThrough⟩
    | _, _, _ => none
  | .array [.text name, v] => (ofValue? true v).map fun type => ⟨name, type, false⟩
  | .array [.text name, v, .bool passThrough] =>
    (ofValue? true v).map fun type => ⟨name, type, passThrough⟩
  | _ => none
termination_by structural v => v

/-- The members that the items of an array denote. -/
def membersOfItems? : List Value → Option (List (Member BodyType))
  | [] => some []
  | v :: rest =>
    match memberOfValue? v, membersOfItems? rest with
    | some m, some ms => some (m :: ms)
    | _, _ => none
termination_by structural vs => vs

/-- The members that a value denotes, if it is an array of them. -/
def membersOfValue? : Value → Option (List (Member BodyType))
  | .array items => membersOfItems? items
  | _ => none
termination_by structural v => v

/-- The members that stand once under a name. -/
def membersField? (name : String) : List (String × Value) → Option (List (Member BodyType))
  | [] => none
  | (k, v) :: rest =>
    if k = name then if (Fields.all name rest).isEmpty then membersOfValue? v else none
    else membersField? name rest
termination_by structural fields => fields

end

theorem field?_eq (name : String) (fields : Fields) :
    field? name fields = (fields.only? name).bind (ofValue? true) :=
  Fields.search_eq_only? (fun _ _ _ => rfl) rfl fields

theorem membersField?_eq (name : String) (fields : Fields) :
    membersField? name fields = (fields.only? name).bind membersOfValue? :=
  Fields.search_eq_only? (fun _ _ _ => rfl) rfl fields

theorem elementField?_eq (name : String) (fields : Fields) :
    elementField? name fields = (fields.atMostOne? name).bind fun v? =>
      (v?.map fun v => orNull v (ofValue? true v)).getD (some none) :=
  Fields.search_eq_atMostOne? (fun _ _ _ => rfl) fields

theorem membersOfItems?_eq (items : List Value) :
    membersOfItems? items = items.mapM memberOfValue? := by
  induction items with
  | nil => rfl
  | cons v rest ih =>
    simp only [membersOfItems?, List.mapM_cons, ih]
    cases memberOfValue? v <;> cases List.mapM memberOfValue? rest <;> rfl

theorem membersOfValue?_eq (v : Value) :
    membersOfValue? v = v.items?.bind (·.mapM memberOfValue?) := by
  cases v with
  | array items => exact membersOfItems?_eq items
  | _ => rfl

/-! ## Writing -/

/-- The object of a kind with further fields. -/
def Kind.toValue (kind : Kind) (fields : Fields) : Value :=
  .object (("kind", .text kind.name) :: fields)

mutual

/-- The object that denotes a type. -/
def toValue : BodyType → Value
  | .object members => Kind.toValue .object [("members", .array (membersToValues members))]
  | .array format type =>
    Kind.toValue .array [("elementFormat", elementToValue format), ("elementType", elementToValue type)]
  | .dictionary => Kind.toValue .dictionary []
  | .enumeration values => Kind.toValue .enumeration [("values", .array (values.map .text))]
  | .primitive name nullable =>
    Kind.toValue .primitive [("name", .text name), ("nullable", .bool nullable)]
  | .xml => Kind.toValue .xml []
  | .unsupported => Kind.toValue .unsupported []
termination_by structural type => type

/-- The value of the type of elements, which may be missing. -/
def elementToValue : Option BodyType → Value
  | none => .null
  | some type => toValue type
termination_by structural type => type

/-- The objects that denote the members. -/
def membersToValues : List (Member BodyType) → List Value
  | [] => []
  | member :: rest =>
    .object [("name", .text member.name), ("type", toValue member.type),
      ("passThrough", .bool member.passThrough)] :: membersToValues rest
termination_by structural members => members

end

end OperationCatalog.BodyType
