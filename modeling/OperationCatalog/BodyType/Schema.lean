import OperationCatalog.BodyType
import OperationCatalog.Text.Case
import OperationCatalog.Text.Trim
import OperationCatalog.Value

/-!
# Schemas

The simplified schema of a body: an object with the schema of each member under its name, an array
with the schema of its elements, or a text such as `(string)` or `(red|green)`.
-/

namespace OperationCatalog

/-- Why a type has no schema. -/
inductive SchemaError where
  | missingArrayElement
  | unsupportedArrayElement (kind : BodyType.Kind)
  | unsupportedType (kind : BodyType.Kind)
  deriving DecidableEq

/-- The wording of an error. -/
def SchemaError.message : SchemaError → String
  | .missingArrayElement => "array declares neither an element format nor an element type"
  | .unsupportedArrayElement kind => "unsupported array element type \x60" ++ kind.name ++ "\x60"
  | .unsupportedType kind => "unsupported type metadata kind \x60" ++ kind.name ++ "\x60"

namespace BodyType

/-- The name inside a nullable spelling: `Nullable<T>` and `Nullable[[T]]` wrap it in brackets, `T?`
marks it behind. -/
def nullableInner (name : String) : String :=
  let cs := Text.trimChars name.toList
  match cs.dropWhile fun c => c ≠ '<' && c ≠ '[' with
  | [] => String.ofList (Text.dropTrailing (· = '?') cs)
  | _ :: inner =>
    let opened := (Text.dropTrailing (fun c => c = '>' || c = ']') inner).dropWhile (· = '[')
    String.ofList (Text.trimChars opened)

/-- The schema of a type that is known by a text alone: an enumeration by its values, a primitive type
by its lower-cased name. -/
def leafSchema : BodyType → Except SchemaError Value
  | .enumeration values => .ok (.text ("(" ++ String.intercalate "|" values ++ ")"))
  | .primitive name nullable =>
    .ok (.text ("(" ++ Text.lower (if nullable then nullableInner name else name) ++ ")"))
  | type => .error (.unsupportedArrayElement type.kind)

mutual

/-- The schema of a type.  The elements of an array have the schema of their format or else that of
their type, which must be an enumeration or a primitive one. -/
def schema : BodyType → Except SchemaError Value
  | .object members => membersSchema [] members
  | .array (some format) _ => (schema format).map fun s => .array [s]
  | .array none (some element) => (leafSchema element).map fun s => .array [s]
  | .array none none => .error .missingArrayElement
  | .dictionary => .ok (.object [])
  | .enumeration values => leafSchema (.enumeration values)
  | .primitive name nullable => leafSchema (.primitive name nullable)
  | .xml => .ok (.text "(xml)")
  | .unsupported => .error (.unsupportedType .unsupported)
termination_by structural type => type

/-- The schema of an object, `fields` being those of the members before.  The first member that
passes through gives the schema of the whole. -/
def membersSchema (fields : Fields) : List (Member BodyType) → Except SchemaError Value
  | [] => .ok (.object fields)
  | member :: rest =>
    if member.passThrough then schema member.type
    else
      match schema member.type with
      | .error e => .error e
      | .ok s => membersSchema (fields.put member.name s) rest
termination_by structural members => members

end

end BodyType

end OperationCatalog
