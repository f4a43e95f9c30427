/-!
# Types of bodies

The serialised form of a request or response body, as a service declares it.
-/

namespace OperationCatalog

/-- A member of an object.  The members of a type `τ` are its children in the tree. -/
structure Member (τ : Type) where
  name : String
  type : τ
  /-- The object is only an envelope: this member's type stands for the whole of it. -/
  passThrough : Bool
  deriving DecidableEq

/-- The declared type of a body. -/
inductive BodyType where
  | object (members : List (Member BodyType))
  | array (elementFormat elementType : Option BodyType)
  | dictionary
  | enumeration (values : List String)
  | primitive (name : String) (nullable : Bool)
  | xml
  /-- A type of a kind that is not known. -/
  | unsupported

namespace BodyType

/-- The kinds of type, in the order of their numbers. -/
inductive Kind where
  | object
  | array
  | dictionary
  | enumeration
  | primitive
  | xml
  | unsupported
  deriving DecidableEq

/-- The name of a kind in documents and messages. -/
def Kind.name : Kind → String
  | .object => "object"
  | .array => "array"
  | .dictionary => "dictionary"
  | .enumeration => "enum"
  | .primitive => "primitive"
  | .xml => "xml"
  | .unsupported => "unsupported"

/-- All kinds, in the order of their numbers. -/
def Kind.all : List Kind :=
  [.object, .array, .dictionary, .enumeration, .primitive, .xml, .unsupported]

/-- The kind of a type. -/
def kind : BodyType → Kind
  | .object _ => .object
  | .array _ _ => .array
  | .dictionary => .dictionary
  | .enumeration _ => .enumeration
  | .primitive _ _ => .primitive
  | .xml => .xml
  | .unsupported => .unsupported

end BodyType

end OperationCatalog
