import OperationCatalog.Json.Numeral
import OperationCatalog.Json.Text

/-!
# Passing over JSON values

`passValue` finds the end of a value without building it.  It only checks the grammar: the value may
be nested to any depth, its numbers may be out of range and its escapes may denote half a surrogate
pair.  The open arrays and objects are kept on a stack, so deep nesting costs no recursion.
-/

namespace OperationCatalog.Json

/-- The white space of the format. -/
def isSpace (c : Char) : Bool := c = ' ' || c = '\n' || c = '\t' || c = '\r'

/-- What comes after the white space. -/
def dropSpace (cs : List Char) : List Char := cs.dropWhile isSpace

/-- What must come next. -/
inductive Awaited
  | value
  | field
  | next
  deriving DecidableEq

/-- What follows a name and its colon, from the opening quote of the name on. -/
def passName (cs : List Char) : Option (List Char) :=
  match dropSpace cs with
  | '"' :: rest =>
    match (passText rest).map dropSpace with
    | some (':' :: rest) => some rest
    | _ => none
  | _ => none

/-- What follows the value that the text begins with.  The stack holds one entry for each array or
object that is open, `true` for an object. -/
def pass : Nat → List Bool → Awaited → List Char → Option (List Char)
  | 0, _, _, _ => none
  | _ + 1, [], .next, cs => some cs
  | fuel + 1, inObject :: stack, .next, cs =>
    match dropSpace cs with
    | ',' :: rest => pass fuel (inObject :: stack) (if inObject then .field else .value) rest
    | ']' :: rest => if inObject then none else pass fuel stack .next rest
    | '}' :: rest => if inObject then pass fuel stack .next rest else none
    | _ => none
  | fuel + 1, stack, .field, cs => (passName cs).bind (pass fuel stack .value)
  | fuel + 1, stack, .value, cs =>
    match dropSpace cs with
    | '[' :: rest =>
      match dropSpace rest with
      | ']' :: rest => pass fuel stack .next rest
      | rest => pass fuel (false :: stack) .value rest
    | '{' :: rest =>
      match dropSpace rest with
      | '}' :: rest => pass fuel stack .next rest
      | rest => pass fuel (true :: stack) .field rest
    | '"' :: rest => (passText rest).bind (pass fuel stack .next)
    | 'n' :: 'u' :: 'l' :: 'l' :: rest => pass fuel stack .next rest
    | 't' :: 'r' :: 'u' :: 'e' :: rest => pass fuel stack .next rest
    | 'f' :: 'a' :: 'l' :: 's' :: 'e' :: rest => pass fuel stack .next rest
    | cs => (Numeral.read cs).bind fun (_, rest) => pass fuel stack .next rest

/-- What follows the value that the text begins with. -/
def passValue (cs : List Char) : Option (List Char) := pass (cs.length + 2) [] .value cs

end OperationCatalog.Json
