import OperationCatalog.Decimal.Layout
import OperationCatalog.Json.Text
import OperationCatalog.Value

/-!
# Writing JSON

The compact text of a value: no white space, characters outside ASCII as they are.
-/

namespace OperationCatalog.Json

/-- Numbers have the fewest digits that read back, of two equally near ones the even.  They are
written without exponent between `1e-5` and `1e16`, then with `.0` if they are whole.  What is not a
number is written `null`. -/
def numberLayout : Decimal.Layout where
  tie := .even
  positional := fun lead => -5 ≤ lead && lead < 16
  wholeEnd := ".0"
  infinity := "null"
  negativeInfinity := "null"
  notANumber := "null"

mutual

/-- The text of a value. -/
def write : Value → List Char
  | .null => "null".toList
  | .bool true => "true".toList
  | .bool false => "false".toList
  | .natural n => (toString n).toList
  | .integer i => (toString i).toList
  | .float x => (numberLayout.text x).toList
  | .text s => writeText s.toList
  | .array [] => ['[', ']']
  | .array (v :: rest) => '[' :: write v ++ writeItems rest
  | .object [] => ['\x7b', '\x7d']
  | .object ((name, v) :: rest) =>
    '\x7b' :: writeText name.toList ++ ':' :: write v ++ writeFields rest

/-- The items after the first one, each with the comma before it, and the closing bracket. -/
def writeItems : List Value → List Char
  | [] => [']']
  | v :: rest => ',' :: write v ++ writeItems rest

/-- The fields after the first one, each with the comma before it, and the closing brace. -/
def writeFields : List (String × Value) → List Char
  | [] => ['\x7d']
  | (name, v) :: rest => ',' :: writeText name.toList ++ ':' :: write v ++ writeFields rest

end

/-- The text of a value. -/
def text (v : Value) : String := String.ofList (write v)

end OperationCatalog.Json
