import OperationCatalog.Toml.Moment
import OperationCatalog.Toml.Number
import OperationCatalog.Toml.Table
import OperationCatalog.Toml.Text

/-!
# Reading TOML

`read` turns the text of a document into a value, by version 1.0 of the format.
-/

namespace OperationCatalog.Toml

/-- A value that is not made of others. -/
def scalar : Scan Value :=
  (do return .text (← text))
    <|> (do Scan.exactly ['t', 'r', 'u', 'e']; return .bool true)
    <|> (do Scan.exactly ['f', 'a', 'l', 's', 'e']; return .bool false)
    <|> moment <|> number

/-- An array, which may go over several lines and end with a comma. -/
def array (item : Scan Value) : Scan Value := do
  Scan.exactly ['[']
  let items ← Scan.separated (filler *> item <* filler) (Scan.exactly [','])
  if !items.isEmpty then
    let _ ← Scan.maybe (Scan.exactly [','])
  filler
  Scan.exactly [']']
  return .array items

/-- A key with its value. -/
def pair (item : Scan Value) : Scan (List String × Value) := do
  let k ← key
  Scan.exactly ['=']
  space
  return (k, ← item)

/-- An inline table. -/
def inlineTable (item : Scan Value) : Scan Value := do
  Scan.exactly ['\x7b']
  let pairs ← Scan.separated (pair item <* space) (Scan.exactly [','])
  space
  Scan.exactly ['\x7d']
  Scan.orFail (inlineTable? pairs)

/-- A value with at most `depth` arrays and inline tables inside each other. -/
def value : Nat → Scan Value
  | 0 => scalar
  | depth + 1 => array (value depth) <|> inlineTable (value depth) <|> scalar

/-- How many arrays and inline tables may stand inside each other. -/
def nestingLimit : Nat := 79

/-- What counts on a line, if anything does. -/
inductive Line where
  | empty
  | header (path : List String) (element : Bool)
  | pair (path : List String) (value : Value)

/-- One line, or several if a value goes over them. -/
def line : Scan Line :=
  (do comment; newline <|> endOfText; return .empty)
    <|> (do newline; return .empty)
    <|> (do
      Scan.exactly ['[', '[']
      let path ← key
      Scan.exactly [']', ']']
      lineEnd
      return .header path true)
    <|> (do
      Scan.exactly ['[']
      let path ← key
      Scan.exactly [']']
      lineEnd
      return .header path false)
    <|> (do
      let (path, v) ← pair (value nestingLimit)
      lineEnd
      return .pair path v)

/-- The parts of a document, in order, given the part that is open. -/
def partsOf (part : Part) : List Line → List Part
  | [] => [part]
  | .empty :: rest => partsOf part rest
  | .header path element :: rest => part :: partsOf ⟨path, element, []⟩ rest
  | .pair path v :: rest => partsOf { part with pairs := part.pairs ++ [(path, v)] } rest

/-- The text without the mark that may stand before it. -/
def dropByteOrderMark : List Char → List Char
  | '\uFEFF' :: rest => rest
  | cs => cs

/-- The value of a document. -/
def read (text : String) : Option Value := do
  let lines ← (space *> Scan.many (line <* space)).complete (dropByteOrderMark text.toList)
  documentValue? (partsOf ⟨[], false, []⟩ lines)

end OperationCatalog.Toml
