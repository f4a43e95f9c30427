import OperationCatalog.Text.Scan

/-!
# The fabric of TOML documents

White space, comments and ends of lines.
-/

namespace OperationCatalog.Toml

/-- White space within a line. -/
def isSpace (c : Char) : Bool := c = ' ' || c = '\t'

/-- A character that no comment and no string may hold as it is. -/
def isControl (c : Char) : Bool := (c < ' ' && c ≠ '\t') || c = '\x7F'

/-- White space within a line, as much as there is. -/
def space : Scan Unit := do
  let _ ← Scan.run isSpace

/-- The end of a line. -/
def newline : Scan Unit := do
  let _ ← Scan.maybe (Scan.satisfy (· = '\r'))
  let _ ← Scan.satisfy (· = '\n')

/-- A comment up to the end of its line. -/
def comment : Scan Unit := do
  let _ ← Scan.satisfy (· = '#')
  let _ ← Scan.run (!isControl ·)

/-- The end of the text. -/
def endOfText : Scan Unit
  | [] => some ((), [])
  | _ => none

/-- The rest of a line after what counts on it. -/
def lineEnd : Scan Unit := do
  space
  let _ ← Scan.maybe comment
  newline <|> endOfText

/-- White space, comments and ends of lines. -/
def filler : Scan Unit := do
  space
  let _ ← Scan.many (((comment *> newline) <|> newline) *> space)

end OperationCatalog.Toml
