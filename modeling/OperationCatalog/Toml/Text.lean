import OperationCatalog.Text.Digit
import OperationCatalog.Toml.Fabric

/-!
# TOML strings

The four kinds of string: quoted once or three times, by double quotes with escapes or by single ones
without.
-/

namespace OperationCatalog.Toml

/-- A character that stands for itself between double quotes. -/
def isPlain (c : Char) : Bool := !isControl c && c ≠ '"' && c ≠ '\\'

/-- A character that stands for itself between single quotes. -/
def isLiteral (c : Char) : Bool := !isControl c && c ≠ '\''

/-- The character whose code point `n` hexadecimal digits give. -/
def codePoint (n : Nat) : Scan Char := do
  let digits ← Scan.count (fun c => (Text.hexDigit? c).isSome) n
  Scan.orFail ((Text.hexadecimal? digits).bind Text.charOfNat?)

/-- The character that an escape denotes. -/
def escape : Scan Char := do
  let _ ← Scan.satisfy (· = '\\')
  match ← Scan.satisfy fun _ => true with
  | 'b' => pure '\x08'
  | 'f' => pure '\x0C'
  | 'n' => pure '\n'
  | 'r' => pure '\r'
  | 't' => pure '\t'
  | '"' => pure '"'
  | '\\' => pure '\\'
  | 'u' => codePoint 4
  | 'U' => codePoint 8
  | _ => failure

/-- A string between double quotes. -/
def basicText : Scan String := do
  Scan.exactly ['"']
  let pieces ← Scan.many (Scan.someRun isPlain <|> (do return [← escape]))
  Scan.exactly ['"']
  return String.ofList pieces.flatten

/-- A string between single quotes. -/
def literalText : Scan String := do
  Scan.exactly ['\'']
  let s ← Scan.run isLiteral
  Scan.exactly ['\'']
  return String.ofList s

/-- The end of a line, which is a single line feed in the string. -/
def lineBreak : Scan (List Char) := do
  newline
  return ['\n']

/-- A backslash at the end of a line: it and all white space up to the next character are left out. -/
def continuation : Scan (List Char) := do
  Scan.exactly ['\\']
  space
  newline
  let _ ← Scan.many (newline <|> (do let _ ← Scan.someRun isSpace))
  return []

/-- One or two of the quotes that close a string by three, when `next` comes after them. -/
def innerQuotes (quote : Char) (next : Scan Unit) : Scan (List Char) :=
  (do Scan.exactly [quote, quote]; next.ahead; return [quote, quote])
    <|> (do Scan.exactly [quote]; next.ahead; return [quote])

/-- A string between three quotes whose content consists of such pieces.  An end of line right behind
the opening quotes does not count; up to two quotes may stand anywhere in it, also at its end. -/
def longText (quote : Char) (piece : Scan (List Char)) : Scan String := do
  let quotes := [quote, quote, quote]
  Scan.exactly quotes
  let _ ← Scan.maybe newline
  let pieces ← Scan.many (piece <|> innerQuotes quote (do let _ ← piece))
  let last ← Scan.maybe (innerQuotes quote (Scan.exactly quotes))
  Scan.exactly quotes
  return String.ofList (pieces.flatten ++ last.getD [])

/-- A string between three double quotes. -/
def longBasicText : Scan String :=
  longText '"' (Scan.someRun isPlain <|> continuation <|> (do return [← escape]) <|> lineBreak)

/-- A string between three single quotes. -/
def longLiteralText : Scan String := longText '\'' (Scan.someRun isLiteral <|> lineBreak)

/-- A string of any kind. -/
def text : Scan String := longBasicText <|> basicText <|> longLiteralText <|> literalText

/-! ## Keys -/

/-- A character of a key without quotes. -/
def isBare (c : Char) : Bool := c.isAlphanum || c = '-' || c = '_'

/-- One part of a key. -/
def simpleKey : Scan String :=
  basicText <|> literalText <|> (do return String.ofList (← Scan.someRun isBare))

/-- How many parts a key may have. -/
def keyLimit : Nat := 79

/-- A key: parts with dots between them, and white space around each. -/
def key : Scan (List String) := do
  let parts ← Scan.someSeparated (space *> simpleKey <* space) (Scan.exactly ['.'])
  Scan.require (parts.length ≤ keyLimit)
  return parts

end OperationCatalog.Toml
