import OperationCatalog.Text.Digit
import OperationCatalog.Text.Scan
import OperationCatalog.Value

/-!
# TOML numbers

Whole numbers of 64 bits with sign, in four bases, and doubles.  Underscores may stand between digits.
-/

namespace OperationCatalog.Toml

/-- A digit of a number whose digits satisfy `p`, with the underscore that may stand before it. -/
def furtherDigit (p : Char → Bool) : Scan Char := do
  let _ ← Scan.maybe (Scan.exactly ['_'])
  Scan.satisfy p

/-- Digits with underscores between them, which do not count. -/
def digits (p : Char → Bool) : Scan (List Char) := do
  let d ← Scan.satisfy p
  let ds ← Scan.many (furtherDigit p)
  return d :: ds

/-- A sign, `true` for minus. -/
def sign : Scan Bool :=
  (do Scan.exactly ['-']; return true) <|> (do Scan.exactly ['+']; return false) <|> pure false

/-- The digits of a decimal number: no zero stands in front of others. -/
def wholeDigits : Scan (List Char) :=
  (do (Scan.satisfy (· ≠ '0')).ahead; digits Char.isDigit) <|> (do Scan.exactly ['0']; return ['0'])

/-- A whole number, if it fits 64 bits with its sign. -/
def integerOf (n : Int) : Scan Value := do
  Scan.require (-signLimit ≤ n && n < signLimit)
  return .integer n

/-- A number after the mark of its base. -/
def basedInteger (mark : Char) (base : Nat) : Scan Value := do
  Scan.exactly ['0', mark]
  let ds ← digits fun c => (Text.hexDigit? c).any (· < base)
  integerOf (ds.foldl (fun n c => base * n + (Text.hexDigit? c).getD 0) 0 : Nat)

/-- A whole number. -/
def integer : Scan Value :=
  basedInteger 'x' 16 <|> basedInteger 'o' 8 <|> basedInteger 'b' 2 <|> do
    let negative ← sign
    let n := Text.decimal (← wholeDigits)
    integerOf (if negative then -n else n)

/-- The double nearest to `mantissa * 10 ^ exponent`; the exponents far beyond those of doubles need no
arithmetic. -/
def nearest (mantissa : Nat) (exponent : Int) : Float :=
  let lead := (Nat.toDigits 10 mantissa).length + exponent
  if mantissa = 0 ∨ lead < -400 then 0
  else if 400 < lead then 1 / 0
  else Float.ofScientific mantissa (exponent < 0) exponent.natAbs

/-- The exponent of a double. -/
def exponentPart : Scan Int := do
  let _ ← Scan.satisfy fun c => c = 'e' || c = 'E'
  let negative ← sign
  let n := Text.decimal (← digits Char.isDigit)
  return if negative then -n else n

/-- The digits behind the point of a double. -/
def fractionPart : Scan (List Char) := do
  Scan.exactly ['.']
  digits Char.isDigit

/-- A double in digits.  One that is too large is refused, unless it is negative. -/
def decimalFloat : Scan Value := do
  let negative ← sign
  let whole ← wholeDigits
  let (fraction, exponent) ←
    (do return ([], ← exponentPart)) <|> (do
      let fraction ← fractionPart
      return (fraction, (← Scan.maybe exponentPart).getD 0))
  let size := nearest (Text.decimal (whole ++ fraction)) (exponent - fraction.length)
  Scan.require (negative || !size.isInf)
  return .float (if negative then -size else size)

/-- A double that no digits denote. -/
def specialFloat : Scan Value := do
  let negative ← sign
  let size ← (do Scan.exactly ['i', 'n', 'f']; return (1 / 0 : Float))
    <|> (do Scan.exactly ['n', 'a', 'n']; return (0 / 0 : Float))
  return .float (if negative then -size else size)

/-- A number of any kind. -/
def number : Scan Value := decimalFloat <|> specialFloat <|> integer

end OperationCatalog.Toml
