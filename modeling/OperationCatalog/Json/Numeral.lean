import OperationCatalog.Text.Digit
import OperationCatalog.Value

/-!
# JSON numbers

`Numeral.read` takes the longest number at the start of a text apart; `Numeral.value?` is what it
stands for.  A whole number that fits 64 bits is kept exactly.  Any other one becomes a double by way
of a significand of 64 bits, to which digits are added as long as they fit, and one multiplication or
division by a power of ten; a number beyond the largest double stands for nothing.
-/

namespace OperationCatalog.Json

/-- The parts of a number: its sign, the digits before the point, those after it, and the exponent. -/
structure Numeral where
  negative : Bool
  whole : List Char
  fraction : Option (List Char)
  exponent : Option Int
  deriving DecidableEq

namespace Numeral

/-- One digit or more. -/
def readDigits (cs : List Char) : Option (List Char × List Char) :=
  match cs.takeWhile Char.isDigit with
  | [] => none
  | ds => some (ds, cs.dropWhile Char.isDigit)

/-- The digits before the point: no zero stands in front of others. -/
def readWhole : List Char → Option (List Char × List Char)
  | '0' :: rest => if (rest.head?.map Char.isDigit).getD false then none else some (['0'], rest)
  | cs => readDigits cs

/-- A point with its digits, if there is one. -/
def readFraction : List Char → Option (Option (List Char) × List Char)
  | '.' :: rest => (readDigits rest).map fun (ds, rest) => (some ds, rest)
  | cs => some (none, cs)

/-- An exponent, if there is one. -/
def readExponent : List Char → Option (Option Int × List Char)
  | e :: rest =>
    if e = 'e' ∨ e = 'E' then
      match rest with
      | '-' :: rest => (readDigits rest).map fun (ds, rest) => (some (-Text.decimal ds), rest)
      | '+' :: rest => (readDigits rest).map fun (ds, rest) => (some (Text.decimal ds), rest)
      | _ => (readDigits rest).map fun (ds, rest) => (some (Text.decimal ds), rest)
    else some (none, e :: rest)
  | [] => some (none, [])

/-- The number at the start of a text and what comes after it. -/
def read (cs : List Char) : Option (Numeral × List Char) := do
  let (negative, cs) := match cs with
    | '-' :: rest => (true, rest)
    | cs => (false, cs)
  let (whole, cs) ← readWhole cs
  let (fraction, cs) ← readFraction cs
  let (exponent, cs) ← readExponent cs
  return (⟨negative, whole, fraction, exponent⟩, cs)

/-- A significand and how many digits were left out or, negative, stand behind the point. -/
structure Significand where
  value : Nat
  exponent : Int

/-- The digits before the point: the first that no longer fits 64 bits is left out, and all after it. -/
def Significand.addWhole (s : Significand) : List Char → Significand
  | [] => s
  | d :: rest =>
    let next := 10 * s.value + Text.digitValue d
    if next < wordLimit then addWhole ⟨next, s.exponent⟩ rest
    else ⟨s.value, s.exponent + (rest.length + 1)⟩

/-- The digits after the point, as many as fit. -/
def Significand.addFraction (s : Significand) : List Char → Significand
  | [] => s
  | d :: rest =>
    let next := 10 * s.value + Text.digitValue d
    if next < wordLimit then addFraction ⟨next, s.exponent - 1⟩ rest else s

/-- `x * 10 ^ exponent`, by one multiplication or division after as many divisions by `10 ^ 308` as
there is fuel for and need of; three bring any significand to zero. -/
def scale (x : Float) (exponent : Int) : Nat → Option Float
  | 0 => some 0
  | fuel + 1 =>
    if exponent.natAbs ≤ 308 then
      let power := Float.ofScientific 1 false exponent.natAbs
      if exponent < 0 then some (x / power)
      else if (x * power).isInf then none else some (x * power)
    else if x == 0 then some x
    else if 0 ≤ exponent then none
    else scale (x / Float.ofScientific 1 false 308) (exponent + 308) fuel

/-- The double that a numeral stands for. -/
def float? (n : Numeral) : Option Float := do
  let s := (Significand.addWhole ⟨0, 0⟩ n.whole).addFraction (n.fraction.getD [])
  let size ← scale (Float.ofNat s.value) (s.exponent + n.exponent.getD 0) 4
  return if n.negative then -size else size

/-- What a numeral stands for. -/
def value? (n : Numeral) : Option Value :=
  let size := Text.decimal n.whole
  if n.fraction.isSome ∨ n.exponent.isSome then n.float?.map .float
  else if n.negative then
    if 0 < size ∧ size ≤ signLimit then some (.integer (-size)) else n.float?.map .float
  else if size < wordLimit then some (.natural size)
  else n.float?.map .float

end Numeral

end OperationCatalog.Json
