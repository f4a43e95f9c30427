/-!
# Shortest decimals

The fewest decimal digits that tell a binary number apart from its neighbours.  A positive number is
given as `mantissa * 2 ^ exponent`; the reals that round to it form an interval around it, and the
decimals are the multiples of a power of ten.  The coarsest grid with a point in the interval wins.
-/

namespace OperationCatalog.Decimal

/-- Which of two decimals is taken when the number lies exactly in the middle between them. -/
inductive Tie
  | up
  | even
  deriving DecidableEq

/-- The number `digits * 10 ^ exponent`. -/
structure Scaled where
  digits : Nat
  exponent : Int
  deriving DecidableEq

/-- The reals that round to a number, all bounds over one denominator: `low / den` to `high / den`
around `num / den`, with the ends when `closed`. -/
structure Rounding where
  low : Nat
  num : Nat
  high : Nat
  den : Nat
  closed : Bool

namespace Rounding

/-- The interval of `mantissa * 2 ^ exponent` among numbers one unit of the mantissa apart.  Below a
power of two (`narrow`) the neighbour is only half a unit away.  A tie goes to the even mantissa. -/
def around (mantissa : Nat) (exponent : Int) (narrow : Bool) : Rounding :=
  let scale := Nat.pow 2 exponent.toNat
  { low := (4 * mantissa - if narrow then 1 else 2) * scale
    num := 4 * mantissa * scale
    high := (4 * mantissa + 2) * scale
    den := 4 * Nat.pow 2 (-exponent).toNat
    closed := mantissa % 2 = 0 }

/-- Whether `n / d` is in the interval. -/
def holds (r : Rounding) (n d : Nat) : Bool :=
  if r.closed then r.low * d ≤ n * r.den && n * r.den ≤ r.high * d
  else r.low * d < n * r.den && n * r.den < r.high * d

/-- How many digits stand before the decimal point; at most zero if the number is below one, less one
for each zero after the point. -/
def magnitude (r : Rounding) : Int :=
  (Nat.toDigits 10 (r.num * Nat.pow 10 400 / r.den)).length - 400

/-- The point nearest to the number of those multiples of `10 ^ exponent` that are in the interval. -/
def onGrid? (r : Rounding) (tie : Tie) (exponent : Int) : Option Scaled :=
  let up := Nat.pow 10 exponent.toNat
  let down := Nat.pow 10 (-exponent).toNat
  let below := r.num * down / (r.den * up)
  let rest := 2 * (r.num * down % (r.den * up))
  let above := below + 1
  let takeAbove :=
    if r.holds (below * up) down then
      if r.holds (above * up) down then
        if rest = r.den * up then tie = .up || below % 2 = 1 else r.den * up < rest
      else false
    else true
  let chosen := if takeAbove then above else below
  if r.holds (chosen * up) down then some ⟨chosen, exponent⟩ else none

/-- The shortest decimal in the interval, looked for with `count` digits, `count + 1` digits and so on
as long as there is fuel, and the whole part of the number once it is spent: seventeen digits are
always enough for a double. -/
def search (r : Rounding) (tie : Tie) (count : Nat) : Nat → Scaled
  | 0 => ⟨r.num / r.den, 0⟩
  | fuel + 1 =>
    match r.onGrid? tie (r.magnitude - count) with
    | some s => s
    | none => search r tie (count + 1) fuel

/-- The shortest decimal in the interval, of several the nearest to the number. -/
def shortest (r : Rounding) (tie : Tie) : Scaled := r.search tie 1 17

end Rounding

/-- A double as sign and size. -/
inductive Binary64
  | finite (negative : Bool) (mantissa : Nat) (exponent : Int) (narrow : Bool)
  | infinite (negative : Bool)
  | notANumber
  deriving DecidableEq

/-- The fields of a double. -/
def Binary64.ofFloat (x : Float) : Binary64 :=
  let bits := x.toBits.toNat
  let negative := bits.testBit 63
  let biased := bits / Nat.pow 2 52 % Nat.pow 2 11
  let fraction := bits % Nat.pow 2 52
  if biased = 2047 then if fraction = 0 then .infinite negative else .notANumber
  else if biased = 0 then .finite negative fraction (-1074) false
  else .finite negative (Nat.pow 2 52 + fraction) ((biased : Int) - 1075) (fraction = 0 && 1 < biased)

end OperationCatalog.Decimal
