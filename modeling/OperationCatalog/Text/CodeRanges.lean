/-!
# Sets of characters

A property of characters is kept as the ranges of code points that have it.
-/

namespace OperationCatalog.Text

/-- Ranges of code points, first and last of each. -/
abbrev CodeRanges := List (Nat × Nat)

/-- Whether one of the ranges holds `c`. -/
def CodeRanges.holds (ranges : CodeRanges) (c : Char) : Bool :=
  ranges.any fun r => r.1 ≤ c.toNat && c.toNat ≤ r.2

end OperationCatalog.Text
