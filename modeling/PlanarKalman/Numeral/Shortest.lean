import PlanarKalman.Numeral.Binary64

/-!
# The fewest digits that read back

Every real number close enough to a binary64 number is rounded to it when it is
read: the reals between the two halfway points to its neighbours, these points
included when the significand is even. Among the decimals `d * 10 ^ k` in that
interval the one written is on the coarsest grid, that is, has the greatest
`k`; of several on that grid it is the nearest to the number.

If a grid meets the interval at all, one of the two grid points around the
number itself lies in it, because the number does. So two candidates are tested
on each grid, exactly, by cross-multiplying. Everything is counted in quarters
of the last binary place: below a power of two the neighbour is only half as
far, and then the lower halfway point is one quarter away instead of two.
-/

namespace PlanarKalman.Numeral

/-- The decimal number `coefficient * 10 ^ exponent`. -/
structure Decimal where
  coefficient : Nat
  exponent : Int
deriving DecidableEq, Repr

namespace Decimal

/-- The multiple of `10 ^ k` that is written for `m * 2 ^ exponent`,
if there is one that reads back. -/
def onGrid? (m : Nat) (exponent k : Int) : Option Decimal :=
  let above := powerAbove 2 (exponent - 2) * powerBelow 10 k
  let below := powerBelow 2 (exponent - 2) * powerAbove 10 k
  let value := 4 * m * above
  let isNarrow := m = Binary64.leadingOne ∧ Binary64.leastExponent < exponent
  let low := (4 * m - if isNarrow then 1 else 2) * above
  let high := (4 * m + 2) * above
  let readsBack (d : Nat) : Bool :=
    if m % 2 = 0 then low ≤ d * below ∧ d * below ≤ high
    else low < d * below ∧ d * below < high
  let d := value / below
  match readsBack d, readsBack (d + 1) with
  | true, true => some ⟨roundQuotient value below, k⟩
  | true, false => some ⟨d, k⟩
  | false, true => some ⟨d + 1, k⟩
  | false, false => none

/-- Tries `k`, `k - 1`, … for the given number of grids. -/
def coarsest? (significand : Nat) (exponent : Int) : Nat → Int → Option Decimal
  | 0, _ => none
  | grids + 1, k =>
    match onGrid? significand exponent k with
    | some d => some d
    | none => coarsest? significand exponent grids (k - 1)

/-- The shortest decimal that reads back as `significand * 2 ^ exponent`.

The search begins at a power of ten above the number, from its binary length
and `0.30103`, slightly more than the logarithm of two; seventeen digits always
read back, and the estimate is less than three grids too coarse. -/
def shortest (significand : Nat) (exponent : Int) : Decimal :=
  let length : Int := significand.log2 + 1 + exponent
  let start := length * 30103 / 100000 + 2
  (coarsest? significand exponent 22 start).getD ⟨0, 0⟩

def digits (d : Decimal) : List Char := Nat.toDigits 10 d.coefficient

end Decimal

end PlanarKalman.Numeral
