/-!
# Number systems

Everything in this library that computes with coordinates is written once, over
an arbitrary `Scalar`. The programs run it on binary64 numbers; a theorem about
the filter as mathematics runs the same definitions on an ordered field. What
both have to offer is listed in the class below, and nothing is assumed about
it: rounding, overflow and the absence of an order between some numbers are all
allowed.

Numerals are written with a point (`4.0`, `0.5`), so that each of them is one
call of `OfScientific` in either reading; only `0` and `1` come from the class.
-/

namespace PlanarKalman

/-- Numbers that can be added, multiplied, divided and compared, with a test
that tells the ordinary ones from overflow and from undefined results. No laws
are asked for. -/
class Scalar (α : Type) extends
    Zero α, One α, Add α, Sub α, Mul α, Div α, Neg α, NatCast α, OfScientific α,
    BEq α, LT α, LE α where
  isFinite : α → Bool
  decidableLT : DecidableLT α
  decidableLE : DecidableLE α

attribute [reducible, instance] Scalar.decidableLT Scalar.decidableLE

class SquareRoot (α : Type) where
  sqrt : α → α

instance : Scalar Float where
  zero := 0.0
  one := 1.0
  natCast := Float.ofNat
  isFinite := Float.isFinite
  decidableLT := inferInstance
  decidableLE := inferInstance

instance : SquareRoot Float := ⟨Float.sqrt⟩

variable {α : Type} [Scalar α]

def magnitude (a : α) : α := if a < 0 then -a else a

/-- The larger of two numbers. A second argument that compares with nothing is
passed over, so a running maximum that starts from a number stays one. -/
def larger (a b : α) : α := if a < b then b else a

/-- The nearest number to `a` between `low` and `high`; a number that compares
with neither bound is left as it is. -/
def clampBetween (low high a : α) : α :=
  let raised := if a < low then low else a
  if high < raised then high else raised

/-- The numbers a validated parameter may hold when zero is allowed. -/
def IsNonNegative (a : α) : Prop := Scalar.isFinite a = true ∧ ¬ a < 0

/-- The numbers a validated parameter may hold when zero is not allowed. -/
def IsPositive (a : α) : Prop := Scalar.isFinite a = true ∧ ¬ a ≤ 0

instance (a : α) : Decidable (IsNonNegative a) :=
  inferInstanceAs (Decidable (_ ∧ _))

instance (a : α) : Decidable (IsPositive a) :=
  inferInstanceAs (Decidable (_ ∧ _))

end PlanarKalman
