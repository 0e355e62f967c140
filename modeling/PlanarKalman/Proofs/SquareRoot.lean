import Mathlib.Analysis.Real.Sqrt
import PlanarKalman.Geometry
import PlanarKalman.Proofs.OrderedField

/-!
# Square roots in exact arithmetic

An ordered field need not have square roots, so a root is assumed to be what it is called
(`LawfulSquareRoot`): of a number that is not negative it is the root that is not negative.
The real numbers have such roots. Distances are then exact, and none is negative.
-/

namespace PlanarKalman

/-- Every number that is not negative has a root that is not negative. -/
class LawfulSquareRoot (K : Type) [Field K] [LinearOrder K] [SquareRoot K] : Prop where
  sqrt_nonneg : ∀ {a : K}, 0 ≤ a → 0 ≤ SquareRoot.sqrt a
  mul_self_sqrt : ∀ {a : K}, 0 ≤ a → SquareRoot.sqrt a * SquareRoot.sqrt a = a

noncomputable instance : SquareRoot ℝ := ⟨Real.sqrt⟩

instance : LawfulSquareRoot ℝ where
  sqrt_nonneg _ := Real.sqrt_nonneg _
  mul_self_sqrt h := Real.mul_self_sqrt h

namespace Point

variable {K : Type} [Field K] [LinearOrder K] [IsStrictOrderedRing K] [SquareRoot K]
  [LawfulSquareRoot K]

theorem distance_nonneg (p q : Point K) : 0 ≤ p.distance q :=
  LawfulSquareRoot.sqrt_nonneg (add_nonneg (mul_self_nonneg _) (mul_self_nonneg _))

theorem distance_eq_iff {p q : Point K} {d : K} (hd : 0 ≤ d) :
    p.distance q = d ↔
      d * d = (p.x - q.x) * (p.x - q.x) + (p.y - q.y) * (p.y - q.y) := by
  have hsquare : p.distance q * p.distance q
      = (p.x - q.x) * (p.x - q.x) + (p.y - q.y) * (p.y - q.y) :=
    LawfulSquareRoot.mul_self_sqrt (add_nonneg (mul_self_nonneg _) (mul_self_nonneg _))
  rw [← hsquare, mul_self_inj hd (distance_nonneg p q), eq_comm]

end Point

end PlanarKalman
