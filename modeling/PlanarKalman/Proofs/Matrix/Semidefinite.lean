import Mathlib.Algebra.Order.Field.Basic
import Mathlib.LinearAlgebra.Matrix.DotProduct
import Mathlib.LinearAlgebra.Matrix.Symmetric
import Mathlib.LinearAlgebra.Matrix.Trace

/-!
# Covariances

A matrix over an ordered field can be the covariance of something when it is
symmetric and gives no combination of the components a negative variance. The
covariances are closed under sums, under non-negative multiples and under
looking at them through any linear map (`Semidefinite.congruence`); these three
are all that a linear filter does to a covariance.

One covariance is below another when the difference is a covariance. Then no
variance and no sum of variances of the first is larger.
-/

namespace PlanarKalman

open Matrix

variable {ι κ K : Type} [Fintype ι] [Fintype κ] [Field K] [LinearOrder K]

omit [Fintype κ] [LinearOrder K] in
/-- A difference seen through a linear map. -/
theorem mul_sub_mul_transpose (M : Matrix κ ι K) (A B : Matrix ι ι K) :
    M * (A - B) * Mᵀ = M * A * Mᵀ - M * B * Mᵀ := by
  rw [Matrix.mul_sub, Matrix.sub_mul]

omit [Fintype κ] [LinearOrder K] in
/-- What is symmetric is so through any linear map. -/
theorem isSymm_congruence {A : Matrix ι ι K} (hA : A.IsSymm) (B : Matrix κ ι K) :
    (B * A * Bᵀ).IsSymm := by
  show (B * A * Bᵀ)ᵀ = B * A * Bᵀ
  rw [transpose_mul, transpose_mul, transpose_transpose, hA.eq, Matrix.mul_assoc]

omit [LinearOrder K] in
/-- The variance of a combination of the components of an image. -/
theorem dotProduct_congruence (A : Matrix ι ι K) (B : Matrix κ ι K) (w : κ → K) :
    w ⬝ᵥ (B * A * Bᵀ) *ᵥ w = (Bᵀ *ᵥ w) ⬝ᵥ A *ᵥ (Bᵀ *ᵥ w) := by
  rw [← mulVec_mulVec, ← mulVec_mulVec, dotProduct_mulVec, mulVec_transpose]

theorem dotProduct_self_nonneg [IsStrictOrderedRing K] (w : ι → K) : 0 ≤ w ⬝ᵥ w :=
  Finset.sum_nonneg fun i _ => mul_self_nonneg (w i)

/-- Symmetric, and no combination `w` of the components has a negative
variance. -/
structure Semidefinite (A : Matrix ι ι K) : Prop where
  isSymm : A.IsSymm
  nonneg : ∀ w : ι → K, 0 ≤ w ⬝ᵥ A *ᵥ w

namespace Semidefinite

/-- The covariance of `B` times something with covariance `A`. A combination of
the components of the image is another combination of those of the original. -/
theorem congruence {A : Matrix ι ι K} (hA : Semidefinite A) (B : Matrix κ ι K) :
    Semidefinite (B * A * Bᵀ) := by
  refine ⟨isSymm_congruence hA.isSymm B, fun w => ?_⟩
  rw [dotProduct_congruence]
  exact hA.nonneg _

/-- The variance of each single component. -/
theorem diagonal_nonneg {A : Matrix ι ι K} (hA : Semidefinite A) (i : ι) :
    0 ≤ A i i := by
  classical
  have h := hA.nonneg (Pi.single i 1)
  rwa [mulVec_single_one, single_one_dotProduct] at h

protected theorem sub_self (A : Matrix ι ι K) : Semidefinite (A - A) := by
  rw [sub_self]
  exact ⟨isSymm_zero, fun w => by rw [zero_mulVec, dotProduct_zero]⟩

variable [IsStrictOrderedRing K]

theorem one [DecidableEq ι] : Semidefinite (1 : Matrix ι ι K) := by
  refine ⟨isSymm_one, fun w => ?_⟩
  rw [one_mulVec]
  exact dotProduct_self_nonneg w

theorem add {A B : Matrix ι ι K} (hA : Semidefinite A) (hB : Semidefinite B) :
    Semidefinite (A + B) := by
  refine ⟨hA.isSymm.add hB.isSymm, fun w => ?_⟩
  rw [add_mulVec, dotProduct_add]
  exact add_nonneg (hA.nonneg w) (hB.nonneg w)

theorem smul {A : Matrix ι ι K} (hA : Semidefinite A) {c : K} (hc : 0 ≤ c) :
    Semidefinite (c • A) := by
  refine ⟨hA.isSymm.smul c, fun w => ?_⟩
  rw [smul_mulVec, dotProduct_smul]
  exact mul_nonneg hc (hA.nonneg w)

theorem mul_transpose [DecidableEq ι] (B : Matrix κ ι K) : Semidefinite (B * Bᵀ) := by
  have h := (one (ι := ι) (K := K)).congruence B
  rwa [Matrix.mul_one] at h

theorem trace_nonneg {A : Matrix ι ι K} (hA : Semidefinite A) : 0 ≤ A.trace :=
  Finset.sum_nonneg fun i _ => hA.diagonal_nonneg i

/-! ## Comparing covariances -/

theorem diagonal_le {A B : Matrix ι ι K} (h : Semidefinite (B - A)) (i : ι) :
    A i i ≤ B i i :=
  sub_nonneg.mp (h.diagonal_nonneg i)

theorem trace_le {A B : Matrix ι ι K} (h : Semidefinite (B - A)) :
    A.trace ≤ B.trace := by
  have htrace := h.trace_nonneg
  rw [trace_sub] at htrace
  exact sub_nonneg.mp htrace

/-- A covariance seen through `M`, with `B` on top, is monotone in both. -/
theorem congruence_add_sub {A A' : Matrix ι ι K} {B B' : Matrix κ κ K}
    (hA : Semidefinite (A' - A)) (hB : Semidefinite (B' - B)) (M : Matrix κ ι K) :
    Semidefinite (M * A' * Mᵀ + B' - (M * A * Mᵀ + B)) := by
  rw [add_sub_add_comm, ← mul_sub_mul_transpose]
  exact (hA.congruence M).add hB

end Semidefinite

end PlanarKalman
