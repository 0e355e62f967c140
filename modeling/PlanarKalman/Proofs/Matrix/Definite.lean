import Mathlib.Algebra.QuadraticDiscriminant
import Mathlib.LinearAlgebra.Matrix.NonsingularInverse
import Mathlib.LinearAlgebra.Matrix.ToLinearEquiv
import PlanarKalman.Proofs.Matrix.Semidefinite

/-!
# Covariances without a certain direction

A covariance is definite when no combination of the components is certain. The
definite covariances are those that have an inverse, and the inverse, the
information, is one again. Uncertainty that is added does not take invertibility
away, so what is above a definite covariance is definite.
-/

namespace PlanarKalman

open Matrix

variable {ι K : Type} [Fintype ι] [Field K] [LinearOrder K] {A B : Matrix ι ι K}

/-- Symmetric, and every combination `w` of the components but the empty one has a
positive variance. -/
structure Definite (A : Matrix ι ι K) : Prop where
  isSymm : A.IsSymm
  pos : ∀ w : ι → K, w ≠ 0 → 0 < w ⬝ᵥ A *ᵥ w

theorem Definite.semidefinite (hA : Definite A) : Semidefinite A := by
  refine ⟨hA.isSymm, fun w => ?_⟩
  by_cases hw : w = 0
  · rw [hw, zero_dotProduct]
  · exact (hA.pos w hw).le

theorem Definite.isUnit_det [DecidableEq ι] (hA : Definite A) : IsUnit A.det := by
  rw [isUnit_iff_ne_zero]
  intro hdet
  obtain ⟨w, hw, hzero⟩ := exists_mulVec_eq_zero_iff.mpr hdet
  have hpos := hA.pos w hw
  rw [hzero, dotProduct_zero] at hpos
  exact lt_irrefl 0 hpos

variable [IsStrictOrderedRing K]

/-- What is certain has no covariance with anything. The variance of `w + t (A w)` is
a quadratic in `t` that has no constant term and is never negative. -/
theorem Semidefinite.mulVec_eq_zero (hA : Semidefinite A) {w : ι → K}
    (hw : w ⬝ᵥ A *ᵥ w = 0) : A *ᵥ w = 0 := by
  have hswap : w ⬝ᵥ A *ᵥ (A *ᵥ w) = (A *ᵥ w) ⬝ᵥ (A *ᵥ w) := by
    rw [dotProduct_mulVec, ← mulVec_transpose, hA.isSymm.eq]
  have hquadratic : ∀ t : K,
      0 ≤ ((A *ᵥ w) ⬝ᵥ A *ᵥ (A *ᵥ w)) * (t * t) + 2 * ((A *ᵥ w) ⬝ᵥ (A *ᵥ w)) * t + 0 := by
    intro t
    have h := hA.nonneg (w + t • A *ᵥ w)
    simp only [mulVec_add, mulVec_smul, dotProduct_add, add_dotProduct, smul_dotProduct,
      dotProduct_smul, smul_eq_mul, hw, hswap] at h
    linarith
  have hsquare := discrim_le_zero hquadratic
  have hzero : (A *ᵥ w) ⬝ᵥ (A *ᵥ w) = 0 := by
    rw [discrim] at hsquare
    nlinarith
  exact dotProduct_self_eq_zero.mp hzero

namespace Definite

theorem of_semidefinite [DecidableEq ι] (hA : Semidefinite A) (hdet : A.det ≠ 0) :
    Definite A := by
  refine ⟨hA.isSymm, fun w hw => ?_⟩
  refine lt_of_le_of_ne (hA.nonneg w) fun hzero => hdet ?_
  exact exists_mulVec_eq_zero_iff.mp ⟨w, hw, hA.mulVec_eq_zero hzero.symm⟩

theorem one [DecidableEq ι] : Definite (1 : Matrix ι ι K) :=
  of_semidefinite Semidefinite.one (by rw [det_one]; exact one_ne_zero)

theorem smul (hA : Definite A) {c : K} (hc : 0 < c) : Definite (c • A) := by
  refine ⟨hA.isSymm.smul c, fun w hw => ?_⟩
  rw [smul_mulVec, dotProduct_smul]
  exact mul_pos hc (hA.pos w hw)

theorem add_semidefinite (hA : Definite A) (hB : Semidefinite B) : Definite (A + B) := by
  refine ⟨hA.isSymm.add hB.isSymm, fun w hw => ?_⟩
  rw [add_mulVec, dotProduct_add]
  exact add_pos_of_pos_of_nonneg (hA.pos w hw) (hB.nonneg w)

omit [IsStrictOrderedRing K] in
/-- Nothing of the image is certain when each of its combinations can be had from the
original. -/
theorem congruence {κ : Type} [Fintype κ] [DecidableEq κ] (hA : Definite A) {B : Matrix κ ι K}
    {C : Matrix ι κ K} (hBC : B * C = 1) : Definite (B * A * Bᵀ) := by
  refine ⟨isSymm_congruence hA.isSymm B, fun w hw => ?_⟩
  rw [dotProduct_congruence]
  refine hA.pos _ fun hzero => hw ?_
  calc w = (B * C)ᵀ *ᵥ w := by rw [hBC, transpose_one, one_mulVec]
    _ = Cᵀ *ᵥ (Bᵀ *ᵥ w) := by rw [transpose_mul, mulVec_mulVec]
    _ = 0 := by rw [hzero, mulVec_zero]

/-- The information of a definite covariance. -/
theorem inv [DecidableEq ι] (hA : Definite A) : Definite A⁻¹ := by
  have hcongruence : A⁻¹ * A * A⁻¹ᵀ = A⁻¹ := by
    rw [nonsing_inv_mul _ hA.isUnit_det, Matrix.one_mul, transpose_nonsing_inv, hA.isSymm.eq]
  refine of_semidefinite ?_ (isUnit_nonsing_inv_det A hA.isUnit_det).ne_zero
  rw [← hcongruence]
  exact hA.semidefinite.congruence A⁻¹

end Definite

/-- A combination of the components of an image is certain exactly when the original has
no covariance with it. -/
theorem Semidefinite.congruence_mulVec_eq_zero_iff {κ : Type} [Fintype κ] (hA : Semidefinite A)
    (M : Matrix κ ι K) {w : κ → K} : (M * A * Mᵀ) *ᵥ w = 0 ↔ (A * Mᵀ) *ᵥ w = 0 := by
  constructor
  · intro h
    have hvariance : (Mᵀ *ᵥ w) ⬝ᵥ A *ᵥ (Mᵀ *ᵥ w) = 0 := by
      rw [← dotProduct_congruence, h, dotProduct_zero]
    rw [← mulVec_mulVec]
    exact hA.mulVec_eq_zero hvariance
  · intro h
    rw [Matrix.mul_assoc, ← mulVec_mulVec, h, mulVec_zero]

/-- A sum of two covariances has no inverse exactly when both leave one and the same
combination certain. -/
theorem Semidefinite.det_add_eq_zero_iff [DecidableEq ι] (hA : Semidefinite A)
    (hB : Semidefinite B) :
    (A + B).det = 0 ↔ ∃ w, w ≠ 0 ∧ A *ᵥ w = 0 ∧ B *ᵥ w = 0 := by
  rw [← exists_mulVec_eq_zero_iff]
  refine exists_congr fun w => and_congr_right fun _ => ⟨fun h => ?_, fun h => ?_⟩
  · have hsum : w ⬝ᵥ A *ᵥ w + w ⬝ᵥ B *ᵥ w = 0 := by
      rw [← dotProduct_add, ← add_mulVec, h, dotProduct_zero]
    obtain ⟨hA0, hB0⟩ := (add_eq_zero_iff_of_nonneg (hA.nonneg w) (hB.nonneg w)).mp hsum
    exact ⟨hA.mulVec_eq_zero hA0, hB.mulVec_eq_zero hB0⟩
  · rw [add_mulVec, h.1, h.2, add_zero]

/-- What is above a covariance that has an inverse has one as well. -/
theorem Semidefinite.det_ne_zero_of_le [DecidableEq ι] (hA : Semidefinite A)
    (hle : Semidefinite (B - A)) (hdet : A.det ≠ 0) : B.det ≠ 0 := by
  have hB := (Definite.of_semidefinite hA hdet).add_semidefinite hle
  rw [add_sub_cancel] at hB
  exact hB.isUnit_det.ne_zero

end PlanarKalman
