import Mathlib.Algebra.Order.Chebyshev
import Mathlib.Analysis.Matrix.Order
import PlanarKalman.Matrix.Eigenvalue
import PlanarKalman.Proofs.Matrix.Algebra
import PlanarKalman.Proofs.Matrix.Semidefinite

/-!
# What the smallest eigenvalue says about a matrix

An eigenvalue routine reads one triangle and takes the other to be its mirror image
(`Mat.mirrored`). That it returns the least eigenvalue of this symmetric matrix is all that is
assumed of it (`LawfulSmallestEigenvalue`).

The matrix itself may differ from its mirrored triangle above the diagonal. What is known of
the second then carries over to the first with a loss: a combination sees the difference of
two entries once for each pair of components, and the pairs together weigh at most `n - 1`
times as much as the components (`mirrored_sub_le`).
-/

namespace PlanarKalman

open Matrix SmallestEigenvalue

/-! ## The lower triangle -/

namespace Mat

variable {α : Type} {n : ℕ}

/-- The symmetric matrix that has the lower triangle of `A`. -/
def mirrored (A : Mat n n α) : Matrix (Fin n) (Fin n) α :=
  Matrix.of fun i j => A (max i j) (min i j)

theorem mirrored_apply (A : Mat n n α) (i j : Fin n) :
    A.mirrored i j = A (max i j) (min i j) := rfl

theorem isSymm_mirrored (A : Mat n n α) : A.mirrored.IsSymm := by
  ext i j
  rw [Matrix.transpose_apply, mirrored_apply, mirrored_apply, max_comm, min_comm]

theorem mirrored_of_isSymm {A : Mat n n α} (hA : A.toMatrix.IsSymm) :
    A.mirrored = A.toMatrix := by
  ext i j
  rw [mirrored_apply]
  obtain hle | hle := le_total i j
  · rw [max_eq_right hle, min_eq_left hle]
    exact hA.apply i j
  · rw [max_eq_left hle, min_eq_right hle, toMatrix_apply]

theorem mirrored_scale {K : Type} [Field K] [LinearOrder K] (A : Mat n n K) (c : K) :
    (A.scale c).mirrored = c • A.mirrored := by
  ext i j
  rw [mirrored_apply, scale_apply, Matrix.smul_apply, smul_eq_mul, mul_comm, mirrored_apply]

end Mat

/-! ## The smallest eigenvalue -/

/-- The smallest eigenvalue is the least number in the spectrum of the matrix given by the
lower triangle. -/
class LawfulSmallestEigenvalue (K : Type) [Field K] [LinearOrder K] [SmallestEigenvalue K] :
    Prop where
  isLeast : ∀ {n : ℕ} [NeZero n] (A : Mat n n K),
    IsLeast (spectrum K A.mirrored) (smallestEigenvalue A)

section Eigenvalue

variable {n : ℕ} [NeZero n]
variable {K : Type} [Field K] [LinearOrder K] [IsStrictOrderedRing K] [SmallestEigenvalue K]
  [LawfulSmallestEigenvalue K]

theorem smallestEigenvalue_scale (A : Mat n n K) {c : K} (hc : 0 < c) :
    smallestEigenvalue (A.scale c) = smallestEigenvalue A * c := by
  have hscaled := LawfulSmallestEigenvalue.isLeast (A.scale c)
  obtain ⟨hmem, hleast⟩ := LawfulSmallestEigenvalue.isLeast A
  lift c to Kˣ using isUnit_iff_ne_zero.mpr hc.ne'
  rw [A.mirrored_scale, ← Units.smul_def, spectrum.unit_smul_eq_smul] at hscaled
  rw [mul_comm]
  refine hscaled.unique ⟨⟨_, hmem, rfl⟩, ?_⟩
  rintro _ ⟨a, ha, rfl⟩
  exact mul_le_mul_of_nonneg_left (hleast ha) hc.le

/-- A covariance has no negative eigenvalue: along an eigenvector its variance would be
negative too. -/
theorem smallestEigenvalue_nonneg {A : Mat n n K} (hA : Semidefinite A.mirrored) :
    0 ≤ smallestEigenvalue A := by
  have hmem := (LawfulSmallestEigenvalue.isLeast A).1
  rw [spectrum.mem_iff, isUnit_iff_isUnit_det, isUnit_iff_ne_zero, not_not,
    ← exists_mulVec_eq_zero_iff] at hmem
  obtain ⟨w, hw, hzero⟩ := hmem
  rw [Algebra.algebraMap_eq_smul_one, sub_mulVec, smul_mulVec, one_mulVec, sub_eq_zero] at hzero
  have hvariance := hA.nonneg w
  rw [← hzero, dotProduct_smul, smul_eq_mul] at hvariance
  have hpos : 0 < w ⬝ᵥ w :=
    (dotProduct_self_nonneg w).lt_of_ne' (mt dotProduct_self_eq_zero.mp hw)
  exact nonneg_of_mul_nonneg_left hvariance hpos

end Eigenvalue

/-- A real symmetric matrix lies above its smallest eigenvalue. -/
theorem semidefinite_sub_smallestEigenvalue {n : ℕ} [NeZero n] [SmallestEigenvalue ℝ]
    [LawfulSmallestEigenvalue ℝ] (A : Mat n n ℝ) :
    Semidefinite (A.mirrored - smallestEigenvalue A • (1 : Matrix (Fin n) (Fin n) ℝ)) := by
  have hsymm := A.isSymm_mirrored.sub (isSymm_one.smul (smallestEigenvalue A))
  refine ⟨hsymm, PosSemidef.dotProduct_mulVec_nonneg ?_⟩
  rw [posSemidef_iff_isHermitian_and_spectrum_nonneg, IsHermitian,
    conjTranspose_eq_transpose_of_trivial]
  refine ⟨hsymm, ?_⟩
  rw [← Algebra.algebraMap_eq_smul_one, ← spectrum.sub_singleton_eq]
  rintro _ ⟨a, ha, _, rfl, rfl⟩
  exact sub_nonneg.mpr ((LawfulSmallestEigenvalue.isLeast A).2 ha)

/-- The smallest eigenvalue of real matrices as it is defined; nothing computes it. -/
@[reducible]
noncomputable def SmallestEigenvalue.ofSpectrum : SmallestEigenvalue ℝ where
  smallestEigenvalue A := sInf (spectrum ℝ A.mirrored)

theorem lawful_ofSpectrum : @LawfulSmallestEigenvalue ℝ _ _ .ofSpectrum := by
  refine @LawfulSmallestEigenvalue.mk ℝ _ _ .ofSpectrum fun {n} _ A => ?_
  have hHermitian : A.mirrored.IsHermitian := by
    rw [IsHermitian, conjTranspose_eq_transpose_of_trivial]
    exact A.isSymm_mirrored
  have hfinite : (spectrum ℝ A.mirrored).Finite := by
    rw [hHermitian.spectrum_real_eq_range_eigenvalues]
    exact Set.finite_range _
  have hnonempty : (spectrum ℝ A.mirrored).Nonempty := by
    rw [hHermitian.spectrum_real_eq_range_eigenvalues]
    exact Set.range_nonempty _
  exact ⟨hnonempty.csInf_mem hfinite, fun a ha => csInf_le hfinite.bddBelow ha⟩

/-! ## Small asymmetries -/

section Perturbation

variable {ι K : Type} [Fintype ι] [Field K] [LinearOrder K] [IsStrictOrderedRing K]

/-- A matrix with zeros on the diagonal and small entries beside it gives no combination a
large value. -/
theorem abs_dotProduct_mulVec_le {E : Matrix ι ι K} {δ : K} (hδ : 0 ≤ δ)
    (hdiag : ∀ i, E i i = 0) (hE : ∀ i j, |E i j| ≤ δ) (w : ι → K) :
    |w ⬝ᵥ E *ᵥ w| ≤ δ * (Fintype.card ι - 1) * (w ⬝ᵥ w) := by
  classical
  have hterm : ∀ i j,
      |w i * (E i j * w j)| ≤ δ * (|w i| * |w j|) - if i = j then δ * (w i * w i) else 0 := by
    intro i j
    split
    · rename_i hij
      rw [← hij, hdiag, zero_mul, mul_zero, abs_zero, abs_mul_abs_self, sub_self]
    · calc |w i * (E i j * w j)| = |E i j| * (|w i| * |w j|) := by
            rw [abs_mul, abs_mul, mul_left_comm]
        _ ≤ δ * (|w i| * |w j|) := by gcongr; exact hE i j
        _ = δ * (|w i| * |w j|) - 0 := (sub_zero _).symm
  have hsquare : (∑ i, |w i|) * ∑ j, |w j| ≤ Fintype.card ι * (w ⬝ᵥ w) := by
    have h := sq_sum_le_card_mul_sum_sq (s := Finset.univ) (f := fun i => |w i|)
    simp only [sq, abs_mul_abs_self, Finset.card_univ] at h
    exact h
  calc |w ⬝ᵥ E *ᵥ w| = |∑ i, ∑ j, w i * (E i j * w j)| := by
        simp only [dotProduct, mulVec, Finset.mul_sum]
    _ ≤ ∑ i, ∑ j, |w i * (E i j * w j)| :=
        (Finset.abs_sum_le_sum_abs _ _).trans
          (Finset.sum_le_sum fun i _ => Finset.abs_sum_le_sum_abs _ _)
    _ ≤ ∑ i, ∑ j, (δ * (|w i| * |w j|) - if i = j then δ * (w i * w i) else 0) :=
        Finset.sum_le_sum fun i _ => Finset.sum_le_sum fun j _ => hterm i j
    _ = δ * ((∑ i, |w i|) * ∑ j, |w j|) - δ * (w ⬝ᵥ w) := by
        rw [Finset.sum_mul_sum]
        simp only [Finset.sum_sub_distrib, Finset.sum_ite_eq, Finset.mem_univ, if_true,
          Finset.mul_sum, dotProduct]
    _ ≤ δ * (Fintype.card ι * (w ⬝ᵥ w)) - δ * (w ⬝ᵥ w) := by gcongr
    _ = δ * (Fintype.card ι - 1) * (w ⬝ᵥ w) := by ring

variable {n : ℕ} {A : Mat n n K} {δ : K}

omit [IsStrictOrderedRing K] in
/-- Above the diagonal an entry is off by one difference. The transpose gives every
combination the same value and fills the other triangle. -/
theorem abs_mirrored_sub_add_transpose_le (hA : ∀ i j, |A i j - A j i| ≤ δ) (i j : Fin n) :
    |(A.mirrored - A.toMatrix + (A.mirrored - A.toMatrix)ᵀ) i j| ≤ δ := by
  rw [Matrix.add_apply, Matrix.transpose_apply, Matrix.sub_apply, Matrix.sub_apply,
    Mat.mirrored_apply, Mat.mirrored_apply, Mat.toMatrix_apply, Mat.toMatrix_apply]
  obtain hle | hle := le_total i j
  · rw [max_eq_right hle, max_eq_left hle, min_eq_left hle, min_eq_right hle, sub_self, add_zero]
    exact hA j i
  · rw [max_eq_left hle, max_eq_right hle, min_eq_right hle, min_eq_left hle, sub_self, zero_add]
    exact hA i j

/-- A matrix with small asymmetries has nearly the values of its mirrored lower triangle. -/
theorem mirrored_sub_le (hδ : 0 ≤ δ) (hA : ∀ i j, |A i j - A j i| ≤ δ) (w : Fin n → K) :
    w ⬝ᵥ A.mirrored *ᵥ w - ((n : K) - 1) / 2 * δ * (w ⬝ᵥ w) ≤ w ⬝ᵥ A.toMatrix *ᵥ w := by
  have hdiag : ∀ i, (A.mirrored - A.toMatrix + (A.mirrored - A.toMatrix)ᵀ) i i = 0 := by
    intro i
    rw [Matrix.add_apply, Matrix.transpose_apply, Matrix.sub_apply, Mat.mirrored_apply,
      max_self, min_self, Mat.toMatrix_apply, sub_self, add_zero]
  have hbound := abs_dotProduct_mulVec_le hδ hdiag (abs_mirrored_sub_add_transpose_le hA) w
  rw [add_mulVec, dotProduct_add, mulVec_transpose, dotProduct_comm w (w ᵥ* _),
    ← dotProduct_mulVec, sub_mulVec, dotProduct_sub, Fintype.card_fin] at hbound
  linarith only [(abs_le.mp hbound).2]

end Perturbation

end PlanarKalman
