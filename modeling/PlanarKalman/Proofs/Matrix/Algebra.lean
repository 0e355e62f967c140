import Mathlib.LinearAlgebra.Matrix.NonsingularInverse
import Mathlib.Tactic.NormNum
import PlanarKalman.Matrix.Basic
import PlanarKalman.Proofs.OrderedField

/-!
# Stored matrices as matrices of linear algebra

A stored matrix is read as a matrix of the mathematical library by its entries
(`Mat.toMatrix`). Over an ordered field the order of additions does not show, so
each operation on stored matrices is the operation of linear algebra; after the
lemmas below no proof looks at stored rows or at single entries again. The
inverse by the determinant is the inverse of linear algebra, and there is none
exactly when the determinant is zero.
-/

namespace PlanarKalman

open Matrix

namespace Mat

variable {α : Type} {m n k : ℕ}

/-- The matrix with the entries of a stored one. -/
def toMatrix (A : Mat m n α) : Matrix (Fin m) (Fin n) α := Matrix.of fun i j => A i j

@[simp] theorem toMatrix_apply (A : Mat m n α) (i : Fin m) (j : Fin n) :
    A.toMatrix i j = A i j := rfl

theorem toMatrix_inj {A B : Mat m n α} : A.toMatrix = B.toMatrix ↔ A = B := by
  refine ⟨fun h => ?_, fun h => by rw [h]⟩
  ext i j
  exact congrFun (congrFun h i) j

@[simp] theorem toMatrix_ofFn (f : Fin m → Fin n → α) :
    (ofFn f).toMatrix = Matrix.of f := by
  ext i j
  simp

@[simp] theorem toMatrix_transpose (A : Mat m n α) :
    A.transpose.toMatrix = A.toMatrixᵀ := by
  ext i j
  simp

variable {K : Type} [Field K] [LinearOrder K]

/-! ## Arithmetic -/

theorem sum_eq_sum (l : List K) : sum l = l.sum := by
  cases l with
  | nil => rfl
  | cons a rest =>
      rw [List.sum_eq_foldl, List.foldl_cons, zero_add]
      rfl

@[simp] theorem toMatrix_zero : (0 : Mat m n K).toMatrix = 0 := by
  ext i j
  simp

@[simp] theorem toMatrix_add (A B : Mat m n K) :
    (A + B).toMatrix = A.toMatrix + B.toMatrix := by
  ext i j
  simp

@[simp] theorem toMatrix_sub (A B : Mat m n K) :
    (A - B).toMatrix = A.toMatrix - B.toMatrix := by
  ext i j
  simp

@[simp] theorem toMatrix_mul (A : Mat m k K) (B : Mat k n K) :
    (A * B).toMatrix = A.toMatrix * B.toMatrix := by
  ext i j
  rw [toMatrix_apply, mul_apply, sum_eq_sum, List.sum_ofFn, Matrix.mul_apply]
  rfl

@[simp] theorem toMatrix_identity : (identity : Mat n n K).toMatrix = 1 := by
  ext i j
  simp [Matrix.one_apply, Fin.ext_iff]

@[simp] theorem toMatrix_scale (A : Mat m n K) (c : K) :
    (A.scale c).toMatrix = c • A.toMatrix := by
  ext i j
  simp [mul_comm]

/-! ## The inverse -/

theorem isFinite_exact (A : Mat m n K) : A.isFinite = true := by
  simp [isFinite]

theorem inverse?_eq_ite (A : Mat 2 2 K) :
    A.inverse? = if A.toMatrix.det = 0 then none
      else some (ofFn fun i j => A.toMatrix⁻¹ i j) := by
  have hdet : A 0 0 * A 1 1 - A 1 0 * A 0 1 = A.toMatrix.det := by
    rw [Matrix.det_fin_two, mul_comm (A.toMatrix 0 1)]
    rfl
  unfold inverse?
  simp only [beq_iff_eq, hdet]
  split
  · rfl
  · congr 2
    funext i j
    rw [Matrix.inv_def, Matrix.adjugate_fin_two, Ring.inverse_eq_inv']
    fin_cases i <;> fin_cases j <;> simp [div_eq_inv_mul]

theorem inverse?_eq_none_iff {A : Mat 2 2 K} :
    A.inverse? = none ↔ A.toMatrix.det = 0 := by
  rw [inverse?_eq_ite]
  split <;> simp_all

theorem inverse?_eq_some_iff {A B : Mat 2 2 K} :
    A.inverse? = some B ↔ A.toMatrix.det ≠ 0 ∧ B.toMatrix = A.toMatrix⁻¹ := by
  rw [inverse?_eq_ite]
  split
  · simp_all
  · rename_i hdet
    rw [Option.some.injEq, ← toMatrix_inj, toMatrix_ofFn]
    exact ⟨fun h => ⟨hdet, h.symm⟩, fun h => h.2.symm⟩

/-! ## The symmetric part -/

variable [IsStrictOrderedRing K]

@[simp] theorem toMatrix_symmetricPart (A : Mat n n K) :
    A.symmetricPart.toMatrix = (1 / 2 : K) • (A.toMatrix + A.toMatrixᵀ) := by
  rw [symmetricPart, toMatrix_scale, toMatrix_add, toMatrix_transpose]
  norm_num

/-- Taking the symmetric part changes nothing where it has nothing to do. -/
theorem symmetricPart_of_isSymm {A : Mat n n K} (hA : A.toMatrix.IsSymm) :
    A.symmetricPart = A := by
  rw [← toMatrix_inj, toMatrix_symmetricPart, hA.eq, ← two_smul K, smul_smul]
  norm_num

end Mat

end PlanarKalman
