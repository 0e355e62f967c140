import Mathlib.LinearAlgebra.Matrix.Kronecker
import Mathlib.LinearAlgebra.Matrix.Notation
import Mathlib.LinearAlgebra.Matrix.NonsingularInverse

/-!
# Matrices that treat both axes alike

A column of the plane lists what belongs to the first axis and to the second in turn:
`x, y` or `x, y, vx, vy`. A matrix that does the same to each axis and does not mix them
is the Kronecker product of what it does to one axis with the identity of the plane
(`perAxis`). Such matrices are added, multiplied and transposed as their one-axis
matrices are, so a computation with them is one with matrices of half the size. On a
column they act axis by axis (`onAxis_perAxis_mul`).
-/

namespace PlanarKalman

open Matrix Kronecker

variable {K : Type} [CommRing K] {l m n : ℕ}

/-- What the matrix `A` of one axis does when it is applied to both axes. -/
def perAxis (A : Matrix (Fin m) (Fin n) K) : Matrix (Fin (m * 2)) (Fin (n * 2)) K :=
  reindex finProdFinEquiv finProdFinEquiv (A ⊗ₖ (1 : Matrix (Fin 2) (Fin 2) K))

/-- The rows that belong to one axis. -/
def onAxis (k : Fin 2) (M : Matrix (Fin (m * 2)) (Fin n) K) : Matrix (Fin m) (Fin n) K :=
  M.submatrix (fun i => finProdFinEquiv (i, k)) id

theorem perAxis_apply (A : Matrix (Fin m) (Fin n) K) (i : Fin (m * 2)) (j : Fin (n * 2)) :
    perAxis A i j = if i.modNat = j.modNat then A i.divNat j.divNat else 0 := by
  have hentry : perAxis A i j = A i.divNat j.divNat * (1 : Matrix _ _ K) i.modNat j.modNat := rfl
  rw [hentry, Matrix.one_apply, mul_ite, mul_one, mul_zero]

/-- What belongs to one axis reaches that axis only. -/
theorem perAxis_apply_pair (A : Matrix (Fin m) (Fin n) K) (i : Fin m) (j : Fin n)
    (k k' : Fin 2) :
    perAxis A (finProdFinEquiv (i, k)) (finProdFinEquiv (j, k')) = if k = k' then A i j else 0 := by
  simp [perAxis, Matrix.one_apply]

theorem perAxis_injective {A B : Matrix (Fin m) (Fin n) K} (h : perAxis A = perAxis B) :
    A = B := by
  ext i j
  have hentry := congrFun (congrFun h (finProdFinEquiv (i, 0))) (finProdFinEquiv (j, 0))
  simpa [perAxis_apply_pair] using hentry

theorem perAxis_add (A B : Matrix (Fin m) (Fin n) K) :
    perAxis (A + B) = perAxis A + perAxis B := by
  rw [perAxis, add_kronecker]
  rfl

theorem perAxis_sub (A B : Matrix (Fin m) (Fin n) K) :
    perAxis (A - B) = perAxis A - perAxis B := by
  rw [eq_sub_iff_add_eq, ← perAxis_add, sub_add_cancel]

theorem perAxis_smul (c : K) (A : Matrix (Fin m) (Fin n) K) :
    perAxis (c • A) = c • perAxis A := by
  rw [perAxis, smul_kronecker]
  rfl

theorem perAxis_mul (A : Matrix (Fin l) (Fin m) K) (B : Matrix (Fin m) (Fin n) K) :
    perAxis (A * B) = perAxis A * perAxis B := by
  rw [perAxis, ← Matrix.one_mul (1 : Matrix (Fin 2) (Fin 2) K), mul_kronecker_mul]
  exact (submatrix_mul_equiv _ _ _ _ _).symm

theorem perAxis_transpose (A : Matrix (Fin m) (Fin n) K) : perAxis Aᵀ = (perAxis A)ᵀ := by
  rw [perAxis, ← transpose_one (n := Fin 2), kroneckerMap_transpose]
  rfl

theorem perAxis_one : perAxis (1 : Matrix (Fin m) (Fin m) K) = 1 := by
  rw [perAxis, one_kronecker_one]
  exact submatrix_one_equiv _

theorem det_perAxis (A : Matrix (Fin m) (Fin m) K) : (perAxis A).det = A.det ^ 2 := by
  rw [perAxis, det_reindex_self, det_kronecker]
  simp

theorem inv_perAxis {A B : Matrix (Fin m) (Fin m) K} (h : B * A = 1) :
    (perAxis A)⁻¹ = perAxis B :=
  inv_eq_left_inv (by rw [← perAxis_mul, h, perAxis_one])

theorem onAxis_perAxis_mul (k : Fin 2) (A : Matrix (Fin l) (Fin m) K)
    (M : Matrix (Fin (m * 2)) (Fin n) K) : onAxis k (perAxis A * M) = A * onAxis k M := by
  ext i j
  rw [onAxis, submatrix_apply, Matrix.mul_apply, Matrix.mul_apply,
    ← finProdFinEquiv.sum_comp, Fintype.sum_prod_type]
  simp [perAxis_apply_pair, onAxis]

theorem onAxis_add (k : Fin 2) (M N : Matrix (Fin (m * 2)) (Fin n) K) :
    onAxis k (M + N) = onAxis k M + onAxis k N := rfl

theorem onAxis_sub (k : Fin 2) (M N : Matrix (Fin (m * 2)) (Fin n) K) :
    onAxis k (M - N) = onAxis k M - onAxis k N := rfl

theorem perAxis_fin_two (a b c d : K) :
    perAxis !![a, b; c, d] = !![a, 0, b, 0; 0, a, 0, b; c, 0, d, 0; 0, c, 0, d] := by
  ext i j
  fin_cases i <;> fin_cases j <;> simp [perAxis_apply, Fin.divNat, Fin.modNat]

end PlanarKalman
