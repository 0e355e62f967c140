import Mathlib.LinearAlgebra.Matrix.Notation
import Mathlib.Tactic.FinCases
import Mathlib.Tactic.Ring
import PlanarKalman.Motion
import PlanarKalman.Proofs.Matrix.Algebra
import PlanarKalman.Proofs.Matrix.Semidefinite

/-!
# The motion in exact arithmetic

The white-noise covariance is what an acceleration of the given variance on each
axis adds to the state: seen through the linear map `accelerationEffect` it is
that variance times the identity of the plane. So it is a covariance, whatever
the time step. The sensor has a right inverse, the map that puts a position into
a state at rest, and a state is what the sensor sees of it, put at rest, and its
velocity. A state at rest stays where it is.
-/

namespace PlanarKalman

namespace Motion

open Matrix

variable {K : Type} [Field K] [LinearOrder K]

/-- What a constant acceleration over a time `dt` does to a state. -/
def accelerationEffect (dt : K) : Matrix (Fin 4) (Fin 2) K :=
  !![dt ^ 2 / 2, 0; 0, dt ^ 2 / 2; dt, 0; 0, dt]

/-- The state at rest that has a given position. -/
def placement : Matrix (Fin 4) (Fin 2) K := !![1, 0; 0, 1; 0, 0; 0, 0]

theorem observation_mul_placement :
    (observation : Mat 2 4 K).toMatrix * (placement : Matrix _ _ K) = 1 := by
  ext i j
  rw [Matrix.mul_apply, Fin.sum_univ_four]
  fin_cases i <;> fin_cases j <;> simp [observation, placement]

/-- The state at the origin that has a given velocity. -/
def departure : Matrix (Fin 4) (Fin 2) K := !![0, 0; 0, 0; 1, 0; 0, 1]

theorem observation_mul_departure :
    (observation : Mat 2 4 K).toMatrix * (departure : Matrix _ _ K) = 0 := by
  ext i j
  rw [Matrix.mul_apply, Fin.sum_univ_four]
  fin_cases i <;> fin_cases j <;> simp [observation, departure]

theorem departure_transpose_mul_departure :
    (departure : Matrix _ _ K)ᵀ * (departure : Matrix _ _ K) = 1 := by
  ext i j
  rw [Matrix.mul_apply, Fin.sum_univ_four]
  fin_cases i <;> fin_cases j <;> simp [departure]

/-- A state is its position, at rest, and its velocity. -/
theorem placement_mul_observation_add :
    (placement : Matrix _ _ K) * (observation : Mat 2 4 K).toMatrix
      + (departure : Matrix _ _ K) * (departure : Matrix _ _ K)ᵀ = 1 := by
  ext i j
  rw [Matrix.add_apply, Matrix.mul_apply, Matrix.mul_apply, Fin.sum_univ_two, Fin.sum_univ_two]
  fin_cases i <;> fin_cases j <;> simp [observation, placement, departure]

theorem placement_mul_add {n : ℕ} (A : Matrix (Fin 4) (Fin n) K) :
    (placement : Matrix _ _ K) * ((observation : Mat 2 4 K).toMatrix * A)
      + (departure : Matrix _ _ K) * ((departure : Matrix _ _ K)ᵀ * A) = A := by
  rw [← Matrix.mul_assoc, ← Matrix.mul_assoc, ← Matrix.add_mul, placement_mul_observation_add,
    Matrix.one_mul]

theorem transition_mul_placement (t : K) :
    (transition t).toMatrix * (placement : Matrix _ _ K) = placement := by
  ext i j
  rw [Matrix.mul_apply, Fin.sum_univ_four]
  fin_cases i <;> fin_cases j <;> simp [transition, placement]

theorem transition_mul_departure (t : K) :
    (transition t).toMatrix * (departure : Matrix _ _ K) = departure + t • placement := by
  ext i j
  rw [Matrix.mul_apply, Fin.sum_univ_four]
  fin_cases i <;> fin_cases j <;> simp [transition, placement, departure]

/-- The sensor sees the rows of the position. -/
theorem observation_mul {n : ℕ} (A : Matrix (Fin 4) (Fin n) K) :
    (observation : Mat 2 4 K).toMatrix * A = A.submatrix (Fin.castAdd 2) id := by
  ext i j
  rw [Matrix.mul_apply, Fin.sum_univ_four]
  fin_cases i <;> simp [observation]

/-- The sensor sees the position block of a covariance. -/
theorem observation_mul_mul_transpose (A : Matrix (Fin 4) (Fin 4) K) :
    (observation : Mat 2 4 K).toMatrix * A * (observation : Mat 2 4 K).toMatrixᵀ
      = A.submatrix (Fin.castAdd 2) (Fin.castAdd 2) := by
  ext i j
  rw [Matrix.mul_apply, Fin.sum_univ_four]
  simp only [Matrix.mul_apply, Fin.sum_univ_four]
  fin_cases i <;> fin_cases j <;> simp [observation]

variable [IsStrictOrderedRing K]

theorem toMatrix_accelerationNoise (dt variance : K) :
    (accelerationNoise dt variance).toMatrix
      = variance • (accelerationEffect dt * (accelerationEffect dt)ᵀ) := by
  have h4 : (4.0 : K) = 4 := by norm_num
  have h2 : (2.0 : K) = 2 := by norm_num
  ext i j
  rw [Matrix.smul_apply, Matrix.mul_apply, Fin.sum_univ_two, smul_eq_mul]
  fin_cases i <;> fin_cases j <;>
    simp [accelerationNoise, accelerationEffect, h4, h2] <;> ring

theorem semidefinite_accelerationNoise (dt : K) {variance : K} (hvar : 0 ≤ variance) :
    Semidefinite (accelerationNoise dt variance).toMatrix := by
  rw [toMatrix_accelerationNoise]
  exact (Semidefinite.mul_transpose _).smul hvar

end Motion

end PlanarKalman
