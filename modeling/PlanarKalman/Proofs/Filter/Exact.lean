import PlanarKalman.Proofs.Matrix.Definite
import PlanarKalman.Proofs.Matrix.Algebra
import PlanarKalman.Filter.Basic

/-!
# The filter in linear algebra

Over an ordered field each matrix the filter computes is the textbook expression
in the matrices it holds. The test of the inverse for overflow never fails, so a
permitted update fails exactly when the innovation covariance is singular.

Every correction is a congruence plus a congruence, for any gain at all, so it
takes a covariance to a covariance (`semidefinite_posterior`).
-/

namespace PlanarKalman

namespace Filter

open Matrix

variable {K : Type} [Field K] [LinearOrder K]

@[simp] theorem toMatrix_predict_mean (f : Filter K) :
    f.predict.mean.toMatrix = f.model.transition.toMatrix * f.mean.toMatrix := by
  simp [predict]

@[simp] theorem toMatrix_predict_covariance (f : Filter K) :
    f.predict.covariance.toMatrix
      = f.model.transition.toMatrix * f.covariance.toMatrix * f.model.transition.toMatrixᵀ
        + f.model.processNoise.toMatrix := by
  simp [predict]

@[simp] theorem toMatrix_innovationCovariance (f : Filter K) :
    f.innovationCovariance.toMatrix
      = f.model.observation.toMatrix * f.covariance.toMatrix * f.model.observation.toMatrixᵀ
        + f.model.measurementNoise.toMatrix := by
  simp [innovationCovariance]

theorem innovationInverse?_exact (f : Filter K) :
    f.innovationInverse? = f.innovationCovariance.inverse? := by
  unfold innovationInverse?
  cases f.innovationCovariance.inverse? with
  | none => rfl
  | some inverse => simp [Option.filter, Mat.isFinite_exact]

theorem innovationInverse?_eq_none_iff {f : Filter K} :
    f.innovationInverse? = none ↔ f.innovationCovariance.toMatrix.det = 0 := by
  rw [innovationInverse?_exact, Mat.inverse?_eq_none_iff]

theorem innovationInverse?_eq_some_iff {f : Filter K} {inverse : Mat 2 2 K} :
    f.innovationInverse? = some inverse ↔
      f.innovationCovariance.toMatrix.det ≠ 0 ∧
      inverse.toMatrix = f.innovationCovariance.toMatrix⁻¹ := by
  rw [innovationInverse?_exact, Mat.inverse?_eq_some_iff]

theorem exists_innovationInverse {f : Filter K}
    (hdet : f.innovationCovariance.toMatrix.det ≠ 0) :
    ∃ inverse, f.innovationInverse? = some inverse :=
  Option.ne_none_iff_exists'.mp fun hnone => hdet (innovationInverse?_eq_none_iff.mp hnone)

@[simp] theorem toMatrix_gain (f : Filter K) (inverse : Mat 2 2 K) :
    (f.gain inverse).toMatrix
      = f.covariance.toMatrix * f.model.observation.toMatrixᵀ * inverse.toMatrix := by
  simp [gain]

/-- The gain is the solution of a linear equation. -/
theorem gain_mul_innovationCovariance {f : Filter K} {inverse : Mat 2 2 K}
    (hinv : f.innovationInverse? = some inverse) :
    (f.gain inverse).toMatrix * f.innovationCovariance.toMatrix
      = f.covariance.toMatrix * f.model.observation.toMatrixᵀ := by
  obtain ⟨hdet, hinverse⟩ := innovationInverse?_eq_some_iff.mp hinv
  rw [toMatrix_gain, hinverse, Matrix.mul_assoc,
    nonsing_inv_mul _ (isUnit_iff_ne_zero.mpr hdet), Matrix.mul_one]

theorem toMatrix_correct_mean (f : Filter K) (z : Point K) (inverse : Mat 2 2 K) :
    (f.correct z inverse).mean.toMatrix
      = f.mean.toMatrix + (f.gain inverse).toMatrix
          * (z.toColumn.toMatrix - f.model.observation.toMatrix * f.mean.toMatrix) := by
  simp [correct]

theorem toMatrix_posterior (f : Filter K) (L : Mat 4 2 K) :
    (f.posterior L).toMatrix
      = (1 - L.toMatrix * f.model.observation.toMatrix) * f.covariance.toMatrix
          * (1 - L.toMatrix * f.model.observation.toMatrix)ᵀ
        + L.toMatrix * f.model.measurementNoise.toMatrix * L.toMatrixᵀ := by
  simp [posterior]

/-! ## What is symmetric stays symmetric -/

theorem isSymm_innovationCovariance {f : Filter K} (hP : f.covariance.toMatrix.IsSymm)
    (hR : f.model.measurementNoise.toMatrix.IsSymm) :
    f.innovationCovariance.toMatrix.IsSymm := by
  rw [toMatrix_innovationCovariance]
  exact (isSymm_congruence hP _).add hR

theorem isSymm_posterior {f : Filter K} (hP : f.covariance.toMatrix.IsSymm)
    (hR : f.model.measurementNoise.toMatrix.IsSymm) (L : Mat 4 2 K) :
    (f.posterior L).toMatrix.IsSymm := by
  rw [toMatrix_posterior]
  exact (isSymm_congruence hP _).add (isSymm_congruence hR _)

/-! ## Covariances stay covariances -/

variable [IsStrictOrderedRing K]

theorem semidefinite_innovationCovariance {f : Filter K}
    (hP : Semidefinite f.covariance.toMatrix)
    (hR : Semidefinite f.model.measurementNoise.toMatrix) :
    Semidefinite f.innovationCovariance.toMatrix := by
  rw [toMatrix_innovationCovariance]
  exact (hP.congruence _).add hR

/-- With noise in every direction no combination of the coordinates of a reading is
certain. -/
theorem definite_innovationCovariance {f : Filter K} (hP : Semidefinite f.covariance.toMatrix)
    (hR : Definite f.model.measurementNoise.toMatrix) :
    Definite f.innovationCovariance.toMatrix := by
  rw [toMatrix_innovationCovariance, add_comm]
  exact hR.add_semidefinite (hP.congruence _)

theorem semidefinite_predict {f : Filter K} (hP : Semidefinite f.covariance.toMatrix)
    (hQ : Semidefinite f.model.processNoise.toMatrix) :
    Semidefinite f.predict.covariance.toMatrix := by
  rw [toMatrix_predict_covariance]
  exact (hP.congruence _).add hQ

theorem semidefinite_posterior {f : Filter K} (hP : Semidefinite f.covariance.toMatrix)
    (hR : Semidefinite f.model.measurementNoise.toMatrix) (L : Mat 4 2 K) :
    Semidefinite (f.posterior L).toMatrix := by
  rw [toMatrix_posterior]
  exact (hP.congruence _).add (hR.congruence _)

/-- What a correction stores is symmetric before its symmetric part is taken. -/
theorem correct_covariance_of_isSymm {f : Filter K} (hP : f.covariance.toMatrix.IsSymm)
    (hR : f.model.measurementNoise.toMatrix.IsSymm) (z : Point K) (inverse : Mat 2 2 K) :
    (f.correct z inverse).covariance = f.posterior (f.gain inverse) :=
  Mat.symmetricPart_of_isSymm (isSymm_posterior hP hR _)

theorem correct_covariance {f : Filter K} (hP : Semidefinite f.covariance.toMatrix)
    (hR : Semidefinite f.model.measurementNoise.toMatrix) (z : Point K)
    (inverse : Mat 2 2 K) :
    (f.correct z inverse).covariance = f.posterior (f.gain inverse) :=
  correct_covariance_of_isSymm hP.isSymm hR.isSymm z inverse

end Filter

end PlanarKalman
