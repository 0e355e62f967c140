import PlanarKalman.Proofs.Filter.Gain

/-!
# The update of the textbooks

A textbook takes a reading in by `(1 - K H) P`. The filter computes the long form of that,
a congruence plus a congruence, and stores the symmetric part of it. Both are the same, and
the symmetric part is the whole, because the gain `K` solves `K S = P Hᵀ`. With another gain
the short form need not even be symmetric.

Only symmetry is used here. That the belief is a covariance does not matter, as long as the
innovation covariance `S` has an inverse.
-/

namespace PlanarKalman

open Matrix

/-- The long form with the gain that solves `G S = P Hᵀ` is the short one. -/
theorem joseph_gain {ι κ K : Type} [Fintype ι] [Fintype κ] [DecidableEq ι] [Field K]
    {P : Matrix ι ι K} {R S : Matrix κ κ K} {H : Matrix κ ι K} {G : Matrix ι κ K}
    (hP : P.IsSymm) (hsymm : S.IsSymm) (hS : H * P * Hᵀ + R = S) (hG : G * S = P * Hᵀ) :
    (1 - G * H) * P * (1 - G * H)ᵀ + G * R * Gᵀ = P - G * (H * P) := by
  have hsquare := joseph_eq hP hsymm hS hG G
  rw [sub_self, Matrix.zero_mul, Matrix.zero_mul, add_zero] at hsquare
  rw [hsquare, Matrix.mul_assoc, innovation_mul_transpose_gain hP hsymm hG]

namespace Filter

variable {K : Type} [Field K] [LinearOrder K]

/-- The inverse that an update works with is one on both sides. -/
theorem innovationCovariance_mul_inverse {f : Filter K} {inverse : Mat 2 2 K}
    (hinv : f.innovationInverse? = some inverse) :
    f.innovationCovariance.toMatrix * inverse.toMatrix = 1 ∧
      inverse.toMatrix * f.innovationCovariance.toMatrix = 1 := by
  obtain ⟨hdet, hinverse⟩ := innovationInverse?_eq_some_iff.mp hinv
  have hunit := isUnit_iff_ne_zero.mpr hdet
  rw [hinverse]
  exact ⟨mul_nonsing_inv _ hunit, nonsing_inv_mul _ hunit⟩

variable [IsStrictOrderedRing K]

/-- What a correction stores, by the short form. -/
theorem toMatrix_correct_covariance {f : Filter K} (hP : f.covariance.toMatrix.IsSymm)
    (hR : f.model.measurementNoise.toMatrix.IsSymm) {inverse : Mat 2 2 K}
    (hinv : f.innovationInverse? = some inverse) (z : Point K) :
    (f.correct z inverse).covariance.toMatrix
      = f.covariance.toMatrix
        - (f.gain inverse).toMatrix * (f.model.observation.toMatrix * f.covariance.toMatrix) := by
  rw [correct_covariance_of_isSymm hP hR, toMatrix_posterior]
  exact joseph_gain hP (isSymm_innovationCovariance hP hR) (toMatrix_innovationCovariance f).symm
    (gain_mul_innovationCovariance hinv)

/-- A permitted update succeeds when the innovation covariance has an inverse, and stores
what the textbooks do. Taking the symmetric part on the way changes nothing. -/
theorem update_eq_textbook {f : Filter K} (hpermitted : f.admitsUpdate = true)
    (hP : f.covariance.toMatrix.IsSymm) (hR : f.model.measurementNoise.toMatrix.IsSymm)
    (hS : IsUnit (f.model.observation.toMatrix * f.covariance.toMatrix
      * f.model.observation.toMatrixᵀ + f.model.measurementNoise.toMatrix).det) (z : Point K) :
    let P := f.covariance.toMatrix
    let x := f.mean.toMatrix
    let H := f.model.observation.toMatrix
    let S := H * P * Hᵀ + f.model.measurementNoise.toMatrix
    ∃ inverse f', f.innovationInverse? = some inverse ∧
      S * inverse.toMatrix = 1 ∧ inverse.toMatrix * S = 1 ∧
      (f.posterior (f.gain inverse)).toMatrix.IsSymm ∧
      (f.posterior (f.gain inverse)).symmetricPart = f.posterior (f.gain inverse) ∧
      f.attempt z
        = (f', .ok ⟨⟨f'.mean.component 0, f'.mean.component 1⟩, f'.covariance⟩) ∧
      f'.covariance.toMatrix = (1 - (f.gain inverse).toMatrix * H) * P ∧
      f'.covariance.toMatrix = P - P * Hᵀ * S⁻¹ * H * P ∧
      f'.mean.toMatrix = x + P * Hᵀ * S⁻¹ * (z.toColumn.toMatrix - H * x) := by
  intro P x H S
  have hinnovation : f.innovationCovariance.toMatrix = S := toMatrix_innovationCovariance f
  have hdet : f.innovationCovariance.toMatrix.det ≠ 0 := by
    rw [hinnovation]
    exact hS.ne_zero
  obtain ⟨inverse, hinv⟩ := exists_innovationInverse hdet
  obtain ⟨-, hinverse⟩ := innovationInverse?_eq_some_iff.mp hinv
  obtain ⟨hright, hleft⟩ := innovationCovariance_mul_inverse hinv
  rw [hinnovation] at hinverse hright hleft
  have hgain : (f.gain inverse).toMatrix = P * Hᵀ * S⁻¹ := by rw [toMatrix_gain, hinverse]
  have hstored := toMatrix_correct_covariance hP hR hinv z
  have hsymm := isSymm_posterior hP hR (f.gain inverse)
  refine ⟨inverse, f.correct z inverse, hinv, hright, hleft, hsymm,
    Mat.symmetricPart_of_isSymm hsymm,
    attempt_of_ok (update_eq_ok_iff.mpr ⟨hpermitted, inverse, hinv, rfl⟩), ?_, ?_, ?_⟩
  · rw [hstored, Matrix.sub_mul, Matrix.one_mul, Matrix.mul_assoc]
  · rw [hstored, hgain, Matrix.mul_assoc _ H P]
  · rw [toMatrix_correct_mean, hgain]

/-- A strict filter that waits for a reading. Its covariance is symmetric and no more than
that, and nothing in it is zero. -/
def hankelFilter : Filter ℚ :=
  { ofCovariances { certainConfig with strict := true }
      ⟨Mat.ofFn fun i j => (i.val + j.val + 1 : ℕ), Mat.ofFn fun i j => if i = j then 3 else 1, 0⟩
    with phase := .awaitingUpdate }

theorem update_eq_textbook_of_hankel :
    let P := hankelFilter.covariance.toMatrix
    let gain : Matrix (Fin 4) (Fin 2) ℚ := !![0, 1/3; 1/5, 2/5; 2/5, 7/15; 3/5, 8/15]
    hankelFilter.admitsUpdate = true ∧ ![2, -1, 0, 0] ⬝ᵥ P *ᵥ ![2, -1, 0, 0] < 0 ∧
      ∃ f', hankelFilter.attempt ⟨4, 2⟩ = (f', .ok ⟨⟨1, 13/5⟩, f'.covariance⟩) ∧
        f'.covariance.toMatrix
          = (1 - gain * hankelFilter.model.observation.toMatrix) * P := by
  intro P gain
  have hpermitted : hankelFilter.admitsUpdate = true := rfl
  obtain ⟨inverse, f', hinv, -, -, -, -, hattempt, hstored, -, -⟩ :=
    update_eq_textbook hpermitted (by decide +kernel) (by decide +kernel)
      (isUnit_iff_ne_zero.mpr (by decide +kernel)) ⟨4, 2⟩
  have hgain : (hankelFilter.gain inverse).toMatrix = gain := by
    have hsome : hankelFilter.innovationInverse?
        = some (Mat.ofFn !![2/5, -1/5; -1/5, 4/15]) := by decide +kernel
    rw [Option.some.inj (hinv.symm.trans hsome)]
    decide +kernel
  have hestimate : (hankelFilter.attempt ⟨4, 2⟩).1.mean.component 0 = 1 ∧
      (hankelFilter.attempt ⟨4, 2⟩).1.mean.component 1 = 13/5 := by decide +kernel
  rw [hattempt] at hestimate ⊢
  rw [hestimate.1, hestimate.2]
  rw [hgain] at hstored
  exact ⟨hpermitted, by decide +kernel, f', rfl, hstored⟩

end Filter

end PlanarKalman
