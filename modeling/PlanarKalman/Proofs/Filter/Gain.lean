import PlanarKalman.Proofs.Filter.Covariance

/-!
# The gain is the best one

Any gain `L` whatever gives a covariance after a reading. Completing the square
writes it as the one the filter stores plus `(L - K) S (L - K)ᵀ`, where `K` is the
gain the filter uses and `S` the innovation covariance (`joseph_eq_add`). The
second part is a covariance, so no gain gives less. Two choices of `L` say what
that means: with `L = 0` nothing of the reading is believed, so an update does not
increase the covariance; with the `L` that believes everything the position is as
uncertain as the reading, so an update leaves it at most that.
-/

namespace PlanarKalman

open Matrix

variable {ι κ K : Type} [Fintype ι] [Fintype κ] [DecidableEq ι] [Field K]

/-! ## Completing the square -/

theorem joseph_expand {P : Matrix ι ι K} {R : Matrix κ κ K} (H : Matrix κ ι K)
    (L : Matrix ι κ K) :
    (1 - L * H) * P * (1 - L * H)ᵀ + L * R * Lᵀ
      = P - L * (H * P) - P * Hᵀ * Lᵀ + L * (H * P * Hᵀ + R) * Lᵀ := by
  rw [transpose_sub, transpose_one, transpose_mul]
  simp only [Matrix.sub_mul, Matrix.mul_sub, Matrix.one_mul, Matrix.mul_one, Matrix.mul_add,
    Matrix.add_mul, Matrix.mul_assoc]
  abel

omit [DecidableEq ι] in
theorem innovation_mul_transpose_gain {P : Matrix ι ι K} {S : Matrix κ κ K}
    {H : Matrix κ ι K} {G : Matrix ι κ K} (hP : P.IsSymm) (hsymm : S.IsSymm)
    (hG : G * S = P * Hᵀ) : S * Gᵀ = H * P := by
  calc S * Gᵀ = (G * S)ᵀ := by rw [transpose_mul, hsymm.eq]
    _ = H * P := by rw [hG, transpose_mul, transpose_transpose, hP.eq]

/-- A gain `G` with `G S = P Hᵀ` is where the square is complete. -/
theorem joseph_eq {P : Matrix ι ι K} {R S : Matrix κ κ K} {H : Matrix κ ι K}
    {G : Matrix ι κ K} (hP : P.IsSymm) (hsymm : S.IsSymm) (hS : H * P * Hᵀ + R = S)
    (hG : G * S = P * Hᵀ) (L : Matrix ι κ K) :
    (1 - L * H) * P * (1 - L * H)ᵀ + L * R * Lᵀ
      = P - G * S * Gᵀ + (L - G) * S * (L - G)ᵀ := by
  rw [joseph_expand, hS, ← innovation_mul_transpose_gain hP hsymm hG, ← hG, transpose_sub]
  simp only [Matrix.sub_mul, Matrix.mul_sub, Matrix.mul_assoc]
  abel

/-- The gain that believes a reading entirely leaves the variance of the reading. -/
theorem joseph_of_mul_eq_one [DecidableEq κ] {H : Matrix κ ι K} {L : Matrix ι κ K}
    (hHL : H * L = 1) (P : Matrix ι ι K) (R : Matrix κ κ K) :
    H * ((1 - L * H) * P * (1 - L * H)ᵀ + L * R * Lᵀ) * Hᵀ = R := by
  have hrest : H * (1 - L * H) = 0 := by
    rw [Matrix.mul_sub, Matrix.mul_one, ← Matrix.mul_assoc, hHL, Matrix.one_mul, sub_self]
  have hHLT : Lᵀ * Hᵀ = 1 := by rw [← transpose_mul, hHL, transpose_one]
  calc H * ((1 - L * H) * P * (1 - L * H)ᵀ + L * R * Lᵀ) * Hᵀ
      = H * (1 - L * H) * P * (1 - L * H)ᵀ * Hᵀ + H * L * R * (Lᵀ * Hᵀ) := by
        simp only [Matrix.mul_add, Matrix.add_mul, Matrix.mul_assoc]
    _ = R := by
        rw [hrest, hHL, hHLT]
        simp only [Matrix.zero_mul, Matrix.one_mul, Matrix.mul_one, zero_add]

namespace Filter

/-- Every filter there is looks at the position of its target. -/
theorem observation_after_create {α : Type} [Scalar α] [SmallestEigenvalue α]
    {config : FilterConfig α} {f : Filter α} (hf : create config = .ok f)
    (calls : List (Call α)) : (f.after calls).model.observation = Motion.observation := by
  obtain ⟨covariances, -, rfl⟩ := create_eq_ok_iff.mp hf
  rw [model_after]
  rfl

variable {K : Type} [Field K] [LinearOrder K] [IsStrictOrderedRing K]

/-- What any gain `L` gives is what the filter stores plus the innovation covariance seen
through the distance of `L` from the filter's gain. -/
theorem joseph_eq_add {f : Filter K} (hP : Semidefinite f.covariance.toMatrix)
    (hR : Semidefinite f.model.measurementNoise.toMatrix) {inverse : Mat 2 2 K}
    (hinv : f.innovationInverse? = some inverse) (z : Point K) (L : Matrix (Fin 4) (Fin 2) K) :
    (1 - L * f.model.observation.toMatrix) * f.covariance.toMatrix
        * (1 - L * f.model.observation.toMatrix)ᵀ + L * f.model.measurementNoise.toMatrix * Lᵀ
      = (f.correct z inverse).covariance.toMatrix
        + (L - (f.gain inverse).toMatrix) * f.innovationCovariance.toMatrix
          * (L - (f.gain inverse).toMatrix)ᵀ := by
  have hsquare := joseph_eq (L := L) hP.isSymm
    (semidefinite_innovationCovariance hP hR).isSymm (toMatrix_innovationCovariance f).symm
    (gain_mul_innovationCovariance hinv)
  have hstored := joseph_eq (L := (f.gain inverse).toMatrix) hP.isSymm
    (semidefinite_innovationCovariance hP hR).isSymm (toMatrix_innovationCovariance f).symm
    (gain_mul_innovationCovariance hinv)
  rw [sub_self, Matrix.zero_mul, Matrix.zero_mul, add_zero] at hstored
  rw [correct_covariance hP hR, toMatrix_posterior, hstored, hsquare]

/-! ## The stored covariance is the least one -/

/-- No linear gain gives a smaller covariance than the update stores. In particular an
update increases no variance, and leaves the position no less certain than the reading. -/
theorem update_optimal {f f' : Filter K} {z : Point K}
    (hP : Semidefinite f.covariance.toMatrix)
    (hR : Semidefinite f.model.measurementNoise.toMatrix) (hupdate : f.update z = .ok f') :
    let P := f.covariance.toMatrix
    let R := f.model.measurementNoise.toMatrix
    let H := f.model.observation.toMatrix
    let S := H * P * Hᵀ + R
    let G := P * Hᵀ * S⁻¹
    let P' := f'.covariance.toMatrix
    IsUnit S.det ∧
    (∀ L : Matrix (Fin 4) (Fin 2) K,
      (1 - L * H) * P * (1 - L * H)ᵀ + L * R * Lᵀ - P' = (L - G) * S * (L - G)ᵀ ∧
      Semidefinite ((1 - L * H) * P * (1 - L * H)ᵀ + L * R * Lᵀ - P')) ∧
    Semidefinite (P - P') ∧ P'.trace ≤ P.trace ∧ (∀ i, P' i i ≤ P i i) ∧
    (f.model.observation = Motion.observation →
      Semidefinite (R - P'.submatrix (Fin.castAdd 2) (Fin.castAdd 2))) := by
  intro P R H S G P'
  obtain ⟨-, inverse, hinv, rfl⟩ := update_eq_ok_iff.mp hupdate
  have hS : f.innovationCovariance.toMatrix = S := toMatrix_innovationCovariance f
  obtain ⟨hdet, hinverse⟩ := innovationInverse?_eq_some_iff.mp hinv
  have hG : (f.gain inverse).toMatrix = G := by rw [toMatrix_gain, hinverse, hS]
  have hgap : ∀ L : Matrix (Fin 4) (Fin 2) K,
      (1 - L * H) * P * (1 - L * H)ᵀ + L * R * Lᵀ - P' = (L - G) * S * (L - G)ᵀ := by
    intro L
    rw [joseph_eq_add hP hR hinv z L, hG, hS, add_sub_cancel_left]
  have hleast : ∀ L : Matrix (Fin 4) (Fin 2) K,
      Semidefinite ((1 - L * H) * P * (1 - L * H)ᵀ + L * R * Lᵀ - P') := by
    intro L
    rw [hgap, ← hS]
    exact (semidefinite_innovationCovariance hP hR).congruence _
  have hnone : Semidefinite (P - P') := by
    simpa using hleast 0
  refine ⟨isUnit_iff_ne_zero.mpr (hS ▸ hdet), fun L => ⟨hgap L, hleast L⟩, hnone,
    hnone.trace_le, hnone.diagonal_le, fun hobs => ?_⟩
  have hH : H = (Motion.observation : Mat 2 4 K).toMatrix := congrArg Mat.toMatrix hobs
  have hHL : H * Motion.placement (K := K) = 1 := by rw [hH, Motion.observation_mul_placement]
  have hblock : H * P' * Hᵀ = P'.submatrix (Fin.castAdd 2) (Fin.castAdd 2) := by
    rw [hH, Motion.observation_mul_mul_transpose]
  have hall := (hleast Motion.placement).congruence H
  rwa [Matrix.mul_sub, Matrix.sub_mul, joseph_of_mul_eq_one hHL, hblock] at hall

theorem create_demonstration {K : Type} [Field K] [LinearOrder K] [IsStrictOrderedRing K]
    [SmallestEigenvalue K] :
    create (.demonstration : FilterConfig K) = .ok (ofCovariances .demonstration
      ⟨Mat.identity.scale 50000.0, Mat.identity.scale 64.0,
        Motion.accelerationNoise 0.1 0.001⟩) := by
  refine create_eq_ok_iff.mpr ⟨_, FilterConfig.resolve_eq_ok_iff.mpr ⟨?_, rfl, ?_, ?_, ?_⟩, rfl⟩
  · exact isPositive_iff.mpr (by norm_num [FilterConfig.demonstration])
  · exact FilterConfig.resolveCovariance_uniform_eq_ok_iff.mpr ⟨by norm_num, rfl⟩
  · exact FilterConfig.resolveCovariance_uniform_eq_ok_iff.mpr ⟨by norm_num, rfl⟩
  · exact FilterConfig.resolveProcessNoise_acceleration_eq_ok_iff.mpr ⟨by norm_num, rfl⟩

/-- The filter of the demonstration, over the rational numbers. -/
def demonstrationFilter : Filter ℚ :=
  ofCovariances .demonstration
    ⟨Mat.identity.scale 50000.0, Mat.identity.scale 64.0, Motion.accelerationNoise 0.1 0.001⟩

theorem isSound_demonstration : demonstrationFilter.IsSound := by
  let := leastDiagonal
  exact isSound_of_create (create_demonstration (K := ℚ)) rfl rfl rfl

theorem update_optimal_of_demonstration :
    ∃ f', Semidefinite demonstrationFilter.predict.covariance.toMatrix ∧
      Semidefinite demonstrationFilter.model.measurementNoise.toMatrix ∧
      demonstrationFilter.predict.update ⟨5, -5⟩ = .ok f' ∧
      f'.covariance.toMatrix.trace ≤ demonstrationFilter.predict.covariance.toMatrix.trace ∧
      Semidefinite (demonstrationFilter.model.measurementNoise.toMatrix
        - f'.covariance.toMatrix.submatrix (Fin.castAdd 2) (Fin.castAdd 2)) := by
  obtain ⟨inverse, hinv⟩ : ∃ inverse,
      demonstrationFilter.predict.innovationInverse? = some inverse :=
    Option.isSome_iff_exists.mp (by decide +kernel)
  have hupdate : demonstrationFilter.predict.update ⟨5, -5⟩
      = .ok (demonstrationFilter.predict.correct ⟨5, -5⟩ inverse) :=
    update_eq_ok_iff.mpr ⟨rfl, inverse, hinv, rfl⟩
  have hsound := isSound_demonstration.predict
  obtain ⟨-, -, -, htrace, -, hblock⟩ :=
    update_optimal hsound.belief hsound.measurementNoise hupdate
  exact ⟨_, hsound.belief, hsound.measurementNoise, hupdate, htrace, hblock rfl⟩

end Filter

end PlanarKalman
