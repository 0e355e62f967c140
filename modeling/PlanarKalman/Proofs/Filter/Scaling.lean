import PlanarKalman.Proofs.Filter.Covariance

/-!
# Only the ratios of the covariances matter

Multiply all that a filter is told of uncertainty, at the start, in the sensor and in the
motion, by one positive number `c`. The innovation covariance is multiplied by `c` and its
inverse by `c⁻¹`, so in the gain, a covariance times that inverse, nothing is left of `c`: every
reading is weighed as before. In the covariance after a reading each term has one covariance
between two gains, so it is multiplied by `c` once and no more.

`Rescaled` is the relation that every call keeps. It asks for no covariance to be one, and of the
parameters it has only what a call looks at.
-/

namespace PlanarKalman

open Matrix

section Answers

variable {α : Type} [Scalar α]

/-- The same estimate, less or more sure. -/
def Estimate.rescale (e : Estimate α) (c : α) : Estimate α := ⟨e.position, e.covariance.scale c⟩

/-- The answer with its covariance multiplied; an error stays as it is. -/
def Outcome.rescale (answer : Outcome α) (c : α) : Outcome α :=
  answer.map (Except.map (Estimate.rescale · c))

end Answers

variable {K : Type} [Field K] [LinearOrder K]

namespace Mat

variable {m n : ℕ}

theorem eq_scale_iff {A B : Mat m n K} {c : K} :
    B = A.scale c ↔ B.toMatrix = c • A.toMatrix := by
  rw [← toMatrix_inj, toMatrix_scale]

/-- The inverse of a multiple, with the determinants that decide whether there is one. -/
theorem inverse?_of_smul {A B : Mat 2 2 K} {c : K} (hc : c ≠ 0)
    (hB : B.toMatrix = c • A.toMatrix) :
    B.inverse? = A.inverse?.map (Mat.scale · c⁻¹) := by
  have hdet : B.toMatrix.det = c ^ 2 * A.toMatrix.det := by
    rw [hB, Matrix.det_smul, Fintype.card_fin]
  cases hA : A.inverse? with
  | none =>
      rw [inverse?_eq_none_iff] at hA
      rw [Option.map_none, inverse?_eq_none_iff, hdet, hA, mul_zero]
  | some inverse =>
      obtain ⟨hne, hinverse⟩ := inverse?_eq_some_iff.mp hA
      rw [Option.map_some, inverse?_eq_some_iff, hdet]
      refine ⟨mul_ne_zero (pow_ne_zero 2 hc) hne, ?_⟩
      have := invertibleOfNonzero hc
      rw [toMatrix_scale, hinverse, hB, Matrix.inv_smul _ _ (isUnit_iff_ne_zero.mpr hne),
        invOf_eq_inv]

end Mat

namespace Filter

/-- The second filter does as the first one does, but is `c` times as uncertain of everything. -/
structure Rescaled (c : K) (f g : Filter K) : Prop where
  transition_eq : f.model.transition = g.model.transition
  observation_eq : f.model.observation = g.model.observation
  strict_eq : f.config.strict = g.config.strict
  phase_eq : f.phase = g.phase
  mean_eq : f.mean = g.mean
  covariance : g.covariance.toMatrix = c • f.covariance.toMatrix
  processNoise : g.model.processNoise.toMatrix = c • f.model.processNoise.toMatrix
  measurementNoise : g.model.measurementNoise.toMatrix = c • f.model.measurementNoise.toMatrix

namespace Rescaled

variable {c : K} {f g : Filter K}

theorem predict (h : Rescaled c f g) : Rescaled c f.predict g.predict := by
  refine ⟨h.transition_eq, h.observation_eq, h.strict_eq, rfl, ?_, ?_, h.processNoise,
    h.measurementNoise⟩
  · simp only [Filter.predict, h.transition_eq, h.mean_eq]
  · rw [toMatrix_predict_covariance, toMatrix_predict_covariance, ← h.transition_eq,
      h.covariance, h.processNoise, Matrix.mul_smul, Matrix.smul_mul, smul_add]

theorem innovationCovariance (h : Rescaled c f g) :
    g.innovationCovariance.toMatrix = c • f.innovationCovariance.toMatrix := by
  rw [toMatrix_innovationCovariance, toMatrix_innovationCovariance, ← h.observation_eq,
    h.covariance, h.measurementNoise, Matrix.mul_smul, Matrix.smul_mul, smul_add]

theorem innovationInverse?_eq (h : Rescaled c f g) (hc : c ≠ 0) :
    g.innovationInverse? = f.innovationInverse?.map (Mat.scale · c⁻¹) := by
  rw [innovationInverse?_exact, innovationInverse?_exact,
    Mat.inverse?_of_smul hc h.innovationCovariance]

/-- The factors of the covariance and of the inverse cancel. -/
theorem gain_eq (h : Rescaled c f g) (hc : c ≠ 0) (inverse : Mat 2 2 K) :
    g.gain (inverse.scale c⁻¹) = f.gain inverse := by
  rw [← Mat.toMatrix_inj, toMatrix_gain, toMatrix_gain, ← h.observation_eq, h.covariance,
    Mat.toMatrix_scale, Matrix.mul_smul, Matrix.smul_mul, Matrix.smul_mul, smul_smul,
    inv_mul_cancel₀ hc, one_smul]

theorem posterior (h : Rescaled c f g) (L : Mat 4 2 K) :
    (g.posterior L).toMatrix = c • (f.posterior L).toMatrix := by
  rw [toMatrix_posterior, toMatrix_posterior, ← h.observation_eq, h.covariance,
    h.measurementNoise]
  simp only [Matrix.mul_smul, Matrix.smul_mul, smul_add]

theorem estimate_eq (h : Rescaled c f g) : g.estimate = f.estimate.rescale c := by
  rw [estimate, state, ← h.mean_eq, Mat.eq_scale_iff.mpr h.covariance]
  rfl

theorem admitsUpdate_eq (h : Rescaled c f g) : f.admitsUpdate = g.admitsUpdate :=
  admitsUpdate_congr h.strict_eq h.phase_eq

variable [IsStrictOrderedRing K]

theorem correct (h : Rescaled c f g) (hc : c ≠ 0) (z : Point K) (inverse : Mat 2 2 K) :
    Rescaled c (f.correct z inverse) (g.correct z (inverse.scale c⁻¹)) := by
  refine ⟨h.transition_eq, h.observation_eq, h.strict_eq, rfl, ?_, ?_, h.processNoise,
    h.measurementNoise⟩
  · simp only [Filter.correct, h.gain_eq hc, h.observation_eq, h.mean_eq]
  · simp only [Filter.correct, h.gain_eq hc, Mat.toMatrix_symmetricPart, h.posterior,
      transpose_smul, ← smul_add, smul_comm c]

/-- Both updates succeed, and then the filters stay in the same ratio, or both fail for the same
reason. -/
theorem attempt (h : Rescaled c f g) (hc : c ≠ 0) (z : Point K) :
    Rescaled c (f.attempt z).1 (g.attempt z).1 ∧
      (f.attempt z).2.map (Estimate.rescale · c) = (g.attempt z).2 := by
  cases hf : f.update z with
  | ok next =>
      obtain ⟨hadmits, inverse, hinv, rfl⟩ := update_eq_ok_iff.mp hf
      have hinv' : g.innovationInverse? = some (inverse.scale c⁻¹) := by
        rw [h.innovationInverse?_eq hc, hinv, Option.map_some]
      have hg : g.update z = .ok (g.correct z (inverse.scale c⁻¹)) :=
        update_eq_ok_iff.mpr ⟨h.admitsUpdate_eq ▸ hadmits, _, hinv', rfl⟩
      have hnext := h.correct hc z inverse
      rw [attempt_of_ok hf, attempt_of_ok hg]
      exact ⟨hnext, congrArg Except.ok hnext.estimate_eq.symm⟩
  | error e =>
      have hg : g.update z = .error e := by
        rw [update_eq_error_iff] at hf ⊢
        rwa [← h.admitsUpdate_eq, h.innovationInverse?_eq hc, Option.map_eq_none_iff]
      rw [attempt_of_error hf, attempt_of_error hg]
      exact ⟨h, rfl⟩

theorem call (h : Rescaled c f g) (hc : c ≠ 0) (d : Call K) :
    Rescaled c (f.call d).1 (g.call d).1 ∧
      Outcome.rescale (f.call d).2 c = (g.call d).2 := by
  refine call_lift (fun g d => g.call d) (fun _ _ => rfl)
    (S := fun p q => Rescaled c p.1 q.1 ∧ Outcome.rescale p.2 c = q.2)
    (fun _ _ hfg => ⟨hfg.predict, hfg.predict, rfl⟩) (fun _ _ z hfg => ?_) h d
  obtain ⟨hnext, hanswer⟩ := hfg.attempt hc z
  exact ⟨hnext, congrArg some hanswer⟩

theorem after (h : Rescaled c f g) (hc : c ≠ 0) (calls : List (Call K)) :
    Rescaled c (f.after calls) (g.after calls) ∧
      (f.outcomes calls).map (Outcome.rescale · c) = g.outcomes calls := by
  have hrun := after_map (C := id) (A := (Outcome.rescale · c))
    (fun _ _ d hfg => hfg.call hc d) h calls
  rwa [List.map_id] at hrun

end Rescaled

/-! ## Created filters -/

section Created

variable [IsStrictOrderedRing K] [SmallestEigenvalue K] {c : K}

omit [IsStrictOrderedRing K] in
theorem uniform_eq_scale_iff {parameter : CovarianceParameter} {n : ℕ} {v v' : K}
    {A A' : Mat (n + 1) (n + 1) K}
    (hA : FilterConfig.resolveCovariance parameter (n + 1) (.uniform v) = .ok A)
    (hA' : FilterConfig.resolveCovariance parameter (n + 1) (.uniform v') = .ok A') :
    A' = A.scale c ↔ v' = c * v := by
  obtain ⟨-, rfl⟩ := FilterConfig.resolveCovariance_uniform_eq_ok_iff.mp hA
  obtain ⟨-, rfl⟩ := FilterConfig.resolveCovariance_uniform_eq_ok_iff.mp hA'
  constructor
  · intro h
    have hcorner := congrArg (fun B : Mat (n + 1) (n + 1) K => B 0 0) h
    simpa [mul_comm c] using hcorner
  · rintro rfl
    ext i j
    simp only [Mat.scale_apply]
    ring

/-- The velocities have a variance of their own, the square of the time step times that of the
acceleration. -/
theorem acceleration_eq_scale_iff {dt v v' : K} (hdt : 0 < dt) {A A' : Mat 4 4 K}
    (hA : FilterConfig.resolveProcessNoise dt (.acceleration v) = .ok A)
    (hA' : FilterConfig.resolveProcessNoise dt (.acceleration v') = .ok A') :
    A' = A.scale c ↔ v' = c * v := by
  obtain ⟨-, rfl⟩ := FilterConfig.resolveProcessNoise_acceleration_eq_ok_iff.mp hA
  obtain ⟨-, rfl⟩ := FilterConfig.resolveProcessNoise_acceleration_eq_ok_iff.mp hA'
  rw [Mat.eq_scale_iff, Motion.toMatrix_accelerationNoise, Motion.toMatrix_accelerationNoise,
    smul_smul]
  constructor
  · intro h
    have hvelocity := congrFun (congrFun h 2) 2
    have heffect : (Motion.accelerationEffect dt * (Motion.accelerationEffect dt)ᵀ) 2 2
        = dt * dt := by
      simp [Matrix.mul_apply, Fin.sum_univ_two, Motion.accelerationEffect]
    rw [Matrix.smul_apply, Matrix.smul_apply, heffect, smul_eq_mul, smul_eq_mul] at hvelocity
    exact mul_right_cancel₀ (mul_pos hdt hdt).ne' hvelocity
  · rintro rfl
    rfl

variable {config config' : FilterConfig K} {f g : Filter K}

/-- A filter that is `c` times as uncertain of everything as another believes the same, fails
where the other fails, and stays `c` times as uncertain. With single numbers for the covariances
that is to multiply each of them by `c`. -/
theorem runs_rescale (hc : 0 < c) (hf : create config = .ok f) (hg : create config' = .ok g)
    (hstart : config.initialPosition = config'.initialPosition)
    (htime : config.timestep = config'.timestep) (hstrict : config.strict = config'.strict) :
    (g.covariance = f.covariance.scale c →
      g.model.measurementNoise = f.model.measurementNoise.scale c →
      g.model.processNoise = f.model.processNoise.scale c → ∀ calls,
        (g.after calls).state = (f.after calls).state ∧
        (g.after calls).phase = (f.after calls).phase ∧
        (g.after calls).covariance = (f.after calls).covariance.scale c ∧
        g.outcomes calls = (f.outcomes calls).map (Outcome.rescale · c)) ∧
    (∀ v v', config.initialCovariance = .uniform v → config'.initialCovariance = .uniform v' →
      (g.covariance = f.covariance.scale c ↔ v' = c * v)) ∧
    (∀ v v', config.measurementNoise = .uniform v → config'.measurementNoise = .uniform v' →
      (g.model.measurementNoise = f.model.measurementNoise.scale c ↔ v' = c * v)) ∧
    (∀ v v', config.processNoise = .acceleration v → config'.processNoise = .acceleration v' →
      (g.model.processNoise = f.model.processNoise.scale c ↔ v' = c * v)) := by
  obtain ⟨covariances, hres, rfl⟩ := create_eq_ok_iff.mp hf
  obtain ⟨covariances', hres', rfl⟩ := create_eq_ok_iff.mp hg
  obtain ⟨hdt, -, hP, hR, hQ⟩ := FilterConfig.resolve_eq_ok_iff.mp hres
  obtain ⟨-, -, hP', hR', hQ'⟩ := FilterConfig.resolve_eq_ok_iff.mp hres'
  rw [← htime] at hQ'
  refine ⟨fun hcovariance hmeasurement hprocess calls => ?_,
    fun v v' hv hv' => uniform_eq_scale_iff (hv ▸ hP) (hv' ▸ hP'),
    fun v v' hv hv' => uniform_eq_scale_iff (hv ▸ hR) (hv' ▸ hR'),
    fun v v' hv hv' => acceleration_eq_scale_iff (isPositive_iff.mp hdt) (hv ▸ hQ) (hv' ▸ hQ')⟩
  have hfirst : Rescaled c (ofCovariances config covariances)
      (ofCovariances config' covariances') :=
    ⟨congrArg Motion.transition htime, rfl, hstrict, rfl,
      congrArg (State.toColumn ∘ State.restingAt) hstart, Mat.eq_scale_iff.mp hcovariance,
      Mat.eq_scale_iff.mp hprocess, Mat.eq_scale_iff.mp hmeasurement⟩
  obtain ⟨hafter, houtcomes⟩ := hfirst.after hc.ne' calls
  exact ⟨congrArg State.ofColumn hafter.mean_eq.symm, hafter.phase_eq.symm,
    Mat.eq_scale_iff.mpr hafter.covariance, houtcomes.symm⟩

end Created

/-! ## A filter that is nine times as uncertain

The start is certain and so is one coordinate of a reading, so the first update fails. -/

def waryConfig (c : ℚ) : FilterConfig ℚ where
  initialPosition := ⟨1, 2⟩
  initialCovariance := .uniform 0
  measurementNoise := .full 2 2 (Mat.ofFn fun i j => if i.val = 1 ∧ j.val = 1 then 4 * c else 0)
  processNoise := .acceleration c
  timestep := 1
  strict := false

def waryFilter (c : ℚ) : Filter ℚ :=
  ofCovariances (waryConfig c)
    ⟨Mat.identity.scale 0, Mat.ofFn fun i j => if i.val = 1 ∧ j.val = 1 then 4 * c else 0,
      Motion.accelerationNoise 1 c⟩

theorem create_wary {c : ℚ} (hc : c = 1 ∨ c = 9) :
    letI := leastDiagonal
    create (waryConfig c) = .ok (waryFilter c) := by
  let := leastDiagonal
  refine create_eq_ok_iff.mpr ⟨_, FilterConfig.resolve_eq_ok_iff.mpr ⟨?_, rfl, ?_, ?_, ?_⟩, rfl⟩ <;>
    rcases hc with rfl | rfl <;> decide +kernel

theorem runs_rescale_of_wary :
    letI := leastDiagonal
    let calls : List (Call ℚ) := [.update ⟨1, 1⟩, .step ⟨3, -1⟩, .predict, .update ⟨0, 5⟩]
    create (waryConfig 1) = .ok (waryFilter 1) ∧ create (waryConfig 9) = .ok (waryFilter 9) ∧
      ((waryFilter 1).outcomes calls).head? = some (some (.error .singularInnovation)) ∧
      (waryFilter 9).model.processNoise = (waryFilter 1).model.processNoise.scale 9 ∧
      ((waryFilter 9).after calls).state = ((waryFilter 1).after calls).state ∧
      (waryFilter 9).outcomes calls
        = ((waryFilter 1).outcomes calls).map (Outcome.rescale · 9) := by
  let := leastDiagonal
  have hf := create_wary (Or.inl rfl)
  have hg := create_wary (Or.inr rfl)
  obtain ⟨hruns, hinitial, -, hprocess⟩ := runs_rescale (c := 9) (by norm_num) hf hg rfl rfl rfl
  have hP := (hinitial 0 0 rfl rfl).mpr (mul_zero 9).symm
  have hQ := (hprocess 1 9 rfl rfl).mpr (mul_one 9).symm
  have hR : (waryFilter 9).model.measurementNoise = (waryFilter 1).model.measurementNoise.scale 9 :=
    by decide +kernel
  obtain ⟨hstate, -, -, houtcomes⟩ := hruns hP hR hQ
    [.update ⟨1, 1⟩, .step ⟨3, -1⟩, .predict, .update ⟨0, 5⟩]
  exact ⟨hf, hg, by decide +kernel, hQ, hstate, houtcomes⟩

end Filter

end PlanarKalman
