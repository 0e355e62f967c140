import PlanarKalman.Proofs.LeastSquares
import PlanarKalman.Proofs.Filter.Covariance

/-!
# A filter without process noise fits a motion to all readings

A filter forgets its readings; a fit looks at all of them. Where the motion has no
noise the two agree: after every step the belief of the filter is the best fit of a
start to the first guess and the readings so far, carried along by the motion, and its
covariance is the inverse of the information about the start, seen through the motion.

What one call does to that is said by `Carries`. A prediction moves the fit along and
leaves it as it is; a correction adds one reading to information and evidence.
-/

namespace PlanarKalman

open Matrix

/-- Is the motion taken to be free of noise? -/
def ProcessNoiseForm.IsZero {α : Type} [Scalar α] : ProcessNoiseForm α → Prop
  | .acceleration variance => variance = 0
  | .full _ _ entries => ∀ i j, entries i j = 0

/-- A step for each of the readings `z 1` to `z n`. -/
def stepsThrough {α : Type} (z : ℕ → Point α) (n : ℕ) : List (Call α) :=
  (List.range' 1 n).map fun k => .step (z k)

theorem stepsThrough_succ {α : Type} (z : ℕ → Point α) (n : ℕ) :
    stepsThrough z (n + 1) = stepsThrough z n ++ [.step (z (n + 1))] := by
  rw [stepsThrough, List.range'_1_concat, List.map_append, add_comm 1 n]
  rfl

namespace Filter

variable {K : Type} [Field K] [LinearOrder K]

/-- The belief is about a start with information `Λ` and evidence `η`, and `A` has carried
it along since. -/
structure Carries (A Λ : Matrix (Fin 4) (Fin 4) K) (η : Matrix (Fin 4) (Fin 1) K)
    (f : Filter K) : Prop where
  covariance : f.covariance.toMatrix = A * Λ⁻¹ * Aᵀ
  mean : f.mean.toMatrix = A * (Λ⁻¹ * η)

namespace Carries

variable {A Λ : Matrix (Fin 4) (Fin 4) K} {η : Matrix (Fin 4) (Fin 1) K} {f : Filter K}

theorem predict (h : Carries A Λ η f) (hQ : f.model.processNoise.toMatrix = 0) :
    Carries (f.model.transition.toMatrix * A) Λ η f.predict := by
  constructor
  · rw [toMatrix_predict_covariance, hQ, h.covariance, add_zero, transpose_mul]
    simp only [Matrix.mul_assoc]
  · rw [toMatrix_predict_mean, h.mean, Matrix.mul_assoc]

/-! ## A reading

The filter sees `G` of the start, and `N` is the information after its reading. -/

variable {N : Matrix (Fin 4) (Fin 4) K} {G : Matrix (Fin 2) (Fin 4) K} {inverse : Mat 2 2 K}

theorem toMatrix_gain (h : Carries A Λ η f) (hΛ : Definite Λ)
    (hR : Definite f.model.measurementNoise.toMatrix)
    (hinv : f.innovationInverse? = some inverse) (hG : f.model.observation.toMatrix * A = G)
    (hN : Λ + Gᵀ * f.model.measurementNoise.toMatrix⁻¹ * G = N) (hNdet : IsUnit N.det) :
    (f.gain inverse).toMatrix
      = A * (N⁻¹ * (Gᵀ * f.model.measurementNoise.toMatrix⁻¹)) := by
  obtain ⟨hdet, hinverse⟩ := innovationInverse?_eq_some_iff.mp hinv
  have hGt : Gᵀ = Aᵀ * f.model.observation.toMatrixᵀ := by rw [← transpose_mul, hG]
  have hS : f.innovationCovariance.toMatrix
      = G * Λ⁻¹ * Gᵀ + f.model.measurementNoise.toMatrix := by
    rw [toMatrix_innovationCovariance, h.covariance, hGt, ← hG]
    simp only [Matrix.mul_assoc]
  have hPH : f.covariance.toMatrix * f.model.observation.toMatrixᵀ = A * (Λ⁻¹ * Gᵀ) := by
    rw [h.covariance, hGt]
    simp only [Matrix.mul_assoc]
  rw [Filter.toMatrix_gain, hPH, hinverse,
    ← inv_mul_reading_mul hN hNdet hΛ.isUnit_det hR.isUnit_det, ← hS, ← Matrix.mul_assoc A,
    mul_nonsing_inv_cancel_right _ _ (isUnit_iff_ne_zero.mpr hdet)]

theorem rest_mul (hG : f.model.observation.toMatrix * A = G)
    (hN : Λ + Gᵀ * f.model.measurementNoise.toMatrix⁻¹ * G = N) (hNdet : IsUnit N.det)
    (hgain : (f.gain inverse).toMatrix
      = A * (N⁻¹ * (Gᵀ * f.model.measurementNoise.toMatrix⁻¹))) :
    (1 - (f.gain inverse).toMatrix * f.model.observation.toMatrix) * A = A * (N⁻¹ * Λ) := by
  rw [Matrix.sub_mul, Matrix.one_mul, Matrix.mul_assoc _ _ A, hG, hgain,
    ← one_sub_inv_mul hN hNdet, Matrix.mul_sub, Matrix.mul_one]
  simp only [Matrix.mul_assoc]

variable [IsStrictOrderedRing K]

theorem semidefinite_covariance (h : Carries A Λ η f) (hΛ : Definite Λ) :
    Semidefinite f.covariance.toMatrix := by
  rw [h.covariance]
  exact hΛ.inv.semidefinite.congruence A

/-- A reading can always be weighed: with its own noise nothing about it is certain. -/
theorem exists_innovationInverse (h : Carries A Λ η f) (hΛ : Definite Λ)
    (hR : Definite f.model.measurementNoise.toMatrix) :
    ∃ inverse, f.innovationInverse? = some inverse := by
  have hS := definite_innovationCovariance (h.semidefinite_covariance hΛ) hR
  exact Filter.exists_innovationInverse hS.isUnit_det.ne_zero

/-- A correction adds what its reading says about the start. -/
theorem correct (h : Carries A Λ η f) (hΛ : Definite Λ)
    (hR : Definite f.model.measurementNoise.toMatrix)
    (hinv : f.innovationInverse? = some inverse) (z : Point K)
    (hG : f.model.observation.toMatrix * A = G)
    (hN : Λ + Gᵀ * f.model.measurementNoise.toMatrix⁻¹ * G = N) (hNdef : Definite N) :
    Carries A N (η + Gᵀ * f.model.measurementNoise.toMatrix⁻¹ * z.toColumn.toMatrix)
      (f.correct z inverse) := by
  let R := f.model.measurementNoise.toMatrix
  let rest := 1 - (f.gain inverse).toMatrix * f.model.observation.toMatrix
  have hgain := h.toMatrix_gain hΛ hR hinv hG hN hNdef.isUnit_det
  have hrest : rest * A = A * (N⁻¹ * Λ) := rest_mul hG hN hNdef.isUnit_det hgain
  constructor
  · have hjoseph := joseph_information hN hNdef.isSymm hNdef.isUnit_det hΛ.isSymm
      hΛ.isUnit_det hR.isSymm hR.isUnit_det
    rw [correct_covariance (h.semidefinite_covariance hΛ) hR.semidefinite, toMatrix_posterior,
      h.covariance]
    calc rest * (A * Λ⁻¹ * Aᵀ) * restᵀ + (f.gain inverse).toMatrix * R * (f.gain inverse).toMatrixᵀ
        = rest * A * Λ⁻¹ * (rest * A)ᵀ
            + (f.gain inverse).toMatrix * R * (f.gain inverse).toMatrixᵀ := by
          rw [transpose_mul]
          simp only [Matrix.mul_assoc]
      _ = A * (N⁻¹ * Λ * Λ⁻¹ * (N⁻¹ * Λ)ᵀ
            + N⁻¹ * (Gᵀ * R⁻¹) * R * (N⁻¹ * (Gᵀ * R⁻¹))ᵀ) * Aᵀ := by
          rw [hrest, hgain, transpose_mul A, transpose_mul A, Matrix.mul_add, Matrix.add_mul]
          simp only [Matrix.mul_assoc]
          rfl
      _ = A * N⁻¹ * Aᵀ := by rw [hjoseph]
  · rw [toMatrix_correct_mean, h.mean]
    calc A * (Λ⁻¹ * η) + (f.gain inverse).toMatrix
            * (z.toColumn.toMatrix - f.model.observation.toMatrix * (A * (Λ⁻¹ * η)))
        = rest * A * (Λ⁻¹ * η) + (f.gain inverse).toMatrix * z.toColumn.toMatrix := by
          simp only [rest, Matrix.sub_mul, Matrix.mul_sub, Matrix.one_mul, Matrix.mul_assoc]
          abel
      _ = A * (N⁻¹ * (Λ * (Λ⁻¹ * η)))
            + A * (N⁻¹ * (Gᵀ * R⁻¹ * z.toColumn.toMatrix)) := by
          rw [hrest, hgain]
          simp only [Matrix.mul_assoc]
          rfl
      _ = A * (N⁻¹ * (η + Gᵀ * R⁻¹ * z.toColumn.toMatrix)) := by
          rw [mul_nonsing_inv_cancel_left _ _ hΛ.isUnit_det, Matrix.mul_add, Matrix.mul_add]

/-- A step that predicts without noise succeeds and adds its reading. -/
theorem step (h : Carries A Λ η f) (hQ : f.model.processNoise.toMatrix = 0) (hΛ : Definite Λ)
    (hR : Definite f.model.measurementNoise.toMatrix) (z : Point K)
    (hG : f.model.observation.toMatrix * (f.model.transition.toMatrix * A) = G)
    (hN : Λ + Gᵀ * f.model.measurementNoise.toMatrix⁻¹ * G = N) (hNdef : Definite N) :
    (∃ estimate, (f.step z).2 = .ok estimate) ∧
      Carries (f.model.transition.toMatrix * A) N
        (η + Gᵀ * f.model.measurementNoise.toMatrix⁻¹ * z.toColumn.toMatrix) (f.step z).1 := by
  have hpredict := h.predict hQ
  obtain ⟨inverse, hinv⟩ := hpredict.exists_innovationInverse hΛ hR
  rw [Filter.step, attempt_of_ok (update_predict hinv z)]
  exact ⟨⟨_, rfl⟩, hpredict.correct hΛ hR hinv z hG hN hNdef⟩

end Carries

/-! ## Runs -/

/-- Where the target was when the filter was made, from what the filter took for granted
then and from readings `z 1`, `z 2` and so on. -/
def fitProblem (f : Filter K) (z : ℕ → Point K) : FitProblem (Fin 4) (Fin 2) K where
  transition := f.model.transition.toMatrix
  observation := f.model.observation.toMatrix
  start := f.mean.toMatrix
  uncertainty := f.covariance.toMatrix
  noise := f.model.measurementNoise.toMatrix
  reading k := (z k).toColumn.toMatrix

variable [IsStrictOrderedRing K]

/-- Every step succeeds, and after `n` of them the motion has carried the fit to the first
`n` readings along. -/
theorem carries_after {f : Filter K} (hQ : f.model.processNoise.toMatrix = 0)
    (hP : Definite f.covariance.toMatrix) (hR : Definite f.model.measurementNoise.toMatrix)
    (z : ℕ → Point K) (n : ℕ) :
    (∀ answer ∈ f.outcomes (stepsThrough z n), ∃ estimate, answer = some (.ok estimate)) ∧
      Carries (f.model.transition.toMatrix ^ n) ((f.fitProblem z).information n)
        ((f.fitProblem z).evidence n) (f.after (stepsThrough z n)) := by
  induction n with
  | zero =>
      refine ⟨nofun, ?_, ?_⟩
      · simp [stepsThrough, FitProblem.information, fitProblem,
          nonsing_inv_nonsing_inv _ hP.isUnit_det]
      · have hmean := mul_nonsing_inv_cancel_left _ f.mean.toMatrix hP.isUnit_det
        simpa [stepsThrough, FitProblem.information, FitProblem.evidence, fitProblem,
          nonsing_inv_nonsing_inv _ hP.isUnit_det] using hmean.symm
  | succ n ih =>
      obtain ⟨hanswers, hcarries⟩ := ih
      -- the filter that takes the next step still has the motion and the noises it was
      -- made with, so the step adds the next term of the sums
      have hmodel := model_after f (stepsThrough z n)
      have hdefinite := FitProblem.definite_information (p := f.fitProblem z) hP hR
      have hview : (f.after (stepsThrough z n)).model.observation.toMatrix
          * ((f.after (stepsThrough z n)).model.transition.toMatrix
            * f.model.transition.toMatrix ^ n) = (f.fitProblem z).view (n + 1) := by
        rw [hmodel, ← pow_succ']
        rfl
      have hinformation : (f.fitProblem z).information n + ((f.fitProblem z).view (n + 1))ᵀ
          * (f.after (stepsThrough z n)).model.measurementNoise.toMatrix⁻¹
          * (f.fitProblem z).view (n + 1) = (f.fitProblem z).information (n + 1) := by
        rw [hmodel, FitProblem.information_succ]
        rfl
      obtain ⟨⟨estimate, hanswer⟩, hnext⟩ := hcarries.step (hmodel ▸ hQ) (hdefinite n)
        (hmodel ▸ hR) (z (n + 1)) hview hinformation (hdefinite (n + 1))
      rw [stepsThrough_succ, outcomes_append_singleton, after_append_singleton, pow_succ',
        FitProblem.evidence_succ]
      rw [hmodel] at hnext
      refine ⟨?_, hnext⟩
      rw [List.forall_mem_append, List.forall_mem_singleton]
      exact ⟨hanswers, estimate, congrArg some hanswer⟩

/-! ## Motion without noise -/

variable [SmallestEigenvalue K]

theorem toMatrix_eq_zero_of_isZero {dt : K} {form : ProcessNoiseForm K} {A : Mat 4 4 K}
    (hform : form.IsZero) (h : FilterConfig.resolveProcessNoise dt form = .ok A) :
    A.toMatrix = 0 := by
  cases form with
  | acceleration variance =>
      obtain ⟨-, rfl⟩ := FilterConfig.resolveProcessNoise_acceleration_eq_ok_iff.mp h
      rw [Motion.toMatrix_accelerationNoise, show variance = 0 from hform, zero_smul]
  | full rows columns entries =>
      obtain ⟨hshape, -⟩ := FilterConfig.resolveFull_eq_ok_iff.mp h
      unfold Mat.reshape? at hshape
      split at hshape
      · ext i j
        rw [← Option.some.inj hshape, Mat.toMatrix_apply, Mat.ofFn_apply]
        exact hform _ _
      · cases hshape

omit [IsStrictOrderedRing K] [SmallestEigenvalue K] in
theorem toMatrix_restingAt (p : Point K) :
    (State.restingAt p).toColumn.toMatrix = !![p.x; p.y; 0; 0] := by
  ext i j
  fin_cases i <;> fin_cases j <;> simp [State.toColumn, State.restingAt, Mat.column]

/-- Without process noise a filter that takes in `n` readings step by step succeeds each
time, and its state is the weighted least-squares fit of a motion at constant velocity to
the first guess and the readings, at the time of the last one. -/
theorem belief_eq_fit {config : FilterConfig K} {f : Filter K} (hf : create config = .ok f)
    (hQ : config.processNoise.IsZero) (hP : Definite f.covariance.toMatrix)
    (hR : Definite f.model.measurementNoise.toMatrix) (z : ℕ → Point K) (n : ℕ) :
    let F := (Motion.transition config.timestep).toMatrix
    let p : FitProblem (Fin 4) (Fin 2) K := {
      transition := F
      observation := Motion.observation.toMatrix
      start := !![config.initialPosition.x; config.initialPosition.y; 0; 0]
      uncertainty := f.covariance.toMatrix
      noise := f.model.measurementNoise.toMatrix
      reading := fun k => (z k).toColumn.toMatrix }
    (∀ answer ∈ f.outcomes (stepsThrough z n), ∃ estimate, answer = some (.ok estimate)) ∧
      IsUnit (p.information n).det ∧
      (f.after (stepsThrough z n)).covariance.toMatrix = F ^ n * (p.information n)⁻¹ * (F ^ n)ᵀ ∧
      (f.after (stepsThrough z n)).mean.toMatrix
        = F ^ n * (p.information n)⁻¹ * p.evidence n ∧
      ∀ s, s ≠ p.fit n → p.misfit n (p.fit n) < p.misfit n s := by
  intro F p
  obtain ⟨hproblem, hnoise⟩ :
      f.fitProblem z = p ∧ f.model.processNoise.toMatrix = 0 := by
    obtain ⟨covariances, hres, rfl⟩ := create_eq_ok_iff.mp hf
    obtain ⟨-, -, -, -, hprocess⟩ := FilterConfig.resolve_eq_ok_iff.mp hres
    refine ⟨?_, toMatrix_eq_zero_of_isZero hQ hprocess⟩
    simp only [p, ← toMatrix_restingAt]
    rfl
  obtain ⟨hanswers, hcarries⟩ := carries_after hnoise hP hR z n
  have hF : f.model.transition.toMatrix = F := congrArg FitProblem.transition hproblem
  rw [hproblem, hF] at hcarries
  refine ⟨hanswers, (FitProblem.definite_information hP hR n).isUnit_det, hcarries.covariance,
    ?_, fun s hs => FitProblem.misfit_fit_lt hP hR hs⟩
  rw [hcarries.mean, Matrix.mul_assoc]

/-! ## Three readings of a target on a parabola

No motion at constant velocity goes through them, so the fit has to weigh. -/

def steadyConfig : FilterConfig ℚ where
  initialPosition := ⟨1, -1⟩
  initialCovariance := .uniform 2
  measurementNoise := .uniform 3
  processNoise := .full 4 4 0
  timestep := 1
  strict := true

def steadyFilter : Filter ℚ :=
  ofCovariances steadyConfig ⟨Mat.identity.scale 2, Mat.identity.scale 3, 0⟩

def parabola (k : ℕ) : Point ℚ := ⟨k, k * k⟩

def parabolaProblem : FitProblem (Fin 4) (Fin 2) ℚ where
  transition := (Motion.transition 1).toMatrix
  observation := Motion.observation.toMatrix
  start := !![1; -1; 0; 0]
  uncertainty := steadyFilter.covariance.toMatrix
  noise := steadyFilter.model.measurementNoise.toMatrix
  reading k := (parabola k).toColumn.toMatrix

theorem belief_eq_fit_of_parabola :
    letI := leastDiagonal
    create steadyConfig = .ok steadyFilter ∧ Definite steadyFilter.covariance.toMatrix ∧
      Definite steadyFilter.model.measurementNoise.toMatrix ∧
      (∀ answer ∈ steadyFilter.outcomes (stepsThrough parabola 3),
        ∃ estimate, answer = some (.ok estimate)) ∧
      (steadyFilter.after (stepsThrough parabola 3)).mean.toMatrix
        = (Motion.transition 1).toMatrix ^ 3 * (parabolaProblem.information 3)⁻¹
          * parabolaProblem.evidence 3 ∧
      ∀ s, s ≠ parabolaProblem.fit 3 →
        parabolaProblem.misfit 3 (parabolaProblem.fit 3) < parabolaProblem.misfit 3 s := by
  let := leastDiagonal
  have hf : create steadyConfig = .ok steadyFilter := by
    refine create_eq_ok_iff.mpr ⟨_, FilterConfig.resolve_eq_ok_iff.mpr ⟨?_, rfl, rfl, rfl, ?_⟩, rfl⟩
    · decide +kernel
    · decide +kernel
  have hP : Definite steadyFilter.covariance.toMatrix := by
    show Definite (Mat.identity.scale 2).toMatrix
    rw [Mat.toMatrix_scale, Mat.toMatrix_identity]
    exact Definite.one.smul two_pos
  have hR : Definite steadyFilter.model.measurementNoise.toMatrix := by
    show Definite (Mat.identity.scale 3).toMatrix
    rw [Mat.toMatrix_scale, Mat.toMatrix_identity]
    exact Definite.one.smul three_pos
  have hQ : steadyConfig.processNoise.IsZero := fun i j => Mat.zero_apply i j
  obtain ⟨hanswers, -, -, hmean, hbest⟩ := belief_eq_fit hf hQ hP hR parabola 3
  exact ⟨hf, hP, hR, hanswers, hmean, hbest⟩

end Filter

end PlanarKalman
