import PlanarKalman.Proofs.Motion
import PlanarKalman.Proofs.Filter.Exact
import PlanarKalman.Proofs.Filter.Creation
import PlanarKalman.Proofs.Filter.Runs

/-!
# The covariance is always a covariance

In exact arithmetic the belief of a filter never stops being one: whatever calls
are made, its covariance is symmetric and positive semi-definite. One prediction
and one correction keep it so; a failing call keeps the filter, or is a
prediction. What a filter starts from is a covariance because it was given as
one, or because it was given as a single number that was found not to be
negative.
-/

namespace PlanarKalman

namespace Filter

variable {K : Type} [Field K] [LinearOrder K] [IsStrictOrderedRing K]

/-- The three covariances of a filter are covariances: that of its belief and
those of its model. -/
structure IsSound (f : Filter K) : Prop where
  belief : Semidefinite f.covariance.toMatrix
  processNoise : Semidefinite f.model.processNoise.toMatrix
  measurementNoise : Semidefinite f.model.measurementNoise.toMatrix

namespace IsSound

theorem predict {f : Filter K} (h : f.IsSound) : f.predict.IsSound :=
  ⟨semidefinite_predict h.belief h.processNoise, h.processNoise, h.measurementNoise⟩

theorem correct {f : Filter K} (h : f.IsSound) (z : Point K) (inverse : Mat 2 2 K) :
    (f.correct z inverse).IsSound := by
  refine ⟨?_, h.processNoise, h.measurementNoise⟩
  rw [correct_covariance h.belief h.measurementNoise]
  exact semidefinite_posterior h.belief h.measurementNoise _

theorem after {f : Filter K} (h : f.IsSound) (calls : List (Call K)) :
    (f.after calls).IsSound :=
  after_induction (fun _ hg => hg.predict) (fun _ z inverse _ hg => hg.correct z inverse)
    h calls

end IsSound

/-! ## Where it starts

The three parameters one by one: a single number that validation let through stands
for a covariance. -/

variable [SmallestEigenvalue K]

theorem semidefinite_of_uniform {parameter : CovarianceParameter} {size : ℕ} {variance : K}
    {A : Mat size size K}
    (h : FilterConfig.resolveCovariance parameter size (.uniform variance) = .ok A) :
    Semidefinite A.toMatrix := by
  obtain ⟨hvar, rfl⟩ := FilterConfig.resolveCovariance_uniform_eq_ok_iff.mp h
  rw [Mat.toMatrix_scale, Mat.toMatrix_identity]
  exact Semidefinite.one.smul (isNonNegative_iff.mp hvar)

theorem semidefinite_of_acceleration {dt variance : K} {A : Mat 4 4 K}
    (h : FilterConfig.resolveProcessNoise dt (.acceleration variance) = .ok A) :
    Semidefinite A.toMatrix := by
  obtain ⟨hvar, rfl⟩ := FilterConfig.resolveProcessNoise_acceleration_eq_ok_iff.mp h
  exact Motion.semidefinite_accelerationNoise dt (isNonNegative_iff.mp hvar)

section Created

variable {config : FilterConfig K} {f : Filter K} {variance : K}

theorem semidefinite_covariance_of_create (hf : create config = .ok f)
    (hform : config.initialCovariance = .uniform variance) :
    Semidefinite f.covariance.toMatrix := by
  obtain ⟨covariances, hres, rfl⟩ := create_eq_ok_iff.mp hf
  obtain ⟨-, -, hP, -, -⟩ := FilterConfig.resolve_eq_ok_iff.mp hres
  rw [hform] at hP
  exact semidefinite_of_uniform hP

theorem semidefinite_measurementNoise_of_create (hf : create config = .ok f)
    (hform : config.measurementNoise = .uniform variance) :
    Semidefinite f.model.measurementNoise.toMatrix := by
  obtain ⟨covariances, hres, rfl⟩ := create_eq_ok_iff.mp hf
  obtain ⟨-, -, -, hR, -⟩ := FilterConfig.resolve_eq_ok_iff.mp hres
  rw [hform] at hR
  exact semidefinite_of_uniform hR

theorem semidefinite_processNoise_of_create (hf : create config = .ok f)
    (hform : config.processNoise = .acceleration variance) :
    Semidefinite f.model.processNoise.toMatrix := by
  obtain ⟨covariances, hres, rfl⟩ := create_eq_ok_iff.mp hf
  obtain ⟨-, -, -, -, hQ⟩ := FilterConfig.resolve_eq_ok_iff.mp hres
  rw [hform] at hQ
  exact semidefinite_of_acceleration hQ

/-- A filter with a single number for each parameter has covariances only. -/
theorem isSound_of_create {measurement process : K} (hf : create config = .ok f)
    (hinitial : config.initialCovariance = .uniform variance)
    (hmeasurement : config.measurementNoise = .uniform measurement)
    (hprocess : config.processNoise = .acceleration process) : f.IsSound :=
  ⟨semidefinite_covariance_of_create hf hinitial, semidefinite_processNoise_of_create hf hprocess,
    semidefinite_measurementNoise_of_create hf hmeasurement⟩

/-- A filter that starts from covariances has a covariance in every reachable
state. A parameter that was given as a single number is one already. -/
theorem covariance_semidefinite (hf : create config = .ok f) :
    (∀ variance, config.initialCovariance = .uniform variance →
      Semidefinite f.covariance.toMatrix) ∧
    (∀ variance, config.measurementNoise = .uniform variance →
      Semidefinite f.model.measurementNoise.toMatrix) ∧
    (∀ variance, config.processNoise = .acceleration variance →
      Semidefinite f.model.processNoise.toMatrix) ∧
    (Semidefinite f.covariance.toMatrix → Semidefinite f.model.processNoise.toMatrix →
      Semidefinite f.model.measurementNoise.toMatrix → ∀ calls,
        Semidefinite (f.after calls).covariance.toMatrix ∧
        ∀ i, 0 ≤ (f.after calls).covariance i i) := by
  refine ⟨fun _ hform => semidefinite_covariance_of_create hf hform,
    fun _ hform => semidefinite_measurementNoise_of_create hf hform,
    fun _ hform => semidefinite_processNoise_of_create hf hform,
    fun hbelief hprocess hmeasurement calls => ?_⟩
  have hsound := IsSound.after ⟨hbelief, hprocess, hmeasurement⟩ calls
  exact ⟨hsound.belief, fun i => hsound.belief.diagonal_nonneg i⟩

end Created

/-! ## A filter that is certain at first

Neither the start nor the sensor has any variance, so the first update fails;
the acceleration makes later ones possible. -/

/-- The least diagonal entry, which is the smallest eigenvalue of a diagonal
matrix. -/
@[reducible] def leastDiagonal : SmallestEigenvalue ℚ where
  smallestEigenvalue A :=
    match A.diagonal with
    | [] => 0
    | a :: rest => rest.foldl min a

def certainConfig : FilterConfig ℚ where
  initialPosition := ⟨1, 2⟩
  initialCovariance := .uniform 0
  measurementNoise := .uniform 0
  processNoise := .acceleration 1
  timestep := 1
  strict := false

def certainFilter : Filter ℚ :=
  ofCovariances certainConfig
    ⟨Mat.identity.scale 0, Mat.identity.scale 0, Motion.accelerationNoise 1 1⟩

theorem covariance_semidefinite_of_certain :
    letI := leastDiagonal
    create certainConfig = .ok certainFilter ∧
      (certainFilter.attempt ⟨1, 1⟩).2 = .error .singularInnovation ∧
      Semidefinite certainFilter.covariance.toMatrix ∧
      Semidefinite certainFilter.model.processNoise.toMatrix ∧
      Semidefinite certainFilter.model.measurementNoise.toMatrix ∧
      Semidefinite (certainFilter.after
        [.update ⟨1, 1⟩, .step ⟨3, -1⟩, .predict, .update ⟨0, 5⟩]).covariance.toMatrix := by
  let := leastDiagonal
  have hf : create certainConfig = .ok certainFilter := rfl
  obtain ⟨hbelief, hmeasurement, hprocess, hrun⟩ := covariance_semidefinite hf
  have hP := hbelief 0 rfl
  have hR := hmeasurement 0 rfl
  have hQ := hprocess 1 rfl
  exact ⟨hf, by decide +kernel, hP, hQ, hR, (hrun hP hQ hR _).1⟩

end Filter

end PlanarKalman
