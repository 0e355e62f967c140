import PlanarKalman.Proofs.Filter.Gain
import PlanarKalman.Proofs.Matrix.Definite

/-!
# When a reading cannot be weighed

An update fails as singular when the innovation covariance has no inverse. What the
filter looks at for that is a determinant; what it means is that some combination of
the coordinates of a reading is known beforehand: the sensor adds no noise to it, and
the belief has no covariance with it (`innovationInverse?_eq_none_iff_certain`). The
reading itself does not come into it. A sensor that is noisy in every direction leaves
no such combination.

A failed update has changed nothing, so each update that follows fails as it did, until
a prediction is made. This part is about the order of calls and holds over any number
system.
-/

namespace PlanarKalman

namespace Filter

open Matrix

/-! ## A failed update fails again -/

section Calls

variable {α : Type} [Scalar α]

theorem attempt_eq_singular_iff {f : Filter α} {z : Point α} :
    (f.attempt z).2 = .error .singularInnovation ↔
      f.admitsUpdate = true ∧ f.innovationInverse? = none := by
  cases hupdate : f.update z with
  | ok next =>
      obtain ⟨-, inverse, hinv, rfl⟩ := update_eq_ok_iff.mp hupdate
      simp [attempt_of_ok hupdate, hinv]
  | error e =>
      rw [attempt_of_error hupdate]
      rcases update_eq_error_iff.mp hupdate with ⟨hrefused, rfl⟩ | ⟨hadmits, hinv, rfl⟩
      · simp [hrefused]
      · simp [hadmits, hinv]

theorem attempt_of_singular {f : Filter α} (hadmits : f.admitsUpdate = true)
    (hinv : f.innovationInverse? = none) (z : Point α) :
    f.attempt z = (f, .error .singularInnovation) :=
  attempt_of_error (update_eq_error_iff.mpr (Or.inr ⟨hadmits, hinv, rfl⟩))

theorem outcomes_updates_of_singular {f : Filter α} (hadmits : f.admitsUpdate = true)
    (hinv : f.innovationInverse? = none) (readings : List (Point α)) :
    f.outcomes (readings.map .update)
      = readings.map fun _ => some (.error .singularInnovation) := by
  induction readings with
  | nil => rfl
  | cons z rest ih =>
      rw [List.map_cons, List.map_cons, outcomes, call, attempt_of_singular hadmits hinv z, ih]

/-- The filter that a singular update or step leaves behind cannot weigh any reading. -/
theorem call_of_singular {f : Filter α} {c : Call α}
    (h : (f.call c).2 = some (.error .singularInnovation)) :
    (f.call c).1.admitsUpdate = true ∧ (f.call c).1.innovationInverse? = none := by
  obtain ⟨g, z, -, hattempt⟩ := exists_attempt h
  obtain ⟨hadmits, hinv⟩ := attempt_eq_singular_iff.mp (congrArg Prod.snd hattempt)
  rw [attempt_of_singular hadmits hinv] at hattempt
  obtain rfl : g = (f.call c).1 := congrArg Prod.fst hattempt
  exact ⟨hadmits, hinv⟩

end Calls

/-! ## What is known beforehand -/

variable {K : Type} [Field K] [LinearOrder K] [IsStrictOrderedRing K]

theorem innovationInverse?_eq_none_iff_certain {f : Filter K} (hf : f.IsSound) :
    f.innovationInverse? = none ↔ ∃ w : Fin 2 → K, w ≠ 0 ∧
      f.model.measurementNoise.toMatrix *ᵥ w = 0 ∧
      (f.covariance.toMatrix * f.model.observation.toMatrixᵀ) *ᵥ w = 0 := by
  rw [innovationInverse?_eq_none_iff, toMatrix_innovationCovariance, add_comm,
    hf.measurementNoise.det_add_eq_zero_iff (hf.belief.congruence _)]
  simp only [hf.belief.congruence_mulVec_eq_zero_iff]

/-- With noise in every direction nothing about a reading is known beforehand. -/
theorem innovationInverse?_ne_none {f : Filter K} (hf : f.IsSound)
    (hR : Definite f.model.measurementNoise.toMatrix) : f.innovationInverse? ≠ none := by
  rw [Ne, innovationInverse?_eq_none_iff]
  exact (definite_innovationCovariance hf.belief hR).isUnit_det.ne_zero

theorem call_ne_singular {f : Filter K} (hf : f.IsSound)
    (hR : Definite f.model.measurementNoise.toMatrix) (c : Call K) :
    (f.call c).2 ≠ some (.error .singularInnovation) := by
  intro h
  obtain ⟨g, z, hg, hattempt⟩ := exists_attempt h
  obtain ⟨-, hinv⟩ := attempt_eq_singular_iff.mp (congrArg Prod.snd hattempt)
  rcases hg with rfl | rfl
  · exact innovationInverse?_ne_none hf hR hinv
  · exact innovationInverse?_ne_none hf.predict hR hinv

theorem outcomes_ne_singular {f : Filter K} (hf : f.IsSound)
    (hR : Definite f.model.measurementNoise.toMatrix) (calls : List (Call K)) :
    ∀ answer ∈ f.outcomes calls, answer ≠ some (.error .singularInnovation) := by
  induction calls using List.reverseRecOn with
  | nil => exact nofun
  | append_singleton rest c ih =>
      rw [outcomes_append_singleton, List.forall_mem_append, List.forall_mem_singleton]
      exact ⟨ih, call_ne_singular (hf.after rest) (model_after f rest ▸ hR) c⟩

variable [SmallestEigenvalue K]

theorem definite_of_uniform {config : FilterConfig K} {f : Filter K} {variance : K}
    (hf : create config = .ok f) (hform : config.measurementNoise = .uniform variance)
    (hvariance : 0 < variance) : Definite f.model.measurementNoise.toMatrix := by
  obtain ⟨covariances, hres, rfl⟩ := create_eq_ok_iff.mp hf
  obtain ⟨-, -, -, hR, -⟩ := FilterConfig.resolve_eq_ok_iff.mp hres
  rw [hform] at hR
  obtain ⟨-, hresolved⟩ := FilterConfig.resolveCovariance_uniform_eq_ok_iff.mp hR
  simp only [ofCovariances, ← hresolved, Mat.toMatrix_scale, Mat.toMatrix_identity]
  exact Definite.one.smul hvariance

/-- In every reachable state, an update that may come now fails as singular exactly when
some combination of the coordinates of a reading has no noise and no covariance with the
belief. With noise in every direction that never happens, and once it has happened it
happens again with every reading until a prediction is made. -/
theorem singular_iff_certain {config : FilterConfig K} {f : Filter K}
    (hf : create config = .ok f) (hsound : f.IsSound) :
    let R := f.model.measurementNoise.toMatrix
    let H := (Motion.observation : Mat 2 4 K).toMatrix
    (∀ calls z, (f.after calls).admitsUpdate = true →
      (((f.after calls).call (.update z)).2 = some (.error .singularInnovation) ↔
        ∃ w : Fin 2 → K, w ≠ 0 ∧ R *ᵥ w = 0 ∧
          ((f.after calls).covariance.toMatrix * Hᵀ) *ᵥ w = 0)) ∧
    (Definite R ∨ (∃ r, config.measurementNoise = .uniform r ∧ 0 < r) →
      ∀ calls, ∀ answer ∈ f.outcomes calls, answer ≠ some (.error .singularInnovation)) ∧
    ∀ calls c, ((f.after calls).call c).2 = some (.error .singularInnovation) →
      ∀ readings : List (Point K), ((f.after calls).call c).1.outcomes (readings.map .update)
        = readings.map fun _ => some (.error .singularInnovation) := by
  intro R H
  refine ⟨fun calls z hadmits => ?_, fun hR => ?_, fun calls c h readings => ?_⟩
  · have hcertain := innovationInverse?_eq_none_iff_certain (hsound.after calls)
    rw [observation_after_create hf, model_after] at hcertain
    rw [← hcertain, call, Option.some.injEq, attempt_eq_singular_iff, and_iff_right hadmits]
  · have hdefinite : Definite R := by
      rcases hR with hR | ⟨r, hform, hr⟩
      · exact hR
      · exact definite_of_uniform hf hform hr
    exact outcomes_ne_singular hsound hdefinite
  · obtain ⟨hadmits, hinv⟩ := call_of_singular h
    exact outcomes_updates_of_singular hadmits hinv readings

/-! ## A sensor with one exact axis

The start is certain and the first coordinate of a reading is exact, so it is known
beforehand until the first prediction. -/

def halfExactConfig : FilterConfig ℚ where
  initialPosition := ⟨1, 2⟩
  initialCovariance := .uniform 0
  measurementNoise := .full 2 2 (Mat.ofFn fun i j => if i.val = 1 ∧ j.val = 1 then 4 else 0)
  processNoise := .acceleration 1
  timestep := 1
  strict := false

def halfExactFilter : Filter ℚ :=
  ofCovariances halfExactConfig ⟨Mat.identity.scale 0,
    Mat.ofFn fun i j => if i.val = 1 ∧ j.val = 1 then 4 else 0, Motion.accelerationNoise 1 1⟩

/-- The covariance of the sensor is the square of this. -/
def halfExactNoise : Matrix (Fin 2) (Fin 1) ℚ := !![0; 2]

theorem singular_iff_certain_of_halfExact :
    letI := leastDiagonal
    create halfExactConfig = .ok halfExactFilter ∧ halfExactFilter.IsSound ∧
      (∀ z, (halfExactFilter.call (.update z)).2 = some (.error .singularInnovation)) ∧
      (∀ z z', (halfExactFilter.call (.update z)).1.outcomes [.update z', .update z]
        = [some (.error .singularInnovation), some (.error .singularInnovation)]) ∧
      ∀ z, ((halfExactFilter.after [.predict]).call (.update z)).2
        ≠ some (.error .singularInnovation) := by
  let := leastDiagonal
  have hf : create halfExactConfig = .ok halfExactFilter := by
    refine create_eq_ok_iff.mpr ⟨_, FilterConfig.resolve_eq_ok_iff.mpr ⟨?_, rfl, rfl, ?_, rfl⟩, rfl⟩
    · decide +kernel
    · decide +kernel
  have hsquare : halfExactFilter.model.measurementNoise.toMatrix
      = halfExactNoise * halfExactNoiseᵀ := by decide +kernel
  have hsound : halfExactFilter.IsSound :=
    ⟨semidefinite_covariance_of_create hf rfl, semidefinite_processNoise_of_create hf rfl,
      by rw [hsquare]; exact Semidefinite.mul_transpose _⟩
  obtain ⟨hcertain, -, hagain⟩ := singular_iff_certain hf hsound
  have hfirst : ∀ z, (halfExactFilter.call (.update z)).2
      = some (.error .singularInnovation) := by
    intro z
    exact (hcertain [] z rfl).mpr ⟨![1, 0], by decide +kernel, by decide +kernel, by decide +kernel⟩
  refine ⟨hf, hsound, hfirst, fun z z' => hagain [] (.update z) (hfirst z) [z', z], fun z h => ?_⟩
  obtain ⟨w, hw, hR, hP⟩ := (hcertain [.predict] z rfl).mp h
  have hx : ![1 / 4, 0] ⬝ᵥ w = 0 := by
    refine Eq.trans ?_ (congrFun hP 0)
    exact congrArg (· ⬝ᵥ w) (by decide +kernel)
  have hy : ![0, 4] ⬝ᵥ w = 0 := by
    refine Eq.trans ?_ (congrFun hR 1)
    exact congrArg (· ⬝ᵥ w) (by decide +kernel)
  simp only [dotProduct, Fin.sum_univ_two] at hx hy
  exact hw (funext (Fin.forall_fin_two.mpr ⟨by simpa using hx, by simpa using hy⟩))

end Filter

end PlanarKalman
