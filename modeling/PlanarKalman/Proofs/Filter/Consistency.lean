import PlanarKalman.Proofs.Filter.Covariance

/-!
# How far a filter is from a target it reads exactly

A target moves at constant velocity, and every reading is its position at that
moment. The filter does not know this; it weighs each reading as if sensor and
motion were as noisy as it was told. Still its covariance bounds its error `e`: if
`V P - e eᵀ` is a covariance at first, it is one in every reachable state
(`error_covered`). Noise the filter allows for only adds to the bound, because the
error is multiplied by the matrix that the covariance is seen through: `F` in a
prediction, `1 - K H` in a correction.
-/

namespace PlanarKalman

open Matrix

/-! ## A target and exact readings -/

section Target

variable {α : Type} [Scalar α]

/-- What an exact sensor says of a target: its position. -/
def observed (target : Column 4 α) : Column 2 α :=
  (Motion.observation : Mat 2 4 α) * target

/-- Where an undisturbed target is after a call. A prediction lets a time step pass. -/
def Call.carry (dt : α) (target : Column 4 α) : Call α → Column 4 α
  | .predict => Motion.transition dt * target
  | .update _ => target
  | .step _ => Motion.transition dt * target

def Call.reading? : Call α → Option (Point α)
  | .predict => none
  | .update z => some z
  | .step z => some z

def targetAfter (dt : α) (target : Column 4 α) (calls : List (Call α)) : Column 4 α :=
  calls.foldl (Call.carry dt) target

/-- Every reading is the position of the target when it is taken; a step takes it after
its prediction. -/
def ReadsExactly (dt : α) : Column 4 α → List (Call α) → Prop
  | _, [] => True
  | target, c :: rest =>
    (∀ z ∈ c.reading?, z.toColumn = observed (c.carry dt target)) ∧
      ReadsExactly dt (c.carry dt target) rest

instance ReadsExactly.decidable [DecidableEq α] (dt : α) :
    (target : Column 4 α) → (calls : List (Call α)) → Decidable (ReadsExactly dt target calls)
  | _, [] => isTrue trivial
  | target, c :: rest =>
    have := decidable dt (c.carry dt target) rest
    inferInstanceAs (Decidable (_ ∧ _))

/-- How far the filter takes the target to be from where it is. -/
def Filter.error (f : Filter α) (target : Column 4 α) : Column 4 α := f.mean - target

end Target

/-! ## Errors under a covariance -/

section Bound

variable {ι κ τ K : Type} [Fintype ι] [Fintype κ] [Fintype τ] [Field K] [LinearOrder K]

/-- An error that is covered by a covariance is covered after both have been seen
through the same linear map, also when the covariance gets more on top. -/
theorem Semidefinite.smul_congruence_sub [IsStrictOrderedRing K] {V : K} {A : Matrix ι ι K}
    {e : Matrix ι τ K} {B : Matrix κ κ K} (hA : Semidefinite (V • A - e * eᵀ))
    (hB : Semidefinite B) (hV : 0 ≤ V) (M : Matrix κ ι K) :
    Semidefinite (V • (M * A * Mᵀ + B) - (M * e) * (M * e)ᵀ) := by
  have hsplit : V • (M * A * Mᵀ + B) - (M * e) * (M * e)ᵀ
      = M * (V • A - e * eᵀ) * Mᵀ + V • B := by
    rw [transpose_mul, smul_add, mul_sub_mul_transpose, Matrix.mul_smul, Matrix.smul_mul]
    simp only [Matrix.mul_assoc]
    abel
  rw [hsplit]
  exact (hA.congruence M).add (hB.smul hV)

end Bound

namespace Filter

variable {K : Type} [Field K] [LinearOrder K]

@[simp] theorem toMatrix_error (f : Filter K) (target : Column 4 K) :
    (f.error target).toMatrix = f.mean.toMatrix - target.toMatrix := by
  simp [error]

variable [IsStrictOrderedRing K]

/-- The covariance of the filter, `V` times, covers its error. -/
structure Covers (dt V : K) (f : Filter K) (target : Column 4 K) : Prop where
  isSound : f.IsSound
  transition_eq : f.model.transition = Motion.transition dt
  observation_eq : f.model.observation = Motion.observation
  error : Semidefinite (V • f.covariance.toMatrix
    - (f.error target).toMatrix * (f.error target).toMatrixᵀ)

namespace Covers

variable {dt V : K} {f : Filter K} {target : Column 4 K}

theorem predict (h : Covers dt V f target) (hV : 0 ≤ V) :
    Covers dt V f.predict (Motion.transition dt * target) := by
  refine ⟨h.isSound.predict, h.transition_eq, h.observation_eq, ?_⟩
  have herror : (f.predict.error (Motion.transition dt * target)).toMatrix
      = f.model.transition.toMatrix * (f.error target).toMatrix := by
    rw [toMatrix_error, toMatrix_predict_mean, Mat.toMatrix_mul, ← h.transition_eq,
      toMatrix_error, Matrix.mul_sub]
  rw [herror, toMatrix_predict_covariance]
  exact h.error.smul_congruence_sub h.isSound.processNoise hV _

/-- A correction with an exact reading. What is left of the error is what the gain does
not see of it. -/
theorem correct (h : Covers dt V f target) (hV : 0 ≤ V) {z : Point K}
    (hz : z.toColumn = observed target) (inverse : Mat 2 2 K) :
    Covers dt V (f.correct z inverse) target := by
  refine ⟨h.isSound.correct z inverse, h.transition_eq, h.observation_eq, ?_⟩
  have herror : ((f.correct z inverse).error target).toMatrix
      = (1 - (f.gain inverse).toMatrix * f.model.observation.toMatrix)
          * (f.error target).toMatrix := by
    rw [toMatrix_error, toMatrix_correct_mean, hz, observed, Mat.toMatrix_mul, ← h.observation_eq,
      toMatrix_error]
    simp only [Matrix.sub_mul, Matrix.mul_sub, Matrix.one_mul, Matrix.mul_assoc]
    abel
  rw [herror, correct_covariance h.isSound.belief h.isSound.measurementNoise,
    toMatrix_posterior]
  exact h.error.smul_congruence_sub (h.isSound.measurementNoise.congruence _) hV _

theorem attempt (h : Covers dt V f target) (hV : 0 ≤ V) {z : Point K}
    (hz : z.toColumn = observed target) :
    Covers dt V (f.attempt z).1 target := by
  rcases f.attempt_cases z with ⟨inverse, -, heq⟩ | ⟨e, heq⟩
  · rw [heq]
    exact h.correct hV hz inverse
  · rw [heq]
    exact h

theorem call (h : Covers dt V f target) (hV : 0 ≤ V) {c : Call K}
    (hc : ∀ z ∈ c.reading?, z.toColumn = observed (c.carry dt target)) :
    Covers dt V (f.call c).1 (c.carry dt target) := by
  -- the target goes along, and shows the reading that it has to be compared with
  exact call_lift (fun target c => (c.carry dt target, c.reading?)) (fun _ _ => rfl)
    (S := fun p q => (∀ z ∈ q.2, z.toColumn = observed q.1) → Covers dt V p.1 q.1)
    (fun _ _ hs => ⟨hs.predict hV, fun _ => hs.predict hV⟩)
    (fun _ _ z hs hz => hs.attempt hV (hz z rfl)) h c hc

theorem after (h : Covers dt V f target) (hV : 0 ≤ V) {calls : List (Call K)}
    (hcalls : ReadsExactly dt target calls) :
    Covers dt V (f.after calls) (targetAfter dt target calls) := by
  induction calls generalizing f target with
  | nil => exact h
  | cons c rest ih =>
      -- the target moves on with the filter, so both are other ones for the rest
      obtain ⟨hc, hrest⟩ := hcalls
      exact ih (h.call hV hc) hrest

theorem component_sq_le (h : Covers dt V f target) (i : Fin 4) :
    (f.error target).component i ^ 2 ≤ V * f.covariance i i := by
  have hdiagonal := h.error.diagonal_nonneg i
  rw [Matrix.sub_apply, Matrix.smul_apply, Matrix.mul_apply, Fin.sum_univ_one,
    smul_eq_mul] at hdiagonal
  rw [sq]
  exact sub_nonneg.mp hdiagonal

end Covers

variable [SmallestEigenvalue K]

/-- The squared error of a filter that reads a target exactly is at most `V` times its
covariance in every reachable state, if it is at first. -/
theorem error_covered {config : FilterConfig K} {f : Filter K} (hf : create config = .ok f)
    (hsound : f.IsSound) {V : K} (hV : 0 ≤ V) {target : Column 4 K}
    (hstart : Semidefinite (V • f.covariance.toMatrix
      - (f.error target).toMatrix * (f.error target).toMatrixᵀ))
    {calls : List (Call K)} (hcalls : ReadsExactly config.timestep target calls) :
    let e := (f.after calls).error (targetAfter config.timestep target calls)
    Semidefinite (V • (f.after calls).covariance.toMatrix - e.toMatrix * e.toMatrixᵀ) ∧
      ∀ i, e.component i ^ 2 ≤ V * (f.after calls).covariance i i := by
  intro e
  obtain ⟨htransition, hobservation⟩ : f.model.transition = Motion.transition config.timestep ∧
      f.model.observation = Motion.observation := by
    obtain ⟨covariances, -, rfl⟩ := create_eq_ok_iff.mp hf
    exact ⟨rfl, rfl⟩
  have hafter := Covers.after ⟨hsound, htransition, hobservation, hstart⟩ hV hcalls
  exact ⟨hafter.error, hafter.component_sq_le⟩

/-! ## A filter that finds its target

Sensor and motion have no variance, so two exact readings settle everything. The
initial covariance covers the error in the velocity, and just so. -/

def exactConfig : FilterConfig ℚ where
  initialPosition := ⟨1, 2⟩
  initialCovariance := .uniform 25
  measurementNoise := .uniform 0
  processNoise := .acceleration 0
  timestep := 1
  strict := true

def exactFilter : Filter ℚ :=
  ofCovariances exactConfig
    ⟨Mat.identity.scale 25, Mat.identity.scale 0, Motion.accelerationNoise 1 0⟩

def exactTarget : Column 4 ℚ := State.toColumn ⟨1, 2, 3, 4⟩

/-- Two updates are turned away, and the last step has nothing left to weigh. -/
def exactCalls : List (Call ℚ) :=
  [.update ⟨1, 2⟩, .step ⟨4, 6⟩, .predict, .update ⟨7, 10⟩, .update ⟨7, 10⟩, .step ⟨10, 14⟩]

/-- What the initial covariance leaves above the error is the square of this. -/
def exactMargin : Matrix (Fin 4) (Fin 3) ℚ := !![5, 0, 0; 0, 5, 0; 0, 0, 4; 0, 0, -3]

theorem covers_exactTarget :
    Semidefinite ((1 : ℚ) • exactFilter.covariance.toMatrix
      - (exactFilter.error exactTarget).toMatrix * (exactFilter.error exactTarget).toMatrixᵀ) := by
  have hsquare : (1 : ℚ) • exactFilter.covariance.toMatrix
      - (exactFilter.error exactTarget).toMatrix * (exactFilter.error exactTarget).toMatrixᵀ
      = exactMargin * exactMarginᵀ := by decide +kernel
  rw [hsquare]
  exact Semidefinite.mul_transpose _

theorem error_covered_of_exact :
    letI := leastDiagonal
    create exactConfig = .ok exactFilter ∧ ReadsExactly 1 exactTarget exactCalls ∧
      (exactFilter.outcomes exactCalls).getLast? = some (some (.error .singularInnovation)) ∧
      ∀ i, ((exactFilter.after exactCalls).error
        (targetAfter 1 exactTarget exactCalls)).component i ^ 2 ≤ 0 := by
  let := leastDiagonal
  have hf : create exactConfig = .ok exactFilter := rfl
  have hsound : exactFilter.IsSound := isSound_of_create hf rfl rfl rfl
  have hcalls : ReadsExactly exactConfig.timestep exactTarget exactCalls := by decide +kernel
  obtain ⟨-, hcomponent⟩ := error_covered hf hsound zero_le_one covers_exactTarget hcalls
  have hcertain : ∀ i, (exactFilter.after exactCalls).covariance i i = 0 := by decide +kernel
  refine ⟨hf, hcalls, by decide +kernel, fun i => ?_⟩
  have h := hcomponent i
  rwa [hcertain, mul_zero] at h

end Filter

end PlanarKalman
