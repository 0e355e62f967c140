import PlanarKalman.Proofs.Filter.Coasting
import PlanarKalman.Proofs.Filter.Singular

/-!
# A sensor without noise

The gain of a filter whose sensor has no noise puts the target where the reading says
(`observation_mul_gain`), whatever the filter believed. The position is certain then, and has
no covariance with anything; all that is left to be known is the velocity (`Located`).

Without process noise the next reading says that as well. After a time step the covariance is
that of the velocity, seen through a map `A` that puts a velocity to where it leads, and the
sensor sees `dt` times the velocity of it. That can be undone, so the gain is `A / dt`: the
reading tells how far the target has come in one time step. Nothing is uncertain after that,
and a filter to which nothing is uncertain cannot weigh a reading any more. Each step that
follows fails, but its prediction has been made, so the filter keeps up with a target at
constant velocity.
-/

namespace PlanarKalman

open Matrix Motion

variable {K : Type} [Field K] [LinearOrder K]

/-! ## What an exact reading settles -/

namespace Filter

variable {f : Filter K} {inverse : Mat 2 2 K}

theorem observation_mul_gain (hR : f.model.measurementNoise.toMatrix = 0)
    (hinv : f.innovationInverse? = some inverse) :
    f.model.observation.toMatrix * (f.gain inverse).toMatrix = 1 := by
  obtain ⟨hdet, hinverse⟩ := innovationInverse?_eq_some_iff.mp hinv
  have hS : f.innovationCovariance.toMatrix
      = f.model.observation.toMatrix * f.covariance.toMatrix * f.model.observation.toMatrixᵀ := by
    rw [toMatrix_innovationCovariance, hR, add_zero]
  rw [toMatrix_gain, hinverse, ← Matrix.mul_assoc, ← Matrix.mul_assoc, ← hS,
    mul_nonsing_inv _ (isUnit_iff_ne_zero.mpr hdet)]

theorem observation_mul_rest (hR : f.model.measurementNoise.toMatrix = 0)
    (hinv : f.innovationInverse? = some inverse) :
    f.model.observation.toMatrix
      * (1 - (f.gain inverse).toMatrix * f.model.observation.toMatrix) = 0 := by
  rw [Matrix.mul_sub, Matrix.mul_one, ← Matrix.mul_assoc, observation_mul_gain hR hinv,
    Matrix.one_mul, sub_self]

theorem toMatrix_posterior_of_exact (hR : f.model.measurementNoise.toMatrix = 0)
    (L : Mat 4 2 K) :
    (f.posterior L).toMatrix
      = (1 - L.toMatrix * f.model.observation.toMatrix) * f.covariance.toMatrix
          * (1 - L.toMatrix * f.model.observation.toMatrix)ᵀ := by
  rw [toMatrix_posterior, hR, Matrix.mul_zero, Matrix.zero_mul, add_zero]

theorem observation_mul_correct_mean (hR : f.model.measurementNoise.toMatrix = 0)
    (hinv : f.innovationInverse? = some inverse) (z : Point K) :
    f.model.observation.toMatrix * (f.correct z inverse).mean.toMatrix = z.toColumn.toMatrix := by
  rw [toMatrix_correct_mean, Matrix.mul_add, ← Matrix.mul_assoc, observation_mul_gain hR hinv,
    Matrix.one_mul, add_sub_cancel]

variable [IsStrictOrderedRing K]

/-- The position has no covariance with anything. It does not matter whether the covariance
was symmetric before. -/
theorem observation_mul_correct_covariance (hR : f.model.measurementNoise.toMatrix = 0)
    (hinv : f.innovationInverse? = some inverse) (z : Point K) :
    f.model.observation.toMatrix * (f.correct z inverse).covariance.toMatrix = 0 := by
  have hrest := observation_mul_rest hR hinv
  have hrow : f.model.observation.toMatrix * (f.posterior (f.gain inverse)).toMatrix = 0 := by
    rw [toMatrix_posterior_of_exact hR, ← Matrix.mul_assoc, ← Matrix.mul_assoc, hrest,
      Matrix.zero_mul, Matrix.zero_mul]
  have hcolumn : f.model.observation.toMatrix * (f.posterior (f.gain inverse)).toMatrixᵀ = 0 := by
    rw [toMatrix_posterior_of_exact hR, transpose_mul, transpose_mul, transpose_transpose,
      ← Matrix.mul_assoc, hrest, Matrix.zero_mul]
  show f.model.observation.toMatrix * (f.posterior (f.gain inverse)).symmetricPart.toMatrix = 0
  rw [Mat.toMatrix_symmetricPart, Matrix.mul_smul, Matrix.mul_add, hrow, hcolumn, add_zero,
    smul_zero]

theorem isSymm_correct_covariance (f : Filter K) (z : Point K) (inverse : Mat 2 2 K) :
    (f.correct z inverse).covariance.toMatrix.IsSymm := by
  show (f.posterior (f.gain inverse)).symmetricPart.toMatrix.IsSymm
  rw [Mat.toMatrix_symmetricPart]
  exact (isSymm_add_transpose_self _).smul _

end Filter

/-! ## A target that is somewhere for certain -/

/-- The target is at `z` for certain and its velocity is `v`, with covariance `V`. -/
structure Filter.Located (z v : Matrix (Fin 2) (Fin 1) K) (V : Matrix (Fin 2) (Fin 2) K)
    (f : Filter K) : Prop where
  mean : f.mean.toMatrix = (placement : Matrix _ _ K) * z + (departure : Matrix _ _ K) * v
  covariance : f.covariance.toMatrix = (departure : Matrix _ _ K) * V * (departure : Matrix _ _ K)ᵀ

/-- Neither the sensor nor the motion has any noise. -/
structure FilterModel.IsExact (dt : K) (model : FilterModel K) : Prop where
  transition : model.transition = Motion.transition dt
  observation : model.observation = Motion.observation
  processNoise : model.processNoise.toMatrix = 0
  measurementNoise : model.measurementNoise.toMatrix = 0

/-- Where a velocity leads to in a time step. -/
def Motion.drift (dt : K) : Matrix (Fin 4) (Fin 2) K := departure + dt • placement

theorem Motion.observation_mul_drift (dt : K) :
    (observation : Mat 2 4 K).toMatrix * drift dt = dt • 1 := by
  rw [drift, Matrix.mul_add, observation_mul_departure, zero_add, Matrix.mul_smul,
    observation_mul_placement]

namespace Filter

variable {f : Filter K} {inverse : Mat 2 2 K} {dt : K} {z v : Matrix (Fin 2) (Fin 1) K}
  {V : Matrix (Fin 2) (Fin 2) K}

namespace Located

theorem state_eq (h : Located z v V f) : f.state = ⟨z 0 0, z 1 0, v 0 0, v 1 0⟩ := by
  have hentry : ∀ i, f.mean i 0
      = ((placement : Matrix _ _ K) * z + (departure : Matrix _ _ K) * v) i 0 :=
    fun i => congrFun (congrFun h.mean i) 0
  simp only [Matrix.add_apply, Matrix.mul_apply, Fin.sum_univ_two] at hentry
  simp only [state, State.ofColumn, Mat.component]
  refine State.mk.injEq .. |>.mpr ⟨?_, ?_, ?_, ?_⟩ <;> refine (hentry _).trans ?_ <;>
    simp [placement, departure]

theorem state_after_predictions (h : Located z v V f) (hmodel : f.model.IsExact dt) (k : ℕ) :
    (f.after (List.replicate k .predict)).state
      = ⟨z 0 0 + k * dt * v 0 0, z 1 0 + k * dt * v 1 0, v 0 0, v 1 0⟩ := by
  have hstate := h.state_eq
  rw [state] at hstate
  rw [state, mean_after_predictions hmodel.transition, ofColumn_transition_mul, hstate]

/-- A time step moves the target on, and how far it comes depends on its velocity. -/
theorem predict_mean (h : Located z v V f) (hmodel : f.model.IsExact dt) :
    f.predict.mean.toMatrix = (placement : Matrix _ _ K) * z + drift dt * v := by
  rw [toMatrix_predict_mean, hmodel.transition, h.mean, Matrix.mul_add, ← Matrix.mul_assoc,
    ← Matrix.mul_assoc, transition_mul_placement, transition_mul_departure]
  rfl

theorem predict_covariance (h : Located z v V f) (hmodel : f.model.IsExact dt) :
    f.predict.covariance.toMatrix = drift dt * V * (drift dt)ᵀ := by
  rw [toMatrix_predict_covariance, hmodel.processNoise, add_zero, hmodel.transition, h.covariance,
    drift, ← transition_mul_departure, transpose_mul]
  simp only [Matrix.mul_assoc]

theorem predict_innovationCovariance (h : Located z v V f) (hmodel : f.model.IsExact dt) :
    f.predict.innovationCovariance.toMatrix = dt ^ 2 • V := by
  have hpredict : f.predict.model = f.model := rfl
  rw [toMatrix_innovationCovariance, h.predict_covariance hmodel, hpredict,
    hmodel.measurementNoise, add_zero, hmodel.observation]
  calc (observation : Mat 2 4 K).toMatrix * (drift dt * V * (drift dt)ᵀ)
          * (observation : Mat 2 4 K).toMatrixᵀ
      = (observation : Mat 2 4 K).toMatrix * drift dt * V
          * ((observation : Mat 2 4 K).toMatrix * drift dt)ᵀ := by
        rw [transpose_mul]
        simp only [Matrix.mul_assoc]
    _ = dt ^ 2 • V := by
        rw [observation_mul_drift, transpose_smul, transpose_one, Matrix.smul_mul, Matrix.mul_smul,
          Matrix.one_mul, Matrix.mul_one, smul_smul, sq]

/-- The distance covered in a time step is divided by the time step. -/
theorem predict_gain (h : Located z v V f) (hmodel : f.model.IsExact dt) (hdt : dt ≠ 0)
    (hV : IsUnit V.det) (hinv : f.predict.innovationInverse? = some inverse) :
    (f.predict.gain inverse).toMatrix = dt⁻¹ • drift dt := by
  have hsolves := gain_mul_innovationCovariance hinv
  have hview : (drift dt : Matrix _ _ K)ᵀ * (observation : Mat 2 4 K).toMatrixᵀ = dt • 1 := by
    rw [← transpose_mul, observation_mul_drift, transpose_smul, transpose_one]
  have hpredict : f.predict.model.observation = observation := hmodel.observation
  rw [h.predict_innovationCovariance hmodel, h.predict_covariance hmodel, hpredict,
    Matrix.mul_assoc _ (drift dt)ᵀ, hview, Matrix.mul_smul, Matrix.mul_smul, Matrix.mul_one]
    at hsolves
  have hcancel : dt ^ 2 • (f.predict.gain inverse).toMatrix = dt • drift dt := by
    have hright := congrArg (· * V⁻¹) hsolves
    simpa only [Matrix.smul_mul, mul_nonsing_inv_cancel_right _ _ hV] using hright
  refine smul_right_injective _ (pow_ne_zero 2 hdt) (hcancel.trans ?_)
  show dt • drift dt = dt ^ 2 • dt⁻¹ • drift dt
  rw [smul_smul, sq, mul_assoc, mul_inv_cancel₀ hdt, mul_one]

theorem exists_innovationInverse (h : Located z v V f) (hmodel : f.model.IsExact dt)
    (hdt : dt ≠ 0) (hV : V.det ≠ 0) : ∃ inverse, f.predict.innovationInverse? = some inverse := by
  refine Filter.exists_innovationInverse ?_
  rw [h.predict_innovationCovariance hmodel, det_smul]
  exact mul_ne_zero (pow_ne_zero _ (pow_ne_zero _ hdt)) hV

end Located

variable [IsStrictOrderedRing K]

/-! ## The first reading -/

theorem located_correct (hobservation : f.model.observation = Motion.observation)
    (hR : f.model.measurementNoise.toMatrix = 0) (hinv : f.innovationInverse? = some inverse)
    (z : Point K) :
    Located z.toColumn.toMatrix
      ((departure : Matrix _ _ K)ᵀ * (f.correct z inverse).mean.toMatrix)
      ((departure : Matrix _ _ K)ᵀ * (f.correct z inverse).covariance.toMatrix
        * (departure : Matrix _ _ K))
      (f.correct z inverse) := by
  have hmean := observation_mul_correct_mean hR hinv z
  have hcovariance := observation_mul_correct_covariance hR hinv z
  have hsymm := isSymm_correct_covariance f z inverse
  rw [hobservation] at hmean hcovariance
  have hleft := placement_mul_add (f.correct z inverse).covariance.toMatrix
  rw [hcovariance, Matrix.mul_zero, zero_add] at hleft
  have hright : (f.correct z inverse).covariance.toMatrix
      * (departure : Matrix _ _ K) * (departure : Matrix _ _ K)ᵀ
      = (f.correct z inverse).covariance.toMatrix := by
    have htranspose := congrArg transpose hleft
    rwa [transpose_mul, transpose_mul, transpose_transpose, hsymm.eq] at htranspose
  constructor
  · rw [← hmean, placement_mul_add]
  · calc (f.correct z inverse).covariance.toMatrix
        = (departure : Matrix _ _ K) * ((departure : Matrix _ _ K)ᵀ
            * ((f.correct z inverse).covariance.toMatrix
              * (departure : Matrix _ _ K) * (departure : Matrix _ _ K)ᵀ)) := by
          rw [hright, hleft]
      _ = _ := by simp only [Matrix.mul_assoc]

/-- The velocity is as uncertain as before in every direction: the reading tells nothing of
it but by what it has in common with the position. -/
theorem definite_velocity_correct (hobservation : f.model.observation = Motion.observation)
    (hR : f.model.measurementNoise.toMatrix = 0) (hP : Definite f.covariance.toMatrix)
    (z : Point K) :
    Definite ((departure : Matrix _ _ K)ᵀ * (f.correct z inverse).covariance.toMatrix
      * (departure : Matrix _ _ K)) := by
  have hzero : f.model.measurementNoise.toMatrix.IsSymm := by
    rw [hR]
    exact isSymm_zero
  rw [correct_covariance_of_isSymm hP.isSymm hzero, toMatrix_posterior_of_exact hR]
  have hundone : (departure : Matrix _ _ K)ᵀ
      * (1 - (f.gain inverse).toMatrix * f.model.observation.toMatrix)
      * (departure : Matrix _ _ K) = 1 := by
    rw [Matrix.mul_assoc, Matrix.sub_mul, Matrix.one_mul, Matrix.mul_assoc, hobservation,
      observation_mul_departure, Matrix.mul_zero, sub_zero, departure_transpose_mul_departure]
  have hdefinite := hP.congruence hundone
  rw [transpose_mul, transpose_transpose] at hdefinite
  simpa only [Matrix.mul_assoc] using hdefinite

omit [IsStrictOrderedRing K] in
theorem definite_predict (hmodel : f.model.IsExact dt) (hP : Definite f.covariance.toMatrix) :
    Definite f.predict.covariance.toMatrix := by
  have hundone : (transition dt).toMatrix * (transition (-dt)).toMatrix = 1 := by
    rw [transition_add, add_neg_cancel, transition_zero]
  rw [toMatrix_predict_covariance, hmodel.processNoise, add_zero, hmodel.transition]
  exact hP.congruence hundone

/-- The first step succeeds and leaves the velocity to be found. -/
theorem exists_located (hmodel : f.model.IsExact dt) (hP : Definite f.covariance.toMatrix)
    (z : Point K) :
    ∃ g v V, f.step z = (g, .ok g.estimate) ∧ g.model = f.model ∧ Definite V ∧
      Located z.toColumn.toMatrix v V g := by
  have hmodel' : f.predict.model.IsExact dt := hmodel
  have hpredict := definite_predict hmodel hP
  obtain ⟨inverse, hinv⟩ : ∃ inverse, f.predict.innovationInverse? = some inverse := by
    refine exists_innovationInverse (IsUnit.ne_zero ?_)
    have hS := hpredict.congruence observation_mul_placement
    rw [toMatrix_innovationCovariance, hmodel'.measurementNoise, add_zero, hmodel'.observation]
    exact hS.isUnit_det
  exact ⟨f.predict.correct z inverse, _, _, attempt_of_ok (update_predict hinv z), rfl,
    definite_velocity_correct hmodel'.observation hmodel'.measurementNoise hpredict z,
    located_correct hmodel'.observation hmodel'.measurementNoise hinv z⟩

/-! ## The second reading -/

/-- The second step settles everything. -/
theorem Located.correct (h : Located z v V f) (hmodel : f.model.IsExact dt) (hdt : dt ≠ 0)
    (hV : Definite V) (hinv : f.predict.innovationInverse? = some inverse) (z' : Point K) :
    Located z'.toColumn.toMatrix (dt⁻¹ • (z'.toColumn.toMatrix - z)) 0
      (f.predict.correct z' inverse) := by
  have hmodel' : f.predict.model.IsExact dt := hmodel
  have hgain := h.predict_gain hmodel hdt hV.isUnit_det hinv
  constructor
  · have hseen : (observation : Mat 2 4 K).toMatrix
        * ((placement : Matrix _ _ K) * z + drift dt * v) = z + dt • v := by
      rw [Matrix.mul_add, ← Matrix.mul_assoc, ← Matrix.mul_assoc, observation_mul_placement,
        observation_mul_drift, Matrix.one_mul, Matrix.smul_mul, Matrix.one_mul]
    have hmoved : dt⁻¹ • drift dt * (z'.toColumn.toMatrix - (z + dt • v))
        = (departure : Matrix _ _ K) * (dt⁻¹ • (z'.toColumn.toMatrix - z))
          + (placement : Matrix _ _ K) * (z'.toColumn.toMatrix - z) - drift dt * v := by
      rw [← sub_sub, Matrix.mul_sub, Matrix.smul_mul _ _ (dt • v), Matrix.mul_smul (drift dt),
        smul_smul, inv_mul_cancel₀ hdt, one_smul, drift, smul_add, smul_smul,
        inv_mul_cancel₀ hdt, one_smul, Matrix.add_mul, Matrix.smul_mul, Matrix.mul_smul]
    rw [toMatrix_correct_mean, hgain, h.predict_mean hmodel, hmodel'.observation, hseen, hmoved,
      Matrix.mul_sub placement]
    abel
  · have hrest : (1 - dt⁻¹ • drift dt * (observation : Mat 2 4 K).toMatrix) * drift dt = 0 := by
      rw [Matrix.sub_mul, Matrix.one_mul, Matrix.mul_assoc, observation_mul_drift,
        Matrix.mul_smul, Matrix.mul_one, smul_smul, mul_inv_cancel₀ hdt, one_smul, sub_self]
    have hposterior : (f.predict.posterior (f.predict.gain inverse)).toMatrix = 0 := by
      rw [toMatrix_posterior_of_exact hmodel'.measurementNoise, hgain, hmodel'.observation,
        h.predict_covariance hmodel, ← Matrix.mul_assoc, ← Matrix.mul_assoc, hrest,
        Matrix.zero_mul, Matrix.zero_mul, Matrix.zero_mul]
    show (f.predict.posterior (f.predict.gain inverse)).symmetricPart.toMatrix = _
    rw [Mat.toMatrix_symmetricPart, hposterior, transpose_zero, add_zero, smul_zero,
      Matrix.mul_zero, Matrix.zero_mul]

theorem Located.step (h : Located z v V f) (hmodel : f.model.IsExact dt) (hdt : dt ≠ 0)
    (hV : Definite V) (z' : Point K) :
    ∃ g, f.step z' = (g, .ok g.estimate) ∧ g.model = f.model ∧
      Located z'.toColumn.toMatrix (dt⁻¹ • (z'.toColumn.toMatrix - z)) 0 g := by
  obtain ⟨inverse, hinv⟩ := h.exists_innovationInverse hmodel hdt hV.isUnit_det.ne_zero
  exact ⟨f.predict.correct z' inverse, attempt_of_ok (update_predict hinv z'), rfl,
    h.correct hmodel hdt hV hinv z'⟩

/-- Two steps, whatever follows them. -/
theorem exists_settled (hmodel : f.model.IsExact dt) (hdt : dt ≠ 0)
    (hP : Definite f.covariance.toMatrix) (z₁ z₂ : Point K) :
    ∃ g e₁ e₂, g.model = f.model ∧
      Located z₂.toColumn.toMatrix (dt⁻¹ • (z₂.toColumn.toMatrix - z₁.toColumn.toMatrix)) 0 g ∧
      ∀ calls, f.after (.step z₁ :: .step z₂ :: calls) = g.after calls ∧
        f.outcomes (.step z₁ :: .step z₂ :: calls)
          = some (.ok e₁) :: some (.ok e₂) :: g.outcomes calls := by
  obtain ⟨f', v, V, hfirst, hmodel', hV, hlocated⟩ := exists_located hmodel hP z₁
  obtain ⟨g, hsecond, hmodel'', hsettled⟩ := hlocated.step (hmodel' ▸ hmodel) hdt hV z₂
  refine ⟨g, f'.estimate, g.estimate, hmodel''.trans hmodel', hsettled, fun calls => ⟨?_, ?_⟩⟩
  · rw [after_cons, call, hfirst, after_cons, call, hsecond]
  · rw [outcomes_step_cons hfirst, outcomes_step_cons hsecond]

/-! ## When everything is certain -/

section Certain

omit [IsStrictOrderedRing K]

variable (hmodel : f.model.IsExact dt) (hP : f.covariance.toMatrix = 0)
include hmodel hP

theorem predict_covariance_of_certain : f.predict.covariance.toMatrix = 0 := by
  rw [toMatrix_predict_covariance, hmodel.processNoise, hP, Matrix.mul_zero, Matrix.zero_mul,
    add_zero]

theorem step_of_certain (z : Point K) : f.step z = (f.predict, .error .singularInnovation) := by
  have hmodel' : f.predict.model.IsExact dt := hmodel
  refine attempt_of_singular f.admitsUpdate_predict (innovationInverse?_eq_none_iff.mpr ?_) z
  rw [toMatrix_innovationCovariance, predict_covariance_of_certain hmodel hP,
    hmodel'.measurementNoise, Matrix.mul_zero, Matrix.zero_mul, add_zero, det_zero]

/-- Every step fails, and all that it does is to predict. -/
theorem steps_of_certain (later : List (Point K)) :
    f.outcomes (later.map .step) = later.map (fun _ => some (.error .singularInnovation)) ∧
      f.after (later.map .step) = f.after (List.replicate later.length .predict) := by
  induction later generalizing f with
  | nil => exact ⟨rfl, rfl⟩
  | cons z rest ih =>
      have hstep := step_of_certain hmodel hP z
      obtain ⟨houtcomes, hafter⟩ := ih (f := f.predict) hmodel
        (predict_covariance_of_certain hmodel hP)
      constructor
      · rw [List.map_cons, List.map_cons, outcomes_step_cons hstep, houtcomes]
      · rw [List.map_cons, after_cons, call, hstep, hafter, List.length_cons,
          List.replicate_succ, after_cons]
        rfl

theorem covariance_after_predictions_of_certain (k : ℕ) :
    (f.after (List.replicate k .predict)).covariance = 0 := by
  rw [← Mat.toMatrix_inj, covariance_after_predictions hmodel.transition, hP, hmodel.processNoise]
  simp

end Certain

variable [SmallestEigenvalue K]

/-- With a sensor that has no noise, a reading that is taken in is the position of the target
from then on, with no variance and no covariance with anything. Without process noise two
readings settle the velocity too. No step that follows succeeds, and the filter moves its
target on by what lay between the two readings. -/
theorem exact_readings_settle {config : FilterConfig K} (hf : create config = .ok f)
    (hR : f.model.measurementNoise.toMatrix = 0) :
    (∀ g : Filter K, g.model = f.model → ∀ z g', g.update z = .ok g' →
      g'.state.position = z ∧ ∀ (i : Fin 2) (j : Fin 4),
        g'.covariance (Fin.castAdd 2 i) j = 0 ∧ g'.covariance j (Fin.castAdd 2 i) = 0) ∧
    (f.model.processNoise.toMatrix = 0 → Definite f.covariance.toMatrix → ∀ z₁ z₂ : Point K,
      ∃ e₁ e₂, ∀ later : List (Point K),
        let calls := .step z₁ :: .step z₂ :: later.map .step
        let m := later.length
        f.outcomes calls = some (.ok e₁) :: some (.ok e₂)
          :: later.map (fun _ => some (.error .singularInnovation)) ∧
        (f.after calls).state = ⟨z₂.x + m * (z₂.x - z₁.x), z₂.y + m * (z₂.y - z₁.y),
          (z₂.x - z₁.x) / config.timestep, (z₂.y - z₁.y) / config.timestep⟩ ∧
        (f.after calls).covariance = 0) := by
  obtain ⟨covariances, hres, rfl⟩ := create_eq_ok_iff.mp hf
  refine ⟨fun g hmodel z g' hupdate => ?_, fun hQ hP z₁ z₂ => ?_⟩
  · obtain ⟨-, inverse, hinv, rfl⟩ := update_eq_ok_iff.mp hupdate
    have hobservation : g.model.observation = Motion.observation :=
      congrArg FilterModel.observation hmodel
    rw [← hmodel] at hR
    have hrows := observation_mul_correct_covariance hR hinv z
    rw [hobservation, observation_mul] at hrows
    have hrow : ∀ i j, (g.correct z inverse).covariance (Fin.castAdd 2 i) j = 0 :=
      fun i j => congrFun (congrFun hrows i) j
    refine ⟨?_, fun i j => ⟨hrow i j, ?_⟩⟩
    · rw [(located_correct hobservation hR hinv z).state_eq]
      rfl
    · exact ((isSymm_correct_covariance g z inverse).apply _ _).trans (hrow i j)
  · have hdt : config.timestep ≠ 0 :=
      (isPositive_iff.mp (FilterConfig.resolve_eq_ok_iff.mp hres).1).ne'
    have hexact : (ofCovariances config covariances).model.IsExact config.timestep :=
      ⟨rfl, rfl, hQ, hR⟩
    obtain ⟨g, e₁, e₂, hsame, hlocated, hcalls⟩ := exists_settled hexact hdt hP z₁ z₂
    have hmodel : g.model.IsExact config.timestep := hsame ▸ hexact
    have hcertain : g.covariance.toMatrix = 0 := by
      rw [hlocated.covariance, Matrix.mul_zero, Matrix.zero_mul]
    refine ⟨e₁, e₂, fun later => ?_⟩
    obtain ⟨hafter, houtcomes⟩ := hcalls (later.map .step)
    obtain ⟨hfail, honly⟩ := steps_of_certain hmodel hcertain later
    refine ⟨houtcomes.trans (by rw [hfail]), ?_, ?_⟩
    · have hmoved : ∀ a : K, later.length * config.timestep * (config.timestep⁻¹ * a)
          = later.length * a := by
        intro a
        rw [mul_assoc, mul_inv_cancel_left₀ hdt]
      rw [hafter, honly, hlocated.state_after_predictions hmodel]
      simp only [Matrix.smul_apply, Matrix.sub_apply, smul_eq_mul, hmoved, div_eq_inv_mul]
      rfl
    · rw [hafter, honly, covariance_after_predictions_of_certain hmodel hcertain]

/-! ## A target that jumps

The filter is sure of its velocity after two readings, and the three that follow do not fit. -/

def keenConfig : FilterConfig ℚ where
  initialPosition := ⟨1, 2⟩
  initialCovariance := .uniform 25
  measurementNoise := .uniform 0
  processNoise := .acceleration 0
  timestep := 2
  strict := true

def keenFilter : Filter ℚ :=
  ofCovariances keenConfig
    ⟨Mat.identity.scale 25, Mat.identity.scale 0, Motion.accelerationNoise 2 0⟩

theorem exact_readings_settle_of_keen :
    letI := leastDiagonal
    let later : List (Point ℚ) := [⟨0, 0⟩, ⟨5, 5⟩, ⟨1, 1⟩]
    let calls := .step ⟨3, 0⟩ :: .step ⟨7, -2⟩ :: later.map .step
    create keenConfig = .ok keenFilter ∧ keenFilter.model.measurementNoise.toMatrix = 0 ∧
      keenFilter.model.processNoise.toMatrix = 0 ∧ Definite keenFilter.covariance.toMatrix ∧
      keenFilter.predict.update ⟨3, 0⟩ = .ok (keenFilter.step ⟨3, 0⟩).1 ∧
      (keenFilter.step ⟨3, 0⟩).1.state.position = ⟨3, 0⟩ ∧
      (keenFilter.step ⟨3, 0⟩).1.covariance 2 0 = 0 ∧
      (∃ e₁ e₂, keenFilter.outcomes calls = [some (.ok e₁), some (.ok e₂),
        some (.error .singularInnovation), some (.error .singularInnovation),
        some (.error .singularInnovation)]) ∧
      (keenFilter.after calls).state = ⟨19, -8, 2, -1⟩ ∧
      (keenFilter.after calls).covariance = 0 := by
  let := leastDiagonal
  intro later calls
  have hf : create keenConfig = .ok keenFilter := rfl
  have hR : keenFilter.model.measurementNoise.toMatrix = 0 := by decide +kernel
  have hQ : keenFilter.model.processNoise.toMatrix = 0 := by decide +kernel
  have hP : Definite keenFilter.covariance.toMatrix := by
    show Definite (Mat.identity.scale 25).toMatrix
    rw [Mat.toMatrix_scale, Mat.toMatrix_identity]
    exact Definite.one.smul (by norm_num)
  have hupdate : keenFilter.predict.update ⟨3, 0⟩ = .ok (keenFilter.step ⟨3, 0⟩).1 :=
    update_predict_of_isSome (by decide +kernel) _
  obtain ⟨hsettles, hrun⟩ := exact_readings_settle hf hR
  obtain ⟨hposition, hentries⟩ := hsettles keenFilter.predict rfl _ _ hupdate
  obtain ⟨e₁, e₂, hlater⟩ := hrun hQ hP ⟨3, 0⟩ ⟨7, -2⟩
  obtain ⟨houtcomes, hstate, hcovariance⟩ := hlater later
  exact ⟨hf, hR, hQ, hP, hupdate, hposition, (hentries 0 2).2, ⟨e₁, e₂, houtcomes⟩,
    hstate.trans (by decide +kernel), hcovariance⟩

end Filter

end PlanarKalman
