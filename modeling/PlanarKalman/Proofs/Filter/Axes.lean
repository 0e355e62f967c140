import Mathlib.Tactic.FieldSimp
import PlanarKalman.Proofs.Matrix.Axes
import PlanarKalman.Proofs.Filter.Covariance

/-!
# A filter is one filter for each axis

When each covariance is given by a single number, nothing tells the axes apart and
nothing ties them together: the matrices of the model and the covariance of the start
all treat both axes alike (`perAxis`). A filter of one axis (`AxisFilter`) has a position,
a velocity and three numbers for how sure it is of them, and its calls are written out in
these numbers. On each axis the filter of the plane does what such a filter does with the
coordinates on that axis (`OnAxis`), call by call, and both axes fail together, because
they are always equally sure.

What is carried along the run is that the covariance is `perAxis` of that of one axis. A
prediction is then a computation with matrices of two rows, and so is a correction once
the innovation covariance is seen to be a multiple of the identity, which is inverted as a
number is.
-/

namespace PlanarKalman

open Matrix

/-! ## Filters of one axis -/

/-- What the filters of both axes have in common. -/
structure AxisModel (K : Type) where
  timestep : K
  /-- The variance of the acceleration. -/
  process : K
  /-- The variance of the sensor. -/
  measurement : K
  strict : Bool

/-- A filter of one axis: what it believes, the variance `a` of the position, its
covariance `b` with the velocity, and the variance `c` of the velocity. -/
structure AxisFilter (K : Type) where
  position : K
  velocity : K
  a : K
  b : K
  c : K
  phase : Phase

inductive AxisCall (K : Type) where
  | predict
  | update (reading : K)
  | step (reading : K)

/-- The answer to a call: nothing for a prediction, else the filter that has taken the
reading in, or the error. -/
abbrev AxisOutcome (K : Type) : Type := Option (Except (FilterError K) (AxisFilter K))

variable {K : Type} [Field K] [LinearOrder K]

namespace AxisFilter

/-- At rest in the given position, and as sure of the one as of the other. -/
def start (position variance : K) : AxisFilter K where
  position
  velocity := 0
  a := variance
  b := 0
  c := variance
  phase := .awaitingPredict

def predict (m : AxisModel K) (x : AxisFilter K) : AxisFilter K where
  position := x.position + m.timestep * x.velocity
  velocity := x.velocity
  a := x.a + 2.0 * m.timestep * x.b + m.timestep ^ 2 * x.c + m.process * m.timestep ^ 4 / 4.0
  b := x.b + m.timestep * x.c + m.process * m.timestep ^ 3 / 2.0
  c := x.c + m.process * m.timestep ^ 2
  phase := .awaitingUpdate

/-- The variance of a reading. -/
def innovation (m : AxisModel K) (x : AxisFilter K) : K := x.a + m.measurement

def correct (m : AxisModel K) (x : AxisFilter K) (z : K) : AxisFilter K :=
  let s := x.innovation m
  { position := x.position + x.a / s * (z - x.position)
    velocity := x.velocity + x.b / s * (z - x.position)
    a := x.a * m.measurement / s
    b := x.b * m.measurement / s
    c := x.c - x.b ^ 2 / s
    phase := .awaitingPredict }

def admitsUpdate (m : AxisModel K) (x : AxisFilter K) : Bool :=
  !m.strict || x.phase == .awaitingUpdate

def attempt (m : AxisModel K) (x : AxisFilter K) (z : K) :
    AxisFilter K × Except (FilterError K) (AxisFilter K) :=
  if x.admitsUpdate m then
    if x.innovation m = 0 then (x, .error .singularInnovation)
    else (x.correct m z, .ok (x.correct m z))
  else (x, .error .outOfSequence)

def call (m : AxisModel K) (x : AxisFilter K) : AxisCall K → AxisFilter K × AxisOutcome K
  | .predict => (x.predict m, none)
  | .update z => let (next, answer) := x.attempt m z; (next, some answer)
  | .step z => let (next, answer) := (x.predict m).attempt m z; (next, some answer)

def after (m : AxisModel K) (x : AxisFilter K) (calls : List (AxisCall K)) : AxisFilter K :=
  calls.foldl (fun x c => (x.call m c).1) x

end AxisFilter

def Point.coordinate (p : Point K) : Fin 2 → K := ![p.x, p.y]

/-- What a call says to the filter of one axis. -/
def Call.onAxis (k : Fin 2) : Call K → AxisCall K
  | .predict => .predict
  | .update z => .update (z.coordinate k)
  | .step z => .step (z.coordinate k)

/-! ## One axis in linear algebra -/

namespace AxisModel

def transition (m : AxisModel K) : Matrix (Fin 2) (Fin 2) K := !![1, m.timestep; 0, 1]

/-- What a constant acceleration over one time step does to an axis. -/
def accelerationEffect (m : AxisModel K) : Matrix (Fin 2) (Fin 1) K :=
  !![m.timestep ^ 2 / 2.0; m.timestep]

def processNoise (m : AxisModel K) : Matrix (Fin 2) (Fin 2) K :=
  m.process • (m.accelerationEffect * m.accelerationEffectᵀ)

variable (K) in
def observation : Matrix (Fin 1) (Fin 2) K := !![1, 0]

def measurementNoise (m : AxisModel K) : Matrix (Fin 1) (Fin 1) K := !![m.measurement]

theorem measurementNoise_eq (m : AxisModel K) : m.measurementNoise = m.measurement • 1 := by
  ext i j
  fin_cases i; fin_cases j
  simp [measurementNoise]

end AxisModel

namespace AxisFilter

def column (x : AxisFilter K) : Matrix (Fin 2) (Fin 1) K := !![x.position; x.velocity]

def covariance (x : AxisFilter K) : Matrix (Fin 2) (Fin 2) K := !![x.a, x.b; x.b, x.c]

theorem covariance_start (position variance : K) :
    (start position variance).covariance = variance • 1 := by
  rw [one_fin_two]
  ext i j
  fin_cases i <;> fin_cases j <;> simp [start, covariance]

omit [Field K] [LinearOrder K] in
theorem transpose_covariance (x : AxisFilter K) : x.covarianceᵀ = x.covariance := by
  ext i j
  fin_cases i <;> fin_cases j <;> rfl

def gain (m : AxisModel K) (x : AxisFilter K) : Matrix (Fin 2) (Fin 1) K :=
  !![x.a / x.innovation m; x.b / x.innovation m]

variable {m : AxisModel K} {x : AxisFilter K}

theorem column_predict : (x.predict m).column = m.transition * x.column := by
  ext i j
  fin_cases i <;> fin_cases j <;> simp [predict, column, AxisModel.transition]

theorem covariance_predict [IsStrictOrderedRing K] :
    (x.predict m).covariance
      = m.transition * x.covariance * m.transitionᵀ + m.processNoise := by
  have h2 : (2.0 : K) = 2 := by norm_num
  have h4 : (4.0 : K) = 4 := by norm_num
  ext i j
  rw [Matrix.add_apply, Matrix.mul_apply, Fin.sum_univ_two]
  simp only [AxisModel.processNoise, Matrix.smul_apply, Matrix.mul_apply, Fin.sum_univ_two,
    Fin.sum_univ_one, transpose_apply]
  fin_cases i <;> fin_cases j <;>
    simp [predict, covariance, AxisModel.transition, AxisModel.accelerationEffect, h2, h4,
      -mul_eq_mul_left_iff] <;>
    ring

theorem innovation_eq :
    (!![x.innovation m] : Matrix (Fin 1) (Fin 1) K)
      = AxisModel.observation K * x.covariance * (AxisModel.observation K)ᵀ
        + m.measurementNoise := by
  ext i j
  rw [Matrix.add_apply, Matrix.mul_apply, Fin.sum_univ_two]
  fin_cases i; fin_cases j
  simp [innovation, covariance, AxisModel.observation, AxisModel.measurementNoise]

theorem gain_eq :
    x.gain m = x.covariance * (AxisModel.observation K)ᵀ * !![(x.innovation m)⁻¹] := by
  ext i j
  rw [Matrix.mul_apply, Fin.sum_univ_one, Matrix.mul_apply, Fin.sum_univ_two]
  fin_cases i <;> fin_cases j <;>
    simp [gain, covariance, AxisModel.observation, div_eq_mul_inv]

theorem column_correct (z : K) :
    (x.correct m z).column
      = x.column + x.gain m * (!![z] - AxisModel.observation K * x.column) := by
  ext i j
  fin_cases i <;> fin_cases j <;> simp [correct, column, gain, AxisModel.observation]

/-- What a correction leaves of the belief before it. -/
theorem one_sub_gain_mul_observation (hs : x.innovation m ≠ 0) :
    1 - x.gain m * AxisModel.observation K
      = !![m.measurement / x.innovation m, 0; -(x.b / x.innovation m), 1] := by
  have hrest : 1 - x.a / x.innovation m = m.measurement / x.innovation m := by
    rw [one_sub_div hs, innovation, add_sub_cancel_left]
  rw [one_fin_two]
  ext i j
  fin_cases i <;> fin_cases j <;> simp [gain, AxisModel.observation, hrest]

theorem covariance_correct (hs : x.innovation m ≠ 0) (z : K) :
    (x.correct m z).covariance
      = (1 - x.gain m * AxisModel.observation K) * x.covariance
          * (1 - x.gain m * AxisModel.observation K)ᵀ
        + x.gain m * m.measurementNoise * (x.gain m)ᵀ := by
  have hr : m.measurement = x.innovation m - x.a := by rw [innovation, add_sub_cancel_left]
  rw [one_sub_gain_mul_observation hs]
  ext i j
  rw [Matrix.add_apply, Matrix.mul_apply, Fin.sum_univ_two]
  simp only [Matrix.mul_apply, Fin.sum_univ_two, Fin.sum_univ_one, transpose_apply]
  fin_cases i <;> fin_cases j <;>
    simp [correct, covariance, gain, AxisModel.measurementNoise, hr] <;> field_simp <;> ring

end AxisFilter

/-! ## The plane, axis by axis -/

namespace Motion

theorem toMatrix_transition (m : AxisModel K) :
    (transition m.timestep).toMatrix = perAxis m.transition := by
  rw [AxisModel.transition, perAxis_fin_two]
  ext i j
  fin_cases i <;> fin_cases j <;> simp [transition]

theorem toMatrix_observation :
    (observation : Mat 2 4 K).toMatrix = perAxis (AxisModel.observation K) := by
  ext i j
  fin_cases i <;> fin_cases j <;>
    simp [observation, AxisModel.observation, perAxis_apply, Fin.divNat, Fin.modNat]

end Motion

theorem State.onAxis_restingAt (p : Point K) (k : Fin 2) (variance : K) :
    onAxis (m := 2) k (restingAt p).toColumn.toMatrix
      = (AxisFilter.start (p.coordinate k) variance).column := by
  ext i j
  fin_cases k <;> fin_cases i <;> fin_cases j <;> rfl

omit [Field K] [LinearOrder K] in
theorem Point.onAxis_toColumn (z : Point K) (k : Fin 2) :
    onAxis (m := 1) k z.toColumn.toMatrix = !![z.coordinate k] := by
  ext i j
  fin_cases k <;> fin_cases i <;> fin_cases j <;> rfl

namespace Filter

/-- A filter of the plane, whose matrices treat both axes alike, looks on axis `k` like the
filter `x`. -/
structure OnAxis (m : AxisModel K) (k : Fin 2) (f : Filter K) (x : AxisFilter K) : Prop where
  transition : f.model.transition.toMatrix = perAxis m.transition
  processNoise : f.model.processNoise.toMatrix = perAxis m.processNoise
  observation : f.model.observation.toMatrix = perAxis (AxisModel.observation K)
  measurementNoise : f.model.measurementNoise.toMatrix = perAxis m.measurementNoise
  strict_eq : f.config.strict = m.strict
  mean : onAxis (m := 2) k f.mean.toMatrix = x.column
  covariance : f.covariance.toMatrix = perAxis x.covariance
  phase_eq : f.phase = x.phase

namespace OnAxis

variable {m : AxisModel K} {k : Fin 2} {f : Filter K} {x : AxisFilter K}

theorem position_eq (h : OnAxis m k f x) : f.state.position.coordinate k = x.position := by
  have hentry := congrFun (congrFun h.mean 0) 0
  fin_cases k <;> exact hentry

theorem velocity_eq (h : OnAxis m k f x) : f.state.velocity.coordinate k = x.velocity := by
  have hentry := congrFun (congrFun h.mean 1) 0
  fin_cases k <;> exact hentry

theorem position_variance (h : OnAxis m k f x) :
    f.covariance (Fin.castAdd 2 k) (Fin.castAdd 2 k) = x.a := by
  have hentry := congrFun (congrFun h.covariance (Fin.castAdd 2 k)) (Fin.castAdd 2 k)
  rw [AxisFilter.covariance, perAxis_fin_two] at hentry
  fin_cases k <;> exact hentry

theorem velocity_variance (h : OnAxis m k f x) :
    f.covariance (Fin.natAdd 2 k) (Fin.natAdd 2 k) = x.c := by
  have hentry := congrFun (congrFun h.covariance (Fin.natAdd 2 k)) (Fin.natAdd 2 k)
  rw [AxisFilter.covariance, perAxis_fin_two] at hentry
  fin_cases k <;> exact hentry

theorem mixed_covariance (h : OnAxis m k f x) :
    f.covariance (Fin.castAdd 2 k) (Fin.natAdd 2 k) = x.b := by
  have hentry := congrFun (congrFun h.covariance (Fin.castAdd 2 k)) (Fin.natAdd 2 k)
  rw [AxisFilter.covariance, perAxis_fin_two] at hentry
  fin_cases k <;> exact hentry

theorem a_nonneg (h : OnAxis m k f x) (hsound : f.IsSound) : 0 ≤ x.a := by
  rw [← h.position_variance]
  exact hsound.belief.diagonal_nonneg _

theorem c_nonneg (h : OnAxis m k f x) (hsound : f.IsSound) : 0 ≤ x.c := by
  rw [← h.velocity_variance]
  exact hsound.belief.diagonal_nonneg _

theorem measurement_nonneg (h : OnAxis m k f x) (hsound : f.IsSound) : 0 ≤ m.measurement := by
  have hentry := hsound.measurementNoise.diagonal_nonneg 0
  rw [h.measurementNoise, AxisModel.measurementNoise_eq, perAxis_smul, perAxis_one] at hentry
  exact hentry.trans_eq (by simp)

theorem admitsUpdate_eq (h : OnAxis m k f x) : f.admitsUpdate = x.admitsUpdate m := by
  rw [Filter.admitsUpdate, AxisFilter.admitsUpdate, h.strict_eq, h.phase_eq]

theorem toMatrix_innovationCovariance (h : OnAxis m k f x) :
    f.innovationCovariance.toMatrix
      = perAxis (!![x.innovation m] : Matrix (Fin 1) (Fin 1) K) := by
  rw [Filter.toMatrix_innovationCovariance, h.observation, h.covariance, h.measurementNoise,
    AxisFilter.innovation_eq, perAxis_add, perAxis_mul, perAxis_mul, perAxis_transpose]

theorem innovationInverse?_eq_none_iff (h : OnAxis m k f x) :
    f.innovationInverse? = none ↔ x.innovation m = 0 := by
  rw [Filter.innovationInverse?_eq_none_iff, h.toMatrix_innovationCovariance]
  -- not a rewrite: the two rows of a reading are `1 * 2` rows only by computation
  refine (Eq.congr_left (det_perAxis _)).trans ?_
  rw [det_fin_one_of, sq_eq_zero_iff]

theorem innovation_ne_zero (h : OnAxis m k f x) {inverse : Mat 2 2 K}
    (hinv : f.innovationInverse? = some inverse) : x.innovation m ≠ 0 := by
  rw [Ne, ← h.innovationInverse?_eq_none_iff, hinv]
  exact nofun

theorem toMatrix_gain (h : OnAxis m k f x) {inverse : Mat 2 2 K}
    (hinv : f.innovationInverse? = some inverse) :
    (f.gain inverse).toMatrix = perAxis (x.gain m) := by
  obtain ⟨-, hinverse⟩ := innovationInverse?_eq_some_iff.mp hinv
  have hs := h.innovation_ne_zero hinv
  have hone : (!![(x.innovation m)⁻¹] * !![x.innovation m] : Matrix (Fin 1) (Fin 1) K) = 1 := by
    ext i j
    fin_cases i; fin_cases j
    simp [hs]
  have hperAxis : inverse.toMatrix
      = perAxis (!![(x.innovation m)⁻¹] : Matrix (Fin 1) (Fin 1) K) := by
    rw [hinverse, h.toMatrix_innovationCovariance]
    exact inv_perAxis hone
  rw [Filter.toMatrix_gain, h.covariance, h.observation, hperAxis, AxisFilter.gain_eq,
    perAxis_mul, perAxis_mul, perAxis_transpose]

/-- How much of a difference goes into the position. -/
theorem position_gain (h : OnAxis m k f x) {inverse : Mat 2 2 K}
    (hinv : f.innovationInverse? = some inverse) :
    f.gain inverse (Fin.castAdd 2 k) k = x.a / x.innovation m := by
  refine (congrFun (congrFun (h.toMatrix_gain hinv) (Fin.castAdd 2 k)) k).trans ?_
  fin_cases k <;> simp [AxisFilter.gain, perAxis_apply, Fin.divNat, Fin.modNat]

end OnAxis

end Filter

variable [IsStrictOrderedRing K]

theorem Motion.accelerationEffect_eq (m : AxisModel K) :
    accelerationEffect m.timestep = perAxis m.accelerationEffect := by
  have h2 : (2.0 : K) = 2 := by norm_num
  ext i j
  fin_cases i <;> fin_cases j <;>
    simp [accelerationEffect, AxisModel.accelerationEffect, h2, perAxis_apply, Fin.divNat,
      Fin.modNat]

theorem Motion.toMatrix_accelerationNoise_eq (m : AxisModel K) :
    (accelerationNoise m.timestep m.process).toMatrix = perAxis m.processNoise := by
  rw [toMatrix_accelerationNoise, accelerationEffect_eq, AxisModel.processNoise, perAxis_smul,
    perAxis_mul, perAxis_transpose]

namespace Filter

namespace OnAxis

variable {m : AxisModel K} {k : Fin 2} {f : Filter K} {x : AxisFilter K}

theorem predict (h : OnAxis m k f x) : OnAxis m k f.predict (x.predict m) where
  transition := h.transition
  processNoise := h.processNoise
  observation := h.observation
  measurementNoise := h.measurementNoise
  strict_eq := h.strict_eq
  mean := by
    rw [toMatrix_predict_mean, h.transition, AxisFilter.column_predict, ← h.mean]
    exact onAxis_perAxis_mul k _ _
  covariance := by
    rw [toMatrix_predict_covariance, h.transition, h.covariance, h.processNoise,
      AxisFilter.covariance_predict, perAxis_add, perAxis_mul, perAxis_mul, perAxis_transpose]
  phase_eq := rfl

theorem correct (h : OnAxis m k f x) {inverse : Mat 2 2 K}
    (hinv : f.innovationInverse? = some inverse) (z : Point K) :
    OnAxis m k (f.correct z inverse) (x.correct m (z.coordinate k)) where
  transition := h.transition
  processNoise := h.processNoise
  observation := h.observation
  measurementNoise := h.measurementNoise
  strict_eq := h.strict_eq
  mean := by
    rw [toMatrix_correct_mean, h.toMatrix_gain hinv, h.observation, AxisFilter.column_correct,
      ← h.mean, ← Point.onAxis_toColumn, ← onAxis_perAxis_mul, ← onAxis_sub,
      ← onAxis_perAxis_mul, ← onAxis_add]
  covariance := by
    have hs : x.innovation m ≠ 0 := h.innovation_ne_zero hinv
    -- what is stored is the symmetric part, and both axes are symmetric already
    have hposterior : (f.posterior (f.gain inverse)).toMatrix
        = perAxis (x.correct m (z.coordinate k)).covariance := by
      rw [toMatrix_posterior, h.toMatrix_gain hinv, h.observation, h.covariance,
        h.measurementNoise, AxisFilter.covariance_correct hs]
      simp only [perAxis_add, perAxis_sub, perAxis_mul, perAxis_transpose, perAxis_one]
    have hsymm : (f.posterior (f.gain inverse)).toMatrix.IsSymm := by
      rw [hposterior, IsSymm, ← perAxis_transpose, AxisFilter.transpose_covariance]
    exact (congrArg Mat.toMatrix (Mat.symmetricPart_of_isSymm hsymm)).trans hposterior
  phase_eq := rfl

/-- A reading is taken in on the axis as it is in the plane, or turned down for the same
reason. -/
theorem attempt_cases (h : OnAxis m k f x) (z : Point K) :
    (∃ g x', f.attempt z = (g, .ok g.estimate) ∧
      x.attempt m (z.coordinate k) = (x', .ok x') ∧ OnAxis m k g x') ∨
    ∃ e, f.attempt z = (f, .error e) ∧ x.attempt m (z.coordinate k) = (x, .error e) := by
  have hadmitted := h.admitsUpdate_eq
  unfold AxisFilter.attempt
  cases hupdate : f.update z with
  | ok next =>
      obtain ⟨hadmits, inverse, hinv, rfl⟩ := update_eq_ok_iff.mp hupdate
      rw [if_pos (hadmitted ▸ hadmits), if_neg (h.innovation_ne_zero hinv)]
      exact Or.inl ⟨_, _, attempt_of_ok hupdate, rfl, h.correct hinv z⟩
  | error e =>
      refine Or.inr ⟨e, attempt_of_error hupdate, ?_⟩
      rcases update_eq_error_iff.mp hupdate with ⟨hrefused, rfl⟩ | ⟨hadmits, hinv, rfl⟩
      · rw [← hadmitted, hrefused]
        rfl
      · rw [if_pos (hadmitted ▸ hadmits), if_pos (h.innovationInverse?_eq_none_iff.mp hinv)]

theorem attempt (h : OnAxis m k f x) (z : Point K) :
    OnAxis m k (f.attempt z).1 (x.attempt m (z.coordinate k)).1 := by
  rcases h.attempt_cases z with ⟨g, x', hf, hx, hnext⟩ | ⟨e, hf, hx⟩
  · rw [hf, hx]
    exact hnext
  · rw [hf, hx]
    exact h

theorem call (h : OnAxis m k f x) (c : Call K) :
    OnAxis m k (f.call c).1 (x.call m (c.onAxis k)).1 :=
  call_lift (fun x c => x.call m (c.onAxis k)) (fun _ _ => rfl)
    (S := fun p q => OnAxis m k p.1 q.1)
    (fun _ _ hfx => ⟨hfx.predict, hfx.predict⟩) (fun _ _ z hfx => hfx.attempt z) h c

theorem after (h : OnAxis m k f x) (calls : List (Call K)) :
    OnAxis m k (f.after calls) (x.after m (calls.map (Call.onAxis k))) := by
  induction calls generalizing f x with
  | nil => exact h
  | cons c rest ih => exact ih (h.call c)

end OnAxis

/-! ## Both axes together -/

/-- The filter of the plane that believes on each axis what the filter of that axis does,
and whose axes have nothing to do with each other. -/
structure Joins (f : Filter K) (x y : AxisFilter K) : Prop where
  state_eq : f.state = ⟨x.position, y.position, x.velocity, y.velocity⟩
  covariance_eq : f.covariance.toMatrix
    = !![x.a, 0, x.b, 0; 0, x.a, 0, x.b; x.b, 0, x.c, 0; 0, x.b, 0, x.c]
  sure_eq : (y.a, y.b, y.c) = (x.a, x.b, x.c)
  phase_x_eq : x.phase = f.phase
  phase_y_eq : y.phase = f.phase

end Filter

/-- An answer that joins those of both axes. -/
inductive Outcome.Joins : Outcome K → AxisOutcome K → AxisOutcome K → Prop
  | none : Joins none none none
  | estimate {f : Filter K} {x y : AxisFilter K} (h : f.Joins x y) :
      Joins (some (.ok f.estimate)) (some (.ok x)) (some (.ok y))
  | error (e : FilterError K) : Joins (some (.error e)) (some (.error e)) (some (.error e))

namespace Filter

variable {m : AxisModel K} {f : Filter K} {x y : AxisFilter K}

omit [IsStrictOrderedRing K] in
theorem joins_of_onAxis (hx : OnAxis m 0 f x) (hy : OnAxis m 1 f y) : f.Joins x y where
  state_eq := by
    have hposition : f.state.position = ⟨x.position, y.position⟩ := by
      rw [← hx.position_eq, ← hy.position_eq]
      rfl
    have hvelocity : f.state.velocity = ⟨x.velocity, y.velocity⟩ := by
      rw [← hx.velocity_eq, ← hy.velocity_eq]
      rfl
    obtain ⟨hpx, hpy⟩ := Point.mk.inj hposition
    obtain ⟨hvx, hvy⟩ := Point.mk.inj hvelocity
    rw [← hpx, ← hpy, ← hvx, ← hvy]
  covariance_eq := by rw [← perAxis_fin_two]; exact hx.covariance
  sure_eq := by
    have hsame : y.covariance = x.covariance :=
      perAxis_injective (hy.covariance.symm.trans hx.covariance)
    have ha : y.a = x.a := congrFun (congrFun hsame 0) 0
    have hb : y.b = x.b := congrFun (congrFun hsame 0) 1
    have hc : y.c = x.c := congrFun (congrFun hsame 1) 1
    rw [ha, hb, hc]
  phase_x_eq := hx.phase_eq.symm
  phase_y_eq := hy.phase_eq.symm

theorem attempt_joins (hx : OnAxis m 0 f x) (hy : OnAxis m 1 f y) (z : Point K) :
    Outcome.Joins (some (f.attempt z).2) (some (x.attempt m (z.coordinate 0)).2)
      (some (y.attempt m (z.coordinate 1)).2) := by
  rcases hx.attempt_cases z with ⟨g, x', hf, hattempt, hnext⟩ | ⟨e, hf, hattempt⟩ <;>
    rcases hy.attempt_cases z with ⟨g', y', hf', hattempt', hnext'⟩ | ⟨e', hf', hattempt'⟩ <;>
    rw [hf] at hf' <;> rw [hf, hattempt, hattempt']
  · obtain rfl : g = g' := congrArg Prod.fst hf'
    exact .estimate (joins_of_onAxis hnext hnext')
  · cases congrArg Prod.snd hf'
  · cases congrArg Prod.snd hf'
  · obtain rfl : e = e' := Except.error.inj (congrArg Prod.snd hf')
    exact .error e

theorem call_joins (hx : OnAxis m 0 f x) (hy : OnAxis m 1 f y) (c : Call K) :
    Outcome.Joins (f.call c).2 (x.call m (c.onAxis 0)).2 (y.call m (c.onAxis 1)).2 := by
  -- both filters of an axis go along with the filter of the plane as a pair
  have hpair : OnAxis m 0 f (x, y).1 ∧ OnAxis m 1 f (x, y).2 := ⟨hx, hy⟩
  exact call_lift (fun q c => (((q.1.call m (c.onAxis 0)).1, (q.2.call m (c.onAxis 1)).1),
      ((q.1.call m (c.onAxis 0)).2, (q.2.call m (c.onAxis 1)).2))) (fun _ _ => rfl)
    (R := fun f q => OnAxis m 0 f q.1 ∧ OnAxis m 1 f q.2)
    (S := fun p q => Outcome.Joins p.2 q.2.1 q.2.2)
    (fun _ _ h => ⟨⟨h.1.predict, h.2.predict⟩, .none⟩)
    (fun _ _ z h => attempt_joins h.1 h.2 z) hpair c

variable [SmallestEigenvalue K] {config : FilterConfig K} {p r q : K}

theorem onAxis_of_create (hf : create config = .ok f)
    (hinitial : config.initialCovariance = .uniform p)
    (hmeasurement : config.measurementNoise = .uniform r)
    (hprocess : config.processNoise = .acceleration q) (k : Fin 2) :
    OnAxis ⟨config.timestep, q, r, config.strict⟩ k f
      (.start (config.initialPosition.coordinate k) p) := by
  obtain ⟨⟨P, R, Q⟩, hres, rfl⟩ := create_eq_ok_iff.mp hf
  obtain ⟨-, -, hP, hR, hQ⟩ := FilterConfig.resolve_eq_ok_iff.mp hres
  rw [hinitial] at hP
  rw [hmeasurement] at hR
  rw [hprocess] at hQ
  obtain ⟨-, rfl⟩ := FilterConfig.resolveCovariance_uniform_eq_ok_iff.mp hP
  obtain ⟨-, rfl⟩ := FilterConfig.resolveCovariance_uniform_eq_ok_iff.mp hR
  obtain ⟨-, rfl⟩ := FilterConfig.resolveProcessNoise_acceleration_eq_ok_iff.mp hQ
  exact {
    transition := Motion.toMatrix_transition ⟨config.timestep, q, r, config.strict⟩
    processNoise := Motion.toMatrix_accelerationNoise_eq ⟨config.timestep, q, r, config.strict⟩
    observation := Motion.toMatrix_observation
    measurementNoise := by
      simp only [ofCovariances]
      rw [Mat.toMatrix_scale, Mat.toMatrix_identity, AxisModel.measurementNoise_eq, perAxis_smul,
        perAxis_one]
    strict_eq := rfl
    mean := State.onAxis_restingAt config.initialPosition k p
    covariance := by
      simp only [ofCovariances]
      rw [Mat.toMatrix_scale, Mat.toMatrix_identity, AxisFilter.covariance_start, perAxis_smul,
        perAxis_one]
    phase_eq := rfl }

/-- A filter with a single number for each covariance is one filter for each axis: after
every run it joins what the filters of the axes believe, having read the coordinates on
their axis only, and each of its answers joins theirs. -/
theorem axes_decoupled (hf : create config = .ok f)
    (hinitial : config.initialCovariance = .uniform p)
    (hmeasurement : config.measurementNoise = .uniform r)
    (hprocess : config.processNoise = .acceleration q) :
    let m : AxisModel K := ⟨config.timestep, q, r, config.strict⟩
    let axis (k : Fin 2) (calls : List (Call K)) : AxisFilter K :=
      (AxisFilter.start (config.initialPosition.coordinate k) p).after m
        (calls.map (Call.onAxis k))
    (∀ calls, (f.after calls).Joins (axis 0 calls) (axis 1 calls) ∧ ∀ c,
      Outcome.Joins ((f.after calls).call c).2
        ((axis 0 calls).call m (c.onAxis 0)).2 ((axis 1 calls).call m (c.onAxis 1)).2) ∧
    ∀ k calls calls', calls.map (Call.onAxis k) = calls'.map (Call.onAxis k) →
      (f.after calls).state.position.coordinate k
        = (f.after calls').state.position.coordinate k ∧
      (f.after calls).state.velocity.coordinate k
        = (f.after calls').state.velocity.coordinate k ∧
      (f.after calls).covariance = (f.after calls').covariance := by
  intro m axis
  have haxis : ∀ k calls, OnAxis m k (f.after calls) (axis k calls) := fun k calls =>
    (onAxis_of_create hf hinitial hmeasurement hprocess k).after calls
  refine ⟨fun calls => ⟨joins_of_onAxis (haxis 0 calls) (haxis 1 calls),
    call_joins (haxis 0 calls) (haxis 1 calls)⟩, fun k calls calls' hsame => ?_⟩
  have hrun : axis k calls = axis k calls' :=
    congrArg (AxisFilter.after m (.start (config.initialPosition.coordinate k) p)) hsame
  refine ⟨?_, ?_, ?_⟩
  · rw [(haxis k calls).position_eq, (haxis k calls').position_eq, hrun]
  · rw [(haxis k calls).velocity_eq, (haxis k calls').velocity_eq, hrun]
  · rw [← Mat.toMatrix_inj, (haxis k calls).covariance, (haxis k calls').covariance, hrun]

/-- The filter that is certain at first fails on both axes, and later it believes the same
of the first axis whatever is read on the second. -/
theorem axes_decoupled_of_certain :
    letI := leastDiagonal
    let calls : List (Call ℚ) := [.update ⟨1, 1⟩, .step ⟨3, -1⟩, .predict, .update ⟨0, 5⟩]
    let calls' : List (Call ℚ) := [.update ⟨1, 7⟩, .step ⟨3, 2⟩, .predict, .update ⟨0, -40⟩]
    create certainConfig = .ok certainFilter ∧
      (certainFilter.call (.update ⟨1, 1⟩)).2 = some (.error .singularInnovation) ∧
      (certainFilter.after calls).state.x = (certainFilter.after calls').state.x ∧
      (certainFilter.after calls).state.vx = (certainFilter.after calls').state.vx ∧
      (certainFilter.after calls).covariance 0 3 = 0 ∧
      (certainFilter.after calls).state.y ≠ (certainFilter.after calls').state.y := by
  let := leastDiagonal
  intro calls calls'
  have hf : create certainConfig = .ok certainFilter := rfl
  obtain ⟨hrun, halone⟩ := axes_decoupled hf rfl rfl rfl
  obtain ⟨hx, hvx, -⟩ := halone 0 calls calls' rfl
  obtain ⟨hjoins, -⟩ := hrun calls
  exact ⟨hf, by decide +kernel, hx, hvx, congrFun (congrFun hjoins.covariance_eq 0) 3,
    by decide +kernel⟩

end Filter

end PlanarKalman
