import PlanarKalman.Proofs.Rounding.Operations
import PlanarKalman.Proofs.Filter.Creation
import PlanarKalman.Proofs.Matrix.Entries

/-!
# Which filters are made of finite numbers

Validation looks at each parameter by itself, and what it lets through is finite. The matrices
of a filter are these parameters, or multiples of a matrix of ones and zeros, with one
exception: the process noise of an acceleration is computed from two of them, by products that
can overflow. Nothing looks at the matrix that comes out.

The entry that overflows first is that of the positions
(`Motion.isFinite_accelerationNoise_iff`). With a time step of at most one none does, because
no power of the time step is larger than one. With a longer time step the powers do not
decrease, and neither do their products with the variance. Rounding keeps to both.
-/

namespace PlanarKalman

/-! ## Powers of a time step -/

section Float

variable {a b v p dt : Float}

theorem isFinite_mul_of_left_le_one (ha : a.isFinite = true) (hb : b.isFinite = true)
    (hle : size a ≤ 1) : (a * b).isFinite = true :=
  (isFinite_mul_of_le ha hb hb (mul_le_of_le_one_left (size_nonneg hb) hle)).1

theorem isFinite_mul_of_right_le_one (ha : a.isFinite = true) (hb : b.isFinite = true)
    (hle : size b ≤ 1) : (a * b).isFinite = true ∧ size (a * b) ≤ size a :=
  isFinite_mul_of_le ha hb ha (mul_le_of_le_one_right (size_nonneg ha) hle)

theorem isFinite_mul_le_one (ha : a.isFinite = true ∧ size a ≤ 1)
    (hb : b.isFinite = true ∧ size b ≤ 1) : (a * b).isFinite = true ∧ size (a * b) ≤ 1 :=
  (isFinite_mul_of_right_le_one ha.1 hb.1 hb.2).imp_right (·.trans ha.2)

/-- The powers of a time step of at most one. -/
theorem isFinite_powers_le_one (hdt : dt.isFinite = true) (hle : size dt ≤ 1) :
    size (dt * dt) ≤ 1 ∧ size (dt * dt * dt) ≤ 1 ∧
      (dt * dt * dt * dt).isFinite = true ∧ size (dt * dt * dt * dt) ≤ 1 := by
  have hsquare := isFinite_mul_le_one ⟨hdt, hle⟩ ⟨hdt, hle⟩
  have hcube := isFinite_mul_le_one hsquare ⟨hdt, hle⟩
  exact ⟨hsquare.2, hcube.2, isFinite_mul_le_one hcube ⟨hdt, hle⟩⟩

theorem size_le_one (hpos : 0 < dt) (hle : dt ≤ 1) : size dt ≤ 1 := by
  have hone : size (1 : Float) = 1 := by decide +kernel
  rw [← hone]
  exact size_le_size (by decide +kernel) hpos hle

/-- One time step less. If it is at most one, so is the power that it is taken off, and the
variance times that power is no larger than the variance. A longer time step leaves a smaller
power. -/
theorem isFinite_mul_of_power (hv : v.isFinite = true) (hp : size dt ≤ 1 → size p ≤ 1)
    (h : (v * (p * dt)).isFinite = true) : (v * p).isFinite = true := by
  have hpower := (isFinite_of_mul h).2
  obtain ⟨hpfinite, hdt⟩ := isFinite_of_mul hpower
  rcases le_total (size dt) 1 with hle | hge
  · exact (isFinite_mul_of_right_le_one hv hpfinite (hp hle)).1
  · refine isFinite_mul_mono hv hpfinite (le_size_mul hpfinite hdt hpfinite ?_ hpower) h
    exact le_mul_of_one_le_right (size_nonneg hpfinite) hge

/-! ## The matrices of a filter -/

/-- The process noise of an acceleration is finite when the variance times the fourth power of
the time step is. -/
theorem Motion.isFinite_accelerationNoise_iff (hdt : dt.isFinite = true) (hv : v.isFinite = true) :
    (accelerationNoise dt v).isFinite = true ↔ (v * (dt * dt * dt * dt)).isFinite = true := by
  rw [Mat.isFinite_iff]
  constructor
  · intro h
    have hentry : accelerationNoise dt v 0 0 = v * (dt * dt * dt * dt) / 4.0 := Mat.ofFn_apply ..
    have hposition := h 0 0
    rw [hentry] at hposition
    exact isFinite_of_div hposition
  · intro h i j
    have hcube := isFinite_mul_of_power hv (fun hle => (isFinite_powers_le_one hdt hle).2.1) h
    have hsquare := isFinite_mul_of_power hv (fun hle => (isFinite_powers_le_one hdt hle).1) hcube
    have hposition : (v * (dt * dt * dt * dt) / 4.0).isFinite = true :=
      isFinite_div h (by decide +kernel) (by decide +kernel)
    have hmixed : (v * (dt * dt * dt) / 2.0).isFinite = true :=
      isFinite_div hcube (by decide +kernel) (by decide +kernel)
    rw [accelerationNoise, Mat.ofFn_apply]
    split
    · split
      · exact hposition
      · exact hsquare
    · split
      · exact hmixed
      · rfl

theorem Motion.isFinite_transition (hdt : dt.isFinite = true) :
    (transition dt).isFinite = true := by
  rw [Mat.isFinite_iff]
  intro i j
  rw [transition, Mat.ofFn_apply]
  split
  · rfl
  · split
    · exact hdt
    · rfl

theorem isFinite_scale_identity {n : ℕ} (hv : v.isFinite = true) :
    (Mat.identity.scale v : Mat n n Float).isFinite = true := by
  rw [Mat.isFinite_iff]
  intro i j
  rw [Mat.scale_apply, Mat.identity_apply]
  split
  · exact isFinite_mul_of_left_le_one (by decide +kernel) hv (by decide +kernel)
  · exact isFinite_mul_of_left_le_one (by decide +kernel) hv (by decide +kernel)

theorem isFinite_restingAt {start : Point Float} (h : start.isFinite = true) :
    (State.restingAt start).toColumn.isFinite = true := by
  obtain ⟨hx, hy⟩ := Bool.and_eq_true_iff.mp h
  have hrest : Scalar.isFinite (0 : Float) = true := by decide +kernel
  rw [Mat.isFinite_iff]
  intro i j
  rw [State.toColumn, Mat.column, Mat.ofFn_apply]
  split
  · exact hx
  · split
    · exact hy
    · split <;> exact hrest

/-! ## Filters -/

namespace Filter

theorem isFinite_of_resolveCovariance {parameter : CovarianceParameter} {size : ℕ}
    {form : CovarianceForm Float} {A : Mat size size Float}
    (h : FilterConfig.resolveCovariance parameter size form = .ok A) : A.isFinite = true := by
  cases form with
  | uniform variance =>
      obtain ⟨hvariance, rfl⟩ := FilterConfig.resolveCovariance_uniform_eq_ok_iff.mp h
      exact isFinite_scale_identity hvariance.1
  | full rows columns entries => exact (FilterConfig.resolveFull_eq_ok_iff.mp h).2.1

theorem isFinite_resolveProcessNoise_iff {dt : Float} (hdt : dt.isFinite = true)
    {form : ProcessNoiseForm Float} {A : Mat 4 4 Float}
    (h : FilterConfig.resolveProcessNoise dt form = .ok A) :
    A.isFinite = true ↔ ∀ variance, form = .acceleration variance →
      (variance * (dt * dt * dt * dt)).isFinite = true := by
  cases form with
  | acceleration variance =>
      obtain ⟨hvariance, rfl⟩ := FilterConfig.resolveProcessNoise_acceleration_eq_ok_iff.mp h
      rw [Motion.isFinite_accelerationNoise_iff hdt hvariance.1]
      exact ⟨fun hfinite _ hform => ProcessNoiseForm.acceleration.inj hform ▸ hfinite,
        fun hall => hall variance rfl⟩
  | full rows columns entries =>
      exact iff_of_true (FilterConfig.resolveFull_eq_ok_iff.mp h).2.1 nofun

theorem isFinite_resolveProcessNoise_of_le_one {dt : Float} (hdt : IsPositive dt) (hle : dt ≤ 1)
    {form : ProcessNoiseForm Float} {A : Mat 4 4 Float}
    (h : FilterConfig.resolveProcessNoise dt form = .ok A) : A.isFinite = true := by
  rw [isFinite_resolveProcessNoise_iff hdt.1 h]
  rintro variance rfl
  obtain ⟨hvariance, -⟩ := FilterConfig.resolveProcessNoise_acceleration_eq_ok_iff.mp h
  have hsize := size_le_one (isPositive_float_iff.mp hdt).2 hle
  obtain ⟨-, -, hfourth, hfourth_le⟩ := isFinite_powers_le_one hdt.1 hsize
  exact (isFinite_mul_of_right_le_one hvariance.1 hfourth hfourth_le).1

/-- A filter that can be made starts from finite numbers, and all its matrices but one are
finite. The process noise is finite as well unless it is that of an acceleration and the
variance times the fourth power of the time step is not, which takes a time step above one. -/
theorem isFinite_of_create {config : FilterConfig Float} {f : Filter Float}
    (hf : create config = .ok f) :
    f.mean.isFinite = true ∧ f.covariance.isFinite = true ∧
      f.model.transition.isFinite = true ∧ f.model.measurementNoise.isFinite = true ∧
      (f.model.processNoise.isFinite = true ↔
        ∀ variance, config.processNoise = .acceleration variance →
          (variance * (config.timestep * config.timestep * config.timestep
            * config.timestep)).isFinite = true) ∧
      (config.timestep ≤ 1 → f.model.processNoise.isFinite = true) := by
  obtain ⟨covariances, hres, rfl⟩ := create_eq_ok_iff.mp hf
  obtain ⟨hdt, hstart, hinitial, hmeasurement, hprocess⟩ := FilterConfig.resolve_eq_ok_iff.mp hres
  exact ⟨isFinite_restingAt hstart, isFinite_of_resolveCovariance hinitial,
    Motion.isFinite_transition hdt.1, isFinite_of_resolveCovariance hmeasurement,
    isFinite_resolveProcessNoise_iff hdt.1 hprocess,
    fun hle => isFinite_resolveProcessNoise_of_le_one hdt hle hprocess⟩

/-! ## A time step that is too long

No acceleration at all is allowed for, and still the process noise is no number: the fourth
power of the time step overflows and is multiplied by zero. -/

def longStepConfig : FilterConfig Float where
  initialPosition := ⟨0, 0⟩
  initialCovariance := .uniform 50000
  measurementNoise := .uniform 64
  processNoise := .acceleration 0
  timestep := 1e100
  strict := false

def longStepFilter : Filter Float :=
  ofCovariances longStepConfig
    ⟨Mat.identity.scale 50000, Mat.identity.scale 64, Motion.accelerationNoise 1e100 0⟩

/-- The filter is made, and is of no use from the first prediction on. -/
theorem isFinite_of_create_of_longStep :
    create longStepConfig = .ok longStepFilter ∧
      longStepFilter.mean.isFinite = true ∧ longStepFilter.covariance.isFinite = true ∧
      longStepFilter.model.processNoise.isFinite = false ∧
      (longStepFilter.predict.covariance 0 0).isNaN = true := by
  have hf : create longStepConfig = .ok longStepFilter := by
    refine create_eq_ok_iff.mpr ⟨_, FilterConfig.resolve_eq_ok_iff.mpr ⟨?_, ?_, ?_, ?_, ?_⟩, rfl⟩
    · decide +kernel
    · decide +kernel
    · rfl
    · rfl
    · rfl
  obtain ⟨hmean, hcovariance, -, -, hprocess, -⟩ := isFinite_of_create hf
  refine ⟨hf, hmean, hcovariance, ?_, by decide +kernel⟩
  rw [Bool.eq_false_iff, Ne, hprocess]
  exact fun h => absurd (h 0 rfl) (by decide +kernel)

end Filter

end Float

end PlanarKalman
