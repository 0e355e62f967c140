import PlanarKalman.Proofs.Experiment.Tracking
import PlanarKalman.Proofs.Filter.Protocol

/-!
# How an experiment fails

Parameters are refused once, when the experiment is set up, for the first of them that is
at fault (`FirstFault`). Whatever passed there passes again inside a run, which creates
its walk and its filter anew from the same parameters, so no run ends with a fault of the
parameters.

What is left is the filter's answer to a reading. The loop only ever takes steps, and a
step predicts first, so its update is awaited and is not turned away; it fails when the
innovation covariance has no inverse and for no other reason. That a step is never turned
away also means that a strict filter is as good as a permissive one, and the reports of
both are the same.
-/

namespace PlanarKalman

open Validation

variable {ρ τ α : Type} [Scalar α]

/-! ## Parameters at fault -/

namespace WalkConfig

structure InRange (c : WalkConfig α) : Prop where
  steps_ne_zero : c.steps ≠ 0
  stepSize_positive : IsPositive c.stepSize
  maxVelocity_positive : IsPositive c.maxVelocity

/-- The first parameter of a walk that is out of range, with what was found. -/
inductive FirstFault (c : WalkConfig α) : WalkFault α → Prop
  | noSteps (hsteps : c.steps = 0) : FirstFault c .noSteps
  | stepSize (hsteps : c.steps ≠ 0) (hsize : ¬ IsPositive c.stepSize) :
      FirstFault c (.stepSize c.stepSize)
  | maxVelocity (hsteps : c.steps ≠ 0) (hsize : IsPositive c.stepSize)
      (hmax : ¬ IsPositive c.maxVelocity) : FirstFault c (.maxVelocity c.maxVelocity)

variable {c : WalkConfig α}

theorem validate_eq_ok_iff {u : Unit} : c.validate = .ok u ↔ c.InRange := by
  constructor
  · intro h
    unfold validate at h
    split_ifs at h with hsteps hsize hmax
    exact ⟨hsteps, hsize, hmax⟩
  · rintro ⟨hsteps, hsize, hmax⟩
    simp [validate, hsteps, hsize, hmax]

theorem validate_eq_error_iff {fault : WalkFault α} :
    c.validate = .error fault ↔ c.FirstFault fault := by
  constructor
  · intro h
    by_cases hsteps : c.steps = 0
    · obtain rfl : .noSteps = fault := by simpa [validate, hsteps] using h
      exact .noSteps hsteps
    by_cases hsize : IsPositive c.stepSize
    · by_cases hmax : IsPositive c.maxVelocity
      · simp [validate, hsteps, hsize, hmax] at h
      · obtain rfl : .maxVelocity c.maxVelocity = fault := by
          simpa [validate, hsteps, hsize, hmax] using h
        exact .maxVelocity hsteps hsize hmax
    · obtain rfl : .stepSize c.stepSize = fault := by
        simpa [validate, hsteps, hsize] using h
      exact .stepSize hsteps hsize
  · rintro (hsteps | ⟨hsteps, hsize⟩ | ⟨hsteps, hsize, hmax⟩)
    · simp [validate, hsteps]
    · simp [validate, hsteps, hsize]
    · simp [validate, hsteps, hsize, hmax]

end WalkConfig

theorem Sensor.create_eq_error_iff {deviation : α} {fault : SensorFault α} :
    Sensor.create deviation = .error fault ↔ ¬ IsNonNegative deviation ∧ ⟨deviation⟩ = fault := by
  unfold Sensor.create
  split <;> simp_all

namespace ExperimentConfig

variable [SmallestEigenvalue α]

/-- What the parameters of an experiment are refused for: the fault of the first part that
has one, in the order walk, sensor, filter. -/
inductive FirstFault (config : ExperimentConfig α) : ExperimentError α → Prop
  | walk {fault : WalkFault α} (hwalk : config.walk.FirstFault fault) :
      FirstFault config (.walk fault)
  | sensor (hwalk : config.walk.InRange) (hdeviation : ¬ IsNonNegative config.deviation) :
      FirstFault config (.sensor ⟨config.deviation⟩)
  | filter {error : FilterError α} (hwalk : config.walk.InRange)
      (hdeviation : IsNonNegative config.deviation)
      (hfilter : Filter.create config.filter = .error error) :
      FirstFault config (.filter error)

end ExperimentConfig

namespace Experiment

variable [SmallestEigenvalue α] {config : ExperimentConfig α}

theorem validate_eq_error_iff {error : ExperimentError α} :
    validate config = .error error ↔ config.FirstFault error := by
  simp only [validate, bind_eq_error_iff, mapError_eq_error_iff, mapError_eq_ok_iff,
    discard_eq_error_iff, WalkConfig.validate_eq_error_iff, WalkConfig.validate_eq_ok_iff,
    Sensor.create_eq_error_iff, Sensor.create_eq_ok_iff]
  constructor
  · rintro (⟨_, hwalk, rfl⟩ | ⟨_, hwalk, ⟨_, ⟨hdeviation, rfl⟩, rfl⟩ |
      ⟨_, ⟨hdeviation, rfl⟩, ⟨_, hfilter, rfl⟩ | ⟨_, -, hnone⟩⟩⟩)
    · exact .walk hwalk
    · exact .sensor hwalk hdeviation
    · exact .filter hwalk hdeviation hfilter
    · cases hnone
  · rintro (hwalk | ⟨hwalk, hdeviation⟩ | ⟨hwalk, hdeviation, hfilter⟩)
    · exact Or.inl ⟨_, hwalk, rfl⟩
    · exact Or.inr ⟨(), hwalk, Or.inl ⟨_, ⟨hdeviation, rfl⟩, rfl⟩⟩
    · exact Or.inr ⟨(), hwalk, Or.inr ⟨_, ⟨hdeviation, rfl⟩, Or.inl ⟨_, hfilter, rfl⟩⟩⟩

theorem create_eq_error_iff {error : ExperimentError α} :
    (create config).1 = .error error ↔ config.FirstFault error := by
  rw [← validate_eq_error_iff]
  unfold create
  cases validate config with
  | error fault => simp
  | ok e => simp

/-- Without a fault there is an experiment, with the parameters as they were given. -/
theorem create_of_no_fault (h : ¬ ∃ error, config.FirstFault error) :
    (create config).1 = .ok ⟨config, ⟨config.deviation⟩⟩ := by
  cases hresult : (create config).1 with
  | error error => exact absurd ⟨error, create_eq_error_iff.mp hresult⟩ h
  | ok e =>
      obtain ⟨-, -, -, rfl⟩ := validate_eq_ok_iff.mp (create_eq_ok_iff.mp hresult)
      rfl

end Experiment

/-! ## Steps -/

namespace Filter

/-- A prediction comes first, so a step is never turned away. -/
theorem step_eq_error {f g : Filter α} {z : Point α} {error : FilterError α}
    (h : f.step z = (g, .error error)) : error = .singularInnovation := by
  cases hupdate : f.predict.update z with
  | ok next =>
      rw [step, attempt_of_ok hupdate] at h
      cases h
  | error error' =>
      rw [step, attempt_of_error hupdate] at h
      obtain rfl : error' = error := Except.error.inj (Prod.mk.inj h).2
      rcases update_eq_error_iff.mp hupdate with ⟨hrefused, -⟩ | ⟨-, -, rfl⟩
      · rw [f.admitsUpdate_predict] at hrefused
        cases hrefused
      · rfl

theorem step_permissive (f : Filter α) (z : Point α) :
    f.permissive.step z = ((f.step z).1.permissive, (f.step z).2) :=
  attempt_permissive f.admitsUpdate_predict z

/-- The same filter, insisting on the order of its calls or not. -/
def withStrict (f : Filter α) (strict : Bool) : Filter α :=
  { f with config := { f.config with strict } }

/-- Whether a filter is to be strict is not looked at when it is created. -/
theorem create_withStrict [SmallestEigenvalue α] (config : FilterConfig α) (strict : Bool) :
    create { config with strict } = (create config).map (·.withStrict strict) := by
  have hresolve : ({ config with strict } : FilterConfig α).resolve = config.resolve := rfl
  unfold create
  rw [hresolve]
  cases config.resolve <;> rfl

end Filter

/-! ## Runs -/

/-- A report of a run that took `steps` steps to its end, or that met a reading whose
expected variation has no inverse. -/
def Report.IsSettled (report : Report ρ α) (steps : Nat) : Prop :=
  (∃ tracked, report.result = .ok tracked ∧ tracked.recording.length = steps) ∨
  report.result = .error (.filter .singularInnovation)

/-- The same parameters, but for whether the filter insists on the order of its calls. -/
def ExperimentConfig.withStrict (config : ExperimentConfig α) (strict : Bool) :
    ExperimentConfig α :=
  { config with filter := { config.filter with strict } }

namespace Experiment

def withStrict (e : Experiment α) (strict : Bool) : Experiment α :=
  { e with config := e.config.withStrict strict }

section Loop

variable [SquareRoot α] [NormalSource ρ α]

theorem follow_isSettled (sensor : Sensor α) (f : Filter α) (tracked : Tracked α)
    (events : Array (Event α)) (noise : ρ) (truths : List (Point α)) :
    (follow sensor f tracked events noise truths).IsSettled
      (tracked.recording.length + truths.length) := by
  induction truths generalizing f tracked events noise with
  | nil => exact Or.inl ⟨tracked, rfl, rfl⟩
  | cons truth rest ih =>
      rcases hstep : f.step (sensor.read truth noise).1 with ⟨g, error | estimate⟩
      · rw [follow_cons_of_error hstep, Filter.step_eq_error hstep]
        exact Or.inr rfl
      · have hlength : tracked.recording.length + (truth :: rest).length
            = (tracked.push truth (sensor.read truth noise).1 estimate).recording.length
              + rest.length := by
          rw [Tracked.push, Recording.length_push, List.length_cons]
          omega
        rw [follow_cons_of_ok hstep, hlength]
        exact ih g _ _ _

/-- The loop takes steps only, so it cannot tell a strict filter from a permissive one. -/
theorem follow_permissive (sensor : Sensor α) (f : Filter α) (tracked : Tracked α)
    (events : Array (Event α)) (noise : ρ) (truths : List (Point α)) :
    follow sensor f.permissive tracked events noise truths
      = follow sensor f tracked events noise truths := by
  induction truths generalizing f tracked events noise with
  | nil => rfl
  | cons truth rest ih =>
      have hpermissive := f.step_permissive (sensor.read truth noise).1
      rcases hstep : f.step (sensor.read truth noise).1 with ⟨g, error | estimate⟩ <;>
        rw [hstep] at hpermissive
      · rw [follow_cons_of_error hstep, follow_cons_of_error hpermissive]
      · rw [follow_cons_of_ok hstep, follow_cons_of_ok hpermissive, ih]

end Loop

variable [SmallestEigenvalue α]

theorem create_withStrict (config : ExperimentConfig α) (strict : Bool) :
    (create (config.withStrict strict)).1 = (create config).1.map (·.withStrict strict) := by
  have hfilter := Filter.create_withStrict config.filter strict
  unfold create validate
  simp only [ExperimentConfig.withStrict, hfilter]
  cases config.walk.validate with
  | error fault => rfl
  | ok u =>
      cases Sensor.create config.deviation with
      | error fault => rfl
      | ok sensor => cases Filter.create config.filter <;> rfl

variable [SquareRoot α] [NormalSource ρ α] [NormalSource τ α] {config : ExperimentConfig α}
  {e : Experiment α}

theorem track_withStrict (e : Experiment α) (strict : Bool) (truths : List (Point α))
    (noise : ρ) : (e.withStrict strict).track truths noise = e.track truths noise := by
  have hcreate : Filter.create (e.withStrict strict).config.filter
      = (Filter.create e.config.filter).map (·.withStrict strict) :=
    Filter.create_withStrict _ _
  unfold track
  rw [hcreate]
  cases Filter.create e.config.filter with
  | error error => rfl
  | ok f =>
      -- neither filter is told from the permissive one, which is the same for both
      refine (follow_permissive _ (f.withStrict strict) _ _ _ _).symm.trans ?_
      exact follow_permissive _ f _ _ _ _

theorem runWith_withStrict (e : Experiment α) (strict : Bool) (walkSource : τ) (noise : ρ) :
    (e.withStrict strict).runWith walkSource noise = e.runWith walkSource noise := by
  have hwalk : (e.withStrict strict).config.walk = e.config.walk := rfl
  unfold runWith
  rw [hwalk]
  cases Walk.create e.config.walk walkSource with
  | error fault => rfl
  | ok walk => exact e.track_withStrict strict _ _

theorem track_isSettled (he : (create config).1 = .ok e) (truths : List (Point α)) (noise : ρ) :
    (e.track truths noise).IsSettled truths.length := by
  obtain ⟨-, -, ⟨f, hf⟩, rfl⟩ := validate_eq_ok_iff.mp (create_eq_ok_iff.mp he)
  rw [track_eq_follow hf]
  exact Nat.zero_add truths.length ▸ follow_isSettled _ f .empty _ noise truths

theorem runWith_isSettled (he : (create config).1 = .ok e) (walkSource : τ) (noise : ρ) :
    (e.runWith walkSource noise).IsSettled config.walk.steps := by
  rw [runWith_eq_track he]
  have hsettled := track_isSettled he (config.truths walkSource) noise
  rwa [ExperimentConfig.length_truths] at hsettled

/-- The parameters are refused for the first part that is at fault, and nothing in them
makes a run fail later: a run comes to its end, with an entry for every true position, or
to an innovation covariance without an inverse. Whether the filter is strict makes no
difference to any of it. -/
theorem errors_eager (config : ExperimentConfig Float) :
    (∀ error, (create config).1 = .error error ↔ config.FirstFault error) ∧
    ((¬ ∃ error, config.FirstFault error) →
      (create config).1 = .ok ⟨config, ⟨config.deviation⟩⟩) ∧
    (∀ strict, (create (config.withStrict strict)).1
      = (create config).1.map (·.withStrict strict)) ∧
    ∀ e, (create config).1 = .ok e → ∀ strict : Bool,
      e.run.IsSettled config.walk.steps ∧ (e.withStrict strict).run = e.run ∧
      ∀ {ρ τ : Type} [NormalSource ρ Float] [NormalSource τ Float] (noise : ρ),
        (∀ truths, (e.track truths noise).IsSettled truths.length ∧
          (e.withStrict strict).track truths noise = e.track truths noise) ∧
        ∀ walkSource : τ, (e.runWith walkSource noise).IsSettled config.walk.steps ∧
          (e.withStrict strict).runWith walkSource noise = e.runWith walkSource noise := by
  refine ⟨fun error => create_eq_error_iff, create_of_no_fault, create_withStrict config, ?_⟩
  intro e he strict
  refine ⟨runWith_isSettled he _ _, e.runWith_withStrict strict _ _, ?_⟩
  intro ρ τ _ _ noise
  exact ⟨fun truths => ⟨track_isSettled he truths noise, e.track_withStrict strict truths noise⟩,
    fun walkSource => ⟨runWith_isSettled he walkSource noise,
      e.runWith_withStrict strict walkSource noise⟩⟩

/-- Of two faults the walk's is reported. A strict filter that becomes certain fails like
the permissive one, and no other way. -/
theorem errors_eager_of_noiseless :
    (create { noiselessConfig with walk := ⟨0, 1, 1⟩, deviation := -1 }).1
      = .error (.walk .noSteps) ∧
    ∃ e, (create (noiselessConfig.withStrict true)).1 = .ok e ∧
      (e.track noiselessTruths noiselessSource).result = .error (.filter .singularInnovation) ∧
      (e.run.result = .error (.filter .singularInnovation) ∨
        ∃ tracked, e.run.result = .ok tracked ∧ tracked.recording.length = 3000) := by
  have hrefused := (errors_eager
    { noiselessConfig with walk := ⟨0, 1, 1⟩, deviation := -1 }).1 (.walk .noSteps)
  have he : (create noiselessConfig).1 = .ok ⟨noiselessConfig, ⟨0.5⟩⟩ := rfl
  have hf : Filter.create noiselessConfig.filter = .ok noiselessFilter := rfl
  obtain ⟨-, -, hstrict, hruns⟩ := errors_eager noiselessConfig
  obtain ⟨hrun, hsame, htracks⟩ := hruns _ he true
  obtain ⟨-, htrack⟩ := (htracks (τ := Replay) noiselessSource).1 noiselessTruths
  obtain ⟨estimates, hsteps, -⟩ := steps_noiseless
  refine ⟨hrefused.mpr (.walk (.noSteps rfl)), _, by rw [hstrict true, he]; rfl, ?_, ?_⟩
  · rw [htrack, track_eq_follow hf]
    exact (follow_of_steps_some hsteps .empty _).1
  · rw [hsame]
    exact hrun.symm

end Experiment

end PlanarKalman
