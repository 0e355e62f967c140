import PlanarKalman.Proofs.Experiment.Tracking
import PlanarKalman.Proofs.Filter.Uncertainty

/-!
# What does not reach what in a run

Truth, noise and filter go through one loop, step by step, and two random sources feed
it. For a run that comes to its end the loop comes apart (`exists_course`): the true
positions are the path of the walk, the readings are these with the samples of the noise
source, the estimates are the answers of a new filter to the readings, and the record is
the three lists side by side.

Each list is a function of fewer parameters than the run is. So two completed runs with
the same sources agree on everything that a changed parameter does not go into
(`KeepsApart`): a filter is not seen by the readings, the noise of the sensor is not seen
by how sure the filter is, and the length of the walk is not seen by its beginning.
-/

namespace PlanarKalman

open NormalSource

variable {ρ τ α : Type} [Scalar α]

/-! ## The lists of a run -/

namespace ExperimentConfig

variable [NormalSource ρ α] [NormalSource τ α]

/-- What the sensor reads in each step. -/
def readings (c : ExperimentConfig α) (walkSource : τ) (noise : ρ) : List (Point α) :=
  Sensor.readings ⟨c.deviation⟩ noise (c.truths walkSource)

@[simp] theorem length_readings (c : ExperimentConfig α) (walkSource : τ) (noise : ρ) :
    (c.readings walkSource noise).length = c.walk.steps := by
  rw [readings, Sensor.length_readings, length_truths]

end ExperimentConfig

theorem Sensor.readings_append [NormalSource ρ α] (s : Sensor α) (noise : ρ)
    (truths more : List (Point α)) :
    ∃ later, s.readings noise (truths ++ more) = s.readings noise truths ++ later := by
  rw [readings, List.mapIdx_append]
  exact ⟨_, rfl⟩

namespace Tracked

variable [SquareRoot α]

/-- A step adds an entry to the errors, and its squares to their sums. -/
theorem isBalanced_pushAll {t : Tracked α} (h : t.errors.IsBalanced)
    (steps : List (Point α × Point α × Estimate α)) : (t.pushAll steps).errors.IsBalanced := by
  induction steps generalizing t with
  | nil => exact h
  | cons s rest ih => exact ih (h.push _ _)

/-- The record of lists that stand side by side. -/
def ofLists (truths readings : List (Point α)) (estimates : List (Estimate α)) : Tracked α :=
  empty.pushAll (truths.zip (readings.zip estimates))

/-- The first record and the first errors are the beginning of the others. -/
structure IsBeginningOf (t t' : Tracked α) : Prop where
  records : t.recording.toList <+: t'.recording.toList
  estimateErrors : t.errors.estimateErrors.toList <+: t'.errors.estimateErrors.toList
  readingErrors : t.errors.readingErrors.toList <+: t'.errors.readingErrors.toList

theorem isBeginningOf_pushAll {steps steps' : List (Point α × Point α × Estimate α)}
    (h : steps <+: steps') (t : Tracked α) :
    (t.pushAll steps).IsBeginningOf (t.pushAll steps') := by
  obtain ⟨more, rfl⟩ := h
  constructor
  · rw [records_pushAll, records_pushAll, List.map_append, ← List.append_assoc]
    exact List.prefix_append _ _
  · rw [estimateErrors_pushAll, estimateErrors_pushAll, List.map_append, ← List.append_assoc]
    exact List.prefix_append _ _
  · rw [readingErrors_pushAll, readingErrors_pushAll, List.map_append, ← List.append_assoc]
    exact List.prefix_append _ _

/-- What is recorded behind a record leaves it as it is. -/
theorem isBeginningOf_ofLists_append {truths readings : List (Point α)}
    {estimates : List (Estimate α)} (hreadings : readings.length = truths.length)
    (hestimates : estimates.length = truths.length) (more later : List (Point α))
    (others : List (Estimate α)) :
    (ofLists truths readings estimates).IsBeginningOf
      (ofLists (truths ++ more) (readings ++ later) (estimates ++ others)) := by
  refine isBeginningOf_pushAll ?_ .empty
  rw [List.zip_append (by rw [hreadings, hestimates]),
    List.zip_append (by rw [List.length_zip, hreadings, hestimates, Nat.min_self])]
  exact List.prefix_append _ _

/-- The same target was seen through the same sensor. -/
structure SameReadings (t t' : Tracked α) : Prop where
  truths_eq : t.recording.truths = t'.recording.truths
  readings_eq : t.recording.readings = t'.recording.readings
  readingErrors_eq : t.errors.readingErrors.toList = t'.errors.readingErrors.toList
  readingRmse_eq : t.errors.readingRmse = t'.errors.readingRmse

theorem sameReadings_ofLists {truths readings : List (Point α)}
    {estimates estimates' : List (Estimate α)} (hreadings : readings.length = truths.length)
    (hestimates : estimates.length = truths.length)
    (hestimates' : estimates'.length = truths.length) :
    (ofLists truths readings estimates).SameReadings (ofLists truths readings estimates') := by
  have h := isRecordOf_pushAll_zip hreadings hestimates
  have h' := isRecordOf_pushAll_zip hreadings hestimates'
  have herrors := h.readingErrors_eq.trans h'.readingErrors_eq.symm
  refine ⟨h.truths_eq.trans h'.truths_eq.symm, h.readings_eq.trans h'.readings_eq.symm,
    herrors, ?_⟩
  have hbalanced := isBalanced_pushAll (t := empty) ErrorStats.isBalanced_empty
    (truths.zip (readings.zip estimates))
  have hbalanced' := isBalanced_pushAll (t := empty) ErrorStats.isBalanced_empty
    (truths.zip (readings.zip estimates'))
  exact (hbalanced.readingRmse_eq.trans
    (congrArg ErrorStats.rootMeanSquare herrors)).trans hbalanced'.readingRmse_eq.symm

end Tracked

/-- With an estimate for each step the record has all three lists in it. -/
theorem ExperimentConfig.isRecordOf_ofLists [SquareRoot α] [NormalSource ρ α] [NormalSource τ α]
    (c : ExperimentConfig α) (walkSource : τ) (noise : ρ) {estimates : List (Estimate α)}
    (hlength : estimates.length = c.walk.steps) :
    (Tracked.ofLists (c.truths walkSource) (c.readings walkSource noise) estimates).IsRecordOf
      (c.truths walkSource) (c.readings walkSource noise) estimates := by
  apply Tracked.isRecordOf_pushAll_zip
  · rw [length_readings, length_truths]
  · rw [hlength, length_truths]

/-! ## Completed runs -/

namespace Experiment

variable [SmallestEigenvalue α] [SquareRoot α] [NormalSource ρ α] [NormalSource τ α]
  {config config' : ExperimentConfig α} {e e' : Experiment α} {walkSource : τ} {noise : ρ}
  {t t' : Tracked α}

/-- A run that comes to its end: the filter takes in all readings, and the record is made
of the true positions, the readings and the estimates. -/
theorem exists_course (he : (create config).1 = .ok e)
    (hok : (e.runWith walkSource noise).result = .ok t) :
    (e.runWith walkSource noise).noise = advance α noise (2 * config.walk.steps) ∧
    ∃ f estimates, Filter.create config.filter = .ok f ∧
      f.steps (config.readings walkSource noise) = (estimates, none) ∧
      estimates.length = config.walk.steps ∧
      t = .ofLists (config.truths walkSource) (config.readings walkSource noise) estimates := by
  rw [runWith_eq_track he] at hok ⊢
  obtain ⟨-, -, ⟨f, hf⟩, rfl⟩ := validate_eq_ok_iff.mp (create_eq_ok_iff.mp he)
  rw [track_eq_follow hf] at hok ⊢
  rcases hsteps : f.steps (config.readings walkSource noise) with ⟨estimates, _ | failure⟩
  · obtain ⟨hresult, hnoise, -, hlength⟩ := follow_of_steps_none hsteps .empty
      #[.started config.seed config.deviation]
    rw [ExperimentConfig.length_truths] at hnoise hlength
    exact ⟨hnoise, f, estimates, hf, hsteps, hlength, Except.ok.inj (hok.symm.trans hresult)⟩
  · have hresult := (follow_of_steps_some hsteps .empty
      #[.started config.seed config.deviation]).1
    cases hok.symm.trans hresult

/-- A filter is not seen by the sensor. -/
theorem sameReadings_of_filter {filter : FilterConfig α}
    (he : (create config).1 = .ok e) (he' : (create { config with filter }).1 = .ok e')
    (hok : (e.runWith walkSource noise).result = .ok t)
    (hok' : (e'.runWith walkSource noise).result = .ok t') :
    t.SameReadings t' ∧
      (e.runWith walkSource noise).noise = (e'.runWith walkSource noise).noise := by
  obtain ⟨hnoise, f, estimates, -, -, hlength, rfl⟩ := exists_course he hok
  obtain ⟨hnoise', f', estimates', -, -, hlength', rfl⟩ := exists_course he' hok'
  refine ⟨?_, hnoise.trans hnoise'.symm⟩
  apply Tracked.sameReadings_ofLists <;> simp [hlength, hlength']

/-- How noisy the sensor is makes no filter more or less sure. -/
theorem sameUncertainty_of_deviation {deviation : α}
    (he : (create config).1 = .ok e) (he' : (create { config with deviation }).1 = .ok e')
    (hok : (e.runWith walkSource noise).result = .ok t)
    (hok' : (e'.runWith walkSource noise).result = .ok t') :
    t.recording.truths = t'.recording.truths ∧
      t.final.map Estimate.covariance = t'.final.map Estimate.covariance ∧
      (e.runWith walkSource noise).noise = (e'.runWith walkSource noise).noise := by
  obtain ⟨hnoise, f, estimates, hf, hsteps, hlength, rfl⟩ := exists_course he hok
  obtain ⟨hnoise', f', estimates', hf', hsteps', hlength', rfl⟩ := exists_course he' hok'
  have hsure := Filter.sameUncertainty_of_create hf hf' rfl
  have hreadings : (config.readings walkSource noise).length
      = ({ config with deviation }.readings walkSource noise).length := by simp
  obtain ⟨hcovariances, -⟩ := hsure.steps hreadings
  rw [hsteps, hsteps'] at hcovariances
  have h := config.isRecordOf_ofLists walkSource noise hlength
  have h' := { config with deviation }.isRecordOf_ofLists walkSource noise hlength'
  refine ⟨h.truths_eq.trans h'.truths_eq.symm, ?_, hnoise.trans hnoise'.symm⟩
  rw [h.final_eq, ← List.getLast?_map, hcovariances, List.getLast?_map, ← h'.final_eq]

/-- How long a walk goes on is not seen at its beginning. -/
theorem isBeginningOf_of_steps {steps : Nat} (hle : config.walk.steps ≤ steps)
    (he : (create config).1 = .ok e)
    (he' : (create { config with walk := { config.walk with steps } }).1 = .ok e')
    (hok : (e.runWith walkSource noise).result = .ok t)
    (hok' : (e'.runWith walkSource noise).result = .ok t') : t.IsBeginningOf t' := by
  obtain ⟨-, f, estimates, hf, hsteps, hlength, rfl⟩ := exists_course he hok
  obtain ⟨-, f', estimates', hf', hsteps', -, rfl⟩ := exists_course he' hok'
  obtain rfl : f = f' := Except.ok.inj (hf.symm.trans hf')
  obtain ⟨more, hmore⟩ := config.walk.path_isPrefix walkSource hle
  have htruths : ({ config with walk := { config.walk with steps } } : ExperimentConfig α).truths
      walkSource = config.truths walkSource ++ more.map State.position := by
    rw [ExperimentConfig.truths, ← hmore, List.map_append]
    rfl
  obtain ⟨later, hlater⟩ := Sensor.readings_append ⟨config.deviation⟩ noise
    (config.truths walkSource) (more.map State.position)
  have hreadings : ({ config with walk := { config.walk with steps } } :
      ExperimentConfig α).readings walkSource noise
        = config.readings walkSource noise ++ later := by
    rw [ExperimentConfig.readings, htruths]
    exact hlater
  rw [hreadings, Filter.steps_append_of_none hsteps] at hsteps'
  obtain rfl := congrArg Prod.fst hsteps'
  rw [htruths, hreadings]
  apply Tracked.isBeginningOf_ofLists_append <;> simp [hlength]

end Experiment

/-! ## Two runs -/

/-- What two completed runs have in common when one part of the parameters differs. -/
structure Report.KeepsApart [SquareRoot α] (config config' : ExperimentConfig α)
    (report report' : Report ρ α) (t t' : Tracked α) : Prop where
  filter : config' = { config with filter := config'.filter } →
    t.SameReadings t' ∧ report.noise = report'.noise
  deviation : config' = { config with deviation := config'.deviation } →
    t.recording.truths = t'.recording.truths ∧
    t.final.map Estimate.covariance = t'.final.map Estimate.covariance ∧
    report.noise = report'.noise
  steps : config' = { config with walk := { config.walk with steps := config'.walk.steps } } →
    config.walk.steps ≤ config'.walk.steps → t.IsBeginningOf t'

namespace Experiment

variable [SmallestEigenvalue α] [SquareRoot α] [NormalSource ρ α] [NormalSource τ α]
  {config config' : ExperimentConfig α} {e e' : Experiment α} {t t' : Tracked α}

theorem runWith_keepsApart (he : (create config).1 = .ok e) (he' : (create config').1 = .ok e')
    {walkSource : τ} {noise : ρ} (hok : (e.runWith walkSource noise).result = .ok t)
    (hok' : (e'.runWith walkSource noise).result = .ok t') :
    Report.KeepsApart config config' (e.runWith walkSource noise)
      (e'.runWith walkSource noise) t t' where
  filter hconfig := by
    rw [hconfig] at he'
    exact sameReadings_of_filter he he' hok hok'
  deviation hconfig := by
    rw [hconfig] at he'
    exact sameUncertainty_of_deviation he he' hok hok'
  steps hconfig hle := by
    rw [hconfig] at he'
    exact isBeginningOf_of_steps hle he he' hok hok'

/-- Of two experiments that differ in one part of their parameters, completed runs with
equal sources, or with those of the seed, agree on what that part does not go into: with
another filter on the true positions, the readings and their errors; with another noise
of the sensor on the true positions and on how sure the filter is in the end; with
another length on the records and errors of the shorter one. -/
theorem information_flow {config config' : ExperimentConfig Float} {e e' : Experiment Float}
    (he : (create config).1 = .ok e) (he' : (create config').1 = .ok e') :
    (∀ t t', e.run.result = .ok t → e'.run.result = .ok t' →
      Report.KeepsApart config config' e.run e'.run t t') ∧
    ∀ {ρ τ : Type} [NormalSource ρ Float] [NormalSource τ Float] (walkSource : τ) (noise : ρ)
      (t t' : Tracked Float), (e.runWith walkSource noise).result = .ok t →
        (e'.runWith walkSource noise).result = .ok t' →
        Report.KeepsApart config config' (e.runWith walkSource noise)
          (e'.runWith walkSource noise) t t' := by
  refine ⟨fun t t' hok hok' => ?_, fun _ _ _ _ => runWith_keepsApart he he'⟩
  by_cases hseed : config.seed = config'.seed
  · have hconfig : e.config = config := by
      obtain ⟨-, -, -, rfl⟩ := validate_eq_ok_iff.mp (create_eq_ok_iff.mp he)
      rfl
    have hconfig' : e'.config = config' := by
      obtain ⟨-, -, -, rfl⟩ := validate_eq_ok_iff.mp (create_eq_ok_iff.mp he')
      rfl
    have hrun : e'.run = e'.runWith (sourcesOfSeed e.config.seed).1
        (sourcesOfSeed e.config.seed).2 := by
      rw [hconfig, hseed, ← hconfig']
      rfl
    rw [hrun] at hok' ⊢
    exact runWith_keepsApart he he' hok hok'
  · -- parts of the parameters other than the seed are all that the runs may differ in
    constructor <;> intro hconfig <;> exact absurd (congrArg (·.seed) hconfig).symm hseed

/-- A walk of two states, followed by the filter of the demonstration. -/
def twoStepConfig : ExperimentConfig Float where
  walk := ⟨2, 1, 2⟩
  deviation := 0.5
  filter := .demonstration
  seed := 0

/-- The filter that takes its sensor to be exact is shown the same. -/
theorem information_flow_of_twoStep :
    ∃ e e', (create twoStepConfig).1 = .ok e ∧
      (create { twoStepConfig with filter := noiselessConfig.filter }).1 = .ok e' ∧
      ∃ t t', (e.runWith (Replay.mk []) noiselessSource).result = .ok t ∧
        (e'.runWith (Replay.mk []) noiselessSource).result = .ok t' ∧
        t.SameReadings t' ∧ (e'.runWith (Replay.mk []) noiselessSource).noise
          = ⟨[0xa000000000000002, 0x9000000000000003, 7]⟩ := by
  have he : (create twoStepConfig).1 = .ok ⟨twoStepConfig, ⟨0.5⟩⟩ := rfl
  have he' : (create { twoStepConfig with filter := noiselessConfig.filter }).1
      = .ok ⟨{ twoStepConfig with filter := noiselessConfig.filter }, ⟨0.5⟩⟩ := rfl
  obtain ⟨t, hok⟩ : ∃ t, (runWith ⟨twoStepConfig, ⟨0.5⟩⟩ (Replay.mk []) noiselessSource).result
      = .ok t := Validation.exists_ok_of_isOk (by decide +kernel)
  obtain ⟨t', hok'⟩ : ∃ t', (runWith ⟨{ twoStepConfig with filter := noiselessConfig.filter },
      ⟨0.5⟩⟩ (Replay.mk []) noiselessSource).result = .ok t' :=
    Validation.exists_ok_of_isOk (by decide +kernel)
  obtain ⟨hsame, hnoise⟩ := ((information_flow he he').2 (Replay.mk []) noiselessSource t t'
    hok hok').filter rfl
  have hleft : advance Float noiselessSource (2 * twoStepConfig.walk.steps)
      = ⟨[0xa000000000000002, 0x9000000000000003, 7]⟩ := by decide +kernel
  exact ⟨_, _, he, he', t, t', hok, hok', hsame,
    hnoise.symm.trans ((exists_course he hok).1.trans hleft)⟩

end Experiment

end PlanarKalman
