import PlanarKalman.Proofs.Experiment.Flow

/-!
# A run does not look ahead

What a run makes of its first `k` true positions is settled by these positions and the first
`2 * k` samples. The reason is in the filter: its steps with the first readings are the first
of its steps with all readings, up to a failure, and behind a failure there is nothing
(`Filter.steps_append_of_none`, `Filter.steps_append_of_some`). So the beginning of a run is
one of two things, whatever follows it. Either one of its steps fails, and then every run that
begins so fails at that step; or none does, and then every run that begins so has the same
entries for these steps.

A prefix of the true positions is a beginning like any other, so what holds of prefixes and
extensions is read off the same theorem.
-/

namespace PlanarKalman

open NormalSource

variable {ρ τ α : Type} [Scalar α]

/-! ## Sources and readings -/

/-- Two sources give the same samples in their first draws. -/
def NormalSource.SameSamples (α : Type) [NormalSource ρ α] [NormalSource τ α] (noise : ρ)
    (noise' : τ) (count : Nat) : Prop :=
  ∀ i < count, sampleAt (α := α) noise i = sampleAt noise' i

/-- Readings of the same positions with the same samples. -/
theorem Sensor.readings_eq_of_sameSamples [NormalSource ρ α] [NormalSource τ α] (s : Sensor α)
    {noise : ρ} {noise' : τ} {truths : List (Point α)}
    (h : SameSamples α noise noise' (2 * truths.length)) :
    s.readings noise truths = s.readings noise' truths := by
  rw [readings, readings, List.mapIdx_eq_mapIdx_iff]
  intro i hi
  rw [h (2 * i) (by omega), h (2 * i + 1) (by omega)]

theorem Sensor.take_readings [NormalSource ρ α] (s : Sensor α) (noise : ρ)
    (truths : List (Point α)) (k : Nat) :
    (s.readings noise truths).take k = s.readings noise (truths.take k) := by
  obtain ⟨later, hlater⟩ := s.readings_append noise (truths.take k) (truths.drop k)
  rw [List.take_append_drop] at hlater
  rw [List.take_eq_take_min, s.length_readings, ← List.length_take,
    ← s.length_readings noise (truths.take k)]
  exact (List.prefix_iff_eq_take.mp ⟨later, hlater.symm⟩).symm

/-- The readings of the first positions are told by the first samples. -/
theorem Sensor.take_readings_eq [NormalSource ρ α] [NormalSource τ α] (s : Sensor α)
    {noise : ρ} {noise' : τ} {truths truths' : List (Point α)} {k : Nat}
    (htruths : truths.take k = truths'.take k) (hnoise : SameSamples α noise noise' (2 * k)) :
    (s.readings noise truths).take k = (s.readings noise' truths').take k := by
  rw [take_readings, take_readings, ← htruths]
  refine s.readings_eq_of_sameSamples fun i hi => hnoise i ?_
  have hle : (truths.take k).length ≤ k := List.length_take_le _ _
  omega

namespace Tracked

variable [SquareRoot α]

/-- The first `k` steps were recorded alike. -/
structure AgreesUpTo (t t' : Tracked α) (k : Nat) : Prop where
  records_eq : t.recording.toList.take k = t'.recording.toList.take k
  estimateErrors_eq :
    t.errors.estimateErrors.toList.take k = t'.errors.estimateErrors.toList.take k
  readingErrors_eq :
    t.errors.readingErrors.toList.take k = t'.errors.readingErrors.toList.take k

theorem agreesUpTo_pushAll {steps steps' : List (Point α × Point α × Estimate α)} {k : Nat}
    (h : steps.take k = steps'.take k) :
    (empty.pushAll steps).AgreesUpTo (empty.pushAll steps') k where
  records_eq := by
    rw [records_pushAll, records_pushAll]
    simp only [empty, Recording.toList_empty, List.nil_append, ← List.map_take, h]
  estimateErrors_eq := by
    rw [estimateErrors_pushAll, estimateErrors_pushAll]
    simp only [empty, ErrorStats.empty, List.nil_append, ← List.map_take, h]
  readingErrors_eq := by
    rw [readingErrors_pushAll, readingErrors_pushAll]
    simp only [empty, ErrorStats.empty, List.nil_append, ← List.map_take, h]

theorem agreesUpTo_ofLists {truths truths' readings readings' : List (Point α)}
    {estimates estimates' : List (Estimate α)} {k : Nat}
    (htruths : truths.take k = truths'.take k)
    (hreadings : readings.take k = readings'.take k)
    (hestimates : estimates.take k = estimates'.take k) :
    (ofLists truths readings estimates).AgreesUpTo (ofLists truths' readings' estimates') k := by
  refine agreesUpTo_pushAll ?_
  simp only [List.zip, List.take_zipWith, htruths, hreadings, hestimates]

end Tracked

/-! ## Where a run fails -/

/-- The run failed at this step: it came to the true position of the step and to none after
it, and ended with the error. -/
structure Report.FailsAt (report : Report ρ α) (truths : List (Point α)) (step : Nat)
    (error : FilterError α) : Prop where
  step_lt : step < truths.length
  result_eq : report.result = .error (.filter error)
  unread_eq : report.unread = truths.drop (step + 1)

omit [Scalar α] in
/-- What was not come to tells the step. -/
theorem Report.FailsAt.step_eq {report : Report ρ α} {truths : List (Point α)}
    {step step' : Nat} {error error' : FilterError α} (h : report.FailsAt truths step error)
    (h' : report.FailsAt truths step' error') : step = step' := by
  have hlength := congrArg List.length (h.unread_eq.symm.trans h'.unread_eq)
  rw [List.length_drop, List.length_drop] at hlength
  have hlt := h.step_lt
  have hlt' := h'.step_lt
  omega

/-- The run does not fail within its first `k` steps. -/
def Report.Passes (report : Report ρ α) (truths : List (Point α)) (k : Nat) : Prop :=
  ∀ step error, report.FailsAt truths step error → k ≤ step

/-- Reports of two runs that went alike for `k` steps: both failed within them, at the same
step and with the same error, or neither did, and then what they recorded is the same. -/
inductive Report.AlikeUpTo (report : Report ρ α) (report' : Report τ α)
    (truths truths' : List (Point α)) (k : Nat) : Prop
  | failed {step : Nat} {error : FilterError α} : step < k →
      report.FailsAt truths step error → report'.FailsAt truths' step error →
      AlikeUpTo report report' truths truths' k
  | passed : report.Passes truths k → report'.Passes truths' k →
      (∀ t t', report.result = .ok t → report'.result = .ok t' → t.AgreesUpTo t' k) →
      AlikeUpTo report report' truths truths' k

namespace Experiment

section Loop

variable [SquareRoot α] [NormalSource ρ α] {sensor : Sensor α} {f : Filter α} {noise : ρ}
  {truths : List (Point α)} {estimates : List (Estimate α)} {k : Nat}

/-- A failure in the first steps is the failure of the run. -/
theorem follow_failsAt {error : FilterError α}
    (h : f.steps ((sensor.readings noise truths).take k) = (estimates, some error))
    (events : Array (Event α)) :
    estimates.length < k ∧
      (follow sensor f .empty events noise truths).FailsAt truths estimates.length error := by
  have hsteps := Filter.steps_append_of_some h ((sensor.readings noise truths).drop k)
  rw [List.take_append_drop] at hsteps
  obtain ⟨hresult, -, hunread, hlt⟩ := follow_of_steps_some hsteps .empty events
  have hfirst := Filter.length_lt_of_steps_some h
  exact ⟨Nat.lt_of_lt_of_le hfirst (List.length_take_le _ _), hlt, hresult, hunread⟩

/-- Without a failure in the first steps the run passes them, and if it is completed its
estimates begin with those of these steps. -/
theorem follow_passes
    (h : f.steps ((sensor.readings noise truths).take k) = (estimates, none))
    (events : Array (Event α)) :
    (follow sensor f .empty events noise truths).Passes truths k ∧
      ∀ t, (follow sensor f .empty events noise truths).result = .ok t →
        ∃ all, all.take k = estimates ∧
          t = .ofLists truths (sensor.readings noise truths) all := by
  obtain ⟨hbeginning, hlater⟩ := Filter.steps_of_take_none h
  rcases hsteps : f.steps (sensor.readings noise truths) with ⟨all, _ | error⟩ <;>
    rw [hsteps] at hbeginning hlater
  · obtain ⟨hresult, -⟩ := follow_of_steps_none hsteps .empty events
    refine ⟨fun step error hfails => ?_, fun t ht => ⟨all, hbeginning, ?_⟩⟩
    · cases hresult.symm.trans hfails.result_eq
    · exact Except.ok.inj (ht.symm.trans hresult)
  · obtain ⟨hresult, -, hunread, hlt⟩ := follow_of_steps_some hsteps .empty events
    refine ⟨fun step error' hfails => ?_, fun t ht => ?_⟩
    · have hlast : Report.FailsAt _ truths all.length error := ⟨hlt, hresult, hunread⟩
      rw [hfails.step_eq hlast]
      exact hlater error rfl
    · cases ht.symm.trans hresult

/-- A run is completed or fails at one of its steps. -/
theorem follow_settles (sensor : Sensor α) (f : Filter α) (events : Array (Event α)) (noise : ρ)
    (truths : List (Point α)) :
    (∃ t, (follow sensor f .empty events noise truths).result = .ok t) ∨
      ∃ step error, (follow sensor f .empty events noise truths).FailsAt truths step error := by
  rcases hsteps : f.steps (sensor.readings noise truths) with ⟨estimates, _ | error⟩
  · exact Or.inl ⟨_, (follow_of_steps_none hsteps .empty events).1⟩
  · obtain ⟨hresult, -, hunread, hlt⟩ := follow_of_steps_some hsteps .empty events
    exact Or.inr ⟨_, error, hlt, hresult, hunread⟩

/-- When a run is completed, so is a run that stops earlier, and its record is the beginning
of the other. -/
theorem follow_of_append {more : List (Point α)} {events : Array (Event α)} {t : Tracked α}
    (hok : (follow sensor f .empty events noise (truths ++ more)).result = .ok t) :
    ∃ t', (follow sensor f .empty events noise truths).result = .ok t' ∧
      t'.recording.length = truths.length ∧ t'.IsBeginningOf t := by
  obtain ⟨later, hlater⟩ := sensor.readings_append noise truths more
  rcases hsteps : f.steps (sensor.readings noise truths) with ⟨estimates, _ | error⟩
  · have hall := Filter.steps_append_of_none hsteps later
    rw [← hlater] at hall
    rcases hrest : (f.after ((sensor.readings noise truths).map .step)).steps later
      with ⟨others, _ | error⟩ <;> rw [hrest] at hall
    · obtain ⟨hresult, -, -, hlength⟩ := follow_of_steps_none hsteps .empty events
      obtain ⟨hresult', -⟩ := follow_of_steps_none hall .empty events
      obtain rfl := Except.ok.inj (hresult'.symm.trans hok)
      have hreadings := sensor.length_readings noise truths
      refine ⟨_, hresult, (Tracked.isRecordOf_pushAll_zip hreadings hlength).length_eq, ?_⟩
      rw [hlater]
      exact Tracked.isBeginningOf_ofLists_append hreadings hlength _ _ _
    · cases hok.symm.trans (follow_of_steps_some hall .empty events).1
  · have hall := Filter.steps_append_of_some hsteps later
    rw [← hlater] at hall
    cases hok.symm.trans (follow_of_steps_some hall .empty events).1

/-- When a run fails, so does a run that would go on longer. -/
theorem follow_append_of_error {events : Array (Event α)} {error : ExperimentError α}
    (herror : (follow sensor f .empty events noise truths).result = .error error)
    (more : List (Point α)) :
    (follow sensor f .empty events noise (truths ++ more)).result = .error error := by
  obtain ⟨later, hlater⟩ := sensor.readings_append noise truths more
  rcases hsteps : f.steps (sensor.readings noise truths) with ⟨estimates, _ | failure⟩
  · cases herror.symm.trans (follow_of_steps_none hsteps .empty events).1
  · have hall := Filter.steps_append_of_some hsteps later
    rw [← hlater] at hall
    rw [(follow_of_steps_some hall .empty events).1, ← herror,
      (follow_of_steps_some hsteps .empty events).1]

end Loop

variable [SquareRoot α] [NormalSource ρ α] [NormalSource τ α]

/-- Two runs of the loop that begin alike go alike for as long: the filter answers to the
same readings. -/
theorem follow_alikeUpTo (sensor : Sensor α) (f : Filter α) (events events' : Array (Event α))
    {noise : ρ} {noise' : τ} {truths truths' : List (Point α)} {k : Nat}
    (htruths : truths.take k = truths'.take k) (hnoise : SameSamples α noise noise' (2 * k)) :
    (follow sensor f .empty events noise truths).AlikeUpTo
      (follow sensor f .empty events' noise' truths') truths truths' k := by
  have hreadings := sensor.take_readings_eq htruths hnoise
  rcases hsteps : f.steps ((sensor.readings noise truths).take k)
    with ⟨estimates, _ | error⟩ <;> have hsteps' := hsteps <;> rw [hreadings] at hsteps'
  · obtain ⟨hpasses, hok⟩ := follow_passes hsteps events
    obtain ⟨hpasses', hok'⟩ := follow_passes hsteps' events'
    refine .passed hpasses hpasses' fun t t' ht ht' => ?_
    obtain ⟨all, hall, rfl⟩ := hok t ht
    obtain ⟨all', hall', rfl⟩ := hok' t' ht'
    exact Tracked.agreesUpTo_ofLists htruths hreadings (hall.trans hall'.symm)
  · obtain ⟨hlt, hfails⟩ := follow_failsAt hsteps events
    obtain ⟨-, hfails'⟩ := follow_failsAt hsteps' events'
    exact .failed hlt hfails hfails'

variable [SmallestEigenvalue α]

/-- A run is told up to each step by what came up to that step. It is completed or fails at
one of its steps. Runs of one experiment whose first `k` true positions are the same, with
sources that give the same first `2 * k` samples, fail alike within `k` steps or pass them
with the same records and errors. So a run over the beginning of a list is completed when the
run over the list is, with the beginning of its record, and when it fails the run over the
list fails with the same error. -/
theorem run_causal {config : ExperimentConfig α} {e : Experiment α}
    (he : (create config).1 = .ok e) :
    (∀ (truths : List (Point α)) (noise : ρ), (∃ t, (e.track truths noise).result = .ok t) ∨
      ∃ step error, (e.track truths noise).FailsAt truths step error) ∧
    (∀ (k : Nat) (truths truths' : List (Point α)) (noise : ρ) (noise' : τ),
      truths.take k = truths'.take k → SameSamples α noise noise' (2 * k) →
      (e.track truths noise).AlikeUpTo (e.track truths' noise') truths truths' k) ∧
    ∀ (truths more : List (Point α)) (noise : ρ),
      (∀ t, (e.track (truths ++ more) noise).result = .ok t →
        ∃ t', (e.track truths noise).result = .ok t' ∧
          t'.recording.length = truths.length ∧ t'.IsBeginningOf t) ∧
      ∀ error, (e.track truths noise).result = .error error →
        (e.track (truths ++ more) noise).result = .error error := by
  obtain ⟨-, -, ⟨f, hf⟩, rfl⟩ := validate_eq_ok_iff.mp (create_eq_ok_iff.mp he)
  refine ⟨fun truths noise => ?_, ?_, fun truths more noise => ⟨?_, ?_⟩⟩
  · rw [track_eq_follow hf]
    exact follow_settles _ f _ noise truths
  · intro k truths truths' noise noise' htruths hnoise
    rw [track_eq_follow hf, track_eq_follow hf]
    exact follow_alikeUpTo _ f _ _ htruths hnoise
  · intro t hok
    rw [track_eq_follow hf] at hok ⊢
    exact follow_of_append hok
  · intro error herror
    rw [track_eq_follow hf] at herror ⊢
    exact follow_append_of_error herror more

/-- The run that becomes certain, along positions that differ from the fourth on. -/
def divertedTruths : List (Point Float) := [⟨1, 0⟩, ⟨2, 1⟩, ⟨3, 2⟩, ⟨0 / 0, 8⟩, ⟨-5, 1 / 0⟩]

/-- The six words that make a sample each, and another one that is left. -/
def divertedSource : Replay where
  words := [0x8000000000000001, 0xa000000000000002, 0x9000000000000003,
    0x8000000000000001, 0xa000000000000002, 0x9000000000000003, 0]

/-- The run fails at its third step. So does the diverted one, whatever is behind that step,
and without that step the run is completed. -/
theorem run_causal_of_noiseless :
    ∃ e, (create noiselessConfig).1 = .ok e ∧
      noiselessTruths.take 3 = divertedTruths.take 3 ∧
      SameSamples Float noiselessSource divertedSource (2 * 3) ∧
      (e.track noiselessTruths noiselessSource).FailsAt noiselessTruths 2 .singularInnovation ∧
      (e.track divertedTruths divertedSource).FailsAt divertedTruths 2 .singularInnovation ∧
      ∃ t, (e.track [⟨1, 0⟩, ⟨2, 1⟩] noiselessSource).result = .ok t := by
  have he : (create noiselessConfig).1 = .ok ⟨noiselessConfig, ⟨0.5⟩⟩ := rfl
  have hf : Filter.create noiselessConfig.filter = .ok noiselessFilter := rfl
  have htruths : noiselessTruths.take 3 = divertedTruths.take 3 := rfl
  have hnoise : SameSamples Float noiselessSource divertedSource (2 * 3) := by
    unfold SameSamples
    decide +kernel
  obtain ⟨estimates, hsteps, hlength⟩ := steps_noiseless
  have hfails : (track ⟨noiselessConfig, ⟨0.5⟩⟩ noiselessTruths noiselessSource).FailsAt
      noiselessTruths 2 .singularInnovation := by
    rw [track_eq_follow hf]
    obtain ⟨hresult, -, hunread, -⟩ := follow_of_steps_some hsteps .empty
      #[.started noiselessConfig.seed 0.5]
    rw [hlength] at hunread
    exact ⟨by decide, hresult, hunread⟩
  obtain ⟨hsettles, halike, -⟩ := run_causal (ρ := Replay) (τ := Replay) he
  refine ⟨_, he, htruths, hnoise, hfails, ?_, ?_⟩
  · cases halike 3 _ _ _ _ htruths hnoise with
    | failed hstep hfails₁ hfails₂ =>
        obtain rfl := hfails₁.step_eq hfails
        cases hfails₁.result_eq.symm.trans hfails.result_eq
        exact hfails₂
    | passed hpasses _ _ => exact absurd (hpasses _ _ hfails) (by decide)
  · rcases hsettles [⟨1, 0⟩, ⟨2, 1⟩] noiselessSource with hok | ⟨step, error, hfails'⟩
    · exact hok
    · cases halike 2 noiselessTruths [⟨1, 0⟩, ⟨2, 1⟩] _ _ rfl (fun _ _ => rfl) with
      | failed hstep hfails₁ _ => exact absurd (hfails₁.step_eq hfails ▸ hstep) (by decide)
      | passed _ hpasses _ => exact absurd (hpasses _ _ hfails') (Nat.not_le.mpr hfails'.step_lt)

end Experiment

end PlanarKalman
