import PlanarKalman.Proofs.Experiment.Failure

/-!
# What the log of a run tells

A run writes its log as it goes and takes nothing back. What was logged of the steps before a
failure stays in the log, while their entries in the record are given up, so the log is the one
place where a failed run shows how far it came. For that a step must be logged behind the
update that may fail, and nothing else may be logged between two steps.

What is in the log is told by the answers of a new filter to the readings (`Filter.steps`):
there is an event for each estimate, with the number of its step, and one event behind them
that depends on the failure, if there was one (`Tracked.closing`). The loop knows the number of
a step from the length of its record only. So the invariant is about a loop on its way, and
numbers its steps from that length on (`events_follow`).
-/

namespace PlanarKalman

variable {ρ α : Type}

/-! ## Events -/

namespace Event

/-- The events of steps with these readings and estimates, numbered from `start`. -/
def ofSteps (start : Nat) (readings : List (Point α)) (estimates : List (Estimate α)) :
    List (Event α) :=
  (readings.zip estimates).mapIdx fun i step => .stepped (start + i) step.1 step.2.position

theorem ofSteps_cons (start : Nat) (reading : Point α) (readings : List (Point α))
    (estimate : Estimate α) (estimates : List (Estimate α)) :
    ofSteps start (reading :: readings) (estimate :: estimates)
      = .stepped start reading estimate.position :: ofSteps (start + 1) readings estimates := by
  simp only [ofSteps, List.zip_cons_cons, List.mapIdx_cons, Nat.add_zero, Nat.add_assoc,
    Nat.add_comm 1]

theorem mem_ofSteps {start : Nat} {readings : List (Point α)} {estimates : List (Estimate α)}
    {event : Event α} (h : event ∈ ofSteps start readings estimates) :
    ∃ step reading estimate, event = .stepped step reading estimate := by
  obtain ⟨i, _, rfl⟩ := List.mem_mapIdx.mp h
  exact ⟨_, _, _, rfl⟩

/-- The text that the log shows of a failure. -/
def failureText? : Event Float → Option String
  | .updateFailed _ error => some error.message
  | _ => none

theorem severities_ofSteps (start : Nat) {readings : List (Point α)}
    {estimates : List (Estimate α)} (hlength : estimates.length ≤ readings.length) :
    (ofSteps start readings estimates).map severity = List.replicate estimates.length .trace := by
  rw [List.eq_replicate_iff]
  constructor
  · rw [List.length_map, ofSteps, List.length_mapIdx, List.length_zip, Nat.min_eq_right hlength]
  · intro s hs
    obtain ⟨event, hevent, rfl⟩ := List.mem_map.mp hs
    obtain ⟨step, reading, estimate, rfl⟩ := mem_ofSteps hevent
    rfl

theorem failureTexts_ofSteps (start : Nat) (readings : List (Point Float))
    (estimates : List (Estimate Float)) :
    (ofSteps start readings estimates).filterMap failureText? = [] := by
  rw [List.filterMap_eq_nil_iff]
  intro event hevent
  obtain ⟨step, reading, estimate, rfl⟩ := mem_ofSteps hevent
  rfl

end Event

variable [Scalar α]

/-- The event that closes the log of a run, for the record when it ended and the failure that
ended it. -/
def Tracked.closing [SquareRoot α] (t : Tracked α) : Option (FilterError α) → Event α
  | none => .completed t.recording.length t.errors.estimateRmse t.errors.readingRmse
  | some error => .updateFailed t.recording.length error

/-! ## The loop -/

namespace Experiment

variable [SquareRoot α] [NormalSource ρ α]

/-- From wherever it starts, the loop adds an event for each step that succeeds, numbered on
from the length of the record, and one event at its end. -/
theorem events_follow (sensor : Sensor α) (f : Filter α) (tracked : Tracked α)
    (events : Array (Event α)) (noise : ρ) (truths : List (Point α)) :
    let readings := sensor.readings noise truths
    let steps := f.steps readings
    (follow sensor f tracked events noise truths).events.toList
      = events.toList ++ (Event.ofSteps tracked.recording.length readings steps.1
        ++ [(tracked.pushAll (truths.zip (readings.zip steps.1))).closing steps.2]) := by
  intro readings steps
  induction truths generalizing f tracked events noise with
  | nil => simp [follow, readings, steps, Sensor.readings, Filter.steps, Event.ofSteps,
      Tracked.pushAll, Tracked.closing]
  | cons truth rest ih =>
      simp only [readings, steps, Sensor.readings_cons]
      rcases hstep : f.step (sensor.read truth noise).1 with ⟨g, e | estimate⟩
      · rw [follow_cons_of_error hstep, Filter.steps_cons_of_error hstep]
        simp [Event.ofSteps, Tracked.pushAll, Tracked.closing]
      · rw [follow_cons_of_ok hstep, Filter.steps_cons_of_ok hstep]
        -- A record more, so the remaining steps are numbered from one further on.
        have hlength : (tracked.push truth (sensor.read truth noise).1 estimate).recording.length
            = tracked.recording.length + 1 := Recording.length_push ..
        rw [ih, Array.toList_push, List.append_assoc, List.singleton_append, hlength,
          Event.ofSteps_cons]
        rfl

end Experiment

/-! ## Reports -/

/-- As many steps are recorded as there are estimates. -/
theorem Tracked.length_pushAll_zip [SquareRoot α] {truths readings : List (Point α)}
    {estimates : List (Estimate α)} (hreadings : readings.length = truths.length)
    (hestimates : estimates.length ≤ truths.length) :
    (empty.pushAll (truths.zip (readings.zip estimates))).recording.length
      = estimates.length := by
  rw [← Recording.length_toList, records_pushAll, List.length_append, List.length_map,
    List.length_zip, List.length_zip, hreadings, Nat.min_eq_right hestimates,
    Nat.min_eq_right hestimates]
  exact Nat.zero_add _

/-- There are errors to take the mean of, unless nothing was recorded. -/
theorem Tracked.IsRecordOf.rmse_eq_none_iff [SquareRoot α] {t : Tracked α}
    {truths readings : List (Point α)} {estimates : List (Estimate α)}
    (h : t.IsRecordOf truths readings estimates) (hlength : estimates.length = truths.length) :
    (t.errors.estimateRmse = none ↔ truths = []) ∧ (t.errors.readingRmse = none ↔ truths = []) := by
  have hempty : t.errors.isEmpty = true ↔ truths = [] := by
    rw [ErrorStats.isEmpty, Array.isEmpty_iff_size_eq_zero, ← Array.length_toList,
      h.estimateErrors_eq, List.length_zipWith, List.length_map, hlength, Nat.min_self,
      List.length_eq_zero_iff]
  simp [ErrorStats.estimateRmse, ErrorStats.readingRmse, ErrorStats.rootMean, hempty]

/-- A log that tells how its run went: behind the start there is an event for each of the
steps that succeeded, and then one event, which is the completion if all of them did, with what
was returned, and else the failure that was returned. -/
structure Report.IsLogged [SquareRoot α] (report : Report ρ α) (config : ExperimentConfig α)
    (truths readings : List (Point α)) (estimates : List (Estimate α)) : Prop where
  length_le : estimates.length ≤ truths.length
  severities_eq : report.events.toList.map Event.severity
    = .info :: (List.replicate estimates.length .trace ++
        [if estimates.length = truths.length then .info else .warning])
  completed : estimates.length = truths.length →
    ∃ tracked, report.result = .ok tracked ∧ tracked.IsRecordOf truths readings estimates ∧
      report.events.toList = .started config.seed config.deviation ::
        (Event.ofSteps 0 readings estimates ++
          [.completed truths.length tracked.errors.estimateRmse tracked.errors.readingRmse]) ∧
      (tracked.errors.estimateRmse = none ↔ truths = []) ∧
      (tracked.errors.readingRmse = none ↔ truths = [])
  failed : estimates.length < truths.length →
    ∃ error, report.result = .error (.filter error) ∧
      report.events.toList = .started config.seed config.deviation ::
        (Event.ofSteps 0 readings estimates ++ [.updateFailed estimates.length error]) ∧
      ∀ steps estimateRmse readingRmse,
        .completed steps estimateRmse readingRmse ∉ report.events.toList

/-- What the log shows as text is the failure that is returned, and nothing if there is none. -/
structure Report.ShowsFailure (report : Report ρ Float) : Prop where
  completed : ∀ tracked, report.result = .ok tracked →
    report.events.toList.filterMap Event.failureText? = []
  failed : ∀ error, report.result = .error error → ∃ text,
    report.events.toList.filterMap Event.failureText? = [text] ∧
    error.message = "filter error: " ++ text

theorem Report.IsLogged.showsFailure {report : Report ρ Float} {config : ExperimentConfig Float}
    {truths readings : List (Point Float)} {estimates : List (Estimate Float)}
    (h : report.IsLogged config truths readings estimates) : report.ShowsFailure := by
  rcases Nat.eq_or_lt_of_le h.length_le with hlength | hlt
  · obtain ⟨tracked, hresult, -, hevents, -⟩ := h.completed hlength
    refine ⟨fun _ _ => ?_, fun error herror => by cases hresult.symm.trans herror⟩
    rw [hevents, List.filterMap_cons_none rfl, List.filterMap_append,
      Event.failureTexts_ofSteps]
    rfl
  · obtain ⟨error, hresult, hevents, -⟩ := h.failed hlt
    refine ⟨fun _ hok => (by cases hresult.symm.trans hok), fun error' herror => ?_⟩
    obtain rfl := Except.error.inj (hresult.symm.trans herror)
    refine ⟨error.message, ?_, rfl⟩
    rw [hevents, List.filterMap_cons_none rfl, List.filterMap_append,
      Event.failureTexts_ofSteps]
    rfl

namespace Experiment

variable [SmallestEigenvalue α] [SquareRoot α] [NormalSource ρ α]

theorem track_isLogged {config : ExperimentConfig α} {f : Filter α}
    (hf : Filter.create config.filter = .ok f) (noise : ρ) (truths : List (Point α)) :
    let readings := Sensor.readings ⟨config.deviation⟩ noise truths
    (track ⟨config, ⟨config.deviation⟩⟩ truths noise).IsLogged config truths readings
      (f.steps readings).1 := by
  intro readings
  let start : Array (Event α) := #[.started config.seed config.deviation]
  have hreadings : readings.length = truths.length := Sensor.length_readings ..
  have hevents : (follow ⟨config.deviation⟩ f .empty start noise truths).events.toList
      = .started config.seed config.deviation :: (Event.ofSteps 0 readings (f.steps readings).1
        ++ [(Tracked.pushAll .empty (truths.zip (readings.zip (f.steps readings).1))).closing
          (f.steps readings).2]) := events_follow _ f .empty start noise truths
  rw [track_eq_follow hf]
  rcases hsteps : f.steps readings with ⟨estimates, _ | error⟩ <;> rw [hsteps] at hevents
  · obtain ⟨hresult, -, -, hlength⟩ := follow_of_steps_none hsteps .empty start
    have hrecord := Tracked.isRecordOf_pushAll_zip hreadings hlength
    rw [Tracked.closing, hrecord.length_eq] at hevents
    refine ⟨Nat.le_of_eq hlength, ?_, fun _ => ?_, fun hlt => absurd hlength (Nat.ne_of_lt hlt)⟩
    · rw [hevents, List.map_cons, List.map_append, if_pos hlength,
        Event.severities_ofSteps 0 (Nat.le_of_eq (hlength.trans hreadings.symm))]
      rfl
    · exact ⟨_, hresult, hrecord, hevents, hrecord.rmse_eq_none_iff hlength⟩
  · obtain ⟨hresult, -, -, hlt⟩ := follow_of_steps_some hsteps .empty start
    rw [Tracked.closing, Tracked.length_pushAll_zip hreadings (Nat.le_of_lt hlt)] at hevents
    refine ⟨Nat.le_of_lt hlt, ?_, fun hlength => absurd hlength (Nat.ne_of_lt hlt), fun _ => ?_⟩
    · rw [hevents, List.map_cons, List.map_append, if_neg (Nat.ne_of_lt hlt),
        Event.severities_ofSteps 0 (hreadings ▸ Nat.le_of_lt hlt)]
      rfl
    · refine ⟨error, hresult, hevents, fun steps estimateRmse readingRmse hmem => ?_⟩
      rw [hevents, List.mem_cons, List.mem_append, List.mem_singleton] at hmem
      rcases hmem with hstart | hstep | hfailure
      · cases hstart
      · obtain ⟨_, _, _, hstepped⟩ := Event.mem_ofSteps hstep
        cases hstepped
      · cases hfailure

/-- The log tells the outcome. Setting up an experiment is logged once, and not at all when the
parameters are refused. A run starts with one event, logs each step that succeeds, by its number,
with the reading and the estimate, and ends with one event: the completion with the errors that
are returned, when all steps succeeded, and else a warning, with the number of the step that
failed and the text of the error that is returned. -/
theorem log_tells_outcome (config : ExperimentConfig Float) :
    (∀ e, (create config).1 = .ok e →
      (create config).2 = [.configured] ∧ (create config).2.map Event.severity = [.debug]) ∧
    (∀ error, (create config).1 = .error error → (create config).2 = []) ∧
    ∀ e, (create config).1 = .ok e → ∃ f, Filter.create config.filter = .ok f ∧
      ∀ {ρ : Type} [NormalSource ρ Float] (noise : ρ) (truths : List (Point Float)),
        let readings := Sensor.readings ⟨config.deviation⟩ noise truths
        (e.track truths noise).IsLogged config truths readings (f.steps readings).1 ∧
        (e.track truths noise).ShowsFailure := by
  refine ⟨fun e he => ?_, fun error herror => ?_, fun e he => ?_⟩
  · rw [create, create_eq_ok_iff.mp he]
    exact ⟨rfl, rfl⟩
  · rw [create, validate_eq_error_iff.mpr (create_eq_error_iff.mp herror)]
  · obtain ⟨-, -, ⟨f, hf⟩, rfl⟩ := validate_eq_ok_iff.mp (create_eq_ok_iff.mp he)
    refine ⟨f, hf, fun noise truths => ?_⟩
    have hlogged := track_isLogged hf noise truths
    exact ⟨hlogged, hlogged.showsFailure⟩

/-- The run that becomes certain logs two steps and the failure of the third. A run without any
true position has nothing to log but its beginning and its end. -/
theorem log_tells_outcome_of_noiseless :
    ∃ e, (create noiselessConfig).1 = .ok e ∧ (create noiselessConfig).2 = [.configured] ∧
      (e.track noiselessTruths noiselessSource).events.toList.map Event.severity
        = [.info, .trace, .trace, .warning] ∧
      (e.track noiselessTruths noiselessSource).events.toList.filterMap Event.failureText?
        = ["innovation covariance is singular"] ∧
      (e.track [] noiselessSource).events.toList = [.started 0 0.5, .completed 0 none none] := by
  have he : (create noiselessConfig).1 = .ok ⟨noiselessConfig, ⟨0.5⟩⟩ := rfl
  have hf : Filter.create noiselessConfig.filter = .ok noiselessFilter := rfl
  obtain ⟨hset, -, hruns⟩ := log_tells_outcome noiselessConfig
  obtain ⟨f, hf', hlog⟩ := hruns _ he
  obtain rfl : noiselessFilter = f := Except.ok.inj (hf.symm.trans hf')
  obtain ⟨estimates, hsteps, hlength⟩ := steps_noiseless
  obtain ⟨hlogged, hshown⟩ := hlog noiselessSource noiselessTruths
  have hresult : (track ⟨noiselessConfig, ⟨0.5⟩⟩ noiselessTruths noiselessSource).result
      = .error (.filter .singularInnovation) := by
    rw [track_eq_follow hf]
    exact (follow_of_steps_some hsteps .empty _).1
  have hseverities := hlogged.severities_eq
  have hestimates : (noiselessFilter.steps
      (Sensor.readings ⟨noiselessConfig.deviation⟩ noiselessSource noiselessTruths)).1
        = estimates := congrArg Prod.fst hsteps
  rw [hestimates, hlength] at hseverities
  obtain ⟨text, htexts, hmessage⟩ := hshown.failed _ hresult
  obtain ⟨tracked, -, -, hevents, hestimate, hreading⟩ :=
    (hlog noiselessSource []).1.completed rfl
  rw [hestimate.mpr rfl, hreading.mpr rfl] at hevents
  refine ⟨_, he, (hset _ he).1, hseverities, ?_, hevents⟩
  rw [htexts, ← (String.append_right_inj "filter error: ").mp hmessage]
  rfl

end Experiment

end PlanarKalman
