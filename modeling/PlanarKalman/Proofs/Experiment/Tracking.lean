import PlanarKalman.Proofs.Experiment.Creation
import PlanarKalman.Proofs.Experiment.ErrorStats
import PlanarKalman.Proofs.Filter.Runs
import PlanarKalman.Proofs.Random.Samples
import PlanarKalman.Proofs.Walk.Session

/-!
# What a run tells

A run goes through the true positions one by one: it draws two samples, takes a
step with the reading, and adds to the record or ends with the first error. All of
it is known beforehand. The readings are the true positions with two samples each
of the noise source (`Sensor.readings`), and a filter that takes these readings in
step by step gives the estimates up to the first failure, and that failure
(`Filter.steps`). The report of the run is read off these (`follow_matches`): the
invariant of the loop is that the record so far holds the steps so far and the
noise source stands behind their samples.

No run leaves anything behind in the experiment, so runs one after the other are
each told by a newly created filter (`trackEach`).
-/

namespace PlanarKalman

open NormalSource

variable {ρ τ α : Type} [Scalar α]

/-! ## True positions and readings -/

namespace ExperimentConfig

variable [NormalSource τ α]

/-- Where the target is in each step, when it goes for a walk. -/
def truths (c : ExperimentConfig α) (walkSource : τ) : List (Point α) :=
  (c.walk.path walkSource).map State.position

@[simp] theorem length_truths (c : ExperimentConfig α) (walkSource : τ) :
    (c.truths walkSource).length = c.walk.steps := by
  rw [truths, List.length_map, WalkConfig.length_path]

end ExperimentConfig

namespace Sensor

variable [NormalSource ρ α]

/-- The readings of listed positions. Each takes two samples, that of the first
coordinate first. -/
def readings (s : Sensor α) (noise : ρ) (truths : List (Point α)) : List (Point α) :=
  truths.mapIdx fun i truth =>
    ⟨truth.x + sampleAt noise (2 * i) * s.deviation,
     truth.y + sampleAt noise (2 * i + 1) * s.deviation⟩

theorem read_eq (s : Sensor α) (truth : Point α) (noise : ρ) :
    s.read truth noise =
      (⟨truth.x + sampleAt noise 0 * s.deviation, truth.y + sampleAt noise 1 * s.deviation⟩,
        advance α noise 2) := rfl

theorem readings_cons (s : Sensor α) (noise : ρ) (truth : Point α) (rest : List (Point α)) :
    s.readings noise (truth :: rest)
      = (s.read truth noise).1 :: s.readings (s.read truth noise).2 rest := by
  have hindex : ∀ i, 2 * (i + 1) = 2 + 2 * i := fun i => by omega
  simp only [readings, List.mapIdx_cons, read_eq, sampleAt_advance, hindex]
  rfl

@[simp] theorem length_readings (s : Sensor α) (noise : ρ) (truths : List (Point α)) :
    (s.readings noise truths).length = truths.length := List.length_mapIdx

end Sensor

/-! ## Records -/

namespace Tracked

variable [SquareRoot α]

/-- Adds listed steps, each a true position, its reading and the estimate. -/
def pushAll (t : Tracked α) (steps : List (Point α × Point α × Estimate α)) : Tracked α :=
  steps.foldl (fun t step => t.push step.1 step.2.1 step.2.2) t

theorem records_pushAll (t : Tracked α) (steps : List (Point α × Point α × Estimate α)) :
    (t.pushAll steps).recording.toList
      = t.recording.toList ++ steps.map fun s => ⟨s.1, s.2.1, s.2.2.position⟩ :=
  view_foldl (fun t : Tracked α => t.recording.toList) _ (by simp [push]) t steps

theorem estimateErrors_pushAll (t : Tracked α)
    (steps : List (Point α × Point α × Estimate α)) :
    (t.pushAll steps).errors.estimateErrors.toList
      = t.errors.estimateErrors.toList ++ steps.map fun s => s.1.distance s.2.2.position :=
  view_foldl (fun t : Tracked α => t.errors.estimateErrors.toList) _
    (by simp [push, ErrorStats.pushPositions]) t steps

theorem readingErrors_pushAll (t : Tracked α)
    (steps : List (Point α × Point α × Estimate α)) :
    (t.pushAll steps).errors.readingErrors.toList
      = t.errors.readingErrors.toList ++ steps.map fun s => s.1.distance s.2.1 :=
  view_foldl (fun t : Tracked α => t.errors.readingErrors.toList) _
    (by simp [push, ErrorStats.pushPositions]) t steps

theorem final_pushAll (t : Tracked α) (steps : List (Point α × Point α × Estimate α)) :
    (t.pushAll steps).final = (steps.map fun s => s.2.2).getLast?.or t.final := by
  induction steps generalizing t with
  | nil => rfl
  | cons s rest ih =>
      rw [pushAll, List.foldl_cons]
      refine (ih _).trans ?_
      rw [List.map_cons, List.getLast?_cons]
      cases (rest.map fun s => s.2.2).getLast? <;> rfl

end Tracked

/-! ## The loop -/

namespace Experiment

variable [SquareRoot α] [NormalSource ρ α]

theorem follow_cons_of_ok {sensor : Sensor α} {f g : Filter α} {truth : Point α}
    {noise : ρ} {estimate : Estimate α}
    (h : f.step (sensor.read truth noise).1 = (g, .ok estimate)) (tracked : Tracked α)
    (events : Array (Event α)) (rest : List (Point α)) :
    follow sensor f tracked events noise (truth :: rest)
      = follow sensor g (tracked.push truth (sensor.read truth noise).1 estimate)
          (events.push (.stepped tracked.recording.length (sensor.read truth noise).1
            estimate.position))
          (sensor.read truth noise).2 rest := by
  simp only [follow, h]

theorem follow_cons_of_error {sensor : Sensor α} {f g : Filter α} {truth : Point α}
    {noise : ρ} {e : FilterError α}
    (h : f.step (sensor.read truth noise).1 = (g, .error e)) (tracked : Tracked α)
    (events : Array (Event α)) (rest : List (Point α)) :
    follow sensor f tracked events noise (truth :: rest)
      = { result := .error (.filter e)
          noise := (sensor.read truth noise).2
          unread := rest
          events := events.push (.updateFailed tracked.recording.length e) } := by
  simp only [follow, h]

/-- When no step of the filter with the readings fails, the loop records all of them. -/
theorem follow_of_steps_none {sensor : Sensor α} {f : Filter α} {noise : ρ}
    {truths : List (Point α)} {estimates : List (Estimate α)}
    (h : f.steps (sensor.readings noise truths) = (estimates, none))
    (tracked : Tracked α) (events : Array (Event α)) :
    let report := follow sensor f tracked events noise truths
    report.result = .ok
      (tracked.pushAll (truths.zip ((sensor.readings noise truths).zip estimates))) ∧
    report.noise = advance α noise (2 * truths.length) ∧ report.unread = [] ∧
    estimates.length = truths.length := by
  induction truths generalizing f tracked events noise estimates with
  | nil =>
      obtain rfl : [] = estimates := congrArg Prod.fst h
      exact ⟨rfl, rfl, rfl, rfl⟩
  | cons truth rest ih =>
      rw [Sensor.readings_cons] at h ⊢
      rcases hstep : f.step (sensor.read truth noise).1 with ⟨g, e | estimate⟩
      · rw [Filter.steps_cons_of_error hstep] at h
        cases h
      · rw [Filter.steps_cons_of_ok hstep] at h
        obtain ⟨rfl, hrest⟩ := Prod.mk.inj h
        rw [follow_cons_of_ok hstep]
        obtain ⟨hresult, hnoise, hunread, hlength⟩ := ih (Prod.ext rfl hrest)
          (tracked.push truth (sensor.read truth noise).1 estimate)
          (events.push (.stepped tracked.recording.length (sensor.read truth noise).1
            estimate.position))
        refine ⟨hresult, ?_, hunread, congrArg (· + 1) hlength⟩
        rw [hnoise, Sensor.read_eq, advance_advance, List.length_cons, Nat.mul_succ,
          Nat.add_comm]

/-- The first step that fails ends the loop, with its error and behind its samples. -/
theorem follow_of_steps_some {sensor : Sensor α} {f : Filter α} {noise : ρ}
    {truths : List (Point α)} {estimates : List (Estimate α)} {e : FilterError α}
    (h : f.steps (sensor.readings noise truths) = (estimates, some e))
    (tracked : Tracked α) (events : Array (Event α)) :
    let report := follow sensor f tracked events noise truths
    report.result = .error (.filter e) ∧
    report.noise = advance α noise (2 * (estimates.length + 1)) ∧
    report.unread = truths.drop (estimates.length + 1) ∧
    estimates.length < truths.length := by
  induction truths generalizing f tracked events noise estimates with
  | nil => cases congrArg Prod.snd h
  | cons truth rest ih =>
      rw [Sensor.readings_cons] at h
      rcases hstep : f.step (sensor.read truth noise).1 with ⟨g, e' | estimate⟩
      · rw [Filter.steps_cons_of_error hstep] at h
        obtain ⟨rfl, hfailure⟩ := Prod.mk.inj h
        obtain rfl := Option.some.inj hfailure
        rw [follow_cons_of_error hstep]
        exact ⟨rfl, rfl, rfl, Nat.succ_pos _⟩
      · rw [Filter.steps_cons_of_ok hstep] at h
        obtain ⟨rfl, hrest⟩ := Prod.mk.inj h
        rw [follow_cons_of_ok hstep]
        obtain ⟨hresult, hnoise, hunread, hlength⟩ := ih (Prod.ext rfl hrest)
          (tracked.push truth (sensor.read truth noise).1 estimate)
          (events.push (.stepped tracked.recording.length (sensor.read truth noise).1
            estimate.position))
        refine ⟨hresult, ?_, hunread, Nat.succ_lt_succ hlength⟩
        rw [hnoise, Sensor.read_eq, advance_advance, List.length_cons, Nat.mul_succ,
          Nat.mul_succ, Nat.mul_succ, Nat.add_comm 2]

end Experiment

/-! ## Reports -/

variable [SquareRoot α] [NormalSource ρ α]

/-- The record of a run that came to its end: step by step the true position, the
reading and the estimated position, and the distances of the latter two from the
truth. -/
structure Tracked.IsRecordOf (t : Tracked α) (truths readings : List (Point α))
    (estimates : List (Estimate α)) : Prop where
  length_eq : t.recording.length = truths.length
  truths_eq : t.recording.truths = truths
  readings_eq : t.recording.readings = readings
  estimates_eq : t.recording.estimates = estimates.map Estimate.position
  estimateErrors_eq : t.errors.estimateErrors.toList
    = List.zipWith Point.distance truths (estimates.map Estimate.position)
  readingErrors_eq : t.errors.readingErrors.toList
    = List.zipWith Point.distance truths readings
  final_eq : t.final = estimates.getLast?
  final_eq_none_iff : t.final = none ↔ truths = []

/-- A report that agrees with the answers of a filter to the steps with all readings:
either each answer is an estimate, or one of them is the first error. -/
structure Report.Matches (report : Report ρ α) (noise : ρ)
    (truths readings : List (Point α)) (answers : List (Outcome α)) : Prop where
  settled :
    (∃ estimates : List (Estimate α), answers = estimates.map (some ∘ .ok)) ∨
    ∃ (estimates : List (Estimate α)) (e : FilterError α) (later : List (Outcome α)),
      answers = estimates.map (some ∘ .ok) ++ some (.error e) :: later
  completed : ∀ estimates : List (Estimate α), answers = estimates.map (some ∘ .ok) →
    (∃ tracked, report.result = .ok tracked ∧ tracked.IsRecordOf truths readings estimates) ∧
    report.noise = advance α noise (2 * truths.length) ∧ report.unread = []
  failed : ∀ (estimates : List (Estimate α)) (e : FilterError α) (later : List (Outcome α)),
    answers = estimates.map (some ∘ .ok) ++ some (.error e) :: later →
    report.result = .error (.filter e) ∧
    report.noise = advance α noise (2 * (estimates.length + 1)) ∧
    report.unread = truths.drop (estimates.length + 1)

theorem Tracked.isRecordOf_pushAll (steps : List (Point α × Point α × Estimate α)) :
    (empty.pushAll steps).IsRecordOf (steps.map fun s => s.1) (steps.map fun s => s.2.1)
      (steps.map fun s => s.2.2) := by
  have hrecords : (empty.pushAll steps).recording.toList
      = steps.map fun s => ⟨s.1, s.2.1, s.2.2.position⟩ := records_pushAll empty steps
  have hfinal : (empty.pushAll steps).final = (steps.map fun s => s.2.2).getLast? := by
    rw [final_pushAll]
    exact Option.or_none
  refine ⟨?_, ?_, ?_, ?_, ?_, ?_, hfinal, ?_⟩
  · rw [← Recording.length_toList, hrecords, List.length_map, List.length_map]
  · rw [Recording.truths, hrecords, List.map_map]
    rfl
  · rw [Recording.readings, hrecords, List.map_map]
    rfl
  · rw [Recording.estimates, hrecords, List.map_map, List.map_map]
    rfl
  · rw [estimateErrors_pushAll, List.map_map, List.zipWith_map, List.zipWith_self]
    rfl
  · rw [readingErrors_pushAll, List.zipWith_map, List.zipWith_self]
    rfl
  · rw [hfinal, List.getLast?_eq_none_iff, List.map_eq_nil_iff, List.map_eq_nil_iff]

theorem Tracked.isRecordOf_pushAll_zip {truths readings : List (Point α)}
    {estimates : List (Estimate α)} (hreadings : readings.length = truths.length)
    (hestimates : estimates.length = truths.length) :
    (empty.pushAll (truths.zip (readings.zip estimates))).IsRecordOf truths readings
      estimates := by
  have hpairs : (readings.zip estimates).length = truths.length := by
    rw [List.length_zip, hreadings, hestimates, Nat.min_self]
  have hrest : (truths.zip (readings.zip estimates)).map Prod.snd = readings.zip estimates :=
    List.map_snd_zip (Nat.le_of_eq hpairs)
  have htruths : (truths.zip (readings.zip estimates)).map (fun s => s.1) = truths :=
    List.map_fst_zip (Nat.le_of_eq hpairs.symm)
  have hfst : (truths.zip (readings.zip estimates)).map (fun s => s.2.1) = readings := by
    refine (List.map_map (g := Prod.fst) (f := Prod.snd)).symm.trans ?_
    rw [hrest, List.map_fst_zip (Nat.le_of_eq (hreadings.trans hestimates.symm))]
  have hsnd : (truths.zip (readings.zip estimates)).map (fun s => s.2.2) = estimates := by
    refine (List.map_map (g := Prod.snd) (f := Prod.snd)).symm.trans ?_
    rw [hrest, List.map_snd_zip (Nat.le_of_eq (hestimates.trans hreadings.symm))]
  have h := isRecordOf_pushAll (truths.zip (readings.zip estimates))
  rwa [htruths, hfst, hsnd] at h

namespace Experiment

theorem follow_matches (sensor : Sensor α) (f : Filter α) (events : Array (Event α))
    (noise : ρ) (truths : List (Point α)) :
    (follow sensor f .empty events noise truths).Matches noise truths
      (sensor.readings noise truths)
      (f.outcomes ((sensor.readings noise truths).map .step)) where
  settled := by
    rcases hsteps : f.steps (sensor.readings noise truths) with ⟨estimates, _ | e⟩
    · exact Or.inl ⟨estimates, Filter.steps_eq_none_iff.mp hsteps⟩
    · exact Or.inr ⟨estimates, e, Filter.steps_eq_some_iff.mp hsteps⟩
  completed := by
    intro estimates hanswers
    obtain ⟨hresult, hnoise, hunread, hlength⟩ :=
      follow_of_steps_none (Filter.steps_eq_none_iff.mpr hanswers) .empty events
    refine ⟨⟨_, hresult, ?_⟩, hnoise, hunread⟩
    exact Tracked.isRecordOf_pushAll_zip (sensor.length_readings noise truths) hlength
  failed := by
    intro estimates e later hanswers
    obtain ⟨hresult, hnoise, hunread, -⟩ :=
      follow_of_steps_some (Filter.steps_eq_some_iff.mpr ⟨later, hanswers⟩) .empty events
    exact ⟨hresult, hnoise, hunread⟩

/-- A run is told by a new filter and the samples of the noise source. -/
theorem track_eq_follow [SmallestEigenvalue α] {e : Experiment α} {f : Filter α}
    (hf : Filter.create e.config.filter = .ok f) (noise : ρ) (truths : List (Point α)) :
    e.track truths noise
      = follow e.sensor f .empty #[.started e.config.seed e.sensor.deviation] noise truths := by
  rw [track, hf]

/-- A run along a walk is a run over the positions of its path: the parameters that the
walk is created with were accepted before. -/
theorem runWith_eq_track [SmallestEigenvalue α] [NormalSource τ α]
    {config : ExperimentConfig α} {e : Experiment α} (he : (create config).1 = .ok e)
    (walkSource : τ) (noise : ρ) :
    e.runWith walkSource noise = e.track (config.truths walkSource) noise := by
  obtain ⟨hwalk, -, -, rfl⟩ := validate_eq_ok_iff.mp (create_eq_ok_iff.mp he)
  have hcreate : Walk.create config.walk walkSource = .ok ⟨config.walk, walkSource⟩ :=
    Walk.create_eq_ok_iff.mpr ⟨hwalk, rfl⟩
  unfold runWith
  rw [hcreate]
  simp only [Walk.positions, Walk.states_eq_path]
  rfl

variable [SmallestEigenvalue α]

/-- Runs over several lists of true positions, one after the other, with the noise
source that the run before left. -/
def trackEach (e : Experiment α) (noise : ρ) : List (List (Point α)) → List (Report ρ α)
  | [] => []
  | truths :: rest =>
    let report := e.track truths noise
    report :: e.trackEach report.noise rest

/-- Reports of runs one after the other, each told by the same new filter and by where
the run before left the noise source. -/
inductive MatchInTurn (sensor : Sensor α) (f : Filter α) :
    ρ → List (List (Point α)) → List (Report ρ α) → Prop
  | nil (noise : ρ) : MatchInTurn sensor f noise [] []
  | cons {noise : ρ} {truths : List (Point α)} {runs : List (List (Point α))}
      {report : Report ρ α} {reports : List (Report ρ α)} :
      report.Matches noise truths (sensor.readings noise truths)
        (f.outcomes ((sensor.readings noise truths).map .step)) →
      MatchInTurn sensor f report.noise runs reports →
      MatchInTurn sensor f noise (truths :: runs) (report :: reports)

/-- Every run of an experiment reports what a newly created filter answers to the steps
with the readings, whatever runs came before it. -/
theorem track_matches_new_filter {config : ExperimentConfig α} {e : Experiment α}
    (he : (create config).1 = .ok e) :
    ∃ f, Filter.create config.filter = .ok f ∧ e.sensor = ⟨config.deviation⟩ ∧
      (∀ (noise : ρ) (truths : List (Point α)),
        (e.track truths noise).Matches noise truths (e.sensor.readings noise truths)
          (f.outcomes ((e.sensor.readings noise truths).map .step))) ∧
      ∀ (noise : ρ) (runs : List (List (Point α))),
        MatchInTurn e.sensor f noise runs (e.trackEach noise runs) := by
  obtain ⟨-, -, ⟨f, hf⟩, rfl⟩ := validate_eq_ok_iff.mp (create_eq_ok_iff.mp he)
  have hrun : ∀ (noise : ρ) (truths : List (Point α)),
      (track ⟨config, ⟨config.deviation⟩⟩ truths noise).Matches noise truths
        (Sensor.readings ⟨config.deviation⟩ noise truths)
        (f.outcomes ((Sensor.readings ⟨config.deviation⟩ noise truths).map .step)) := by
    intro noise truths
    rw [track_eq_follow hf]
    exact follow_matches _ f _ noise truths
  refine ⟨f, hf, rfl, hrun, fun noise runs => ?_⟩
  induction runs generalizing noise with
  | nil => exact .nil noise
  | cons truths rest ih => exact .cons (hrun noise truths) (ih _)

/-! ## A run that becomes certain

Neither the sensor, as the filter takes it to be, nor the motion has any variance.
Two readings then settle position and velocity, and there is nothing to weigh the
third against. -/

def noiselessConfig : ExperimentConfig Float where
  walk := .demonstration
  deviation := 0.5
  filter := {
    initialPosition := ⟨0, 0⟩
    initialCovariance := .uniform 1
    measurementNoise := .uniform 0
    processNoise := .acceleration 0
    timestep := 1
    strict := false }
  seed := 0

def noiselessFilter : Filter Float :=
  Filter.ofCovariances noiselessConfig.filter
    ⟨Mat.identity.scale 1, Mat.identity.scale 0, Motion.accelerationNoise 1 0⟩

def noiselessTruths : List (Point Float) := [⟨1, 0⟩, ⟨2, 1⟩, ⟨3, 2⟩, ⟨4, 3⟩]

/-- Six words that make a sample each, and one that is left. -/
def noiselessSource : Replay where
  words := [0x8000000000000001, 0xa000000000000002, 0x9000000000000003,
    0x8000000000000001, 0xa000000000000002, 0x9000000000000003, 7]

theorem steps_noiseless :
    ∃ estimates, noiselessFilter.steps (Sensor.readings ⟨0.5⟩ noiselessSource noiselessTruths)
      = (estimates, some .singularInnovation) ∧ estimates.length = 2 := by
  have h : ∀ steps, noiselessFilter.steps
      (Sensor.readings ⟨0.5⟩ noiselessSource noiselessTruths) = steps →
        (steps.1.length, steps.2) = (2, some .singularInnovation) := by
    rintro _ rfl
    decide +kernel
  rcases hsteps : noiselessFilter.steps
      (Sensor.readings ⟨0.5⟩ noiselessSource noiselessTruths) with ⟨estimates, failure⟩
  obtain ⟨hlength, rfl⟩ := Prod.mk.inj (h _ hsteps)
  exact ⟨estimates, rfl, hlength⟩

theorem track_matches_new_filter_of_noiseless :
    (create noiselessConfig).1 = .ok ⟨noiselessConfig, ⟨0.5⟩⟩ ∧
      let report := track ⟨noiselessConfig, ⟨0.5⟩⟩ noiselessTruths noiselessSource
      report.result = .error (.filter .singularInnovation) ∧
      report.noise = ⟨[7]⟩ ∧ report.unread = [⟨4, 3⟩] := by
  have he : (create noiselessConfig).1 = .ok ⟨noiselessConfig, ⟨0.5⟩⟩ := rfl
  have hf : Filter.create noiselessConfig.filter = .ok noiselessFilter := rfl
  obtain ⟨f, hf', -, hrun, -⟩ := track_matches_new_filter (ρ := Replay) he
  obtain rfl : noiselessFilter = f := Except.ok.inj (hf.symm.trans hf')
  obtain ⟨estimates, hsteps, hlength⟩ := steps_noiseless
  obtain ⟨later, hanswers⟩ := Filter.steps_eq_some_iff.mp hsteps
  obtain ⟨hresult, hnoise, hunread⟩ :=
    (hrun noiselessSource noiselessTruths).failed estimates _ later hanswers
  rw [hlength] at hnoise hunread
  have hleft : advance Float noiselessSource 6 = ⟨[7]⟩ := by decide +kernel
  exact ⟨he, hresult, hnoise.trans hleft, hunread⟩

end Experiment

end PlanarKalman
