import PlanarKalman.Demo
import PlanarKalman.Proofs.Csv.Reading
import PlanarKalman.Proofs.Experiment.Failure
import PlanarKalman.Proofs.Experiment.Flow
import PlanarKalman.Proofs.Numeral.Word

/-!
# What the demonstration leaves behind

The program draws its walk three times: for the table of the walk, for the filter to
follow, and for the number of fastest steps. Each time it starts again from the source of
the seed, so that there is one list of positions behind all three, and the tables agree on
it text by text (`tables_agree`).

What can go wrong goes wrong in a fixed order. The arguments are read and the walk is
validated before the first table; the parameters of the filter are those of the
demonstration, which are fine, so nothing but the run itself can fail between the tables.
-/

namespace PlanarKalman

namespace Walk

variable {ρ α : Type} [Scalar α] [NormalSource ρ α]

theorem yields_cursorAt (w : Walk ρ α) {k : Nat} (hk : k ≤ w.length) :
    Supply.Yields (w.cursorAt k) ((w.path.drop k).map State.position) := by
  induction hk using Nat.decreasingInduction with
  | self =>
      rw [List.drop_of_length_le (Nat.le_of_eq w.length_path)]
      change (w.cursorAt w.length).next?.map _ = none
      rw [next?_cursorAt_length]
      rfl
  | of_succ k hk ih =>
      rw [path, w.config.drop_path w.source hk]
      refine ⟨w.cursorAt (k + 1), ?_, ih⟩
      change (w.cursorAt k).next?.map _ = _
      rw [next?_cursorAt_of_lt w hk]
      rfl

/-- A cursor hands out the positions of the path. -/
theorem yields_cursor (w : Walk ρ α) :
    Supply.Yields w.cursor (w.path.map State.position) :=
  w.yields_cursorAt (Nat.zero_le _)

end Walk

namespace Demo

/-! ## Arguments -/

theorem arguments_printed (seed steps : UInt64) :
    arguments [toString seed.toNat, toString steps.toNat] = .ok (seed, steps.toNat) := by
  simp only [arguments, argument, List.getElem?_cons_zero, List.getElem?_cons_succ,
    Numeral.readWord_toString]
  change Except.ok (UInt64.ofNat seed.toNat, steps.toNat) = _
  rw [UInt64.ofNat_toNat]

/-! ## Two tables -/

/-- A row of a recording begins with the row that its true position has in the table of
these positions. -/
theorem take_dataRows {σ : Type} [Supply σ (Point Float)] {positions : σ}
    {truths : List (Point Float)} (hpositions : Supply.Yields positions truths)
    (hcount : Supply.count positions = truths.length) {r : Recording Float}
    (hr : r.truths = truths) :
    (Csv.dataRows (Csv.writeRecording (.ofRoom none) r).sink.text).map (List.take 3)
      = Csv.dataRows (Csv.writeWalk (.ofRoom none) positions).sink.text := by
  rw [Csv.dataRows_writeRecording, Csv.dataRows_writeWalk hpositions hcount, ← hr,
    Recording.truths]
  refine List.ext_getElem? fun i => ?_
  simp only [List.getElem?_map, List.getElem?_mapIdx, Option.map_map]
  rfl

/-! ## How the program ends -/

/-- The program failed before it wrote anything but its message. -/
def Result.LeavesNothing (r : Result) : Prop :=
  r.code = 1 ∧ r.walkTable = none ∧ r.runTable = none

/-- The program came to its end: the recording is in a table of its own, which agrees with
the table of the walk, and the line that is printed counts steps. -/
structure Result.Completes (r : Result) (walkTable : String) (truths : List (Point Float))
    (tracked : Tracked Float) : Prop where
  code_eq : r.code = 0
  exists_runTable : ∃ runTable, r.runTable = some runTable ∧
    Csv.IsTable ["step", "realx", "realy", "noisex", "noisey", "estx", "esty"]
      (tracked.recording.toList.map Record.coordinates) runTable ∧
    (Csv.dataRows runTable).length = truths.length ∧
    (Csv.dataRows runTable).map (List.take 3) = Csv.dataRows walkTable
  exists_fastest : ∃ fastest ≤ truths.length - 1,
    fastest = (Intensity.ofPath truths).countP (fun intensity => 1.0 ≤ intensity) ∧
    r.stdout = toString truths.length ++ " steps, estimate RMSE " ++
      Numeral.fixed 3 (tracked.errors.estimateRmse.getD (0.0 / 0.0)) ++ ", measurement RMSE " ++
      Numeral.fixed 3 (tracked.errors.readingRmse.getD (0.0 / 0.0)) ++ ", " ++
      toString fastest ++ " new fastest steps\n"

theorem exists_demonstration :
    ∃ f, Filter.create (.demonstration : FilterConfig Float) = .ok f :=
  Validation.exists_ok_of_isOk (by decide +kernel)

/-- All parameters but the number of steps are fine. -/
theorem create_config (seed : UInt64) {steps : Nat} (hsteps : 0 < steps) :
    (Experiment.create (config seed steps)).1
      = .ok ⟨config seed steps, ⟨Sensor.demonstrationDeviation⟩⟩ := by
  have hstep : IsPositive (WalkConfig.demonstration : WalkConfig Float).stepSize := by
    decide +kernel
  have hmax : IsPositive (WalkConfig.demonstration : WalkConfig Float).maxVelocity := by
    decide +kernel
  have hdeviation : IsNonNegative (Sensor.demonstrationDeviation : Float) := by decide +kernel
  rw [Experiment.create_eq_ok_iff, Experiment.validate_eq_ok_iff, WalkConfig.validate_eq_ok_iff]
  exact ⟨⟨hsteps.ne', hstep, hmax⟩, hdeviation, exists_demonstration, rfl⟩

theorem simulate_zero (seed : UInt64) : (simulate seed 0).LeavesNothing := ⟨rfl, rfl, rfl⟩

/-- The table of a walk whose parameters are fine. -/
def walkText (config : WalkConfig Float) (source : Generator) : String :=
  (Csv.writeWalk (.ofRoom none) (Walk.mk config source).cursor).sink.text

/-- Nothing fails between the validation of the walk and the run. -/
theorem simulate_eq_follow (seed : UInt64) {steps : Nat} (hsteps : 0 < steps) :
    simulate seed steps = follow ⟨config seed steps, ⟨Sensor.demonstrationDeviation⟩⟩
      ⟨(config seed steps).walk, .ofSeed seed⟩
      (walkText (config seed steps).walk (.ofSeed seed)) := by
  have hcreate := create_config seed hsteps
  obtain ⟨hwalk, -⟩ := Experiment.validate_eq_ok_iff.mp (Experiment.create_eq_ok_iff.mp hcreate)
  have hwalk' : Walk.create (config seed steps).walk (Generator.ofSeed seed)
      = .ok ⟨(config seed steps).walk, .ofSeed seed⟩ := Walk.create_eq_ok_iff.mpr ⟨hwalk, rfl⟩
  simp only [simulate, hwalk', hcreate]
  rfl

section Follow

variable {config : ExperimentConfig Float} {experiment : Experiment Float} {source : Generator}
  {walkTable : String}

theorem walkTable_follow (experiment : Experiment Float) (walk : Walk Generator Float)
    (walkTable : String) : (follow experiment walk walkTable).walkTable = some walkTable := by
  unfold follow
  dsimp only
  split <;> rfl

theorem follow_of_error (he : (Experiment.create config).1 = .ok experiment)
    {error : ExperimentError Float}
    (h : (experiment.runWith source (Generator.ofSeed (config.seed + 1))).result
      = .error error) :
    (follow experiment ⟨config.walk, source⟩ walkTable).code = 1 ∧
      (follow experiment ⟨config.walk, source⟩ walkTable).runTable = none := by
  obtain ⟨-, -, -, rfl⟩ :=
    Experiment.validate_eq_ok_iff.mp (Experiment.create_eq_ok_iff.mp he)
  unfold follow
  dsimp only
  rw [h]
  exact ⟨rfl, rfl⟩

theorem follow_of_ok (he : (Experiment.create config).1 = .ok experiment)
    {tracked : Tracked Float}
    (h : (experiment.runWith source (Generator.ofSeed (config.seed + 1))).result
      = .ok tracked) :
    follow experiment ⟨config.walk, source⟩ walkTable =
      { code := 0
        stdout := summary tracked (fastestSteps (config.truths source))
        stderr := ""
        walkTable := some walkTable
        runTable := some (Csv.writeRecording (.ofRoom none) tracked.recording).sink.text } := by
  obtain ⟨-, -, -, rfl⟩ :=
    Experiment.validate_eq_ok_iff.mp (Experiment.create_eq_ok_iff.mp he)
  unfold follow
  dsimp only
  rw [h, Walk.positions, Walk.states_eq_path]
  rfl

/-- A completed run has recorded the positions of the walk. -/
theorem truths_of_ok (he : (Experiment.create config).1 = .ok experiment)
    {noise : Generator} {tracked : Tracked Float}
    (h : (experiment.runWith source noise).result = .ok tracked) :
    tracked.recording.truths = config.truths source := by
  obtain ⟨-, f, estimates, -, -, hlength, rfl⟩ := Experiment.exists_course he h
  exact (config.isRecordOf_ofLists source noise hlength).truths_eq

theorem follow_completes (he : (Experiment.create config).1 = .ok experiment)
    {tracked : Tracked Float}
    (h : (experiment.runWith source (Generator.ofSeed (config.seed + 1))).result
      = .ok tracked) :
    (follow experiment ⟨config.walk, source⟩ (walkText config.walk source)).Completes
      (walkText config.walk source) (config.truths source) tracked := by
  have htruths := truths_of_ok he h
  have hlength : tracked.recording.toList.length = (config.truths source).length := by
    rw [← htruths, Recording.truths, List.length_map]
  have hpositions := Walk.yields_cursor ⟨config.walk, source⟩
  have hcount : Supply.count (Walk.mk config.walk source).cursor
      = (config.truths source).length := (config.length_truths source).symm
  rw [follow_of_ok he h]
  refine ⟨rfl, ⟨_, rfl, (Csv.isTable_writeRecording _).2, ?_, ?_⟩, _, ?_, rfl, ?_⟩
  · rw [Csv.dataRows_writeRecording, List.length_mapIdx, hlength]
  · exact take_dataRows hpositions hcount htruths
  · rw [← Intensity.length_ofPath]
    exact List.countP_le_length
  · dsimp only
    rw [summary, ← Recording.length_toList, hlength]
    rfl

end Follow

/-- The program fails before there is a table if an argument is no number or there are no
steps. Else it leaves a complete table of the walk, whose rows are the positions that the
filter is shown; and if the filter comes to the end, a table of the run of which each row
begins with that row of the walk, and a line with the number of steps and of those that
were the fastest so far. The noise has the source of the next seed, also after the last
one. -/
theorem tables_agree :
    (∀ seed steps : UInt64,
      arguments [toString seed.toNat, toString steps.toNat] = .ok (seed, steps.toNat)) ∧
    ∀ args : List String,
      (∀ fault, arguments args = .error fault → (run args).LeavesNothing) ∧
      (∀ seed, arguments args = .ok (seed, 0) → (run args).LeavesNothing) ∧
      ∀ seed steps, arguments args = .ok (seed, steps) → 0 < steps →
        ∃ experiment walkTable, (Experiment.create (config seed steps)).1 = .ok experiment ∧
          let truths := (config seed steps).truths (Generator.ofSeed seed)
          let report : Report Generator Float :=
            experiment.runWith (Generator.ofSeed seed) (Generator.ofSeed (seed + 1))
          (run args).walkTable = some walkTable ∧
          Csv.IsTable ["step", "x", "y"] (truths.map fun p => [p.x, p.y]) walkTable ∧
          truths.length = steps ∧ (Csv.dataRows walkTable).length = steps ∧
          (∀ error, report.result = .error error →
            (run args).code = 1 ∧ (run args).runTable = none) ∧
          ∀ tracked, report.result = .ok tracked →
            (run args).Completes walkTable truths tracked := by
  refine ⟨arguments_printed, fun args => ⟨?_, ?_, ?_⟩⟩
  · intro fault hargs
    simp only [run, hargs]
    exact ⟨rfl, rfl, rfl⟩
  · intro seed hargs
    simp only [run, hargs]
    exact simulate_zero seed
  · intro seed steps hargs hsteps
    have he := create_config seed hsteps
    have hrun : run args = simulate seed steps := by
      simp only [run, hargs]
    have hpositions := Walk.yields_cursor ⟨(config seed steps).walk, Generator.ofSeed seed⟩
    have hcount : Supply.count (Walk.mk (config seed steps).walk (Generator.ofSeed seed)).cursor
        = ((config seed steps).truths (Generator.ofSeed seed)).length :=
      ((config seed steps).length_truths (Generator.ofSeed seed)).symm
    rw [hrun, simulate_eq_follow seed hsteps]
    refine ⟨_, _, he, walkTable_follow .., (Csv.isTable_writeWalk hpositions hcount).2,
      ExperimentConfig.length_truths .., ?_, fun error => follow_of_error he,
      fun tracked => follow_completes he⟩
    rw [walkText, Csv.dataRows_writeWalk hpositions hcount, List.length_mapIdx]
    exact ExperimentConfig.length_truths ..

/-! ## The last seed -/

def lastSeedArgs : List String := ["18446744073709551615", "3"]

/-- The table of this walk. It moves for the first time in the third row. -/
def lastSeedTable : String :=
  "step,x,y\n0,0.000000,0.000000\n1,0.000000,0.000000\n2,-0.010134,-0.012278\n"

/-- The noise has the source of the first seed. -/
theorem tables_agree_of_lastSeed :
    (run ["-1"]).LeavesNothing ∧ (run ["7", "0"]).LeavesNothing ∧
    ∃ (experiment : Experiment Float) (tracked : Tracked Float),
      (experiment.runWith (Generator.ofSeed 0xffffffffffffffff) (Generator.ofSeed 0)).result
        = .ok tracked ∧
      (run lastSeedArgs).walkTable = some lastSeedTable ∧
      (run lastSeedArgs).Completes lastSeedTable
        ((config 0xffffffffffffffff 3).truths (Generator.ofSeed 0xffffffffffffffff))
        tracked := by
  have hargs : arguments lastSeedArgs = .ok (0xffffffffffffffff, 3) := rfl
  have hrun : (run lastSeedArgs).code = 0 ∧ (run lastSeedArgs).walkTable = some lastSeedTable := by
    decide +kernel
  obtain ⟨experiment, walkTable, -, hwalk, -, -, -, herror, hok⟩ :=
    (tables_agree.2 lastSeedArgs).2.2 _ _ hargs (by decide)
  obtain rfl : walkTable = lastSeedTable := Option.some.inj (hwalk.symm.trans hrun.2)
  refine ⟨(tables_agree.2 ["-1"]).1 .badDigit rfl, (tables_agree.2 ["7", "0"]).2.1 7 rfl, ?_⟩
  cases hresult : (experiment.runWith (Generator.ofSeed 0xffffffffffffffff)
      (Generator.ofSeed 0)).result with
  | ok tracked => exact ⟨experiment, tracked, hresult, hwalk, hok tracked hresult⟩
  | error error => exact absurd (hrun.1.symm.trans (herror error hresult).1) (by decide)

end Demo

end PlanarKalman
