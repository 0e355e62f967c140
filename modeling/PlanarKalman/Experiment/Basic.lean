import PlanarKalman.Experiment.Error
import PlanarKalman.Experiment.ErrorStats
import PlanarKalman.Experiment.Event
import PlanarKalman.Experiment.Recording
import PlanarKalman.Filter.Call
import PlanarKalman.Random.ChaCha
import PlanarKalman.Random.Normal

/-!
# Experiments

An experiment follows a target with a filter. For each true position the sensor
gives a reading, the filter takes a step with it, and truth, reading and
estimate are recorded. The first error of the filter ends the run; what was
recorded until then is given up.

The true positions come from a random walk or from elsewhere, and the noise from
a source of its own. A report says how a run ended, where it left the noise
source, which true positions it did not come to, and what it logged.
-/

namespace PlanarKalman

/-- Everything that is needed to repeat a run. -/
structure ExperimentConfig (α : Type) where
  walk : WalkConfig α
  /-- The standard deviation of the sensor's noise. What the filter takes it to be
  is a parameter of the filter. -/
  deviation : α
  filter : FilterConfig α
  seed : UInt64

def ExperimentConfig.demonstration {α : Type} [Scalar α] : ExperimentConfig α :=
  ⟨.demonstration, Sensor.demonstrationDeviation, .demonstration, 0⟩

/-- What a completed run has to show. -/
structure Tracked (α : Type) where
  recording : Recording α
  errors : ErrorStats α
  final : Option (Estimate α)
deriving DecidableEq

namespace Tracked

variable {α : Type} [Scalar α]

def empty : Tracked α := ⟨.empty, .empty, none⟩

def push [SquareRoot α] (t : Tracked α) (truth reading : Point α) (estimate : Estimate α) :
    Tracked α where
  recording := t.recording.push ⟨truth, reading, estimate.position⟩
  errors := t.errors.pushPositions truth reading estimate.position
  final := some estimate

end Tracked

structure Report (ρ α : Type) where
  result : Except (ExperimentError α) (Tracked α)
  /-- The noise source as the run left it. -/
  noise : ρ
  /-- The true positions that the run did not come to. -/
  unread : List (Point α)
  events : Array (Event α)

structure Experiment (α : Type) where
  config : ExperimentConfig α
  sensor : Sensor α

namespace Experiment

variable {ρ τ α : Type} [Scalar α]

/-- Validates the parameters: those of the walk first, then the sensor's, then
the filter's. -/
def validate [SmallestEigenvalue α] (config : ExperimentConfig α) :
    Except (ExperimentError α) (Experiment α) := do
  config.walk.validate.mapError .walk
  let sensor ← (Sensor.create config.deviation).mapError .sensor
  discard ((Filter.create config.filter).mapError .filter)
  pure ⟨config, sensor⟩

/-- An experiment with the given parameters, and what is logged about it. -/
def create [SmallestEigenvalue α] (config : ExperimentConfig α) :
    Except (ExperimentError α) (Experiment α) × List (Event α) :=
  match validate config with
  | .ok e => (.ok e, [.configured])
  | .error error => (.error error, [])

variable [SquareRoot α] [NormalSource ρ α] [NormalSource τ α]

/-- Follows the target through the remaining true positions. -/
def follow (sensor : Sensor α) (filter : Filter α) (tracked : Tracked α)
    (events : Array (Event α)) (noise : ρ) : List (Point α) → Report ρ α
  | [] =>
    let errors := tracked.errors
    { result := .ok tracked
      noise
      unread := []
      events := events.push
        (.completed tracked.recording.length errors.estimateRmse errors.readingRmse) }
  | truth :: rest =>
    let step := tracked.recording.length
    let (reading, noise) := sensor.read truth noise
    match filter.step reading with
    | (filter, .ok estimate) =>
      follow sensor filter (tracked.push truth reading estimate)
        (events.push (.stepped step reading estimate.position)) noise rest
    | (_, .error error) =>
      { result := .error (.filter error)
        noise
        unread := rest
        events := events.push (.updateFailed step error) }

/-- Follows a target whose true positions are given, with a new filter. -/
def track [SmallestEigenvalue α] (e : Experiment α) (truths : List (Point α)) (noise : ρ) :
    Report ρ α :=
  match Filter.create e.config.filter with
  | .error error =>
    { result := .error (.filter error), noise, unread := truths, events := #[] }
  | .ok filter =>
    follow e.sensor filter .empty #[.started e.config.seed e.sensor.deviation] noise truths

/-- Follows a random walk, drawn from one source, with noise from another. -/
def runWith [SmallestEigenvalue α] (e : Experiment α) (walkSource : τ) (noise : ρ) : Report ρ α :=
  match Walk.create e.config.walk walkSource with
  | .error fault =>
    { result := .error (.walk fault), noise, unread := [], events := #[] }
  | .ok walk => e.track walk.positions noise

/-- The sources of the walk and of the noise that belong to a seed. -/
def sourcesOfSeed (seed : UInt64) : Generator × Generator :=
  let (walkSeed, source) := (Generator.ofSeed seed).next
  let (noiseSeed, _) := source.next
  (.ofSeed walkSeed, .ofSeed noiseSeed)

/-- Follows a random walk with the sources that belong to the seed of the
experiment. -/
def run (e : Experiment Float) : Report Generator Float :=
  let (walkSource, noise) := sourcesOfSeed e.config.seed
  e.runWith walkSource noise

end Experiment

end PlanarKalman
