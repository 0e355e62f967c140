import PlanarKalman.Experiment.Basic
import PlanarKalman.Numeral.Word
import PlanarKalman.Walk.Intensity

/-!
# The demonstration program

Draws a random walk, follows it with a filter, and writes two tables: the walk,
and the run with truth, reading and estimate in each step. Then it prints one
line about the errors and about how many steps were the fastest so far.

The arguments are a seed and a number of steps, each of which may be left out.
Both are read before anything else happens. The table of the walk is written
before the run begins, so it is there also when the run fails. The noise has the
source of the next seed.
-/

namespace PlanarKalman.Demo

/-- What the program leaves behind: its exit code, what it prints, and the tables
it writes. -/
structure Result where
  code : UInt32
  stdout : String
  stderr : String
  walkTable : Option String
  runTable : Option String
deriving DecidableEq, Repr

inductive Failure where
  | argument (fault : Numeral.WordFault)
  | experiment (error : ExperimentError Float)

def braced (label content : String) : String := label ++ " \x7b " ++ content ++ " \x7d"

def faultKind : Numeral.WordFault → String
  | .empty => "Empty"
  | .badDigit => "InvalidDigit"
  | .tooLarge => "PosOverflow"

def inQuotes (content : String) : String := "\"" ++ content ++ "\""

def labelled (label content : String) : String := label ++ "(" ++ content ++ ")"

def filterErrorText : FilterError Float → String
  | .invalidConfiguration fault => labelled "InvalidConfiguration" (inQuotes fault.message)
  | .singularInnovation => "SingularInnovationCovariance"
  | .outOfSequence => "OutOfSequenceCall"

def experimentErrorText : ExperimentError Float → String
  | .walk fault => labelled "InvalidConfiguration" (inQuotes fault.message)
  | .sensor fault => labelled "InvalidConfiguration" (inQuotes fault.message)
  | .filter error => labelled "Filter" (filterErrorText error)
  | .shortWrite =>
    let reason := inQuotes ExperimentError.shortWriteReason
    labelled "Io" (braced "Error" ("kind: WriteZero, message: " ++ reason))

/-- What is printed about a failure, after its heading. -/
def Failure.text : Failure → String
  | .argument fault => braced "ParseIntError" ("kind: " ++ faultKind fault)
  | .experiment error => experimentErrorText error

/-- A failed program, with the tables written before it failed. -/
def Failure.result (failure : Failure) (walkTable : Option String) : Result where
  code := 1
  stdout := ""
  stderr := "Error: " ++ failure.text ++ "\n"
  walkTable := walkTable
  runTable := none

/-- The argument at a place, or a default when it is left out. -/
def argument (args : List String) (place default : Nat) : Except Numeral.WordFault Nat :=
  match args[place]? with
  | none => .ok default
  | some text => Numeral.readWord text

def arguments (args : List String) : Except Numeral.WordFault (UInt64 × Nat) := do
  let standard : ExperimentConfig Float := .demonstration
  let seed ← argument args 0 standard.seed.toNat
  let steps ← argument args 1 standard.walk.steps
  pure (UInt64.ofNat seed, steps)

def config (seed : UInt64) (steps : Nat) : ExperimentConfig Float :=
  { ExperimentConfig.demonstration with
    walk := { WalkConfig.demonstration with steps }
    seed }

/-- How many steps of a path are at least as long as all before them. -/
def fastestSteps (path : List (Point Float)) : Nat :=
  (Intensity.ofPath path).countP fun intensity => 1.0 ≤ intensity

def summary (tracked : Tracked Float) (fastest : Nat) : String :=
  let rmse (a : Option Float) := Numeral.fixed 3 (a.getD (0.0 / 0.0))
  toString tracked.recording.length ++ " steps, estimate RMSE " ++
    rmse tracked.errors.estimateRmse ++ ", measurement RMSE " ++
    rmse tracked.errors.readingRmse ++ ", " ++ toString fastest ++ " new fastest steps\n"

/-- Follows a walk and writes down the run. -/
def follow (experiment : Experiment Float) (walk : Walk Generator Float)
    (walkTable : String) : Result :=
  let noise := Generator.ofSeed (experiment.config.seed + 1)
  let report : Report Generator Float := experiment.runWith walk.source noise
  match report.result with
  | .error error => Failure.result (.experiment error) (some walkTable)
  | .ok tracked =>
    let table := (Csv.writeRecording (.ofRoom none) tracked.recording).sink.text
    { code := 0
      stdout := summary tracked (fastestSteps walk.positions)
      stderr := ""
      walkTable := some walkTable
      runTable := some table }

def simulate (seed : UInt64) (steps : Nat) : Result :=
  let config := config seed steps
  match Walk.create config.walk (Generator.ofSeed seed) with
  | .error fault => Failure.result (.experiment (.walk fault)) none
  | .ok walk =>
    let walkTable := (Csv.writeWalk (.ofRoom none) walk.cursor).sink.text
    match (Experiment.create config).1 with
    | .error error => Failure.result (.experiment error) (some walkTable)
    | .ok experiment => follow experiment walk walkTable

def run (args : List String) : Result :=
  match arguments args with
  | .error fault => Failure.result (.argument fault) none
  | .ok (seed, steps) => simulate seed steps

end PlanarKalman.Demo
