import PlanarKalman.Filter.Basic

/-!
# Using a filter call by call

A session with a filter is a list of calls. Each call has an effect on the
filter and, when a reading is involved, an outcome: an estimate or a reason why
there is none. After a failed update the filter is the one from before; after a
failed step it is the one that `predict` leaves, because a step predicts first.
-/

namespace PlanarKalman

inductive Call (α : Type) where
  | predict
  | update (reading : Point α)
  | step (reading : Point α)
deriving DecidableEq

/-- The answer to a call: nothing for a prediction, else the estimate or the
error. -/
abbrev Outcome (α : Type) : Type := Option (Except (FilterError α) (Estimate α))

namespace Filter

variable {α : Type} [Scalar α]

/-- Takes in a reading, or keeps the filter as it is. -/
def attempt (f : Filter α) (z : Point α) :
    Filter α × Except (FilterError α) (Estimate α) :=
  match f.update z with
  | .ok next => (next, .ok next.estimate)
  | .error e => (f, .error e)

/-- Predicts and then takes in a reading, the usual call for each reading. -/
def step (f : Filter α) (z : Point α) :
    Filter α × Except (FilterError α) (Estimate α) :=
  f.predict.attempt z

def call (f : Filter α) : Call α → Filter α × Outcome α
  | .predict => (f.predict, none)
  | .update z => let (next, answer) := f.attempt z; (next, some answer)
  | .step z => let (next, answer) := f.step z; (next, some answer)

def after (f : Filter α) (calls : List (Call α)) : Filter α :=
  calls.foldl (fun f c => (f.call c).1) f

def outcomes (f : Filter α) : List (Call α) → List (Outcome α)
  | [] => []
  | c :: rest => (f.call c).2 :: ((f.call c).1).outcomes rest

end Filter

end PlanarKalman
