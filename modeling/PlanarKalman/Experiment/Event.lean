import PlanarKalman.Filter.Basic

/-!
# The log of an experiment

What an experiment reports while it is set up and run. Events are data; their
wording, and how severe they are, are functions of them.
-/

namespace PlanarKalman

/-- How severe an event is, the worst first. -/
inductive Severity where
  | error
  | warning
  | info
  | debug
  | trace
deriving DecidableEq, Repr

/-- Something an experiment reports. -/
inductive Event (α : Type) where
  | configured
  | started (seed : UInt64) (deviation : α)
  | stepped (step : Nat) (reading estimate : Point α)
  | updateFailed (step : Nat) (error : FilterError α)
  | completed (steps : Nat) (estimateRmse readingRmse : Option α)
deriving DecidableEq

namespace Event

variable {α : Type}

def severity : Event α → Severity
  | .configured => .debug
  | .started .. => .info
  | .stepped .. => .trace
  | .updateFailed .. => .warning
  | .completed .. => .info

def message : Event α → String
  | .configured => "tracking run configured"
  | .started .. => "starting tracking run"
  | .stepped .. => "step"
  | .updateFailed .. => "filter update failed"
  | .completed .. => "tracking run complete"

end Event

end PlanarKalman
