import PlanarKalman.Filter.Message
import PlanarKalman.Sensor
import PlanarKalman.Walk.Config

/-!
# What can go wrong in an experiment

Parameters of the walk or the sensor out of range, an error of the filter, or a
sink that takes less than it is given.
-/

namespace PlanarKalman

/-- Why an experiment cannot be set up, run or written down. -/
inductive ExperimentError (α : Type) where
  | walk (fault : WalkFault α)
  | sensor (fault : SensorFault α)
  | filter (error : FilterError α)
  | shortWrite
deriving DecidableEq, Repr

def WalkFault.message : WalkFault Float → String
  | .noSteps => "trajectory needs at least one step"
  | .stepSize found => "step size must be positive and finite, got " ++ inWords found
  | .maxVelocity found => "max velocity must be positive and finite, got " ++ inWords found

def SensorFault.message (f : SensorFault Float) : String :=
  "measurement noise std dev must be finite and non-negative, got " ++ inWords f.found

namespace ExperimentError

/-- What is said of a write that did not fit. -/
def shortWriteReason : String := "failed to write whole buffer"

def message : ExperimentError Float → String
  | .walk fault => "invalid simulation configuration: " ++ fault.message
  | .sensor fault => "invalid simulation configuration: " ++ fault.message
  | .filter error => "filter error: " ++ error.message
  | .shortWrite => "I/O error: " ++ shortWriteReason

end ExperimentError

end PlanarKalman
