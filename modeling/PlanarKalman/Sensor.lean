import PlanarKalman.Geometry
import PlanarKalman.Random.Source

/-!
# The sensor

Readings of a position: the true position with normal noise on each axis. How
noisy the sensor is and how noisy a filter takes it to be are two things, kept
apart so that they can differ.
-/

namespace PlanarKalman

/-- A sensor, by the standard deviation of its noise on each axis. -/
structure Sensor (α : Type) where
  deviation : α
deriving DecidableEq, Repr

structure SensorFault (α : Type) where
  found : α
deriving DecidableEq, Repr

namespace Sensor

variable {α : Type} [Scalar α]

def demonstrationDeviation : α := 8.0

def create (deviation : α) : Except (SensorFault α) (Sensor α) :=
  if IsNonNegative deviation then .ok ⟨deviation⟩ else .error ⟨deviation⟩

/-- A reading of a true position. The noise of the first coordinate is drawn
first. -/
def read {ρ : Type} [NormalSource ρ α] (s : Sensor α) (truth : Point α) (source : ρ) :
    Point α × ρ :=
  let (dx, source) := gaussian s.deviation source
  let (dy, source) := gaussian s.deviation source
  (⟨truth.x + dx, truth.y + dy⟩, source)

end Sensor

end PlanarKalman
