import PlanarKalman.Matrix.Basic

/-!
# Points of the plane

Positions, and velocities as well, are points. The distance of two points is
the root of the sum of the squared coordinate differences, taken as it stands:
over rounded numbers it overflows when a square does.
-/

namespace PlanarKalman

/-- A point of the plane, or a vector of it. -/
structure Point (α : Type) where
  x : α
  y : α
deriving DecidableEq

namespace Point

variable {α : Type}

/-- The coordinates below each other. -/
def toColumn (p : Point α) : Column 2 α :=
  Mat.column fun i => if i.val = 0 then p.x else p.y

def isFinite [Scalar α] (p : Point α) : Bool :=
  Scalar.isFinite p.x && Scalar.isFinite p.y

def distance [Scalar α] [SquareRoot α] (p q : Point α) : α :=
  let dx := p.x - q.x
  let dy := p.y - q.y
  SquareRoot.sqrt (dx * dx + dy * dy)

end Point

end PlanarKalman
