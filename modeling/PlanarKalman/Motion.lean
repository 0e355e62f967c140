import PlanarKalman.Geometry

/-!
# Motion at constant velocity

A target has a position and a velocity. Left alone for a time `dt` it moves by
`dt` times its velocity and keeps the velocity; a sensor sees the position
only. Both are linear, with the matrices `transition` and `observation` on
columns `x, y, vx, vy`.

That the velocity does change is put into the process noise. An unknown
acceleration of variance `q` that acts for one time step has, on each axis, the
covariance

    q * [dt^4/4  dt^3/2]
        [dt^3/2  dt^2  ]

and the two axes do not touch (`accelerationNoise`).
-/

namespace PlanarKalman

structure State (α : Type) where
  x : α
  y : α
  vx : α
  vy : α
deriving DecidableEq

namespace State

variable {α : Type}

def position (s : State α) : Point α := ⟨s.x, s.y⟩

def velocity (s : State α) : Point α := ⟨s.vx, s.vy⟩

/-- The components below each other, position first. -/
def toColumn (s : State α) : Column 4 α :=
  Mat.column fun i =>
    if i.val = 0 then s.x else if i.val = 1 then s.y
    else if i.val = 2 then s.vx else s.vy

def ofColumn (c : Column 4 α) : State α :=
  ⟨c.component 0, c.component 1, c.component 2, c.component 3⟩

def restingAt [Zero α] (p : Point α) : State α := ⟨p.x, p.y, 0, 0⟩

end State

namespace Motion

variable {α : Type} [Scalar α]

/-- What a time `dt` of undisturbed motion does to a state. -/
def transition (dt : α) : Mat 4 4 α :=
  Mat.ofFn fun i j =>
    if i.val = j.val then 1 else if i.val + 2 = j.val then dt else 0

/-- The covariance that an acceleration of the given variance adds to the state
when it acts for a time `dt`. -/
def accelerationNoise (dt variance : α) : Mat 4 4 α :=
  let dt2 := dt * dt
  let dt3 := dt2 * dt
  let dt4 := dt3 * dt
  let positions := variance * dt4 / 4.0
  let mixed := variance * dt3 / 2.0
  let velocities := variance * dt2
  Mat.ofFn fun i j =>
    if i.val = j.val then
      if i.val < 2 then positions else velocities
    else if i.val + 2 = j.val ∨ j.val + 2 = i.val then
      mixed
    else
      0

/-- What the sensor sees of a state: its position. -/
def observation : Mat 2 4 α := Mat.identity

end Motion

end PlanarKalman
