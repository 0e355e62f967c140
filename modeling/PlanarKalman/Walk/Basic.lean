import PlanarKalman.Motion
import PlanarKalman.Random.Source
import PlanarKalman.Walk.Config

/-!
# Random walks

A random walk starts at rest in the origin. In each step the position moves on
with the velocity it has, and then the velocity changes by normal noise and is
cut back to its bounds. The path is smooth, curves at random, and its speed is
bounded.

A walk is its parameters and the random source it starts from. It is read
through cursors: a cursor holds the last state it gave out, how many are still
to come, and its own copy of the source. Every new cursor starts from the
beginning, and none of them moves another.
-/

namespace PlanarKalman

variable {ρ α : Type}

namespace State

variable [Scalar α] [NormalSource ρ α]

/-- A velocity component after a step: changed by noise of the size of the step,
and cut back to the bounds. -/
def perturb (stepSize maxVelocity v : α) (source : ρ) : α × ρ :=
  let (change, source) := gaussian stepSize source
  (clampBetween (-maxVelocity) maxVelocity (v + change), source)

/-- One step of a walk. The position uses the old velocity, and the first
component of the velocity is changed first. -/
def advance (stepSize maxVelocity : α) (s : State α) (source : ρ) : State α × ρ :=
  let (vx, source) := perturb stepSize maxVelocity s.vx source
  let (vy, source) := perturb stepSize maxVelocity s.vy source
  (⟨s.x + s.vx * stepSize, s.y + s.vy * stepSize, vx, vy⟩, source)

/-- One step of a walk whose bound may be unusable: with a negative or undefined
bound there is no interval to cut the velocity back to, and no step. -/
def advance? (stepSize maxVelocity : α) (s : State α) (source : ρ) :
    Option (State α × ρ) :=
  if -maxVelocity ≤ maxVelocity then some (advance stepSize maxVelocity s source) else none

def origin : State α := ⟨0, 0, 0, 0⟩

end State

/-- A place in a walk. -/
structure Cursor (ρ α : Type) where
  /-- The state given out last, if there was one. -/
  last : Option (State α)
  remaining : Nat
  stepSize : α
  maxVelocity : α
  source : ρ
deriving DecidableEq

namespace Cursor

variable [Scalar α] [NormalSource ρ α]

/-- The state that comes next, and the source after it has been drawn. The first
state needs no step. -/
def following (c : Cursor ρ α) : State α × ρ :=
  match c.last with
  | none => (State.origin, c.source)
  | some s => s.advance c.stepSize c.maxVelocity c.source

/-- The next state and the place behind it, until the walk is over. -/
def next? (c : Cursor ρ α) : Option (State α × Cursor ρ α) :=
  match c.remaining with
  | 0 => none
  | remaining + 1 =>
    let (s, source) := c.following
    some (s, { c with last := some s, remaining, source })

theorem next?_eq_none_iff {c : Cursor ρ α} : c.next? = none ↔ c.remaining = 0 := by
  unfold next?
  split <;> simp_all

/-- Draws states, at most `count` of them, onto those drawn before; the latest
comes first. -/
def takeOnto (drawn : List (State α)) (c : Cursor ρ α) : Nat → List (State α) × Cursor ρ α
  | 0 => (drawn, c)
  | count + 1 =>
    match c.next? with
    | none => (drawn, c)
    | some (s, c) => takeOnto (s :: drawn) c count

/-- States drawn earlier stay behind the new ones and change nothing else. -/
theorem takeOnto_eq (drawn : List (State α)) (c : Cursor ρ α) (count : Nat) :
    takeOnto drawn c count =
      ((takeOnto [] c count).1 ++ drawn, (takeOnto [] c count).2) := by
  induction count generalizing drawn c with
  | zero => rfl
  | succ count ih =>
    simp only [takeOnto]
    cases c.next? with
    | none => rfl
    | some next =>
      obtain ⟨s, c⟩ := next
      simp only
      rw [ih (s :: drawn), ih [s]]
      simp

/-- The next states, at most `count` of them, and the place behind them. -/
def take (c : Cursor ρ α) (count : Nat) : List (State α) × Cursor ρ α :=
  let (drawn, c) := takeOnto [] c count
  (drawn.reverse, c)

theorem take_succ (c : Cursor ρ α) (count : Nat) :
    c.take (count + 1) =
      match c.next? with
      | none => ([], c)
      | some (s, d) => (s :: (d.take count).1, (d.take count).2) := by
  simp only [take, takeOnto]
  cases c.next? with
  | none => rfl
  | some next =>
    obtain ⟨s, d⟩ := next
    simp only
    rw [takeOnto_eq]
    simp

/-- All states still to come, and the place behind them. -/
def drain (c : Cursor ρ α) : List (State α) × Cursor ρ α := c.take c.remaining

end Cursor

/-- A random walk: its parameters, and the source that every reading of it
starts from. -/
structure Walk (ρ α : Type) where
  config : WalkConfig α
  source : ρ
deriving DecidableEq

namespace Walk

def create [Scalar α] (config : WalkConfig α) (source : ρ) : Except (WalkFault α) (Walk ρ α) :=
  match config.validate with
  | .error fault => .error fault
  | .ok () => .ok ⟨config, source⟩

def length (w : Walk ρ α) : Nat := w.config.steps

def cursor (w : Walk ρ α) : Cursor ρ α where
  last := none
  remaining := w.config.steps
  stepSize := w.config.stepSize
  maxVelocity := w.config.maxVelocity
  source := w.source

variable [Scalar α] [NormalSource ρ α]

def states (w : Walk ρ α) : List (State α) := w.cursor.drain.1

def positions (w : Walk ρ α) : List (Point α) := w.states.map State.position

end Walk

end PlanarKalman
