import PlanarKalman.Scalar

/-!
# Walk parameters

How long a random walk is, how much time passes in a step, and how fast it may
become on each axis.
-/

namespace PlanarKalman

structure WalkConfig (α : Type) where
  /-- How many states the walk has, the first one included. -/
  steps : Nat
  /-- The time of a step, and the standard deviation of the velocity's change. -/
  stepSize : α
  maxVelocity : α
deriving DecidableEq, Repr

def WalkConfig.demonstration {α : Type} [Scalar α] : WalkConfig α := ⟨3000, 0.1, 1.4⟩

/-- Why walk parameters are refused, with the value that was found. -/
inductive WalkFault (α : Type) where
  | noSteps
  | stepSize (found : α)
  | maxVelocity (found : α)
deriving DecidableEq, Repr

/-- A walk has at least one state, and its step and its bound are positive. -/
def WalkConfig.validate {α : Type} [Scalar α] (c : WalkConfig α) :
    Except (WalkFault α) Unit :=
  if c.steps = 0 then .error .noSteps
  else if ¬ IsPositive c.stepSize then .error (.stepSize c.stepSize)
  else if ¬ IsPositive c.maxVelocity then .error (.maxVelocity c.maxVelocity)
  else .ok ()

end PlanarKalman
