import PlanarKalman.Matrix.Eigenvalue
import PlanarKalman.Motion

/-!
# Filter parameters and their validation

A filter is given by where it starts, how sure it is of that, how noisy the
sensor and the motion are, and how much time passes between readings. The three
covariances come in a short form, one number, or as a full matrix.

Validation turns each of them into the matrix the filter will use. A number only
has to be finite and not negative: its matrix is a covariance by construction.
A full matrix is checked for shape, finite entries, symmetry, its diagonal and
its smallest eigenvalue, in this order, and then taken entry by entry as it is,
so small asymmetries within the tolerance stay in it. Faults are data; their
wording is a matter of `PlanarKalman.Filter.Message`.
-/

namespace PlanarKalman

/-- A covariance as it is asked for: one variance for all directions, or all
entries. -/
inductive CovarianceForm (α : Type) where
  | uniform (variance : α)
  | full (rows columns : Nat) (entries : Mat rows columns α)

/-- Process noise as it is asked for: the variance of an unknown acceleration,
or the whole covariance of one step. -/
inductive ProcessNoiseForm (α : Type) where
  | acceleration (variance : α)
  | full (rows columns : Nat) (entries : Mat rows columns α)

structure FilterConfig (α : Type) where
  initialPosition : Point α
  initialCovariance : CovarianceForm α
  measurementNoise : CovarianceForm α
  processNoise : ProcessNoiseForm α
  timestep : α
  /-- Is an update refused unless a prediction came before it? -/
  strict : Bool

/-- The parameters of the demonstration: very unsure of the start, so that the
first readings dominate, and a sensor with a standard deviation of eight. -/
def FilterConfig.demonstration {α : Type} [Scalar α] : FilterConfig α where
  initialPosition := ⟨0, 0⟩
  initialCovariance := .uniform 50000.0
  measurementNoise := .uniform 64.0
  processNoise := .acceleration 0.001
  timestep := 0.1
  strict := false

/-- The parameters that can be at fault in more than one way. -/
inductive CovarianceParameter where
  | initialCovariance
  | measurementVariance
  | processVariance
  | processNoise
deriving DecidableEq, Repr

/-- Why parameters are refused, with the value that was found. -/
inductive ConfigFault (α : Type) where
  | timestep (found : α)
  | position
  | variance (parameter : CovarianceParameter) (found : α)
  | shape (parameter : CovarianceParameter) (size rows columns : Nat)
  | notFinite (parameter : CovarianceParameter)
  | notSymmetric (parameter : CovarianceParameter)
  | negativeDiagonal (parameter : CovarianceParameter) (found : α)
  | notSemidefinite (parameter : CovarianceParameter) (eigenvalue : α)
deriving DecidableEq, Repr

namespace FilterConfig

variable {α : Type} [Scalar α]

/-! ## Covariances -/

/-- A variance is finite and not negative. -/
def checkVariance (parameter : CovarianceParameter) (variance : α) :
    Except (ConfigFault α) Unit :=
  if IsNonNegative variance then .ok () else .error (.variance parameter variance)

/-- How far entries may be from symmetric and an eigenvalue below zero. -/
def tolerance {n : Nat} (A : Mat n n α) : α := 1e-9 * larger A.maxMagnitude 1

/-- A covariance is symmetric and positive semi-definite, up to rounding. The
diagonal is looked at by itself, without any tolerance. -/
def checkCovariance [SmallestEigenvalue α] {n : Nat} (parameter : CovarianceParameter)
    (A : Mat n n α) : Except (ConfigFault α) Unit :=
  if tolerance A < (A - A.transpose).maxMagnitude then
    .error (.notSymmetric parameter)
  else
    match A.diagonal.find? (fun a => a < 0) with
    | some found => .error (.negativeDiagonal parameter found)
    | none =>
      let eigenvalue := SmallestEigenvalue.smallestEigenvalue A
      if eigenvalue < -tolerance A then
        .error (.notSemidefinite parameter eigenvalue)
      else
        .ok ()

/-- A full matrix as a covariance of the size the filter needs. -/
def resolveFull [SmallestEigenvalue α] (parameter : CovarianceParameter) (size : Nat)
    {rows columns : Nat} (entries : Mat rows columns α) :
    Except (ConfigFault α) (Mat size size α) :=
  match entries.reshape? size size with
  | none => .error (.shape parameter size rows columns)
  | some A =>
    if A.isFinite then do
      checkCovariance parameter A
      pure A
    else
      .error (.notFinite parameter)

def resolveCovariance [SmallestEigenvalue α] (parameter : CovarianceParameter) (size : Nat) :
    CovarianceForm α → Except (ConfigFault α) (Mat size size α)
  | .uniform variance => do
    checkVariance parameter variance
    pure (Mat.identity.scale variance)
  | .full _ _ entries => resolveFull parameter size entries

def resolveProcessNoise [SmallestEigenvalue α] (dt : α) :
    ProcessNoiseForm α → Except (ConfigFault α) (Mat 4 4 α)
  | .acceleration variance => do
    checkVariance .processVariance variance
    pure (Motion.accelerationNoise dt variance)
  | .full _ _ entries => resolveFull .processNoise 4 entries

/-! ## All parameters -/

structure Covariances (α : Type) where
  initial : Mat 4 4 α
  measurement : Mat 2 2 α
  process : Mat 4 4 α

/-- Validates all parameters, in the order timestep, position, initial
covariance, measurement noise, process noise; the first fault is reported. -/
def resolve [SmallestEigenvalue α] (c : FilterConfig α) :
    Except (ConfigFault α) (Covariances α) := do
  unless IsPositive c.timestep do
    throw (.timestep c.timestep)
  unless c.initialPosition.isFinite do
    throw .position
  let initial ← resolveCovariance .initialCovariance 4 c.initialCovariance
  let measurement ← resolveCovariance .measurementVariance 2 c.measurementNoise
  let process ← resolveProcessNoise c.timestep c.processNoise
  pure ⟨initial, measurement, process⟩

end FilterConfig

end PlanarKalman
