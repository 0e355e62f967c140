import PlanarKalman.Filter.Config

/-!
# The filter

A linear filter over the constant-velocity motion. Its belief about the target
is a mean and a covariance of the state `x, y, vx, vy`. With `F` and `Q` the
motion and its noise, `H` and `R` the sensor and its noise,

    predict   mean := F mean              P := F P Ft + Q
    update    S := H P Ht + R             K := P Ht S^-1
              mean := mean + K (z - H mean)
              P := (I - K H) P (I - K H)t + K R Kt

where `t` transposes. The second covariance is the long form of `(I - K H) P`:
it is a sum of squares, so rounding does not take it out of the covariances,
and its symmetric part is stored.

A filter is a value. An update gives the next filter or says why there is none,
so a failing update cannot leave anything behind.
-/

namespace PlanarKalman

/-- What a filter waits for. A strict filter insists on it. -/
inductive Phase where
  | awaitingPredict
  | awaitingUpdate
deriving DecidableEq, Repr

/-- Why a filter cannot be made or cannot take a reading. -/
inductive FilterError (α : Type) where
  | invalidConfiguration (fault : ConfigFault α)
  | singularInnovation
  | outOfSequence
deriving DecidableEq, Repr

/-- What a filter knows after a reading. -/
structure Estimate (α : Type) where
  position : Point α
  covariance : Mat 4 4 α
deriving DecidableEq

/-- The matrices that a filter applies. They stay the same for its whole life. -/
structure FilterModel (α : Type) where
  transition : Mat 4 4 α
  processNoise : Mat 4 4 α
  observation : Mat 2 4 α
  measurementNoise : Mat 2 2 α
deriving DecidableEq

/-- A filter: its parameters, and its belief about the target. -/
structure Filter (α : Type) where
  config : FilterConfig α
  model : FilterModel α
  mean : Column 4 α
  covariance : Mat 4 4 α
  phase : Phase

namespace Filter

variable {α : Type}

def state (f : Filter α) : State α := State.ofColumn f.mean

def estimate (f : Filter α) : Estimate α := ⟨f.state.position, f.covariance⟩

/-- May an update come now? -/
def admitsUpdate (f : Filter α) : Bool :=
  !f.config.strict || f.phase == .awaitingUpdate

variable [Scalar α]

/-- A filter with the given parameters, believing in a target at rest. -/
def create [SmallestEigenvalue α] (config : FilterConfig α) :
    Except (FilterError α) (Filter α) :=
  match config.resolve with
  | .error fault => .error (.invalidConfiguration fault)
  | .ok covariances => .ok {
      config
      model := {
        transition := Motion.transition config.timestep
        processNoise := covariances.process
        observation := Motion.observation
        measurementNoise := covariances.measurement }
      mean := (State.restingAt config.initialPosition).toColumn
      covariance := covariances.initial
      phase := .awaitingPredict }

def predict (f : Filter α) : Filter α :=
  let F := f.model.transition
  { f with
    mean := F * f.mean
    covariance := F * f.covariance * F.transpose + f.model.processNoise
    phase := .awaitingUpdate }

/-! ## Readings -/

/-- How a reading is expected to vary: the belief seen through the sensor, and
the noise of the sensor. -/
def innovationCovariance (f : Filter α) : Mat 2 2 α :=
  let H := f.model.observation
  H * f.covariance * H.transpose + f.model.measurementNoise

/-- The inverse of the innovation covariance, if there is one and its entries
are finite. -/
def innovationInverse? (f : Filter α) : Option (Mat 2 2 α) :=
  f.innovationCovariance.inverse?.filter Mat.isFinite

/-- How much of a difference between reading and expectation is believed, for
the inverse of the innovation covariance. -/
def gain (f : Filter α) (inverse : Mat 2 2 α) : Mat 4 2 α :=
  f.covariance * f.model.observation.transpose * inverse

/-- The covariance after a reading has been taken in with the gain `K`, whether
or not `K` is the best one. -/
def posterior (f : Filter α) (K : Mat 4 2 α) : Mat 4 4 α :=
  let rest := Mat.identity - K * f.model.observation
  rest * f.covariance * rest.transpose + K * f.model.measurementNoise * K.transpose

/-- The belief after a reading, for the inverse of the innovation covariance. -/
def correct (f : Filter α) (z : Point α) (inverse : Mat 2 2 α) : Filter α :=
  let K := f.gain inverse
  { f with
    mean := f.mean + K * (z.toColumn - f.model.observation * f.mean)
    covariance := (f.posterior K).symmetricPart
    phase := .awaitingPredict }

def update (f : Filter α) (z : Point α) : Except (FilterError α) (Filter α) :=
  if f.admitsUpdate then
    match f.innovationInverse? with
    | some inverse => .ok (f.correct z inverse)
    | none => .error .singularInnovation
  else
    .error .outOfSequence

end Filter

end PlanarKalman
