import PlanarKalman.Filter.Basic
import PlanarKalman.Numeral.Writing

/-!
# What a filter says about its errors

The wording of faults and errors. Numbers stand in the text with the fewest
digits that read back and never with an exponent.
-/

namespace PlanarKalman

def CovarianceParameter.name : CovarianceParameter → String
  | .initialCovariance => "initial covariance"
  | .measurementVariance => "measurement variance"
  | .processVariance => "process variance"
  | .processNoise => "process noise"

def inWords (a : Float) : String := Numeral.plain a

/-- A matrix shape, such as `4x4`. -/
def shapeText (rows columns : Nat) : String :=
  toString rows ++ "x" ++ toString columns

def ConfigFault.message : ConfigFault Float → String
  | .timestep found => "timestep must be positive and finite, got " ++ inWords found
  | .position => "initial position must be finite"
  | .variance p found => p.name ++ " must be finite and non-negative, got " ++ inWords found
  | .shape p size rows columns =>
    p.name ++ " must be " ++ shapeText size size ++ ", got " ++ shapeText rows columns
  | .notFinite p => p.name ++ " has non-finite entries"
  | .notSymmetric p => p.name ++ " must be symmetric"
  | .negativeDiagonal p found => p.name ++ " has a negative diagonal entry " ++ inWords found
  | .notSemidefinite p eigenvalue =>
    p.name ++ " must be positive semi-definite, smallest eigenvalue " ++ inWords eigenvalue

def FilterError.message : FilterError Float → String
  | .invalidConfiguration fault => "invalid configuration: " ++ fault.message
  | .singularInnovation => "innovation covariance is singular"
  | .outOfSequence => "update called out of sequence: predict must run first"

end PlanarKalman
