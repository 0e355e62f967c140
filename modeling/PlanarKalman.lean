import PlanarKalman.Filter.Call
import PlanarKalman.Filter.Message
import PlanarKalman.Walk.Basic
import PlanarKalman.Walk.Session
import PlanarKalman.Walk.Intensity
import PlanarKalman.Experiment.Basic
import PlanarKalman.Demo
import PlanarKalman.Main
import PlanarKalman.Proofs.Matrix.Algebra
import PlanarKalman.Proofs.Matrix.Semidefinite
import PlanarKalman.Proofs.Motion
import PlanarKalman.Proofs.Filter.Runs
import PlanarKalman.Proofs.Filter.Creation
import PlanarKalman.Proofs.Filter.Covariance
import PlanarKalman.Proofs.Filter.Gain
import PlanarKalman.Proofs.Experiment.Tracking
import PlanarKalman.Proofs.Experiment.Creation
import PlanarKalman.Proofs.Experiment.Uncertainty
import PlanarKalman.Proofs.Filter.Consistency
import PlanarKalman.Proofs.Filter.Protocol
import PlanarKalman.Proofs.Matrix.Definite
import PlanarKalman.Proofs.Filter.Monotone
import PlanarKalman.Proofs.Filter.Batch
import PlanarKalman.Proofs.Walk.Path
import PlanarKalman.Proofs.Walk.Session
import PlanarKalman.Proofs.Filter.Singular
import PlanarKalman.Proofs.Filter.Textbook
import PlanarKalman.Proofs.Matrix.Axes
import PlanarKalman.Proofs.Filter.Axes
import PlanarKalman.Proofs.Experiment.Failure
import PlanarKalman.Proofs.Experiment.ErrorStats
import PlanarKalman.Proofs.Experiment.MeanSquare
import PlanarKalman.Proofs.Experiment.Flow
import PlanarKalman.Proofs.Experiment.Causality
import PlanarKalman.Proofs.Walk.Bounds
import PlanarKalman.Proofs.Walk.Intensity
import PlanarKalman.Proofs.Numeral.Fixed
import PlanarKalman.Proofs.Numeral.Word
import PlanarKalman.Proofs.Csv.Truncation
import PlanarKalman.Proofs.Demo
import PlanarKalman.Proofs.Filter.Averaging
import PlanarKalman.Proofs.Filter.Forgetting
import PlanarKalman.Proofs.Rounding.Grid
import PlanarKalman.Proofs.Rounding.Operations
import PlanarKalman.Proofs.Filter.Finite
import PlanarKalman.Proofs.Filter.Coasting
import PlanarKalman.Proofs.Filter.Growth
import PlanarKalman.Proofs.Filter.ExactSensor
import PlanarKalman.Proofs.Filter.Linearity
import PlanarKalman.Proofs.Filter.Scaling
import PlanarKalman.Proofs.Filter.Symmetry
import PlanarKalman.Proofs.Filter.Acceptance
import PlanarKalman.Proofs.Filter.Tolerance
import PlanarKalman.Proofs.Experiment.Log
import PlanarKalman.Proofs.Walk.Axes
