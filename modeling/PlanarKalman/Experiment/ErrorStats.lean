import PlanarKalman.Geometry

/-!
# Error statistics

How far the estimate and the plain reading were from the truth, step by step,
and over all steps as the root of the mean square. Comparing the two shows what
the filter is worth. The sums of squares are kept up to date with each step, so
the means are always at hand.
-/

namespace PlanarKalman

/-- The errors of all steps so far, and the sums of their squares. -/
structure ErrorStats (α : Type) where
  estimateErrors : Array α
  readingErrors : Array α
  estimateSquares : α
  readingSquares : α
deriving DecidableEq

namespace ErrorStats

variable {α : Type}

def length (s : ErrorStats α) : Nat := s.estimateErrors.size

def isEmpty (s : ErrorStats α) : Bool := s.estimateErrors.isEmpty

/-- The error of the latest estimate. -/
def currentEstimateError? (s : ErrorStats α) : Option α := s.estimateErrors.back?

def currentReadingError? (s : ErrorStats α) : Option α := s.readingErrors.back?

variable [Scalar α]

def empty : ErrorStats α := ⟨#[], #[], 0, 0⟩

def push (s : ErrorStats α) (estimateError readingError : α) : ErrorStats α where
  estimateErrors := s.estimateErrors.push estimateError
  readingErrors := s.readingErrors.push readingError
  estimateSquares := s.estimateSquares + estimateError * estimateError
  readingSquares := s.readingSquares + readingError * readingError

@[simp] theorem estimateErrors_push (s : ErrorStats α) (e r : α) :
    (s.push e r).estimateErrors.toList = s.estimateErrors.toList ++ [e] := by
  simp [push]

@[simp] theorem readingErrors_push (s : ErrorStats α) (e r : α) :
    (s.push e r).readingErrors.toList = s.readingErrors.toList ++ [r] := by
  simp [push]

variable [SquareRoot α]

/-- Adds the errors of a step, as distances from the truth. -/
def pushPositions (s : ErrorStats α) (truth reading estimate : Point α) : ErrorStats α :=
  s.push (truth.distance estimate) (truth.distance reading)

/-- The root of a mean square, if there was any step. -/
def rootMean (s : ErrorStats α) (squares : α) : Option α :=
  if s.isEmpty then none else some (SquareRoot.sqrt (squares / (s.length : α)))

def estimateRmse (s : ErrorStats α) : Option α := s.rootMean s.estimateSquares

def readingRmse (s : ErrorStats α) : Option α := s.rootMean s.readingSquares

end ErrorStats

end PlanarKalman
