import PlanarKalman.Csv.Table
import PlanarKalman.Experiment.Error

/-!
# Recordings

The record of a tracking run: for each step where the target was, what the
sensor read, and where the filter believed the target to be. Steps are appended
and never changed.
-/

namespace PlanarKalman

structure Record (α : Type) where
  truth : Point α
  reading : Point α
  estimate : Point α
deriving DecidableEq

/-- The steps of a run in order of time. -/
structure Recording (α : Type) where
  records : Array (Record α)
deriving DecidableEq

namespace Recording

variable {α : Type}

def empty : Recording α := ⟨#[]⟩

def push (r : Recording α) (record : Record α) : Recording α := ⟨r.records.push record⟩

def length (r : Recording α) : Nat := r.records.size

def isEmpty (r : Recording α) : Bool := r.records.isEmpty

def last? (r : Recording α) : Option (Record α) := r.records.back?

def toList (r : Recording α) : List (Record α) := r.records.toList

@[simp] theorem toList_empty : (empty : Recording α).toList = [] := rfl

@[simp] theorem toList_push (r : Recording α) (record : Record α) :
    (r.push record).toList = r.toList ++ [record] := by
  simp [toList, push]

@[simp] theorem length_toList (r : Recording α) : r.toList.length = r.length := by
  simp [toList, length]

@[simp] theorem length_push (r : Recording α) (record : Record α) :
    (r.push record).length = r.length + 1 := by
  simp [length, push]

def truths (r : Recording α) : List (Point α) := r.toList.map Record.truth

def readings (r : Recording α) : List (Point α) := r.toList.map Record.reading

def estimates (r : Recording α) : List (Point α) := r.toList.map Record.estimate

end Recording

/-- The coordinates of a step: truth, reading, estimate. -/
def Record.coordinates {α : Type} (r : Record α) : List α :=
  [r.truth.x, r.truth.y, r.reading.x, r.reading.y, r.estimate.x, r.estimate.y]

/-- What writing says to its caller. -/
def Csv.Writing.result {σ : Type} (w : Csv.Writing σ) : Except (ExperimentError Float) Unit :=
  if w.complete then .ok () else .error .shortWrite

def Csv.writeRecording (sink : Sink) (r : Recording Float) : Csv.Writing (List (Record Float)) :=
  Csv.writeTable ["step", "realx", "realy", "noisex", "noisey", "estx", "esty"]
    Record.coordinates sink r.toList

end PlanarKalman
