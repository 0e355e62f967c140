import PlanarKalman.Experiment.ErrorStats

/-!
# Error statistics from the errors alone

The sums of squares are kept up to date entry by entry, and only one of the two
lists is asked for the number of steps. Nothing is lost by that: a sum is always
that of the squares in its own list, taken from the left and from zero, and the
lists are equally long (`IsBalanced`). So each mean is a function of the errors
it is the mean of.

Errors are entered as numbers or as the positions they are distances of, in any
order. Either way an entry is a pair of errors (`enter_eq_push`), and what the
statistics say is what the list of entries says (`IsSummaryOf`).
-/

namespace PlanarKalman

/-- What each added item appends an entry to, all of them append their entries to. -/
theorem view_foldl {σ ε β : Type} {add : σ → ε → σ} (view : σ → List β) (entry : ε → β)
    (hadd : ∀ s item, view (add s item) = view s ++ [entry item]) (s : σ) (items : List ε) :
    view (items.foldl add s) = view s ++ items.map entry := by
  induction items generalizing s with
  | nil => rw [List.map_nil, List.append_nil]; rfl
  | cons item rest ih =>
      rw [List.foldl_cons, ih, hadd, List.append_assoc, List.map_cons]
      rfl

namespace ErrorStats

variable {α : Type} [Scalar α]

/-- The sum of the squares of listed numbers, from the left and from zero. -/
def squareSum (errors : List α) : α := errors.foldl (fun sum error => sum + error * error) 0

/-- The root of the mean square of listed numbers, if there are any. -/
def rootMeanSquare [SquareRoot α] (errors : List α) : Option α :=
  if errors = [] then none
  else some (SquareRoot.sqrt (squareSum errors / (errors.length : α)))

theorem squareSum_append_singleton (errors : List α) (error : α) :
    squareSum (errors ++ [error]) = squareSum errors + error * error := by
  rw [squareSum, List.foldl_append]
  rfl

/-- Statistics whose sums are those of their lists. -/
structure IsBalanced (s : ErrorStats α) : Prop where
  size_eq : s.readingErrors.size = s.estimateErrors.size
  estimateSquares_eq : s.estimateSquares = squareSum s.estimateErrors.toList
  readingSquares_eq : s.readingSquares = squareSum s.readingErrors.toList

theorem isBalanced_empty : (empty : ErrorStats α).IsBalanced := ⟨rfl, rfl, rfl⟩

namespace IsBalanced

variable {s : ErrorStats α}

theorem push (h : s.IsBalanced) (estimateError readingError : α) :
    (s.push estimateError readingError).IsBalanced where
  size_eq := by simp [ErrorStats.push, h.size_eq]
  estimateSquares_eq := by
    rw [estimateErrors_push, squareSum_append_singleton, ← h.estimateSquares_eq]
    rfl
  readingSquares_eq := by
    rw [readingErrors_push, squareSum_append_singleton, ← h.readingSquares_eq]
    rfl

variable [SquareRoot α]

theorem rootMean_squareSum (s : ErrorStats α) {errors : List α}
    (hlength : errors.length = s.length) :
    s.rootMean (squareSum errors) = rootMeanSquare errors := by
  have hempty : s.isEmpty = true ↔ errors = [] := by
    rw [← List.length_eq_zero_iff, hlength]
    simp [isEmpty, ErrorStats.length]
  simp only [rootMean, rootMeanSquare, hempty, hlength]

theorem estimateRmse_eq (h : s.IsBalanced) :
    s.estimateRmse = rootMeanSquare s.estimateErrors.toList := by
  rw [estimateRmse, h.estimateSquares_eq]
  exact rootMean_squareSum s rfl

theorem readingRmse_eq (h : s.IsBalanced) :
    s.readingRmse = rootMeanSquare s.readingErrors.toList := by
  rw [readingRmse, h.readingSquares_eq]
  exact rootMean_squareSum s h.size_eq

end IsBalanced

/-! ## Entries -/

variable [SquareRoot α]

/-- The errors of a step, or the positions that they are the distances of. -/
inductive Entry (α : Type) where
  | errors (estimateError readingError : α)
  | positions (truth reading estimate : Point α)

def Entry.estimateError : Entry α → α
  | .errors estimateError _ => estimateError
  | .positions truth _ estimate => truth.distance estimate

def Entry.readingError : Entry α → α
  | .errors _ readingError => readingError
  | .positions truth reading _ => truth.distance reading

def enter (s : ErrorStats α) : Entry α → ErrorStats α
  | .errors estimateError readingError => s.push estimateError readingError
  | .positions truth reading estimate => s.pushPositions truth reading estimate

def enterAll (s : ErrorStats α) (entries : List (Entry α)) : ErrorStats α :=
  entries.foldl enter s

theorem enter_eq_push (s : ErrorStats α) (entry : Entry α) :
    s.enter entry = s.push entry.estimateError entry.readingError := by
  cases entry <;> rfl

theorem IsBalanced.enterAll {s : ErrorStats α} (h : s.IsBalanced) (entries : List (Entry α)) :
    (s.enterAll entries).IsBalanced := by
  induction entries generalizing s with
  | nil => exact h
  | cons entry rest ih => exact ih (enter_eq_push s entry ▸ h.push _ _)

/-- The statistics are those of the entries, taken all at once. -/
structure IsSummaryOf (s : ErrorStats α) (entries : List (Entry α)) : Prop where
  length_eq : s.length = entries.length
  isEmpty_iff : s.isEmpty = true ↔ entries = []
  estimateErrors_eq : s.estimateErrors.toList = entries.map Entry.estimateError
  readingErrors_eq : s.readingErrors.toList = entries.map Entry.readingError
  currentEstimateError_eq : s.currentEstimateError? = entries.getLast?.map Entry.estimateError
  currentReadingError_eq : s.currentReadingError? = entries.getLast?.map Entry.readingError
  estimateRmse_eq : s.estimateRmse = rootMeanSquare (entries.map Entry.estimateError)
  readingRmse_eq : s.readingRmse = rootMeanSquare (entries.map Entry.readingError)

theorem isSummaryOf_enterAll (entries : List (Entry α)) :
    (empty.enterAll entries).IsSummaryOf entries := by
  have hestimate : (empty.enterAll entries).estimateErrors.toList
      = entries.map Entry.estimateError :=
    view_foldl (fun s => s.estimateErrors.toList) Entry.estimateError
      (by simp [enter_eq_push]) empty entries
  have hreading : (empty.enterAll entries).readingErrors.toList
      = entries.map Entry.readingError :=
    view_foldl (fun s => s.readingErrors.toList) Entry.readingError
      (by simp [enter_eq_push]) empty entries
  have hlength : (empty.enterAll entries).length = entries.length := by
    rw [length, ← Array.length_toList, hestimate, List.length_map]
  have hbalanced := isBalanced_empty.enterAll entries
  refine ⟨hlength, ?_, hestimate, hreading, ?_, ?_, ?_, ?_⟩
  · rw [← List.length_eq_zero_iff, ← hlength]
    simp [isEmpty, length]
  · rw [currentEstimateError?, ← Array.getLast?_toList, hestimate, List.getLast?_map]
  · rw [currentReadingError?, ← Array.getLast?_toList, hreading, List.getLast?_map]
  · rw [hbalanced.estimateRmse_eq, hestimate]
  · rw [hbalanced.readingRmse_eq, hreading]

end ErrorStats

end PlanarKalman
