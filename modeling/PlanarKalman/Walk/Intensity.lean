import PlanarKalman.Geometry

/-!
# Step intensities

How long each step of a path is against the longest step so far, for colouring
a plot. Very short steps do not count as the longest: the comparison starts from
a least distance, so that a path that hardly moves is dark.
-/

namespace PlanarKalman.Intensity

variable {α : Type} [Scalar α] [SquareRoot α]

/-- The distance that the first steps are measured against. -/
def leastDistance : α := 0.01

/-- Adds the intensities of the steps from `previous` on to the earlier ones, the
latest first, when the longest step so far was `longest`. -/
def measureOnto (measured : List α) (longest : α) (previous : Point α) :
    List (Point α) → List α
  | [] => measured
  | current :: rest =>
    let distance := previous.distance current
    let longest := larger longest distance
    measureOnto (distance / longest :: measured) longest current rest

theorem measureOnto_eq (measured : List α) (longest : α) (previous : Point α)
    (path : List (Point α)) :
    measureOnto measured longest previous path =
      measureOnto [] longest previous path ++ measured := by
  induction path generalizing measured longest previous with
  | nil => rfl
  | cons current rest ih =>
    simp only [measureOnto]
    rw [ih, ih [_]]
    simp

/-- One intensity for each step of a path. -/
def ofPath : List (Point α) → List α
  | [] => []
  | start :: rest => (measureOnto [] leastDistance start rest).reverse

theorem length_measureOnto (longest : α) (previous : Point α) (path : List (Point α)) :
    (measureOnto [] longest previous path).length = path.length := by
  induction path generalizing longest previous with
  | nil => rfl
  | cons current rest ih =>
    simp only [measureOnto]
    rw [measureOnto_eq]
    simp [ih]

/-- There is an intensity for each step, and a path of `n` points has `n - 1`
steps. -/
theorem length_ofPath (path : List (Point α)) : (ofPath path).length = path.length - 1 := by
  cases path with
  | nil => rfl
  | cons start rest => simp [ofPath, length_measureOnto]

end PlanarKalman.Intensity
