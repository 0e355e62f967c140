import PlanarKalman.Scalar

/-!
# Matrices

Matrices of a fixed shape, stored row by row, so that an entry is computed once
and then looked up. A matrix is known by its entries (`Mat.ext`), and each
operation says what its entries are.

Over rounded numbers the order of additions shows. A product adds its terms
from left to right and starts from the first of them, not from zero; no term
is left out, so a zero beside an infinity makes the sum undefined. Sums,
differences and multiples are formed entry by entry.
-/

namespace PlanarKalman

structure Mat (m n : Nat) (α : Type) where
  rows : Vector (Vector α n) m
deriving DecidableEq

abbrev Column (n : Nat) (α : Type) : Type := Mat n 1 α

namespace Mat

variable {α : Type} {m n k : Nat}

def entry (A : Mat m n α) (i : Fin m) (j : Fin n) : α := A.rows[i][j]

instance : CoeFun (Mat m n α) fun _ => Fin m → Fin n → α := ⟨entry⟩

def ofFn (f : Fin m → Fin n → α) : Mat m n α :=
  ⟨Vector.ofFn fun i => Vector.ofFn (f i)⟩

@[simp] theorem ofFn_apply (f : Fin m → Fin n → α) (i : Fin m) (j : Fin n) :
    ofFn f i j = f i j := by
  simp [ofFn, entry]

@[ext] theorem ext {A B : Mat m n α} (h : ∀ i j, A i j = B i j) : A = B := by
  obtain ⟨a⟩ := A
  obtain ⟨b⟩ := B
  congr 1
  apply Vector.ext
  intro i hi
  apply Vector.ext
  intro j hj
  exact h ⟨i, hi⟩ ⟨j, hj⟩

def toLists (A : Mat m n α) : List (List α) := A.rows.toList.map Vector.toList

/-- All entries, row by row. -/
def entries (A : Mat m n α) : List α := A.toLists.flatten

/-- The same matrix seen as one of `r` rows and `c` columns, if that is its
shape. -/
def reshape? (r c : Nat) (A : Mat m n α) : Option (Mat r c α) :=
  if h : r = m ∧ c = n then
    some (ofFn fun i j => A (i.cast h.1) (j.cast h.2))
  else
    none

def column (f : Fin n → α) : Column n α := ofFn fun i _ => f i

def component (c : Column n α) (i : Fin n) : α := c i ⟨0, Nat.one_pos⟩

def transpose (A : Mat m n α) : Mat n m α := ofFn fun i j => A j i

/-- The entries from the top left corner downwards. -/
def diagonal (A : Mat n n α) : List α := List.ofFn fun i => A i i

@[simp] theorem transpose_apply (A : Mat m n α) (i : Fin n) (j : Fin m) :
    A.transpose i j = A j i := ofFn_apply ..

/-! ## Arithmetic -/

variable [Scalar α]

instance : Zero (Mat m n α) := ⟨ofFn fun _ _ => 0⟩

instance : Add (Mat m n α) := ⟨fun A B => ofFn fun i j => A i j + B i j⟩

instance : Sub (Mat m n α) := ⟨fun A B => ofFn fun i j => A i j - B i j⟩

/-- The sum of a list from left to right, beginning with its first element. -/
def sum : List α → α
  | [] => 0
  | a :: rest => rest.foldl (· + ·) a

instance : HMul (Mat m k α) (Mat k n α) (Mat m n α) :=
  ⟨fun A B => ofFn fun i j => sum (List.ofFn fun l => A i l * B l j)⟩

/-- Ones on the diagonal and zeros elsewhere, also when the shape is not
square. -/
def identity : Mat m n α := ofFn fun i j => if i.val = j.val then 1 else 0

/-- Every entry multiplied by `c`, which stands on the right. -/
def scale (A : Mat m n α) (c : α) : Mat m n α := ofFn fun i j => A i j * c

@[simp] theorem zero_apply (i : Fin m) (j : Fin n) : (0 : Mat m n α) i j = 0 :=
  ofFn_apply ..

@[simp] theorem add_apply (A B : Mat m n α) (i : Fin m) (j : Fin n) :
    (A + B) i j = A i j + B i j := ofFn_apply ..

@[simp] theorem sub_apply (A B : Mat m n α) (i : Fin m) (j : Fin n) :
    (A - B) i j = A i j - B i j := ofFn_apply ..

theorem mul_apply (A : Mat m k α) (B : Mat k n α) (i : Fin m) (j : Fin n) :
    (A * B) i j = sum (List.ofFn fun l => A i l * B l j) := ofFn_apply ..

@[simp] theorem identity_apply (i : Fin m) (j : Fin n) :
    (identity : Mat m n α) i j = if i.val = j.val then 1 else 0 := ofFn_apply ..

@[simp] theorem scale_apply (A : Mat m n α) (c : α) (i : Fin m) (j : Fin n) :
    A.scale c i j = A i j * c := ofFn_apply ..

/-- The mean of a matrix and its transpose. -/
def symmetricPart (A : Mat n n α) : Mat n n α := (A + A.transpose).scale 0.5

def maxMagnitude (A : Mat m n α) : α :=
  match A.entries with
  | [] => 0
  | a :: rest => rest.foldl (fun most b => larger most (magnitude b)) (magnitude a)

def isFinite (A : Mat m n α) : Bool := A.entries.all Scalar.isFinite

/-- The inverse of a matrix of two rows, by its determinant; there is none when
the determinant is zero. -/
def inverse? (A : Mat 2 2 α) : Option (Mat 2 2 α) :=
  let determinant := A 0 0 * A 1 1 - A 1 0 * A 0 1
  if determinant == 0 then
    none
  else
    some (ofFn fun i j =>
      (if i = j then A (1 - i) (1 - j) else -A i j) / determinant)

end Mat

end PlanarKalman
