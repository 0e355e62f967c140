import PlanarKalman.Matrix.Basic

/-!
# The smallest eigenvalue of a symmetric matrix

Whether a symmetric matrix is a covariance is decided by its smallest
eigenvalue. Which numbers can be asked for one is a class of its own, so that a
theorem about the decision can take the eigenvalue as given.

For binary64 numbers it is computed in the classical two stages. Reflections
bring the matrix to tridiagonal form, one column after the other
(`Band.ofTriangle`). Then shifted orthogonal rotations shrink the numbers beside the
diagonal; whenever one of them is negligible against its two diagonal
neighbours the problem falls apart there, and blocks of two are solved by the
quadratic formula (`Band.isolate`). Only the lower triangle is read, and the
matrix is scaled to entries of at most one before all this.
-/

namespace PlanarKalman

/-- Numbers over which the smallest eigenvalue of a symmetric matrix can be
computed. The matrix is given by its lower triangle; what stands above the
diagonal is not looked at. -/
class SmallestEigenvalue (α : Type) where
  smallestEigenvalue : {n : Nat} → Mat n n α → α

namespace Eigenvalue

/-- Sign of a number, a zero counting as positive. -/
def signOf (a : Float) : Float := if 0.0 ≤ a then 1.0 else -1.0

def dot (u v : List Float) : Float :=
  (List.zipWith (· * ·) u v).foldl (· + ·) 0.0

/-- The lower triangle of a symmetric matrix: for each column the entries from
the diagonal downwards. -/
abbrev Triangle : Type := List (List Float)

/-! ## Tridiagonal form -/

/-- A reflection that sends a column to a multiple of its first axis, and that
multiple's magnitude. -/
structure Reflection where
  length : Float
  /-- The unit vector that is reversed; none when the column is zero and nothing
  has to be done. -/
  axis : Option (List Float)

/-- The reflection for a column. Its axis is the column moved away from zero
along its first entry, brought to length one; dividing by the length twice
removes the rounding error of the first division. -/
def Reflection.ofColumn (column : List Float) : Reflection :=
  let squares := dot column column
  let norm := squares.sqrt
  let first := column.headD 0.0
  let signed := signOf first * norm
  let factor := (squares + first.abs * norm) * 2.0
  if factor == 0.0 then
    ⟨signed.abs, none⟩
  else
    let moved := (first + signed) :: column.drop 1
    let scaled := moved.map (· / factor.sqrt)
    let scaledNorm := (dot scaled scaled).sqrt
    ⟨signed.abs, some (scaled.map (· / scaledNorm))⟩

/-- Twice the product of a symmetric matrix and a vector, added to `total`. Each
column contributes to its own place as a row, and to the places below as a
column. -/
def Triangle.addTwiceProduct : Triangle → List Float → List Float → List Float
  | column :: columns, u :: us, total :: totals =>
    (total + 2.0 * dot column (u :: us)) ::
      addTwiceProduct columns us
        (List.zipWith (fun t a => 2.0 * u * a + t) totals (column.drop 1))
  | _, _, _ => []

/-- Twice the product of a symmetric matrix and a vector. The first column is
the first summand everywhere. -/
def Triangle.twiceProduct : Triangle → List Float → List Float
  | column :: columns, u :: us =>
    match column.map (2.0 * u * ·) with
    | total :: totals =>
      (total + 2.0 * dot (column.drop 1) us) :: addTwiceProduct columns us totals
    | [] => []
  | _, _ => []

/-- Adds `factor` times the product of the column `u` and the row `v` to a lower
triangle. -/
def Triangle.addOuter (factor : Float) : Triangle → List Float → List Float → Triangle
  | column :: columns, u :: us, v :: vs =>
    List.zipWith (fun a x => factor * v * x + a) column (u :: us) ::
      addOuter factor columns us vs
  | _, _, _ => []

/-- A symmetric matrix seen from the reflected axes: the reflection applied on
both sides. -/
def Triangle.reflect (t : Triangle) (axis : List Float) : Triangle :=
  let p := t.twiceProduct axis
  let both := dot axis p
  let t := t.addOuter (-1.0) p axis
  let t := t.addOuter (-1.0) axis p
  t.addOuter (both * 2.0) axis axis

/-- A tridiagonal symmetric matrix: the diagonal, and the numbers beside it. -/
structure Band where
  diagonal : Array Float
  beside : Array Float

/-- The tridiagonal matrix with the same eigenvalues, for a triangle of the
given size. -/
def Band.ofTriangle : Nat → Triangle → Band
  | size + 1, (corner :: below) :: rest =>
    if below.isEmpty then
      ⟨#[corner], #[]⟩
    else
      let reflection := Reflection.ofColumn below
      let inner :=
        match reflection.axis with
        | some axis => Triangle.reflect rest axis
        | none => rest
      let band := ofTriangle size inner
      ⟨#[corner] ++ band.diagonal, #[reflection.length] ++ band.beside⟩
  | _, _ => ⟨#[], #[]⟩

/-! ## Rotations -/

namespace Band

/-- The relative size below which a number beside the diagonal counts as zero:
the distance from one to the next number. -/
def negligible : Float := 2.220446049250313e-16

def diagonalAt (b : Band) (i : Nat) : Float := b.diagonal.getD i 0.0

def besideAt (b : Band) (i : Nat) : Float := b.beside.getD i 0.0

def setDiagonal (b : Band) (i : Nat) (a : Float) : Band :=
  { b with diagonal := b.diagonal.setIfInBounds i a }

def setBeside (b : Band) (i : Nat) (a : Float) : Band :=
  { b with beside := b.beside.setIfInBounds i a }

/-- Is the number between two diagonal entries small against them? -/
def isSplit (b : Band) (i : Nat) : Bool :=
  !(negligible * ((b.diagonalAt (i + 1)).abs + (b.diagonalAt i).abs) < (b.besideAt i).abs)

/-- The last place, at most `i`, that still belongs to a block of two or more. -/
def lastCoupled (b : Band) : Nat → Nat
  | 0 => 0
  | i + 1 => if b.isSplit i then b.lastCoupled i else i + 1

/-- The first place of the block that reaches to `i`, and the matrix with the
number in front of that block cleared. -/
def firstCoupled (b : Band) : Nat → Band × Nat
  | 0 => (b, 0)
  | i + 1 =>
    if b.besideAt i == 0.0 ∨ b.isSplit i then (b.setBeside i 0.0, i + 1)
    else b.firstCoupled i

/-- The last block of two or more that ends at most at `i`, as its first and last
place; the two are zero when there is none. -/
def lastBlock (b : Band) (i : Nat) : Band × Nat × Nat :=
  match b.lastCoupled i with
  | 0 => (b, 0, 0)
  | last + 1 =>
    let (b, first) := b.firstCoupled last
    (b, first, last + 1)

/-- The eigenvalue of a two-by-two matrix that is nearest to its last entry:
subtracting it makes the rotations converge. -/
def shift (before last beside : Float) : Float :=
  let square := beside * beside
  if square == 0.0 then last
  else
    let half := (before - last) * 0.5
    last - square / (half + signOf half * (half * half + square).sqrt)

/-- One sweep of rotations through a block. `x, y` is the pair that the next
rotation turns onto its first axis; a zero `y` ends the sweep. -/
def sweep (first last : Nat) : (places : Nat) → (x y : Float) → Band → Band
  | 0, _, _, b => b
  | places + 1, x, y, b =>
    if y == 0.0 then b
    else
      let i := last - (places + 1)
      let length := (x.abs * x.abs + y * y).sqrt
      let c := x.abs / length
      let s := -signOf x * (y / length)
      let b := if first < i then b.setBeside (i - 1) (signOf x * length) else b
      let upper := b.diagonalAt i
      let lower := b.diagonalAt (i + 1)
      let beside := b.besideAt i
      let cc := c * c
      let ss := s * s
      let cs := c * s
      let mixed := cs * 2.0 * beside
      let b := b.setDiagonal i (cc * upper + ss * lower - mixed)
      let b := b.setDiagonal (i + 1) (ss * upper + cc * lower + mixed)
      let b := b.setBeside i (cs * (upper - lower) + beside * (cc - ss))
      if i + 1 = last then b
      else
        let next := b.besideAt (i + 1)
        sweep first last places (b.besideAt i) (-s * next) (b.setBeside (i + 1) (next * c))

/-- Puts the two eigenvalues of a block of two in the place of its diagonal. -/
def solvePair (b : Band) (first : Nat) : Band :=
  let upper := b.diagonalAt first
  let lower := b.diagonalAt (first + 1)
  let beside := b.besideAt first
  let half := (upper - lower) * 0.5
  let root := (beside * beside + half * half).sqrt
  let mean := (upper + lower) * 0.5
  (b.setDiagonal first (mean + root)).setDiagonal (first + 1) (mean - root)

/-- Works off the blocks from the end until every number beside the diagonal is
negligible; the diagonal then holds the eigenvalues. A sweep gains several
digits, so the bound on their number is never met. -/
def isolate : (sweeps : Nat) → Band → Nat → Band
  | 0, b, _ => b
  | sweeps + 1, b, last =>
    match b.lastBlock last with
    | (b, first, last) =>
      if first = last then b
      else if first + 1 = last then
        isolate sweeps (b.solvePair first) (last - 1)
      else
        let target := shift (b.diagonalAt (last - 1)) (b.diagonalAt last) (b.besideAt (last - 1))
        let b := b.sweep first last (last - first) (b.diagonalAt first - target) (b.besideAt first)
        isolate sweeps b (if b.isSplit (last - 1) then last - 1 else last)

end Band

def Triangle.ofMat {n : Nat} (A : Mat n n Float) : Triangle :=
  A.transpose.toLists.zipIdx.map fun (column, i) => column.drop i

/-- All eigenvalues of the symmetric matrix with the lower triangle of `A`. -/
def ofSymmetric {n : Nat} (A : Mat n n Float) : List Float :=
  let largest := A.maxMagnitude
  let triangle := Triangle.ofMat A
  let scaled :=
    if largest == 0.0 then triangle else triangle.map fun column => column.map (· / largest)
  let band := Band.ofTriangle n scaled
  (band.isolate 1000 (n - 1)).diagonal.toList.map (· * largest)

end Eigenvalue

instance : SmallestEigenvalue Float where
  smallestEigenvalue A :=
    match Eigenvalue.ofSymmetric A with
    | [] => 0.0
    | first :: rest => rest.foldl (fun least a => if a < least then a else least) first

end PlanarKalman
