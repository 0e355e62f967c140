import PlanarKalman.Csv.Sink
import PlanarKalman.Numeral.Writing
import PlanarKalman.Walk.Basic

/-!
# Tables of numbers

A table is a header line and a line for each row. A row begins with its number,
counted from zero, and goes on with numbers of six decimal places; commas stand
between the fields, and every line ends with a line feed.

Rows are asked for one at a time, each when the one before it has been written.
A walk can be far longer than the sink, and no position is drawn after the row
that did not fit.
-/

namespace PlanarKalman

/-- Things that hand out items one after the other and know how many are left. -/
class Supply (σ : Type) (β : outParam Type) where
  count : σ → Nat
  next? : σ → Option (β × σ)

instance {β : Type} : Supply (List β) β where
  count := List.length
  next?
    | [] => none
    | item :: rest => some (item, rest)

/-- A cursor hands out the positions of its walk. -/
instance {ρ α : Type} [Scalar α] [NormalSource ρ α] : Supply (Cursor ρ α) (Point α) where
  count := Cursor.remaining
  next? c := c.next?.map fun (s, c) => (s.position, c)

namespace Csv

/-- How writing ended: the sink, the items not asked for, and whether everything
was written. -/
structure Writing (σ : Type) where
  sink : Sink
  rest : σ
  complete : Bool

def row (number : Nat) (fields : List Float) : String :=
  ",".intercalate (toString number :: fields.map (Numeral.fixed 6)) ++ "\n"

variable {σ β : Type} [Supply σ β]

/-- Writes at most `count` rows, numbered from `number` on, and stops at the first
one that does not fit. -/
def writeRows (fields : β → List Float) : Nat → Nat → Sink → σ → Writing σ
  | 0, _, sink, items => ⟨sink, items, true⟩
  | count + 1, number, sink, items =>
    match Supply.next? items with
    | none => ⟨sink, items, true⟩
    | some (item, items) =>
      match sink.write (row number (fields item)) with
      | (sink, true) => writeRows fields count (number + 1) sink items
      | (sink, false) => ⟨sink, items, false⟩

/-- Writes a table: the names of its columns, and a row for each item. -/
def writeTable (columns : List String) (fields : β → List Float) (sink : Sink) (items : σ) :
    Writing σ :=
  match sink.write (",".intercalate columns ++ "\n") with
  | (sink, true) => writeRows fields (Supply.count items) 0 sink items
  | (sink, false) => ⟨sink, items, false⟩

def writeWalk {σ : Type} [Supply σ (Point Float)] (sink : Sink) (positions : σ) : Writing σ :=
  writeTable ["step", "x", "y"] (fun p => [p.x, p.y]) sink positions

end Csv

end PlanarKalman
