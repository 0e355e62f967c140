import PlanarKalman.Proofs.Csv.Writing
import PlanarKalman.Proofs.Numeral.Fixed
import PlanarKalman.Experiment.Recording

/-!
# Tables, read back

A reader has the text of a table and nothing else. It cuts the text into lines and the
lines into fields, and it can do so because no field holds a comma or an end of line:
a numeral has none of them (`Numeral.mem_fixed`), and a row number is made of digits.
What the fields say is then a matter of one numeral at a time.

A table is written from whatever hands out its rows (`Supply.Yields`), so what holds of
the table of a list holds of that of a walk, whose positions are drawn while the table is
written.
-/

namespace PlanarKalman

open Numeral

variable {σ β : Type} [Supply σ β]

namespace Csv

/-! ## Lines of a text -/

/-- A text of lines, each of them with an end. -/
def terminated (lines : List (List Char)) : List Char := lines.flatMap (· ++ ['\n'])

theorem intercalate_eq_terminated (lines : List (List Char)) :
    ['\n'].intercalate (lines ++ [[]]) = terminated lines := by
  induction lines with
  | nil => rfl
  | cons line rest ih =>
      have hrest : rest ++ [[]] ≠ [] := by simp
      rw [List.cons_append, List.intercalate_cons_of_ne_nil hrest, ih, terminated, terminated,
        List.flatMap_cons]

/-- Behind the end of the last line there is nothing. -/
theorem splitOn_terminated {lines : List (List Char)} (h : ∀ line ∈ lines, '\n' ∉ line) :
    (terminated lines).splitOn '\n' = lines ++ [[]] := by
  rw [← intercalate_eq_terminated]
  refine List.splitOn_intercalate '\n' ?_ (by simp)
  rw [List.forall_mem_append, List.forall_mem_singleton]
  exact ⟨h, List.not_mem_nil⟩

/-! ## Rows -/

/-- The fields of a row. -/
def rowTexts (number : Nat) (fields : List Float) : List (List Char) :=
  Nat.toDigits 10 number :: fields.map fun a => (fixed 6 a).toList

def rowLine (number : Nat) (fields : List Float) : List Char :=
  [','].intercalate (rowTexts number fields)

theorem toList_row (number : Nat) (fields : List Float) :
    (row number fields).toList = rowLine number fields ++ ['\n'] := by
  rw [row, String.toList_append, String.toList_intercalate, List.map_cons, List.map_map,
    Nat.toString_eq_repr, Nat.toList_repr]
  rfl

theorem isDigit_or_of_mem_rowTexts {number : Nat} {fields : List Float} {text : List Char}
    (htext : text ∈ rowTexts number fields) {c : Char} (hc : c ∈ text) :
    c.isDigit ∨ c ∈ ['-', '.', 'N', 'a', 'i', 'n', 'f'] := by
  rcases List.mem_cons.mp htext with rfl | hfield
  · exact .inl (Nat.isDigit_of_mem_toDigits (by decide : 0 < 10) (by decide) hc)
  · obtain ⟨a, -, rfl⟩ := List.mem_map.mp hfield
    exact mem_fixed hc

theorem not_mem_rowTexts {number : Nat} {fields : List Float} {text : List Char}
    (htext : text ∈ rowTexts number fields) : ',' ∉ text ∧ '\n' ∉ text :=
  ⟨fun h => absurd (isDigit_or_of_mem_rowTexts htext h) (by decide),
    fun h => absurd (isDigit_or_of_mem_rowTexts htext h) (by decide)⟩

theorem splitOn_rowLine (number : Nat) (fields : List Float) :
    (rowLine number fields).splitOn ',' = rowTexts number fields :=
  List.splitOn_intercalate ',' (fun _ h => (not_mem_rowTexts h).1) (List.cons_ne_nil _ _)

/-- What stands in a joined text stands in a part of it or is a separator. -/
theorem mem_intercalate {sep c : Char} {parts : List (List Char)}
    (hc : c ∈ [sep].intercalate parts) : c = sep ∨ ∃ part ∈ parts, c ∈ part := by
  induction parts with
  | nil => cases hc
  | cons part rest ih =>
      cases rest with
      | nil =>
          rw [List.intercalate_singleton] at hc
          exact .inr ⟨part, List.mem_cons_self, hc⟩
      | cons next rest =>
          rw [List.intercalate_cons_cons, List.append_assoc, List.mem_append, List.mem_append,
            List.mem_singleton] at hc
          rcases hc with hpart | rfl | hrest
          · exact .inr ⟨part, List.mem_cons_self, hpart⟩
          · exact .inl rfl
          · rcases ih hrest with hsep | ⟨other, hother, hmem⟩
            · exact .inl hsep
            · exact .inr ⟨other, List.mem_cons_of_mem _ hother, hmem⟩

theorem not_mem_rowLine (number : Nat) (fields : List Float) : '\n' ∉ rowLine number fields := by
  intro hmem
  rcases mem_intercalate hmem with hsep | ⟨text, htext, hc⟩
  · exact absurd hsep (by decide)
  · exact (not_mem_rowTexts htext).2 hc

/-- The line has the number of its row, and then these numbers, correctly rounded. -/
def IsRow (number : Nat) (fields : List Float) (line : List Char) : Prop :=
  ∃ texts, line.splitOn ',' = Nat.toDigits 10 number :: texts ∧
    List.Forall₂ (fun a text => ∃ d, readFixed? 6 text = some d ∧ d.IsRoundingOf 6 a)
      fields texts

theorem isRow_rowLine (number : Nat) (fields : List Float) :
    IsRow number fields (rowLine number fields) := by
  refine ⟨_, splitOn_rowLine number fields, ?_⟩
  rw [List.forall₂_map_right_iff, List.forall₂_same]
  exact fun a _ => readFixed?_fixed 6 a

/-! ## Tables -/

/-- The lines of the rows, the first of which has the given number. -/
def rowLines (fields : β → List Float) (number : Nat) (items : List β) : List (List Char) :=
  items.mapIdx fun i item => rowLine (number + i) (fields item)

theorem not_mem_of_mem_rowLines {fields : β → List Float} {number : Nat} {items : List β} :
    ∀ line ∈ rowLines fields number items, '\n' ∉ line := by
  intro line hline
  obtain ⟨i, -, rfl⟩ := List.mem_mapIdx.mp hline
  exact not_mem_rowLine _ _

theorem rowLines_cons (fields : β → List Float) (number : Nat) (item : β) (later : List β) :
    rowLines fields number (item :: later)
      = rowLine number (fields item) :: rowLines fields (number + 1) later := by
  simp [rowLines, List.mapIdx_cons, Nat.add_assoc, Nat.add_comm 1]

theorem toList_rowsText (fields : β → List Float) (number : Nat) (list : List β) :
    (rowsText fields number list).toList = terminated (rowLines fields number list) := by
  induction list generalizing number with
  | nil => rfl
  | cons item later ih =>
      rw [rowsText_cons, String.toList_append, toList_row, ih, rowLines_cons, terminated,
        terminated, List.flatMap_cons]

theorem toList_tableText (columns : List String) (fields : β → List Float) (list : List β) :
    (tableText columns fields list).toList
      = terminated ([','].intercalate (columns.map String.toList) :: rowLines fields 0 list) := by
  rw [tableText, String.toList_append, toList_rowsText, String.toList_append,
    String.toList_intercalate, terminated, terminated, List.flatMap_cons]
  rfl

/-- Without a bound everything is written. -/
theorem writeTable_unbounded (columns : List String) (fields : β → List Float) {items : σ}
    {list : List β} (hitems : Supply.Yields items list)
    (hcount : Supply.count items = list.length) :
    (writeTable columns fields (.ofRoom none) items).complete = true ∧
      (writeTable columns fields (.ofRoom none) items).sink.text
        = tableText columns fields list := by
  have hwrite := (isWriteOf_writeTable columns fields hitems hcount (.ofRoom none)).written
  obtain ⟨hsink, hcomplete⟩ := Prod.mk.inj hwrite
  exact ⟨hcomplete, (congrArg Sink.text hsink).trans (String.empty_append ..)⟩

/-- The text is a table with these columns and rows: a line for the names of the columns and
one for each row, every line with an end and nothing behind the last one. -/
def IsTable (columns : List String) (rows : List (List Float)) (text : String) : Prop :=
  ∃ header lines, text.toList.splitOn '\n' = header :: lines ++ [[]] ∧
    header.splitOn ',' = columns.map String.toList ∧
    lines.length = rows.length ∧
    ∀ number fields, rows[number]? = some fields → ∃ line, lines[number]? = some line ∧
      (line.splitOn ',').length = columns.length ∧ IsRow number fields line

theorem not_mem_header {columns : List String}
    (hnames : ∀ name ∈ columns, ',' ∉ name.toList ∧ '\n' ∉ name.toList) :
    '\n' ∉ [','].intercalate (columns.map String.toList) := by
  intro hmem
  rcases mem_intercalate hmem with hsep | ⟨part, hpart, hc⟩
  · exact absurd hsep (by decide)
  · obtain ⟨name, hname, rfl⟩ := List.mem_map.mp hpart
    exact (hnames name hname).2 hc

/-- Names of columns can be read if nothing in them separates names or lines. -/
theorem isTable_tableText {columns : List String} (hcolumns : columns ≠ [])
    (hnames : ∀ name ∈ columns, ',' ∉ name.toList ∧ '\n' ∉ name.toList)
    {fields : β → List Float} {list : List β}
    (hlength : ∀ item ∈ list, (fields item).length + 1 = columns.length) :
    IsTable columns (list.map fields) (tableText columns fields list) := by
  refine ⟨[','].intercalate (columns.map String.toList), rowLines fields 0 list, ?_, ?_,
    by simp [rowLines], ?_⟩
  · rw [toList_tableText]
    exact splitOn_terminated
      (List.forall_mem_cons.mpr ⟨not_mem_header hnames, not_mem_of_mem_rowLines⟩)
  · refine List.splitOn_intercalate ',' (fun part hpart => ?_) (by simpa using hcolumns)
    obtain ⟨name, hname, rfl⟩ := List.mem_map.mp hpart
    exact (hnames name hname).1
  · intro number row hrow
    rw [List.getElem?_map, Option.map_eq_some_iff] at hrow
    obtain ⟨item, hitem, rfl⟩ := hrow
    refine ⟨rowLine number (fields item), ?_, ?_, isRow_rowLine _ _⟩
    · rw [rowLines, List.getElem?_mapIdx, hitem, Option.map_some, Nat.zero_add]
    · rw [splitOn_rowLine, rowTexts, List.length_cons, List.length_map]
      exact hlength item (List.mem_of_getElem? hitem)

/-- The fields of all rows of a table, as they are written. -/
def dataRows (text : String) : List (List (List Char)) :=
  ((text.toList.splitOn '\n').drop 1).dropLast.map fun line => line.splitOn ','

theorem dataRows_tableText {columns : List String}
    (hnames : ∀ name ∈ columns, ',' ∉ name.toList ∧ '\n' ∉ name.toList)
    (fields : β → List Float) (list : List β) :
    dataRows (tableText columns fields list)
      = list.mapIdx fun number item => rowTexts number (fields item) := by
  rw [dataRows, toList_tableText, splitOn_terminated (List.forall_mem_cons.mpr
    ⟨not_mem_header hnames, not_mem_of_mem_rowLines⟩), List.cons_append, List.drop_one,
    List.tail_cons, List.dropLast_concat, rowLines]
  refine List.ext_getElem? fun i => ?_
  simp only [List.getElem?_map, List.getElem?_mapIdx, Option.map_map, Function.comp_def,
    Nat.zero_add, splitOn_rowLine]

theorem isTable_writeTable {columns : List String} (hcolumns : columns ≠ [])
    (hnames : ∀ name ∈ columns, ',' ∉ name.toList ∧ '\n' ∉ name.toList)
    {fields : β → List Float} {items : σ} {list : List β} (hitems : Supply.Yields items list)
    (hcount : Supply.count items = list.length)
    (hlength : ∀ item ∈ list, (fields item).length + 1 = columns.length) :
    (writeTable columns fields (.ofRoom none) items).complete = true ∧
      IsTable columns (list.map fields)
        (writeTable columns fields (.ofRoom none) items).sink.text := by
  obtain ⟨hcomplete, htext⟩ := writeTable_unbounded columns fields hitems hcount
  rw [htext]
  exact ⟨hcomplete, isTable_tableText hcolumns hnames hlength⟩

theorem dataRows_writeTable {columns : List String}
    (hnames : ∀ name ∈ columns, ',' ∉ name.toList ∧ '\n' ∉ name.toList)
    {fields : β → List Float} {items : σ} {list : List β} (hitems : Supply.Yields items list)
    (hcount : Supply.count items = list.length) :
    dataRows (writeTable columns fields (.ofRoom none) items).sink.text
      = list.mapIdx fun number item => rowTexts number (fields item) := by
  rw [(writeTable_unbounded columns fields hitems hcount).2, dataRows_tableText hnames]

/-- The table of a walk is read back, whatever its positions are handed out by. -/
theorem isTable_writeWalk {σ : Type} [Supply σ (Point Float)] {positions : σ}
    {list : List (Point Float)} (hitems : Supply.Yields positions list)
    (hcount : Supply.count positions = list.length) :
    (writeWalk (.ofRoom none) positions).complete = true ∧
      IsTable ["step", "x", "y"] (list.map fun p => [p.x, p.y])
        (writeWalk (.ofRoom none) positions).sink.text :=
  isTable_writeTable (by decide) (by decide) hitems hcount fun _ _ => rfl

theorem dataRows_writeWalk {σ : Type} [Supply σ (Point Float)] {positions : σ}
    {list : List (Point Float)} (hitems : Supply.Yields positions list)
    (hcount : Supply.count positions = list.length) :
    dataRows (writeWalk (.ofRoom none) positions).sink.text
      = list.mapIdx fun number p => rowTexts number [p.x, p.y] :=
  dataRows_writeTable (by decide) hitems hcount

theorem isTable_writeRecording (r : Recording Float) :
    (writeRecording (.ofRoom none) r).complete = true ∧
      IsTable ["step", "realx", "realy", "noisex", "noisey", "estx", "esty"]
        (r.toList.map Record.coordinates) (writeRecording (.ofRoom none) r).sink.text :=
  isTable_writeTable (by decide) (by decide) (Supply.yields_list r.toList) rfl fun _ _ => rfl

theorem dataRows_writeRecording (r : Recording Float) :
    dataRows (writeRecording (.ofRoom none) r).sink.text
      = r.toList.mapIdx fun number record => rowTexts number record.coordinates :=
  dataRows_writeTable (by decide) (Supply.yields_list r.toList) rfl

/-- Tables are read back: a recording from a table with a row for each record, in the order
of the records, and the positions of a walk from one with a row for each position. Every
row has its number and the coordinates of its record, each correctly rounded to six
places; what is no finite number is read back as what it is. -/
theorem tables_read_back :
    (∀ r : Recording Float, (writeRecording (.ofRoom none) r).complete = true ∧
      IsTable ["step", "realx", "realy", "noisex", "noisey", "estx", "esty"]
        (r.toList.map fun record => [record.truth.x, record.truth.y, record.reading.x,
          record.reading.y, record.estimate.x, record.estimate.y])
        (writeRecording (.ofRoom none) r).sink.text) ∧
    ∀ positions : List (Point Float), (writeWalk (.ofRoom none) positions).complete = true ∧
      IsTable ["step", "x", "y"] (positions.map fun p => [p.x, p.y])
        (writeWalk (.ofRoom none) positions).sink.text := by
  constructor
  · intro r
    exact isTable_writeRecording r
  · intro positions
    exact isTable_writeWalk (Supply.yields_list positions) rfl

end Csv

end PlanarKalman
