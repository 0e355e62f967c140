import PlanarKalman.Csv.Table

/-!
# Tables, written piece by piece

A table goes into its sink line by line, and a line may go there in pieces. The sink does
not tell: a piece that fits is where the next one goes on (`Sink.write_append_of_fits`), and
behind one that does not fit there is nothing (`Sink.write_append_of_short`). So a table is
one write of its text, whatever the sink, and what there is to know of it is known of
`Sink.write`.

The items of a table are the other half. They are handed out by a supply
(`Supply.Yields`), and one is asked for exactly if the text of those before it fitted.
-/

namespace PlanarKalman

/-! ## Supplies -/

/-- The supply hands out these items and then no more. -/
def Supply.Yields {σ β : Type} [Supply σ β] (items : σ) : List β → Prop
  | [] => Supply.next? items = none
  | item :: later => ∃ rest, Supply.next? items = some (item, rest) ∧ Yields rest later

theorem Supply.yields_list {β : Type} (items : List β) : Yields items items := by
  induction items with
  | nil => rfl
  | cons item later ih => exact ⟨later, rfl, ih⟩

/-! ## Pieces -/

namespace Sink

theorem write_empty (s : Sink) : s.write "" = (s, true) := by
  obtain ⟨text, room⟩ := s
  cases room <;> simp [write]

/-- Both ways a write can end, in one equation. -/
theorem write_bounded (text : String) (room : Nat) (piece : String) :
    write ⟨text, some room⟩ piece
      = (⟨text ++ String.ofList (piece.toList.take room), some (room - piece.length)⟩,
        decide (piece.length ≤ room)) := by
  by_cases hfits : piece.length ≤ room
  · have hall : piece.toList.take room = piece.toList :=
      List.take_of_length_le (by rwa [String.length_toList])
    simp only [write, hall, if_pos hfits, String.ofList_toList, decide_eq_true hfits]
  · have hnone : room - piece.length = 0 := Nat.sub_eq_zero_of_le (Nat.le_of_not_le hfits)
    simp only [write, hnone, if_neg hfits, decide_eq_false hfits]

theorem write_append_of_fits {s t : Sink} {piece : String} (h : s.write piece = (t, true))
    (next : String) : s.write (piece ++ next) = t.write next := by
  obtain ⟨text, room⟩ := s
  cases room with
  | none =>
      obtain rfl : ⟨text ++ piece, none⟩ = t := congrArg Prod.fst h
      simp only [write, String.append_assoc]
  | some room =>
      rw [write_bounded, Prod.mk.injEq, decide_eq_true_eq] at h
      obtain ⟨rfl, hfits⟩ := h
      have hboth : piece.length + next.length ≤ room ↔ next.length ≤ room - piece.length := by
        omega
      simp only [write_bounded, String.toList_append, String.length_append, List.take_append,
        String.length_toList, String.ofList_append, String.append_assoc, hboth, Nat.sub_sub]

theorem write_append_of_short {s t : Sink} {piece : String} (h : s.write piece = (t, false))
    (next : String) : s.write (piece ++ next) = (t, false) := by
  obtain ⟨text, room⟩ := s
  cases room with
  | none => cases h
  | some room =>
      rw [write_bounded, Prod.mk.injEq, decide_eq_false_iff_not] at h
      obtain ⟨rfl, hshort⟩ := h
      have hboth : ¬ piece.length + next.length ≤ room := by omega
      have hnone : room - piece.length = 0 := by omega
      have hleft : room - (piece.length + next.length) = 0 := by omega
      simp only [write_bounded, String.toList_append, String.length_append, List.take_append,
        String.length_toList, hnone, hleft, List.take_zero, List.append_nil,
        decide_eq_false hboth]

/-- Writes one piece after the other, up to the first one that does not fit. -/
def writeAll (s : Sink) : List String → Sink × Bool
  | [] => (s, true)
  | piece :: pieces =>
    match s.write piece with
    | (s, true) => s.writeAll pieces
    | (s, false) => (s, false)

/-- Where a text is cut into pieces cannot be seen in the sink. -/
theorem writeAll_eq_write (s : Sink) (pieces : List String) :
    s.writeAll pieces = s.write (String.join pieces) := by
  induction pieces generalizing s with
  | nil => rw [writeAll, String.join_nil, write_empty]
  | cons piece pieces ih =>
      rw [writeAll, String.join_cons]
      match hwrite : s.write piece with
      | (t, true) => rw [write_append_of_fits hwrite]; exact ih t
      | (t, false) => rw [write_append_of_short hwrite]

end Sink

/-! ## Rows -/

namespace Csv

variable {σ β : Type}

/-- The text of the rows, the first of which has the given number. -/
def rowsText (fields : β → List Float) (number : Nat) (list : List β) : String :=
  String.join (list.mapIdx fun i item => row (number + i) (fields item))

theorem rowsText_nil (fields : β → List Float) (number : Nat) : rowsText fields number [] = "" :=
  rfl

theorem rowsText_cons (fields : β → List Float) (number : Nat) (item : β) (later : List β) :
    rowsText fields number (item :: later)
      = row number (fields item) ++ rowsText fields (number + 1) later := by
  simp only [rowsText, List.mapIdx_cons, String.join_cons, Nat.add_zero, Nat.add_assoc,
    Nat.add_comm 1]

/-- The text of a table. -/
def tableText (columns : List String) (fields : β → List Float) (list : List β) : String :=
  ",".intercalate columns ++ "\n" ++ rowsText fields 0 list

variable [Supply σ β]

/-- The items went into the sink in one write of their text, and an item was asked for
exactly if the text of those before it fits. -/
structure Writing.IsWriteOf (w : Writing σ) (sink : Sink) (text : List β → String)
    (list : List β) : Prop where
  written : (w.sink, w.complete) = sink.write (text list)
  asked : ∃ asked ≤ list.length, Supply.Yields w.rest (list.drop asked) ∧
    ∀ k < list.length, k < asked ↔ (sink.write (text (list.take k))).2 = true

/-- A row that fits, and the rows behind it. -/
theorem Writing.IsWriteOf.cons {w : Writing σ} {fields : β → List Float} {number : Nat}
    {sink t : Sink} {item : β} {later : List β}
    (hwrite : sink.write (row number (fields item)) = (t, true))
    (h : w.IsWriteOf t (rowsText fields (number + 1)) later) :
    w.IsWriteOf sink (rowsText fields number) (item :: later) := by
  obtain ⟨hwritten, asked, hle, hleft, hasked⟩ := h
  refine ⟨?_, asked + 1, Nat.succ_le_succ hle, hleft, fun k hk => ?_⟩
  · rw [hwritten, rowsText_cons, Sink.write_append_of_fits hwrite]
  · cases k with
    | zero => simp [rowsText_nil, Sink.write_empty]
    | succ k =>
        rw [List.take_succ_cons, rowsText_cons, Sink.write_append_of_fits hwrite,
          Nat.add_lt_add_iff_right]
        exact hasked k (Nat.lt_of_succ_lt_succ hk)

/-- A row that does not fit is the last one whose item is asked for. -/
theorem isWriteOf_of_short {fields : β → List Float} {number : Nat} {sink t : Sink} {item : β}
    {later : List β} {rest : σ} (hwrite : sink.write (row number (fields item)) = (t, false))
    (hrest : Supply.Yields rest later) :
    Writing.IsWriteOf ⟨t, rest, false⟩ sink (rowsText fields number) (item :: later) := by
  refine ⟨?_, 1, Nat.succ_le_succ (Nat.zero_le _), hrest, fun k hk => ?_⟩
  · rw [rowsText_cons, Sink.write_append_of_short hwrite]
  · cases k with
    | zero => simp [rowsText_nil, Sink.write_empty]
    | succ k =>
        rw [List.take_succ_cons, rowsText_cons, Sink.write_append_of_short hwrite]
        simp

/-- Rows are one write of their text, whatever the sink takes. -/
theorem isWriteOf_writeRows (fields : β → List Float) {list : List β} :
    ∀ {items : σ} {count : Nat} (number : Nat) (sink : Sink), Supply.Yields items list →
      list.length ≤ count →
      (writeRows fields count number sink items).IsWriteOf sink (rowsText fields number) list := by
  induction list with
  | nil =>
      intro items count number sink hitems hcount
      have hnone : Supply.next? items = none := hitems
      -- the count and the supply both end the rows, whichever is used up first
      have hend : writeRows fields count number sink items = ⟨sink, items, true⟩ := by
        cases count with
        | zero => rfl
        | succ count => simp only [writeRows, hnone]
      rw [hend]
      exact ⟨sink.write_empty.symm, 0, Nat.le_refl 0, hitems,
        fun k hk => absurd hk (Nat.not_lt_zero k)⟩
  | cons item later ih =>
      intro items count number sink hitems hcount
      obtain ⟨rest, hnext, hrest⟩ := hitems
      obtain ⟨count, rfl⟩ : ∃ n, count = n + 1 :=
        Nat.exists_eq_add_one.mpr (Nat.lt_of_lt_of_le (Nat.succ_pos _) hcount)
      match hwrite : sink.write (row number (fields item)) with
      | (t, true) =>
          have hrow : writeRows fields (count + 1) number sink items
              = writeRows fields count (number + 1) t rest := by
            simp only [writeRows, hnext, hwrite]
          rw [hrow]
          exact (ih (number + 1) t hrest (Nat.le_of_succ_le_succ hcount)).cons hwrite
      | (t, false) =>
          have hrow : writeRows fields (count + 1) number sink items = ⟨t, rest, false⟩ := by
            simp only [writeRows, hnext, hwrite]
          rw [hrow]
          exact isWriteOf_of_short hwrite hrest

theorem isWriteOf_writeTable (columns : List String) (fields : β → List Float) {items : σ}
    {list : List β} (hitems : Supply.Yields items list)
    (hcount : Supply.count items = list.length) (sink : Sink) :
    (writeTable columns fields sink items).IsWriteOf sink (tableText columns fields) list := by
  match hwrite : sink.write (",".intercalate columns ++ "\n") with
  | (t, true) =>
      have htable : writeTable columns fields sink items
          = writeRows fields (Supply.count items) 0 t items := by
        simp only [writeTable, hwrite]
      obtain ⟨hwritten, asked, hle, hleft, hasked⟩ :=
        isWriteOf_writeRows fields 0 t hitems (Nat.le_of_eq hcount.symm)
      rw [htable]
      refine ⟨?_, asked, hle, hleft, fun k hk => ?_⟩
      · rw [hwritten, tableText, Sink.write_append_of_fits hwrite]
      · rw [hasked k hk, tableText, Sink.write_append_of_fits hwrite]
  | (t, false) =>
      have htable : writeTable columns fields sink items = ⟨t, items, false⟩ := by
        simp only [writeTable, hwrite]
      rw [htable]
      refine ⟨?_, 0, Nat.zero_le _, hitems, fun k hk => ?_⟩
      · rw [tableText, Sink.write_append_of_short hwrite]
      · rw [tableText, Sink.write_append_of_short hwrite]
        simp

end Csv

end PlanarKalman
