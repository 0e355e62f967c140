import PlanarKalman.Proofs.Csv.Reading

/-!
# Tables cut short

A sink that ends in the midst of a table has the beginning of it: as many bytes of the text
as it takes. Rows and fields have no part in that. A table is one write of its text
(`isWriteOf_writeTable`), and a write keeps the characters that fit; the fields matter only
in that they are ASCII, so that a character is a byte.

What is asked for is the other half: the item of the row that does not fit is the last one,
whatever would have come after it.
-/

namespace PlanarKalman.Csv

open Numeral

/-! ## Bytes -/

/-- The bytes of a text. -/
def bytes (text : String) : List UInt8 := text.toUTF8.data.toList

def IsAscii (text : List Char) : Prop := ∀ c ∈ text, c.val ≤ 127

theorem bytes_ofList {text : List Char} (h : IsAscii text) :
    bytes (String.ofList text) = text.map Char.toUInt8 := by
  have hencode : text.utf8Encode = (text.map Char.toUInt8).toByteArray := by
    induction text with
    | nil => rfl
    | cons c rest ih =>
        have hsize : c.utf8Size = 1 := Char.utf8Size_eq_one_iff.mpr (h c List.mem_cons_self)
        rw [List.utf8Encode_cons, List.utf8Encode_singleton,
          String.utf8EncodeChar_eq_singleton hsize, ih fun d hd => h d (List.mem_cons_of_mem c hd),
          ← List.toByteArray_append]
        rfl
  rw [bytes, String.toUTF8_eq_toByteArray, String.toByteArray_ofList, hencode,
    List.data_toByteArray]

theorem length_bytes {text : String} (h : IsAscii text.toList) :
    (bytes text).length = text.length := by
  rw [← String.ofList_toList (s := text), bytes_ofList h, List.length_map, String.length_ofList]

theorem bytes_take {text : String} (h : IsAscii text.toList) (limit : Nat) :
    bytes (String.ofList (text.toList.take limit)) = (bytes text).take limit := by
  have hpart : IsAscii (text.toList.take limit) := fun c hc => h c (List.mem_of_mem_take hc)
  rw [bytes_ofList hpart, List.map_take, ← bytes_ofList h, String.ofList_toList]

theorem isAscii_of_mem_rowTexts {number : Nat} {fields : List Float} {text : List Char}
    (htext : text ∈ rowTexts number fields) : IsAscii text := by
  intro c hc
  rcases isDigit_or_of_mem_rowTexts htext hc with hdigit | hletter
  · rw [Char.isDigit, Bool.and_eq_true, decide_eq_true_eq, decide_eq_true_eq] at hdigit
    exact UInt32.le_trans hdigit.2 (by decide)
  · have hletters : ∀ d ∈ ['-', '.', 'N', 'a', 'i', 'n', 'f'], d.val ≤ 127 := by simp
    exact hletters c hletter

theorem isAscii_intercalate {parts : List (List Char)} (h : ∀ part ∈ parts, IsAscii part) :
    IsAscii ([','].intercalate parts) := by
  intro c hc
  rcases mem_intercalate hc with rfl | ⟨part, hpart, hmem⟩
  · decide
  · exact h part hpart c hmem

theorem isAscii_terminated {lines : List (List Char)} (h : ∀ line ∈ lines, IsAscii line) :
    IsAscii (terminated lines) := by
  intro c hc
  obtain ⟨line, hline, hmem⟩ := List.mem_flatMap.mp hc
  rcases List.mem_append.mp hmem with hinside | hend
  · exact h line hline c hinside
  · rw [List.mem_singleton.mp hend]
    decide

theorem isAscii_tableText {columns : List String} (hcolumns : ∀ name ∈ columns, IsAscii name.toList)
    {β : Type} (fields : β → List Float) (list : List β) :
    IsAscii (tableText columns fields list).toList := by
  rw [toList_tableText]
  refine isAscii_terminated (List.forall_mem_cons.mpr ⟨isAscii_intercalate ?_, ?_⟩)
  · intro part hpart
    obtain ⟨name, hname, rfl⟩ := List.mem_map.mp hpart
    exact hcolumns name hname
  · intro line hline
    obtain ⟨i, -, rfl⟩ := List.mem_mapIdx.mp hline
    exact isAscii_intercalate fun text htext => isAscii_of_mem_rowTexts htext

/-! ## Cuts -/

variable {σ β : Type}

/-- A text was written to a sink of this many bytes. They are the first bytes of the text,
and the caller is told whether there are more. Handed over in pieces, whatever they are, the
text would have left the same in the sink. -/
structure Writing.IsCutTo (w : Writing σ) (text : String) (limit : Nat) : Prop where
  bytes_eq : bytes w.sink.text = (bytes text).take limit
  result_eq : w.result = if (bytes text).length ≤ limit then .ok () else .error .shortWrite
  in_pieces : ∀ pieces, String.join pieces = text →
    (Sink.ofRoom (some limit)).writeAll pieces = (w.sink, w.complete)

theorem Writing.isCutTo_of_written {w : Writing σ} {text : String} (htext : IsAscii text.toList)
    {limit : Nat} (hwritten : (w.sink, w.complete) = (Sink.ofRoom (some limit)).write text) :
    w.IsCutTo text limit := by
  obtain ⟨hsink, hcomplete⟩ := Prod.mk.inj (hwritten.trans (Sink.write_bounded "" limit text))
  refine ⟨?_, ?_, fun pieces hpieces => ?_⟩
  · rw [hsink, String.empty_append, bytes_take htext]
  · rw [Writing.result, hcomplete, length_bytes htext]
    simp only [decide_eq_true_eq]
  · rw [Sink.writeAll_eq_write, hpieces, hwritten]

/-- Of the items of a table, one is asked for exactly if the table of those before it fits. -/
def Writing.AsksWithin [Supply σ β] (w : Writing σ) (text : List β → String) (list : List β)
    (limit : Nat) : Prop :=
  ∃ asked ≤ list.length, Supply.Yields w.rest (list.drop asked) ∧
    ∀ k < list.length, k < asked ↔ (bytes (text (list.take k))).length ≤ limit

variable [Supply σ β] {columns : List String} {fields : β → List Float} {items : σ} {list : List β}

theorem isCutTo_writeTable (hcolumns : ∀ name ∈ columns, IsAscii name.toList)
    (hitems : Supply.Yields items list) (hcount : Supply.count items = list.length) (limit : Nat) :
    (writeTable columns fields (.ofRoom (some limit)) items).IsCutTo
      (writeTable columns fields (.ofRoom none) items).sink.text limit := by
  rw [(writeTable_unbounded columns fields hitems hcount).2]
  exact Writing.isCutTo_of_written (isAscii_tableText hcolumns fields list)
    (isWriteOf_writeTable columns fields hitems hcount _).written

theorem asksWithin_writeTable (hcolumns : ∀ name ∈ columns, IsAscii name.toList)
    (hitems : Supply.Yields items list) (hcount : Supply.count items = list.length) (limit : Nat) :
    (writeTable columns fields (.ofRoom (some limit)) items).AsksWithin
      (fun items : List β => (writeTable columns fields (.ofRoom none) items).sink.text) list
      limit := by
  obtain ⟨asked, hle, hleft, hasked⟩ :=
    (isWriteOf_writeTable columns fields hitems hcount (.ofRoom (some limit))).asked
  refine ⟨asked, hle, hleft, fun k hk => (hasked k hk).trans ?_⟩
  dsimp only
  rw [(writeTable_unbounded columns fields (Supply.yields_list (list.take k)) rfl).2,
    length_bytes (isAscii_tableText hcolumns fields _), Sink.ofRoom, Sink.write_bounded,
    decide_eq_true_eq]

/-- What a full sink holds of a table is the beginning of the text that a sink without a
bound has taken, and the caller is told of an error exactly if something is missing. Where
the sink is full does not matter: it may be in the header, within a number or at the end of
a line. No position of a walk is drawn after the row that did not fit, whatever hands the
positions out. -/
theorem truncation_keeps_beginning :
    (∀ (r : Recording Float) (limit : Nat),
      (writeRecording (.ofRoom (some limit)) r).IsCutTo
        (writeRecording (.ofRoom none) r).sink.text limit) ∧
    ∀ {σ : Type} [Supply σ (Point Float)] (positions : σ) (list : List (Point Float))
      (limit : Nat), Supply.Yields positions list → Supply.count positions = list.length →
      (writeWalk (.ofRoom (some limit)) positions).IsCutTo
          (writeWalk (.ofRoom none) positions).sink.text limit ∧
        (writeWalk (.ofRoom (some limit)) positions).AsksWithin
          (fun positions : List (Point Float) =>
            (writeWalk (.ofRoom none) positions).sink.text) list limit := by
  constructor
  · intro r limit
    exact isCutTo_writeTable (by simp [IsAscii]) (Supply.yields_list r.toList) rfl limit
  · intro σ _ positions list limit hpositions hcount
    have hcolumns : ∀ name ∈ ["step", "x", "y"], IsAscii name.toList := by
      simp [IsAscii]
    exact ⟨isCutTo_writeTable hcolumns hpositions hcount limit,
      asksWithin_writeTable hcolumns hpositions hcount limit⟩

/-- A walk of three positions, and a sink that is full within a number of the second row. The
third position stays where it is. -/
theorem truncation_keeps_beginning_within_number :
    let positions : List (Point Float) := [⟨0, 0⟩, ⟨0.25, -1⟩, ⟨0.5, 2⟩]
    let w := writeWalk (.ofRoom (some 33)) positions
    Supply.Yields positions positions ∧ Supply.count positions = positions.length ∧
      w.IsCutTo (writeWalk (.ofRoom none) positions).sink.text 33 ∧
      w.AsksWithin
        (fun positions : List (Point Float) => (writeWalk (.ofRoom none) positions).sink.text)
        positions 33 ∧
      w.sink.text = "step,x,y\n0,0.000000,0.000000\n1,0." ∧ w.complete = false ∧
      w.rest.length = 1 := by
  intro positions w
  have hcut :=
    truncation_keeps_beginning.2 positions positions 33 (Supply.yields_list positions) rfl
  have htext : w.sink.text = "step,x,y\n0,0.000000,0.000000\n1,0." := by decide +kernel
  have hend : w.complete = false ∧ w.rest.length = 1 := by decide +kernel
  exact ⟨Supply.yields_list positions, rfl, hcut.1, hcut.2, htext, hend⟩

end PlanarKalman.Csv
