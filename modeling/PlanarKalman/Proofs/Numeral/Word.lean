import PlanarKalman.Numeral.Word

/-!
# Which texts are words

A text is read digit by digit, and reading stops where the number no longer fits. More
digits never make a number smaller, so it is enough that the whole number fits: the text is
read exactly when it is a decimal numeral of a number of 64 bits, with a plus sign or
without (`readWord_eq_ok_iff`). A number that was printed is such a text.
-/

namespace PlanarKalman

namespace Numeral

theorem digitValue?_eq (c : Char) :
    digitValue? c = if c.isDigit then some (c.toNat - '0'.toNat) else none := by
  have hdigit : c.isDigit = true ↔ '0' ≤ c ∧ c ≤ '9' := by
    rw [Char.isDigit, Bool.and_eq_true, decide_eq_true_iff, decide_eq_true_iff]
    rfl
  simp only [digitValue?, hdigit]

theorem le_ofDigitChars (chars : List Char) (value : Nat) :
    value ≤ Nat.ofDigitChars 10 chars value := by
  induction chars generalizing value with
  | nil => exact Nat.le_refl value
  | cons c rest ih =>
      rw [Nat.ofDigitChars_cons]
      have := ih (10 * value + (c.toNat - '0'.toNat))
      omega

theorem readDigits_eq_ok_iff {value n : Nat} (hvalue : value < UInt64.size) {chars : List Char} :
    readDigits value chars = .ok n ↔
      (∀ c ∈ chars, c.isDigit) ∧ Nat.ofDigitChars 10 chars value = n ∧ n < UInt64.size := by
  induction chars generalizing value with
  | nil =>
      constructor
      · intro h
        obtain rfl := Except.ok.inj h
        exact ⟨nofun, rfl, hvalue⟩
      · rintro ⟨-, rfl, -⟩
        rfl
  | cons c rest ih =>
      rw [Nat.ofDigitChars_cons, List.forall_mem_cons, readDigits, digitValue?_eq]
      by_cases hdigit : c.isDigit = true
      · rw [if_pos hdigit, Nat.mul_comm value]
        dsimp only
        by_cases hfits : 10 * value + (c.toNat - '0'.toNat) < UInt64.size
        · rw [if_pos hfits, ih hfits]
          simp only [hdigit, true_and]
        · rw [if_neg hfits]
          refine ⟨nofun, fun ⟨_, hn, hsmall⟩ => absurd (Nat.lt_of_le_of_lt ?_ hsmall) hfits⟩
          rw [← hn]
          exact le_ofDigitChars ..
      · rw [if_neg hdigit]
        exact ⟨nofun, fun h => absurd h.1.1 hdigit⟩

/-- A text is read as a number exactly when it is a numeral of it. -/
theorem readWord_eq_ok_iff {text : String} {n : Nat} :
    readWord text = .ok n ↔ ∃ digits, (text.toList = digits ∨ text.toList = '+' :: digits) ∧
      digits ≠ [] ∧ (∀ c ∈ digits, c.isDigit) ∧ Nat.ofDigitChars 10 digits 0 = n ∧
      n < UInt64.size := by
  have hzero : 0 < UInt64.size := by decide
  unfold readWord
  generalize text.toList = chars
  split
  · simp
  · rename_i c rest
    rw [readDigits_eq_ok_iff hzero]
    constructor
    · intro h
      exact ⟨c :: rest, .inr rfl, List.cons_ne_nil _ _, h⟩
    · rintro ⟨digits, rfl | htext, -, h⟩
      · exact absurd (h.1 '+' List.mem_cons_self) (by decide)
      · obtain rfl := List.tail_eq_of_cons_eq htext
        exact h
  · rename_i hnil hplus
    rw [readDigits_eq_ok_iff hzero]
    constructor
    · intro h
      exact ⟨chars, .inl rfl, hnil, h⟩
    · rintro ⟨digits, rfl | rfl, hne, h⟩
      · exact h
      · obtain ⟨c, rest, rfl⟩ := List.exists_cons_of_ne_nil hne
        exact absurd rfl (hplus c rest)

theorem readWord_toString (word : UInt64) : readWord (toString word.toNat) = .ok word.toNat := by
  rw [readWord_eq_ok_iff, Nat.toString_eq_repr, Nat.toList_repr]
  exact ⟨_, .inl rfl, Nat.toDigits_ne_nil,
    fun c => Nat.isDigit_of_mem_toDigits (by decide : 0 < 10) (by decide),
    Nat.ofDigitChars_ten_toDigits, word.toNat_lt⟩

end Numeral

end PlanarKalman
