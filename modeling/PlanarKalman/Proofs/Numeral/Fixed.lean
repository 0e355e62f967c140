import PlanarKalman.Proofs.RoundedArithmetic
import PlanarKalman.Numeral.Writing

/-!
# Numbers with a fixed number of places, read back

The text of a number is made from the fields of its word, and the operations compute with
what the arithmetic makes of the word. `Binary64.ofFloat_eq` says that both are the same,
so that a statement about the text is one about the number (`exactValue?`).

Reading is separate from writing: a reader knows nothing but the text. It gives a sign and
a number of units of the last place, since that is what a text of so many places can say;
`Fixed.IsRoundingOf` is what the text has to say about a number. Every number is read back
as its own rounding (`readFixed?_fixed`), infinities and undefined results included, and
its text holds nothing that could separate it from another (`mem_fixed`).
-/

namespace PlanarKalman

namespace Numeral

open Float.Model Float.Model.UnpackedFloat Rounded

/-! ## The number behind the words -/

namespace Binary64

/-- A number as the operations see it, in the form that its text is made of. -/
def ofUnpacked : UnpackedFloat → Binary64
  | .notANumber => .undefined
  | .infinity s => .infinite (isNegative s)
  | .zero s => .finite (isNegative s) 0 leastExponent
  | .finite s m e _ => .finite (isNegative s) m e

theorem toNat_exponentField (word : UInt64) :
    (@unpackExponent .binary64 word.toBitVec).toNat = (word >>> 52 &&& 0x7ff).toNat := by
  change (word.toNat >>> 52) % 2 ^ 11 = (word.toNat >>> 52) &&& (2 ^ 11 - 1)
  rw [Nat.and_two_pow_sub_one_eq_mod]

theorem toNat_fraction (word : UInt64) :
    (@unpackMantissa .binary64 word.toBitVec).toNat
      = (word &&& 0xfffffffffffff).toNat := by
  change (word.toNat >>> 0) % 2 ^ 52 = word.toNat &&& (2 ^ 52 - 1)
  rw [Nat.and_two_pow_sub_one_eq_mod, Nat.shiftRight_zero]

theorem isNegative_ofBitVec (b : BitVec 1) : isNegative (Sign.ofBitVec b) = (b == 1#1) := by
  revert b
  decide

theorem isNegative_sign (word : UInt64) :
    isNegative (Sign.ofBitVec (@unpackSign .binary64 word.toBitVec))
      = (word >>> 63 == 1) := by
  have hbit : (@unpackSign .binary64 word.toBitVec).toNat = (word >>> 63).toNat := by
    change (word.toNat >>> 63) % 2 ^ 1 = word.toNat >>> 63
    have := word.toNat_lt
    omega
  rw [isNegative_ofBitVec, Bool.eq_iff_iff, beq_iff_eq, beq_iff_eq, ← BitVec.toNat_inj,
    ← UInt64.toNat_inj, hbit]
  rfl

theorem toNat_leadingOne_append (fraction : BitVec 52) :
    (1#1 ++ fraction).toNat = leadingOne + fraction.toNat :=
  toNat_one_append fraction

/-- The parts that a text is made of are those that the operations compute with. -/
theorem ofFloat_eq (a : Float) : ofFloat a = ofUnpacked a.toModel.unpack := by
  have hbias : (Format.binary64.exponentBias : Int) = 1023 := rfl
  change _ = ofUnpacked (UnpackedFloat.unpack .binary64 a.toBits.toBitVec)
  simp only [ofFloat, ← toNat_exponentField, ← toNat_fraction, ← isNegative_sign,
    UnpackedFloat.unpack]
  generalize @unpackExponent .binary64 a.toBits.toBitVec = field
  by_cases hall : field.toNat = 2047
  · have heq : field = -1#11 := BitVec.eq_of_toNat_eq hall
    rw [if_pos hall, if_pos heq]
    by_cases hzero : (@unpackMantissa .binary64 a.toBits.toBitVec).toNat = 0
    · have hnone : @unpackMantissa .binary64 a.toBits.toBitVec = 0#52 :=
        BitVec.eq_of_toNat_eq hzero
      rw [if_pos hzero, if_pos hnone]
      rfl
    · have hsome : @unpackMantissa .binary64 a.toBits.toBitVec ≠ 0#52 :=
        fun h => hzero (congrArg BitVec.toNat h)
      rw [if_neg hzero, if_neg hsome]
      rfl
  · have hne : field ≠ -1#11 := fun h => hall (congrArg BitVec.toNat h)
    rw [if_neg hall, if_neg hne]
    by_cases hleast : field.toNat = 0
    · have heq : field = 0#11 := BitVec.eq_of_toNat_eq hleast
      rw [if_pos hleast, if_pos heq]
      split
      · rename_i hnone
        rw [hnone]
        rfl
      · rw [ofUnpacked, leastExponent, hbias, hleast]
        rfl
    · have hne : field ≠ 0#11 := fun h => hleast (congrArg BitVec.toNat h)
      rw [if_neg hleast, if_neg hne, ofUnpacked, toNat_leadingOne_append, leastExponent, hbias]
      congr 1
      omega

end Binary64

/-! ## Reading -/

/-- What a text of so many decimal places says: a sign, and how many units of the last
place. -/
inductive Fixed where
  | undefined
  | infinite (negative : Bool)
  | units (negative : Bool) (units : Nat)
deriving DecidableEq, Repr

/-- Reads digits, a point, and so many digits after it. -/
def readUnits? (places : Nat) (text : List Char) : Option Nat :=
  match text.splitOn '.' with
  | [whole, fraction] =>
    if whole ≠ [] ∧ fraction.length = places ∧ ∀ c ∈ whole ++ fraction, c.isDigit then
      some (Nat.ofDigitChars 10 (whole ++ fraction) 0)
    else none
  | _ => none

def readMagnitude? (places : Nat) (negative : Bool) (text : List Char) : Option Fixed :=
  if text = ['i', 'n', 'f'] then some (.infinite negative)
  else (readUnits? places text).map (.units negative)

/-- Reads a number of so many decimal places, or one of the words for what is no finite
number. -/
def readFixed? (places : Nat) (text : List Char) : Option Fixed :=
  if text = ['N', 'a', 'N'] then some .undefined
  else if text.head? = some '-' then readMagnitude? places true text.tail
  else readMagnitude? places false text

theorem readFixed?_sign (places : Nat) (negative : Bool) {text : List Char}
    (hword : text ≠ ['N', 'a', 'N']) (hsign : text.head? ≠ some '-') :
    readFixed? places (sign negative ++ text) = readMagnitude? places negative text := by
  cases negative with
  | false => simp [readFixed?, sign, hword, hsign]
  | true => simp [readFixed?, sign]

section Digits

variable (places units : Nat)

/-- The digits of a number of units, with enough zeros to have one before the point. -/
def paddedDigits : List Char :=
  let digits := Nat.toDigits 10 units
  zeros (places + 1 - digits.length) ++ digits

theorem isDigit_of_mem_paddedDigits {c : Char} (hc : c ∈ paddedDigits places units) :
    c.isDigit := by
  rcases List.mem_append.mp hc with hzero | hdigit
  · rw [List.eq_of_mem_replicate hzero]
    rfl
  · exact Nat.isDigit_of_mem_toDigits (by decide : 0 < 10) (by decide) hdigit

theorem lt_length_paddedDigits : places < (paddedDigits places units).length := by
  have : 0 < (Nat.toDigits 10 units).length := Nat.length_toDigits_pos
  simp only [paddedDigits, zeros, List.length_append, List.length_replicate]
  omega

theorem ofDigitChars_paddedDigits : Nat.ofDigitChars 10 (paddedDigits places units) 0 = units := by
  rw [paddedDigits, zeros, Nat.ofDigitChars_append, Nat.ofDigitChars_replicate_zero,
    Nat.mul_zero, Nat.ofDigitChars_ten_toDigits]

/-- The digits before the point and those after it. -/
theorem exists_placePoint : ∃ whole fraction,
    placePoint places units = whole ++ '.' :: fraction ∧ whole ≠ [] ∧ fraction.length = places ∧
      whole ++ fraction = paddedDigits places units := by
  have hlong := lt_length_paddedDigits places units
  refine ⟨_, _, rfl, ?_, ?_, List.take_append_drop ..⟩
  · intro hnil
    have := congrArg List.length hnil
    change ((paddedDigits places units).take _).length = 0 at this
    rw [List.length_take] at this
    change min ((paddedDigits places units).length - places) _ = 0 at this
    omega
  · change ((paddedDigits places units).drop ((paddedDigits places units).length - places)).length
      = places
    rw [List.length_drop]
    omega

theorem readUnits?_placePoint : readUnits? places (placePoint places units) = some units := by
  obtain ⟨whole, fraction, htext, hwhole, hfraction, hdigits⟩ := exists_placePoint places units
  have hall : ∀ c ∈ whole ++ fraction, c.isDigit := by
    rw [hdigits]
    exact fun c => isDigit_of_mem_paddedDigits places units
  have hpoint : ∀ part ∈ [whole, fraction], '.' ∉ part := by
    intro part hpart hmem
    have : '.'.isDigit := by
      apply hall
      rcases List.mem_pair.mp hpart with rfl | rfl
      · exact List.mem_append_left _ hmem
      · exact List.mem_append_right _ hmem
    exact absurd this (by decide)
  have hsplit : (whole ++ '.' :: fraction).splitOn '.' = [whole, fraction] := by
    rw [← List.splitOn_intercalate '.' hpoint (List.cons_ne_nil _ _)]
    simp
  rw [htext, readUnits?, hsplit]
  dsimp only
  rw [if_pos ⟨hwhole, hfraction, hall⟩, hdigits, ofDigitChars_paddedDigits]

theorem readFixed?_placePoint (negative : Bool) :
    readFixed? places (sign negative ++ placePoint places units)
      = some (.units negative units) := by
  obtain ⟨whole, fraction, htext, hwhole, -, hdigits⟩ := exists_placePoint places units
  -- no word has a point in it, and no digit is a sign
  have hpoint : '.' ∈ placePoint places units := by
    rw [htext]
    simp
  have hword : ∀ word, '.' ∉ word → placePoint places units ≠ word := by
    rintro word hnone rfl
    exact hnone hpoint
  have hsign : (placePoint places units).head? ≠ some '-' := by
    rw [htext]
    obtain ⟨c, rest, rfl⟩ := List.exists_cons_of_ne_nil hwhole
    intro heq
    obtain rfl := Option.some.inj heq
    have := isDigit_of_mem_paddedDigits places units (hdigits ▸ List.mem_append_left _
      List.mem_cons_self)
    exact absurd this (by decide)
  rw [readFixed?_sign _ _ (hword _ (by decide)) hsign, readMagnitude?,
    if_neg (hword _ (by decide)), readUnits?_placePoint]
  rfl

end Digits

/-! ## Rounding -/

def signed (negative : Bool) (magnitude : ℚ) : ℚ := if negative then -magnitude else magnitude

theorem abs_signed_sub_signed (negative : Bool) (a b : ℚ) :
    |signed negative a - signed negative b| = |a - b| := by
  cases negative with
  | false => rfl
  | true => rw [signed, signed, if_pos rfl, if_pos rfl, neg_sub_neg, abs_sub_comm]

/-- The number that a finite binary64 number stands for. -/
def exactValue? (a : Float) : Option ℚ :=
  match a.toModel.unpack with
  | .notANumber | .infinity _ => none
  | .zero _ => some 0
  | .finite s m e _ => some (signed (isNegative s) (m * 2 ^ e))

/-- What was read is the number, correctly rounded: it is the number to half a unit of the
last place, and where two are as near as each other it is the even one. The sign is that
of the number, also where it is rounded to zero. -/
inductive Fixed.IsRoundingOf (places : Nat) (a : Float) : Fixed → Prop
  | undefined : a.isNaN → IsRoundingOf places a .undefined
  | infinite {negative : Bool} : a.isInf → side? a.toModel.unpack = some negative →
      IsRoundingOf places a (.infinite negative)
  | units {value : ℚ} {negative : Bool} {units : Nat} : exactValue? a = some value →
      side? a.toModel.unpack = some negative →
      |signed negative (units / 10 ^ places) - value| ≤ 1 / (2 * 10 ^ places) →
      (|signed negative (units / 10 ^ places) - value| = 1 / (2 * 10 ^ places) →
        units % 2 = 0) →
      IsRoundingOf places a (.units negative units)

theorem powerBelow_pos (exponent : ℤ) : 0 < powerBelow 2 exponent :=
  Nat.pow_pos (by decide)

theorem zpow_two_eq (exponent : ℤ) :
    (2 : ℚ) ^ exponent = powerAbove 2 exponent / powerBelow 2 exponent := by
  have hparts : exponent = (exponent.toNat : ℤ) - ((-exponent).toNat : ℤ) := by omega
  have habove : (powerAbove 2 exponent : ℚ) = 2 ^ exponent.toNat := Nat.cast_pow 2 _
  have hbelow : (powerBelow 2 exponent : ℚ) = 2 ^ (-exponent).toNat := Nat.cast_pow 2 _
  rw [habove, hbelow, ← zpow_natCast, ← zpow_natCast, ← zpow_sub₀ two_ne_zero, ← hparts]

theorem abs_roundQuotient_sub (numerator : Nat) {denominator : Nat} (h : 0 < denominator) :
    |(roundQuotient numerator denominator : ℚ) - numerator / denominator| ≤ 1 / 2 ∧
      (|(roundQuotient numerator denominator : ℚ) - numerator / denominator| = 1 / 2 →
        roundQuotient numerator denominator % 2 = 0) := by
  have hpos : (0 : ℚ) < denominator := Nat.cast_pos.mpr h
  obtain ⟨hlow, hhigh⟩ := roundQuotient_near numerator h
  have heven := roundQuotient_even numerator h
  generalize roundQuotient numerator denominator = q at hlow hhigh heven ⊢
  have hquotient : (numerator : ℚ) = numerator / denominator * denominator :=
    (div_mul_cancel₀ _ hpos.ne').symm
  generalize (numerator : ℚ) / denominator = value at hquotient ⊢
  -- what is known about whole numbers is multiplied by the denominator
  have hlow' : 2 * (q : ℚ) * denominator ≤ (2 * value + 1) * denominator := by
    have : (2 * q * denominator : ℚ) ≤ 2 * numerator + denominator := by exact_mod_cast hlow
    rw [hquotient] at this
    linarith
  have hhigh' : 2 * value * denominator ≤ (2 * q + 1) * denominator := by
    have : (2 * numerator : ℚ) ≤ (2 * q + 1) * denominator := by exact_mod_cast hhigh
    rw [hquotient] at this
    linarith
  have hbelow := le_of_mul_le_mul_right hlow' hpos
  have habove := le_of_mul_le_mul_right hhigh' hpos
  refine ⟨abs_le.mpr ⟨by linarith, by linarith⟩, fun htie => heven ?_⟩
  rcases eq_or_eq_neg_of_abs_eq htie with hup | hdown
  · left
    have : (2 * q * denominator : ℚ) = 2 * numerator + denominator := by
      rw [hquotient, show (q : ℚ) = value + 1 / 2 by linarith]
      ring
    exact_mod_cast this
  · right
    have : (2 * numerator : ℚ) = (2 * q + 1) * denominator := by
      rw [hquotient, show (q : ℚ) = value - 1 / 2 by linarith]
      ring
    exact_mod_cast this

/-- The units of the last place are those nearest to the magnitude. -/
theorem abs_fixedUnits_sub (places m : Nat) (e : ℤ) :
    |(fixedUnits places m e : ℚ) / 10 ^ places - m * 2 ^ e| ≤ 1 / (2 * 10 ^ places) ∧
      (|(fixedUnits places m e : ℚ) / 10 ^ places - m * 2 ^ e| = 1 / (2 * 10 ^ places) →
        fixedUnits places m e % 2 = 0) := by
  have hpos : (0 : ℚ) < 10 ^ places := by positivity
  obtain ⟨hnear, htie⟩ := abs_roundQuotient_sub
    (m * powerAbove 2 e * Nat.pow 10 places) (powerBelow_pos e)
  change |(fixedUnits places m e : ℚ) - _| ≤ _ at hnear
  change |(fixedUnits places m e : ℚ) - _| = _ → _ at htie
  have hscaled : ((m * powerAbove 2 e * Nat.pow 10 places : Nat) : ℚ) / powerBelow 2 e
      = m * 2 ^ e * 10 ^ places := by
    rw [zpow_two_eq]
    push_cast [Nat.pow_eq]
    ring
  have hdistance : |(fixedUnits places m e : ℚ) / 10 ^ places - m * 2 ^ e|
      = |(fixedUnits places m e : ℚ) - m * 2 ^ e * 10 ^ places| / 10 ^ places := by
    calc |(fixedUnits places m e : ℚ) / 10 ^ places - m * 2 ^ e|
        = |((fixedUnits places m e : ℚ) - m * 2 ^ e * 10 ^ places) / 10 ^ places| := by
          rw [sub_div, mul_div_cancel_right₀ _ hpos.ne']
      _ = _ := by rw [abs_div, abs_of_pos hpos]
  have hhalf : (1 : ℚ) / (2 * 10 ^ places) = 1 / 2 / 10 ^ places := by
    rw [div_div]
  rw [hscaled] at hnear htie
  rw [hdistance, hhalf]
  constructor
  · exact div_le_div_of_nonneg_right hnear hpos.le
  · intro heq
    exact htie ((div_left_inj' hpos.ne').mp heq)

theorem isRoundingOf_fixedUnits {places m : Nat} {e : ℤ} {a : Float} {negative : Bool}
    (hvalue : exactValue? a = some (signed negative (m * 2 ^ e)))
    (hside : side? a.toModel.unpack = some negative) :
    Fixed.IsRoundingOf places a (.units negative (fixedUnits places m e)) := by
  obtain ⟨hnear, htie⟩ := abs_fixedUnits_sub places m e
  refine .units hvalue hside ?_ ?_
  · rw [abs_signed_sub_signed]
    exact hnear
  · rw [abs_signed_sub_signed]
    exact htie

/-- The text of a number is read as that number, correctly rounded. -/
theorem readFixed?_fixed (places : Nat) (a : Float) :
    ∃ d, readFixed? places (fixed places a).toList = some d ∧ d.IsRoundingOf places a := by
  rw [fixed, String.toList_ofList, Binary64.ofFloat_eq]
  cases hu : a.toModel.unpack with
  | notANumber =>
      refine ⟨.undefined, rfl, .undefined ?_⟩
      change a.toModel.unpack.isNaN = true
      rw [hu]
      rfl
  | infinity s =>
      refine ⟨.infinite (isNegative s), by cases s <;> rfl, .infinite ?_ (by rw [hu]; rfl)⟩
      change a.toModel.unpack.isInf = true
      rw [hu]
      rfl
  | zero s =>
      refine ⟨_, readFixed?_placePoint .., isRoundingOf_fixedUnits ?_ (by rw [hu]; rfl)⟩
      simp [exactValue?, hu, signed]
  | finite s m e hm =>
      refine ⟨_, readFixed?_placePoint .., isRoundingOf_fixedUnits ?_ (by rw [hu]; rfl)⟩
      simp [exactValue?, hu]

/-- A carry goes through all places, and what is left of a small negative number is its
sign. -/
example : fixed 6 0.9999996 = "1.000000" ∧ fixed 6 (-0.0000001) = "-0.000000" := by
  decide +kernel

/-- A numeral is made of digits, a sign, a point, and the letters of two words. -/
theorem mem_fixed {places : Nat} {a : Float} {c : Char} (hc : c ∈ (fixed places a).toList) :
    c.isDigit ∨ c ∈ ['-', '.', 'N', 'a', 'i', 'n', 'f'] := by
  have hsign : ∀ negative, c ∈ sign negative → c = '-' := by
    intro negative
    cases negative <;> simp [sign]
  rw [fixed, String.toList_ofList] at hc
  cases ha : Binary64.ofFloat a with
  | undefined =>
      rw [ha] at hc
      have hword : c ∈ ['N', 'a', 'N'] := hc
      simp only [List.mem_cons] at hword ⊢
      tauto
  | infinite negative =>
      rw [ha] at hc
      rcases List.mem_append.mp hc with h | h
      · rw [hsign _ h]
        decide
      · simp only [List.mem_cons] at h ⊢
        tauto
  | finite negative m e =>
      rw [ha] at hc
      obtain ⟨whole, fraction, htext, -, -, hdigits⟩ :=
        exists_placePoint places (fixedUnits places m e)
      rcases List.mem_append.mp hc with h | h
      · rw [hsign _ h]
        decide
      · change c ∈ placePoint places (fixedUnits places m e) at h
        rw [htext, List.mem_append, List.mem_cons, or_left_comm, ← List.mem_append, hdigits] at h
        rcases h with rfl | h
        · decide
        · exact .inl (isDigit_of_mem_paddedDigits _ _ h)

end Numeral
end PlanarKalman
