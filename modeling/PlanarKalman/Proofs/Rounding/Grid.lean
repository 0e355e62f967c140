import Mathlib.Data.Int.Log
import Mathlib.Data.Rat.Floor
import Mathlib.Tactic.Linarith
import Mathlib.Tactic.Positivity

/-!
# Rounding to the nearest number

A binary64 number is a whole number of units, and the unit depends on how large the number is:
as many digits as there are come behind it, but the unit is never less than the least one
(`lastPlace`). Rounding a magnitude takes the nearest whole number of the units that
magnitude has, an even one of two that are equally near (`Rounds`).

The unit changes at powers of two, and these are whole numbers of both units, so rounding
keeps the order (`Rounds.mono`). A number of the format is its own rounding
(`IsCanonical.rounds_self`). Everything else about rounding that is needed follows from these
two: it does not cross a number of the format, so where one magnitude does not round beyond
all of them no smaller one does.
-/

namespace PlanarKalman

namespace Rounded

/-! ## Whole numbers -/

/-- A whole number that is nearest to `f`, and even if the next one is as near. -/
structure IsNearest (f : ℚ) (n : ℕ) : Prop where
  near : |(n : ℚ) - f| ≤ 1 / 2
  even_of_tie : |(n : ℚ) - f| = 1 / 2 → Even n

theorem isNearest_of_lt {f : ℚ} {n : ℕ} (h : |(n : ℚ) - f| < 1 / 2) : IsNearest f n :=
  ⟨h.le, fun htie => absurd htie h.ne⟩

theorem isNearest_natCast (n : ℕ) : IsNearest n n :=
  isNearest_of_lt (by norm_num)

/-- Halfway between two neighbours the even one is taken. -/
theorem isNearest_half (n : ℕ) : IsNearest (n + 1 / 2) (n + n % 2) := by
  have hdistance : |((n + n % 2 : ℕ) : ℚ) - (n + 1 / 2)| = 1 / 2 := by
    rcases Nat.mod_two_eq_zero_or_one n with h | h <;> rw [h] <;> push_cast <;> norm_num
  refine ⟨hdistance.le, fun _ => ?_⟩
  rw [Nat.even_iff]
  omega

theorem IsNearest.mono {f f' : ℚ} {n n' : ℕ} (h : IsNearest f n) (h' : IsNearest f' n')
    (hle : f ≤ f') : n ≤ n' := by
  by_contra hlt
  have hsucc : (n' : ℚ) + 1 ≤ n := by exact_mod_cast not_le.mp hlt
  have hnear := abs_le.mp h.near
  have hnear' := abs_le.mp h'.near
  -- both are at the same place, halfway between two neighbours, and both chose the even one
  have hup : (n : ℚ) - f = 1 / 2 := by linarith
  have hdown : (n' : ℚ) - f' = -(1 / 2) := by linarith
  have hnext : n = n' + 1 := by
    have : (n : ℚ) = n' + 1 := by linarith
    exact_mod_cast this
  have heven := h.even_of_tie (by rw [hup]; norm_num)
  have heven' := h'.even_of_tie (by rw [hdown]; norm_num)
  rw [hnext, Nat.even_add_one] at heven
  exact heven heven'

/-! ## Units -/

/-- The exponent of the last place of a positive magnitude: `53` digits, as far as the least
unit allows. -/
def lastPlace (x : ℚ) : ℤ := max (Int.log 2 x - 52) (-1074)

theorem le_lastPlace (x : ℚ) : -1074 ≤ lastPlace x := le_max_right ..

theorem zpow_two_pos (g : ℤ) : (0 : ℚ) < 2 ^ g := zpow_pos two_pos g

theorem zpow_two_le {g g' : ℤ} (h : g ≤ g') : (2 : ℚ) ^ g ≤ 2 ^ g' :=
  zpow_le_zpow_right₀ one_le_two h

theorem zpow_add_digits (g : ℤ) (k : ℕ) : (2 : ℚ) ^ (g + k) = (2 ^ k : ℕ) * 2 ^ g := by
  rw [add_comm, zpow_add₀ two_ne_zero, zpow_natCast, Nat.cast_pow, Nat.cast_ofNat]

variable {x x' : ℚ}

theorem lt_zpow_lastPlace (hx : 0 < x) : x < 2 ^ (lastPlace x + 53) := by
  refine (Int.lt_zpow_iff_log_lt one_lt_two hx).mpr ?_
  have := le_max_left (Int.log 2 x - 52) (-1074)
  rw [lastPlace]
  omega

/-- The first digit is a one, unless the unit is the least. -/
theorem zpow_le_of_lastPlace (hx : 0 < x) (h : lastPlace x ≠ -1074) :
    2 ^ (lastPlace x + 52) ≤ x := by
  refine (Int.zpow_le_iff_le_log one_lt_two hx).mpr ?_
  rw [lastPlace] at h ⊢
  omega

theorem le_lastPlace_of_le {g : ℤ} (hx : 0 < x) (h : 2 ^ (g + 52) ≤ x) : g ≤ lastPlace x := by
  have hlog := (Int.zpow_le_iff_le_log one_lt_two hx).mp h
  rw [lastPlace]
  omega

theorem lastPlace_eq {g : ℤ} (hx : 0 < x) (hg : -1074 ≤ g) (hlt : x < 2 ^ (g + 53))
    (hfull : g = -1074 ∨ 2 ^ (g + 52) ≤ x) : lastPlace x = g := by
  have hupper := (Int.lt_zpow_iff_log_lt one_lt_two hx).mp hlt
  rw [lastPlace]
  rcases hfull with rfl | hle
  · omega
  · have hlower := (Int.zpow_le_iff_le_log one_lt_two hx).mp hle
    omega

theorem lastPlace_mono (hx : 0 < x) (h : x ≤ x') : lastPlace x ≤ lastPlace x' :=
  max_le_max_right _ (sub_le_sub_right (Int.log_mono_right hx h) _)

/-! ## Rounding -/

/-- `y` is the magnitude `x` rounded to its last place. -/
def Rounds (x y : ℚ) : Prop :=
  ∃ n : ℕ, IsNearest (x / 2 ^ lastPlace x) n ∧ y = n * 2 ^ lastPlace x

variable {y y' : ℚ}

theorem Rounds.nonneg (h : Rounds x y) : 0 ≤ y := by
  obtain ⟨n, -, rfl⟩ := h
  exact mul_nonneg n.cast_nonneg (zpow_two_pos _).le

theorem rounds_zero_iff : Rounds 0 y ↔ y = 0 := by
  have hzero : (0 : ℚ) / 2 ^ lastPlace 0 = (0 : ℕ) := by simp
  constructor
  · rintro ⟨n, hn, rfl⟩
    rw [hzero] at hn
    obtain rfl : n = 0 := Nat.le_zero.mp (hn.mono (isNearest_natCast 0) le_rfl)
    simp
  · rintro rfl
    exact ⟨0, hzero ▸ isNearest_natCast 0, by simp⟩

/-- Rounding does not go beyond the power of two above. -/
theorem IsNearest.le_pow {n : ℕ} (hn : IsNearest (x / 2 ^ lastPlace x) n) (hx : 0 < x) :
    n ≤ 2 ^ 53 := by
  refine hn.mono (isNearest_natCast (2 ^ 53)) ?_
  rw [div_le_iff₀ (zpow_two_pos _)]
  exact (lt_zpow_lastPlace hx).le.trans_eq (zpow_add_digits _ 53)

/-- Rounding does not fall below the power of two that the first digit stands for. -/
theorem IsNearest.pow_le {n : ℕ} (hn : IsNearest (x / 2 ^ lastPlace x) n) (hx : 0 < x)
    (hplace : lastPlace x ≠ -1074) : 2 ^ 52 ≤ n := by
  refine (isNearest_natCast (2 ^ 52)).mono hn ?_
  rw [le_div_iff₀ (zpow_two_pos _)]
  exact (zpow_add_digits _ 52).symm.trans_le (zpow_le_of_lastPlace hx hplace)

/-- Rounding keeps the order. -/
theorem Rounds.mono (h : Rounds x y) (h' : Rounds x' y') (hx : 0 ≤ x) (hle : x ≤ x') :
    y ≤ y' := by
  rcases hx.eq_or_lt with rfl | hpos
  · rw [rounds_zero_iff.mp h]
    exact h'.nonneg
  obtain ⟨n, hn, rfl⟩ := h
  obtain ⟨n', hn', rfl⟩ := h'
  rcases (lastPlace_mono hpos hle).eq_or_lt with hsame | hlt
  · rw [hsame] at hn ⊢
    have hunits := div_le_div_of_nonneg_right hle (zpow_two_pos (lastPlace x')).le
    exact mul_le_mul_of_nonneg_right (by exact_mod_cast hn.mono hn' hunits) (zpow_two_pos _).le
  -- a power of two is between them
  · have hplace : lastPlace x' ≠ -1074 := (lt_of_le_of_lt (le_lastPlace x) hlt).ne'
    calc (n : ℚ) * 2 ^ lastPlace x
        ≤ (2 ^ 53 : ℕ) * 2 ^ lastPlace x :=
          mul_le_mul_of_nonneg_right (Nat.cast_le.mpr (hn.le_pow hpos)) (zpow_two_pos _).le
      _ = 2 ^ (lastPlace x + 53) := (zpow_add_digits _ 53).symm
      _ ≤ 2 ^ (lastPlace x' + 52) := zpow_two_le (by omega)
      _ = (2 ^ 52 : ℕ) * 2 ^ lastPlace x' := zpow_add_digits _ 52
      _ ≤ n' * 2 ^ lastPlace x' :=
          mul_le_mul_of_nonneg_right (Nat.cast_le.mpr (hn'.pow_le (hpos.trans_le hle) hplace))
            (zpow_two_pos _).le

/-! ## Numbers of the format -/

/-- So many units of the last place, as a number of the format has them: no more digits than
there are, and fewer only with the least unit. -/
structure IsCanonical (m : ℕ) (e : ℤ) : Prop where
  lt : m < 2 ^ 53
  le : -1074 ≤ e
  full : e = -1074 ∨ 2 ^ 52 ≤ m

namespace IsCanonical

variable {m : ℕ} {e : ℤ}

theorem lt_zpow (h : IsCanonical m e) : (m : ℚ) * 2 ^ e < 2 ^ (e + 53) := by
  refine lt_of_lt_of_eq ?_ (zpow_add_digits e 53).symm
  exact mul_lt_mul_of_pos_right (Nat.cast_lt.mpr h.lt) (zpow_two_pos e)

theorem zpow_le (h : IsCanonical m e) (he : e ≠ -1074) : 2 ^ (e + 52) ≤ (m : ℚ) * 2 ^ e := by
  refine (zpow_add_digits e 52).trans_le ?_
  exact mul_le_mul_of_nonneg_right (Nat.cast_le.mpr (h.full.resolve_left he)) (zpow_two_pos e).le

theorem lastPlace_eq (h : IsCanonical m e) (hm : 0 < m) : lastPlace (m * 2 ^ e) = e :=
  Rounded.lastPlace_eq (mul_pos (Nat.cast_pos.mpr hm) (zpow_two_pos e)) h.le h.lt_zpow
    (or_iff_not_imp_left.mpr h.zpow_le)

/-- The order of the numbers can be read off their digits. -/
theorem le_of_digits {m' : ℕ} {e' : ℤ} (h : IsCanonical m e) (h' : IsCanonical m' e')
    (hdigits : e < e' ∨ e = e' ∧ m ≤ m') : (m : ℚ) * 2 ^ e ≤ m' * 2 ^ e' := by
  rcases hdigits with hlt | ⟨rfl, hle⟩
  · have hplace : e' ≠ -1074 := (h.le.trans_lt hlt).ne'
    calc (m : ℚ) * 2 ^ e ≤ 2 ^ (e + 53) := h.lt_zpow.le
      _ ≤ 2 ^ (e' + 52) := zpow_two_le (by omega)
      _ ≤ m' * 2 ^ e' := h'.zpow_le hplace
  · exact mul_le_mul_of_nonneg_right (Nat.cast_le.mpr hle) (zpow_two_pos e).le

/-- A number of the format is its own rounding. -/
theorem rounds_self (h : IsCanonical m e) (hm : 0 < m) : Rounds (m * 2 ^ e) (m * 2 ^ e) := by
  refine ⟨m, ?_, by rw [h.lastPlace_eq hm]⟩
  rw [h.lastPlace_eq hm, mul_div_cancel_right₀ _ (zpow_two_pos e).ne']
  exact isNearest_natCast m

/-- The numbers whose exponents there is a field for are those below a power of two. -/
theorem lt_zpow_iff (h : IsCanonical m e) : (m : ℚ) * 2 ^ e < 2 ^ (1024 : ℤ) ↔ e < 972 := by
  constructor
  · intro hlt
    by_contra hbeyond
    refine absurd hlt (not_lt.mpr ?_)
    exact (zpow_two_le (by omega)).trans (h.zpow_le (by omega))
  · intro he
    exact h.lt_zpow.trans_le (zpow_two_le (by omega))

end IsCanonical

end Rounded

end PlanarKalman
