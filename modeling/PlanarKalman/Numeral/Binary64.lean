/-!
# What a binary64 number stands for

A binary64 number is a sign and a magnitude `significand * 2 ^ exponent`, or an
infinity, or no number at all. Its text is computed from this reading in exact
integer arithmetic, so no rounding enters before the digits are chosen.
-/

namespace PlanarKalman.Numeral

/-- A binary64 number, taken apart. -/
inductive Binary64 where
  | undefined
  | infinite (negative : Bool)
  | finite (negative : Bool) (significand : Nat) (exponent : Int)
deriving DecidableEq, Repr

namespace Binary64

/-- The exponent of the smallest numbers, which have no leading one. -/
def leastExponent : Int := -1074

/-- The leading one of a significand: fifty-two binary digits follow it. -/
def leadingOne : Nat := 0x10000000000000

/-- Takes a number apart: sign bit, eleven bits of exponent, fifty-two bits of
fraction. The least exponent field belongs to the numbers without a leading
one, the greatest to the infinities and to undefined results. -/
def ofFloat (a : Float) : Binary64 :=
  let bits := a.toBits
  let negative := bits >>> 63 == 1
  let field := (bits >>> 52 &&& 0x7ff).toNat
  let fraction := (bits &&& 0xfffffffffffff).toNat
  if field = 0x7ff then
    if fraction = 0 then infinite negative else undefined
  else if field = 0 then
    finite negative fraction leastExponent
  else
    finite negative (leadingOne + fraction) (leastExponent + (field - 1 : Nat))

end Binary64

/-- The part of `base ^ exponent` that belongs above the fraction bar. -/
def powerAbove (base : Nat) (exponent : Int) : Nat := Nat.pow base exponent.toNat

/-- The part of `base ^ exponent` that belongs below the fraction bar. -/
def powerBelow (base : Nat) (exponent : Int) : Nat := Nat.pow base (-exponent).toNat

/-- The whole number nearest to a quotient; a half goes to the even
neighbour. -/
def roundQuotient (numerator denominator : Nat) : Nat :=
  let quotient := numerator / denominator
  let twice := 2 * (numerator % denominator)
  if twice < denominator then quotient
  else if denominator < twice then quotient + 1
  else if quotient % 2 = 0 then quotient
  else quotient + 1

/-- The whole number chosen is at most half a unit away: twice the quotient lies
between twice that number less one and twice that number plus one. -/
theorem roundQuotient_near (numerator : Nat) {denominator : Nat} (h : 0 < denominator) :
    2 * roundQuotient numerator denominator * denominator ≤ 2 * numerator + denominator ∧
      2 * numerator ≤ (2 * roundQuotient numerator denominator + 1) * denominator := by
  have parts := Nat.div_add_mod numerator denominator
  have small := Nat.mod_lt numerator h
  generalize hq : numerator / denominator = quotient at parts
  generalize hr : numerator % denominator = remainder at parts small
  rw [Nat.mul_comm] at parts
  have here : 2 * quotient * denominator = 2 * (quotient * denominator) := Nat.mul_assoc ..
  have above : 2 * (quotient + 1) * denominator =
      2 * (quotient * denominator) + 2 * denominator := by
    rw [Nat.mul_assoc, Nat.add_mul, Nat.mul_add, Nat.one_mul]
  simp only [roundQuotient, hq, hr, Nat.add_mul, Nat.one_mul]
  by_cases low : 2 * remainder < denominator
  · simp only [low, if_true]
    omega
  · by_cases high : denominator < 2 * remainder
    · simp only [low, high, if_true, if_false]
      omega
    · by_cases even : quotient % 2 = 0 <;> simp only [low, high, even, if_true, if_false] <;> omega

/-- Half a unit away means that there were two choices, and then the even one is taken. -/
theorem roundQuotient_even (numerator : Nat) {denominator : Nat} (h : 0 < denominator)
    (tie : 2 * roundQuotient numerator denominator * denominator = 2 * numerator + denominator ∨
      2 * numerator = (2 * roundQuotient numerator denominator + 1) * denominator) :
    roundQuotient numerator denominator % 2 = 0 := by
  have parts := Nat.div_add_mod numerator denominator
  have small := Nat.mod_lt numerator h
  simp only [roundQuotient] at tie ⊢
  generalize numerator / denominator = quotient at parts tie ⊢
  generalize numerator % denominator = remainder at parts small tie ⊢
  rw [Nat.mul_comm] at parts
  have here : 2 * quotient * denominator = 2 * (quotient * denominator) := Nat.mul_assoc ..
  have above : 2 * (quotient + 1) * denominator =
      2 * (quotient * denominator) + 2 * denominator := by
    rw [Nat.mul_assoc, Nat.add_mul, Nat.mul_add, Nat.one_mul]
  simp only [Nat.add_mul, Nat.one_mul] at tie
  by_cases low : 2 * remainder < denominator
  · simp only [low, if_true] at tie
    omega
  · by_cases high : denominator < 2 * remainder
    · simp only [low, high, if_true, if_false] at tie
      omega
    · by_cases even : quotient % 2 = 0
      · simp only [low, high, even, if_true, if_false]
      · simp only [low, high, even, if_false]
        omega

end PlanarKalman.Numeral
