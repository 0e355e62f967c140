/-!
# Reading whole numbers

A whole number is written with decimal digits, after a plus sign or without a
sign. It is read from left to right, and the first thing that is wrong is
reported: a character that is no digit, or a digit with which the number no
longer fits into 64 bits.
-/

namespace PlanarKalman.Numeral

/-- Why a text is not a number of 64 bits. -/
inductive WordFault where
  | empty
  | badDigit
  | tooLarge
deriving DecidableEq, Repr

def digitValue? (c : Char) : Option Nat :=
  if '0' ≤ c ∧ c ≤ '9' then some (c.toNat - '0'.toNat) else none

/-- Reads digits after those that gave `value`. -/
def readDigits (value : Nat) : List Char → Except WordFault Nat
  | [] => .ok value
  | c :: rest =>
    match digitValue? c with
    | none => .error .badDigit
    | some digit =>
      let value := value * 10 + digit
      if value < UInt64.size then readDigits value rest else .error .tooLarge

/-- Reads a number of 64 bits. A sign alone is no number. -/
def readWord (text : String) : Except WordFault Nat :=
  match text.toList with
  | [] => .error .empty
  | '+' :: c :: rest => readDigits 0 (c :: rest)
  | chars => readDigits 0 chars

end PlanarKalman.Numeral
