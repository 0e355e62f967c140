import PlanarKalman.Numeral.Shortest

/-!
# Writing numbers

Two ways of writing a binary64 number. `plain` writes the fewest digits that
read back, and never an exponent. `fixed` writes a given number of decimal
places, correctly rounded from the exact value.

Both write the sign whenever the number has one, so a negative zero and a
negative number that rounds to zero keep their `-`. What is not a finite number
is written as a word.
-/

namespace PlanarKalman.Numeral

def zeros (n : Nat) : List Char := List.replicate n '0'

def sign (negative : Bool) : List Char := if negative then ['-'] else []

/-- The texts of what is not a finite number, and a writer for what is. -/
def writeWith (finite : Nat → Int → List Char) : Binary64 → List Char
  | .undefined => ['N', 'a', 'N']
  | .infinite negative => sign negative ++ ['i', 'n', 'f']
  | .finite negative significand exponent =>
    sign negative ++ finite significand exponent

/-! ## The fewest digits -/

/-- Digits with the point before or between them, without an exponent. A whole number has
no point. -/
def placeDigits (digits : List Char) (exponent : Int) : List Char :=
  let whole := (digits.length : Int) + exponent
  if whole ≤ 0 then
    '0' :: '.' :: zeros (-whole).toNat ++ digits
  else if exponent < 0 then
    digits.take whole.toNat ++ '.' :: digits.drop whole.toNat
  else
    digits ++ zeros exponent.toNat

/-- The text of a number with the fewest digits that read back as it. Zero has the single
digit `0`. -/
def plain (a : Float) : String :=
  String.ofList (writeWith
    (fun significand exponent =>
      if significand = 0 then ['0']
      else
        let d := Decimal.shortest significand exponent
        placeDigits d.digits d.exponent)
    (.ofFloat a))

/-! ## A fixed number of places -/

/-- The magnitude in units of the last place, rounded to the nearest, a half to
the even one. -/
def fixedUnits (places significand : Nat) (exponent : Int) : Nat :=
  roundQuotient (significand * powerAbove 2 exponent * Nat.pow 10 places) (powerBelow 2 exponent)

/-- A number of units of the last place, with at least one digit before the
point. -/
def placePoint (places units : Nat) : List Char :=
  let digits := Nat.toDigits 10 units
  let padded := zeros (places + 1 - digits.length) ++ digits
  let whole := padded.length - places
  padded.take whole ++ '.' :: padded.drop whole

/-- The text of a number with the given number of decimal places. -/
def fixed (places : Nat) (a : Float) : String :=
  String.ofList (writeWith
    (fun significand exponent => placePoint places (fixedUnits places significand exponent))
    (.ofFloat a))

end PlanarKalman.Numeral
