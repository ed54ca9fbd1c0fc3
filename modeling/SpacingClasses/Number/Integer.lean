import SpacingClasses.Failure
import SpacingClasses.Text.Digit

/-!
# Whole numbers in base ten

Integers of any size are exact, but one of more than 4300 digits is neither written nor read.
-/

namespace SpacingClasses.Integer

/-- The greatest number of digits that is written or read. -/
def maxDigits : Nat := 4300

/-- An integer in base ten, however long. -/
def text (n : Int) : Text := Notice.number n

/-- An integer in base ten, within the limit of digits. -/
def write (n : Int) : Except Failure Text :=
  let digits := Text.ofNat n.natAbs
  if digits.length ≤ maxDigits then .ok (if n < 0 then '-' :: digits else digits)
  else .error (.digitLimit none)

/-- The integer of a sign and a row of digits, within the limit of digits. -/
def read (negative : Bool) (digits : List Nat) : Except Failure Int :=
  if digits.length ≤ maxDigits then
    .ok (if negative then -(Text.ofDigits digits : Int) else Text.ofDigits digits)
  else .error (.digitLimit (some digits.length))

end SpacingClasses.Integer
