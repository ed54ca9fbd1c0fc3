import SpacingClasses.Number.Double

/-!
# Shortest decimals

The decimal text of a double has the fewest digits that read back as that double, and of those the
digits nearest to it, an exact tie going to the even digit.  `Shortest.decimal` finds them by trying
the two neighbours of the value on ever finer decimal grids.
-/

namespace SpacingClasses

/-- A decimal number `coefficient * 10 ^ exponent`. -/
structure Shortest where
  coefficient : Nat
  exponent : Int
  deriving DecidableEq, Repr

namespace Shortest

/-- The number of units of the double that is read from a decimal. -/
def unitsRead? (s : Shortest) : Option Nat :=
  match Double.nearest false s.coefficient s.exponent with
  | .finite _ m => some m.units
  | _ => none

/-- The exponent of the leading decimal digit of a positive number of units. -/
def leadingExponent (u : Nat) : Int :=
  ((Nat.toDigits 10 (u * Nat.pow 10 400 / unitsPerOne)).length : Int) - 401

/-- The value of `u` units in steps of `10 ^ exponent`, as a quotient. -/
def inSteps (u : Nat) (exponent : Int) : Nat × Nat :=
  if exponent < 0 then (u * Nat.pow 10 (-exponent).toNat, unitsPerOne)
  else (u, unitsPerOne * Nat.pow 10 exponent.toNat)

/-- The decimal of a grid that reads back as `u` units: of the two neighbours the nearer, on a tie
the even one. -/
def onGrid? (u : Nat) (exponent : Int) : Option Shortest :=
  let (num, den) := inSteps u exponent
  let low : Shortest := ⟨num / den, exponent⟩
  let high : Shortest := ⟨num / den + 1, exponent⟩
  let nearer : Shortest := ⟨roundHalfEven num den, exponent⟩
  let other := if nearer = low then high else low
  [nearer, other].find? fun s => s.unitsRead? == some u

/-- The decimal without zeros at its end. -/
def trimZeros : Nat → Shortest → Shortest
  | 0, s => s
  | fuel + 1, s =>
    if s.coefficient % 10 = 0 && s.coefficient != 0 then
      trimZeros fuel ⟨s.coefficient / 10, s.exponent + 1⟩
    else s

/-- The shortest decimal that reads back as `u` units: one of at most 17 digits, or else the exact
value. -/
def decimal (u : Nat) : Shortest :=
  let found := (List.range 17).findSome? fun (i : Nat) => onGrid? u (leadingExponent u - i)
  let s := found.getD ⟨u * Nat.pow 5 1074, -1074⟩
  trimZeros (Text.ofNat s.coefficient).length s

/-- A decimal in scientific notation: a sign and at least two digits in the exponent. -/
def scientific (digits : Text) (exponent : Int) : Text :=
  let mantissa := match digits with
    | [] => []
    | [d] => [d]
    | d :: rest => d :: '.' :: rest
  let sign := if exponent < 0 then '-' else '+'
  mantissa ++ 'e' :: sign :: Text.padLeft 2 '0' (Text.ofNat exponent.natAbs)

/-- A decimal written out, with at least one digit on each side of the point. -/
def positional (digits : Text) (exponent : Int) : Text :=
  let places : Int := exponent + 1
  if places ≤ 0 then "0." ++ List.replicate (-places).toNat '0' ++ digits
  else if digits.length ≤ places.toNat then
    digits ++ List.replicate (places.toNat - digits.length) '0' ++ ".0"
  else digits.take places.toNat ++ '.' :: digits.drop places.toNat

/-- The text of a decimal: written out from `10 ^ -4` up to `10 ^ 16`, else in scientific
notation. -/
def text (s : Shortest) : Text :=
  let digits := Text.ofNat s.coefficient
  let exponent : Int := s.exponent + digits.length - 1
  if -4 ≤ exponent && exponent < 16 then positional digits exponent
  else scientific digits exponent

end Shortest

/-- The text of a double, with the fewest digits that read back. -/
def Double.text : Double → Text
  | finite negative m =>
    let magnitude := if m.units = 0 then "0.0".toList else (Shortest.decimal m.units).text
    if negative then '-' :: magnitude else magnitude
  | infinite negative => if negative then "-inf" else "inf"
  | nan => "nan"

end SpacingClasses
