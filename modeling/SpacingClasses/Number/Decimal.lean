import SpacingClasses.Number.Integer
import SpacingClasses.Number.Numeral
import SpacingClasses.Number.Shortest

/-!
# Decimals and numbers

A decimal is kept as it was written: `1.50` has the coefficient 150 and the exponent -2.  A
`Number` is an exact integer or a double; a decimal that denotes an integer stands for that one,
and any other for the nearest double.
-/

namespace SpacingClasses

/-- A decimal number, as written. -/
inductive Decimal where
  | finite (negative : Bool) (coefficient : Nat) (exponent : Int)
  | infinite (negative : Bool)
  /-- No number; the payload is zero when none is given. -/
  | nan (negative signaling : Bool) (payload : Nat)
  deriving DecidableEq, Repr

/-- A number of which sizes are made. -/
inductive Number where
  | int (n : Int)
  | double (x : Double)
  deriving DecidableEq, Repr

namespace Decimal

/-- The special value that a word in small letters stands for. -/
def special? (negative : Bool) (word : Text) : Option Decimal :=
  if word = ("inf" : Text) || word = ("infinity" : Text) then some (infinite negative)
  else
    let (signaling, rest) := match word with
      | 's' :: rest => (true, rest)
      | rest => (false, rest)
    match rest with
    | 'n' :: 'a' :: 'n' :: payload =>
      match Text.spanDigits payload with
      | (digits, []) => some (nan negative signaling (Text.ofDigits digits))
      | _ => none
    | _ => none

/-- The decimal that a text writes, blanks at its ends and underscores aside. -/
def ofText? (t : Text) : Option Decimal :=
  let bare := (Text.strip t).filter (· != '_')
  match Numeral.whole? bare with
  | some n => some (finite n.negative (Text.ofDigits n.digits) n.exponent)
  | none =>
    let (negative, word) := Numeral.sign bare
    special? negative (word.map Char.toLower)

/-- The digits with a point before the last `-exponent` of them, or else one digit before the point
and the power of ten that is left. -/
def finiteText (coefficient : Nat) (exponent : Int) : Text :=
  let digits := Text.ofNat coefficient
  let adjusted : Int := exponent + digits.length
  let places : Int := if exponent ≤ 0 && -6 < adjusted then adjusted else 1
  let mantissa :=
    if places ≤ 0 then "0." ++ List.replicate (-places).toNat '0' ++ digits
    else if digits.length ≤ places.toNat then
      digits ++ List.replicate (places.toNat - digits.length) '0'
    else digits.take places.toNat ++ '.' :: digits.drop places.toNat
  if adjusted = places then mantissa
  else
    mantissa ++ 'E' :: (if adjusted < places then '-' else '+') ::
      Text.ofNat (adjusted - places).natAbs

/-- The decimal as it was written, in its standard notation. -/
def text : Decimal → Text
  | finite negative coefficient exponent =>
    (if negative then ['-'] else []) ++ finiteText coefficient exponent
  | infinite negative => if negative then "-Infinity" else "Infinity"
  | nan negative signaling payload =>
    (if negative then ['-'] else []) ++ (if signaling then ['s'] else []) ++ "NaN" ++
      (if payload = 0 then [] else Text.ofNat payload)

/-- The exponent of the leading digit. -/
def leadingExponent (coefficient : Nat) (exponent : Int) : Int :=
  exponent + (Text.ofNat coefficient).length - 1

/-- The integer that a coefficient and an exponent denote, if they denote one. -/
def whole? (negative : Bool) (coefficient : Nat) (exponent : Int) : Option Int :=
  let signed (n : Nat) : Int := if negative then -n else n
  match exponent with
  | .ofNat e => some (signed (coefficient * Nat.pow 10 e))
  | .negSucc e =>
    if coefficient = 0 then some 0
    else if coefficient.log2 < e + 1 then none
    else if coefficient % Nat.pow 10 (e + 1) = 0 then
      some (signed (coefficient / Nat.pow 10 (e + 1)))
    else none

/-- The greatest exponent of a leading digit for which the decimal counts as a number. -/
def maxLeadingExponent : Int := 4000

/-- The number that a decimal stands for: none for a special value, for one of too many digits,
and for a fraction that no double but zero or an infinity comes near. -/
def number? : Decimal → Option Number
  | finite negative coefficient exponent =>
    if maxLeadingExponent < leadingExponent coefficient exponent then none
    else
      match whole? negative coefficient exponent with
      | some n => some (.int n)
      | none =>
        let x := Double.nearest negative coefficient exponent
        if x.isFinite && !x.isZero then some (.double x) else none
  | _ => none

end Decimal

namespace Number

/-- The number in base ten: without a point when it is whole. -/
def write : Number → Except Failure Text
  | int n => Integer.write n
  | double x =>
    .ok <|
      match x.whole? with
      | some n => Integer.text n
      | none => x.text

end Number

end SpacingClasses
