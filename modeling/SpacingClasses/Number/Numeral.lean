import SpacingClasses.Number.Double
import SpacingClasses.Text.Blank
import SpacingClasses.Text.Digit

/-!
# Numerals

How numbers are written in texts: a sign, digits of any script with a point among them, and an
exponent of ten.

* `Numeral.read?` reads the longest numeral at the front of a text;
* `parseNumber?` takes a text that is a numeral between blanks, `parseLeadingNumber?` one that
  begins with a numeral;
* `parseFloat?` also takes underscores between digits, and the words for infinity and for no
  number.
-/

namespace SpacingClasses

/-- A numeral: its digits without the point, and the power of ten that they count. -/
structure Numeral where
  negative : Bool
  digits : List Nat
  exponent : Int
  deriving DecidableEq, Repr

namespace Numeral

/-- An optional sign, and what follows it. -/
def sign : Text → Bool × Text
  | '-' :: rest => (true, rest)
  | '+' :: rest => (false, rest)
  | t => (false, t)

/-- The digits of a mantissa, how many of them stand after the point, and what follows. -/
def mantissa? (t : Text) : Option (List Nat × Nat × Text) :=
  match Text.spanDigits t with
  | ([], '.' :: rest) =>
    match Text.spanDigits rest with
    | ([], _) => none
    | (fraction, rest') => some (fraction, fraction.length, rest')
  | ([], _) => none
  | (whole, '.' :: rest) =>
    let (fraction, rest') := Text.spanDigits rest
    some (whole ++ fraction, fraction.length, rest')
  | (whole, rest) => some (whole, 0, rest)

/-- The exponent at the front of a text, and what follows it; zero when none stands there. -/
def exponentPart : Text → Int × Text
  | [] => (0, [])
  | c :: rest =>
    if c = 'e' || c = 'E' then
      let (negative, rest') := sign rest
      match Text.spanDigits rest' with
      | ([], _) => (0, c :: rest)
      | (digits, rest'') =>
        (if negative then -(Text.ofDigits digits : Int) else Text.ofDigits digits, rest'')
    else (0, c :: rest)

/-- The longest numeral at the front of a text, and what follows it. -/
def read? (t : Text) : Option (Numeral × Text) :=
  let (negative, rest) := sign t
  match mantissa? rest with
  | none => none
  | some (digits, places, rest') =>
    let (exponent, rest'') := exponentPart rest'
    some (⟨negative, digits, exponent - places⟩, rest'')

/-- The numeral that a text is. -/
def whole? (t : Text) : Option Numeral :=
  match read? t with
  | some (n, []) => some n
  | _ => none

/-- The double nearest to a numeral. -/
def toDouble (n : Numeral) : Double :=
  Double.nearest n.negative (Text.ofDigits n.digits) n.exponent

end Numeral

/-- The number, if it is finite. -/
def Double.finite? (x : Double) : Option Double := if x.isFinite then some x else none

/-- The finite number that a text is, blanks at its ends aside. -/
def parseNumber? (t : Text) : Option Double :=
  (Numeral.whole? (Text.strip t)).bind fun n => n.toDouble.finite?

/-- The finite number that a text begins with, after any blanks. -/
def parseLeadingNumber? (t : Text) : Option Double :=
  (Numeral.read? (Text.skipBlanks t)).bind fun (n, _) => n.toDouble.finite?

/-- Blanks that may surround a number: all but the separators of records. -/
def isNumberPadding (c : Char) : Bool :=
  Text.isBlank c && !(0x1c ≤ c.toNat && c.toNat ≤ 0x1f)

/-- The text without its underscores, when each stands between two digits. -/
def dropUnderscores? (afterDigit : Bool) : Text → Option Text
  | [] => some []
  | '_' :: c :: rest =>
    if afterDigit && (Text.digitValue? c).isSome then
      (dropUnderscores? true rest).map (c :: ·)
    else none
  | c :: rest =>
    if c = '_' then none
    else (dropUnderscores? (Text.digitValue? c).isSome rest).map (c :: ·)

/-- The infinity or the absence of a number that a word stands for, in any letter case. -/
def specialNumber? (t : Text) : Option Double :=
  let (negative, word) := Numeral.sign t
  let small := word.map Char.toLower
  if small = ("inf" : Text) || small = ("infinity" : Text) then some (.infinite negative)
  else if small = ("nan" : Text) then some .nan
  else none

/-- The number that a text is, in the widest grammar. -/
def parseFloat? (t : Text) : Option Double :=
  let bare := Text.trim isNumberPadding t
  match (dropUnderscores? false bare).bind Numeral.whole? with
  | some n => some n.toDouble
  | none => specialNumber? bare

end SpacingClasses
