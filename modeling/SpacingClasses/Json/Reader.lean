import SpacingClasses.Reader
import SpacingClasses.Value.Key

/-!
# Reading JSON

A strict reader for JSON, which also takes the words for infinities and for no number.  `Json.read`
reads a whole text; a fault comes with the place where it lies.

A `Text` is made of whole characters.  The escape of half of a surrogate pair alone, which is accepted
in JSON, therefore has no character here to stand for: the character of code zero takes its place, and
what is shown of the readers holds of texts without such an escape as of the texts of a program.
-/

namespace SpacingClasses.Json

/-- What is wrong with a text. -/
inductive Fault where
  | expectedValue
  | extraData
  | expectedKey
  | expectedColon
  | expectedComma
  | controlCharacter
  | badEscape
  | badUnicodeEscape
  | unterminated
  | byteOrderMark
  deriving DecidableEq, Repr

/-- The fault in words. -/
def Fault.text : Fault → Text
  | expectedValue => "Expecting value"
  | extraData => "Extra data"
  | expectedKey => "Expecting property name enclosed in double quotes"
  | expectedColon => "Expecting ':' delimiter"
  | expectedComma => "Expecting ',' delimiter"
  | controlCharacter => "Invalid control character at"
  | badEscape => "Invalid \\escape"
  | badUnicodeEscape => "Invalid \\uXXXX escape"
  | unterminated => "Unterminated string starting at"
  | byteOrderMark => "Unexpected UTF-8 BOM (decode using utf-8-sig)"

open Reader

/-- Whether a character may stand between tokens. -/
def isSpace (c : Char) : Bool := c == ' ' || c == '\t' || c == '\n' || c == '\r'

/-- The text without the spaces at its front. -/
def skipSpace (t : Text) : Text := t.dropWhile isSpace

/-- What a character stands for after a backslash. -/
def escaped? (c : Char) : Option Char :=
  if c = '"' || c = '\\' || c = '/' then some c
  else if c = 'b' then some '\x08'
  else if c = 'f' then some '\x0c'
  else if c = 'n' then some '\n'
  else if c = 'r' then some '\r'
  else if c = 't' then some '\t'
  else none

/-- The value of a hexadecimal digit. -/
def hexValue? (c : Char) : Option Nat :=
  if c.isDigit then some (c.toNat - 48)
  else if 'a' ≤ c && c ≤ 'f' then some (c.toNat - 87)
  else if 'A' ≤ c && c ≤ 'F' then some (c.toNat - 55)
  else none

/-- The code unit that four hexadecimal digits write. -/
def codeUnit? (a b c d : Char) : Option Nat := do
  let a ← hexValue? a
  let b ← hexValue? b
  let c ← hexValue? c
  let d ← hexValue? d
  return ((a * 16 + b) * 16 + c) * 16 + d

/-- Whether a code unit is the first half of a pair. -/
def isHighHalf (n : Nat) : Bool := 0xd800 ≤ n && n ≤ 0xdbff

/-- Whether a code unit is the second half of a pair. -/
def isLowHalf (n : Nat) : Bool := 0xdc00 ≤ n && n ≤ 0xdfff

/-- The character of a pair of code units. -/
def pairChar (high low : Nat) : Char :=
  Char.ofNat (0x10000 + (high - 0xd800) * 0x400 + (low - 0xdc00))

/-- The characters of a string up to its closing quote.  `start` is how much text was left at the
opening quote.  A pair of escaped code units is one character, half of a pair alone is the character of
code zero; a character must follow an escape. -/
def readChars (start : Nat) : Reader Fault Text
  | [] => .error (.fault start .unterminated)
  | ['\\'] => .error (.fault start .unterminated)
  | '\\' :: 'u' :: a :: b :: c :: d :: '\\' :: 'u' :: e :: f :: g :: h :: i :: rest =>
    match codeUnit? a b c d with
    | none => stopAt ('u' :: a :: b :: c :: d :: '\\' :: 'u' :: e :: f :: g :: h :: i :: rest)
        .badUnicodeEscape
    | some high =>
      if isHighHalf high then
        match codeUnit? e f g h with
        | none => stopAt ('u' :: e :: f :: g :: h :: i :: rest) .badUnicodeEscape
        | some low =>
          if isLowHalf low then cons (pairChar high low) (readChars start (i :: rest))
          else
            cons (Char.ofNat high)
              (readChars start ('\\' :: 'u' :: e :: f :: g :: h :: i :: rest))
      else
        cons (Char.ofNat high) (readChars start ('\\' :: 'u' :: e :: f :: g :: h :: i :: rest))
  | '\\' :: 'u' :: a :: b :: c :: d :: e :: rest =>
    match codeUnit? a b c d with
    | none => stopAt ('u' :: a :: b :: c :: d :: e :: rest) .badUnicodeEscape
    | some n => cons (Char.ofNat n) (readChars start (e :: rest))
  | '\\' :: 'u' :: rest => stopAt ('u' :: rest) .badUnicodeEscape
  | '\\' :: c :: rest =>
    match escaped? c with
    | none => stopAt ('\\' :: c :: rest) .badEscape
    | some d => cons d (readChars start rest)
  | c :: rest =>
    if c = '"' then .ok ([], rest)
    else if c.toNat < 32 then stopAt (c :: rest) .controlCharacter
    else cons c (readChars start rest)

/-- A string after its opening quote. -/
def readString (t : Text) : Except (Stop Fault) (Text × Text) := readChars (t.length + 1) t

/-- The digits of a number's whole part: a zero alone, or digits that begin with another one. -/
def wholeDigits? : Text → Option (Text × Text)
  | '0' :: rest => some (['0'], rest)
  | c :: rest =>
    if c.isDigit then
      some (c :: rest.takeWhile Char.isDigit, rest.dropWhile Char.isDigit)
    else none
  | [] => none

/-- A point and the digits after it, if at least one follows. -/
def fractionPart (t : Text) : Text × Text :=
  match t with
  | '.' :: d :: rest =>
    if d.isDigit then
      ('.' :: d :: rest.takeWhile Char.isDigit, rest.dropWhile Char.isDigit)
    else ([], t)
  | _ => ([], t)

/-- An exponent, if it has at least one digit. -/
def exponentPart (t : Text) : Text × Text :=
  match t with
  | c :: rest =>
    if c = 'e' || c = 'E' then
      let (sign, digits) := match rest with
        | '+' :: r => (['+'], r)
        | '-' :: r => (['-'], r)
        | r => ([], r)
      if (digits.takeWhile Char.isDigit).isEmpty then ([], t)
      else (c :: sign ++ digits.takeWhile Char.isDigit, digits.dropWhile Char.isDigit)
    else ([], t)
  | [] => ([], t)

/-- Whether a minus stands at the front, and what follows it. -/
def minusPart : Text → Bool × Text
  | '-' :: rest => (true, rest)
  | t => (false, t)

/-- A number: an integer without a point and without an exponent, else the nearest double. -/
def readNumber (t : Text) : Except (Stop Fault) (Value × Text) :=
  let (negative, unsigned) := minusPart t
  match wholeDigits? unsigned with
  | none => stopAt t .expectedValue
  | some (whole, rest) =>
    let (fraction, rest) := fractionPart rest
    let (exponent, rest) := exponentPart rest
    if fraction.isEmpty && exponent.isEmpty then
      match Integer.read negative (Text.spanDigits whole).1 with
      | .ok n => .ok (.int n, rest)
      | .error _ => .error (.limit whole.length)
    else
      match Numeral.whole? (whole ++ fraction ++ exponent) with
      | some n => .ok (.float { n with negative := negative }.toDouble, rest)
      | none => stopAt t .expectedValue

/-- The words that stand for values. -/
def words : List (Text × Value) :=
  [("null", .null), ("true", .bool true), ("false", .bool false), ("NaN", .float .nan),
    ("Infinity", .float (.infinite false)), ("-Infinity", .float (.infinite true))]

/-- A word that stands for a value, or else a number. -/
def readScalar (t : Text) : Except (Stop Fault) (Value × Text) :=
  match words.find? fun (word, _) => word.isPrefixOf t with
  | some (word, v) => .ok (v, t.drop word.length)
  | none => readNumber t

/-- The items of a list, at the first of them or after a comma. -/
def readItems (item : Reader Fault Value) : Nat → Reader Fault (List Value)
  | 0, _ => .error .exhausted
  | bound + 1, t => do
    let (v, afterItem) ← item t
    match skipSpace afterItem with
    | ']' :: rest => .ok ([v], rest)
    | ',' :: next => do
      let (vs, rest) ← readItems item bound (skipSpace next)
      .ok (v :: vs, rest)
    | left => stopAt left .expectedComma

/-- The entries of a dictionary, at the first of them or after a comma. -/
def readEntries (item : Reader Fault Value) : Nat → Reader Fault (List (Value × Value))
  | 0, _ => .error .exhausted
  | bound + 1, t => do
    match t with
    | '"' :: chars => do
      let (key, afterKey) ← readString chars
      match skipSpace afterKey with
      | ':' :: afterColon => do
        let (v, afterItem) ← item (skipSpace afterColon)
        match skipSpace afterItem with
        | '\x7d' :: rest => .ok ([(.text key, v)], rest)
        | ',' :: next => do
          let (entries, rest) ← readEntries item bound (skipSpace next)
          .ok ((.text key, v) :: entries, rest)
        | left => stopAt left .expectedComma
      | left => stopAt left .expectedColon
    | left => stopAt left .expectedKey

/-- A value, nested no deeper than the bound. -/
def readValue : Nat → Reader Fault Value
  | 0, _ => .error .exhausted
  | bound + 1, t =>
    match t with
    | [] => stopAt [] .expectedValue
    | '"' :: chars => do
      let (read, rest) ← readString chars
      .ok (.text read, rest)
    | '[' :: inside =>
      match skipSpace inside with
      | ']' :: rest => .ok (.list [], rest)
      | start => do
        let (items, rest) ← readItems (readValue bound) (start.length + 1) start
        .ok (.list items, rest)
    | '\x7b' :: inside =>
      match skipSpace inside with
      | '\x7d' :: rest => .ok (.dict [], rest)
      | start => do
        let (entries, rest) ← readEntries (readValue bound) (start.length + 1) start
        .ok (Value.dictOf entries, rest)
    | start => readScalar start

/-- The value that takes up a text, spaces at the ends aside. -/
def read (t : Text) : Except (Stop Fault) Value := do
  match t with
  | '\ufeff' :: _ => stopAt t .byteOrderMark
  | _ =>
    let start := skipSpace t
    let (v, rest) ← readValue (start.length + 1) start
    match skipSpace rest with
    | [] => .ok v
    | left => .error (.fault left.length .extraData)

end SpacingClasses.Json
