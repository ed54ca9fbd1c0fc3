import SpacingClasses.Reader
import SpacingClasses.Toml.Fault
import SpacingClasses.Value.Basic

/-!
# Scalars of a TOML document

Strings in their four forms, dates and times, and numbers.  Each reader takes the text that is
left.
-/

namespace SpacingClasses.Toml

open Reader

/-- Whether a character is a space or a tab. -/
def isSpace (c : Char) : Bool := c == ' ' || c == '\t'

/-- Whether a character is a space, a tab or a line feed. -/
def isSpaceOrLine (c : Char) : Bool := isSpace c || c == '\n'

/-- The text without the spaces and tabs at its front. -/
def skipSpace (t : Text) : Text := t.dropWhile isSpace

/-- Whether a control character may not stand in a text, which may or may not have several lines. -/
def isIllegal (multiline : Bool) (c : Char) : Bool :=
  (c.toNat < 32 || c.toNat == 127) && c != '\t' && !(multiline && c == '\n')

/-- What stands before the first occurrence of a part, and the text from there on. -/
def splitAt? (part : Text) : Text → Option (Text × Text)
  | [] => none
  | c :: rest =>
    if part.isPrefixOf (c :: rest) then some ([], c :: rest)
    else (splitAt? part rest).map fun (before, after) => (c :: before, after)

/-- Stops at the first illegal character of what stands at the front of a text. -/
def checkLegal (multiline : Bool) : (span left : Text) → Except (Stop Fault) Unit
  | [], _ => .ok ()
  | c :: span, left =>
    if isIllegal multiline c then stopAt left (.invalidCharacter c)
    else checkLegal multiline span left.tail

/-- A comment, if one starts here; the text after it. -/
def skipComment : Text → Except (Stop Fault) Text
  | '#' :: rest => do
    let span := rest.takeWhile (· != '\n')
    checkLegal false span rest
    .ok (rest.dropWhile (· != '\n'))
  | t => .ok t

/-- A literal string after its opening quotes, up to its closing ones. -/
def readLiteral (closing : Text) (multiline : Bool) (t : Text) :
    Except (Stop Fault) (Text × Text) :=
  match splitAt? closing t with
  | none => stopAt [] (.expectedText closing)
  | some (span, after) => do
    checkLegal multiline span t
    .ok (span, after.drop closing.length)

/-- The value of a row of hexadecimal digits. -/
def hexNumber? (digits : Text) : Option Nat :=
  digits.foldl
    (fun n c => do
      let n ← n
      if c.isDigit then return 16 * n + (c.toNat - 48)
      else if 'a' ≤ c && c ≤ 'f' then return 16 * n + (c.toNat - 87)
      else if 'A' ≤ c && c ≤ 'F' then return 16 * n + (c.toNat - 55)
      else none)
    (some 0)

/-- The character that hexadecimal digits write. -/
def readCode (width : Nat) (t : Text) : Except (Stop Fault) (Text × Text) :=
  let digits := t.take width
  match (if digits.length = width then hexNumber? digits else none) with
  | none => stopAt t .badHexadecimal
  | some n =>
    if n < 0xd800 || (0xdfff < n && n ≤ 0x10ffff) then .ok ([Char.ofNat n], t.drop width)
    else stopAt (t.drop width) .notScalarValue

/-- What a backslash and the character after it stand for; the end of a line and the spaces around
it stand for nothing in a string of several lines. -/
def readEscape (multiline : Bool) : Reader Fault Text
  | [] => stopAt [] .strayBackslash
  | c :: rest =>
    if multiline && c = '\n' then .ok ([], rest.dropWhile isSpaceOrLine)
    else if multiline && isSpace c then
      match skipSpace rest with
      | [] => .ok ([], [])
      | '\n' :: rest' => .ok ([], rest'.dropWhile isSpaceOrLine)
      | left => stopAt left .strayBackslash
    else if c = 'u' then readCode 4 rest
    else if c = 'U' then readCode 8 rest
    else if c = 'b' then .ok (['\x08'], rest)
    else if c = 't' then .ok (['\t'], rest)
    else if c = 'n' then .ok (['\n'], rest)
    else if c = 'f' then .ok (['\x0c'], rest)
    else if c = 'r' then .ok (['\r'], rest)
    else if c = '"' || c = '\\' then .ok ([c], rest)
    else stopAt rest .strayBackslash

/-- The characters of a basic string up to its closing quotes. -/
def readBasic (multiline : Bool) : Nat → Reader Fault Text
  | 0, _ => .error .exhausted
  | bound + 1, t =>
    match t with
    | [] => stopAt [] .unterminated
    | '"' :: rest =>
      if !multiline then .ok ([], rest)
      else
        match rest with
        | '"' :: '"' :: rest' => .ok ([], rest')
        | _ => cons '"' (readBasic multiline bound rest)
    | '\\' :: rest => do
      let (meant, rest') ← readEscape multiline rest
      let (read, rest'') ← readBasic multiline bound rest'
      .ok (meant ++ read, rest'')
    | c :: rest =>
      if isIllegal multiline c then stopAt (c :: rest) (.illegalCharacter c)
      else cons c (readBasic multiline bound rest)

/-- Up to two quotes that follow a string of several lines and belong to it. -/
def readExtraQuotes (quote : Char) (read rest : Text) : Text × Text :=
  match rest with
  | c :: rest' =>
    if c = quote then
      match rest' with
      | d :: rest'' =>
        if d = quote then (read ++ [quote, quote], rest'') else (read ++ [quote], rest')
      | [] => (read ++ [quote], [])
    else (read, rest)
  | [] => (read, rest)

/-- The text without a line feed at its front. -/
def dropLine : Text → Text
  | '\n' :: rest => rest
  | t => t

/-- A string on one line after its opening quote. -/
def readLine (quote : Char) (t : Text) : Except (Stop Fault) (Text × Text) :=
  if quote = '"' then readBasic false (t.length + 1) t else readLiteral ['\''] false t

/-- A string of several lines after its opening quotes. -/
def readLines (quote : Char) (t : Text) : Except (Stop Fault) (Text × Text) := do
  let start := dropLine t
  let (read, rest) ←
    if quote = '"' then readBasic true (start.length + 1) start
    else readLiteral ['\'', '\'', '\''] true start
  .ok (readExtraQuotes quote read rest)

/-- A string, its opening quote being the first character. -/
def readString (quote : Char) (rest : Text) : Except (Stop Fault) (Text × Text) :=
  match rest with
  | c :: d :: rest' => if c = quote && d = quote then readLines quote rest' else readLine quote rest
  | _ => readLine quote rest

/-- A number of fixed width that lies between two bounds. -/
def fixed? (width low high : Nat) (t : Text) : Option (Nat × Text) :=
  let digits := t.take width
  if digits.length = width && digits.all Char.isDigit then
    let n := Text.ofDigits (Text.spanDigits digits).1
    if low ≤ n && n ≤ high then some (n, t.drop width) else none
  else none

/-- The text after one wanted character. -/
def after? (wanted : Char) : Text → Option Text
  | c :: rest => if c = wanted then some rest else none
  | [] => none

/-- A fraction of a second in microseconds; digits past the sixth are dropped. -/
def microseconds (t : Text) : Nat × Text :=
  match t with
  | '.' :: rest =>
    let digits := (rest.takeWhile Char.isDigit)
    if digits.isEmpty then (0, t)
    else
      let six := (digits ++ List.replicate 6 '0').take 6
      (Text.ofDigits (Text.spanDigits six).1, rest.dropWhile Char.isDigit)
  | _ => (0, t)

/-- A time of day. -/
def time? (t : Text) : Option (TimeOfDay × Text) := do
  let (hour, t) ← fixed? 2 0 23 t
  let (minute, t) ← fixed? 2 0 59 (← after? ':' t)
  let (second, t) ← fixed? 2 0 59 (← after? ':' t)
  let (micro, t) := microseconds t
  return (⟨hour, minute, second, micro⟩, t)

/-- An offset from universal time in minutes. -/
def offset? (t : Text) : Option (Int × Text) :=
  match t with
  | [] => none
  | c :: rest =>
    if c = 'Z' || c = 'z' then some (0, rest)
    else if c = '+' || c = '-' then do
      let (hours, t) ← fixed? 2 0 23 rest
      let (minutes, t) ← fixed? 2 0 59 (← after? ':' t)
      let total : Int := 60 * hours + minutes
      return (if c = '-' then -total else total, t)
    else none

/-- A date, and a time of day after it if there is one. -/
def dateTime? (t : Text) : Option (Moment × Date × Text) := do
  let (year, t) ← fixed? 4 0 9999 t
  let (month, t) ← fixed? 2 1 12 (← after? '-' t)
  let (day, t) ← fixed? 2 1 31 (← after? '-' t)
  let date : Date := ⟨year, month, day⟩
  let timed := match t with
    | c :: rest => if c = 'T' || c = 't' || c = ' ' then time? rest else none
    | [] => none
  match timed with
  | none => return (.date date, date, t)
  | some (time, t) =>
    match offset? t with
    | some (offset, t) => return (.dateTime date time (some offset), date, t)
    | none => return (.dateTime date time none, date, t)

/-- The digits of a base at the front of a text, single underscores between them allowed. -/
def digitRun (isOne : Char → Bool) : Text → Text × Text
  | [] => ([], [])
  | c :: rest =>
    if isOne c then
      let (digits, after) := digitRun isOne rest
      (c :: digits, after)
    else
      match c, rest with
      | '_', d :: rest' =>
        if isOne d then
          let (digits, after) := digitRun isOne rest'
          (d :: digits, after)
        else ([], c :: rest)
      | _, _ => ([], c :: rest)

/-- The digits of a base at the front of a text, the first of them not after an underscore. -/
def digits? (isOne : Char → Bool) (t : Text) : Option (Text × Text) :=
  match t with
  | c :: _ => if isOne c then some (digitRun isOne t) else none
  | [] => none

/-- Whether a character is a hexadecimal digit. -/
def isHex (c : Char) : Bool := (hexNumber? [c]).isSome

/-- The number that digits write in a base. -/
def inBase (base : Nat) (digits : Text) : Nat :=
  digits.foldl (fun n c => base * n + (hexNumber? [c]).getD 0) 0

/-- An integer in base sixteen, two or eight. -/
def prefixed? (t : Text) : Option (Nat × Text) :=
  match t with
  | '0' :: c :: rest =>
    let base : Option (Nat × (Char → Bool)) :=
      if c = 'x' then some (16, isHex)
      else if c = 'b' then some (2, fun d => d == '0' || d == '1')
      else if c = 'o' then some (8, fun d => '0' ≤ d && d ≤ '7')
      else none
    base.bind fun (b, isOne) => (digits? isOne rest).map fun (ds, after) => (inBase b ds, after)
  | _ => none

/-- A sign, if one stands here. -/
def sign : Text → Text × Text
  | '+' :: rest => (['+'], rest)
  | '-' :: rest => (['-'], rest)
  | t => ([], t)

/-- A point with digits after it, or nothing. -/
def fraction (t : Text) : Text × Text :=
  match (after? '.' t).bind (digits? Char.isDigit) with
  | some (digits, rest) => ('.' :: digits, rest)
  | none => ([], t)

/-- An exponent, or nothing. -/
def exponent (t : Text) : Text × Text :=
  match t with
  | c :: rest =>
    if c = 'e' || c = 'E' then
      let (mark, rest') := sign rest
      match digits? Char.isDigit rest' with
      | some (digits, rest'') => (c :: mark ++ digits, rest'')
      | none => ([], t)
    else ([], t)
  | [] => ([], t)

/-- The digits of a whole part: a zero alone, or digits that begin with another one. -/
def whole? (t : Text) : Option (Text × Text) :=
  match t with
  | '0' :: rest => some (['0'], rest)
  | t => digits? Char.isDigit t

/-- A number in base ten, if one stands here. -/
def decimal? (t : Text) : Option (Except (Stop Fault) (Value × Text)) := do
  let (mark, rest) := sign t
  let (whole, rest) ← whole? rest
  let (point, rest) := fraction rest
  let (power, rest) := exponent rest
  let n ← Numeral.whole? (mark ++ whole ++ point ++ power)
  if point.isEmpty && power.isEmpty then
    match Integer.read n.negative n.digits with
    | .ok i => return .ok (.int i, rest)
    | .error _ => return .error (.limit n.digits.length)
  else return .ok (.float n.toDouble, rest)

/-- The words for infinities and for no number. -/
def specialNumbers : List (Text × Double) :=
  [("inf", .infinite false), ("nan", .nan), ("-inf", .infinite true), ("+inf", .infinite false),
    ("-nan", .nan), ("+nan", .nan)]

/-- A date, a time or a number. -/
def readPlain (t : Text) : Except (Stop Fault) (Value × Text) :=
  match dateTime? t with
  | some (moment, date, rest) =>
    if date.isValid then .ok (.moment moment, rest) else stopAt t .invalidDate
  | none =>
    match time? t with
    | some (time, rest) => .ok (.moment (.time time), rest)
    | none =>
      match prefixed? t with
      | some (n, rest) => .ok (.int n, rest)
      | none =>
        match decimal? t with
        | some result => result
        | none =>
          match specialNumbers.find? fun (word, _) => word.isPrefixOf t with
          | some (word, x) => .ok (.float x, t.drop word.length)
          | none => stopAt t .invalidValue

end SpacingClasses.Toml
