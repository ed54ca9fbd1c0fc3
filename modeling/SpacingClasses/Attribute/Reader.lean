import SpacingClasses.Attribute.Reason
import SpacingClasses.Reader
import SpacingClasses.Text.Alphanumeric
import SpacingClasses.Value.Key

/-!
# Reading attribute values

The value of an attribute as it stands in markup: a quoted string, or a literal in braces.

* `Attribute.read` reads a whole attribute value, however deep it is nested;
* `Attribute.readIn` reads one with room for a number of calls only;
* `Attribute.looksLikeOne` tells by the two ends of a text whether it is meant to be one.
-/

namespace SpacingClasses.Attribute

open Reader

/-- The mark of a template literal. -/
def templateMark : Char := '\x60'

/-- Whether a character opens a string. -/
def isQuote (c : Char) : Bool := c == '"' || c == '\'' || c == templateMark

/-- What a character stands for after a backslash. -/
def escaped (c : Char) : Char :=
  if c = 'n' then '\n' else if c = 't' then '\t' else c

/-- Whether a character belongs to a number. -/
def isNumberChar (c : Char) : Bool :=
  c.isDigit || c == '.' || c == 'e' || c == 'E' || c == '+' || c == '-'

/-- Whether a character belongs to a word. -/
def isWordChar (c : Char) : Bool := Text.isAlphanumeric c || c == '_' || c == '$'

/-- Whether a number starts with this character. -/
def startsNumber (c : Char) : Bool := c == '-' || c == '.' || Text.isDigit c

/-- The characters of a string up to its closing quote. -/
def readChars (quote : Char) : Reader Reason Text
  | [] => stopAt [] .unterminated
  | '\\' :: c :: rest => cons (escaped c) (readChars quote rest)
  | c :: rest => if c = quote then .ok ([], rest) else cons c (readChars quote rest)

/-- A string after its opening quote; a template literal with an expression in it is refused. -/
def readString (quote : Char) (t : Text) : Except (Stop Reason) (Text × Text) := do
  let (read, rest) ← readChars quote t
  if quote == templateMark && Text.has "$\x7b" read then stopAt rest .dynamicTemplate
  else .ok (read, rest)

/-- A number: an integer when it has neither a point nor an exponent and is not too great for a
double. -/
def readNumber (t : Text) : Except (Stop Reason) (Value × Text) :=
  let run := t.takeWhile isNumberChar
  let rest := t.dropWhile isNumberChar
  match Numeral.whole? run with
  | none => stopAt t (.notNumber run)
  | some n =>
    let plain := !run.any fun c => c == '.' || c == 'e' || c == 'E'
    if plain && n.toDouble.isFinite then
      match Integer.read n.negative n.digits with
      | .ok i => .ok (.int i, rest)
      | .error _ => .error (.limit n.digits.length)
    else .ok (.float n.toDouble, rest)

/-- The value that a word stands for. -/
def wordValue? (word : Text) : Option Value :=
  if word = ("null" : Text) || word = ("undefined" : Text) then some .null
  else if word = ("true" : Text) then some (.bool true)
  else if word = ("false" : Text) then some (.bool false)
  else none

/-- A word that stands for a value. -/
def readWord (t : Text) : Except (Stop Reason) (Value × Text) :=
  let word := t.takeWhile isWordChar
  match wordValue? word with
  | some v => .ok (v, t.dropWhile isWordChar)
  | none => stopAt t (if word.isEmpty then .expectedValue else .notLiteral word)

/-- One wanted character after blanks; the text after it. -/
def expect (wanted : Char) (t : Text) : Except (Stop Reason) Text :=
  match Text.skipBlanks t with
  | [] => .error (.fault 0 (.expected wanted none))
  | c :: rest =>
    if c = wanted then .ok rest
    else .error (.fault (c :: rest).length (.expected wanted (some c)))

/-- The key of an entry. -/
def readKey : Reader Reason Text
  | [] => stopAt [] .expectedKey
  | c :: rest =>
    if isQuote c then readString c rest
    else if Text.isDigit c then
      .ok ((c :: rest).takeWhile Text.isAlphanumeric, (c :: rest).dropWhile Text.isAlphanumeric)
    else if isWordChar c then
      .ok ((c :: rest).takeWhile isWordChar, (c :: rest).dropWhile isWordChar)
    else stopAt (c :: rest) .expectedKey

/-- The items of a list after its bracket or a comma, read one by one with `item`. -/
def readItems (item : Reader Reason Value) : Nat → Reader Reason (List Value)
  | 0, _ => .error .exhausted
  | bound + 1, t =>
    match Text.skipBlanks t with
    | ']' :: rest => .ok ([], rest)
    | start => do
      let (v, afterItem) ← item start
      match Text.skipBlanks afterItem with
      | ',' :: next => do
        let (vs, rest) ← readItems item bound next
        .ok (v :: vs, rest)
      | _ => do
        let rest ← expect ']' afterItem
        .ok ([v], rest)

/-- The entries of a dictionary after its brace or a comma, with the values read by `item`. -/
def readEntries (item : Reader Reason Value) : Nat → Reader Reason (List (Value × Value))
  | 0, _ => .error .exhausted
  | bound + 1, t =>
    match Text.skipBlanks t with
    | '\x7d' :: rest => .ok ([], rest)
    | start => do
      let (key, afterKey) ← readKey start
      let afterColon ← expect ':' afterKey
      let (v, afterItem) ← item afterColon
      match Text.skipBlanks afterItem with
      | ',' :: next => do
        let (entries, rest) ← readEntries item bound next
        .ok ((.text key, v) :: entries, rest)
      | _ => do
        let rest ← expect '\x7d' afterItem
        .ok ([(.text key, v)], rest)

/-- A literal, nested no deeper than the bound. -/
def readLiteral : Nat → Reader Reason Value
  | 0, _ => .error .exhausted
  | bound + 1, t =>
    match Text.skipBlanks t with
    | [] => stopAt [] .expectedValue
    | c :: rest =>
      if isQuote c then do
        let (read, rest') ← readString c rest
        .ok (.text read, rest')
      else if c = '[' then do
        let (items, rest') ← readItems (readLiteral bound) (rest.length + 1) rest
        .ok (.list items, rest')
      else if c = '\x7b' then do
        let (entries, rest') ← readEntries (readLiteral bound) (rest.length + 1) rest
        .ok (Value.dictOf entries, rest')
      else if startsNumber c then readNumber (c :: rest)
      else readWord (c :: rest)

/-- An attribute value at the front of a text, with what stands in braces read by `literal`. -/
def readValueBy (literal : Reader Reason Value) (t : Text) : Except (Stop Reason) (Value × Text) :=
  match Text.skipBlanks t with
  | [] => stopAt [] .notAttribute
  | c :: rest =>
    if isQuote c then do
      let (read, rest') ← readString c rest
      .ok (.text read, rest')
    else if c = '\x7b' then do
      let (v, afterValue) ← literal rest
      let rest' ← expect '\x7d' afterValue
      .ok (v, rest')
    else stopAt (c :: rest) .notAttribute

/-- An attribute value that takes up the text, blanks at the ends aside. -/
def readWholeBy (literal : Reader Reason Value) (t : Text) : Except (Stop Reason) Value := do
  let (v, rest) ← readValueBy literal t
  match Text.skipBlanks rest with
  | [] => .ok v
  | left => .error (.fault left.length (.trailing left))

/-- A literal, nested as deep as its text allows. -/
def readAnyLiteral (t : Text) : Except (Stop Reason) (Value × Text) := readLiteral (t.length + 1) t

/-- An attribute value at the front of a text, however deep it is nested. -/
def readValue (t : Text) : Except (Stop Reason) (Value × Text) := readValueBy readAnyLiteral t

/-- An attribute value that takes up the text, however deep it is nested. -/
def readWhole (t : Text) : Except (Stop Reason) Value := readWholeBy readAnyLiteral t

/-- The failure that a stop in a text means. -/
def failure (source : Text) : Stop Reason → Failure
  | .fault remaining reason =>
    .report (.unreadableAttribute source (source.length - remaining) reason)
  | .limit digits => .digitLimit (some digits)
  | .exhausted => .tooDeep

/-- The value of an attribute, however deep it is nested. -/
def read (source : Text) : Except Failure Value :=
  (readWhole source).mapError (failure source)

/-- The number of calls that may be under way at once. -/
def callLimit : Nat := 1000

/-- How many literals may be read in one another with room for so many calls: a literal takes one, and
the list or the dictionary that it stands in another. -/
def levelsIn (calls : Nat) : Nat := calls / 2

/-- The value of an attribute, read with room for so many calls.  The calls that are under way before,
and the few that a literal without others in it takes, are not among them. -/
def readIn (calls : Nat) (source : Text) : Except Failure Value :=
  (readWholeBy (readLiteral (levelsIn calls)) source).mapError (failure source)

/-- Whether a text has the ends of an attribute value. -/
def looksLikeOne (t : Text) : Bool :=
  match Text.strip t with
  | c :: d :: rest =>
    let last := (d :: rest).getLast (List.cons_ne_nil d rest)
    (c == '\x7b' && last == '\x7d') || (isQuote c && last == c)
  | _ => false

end SpacingClasses.Attribute
