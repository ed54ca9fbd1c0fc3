import SpacingClasses.Value.Display
import SpacingClasses.Value.Order

/-!
# Writing JSON

One writer with a `Format` for its free choices.  `Json.canonical` sorts the entries of
dictionaries and keeps every character that need not be escaped, on one line or with an indent;
`Json.inline` keeps the order, writes ASCII alone, and gives a value without a JSON form as a text.
-/

namespace SpacingClasses.Json

/-- What the writer is free to choose. -/
structure Format where
  /-- Write characters beyond printable ASCII by their code. -/
  asciiOnly : Bool
  /-- Sort the entries of dictionaries by their keys. -/
  sorted : Bool
  /-- Start a line for each item and indent it by this many places per level. -/
  indent : Option Nat
  /-- Write a value that has no JSON form as the text that displays it. -/
  displayOthers : Bool
  deriving DecidableEq, Repr

/-- One line, sorted. -/
def canonicalLine : Format := ⟨false, true, none, false⟩

/-- A line per item, sorted. -/
def canonicalLines : Format := ⟨false, true, some 2, false⟩

/-- One line as it comes, for values inside a class name. -/
def inlineFormat : Format := ⟨true, false, none, true⟩

/-- A code unit written by its code. -/
def unitEscape (n : Nat) : Text := '\\' :: 'u' :: Text.hex 4 n

/-- A character written by its code, in two parts when it has more than four hexadecimal digits. -/
def charEscape (c : Char) : Text :=
  if c.toNat < 0x10000 then unitEscape c.toNat
  else
    let n := c.toNat - 0x10000
    unitEscape (0xd800 + n / 0x400) ++ unitEscape (0xdc00 + n % 0x400)

/-- One character of a JSON string. -/
def writeChar (asciiOnly : Bool) (c : Char) : Text :=
  if c = '"' || c = '\\' then ['\\', c]
  else if c = '\n' then ['\\', 'n']
  else if c = '\r' then ['\\', 'r']
  else if c = '\t' then ['\\', 't']
  else if c = '\x08' then ['\\', 'b']
  else if c = '\x0c' then ['\\', 'f']
  else if c.toNat < 32 then unitEscape c.toNat
  else if asciiOnly && 127 ≤ c.toNat then charEscape c
  else [c]

/-- A JSON string. -/
def writeText (asciiOnly : Bool) (t : Text) : Text :=
  '"' :: (t.flatMap (writeChar asciiOnly) ++ ['"'])

/-- A JSON number for a double, and the words for those that have none. -/
def writeDouble : Double → Text
  | .nan => "NaN"
  | .infinite negative => if negative then "-Infinity" else "Infinity"
  | x => x.text

/-- The start of a line at a level. -/
def newline (f : Format) (level : Nat) : Text :=
  match f.indent with
  | none => []
  | some width => '\n' :: List.replicate (width * level) ' '

/-- Written items between brackets, at the level of the items. -/
def enclose (f : Format) (level : Nat) (opening closing : Char) (items : List Text) : Text :=
  if items.isEmpty then [opening, closing]
  else
    opening :: newline f level ++ Text.joined (',' :: newline f level) items ++
      newline f (level - 1) ++ [closing]

/-- What stands between a key and its value. -/
def colon (f : Format) : Text := if f.indent.isSome then ": " else ":"

/-- A key as a text.  The failure on one line names the kind of the key in full. -/
def keyText (f : Format) : Value → Except Failure Text
  | .text t => .ok t
  | .float x => .ok (writeDouble x)
  | .bool b => .ok (if b then "true" else "false")
  | .null => .ok "null"
  | .int n => Integer.write n
  | v => .error (.unwritableKey (if f.indent.isNone then v.fullKind else v.kind))

mutual

/-- A value as JSON, on a level of nesting. -/
def write (f : Format) (level : Nat) : Value → Except Failure Text
  | .null => .ok "null"
  | .bool b => .ok (if b then "true" else "false")
  | .int n => Integer.write n
  | .float x => .ok (writeDouble x)
  | .text t => .ok (writeText f.asciiOnly t)
  | .list items => do
    return enclose f (level + 1) '[' ']' (← writeItems f (level + 1) items)
  | .tuple items => do
    return enclose f (level + 1) '[' ']' (← writeItems f (level + 1) items)
  | .dict entries => do
    let written := writeEntries f (level + 1) entries
    let ordered ← if f.sorted then Value.sortByKey written else .ok written
    return enclose f (level + 1) '\x7b' '\x7d' (← ordered.mapM (·.2))
  | v =>
    if f.displayOthers then return writeText f.asciiOnly (← v.display)
    else .error (.unwritable v.kind)

/-- The items of a list, one by one. -/
def writeItems (f : Format) (level : Nat) : List Value → Except Failure (List Text)
  | [] => .ok []
  | v :: rest => do return (← write f level v) :: (← writeItems f level rest)

/-- What becomes of each entry of a dictionary, under its key. -/
def writeEntries (f : Format) (level : Nat) :
    List (Value × Value) → List (Value × Except Failure Text)
  | [] => []
  | (k, v) :: rest =>
    (k, do
      let key ← keyText f k
      let value ← write f level v
      return writeText f.asciiOnly key ++ colon f ++ value) :: writeEntries f level rest

end

/-- The canonical JSON of a value, on one line. -/
def canonical (v : Value) : Except Failure Text := write canonicalLine 0 v

/-- The canonical JSON of a value, a line for each item. -/
def pretty (v : Value) : Except Failure Text := write canonicalLines 0 v

/-- The JSON of a value inside a class name. -/
def inline (v : Value) : Except Failure Text := write inlineFormat 0 v

end SpacingClasses.Json
