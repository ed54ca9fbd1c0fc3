import SpacingClasses.Toml.Scalar
import SpacingClasses.Value.Key

/-!
# Reading TOML documents

A document is a row of statements: a key with a value, the header of a table, or the header of a
further table in an array.  `Document` is what the statements so far have built, together with the
names that may not be used again.  `Toml.read` reads a whole document.
-/

namespace SpacingClasses.Toml

open Reader

/-- The entries of a table. -/
abbrev Table := List (Value × Value)

/-- Whether a character may stand in a bare key. -/
def isBareKeyChar (c : Char) : Bool := c.isAlphanum || c == '-' || c == '_'

/-- One part of a dotted key. -/
def readKeyPart : Reader Fault Text
  | [] => stopAt [] .badKeyStart
  | c :: rest =>
    if isBareKeyChar c then
      .ok ((c :: rest).takeWhile isBareKeyChar, (c :: rest).dropWhile isBareKeyChar)
    else if c = '\'' || c = '"' then readLine c rest
    else stopAt (c :: rest) .badKeyStart

/-- The further parts of a dotted key, each after a dot. -/
def readKeyRest : Nat → Reader Fault Key
  | 0, _ => .error .exhausted
  | bound + 1, t =>
    match skipSpace t with
    | '.' :: rest => do
      let (part, rest) ← readKeyPart (skipSpace rest)
      let (parts, rest) ← readKeyRest bound rest
      .ok (part :: parts, rest)
    | rest => .ok ([], rest)

/-- A dotted key and the spaces after it. -/
def readKey (t : Text) : Except (Stop Fault) (Key × Text) := do
  let (part, rest) ← readKeyPart t
  let (parts, rest) ← readKeyRest (rest.length + 1) rest
  .ok (part :: parts, rest)

/-- A value that holds others. -/
def isContainer : Value → Bool
  | .dict _ => true
  | .list _ => true
  | _ => false

/-- Changes the table at the end of a path, opening new tables where there are none.  A list on
the way stands for its last item if `throughLists` says so; any other value is in the way. -/
def changeAt (throughLists : Bool) (table : Table) :
    Key → (Table → Except Fault Table) → Except Fault Table
  | [], change => change table
  | part :: path, change =>
    match Value.find? table part with
    | none => do
      let inner ← changeAt throughLists [] path change
      .ok (Value.insert table (.text part) (.dict inner))
    | some (.dict inner) => do
      let inner ← changeAt throughLists inner path change
      .ok (Value.insert table (.text part) (.dict inner))
    | some (.list items) =>
      match throughLists, items.getLast? with
      | true, some (.dict inner) => do
        let inner ← changeAt throughLists inner path change
        .ok (Value.insert table (.text part) (.list (items.dropLast ++ [.dict inner])))
      | _, _ => .error .overwritten
    | some _ => .error .overwritten

/-- A table with an entry that it may not have yet. -/
def addEntry (fault : Fault) (part : Text) (v : Value) (table : Table) : Except Fault Table :=
  if (Value.find? table part).isSome then .error fault
  else .ok (Value.insert table (.text part) v)

/-- A table with one more table in the array of a name. -/
def addToArray (part : Text) (table : Table) : Except Fault Table :=
  match Value.find? table part with
  | none => .ok (Value.insert table (.text part) (.list [.dict []]))
  | some (.list items) => .ok (Value.insert table (.text part) (.list (items ++ [.dict []])))
  | some _ => .error .overwritten

/-- Puts a fault of the contents at a place. -/
def faultAt {α : Type} (left : Text) : Except Fault α → Except (Stop Fault) α
  | .ok a => .ok a
  | .error f => stopAt left f

/-- Whether one of the frozen keys is the key or leads to it. -/
def isFrozen (frozen : List Key) (key : Key) : Bool := frozen.any (·.isPrefixOf key)

/-- Comments, spaces and line ends; the text after them. -/
def skipBetween : Nat → Text → Except (Stop Fault) Text
  | 0, _ => .error .exhausted
  | bound + 1, t =>
    match t.dropWhile isSpaceOrLine with
    | '#' :: rest => do skipBetween bound (← skipComment ('#' :: rest))
    | left => .ok left

/-- The items of an array, at the first of them or after a comma. -/
def readItems (item : Reader Fault Value) : Nat → Reader Fault (List Value)
  | 0, _ => .error .exhausted
  | bound + 1, t => do
    match ← skipBetween (t.length + 1) t with
    | ']' :: rest => .ok ([], rest)
    | start => do
      let (v, rest) ← item start
      match ← skipBetween (rest.length + 1) rest with
      | ']' :: rest => .ok ([v], rest)
      | ',' :: next => do
        let (vs, rest) ← readItems item bound next
        .ok (v :: vs, rest)
      | left => stopAt left .unclosedArray

/-- A key, an equals sign and a value. -/
def readPair (item : Reader Fault Value) (t : Text) :
    Except (Stop Fault) ((Key × Value) × Text) := do
  let (key, rest) ← readKey t
  match rest with
  | '=' :: rest => do
    let (v, rest) ← item (skipSpace rest)
    .ok ((key, v), rest)
  | left => stopAt left .expectedEquals

/-- The entries of an inline table, at the first of them or after a comma. -/
def readEntries (item : Reader Fault Value) : Nat → Table → List Key → Reader Fault Table
  | 0, _, _, _ => .error .exhausted
  | bound + 1, table, frozen, t => do
    let ((key, v), rest) ← readPair item t
    if isFrozen frozen key then stopAt rest (.immutable key)
    else do
      let part := key.getLastD []
      let table ← faultAt rest
        (changeAt false table key.dropLast (addEntry (.duplicateKey part) part v))
      match skipSpace rest with
      | '\x7d' :: rest => .ok (table, rest)
      | ',' :: next =>
        readEntries item bound table (if isContainer v then key :: frozen else frozen)
          (skipSpace next)
      | left => stopAt left .unclosedTable

/-- A value, nested no deeper than the bound. -/
def readValue : Nat → Reader Fault Value
  | 0, _ => .error .exhausted
  | bound + 1, t =>
    match t with
    | [] => readPlain []
    | c :: rest =>
      if c = '"' || c = '\'' then do
        let (read, rest) ← readString c rest
        .ok (.text read, rest)
      else if ("true" : Text).isPrefixOf t then .ok (.bool true, t.drop 4)
      else if ("false" : Text).isPrefixOf t then .ok (.bool false, t.drop 5)
      else if c = '[' then do
        let (items, rest) ← readItems (readValue bound) (rest.length + 1) rest
        .ok (.list items, rest)
      else if c = '\x7b' then
        match skipSpace rest with
        | '\x7d' :: rest => .ok (.dict [], rest)
        | start => do
          let (table, rest) ← readEntries (readValue bound) (start.length + 1) [] [] start
          .ok (.dict table, rest)
      else readPlain (c :: rest)

/-- What the statements so far have built. -/
structure Document where
  root : Table := []
  /-- Keys whose tables may not be opened by a header again. -/
  declared : List Key := []
  /-- Keys whose contents are complete. -/
  frozen : List Key := []
  /-- Keys that count as declared from the next header on. -/
  pending : List Key := []

namespace Document

/-- The document as the next header finds it. -/
def settle (d : Document) : Document :=
  { d with declared := d.pending ++ d.declared, pending := [] }

/-- Opens the table of a header. -/
def openTable (d : Document) (key : Key) : Except Fault Document :=
  if d.declared.contains key || isFrozen d.frozen key then .error (.declaredTwice key)
  else do
    let root ← changeAt true d.root key .ok
    .ok { d with root := root, declared := key :: d.declared }

/-- Adds a table to the array of a header, whose names are free again. -/
def openItem (d : Document) (key : Key) : Except Fault Document :=
  if isFrozen d.frozen key then .error (.immutable key)
  else do
    let root ← changeAt true d.root key.dropLast (addToArray (key.getLastD []))
    .ok
      { d with
        root := root
        declared := key :: d.declared.filter (!key.isPrefixOf ·)
        frozen := d.frozen.filter (!key.isPrefixOf ·) }

/-- The keys of the tables that a dotted key passes through. -/
def passed (header key : Key) : List Key :=
  (List.range (key.length - 1)).map fun i => header ++ key.take (i + 1)

/-- Sets a value under a key below a header. -/
def set (d : Document) (header key : Key) (v : Value) : Except Fault Document :=
  match (passed header key).find? d.declared.contains with
  | some again => .error (.redefined again)
  | none =>
    let parent := header ++ key.dropLast
    if isFrozen d.frozen parent then .error (.immutable parent)
    else do
      let root ← changeAt true d.root parent (addEntry .overwritten (key.getLastD []) v)
      .ok
        { d with
          root := root
          pending := passed header key ++ d.pending
          frozen := if isContainer v then (header ++ key) :: d.frozen else d.frozen }

end Document

/-- The header of a table, after its bracket. -/
def readTableHeader (d : Document) (t : Text) :
    Except (Stop Fault) ((Document × Key) × Text) := do
  let (key, rest) ← readKey (skipSpace t)
  let d ← faultAt rest (d.settle.openTable key)
  match rest with
  | ']' :: rest => .ok ((d, key), rest)
  | left => stopAt left .expectedTableEnd

/-- The header of a table in an array, after its brackets. -/
def readItemHeader (d : Document) (t : Text) :
    Except (Stop Fault) ((Document × Key) × Text) := do
  let (key, rest) ← readKey (skipSpace t)
  let d ← faultAt rest (d.settle.openItem key)
  match rest with
  | ']' :: ']' :: rest => .ok ((d, key), rest)
  | left => stopAt left .expectedArrayEnd

/-- A statement that starts here, below the last header. -/
def readStatement (d : Document) (header : Key) (t : Text) :
    Except (Stop Fault) ((Document × Key) × Text) :=
  match t with
  | '[' :: '[' :: rest => readItemHeader d rest
  | '[' :: rest => readTableHeader d rest
  | '#' :: _ => .ok ((d, header), t)
  | c :: _ =>
    if isBareKeyChar c || c = '"' || c = '\'' then do
      let ((key, v), rest) ← readPair (readValue (t.length + 1)) t
      let d ← faultAt rest (d.set header key v)
      .ok ((d, header), rest)
    else stopAt t .invalidStatement
  | [] => .ok ((d, header), [])

/-- The statements up to the end. -/
def readStatements : Nat → Document → Key → Text → Except (Stop Fault) Document
  | 0, _, _, _ => .error .exhausted
  | bound + 1, d, header, t =>
    match skipSpace t with
    | [] => .ok d
    | '\n' :: rest => readStatements bound d header rest
    | start => do
      let ((d, header), rest) ← readStatement d header start
      match ← skipComment (skipSpace rest) with
      | [] => .ok d
      | '\n' :: rest => readStatements bound d header rest
      | left => stopAt left .expectedLineEnd

/-- The entries of a document. -/
def read (document : Text) : Except (Stop Fault) Table := do
  return (← readStatements (document.length + 1) {} [] document).root

end SpacingClasses.Toml
