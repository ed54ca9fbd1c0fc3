import SpacingClasses.Json.Reader
import SpacingClasses.Json.Writer
import SpacingClasses.Text.Lowercase

/-!
# The event log

A store of events in the order in which they are recorded.  Events below the level of the store are
dropped; the others are numbered from one.

* `Level.ofText?` and `Level.ofLabel` read a level from a text, strictly and leniently;
* `Store.create` makes a store with the floor that a value names;
* `Store.record` and `Store.note` record an event, and give the store also when they fail;
* `Store.fileText` and `readBack` write the events to a file and read them back.
-/

namespace SpacingClasses

/-- How grave an event is. -/
inductive Level where
  | debug
  | info
  | warn
  | error
  deriving DecidableEq, Repr

namespace Level

/-- The rank of a level. -/
def rank : Level → Nat
  | debug => 0
  | info => 1
  | warn => 2
  | error => 3

/-- The name of a level. -/
def name : Level → Text
  | debug => "debug"
  | info => "info"
  | warn => "warn"
  | error => "error"

/-- The level with a name; `warning` is another name of `warn`. -/
def ofName? (name : Text) : Option Level :=
  if name = ("debug" : Text) then some debug
  else if name = ("info" : Text) then some info
  else if name = ("warn" : Text) || name = ("warning" : Text) then some warn
  else if name = ("error" : Text) then some error
  else none

/-- The level that a text names, blanks at the ends and letter case aside. -/
def ofText? (t : Text) : Option Level := ofName? (Text.lower (Text.strip t))

/-- The level that a label names, or `info` if it names none. -/
def ofLabel (label : Text) : Level :=
  (ofName? (Text.strip (Text.lower label))).getD info

end Level

/-- A recorded event. -/
structure Event where
  id : Text
  level : Level
  message : Text
  fields : Option Value
  deriving Repr

namespace Event

/-- The identifier of the event with a number: four digits, or more when it needs them. -/
def idOf (number : Nat) : Text := "log:" ++ Text.padLeft 4 '0' (Text.ofNat number)

/-- The event as a dictionary. -/
def toValue (e : Event) : Value :=
  .dict <|
    [(.text "id", .text e.id), (.text "level", .text e.level.name),
        (.text "message", .text e.message)] ++
      (match e.fields with
        | none => []
        | some fields => [(.text "fields", fields)])

end Event

/-- A store of events. -/
structure Store where
  /-- The least grave level that is kept. -/
  floor : Level
  events : Array Event := #[]
  /-- The number given last. -/
  count : Nat := 0
  deriving Repr

namespace Store

/-- The text of a message; nothing has the empty text. -/
def messageText : Value → Except Failure Text
  | .null => .ok []
  | v => v.display

/-- A store without events that keeps those of the level that a value names, and graver ones. -/
def create (floor : Value) : Except Failure Store := do
  return { floor := Level.ofLabel (← floor.display) }

/-- The store without events, numbering from one again. -/
def reset (s : Store) : Store := { s with events := #[], count := 0 }

/-- Adds an event of a level, unless it lies below the floor.  The number is taken before the
message is put into words, so it is used up when the words fail. -/
def add (s : Store) (level : Level) (message : Value) (fields : Option Value) :
    Except Failure (Option Event) × Store :=
  if level.rank < s.floor.rank then (.ok none, s)
  else
    let s := { s with count := s.count + 1 }
    match messageText message with
    | .error f => (.error f, s)
    | .ok words =>
      let e : Event := ⟨Event.idOf s.count, level, words, fields⟩
      (.ok (some e), { s with events := s.events.push e })

/-- Records an event of the level that a value names. -/
def record (s : Store) (level message : Value) (fields : Option Value) :
    Except Failure (Option Event) × Store :=
  match level.display with
  | .error f => (.error f, s)
  | .ok label => s.add (Level.ofLabel label) message fields

/-- The names that no field of a note can have: the store and the message go by them. -/
def ownNames : List Text := ["self", "message"]

/-- Records an event of a level with named fields, the last of those with one name counting; without
any, the event has none. -/
def note (s : Store) (level : Level) (message : Value) (fields : List (Text × Value)) :
    Except Failure (Option Event) × Store :=
  match fields.find? fun (name, _) => ownNames.contains name with
  | some (name, _) => (.error (.nameTwice level.name name), s)
  | none =>
    s.add level message
      (if fields.isEmpty then none
        else some (Value.dictOf (fields.map fun (name, v) => (.text name, v))))

/-- The text of the file that holds the events. -/
def fileText (s : Store) : Except Failure Text := do
  return (← Json.pretty (.list (s.events.toList.map Event.toValue))) ++ ['\n']

end Store

namespace Log

/-- Where the log file lies under the root of a project. -/
def filePath : List Text := [".tailmigrate", "logs", "logs.json"]

/-- The dictionaries among the items of a list; of anything else, none. -/
def dictionaries : Value → List Value
  | .list items => items.filter fun
    | .dict _ => true
    | _ => false
  | _ => []

/-- The events in the text of a log file; a file that is no JSON holds none. -/
def readBack (t : Text) : Except Failure (List Value) :=
  match Json.read (Text.normalizeLineEnds t) with
  | .ok v => .ok (dictionaries v)
  | .error (.limit digits) => .error (.digitLimit (some digits))
  | .error _ => .ok []

end Log

end SpacingClasses
