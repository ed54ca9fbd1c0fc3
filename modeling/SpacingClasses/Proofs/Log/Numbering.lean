import SpacingClasses.Batch
import Mathlib.Data.List.Basic

/-!
# Numbered events

A store drops the entries below its floor and numbers the others in the order in which they come.

* `Store.addEntry_eq` : what one entry does to a store, be it kept or dropped;
* `Store.addEntries_eq` : a run of entries adds those that reach the floor, numbered on from the
  count of the store;
* `renumberedFrom_filter` : **a higher floor** leaves those events that reach it, numbered
  anew.
-/

namespace SpacingClasses

/-- Whether an event of this level is kept above a floor. -/
def Level.reaches (level floor : Level) : Bool := floor.rank ≤ level.rank

/-- The event that an entry becomes under a number. -/
def LogEntry.event (e : LogEntry) (number : Nat) : Event :=
  ⟨Event.idOf number, e.level, e.message, some e.fields⟩

/-- The events of entries, numbered one after the other. -/
def numberedFrom (number : Nat) (es : List LogEntry) : List Event :=
  (es.zipIdx number).map fun e => e.1.event e.2

/-- An event under another number. -/
def Event.renumber (e : Event) (number : Nat) : Event := { e with id := Event.idOf number }

/-- Events numbered anew, one after the other. -/
def renumberedFrom (number : Nat) (events : List Event) : List Event :=
  (events.zipIdx number).map fun e => e.1.renumber e.2

example : Event.idOf 1 = "log:0001" ∧ Event.idOf 10000 = "log:10000" := by decide

variable {es : List LogEntry} {floor : Level} {number : Nat}

theorem numberedFrom_cons (e : LogEntry) (es : List LogEntry) :
    numberedFrom number (e :: es) = e.event number :: numberedFrom (number + 1) es := by
  rw [numberedFrom, List.zipIdx_cons, List.map_cons]
  rfl

theorem renumberedFrom_cons (e : Event) (events : List Event) :
    renumberedFrom number (e :: events) =
      e.renumber number :: renumberedFrom (number + 1) events := by
  rw [renumberedFrom, List.zipIdx_cons, List.map_cons]
  rfl

namespace Store

/-- The store with one more entry, if it keeps it. -/
def addEntry (s : Store) (e : LogEntry) : Store :=
  (s.add e.level (.text e.message) (some e.fields)).2

/-- The store with more entries, one after the other. -/
def addEntries (s : Store) (es : List LogEntry) : Store := es.foldl addEntry s

/-- An entry that reaches the floor gets the next number; any other leaves the store as it is. -/
theorem addEntry_eq (s : Store) (e : LogEntry) :
    s.addEntry e =
      if e.level.reaches s.floor then
        { s with events := s.events.push (e.event (s.count + 1)), count := s.count + 1 }
      else s := by
  rw [addEntry, add, Level.reaches]
  by_cases hlevel : e.level.rank < s.floor.rank
  · rw [if_pos hlevel, decide_eq_false (Nat.not_le.2 hlevel)]
    rfl
  · rw [if_neg hlevel, decide_eq_true (Nat.not_lt.1 hlevel)]
    rfl

/-- **A run of entries** adds those that reach the floor, in order, and numbers them on. -/
theorem addEntries_eq (s : Store) (es : List LogEntry) :
    s.addEntries es =
      { s with
        events := s.events ++
          (numberedFrom (s.count + 1) (es.filter (·.level.reaches s.floor))).toArray
        count := s.count + (es.filter (·.level.reaches s.floor)).length } := by
  -- for every store, as an entry that is kept moves the count for the rest
  induction es generalizing s with
  | nil =>
    rw [addEntries, List.foldl_nil, List.filter_nil]
    simp [numberedFrom]
  | cons e es ih =>
    have hstep : s.addEntries (e :: es) = (s.addEntry e).addEntries es := rfl
    rw [hstep, addEntry_eq]
    split
    · rename_i hlevel
      rw [ih, List.filter_cons, if_pos hlevel, numberedFrom_cons]
      simp [Nat.add_assoc, Nat.add_comm 1]
    · rename_i hlevel
      rw [ih, List.filter_cons, if_neg hlevel]

end Store

/-- **A higher floor** leaves the events that reach it, numbered anew. -/
theorem renumberedFrom_filter (floor : Level) (es : List LogEntry) (n m : Nat) :
    renumberedFrom m ((numberedFrom n es).filter (·.level.reaches floor)) =
      numberedFrom m (es.filter (·.level.reaches floor)) := by
  induction es generalizing n m with
  | nil => rfl
  | cons e es ih =>
    have hlevel : (e.event n).level = e.level := rfl
    rw [numberedFrom_cons, List.filter_cons, List.filter_cons, hlevel]
    split
    · rw [renumberedFrom_cons, ih, numberedFrom_cons]
      rfl
    · exact ih (n + 1) m

end SpacingClasses
