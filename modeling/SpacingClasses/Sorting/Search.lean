import SpacingClasses.Text.Basic

/-!
# Searching by a test

How far a test holds in a list, when it holds for a front part and for nothing after it.

* `bisect` finds the end of that part by halving a stretch of the list;
* `gallop` first walks from the front in growing steps, so that a short part costs few tests.

The test may have no answer, and then neither has the search.  For a test that holds in another
manner each search still ends, and the tests that it makes are the ones told here.
-/

namespace SpacingClasses.Sorting

variable {ε α : Type}

/-- Whether the element at a position passes a test; past the end there is none that does. -/
def holdsAt (test : α → Except ε Bool) (l : List α) (i : Nat) : Except ε Bool :=
  match l[i]? with
  | none => .ok false
  | some x => test x

/-- The middle of a stretch, of two middles the later one.  In a list that is read from its end this
is the earlier one. -/
def middle (backward : Bool) (length : Nat) : Nat :=
  if backward then (length - 1) / 2 else length / 2

theorem middle_lt {length : Nat} (backward : Bool) (h : 0 < length) :
    middle backward length < length := by
  unfold middle
  split <;> omega

/-- The place between two positions at which a test stops holding, found by halving. -/
def bisect (backward : Bool) (test : α → Except ε Bool) (l : List α) (low high : Nat) :
    Except ε Nat :=
  if h : low < high then
    have := middle_lt backward (show 0 < high - low by omega)
    (holdsAt test l (low + middle backward (high - low))).bind fun holds =>
      if holds then bisect backward test l (low + middle backward (high - low) + 1) high
      else bisect backward test l low (low + middle backward (high - low))
  else .ok low
termination_by high - low

/-- The last of some growing steps at which a test holds, and the first at which it does not; the
end of the list counts as such. -/
def stride (test : α → Except ε Bool) (l : List α) (passed step : Nat) : Except ε (Nat × Nat) :=
  if h : step < l.length then
    (holdsAt test l step).bind fun holds =>
      if holds then stride test l step (2 * step + 1) else .ok (passed, step)
  else .ok (passed, l.length)
termination_by l.length - step

/-- For how many elements at the front of a list a test holds. -/
def gallop (backward : Bool) (test : α → Except ε Bool) (l : List α) : Except ε Nat := do
  if ← holdsAt test l 0 then
    let (passed, failed) ← stride test l 0 1
    bisect backward test l (passed + 1) failed
  else return 0

end SpacingClasses.Sorting
