import SpacingClasses.Sorting.Search

/-!
# Merging runs

Two runs, each in order, become one.  The shorter run is held aside and the longer one gives way to
it, from the front or, when the right run is the shorter, from the end.  As long as both runs give
elements in turn, these are compared one by one; when one of them keeps giving, `gallop` finds how
much it gives at once.  How many elements in a row make the merge gallop is its patience, which
sinks while galloping pays and grows when it does not.

* `Merging.step` takes the next element, or a stretch of each run;
* `mergeRuns` merges a run with the one on its right.
-/

namespace SpacingClasses.Sorting

variable {ε α : Type}

/-- How a merge goes on. -/
inductive Pace where
  /-- One by one; how many times in a row the short or the long run has given. -/
  | single (shortWins longWins : Nat)
  /-- By stretches; whether the elements before came so too. -/
  | gallop (again : Bool)
  deriving DecidableEq, Repr

/-- A merge that is under way, in the direction in which it goes. -/
structure Merging (α : Type) where
  /-- What is left of the run held aside. -/
  short : List α
  /-- What is left of the other run. -/
  long : List α
  /-- The merged elements, the latest first. -/
  merged : List α
  patience : Nat
  pace : Pace
  deriving Repr

/-- How many elements a stretch must have for galloping to pay. -/
def worthwhile : Nat := 7

namespace Merging

/-- Whether nothing is left to compare: the long run is used up, or at most one element, which
comes last, is left of the short one. -/
def isOver (m : Merging α) : Bool :=
  match m.short, m.long with
  | _ :: _ :: _, _ :: _ => false
  | _, _ => true

/-- The merged run: when the merge is over, what is left of the short run comes last. -/
def result (m : Merging α) : List α := m.merged.reverse ++ m.long ++ m.short

/-- The merge after so many elements of the short run. -/
def takeShort (m : Merging α) (n : Nat) : Merging α :=
  { m with short := m.short.drop n, merged := (m.short.take n).reverse ++ m.merged }

/-- The merge after so many elements of the long run. -/
def takeLong (m : Merging α) (n : Nat) : Merging α :=
  { m with long := m.long.drop n, merged := (m.long.take n).reverse ++ m.merged }

/-- The pace after a run has given so many elements in a row, when it would else be `pace`. -/
def paceAfter (m : Merging α) (wins : Nat) (pace : Pace) : Pace :=
  if m.patience ≤ wins then .gallop false else pace

/-- One comparison of the first elements, and the element that it puts first. -/
def single (longFirst : α → α → Except ε Bool) (shortWins longWins : Nat) (m : Merging α) :
    Except ε (Merging α) :=
  match m.short, m.long with
  | s :: _, l :: _ => do
    if ← longFirst s l then
      return { m.takeLong 1 with pace := m.paceAfter (longWins + 1) (.single 0 (longWins + 1)) }
    else
      return { m.takeShort 1 with pace := m.paceAfter (shortWins + 1) (.single (shortWins + 1) 0) }
  | _, _ => .ok m

/-- The stretch of the short run that comes before the first element of the long one, and then that
element; also the length of the stretch. -/
def gallopShort (backward : Bool) (longFirst : α → α → Except ε Bool) (m : Merging α) :
    Except ε (Nat × Merging α) :=
  match m.long with
  | [] => .ok (0, m)
  | l :: _ => do
    let n ← gallop backward (fun s => (longFirst s l).map (!·)) m.short
    let taken := m.takeShort n
    return (n, if taken.isOver then taken else taken.takeLong 1)

/-- The stretch of the long run that comes before the first element of the short one, and then that
element; also the length of the stretch. -/
def gallopLong (backward : Bool) (longFirst : α → α → Except ε Bool) (m : Merging α) :
    Except ε (Nat × Merging α) :=
  match m.short with
  | [] => .ok (0, m)
  | s :: _ => do
    let n ← gallop backward (fun l => longFirst s l) m.long
    let taken := m.takeLong n
    return (n, if taken.isOver then taken else taken.takeShort 1)

/-- A stretch of each run, that of the left run first. -/
def gallopBoth (backward : Bool) (longFirst : α → α → Except ε Bool) (m : Merging α) :
    Except ε (Nat × Merging α) := do
  let left := if backward then gallopLong backward longFirst else gallopShort backward longFirst
  let right := if backward then gallopShort backward longFirst else gallopLong backward longFirst
  let (n, once) ← left m
  if once.isOver then return (n, once)
  let (n', twice) ← right once
  return (max n n', twice)

/-- The next part of a merge that is not over. -/
def step (backward : Bool) (longFirst : α → α → Except ε Bool) (m : Merging α) :
    Except ε (Merging α) :=
  match m.pace with
  | .single shortWins longWins => single longFirst shortWins longWins m
  | .gallop again => do
    let patience := if again && 1 < m.patience then m.patience - 1 else m.patience
    let (longest, next) ← gallopBoth backward longFirst { m with patience := patience }
    if next.isOver then return next
    else if worthwhile ≤ longest then return { next with pace := .gallop true }
    else return { next with patience := patience + 1, pace := .single 0 0 }

/-- A merge carried through, in at most so many steps. -/
def finish (backward : Bool) (longFirst : α → α → Except ε Bool) :
    Nat → Merging α → Except ε (Merging α)
  | 0, m => .ok m
  | bound + 1, m =>
    if m.isOver then .ok m
    else (step backward longFirst m).bind (finish backward longFirst bound)

/-- The merge of a run held aside with another one, and the patience that it leaves.  The first
element of the long run is known to come first. -/
def run (backward : Bool) (longFirst : α → α → Except ε Bool) (patience : Nat)
    (short long : List α) : Except ε (List α × Nat) := do
  let start : Merging α := ⟨short, long, [], patience, .single 0 0⟩
  let m ← finish backward longFirst (short.length + long.length) (start.takeLong 1)
  return (m.result, m.patience)

end Merging

/-- Two neighbouring runs, cut to the parts that mix, merged from the side of the shorter one. -/
def mergeParts (before : α → α → Except ε Bool) (patience : Nat) (left right : List α) :
    Except ε (List α × Nat) :=
  if left.length ≤ right.length then
    Merging.run false (fun s l => before l s) patience left right
  else do
    let (merged, patience) ←
      Merging.run true (fun s l => before s l) patience right.reverse left.reverse
    return (merged.reverse, patience)

/-- A run merged with the one on its right, and the patience that is left.  What the left run has
before the first element of the right one stays in front, and what the right one has after the last
element of the left one stays at the end. -/
def mergeRuns (before : α → α → Except ε Bool) (patience : Nat) (left right : List α) :
    Except ε (List α × Nat) :=
  match right with
  | [] => .ok (left, patience)
  | first :: _ => do
    let inFront ← gallop false (fun x => (before first x).map (!·)) left
    match (left.drop inFront).getLast? with
    | none => return (left ++ right, patience)
    | some last =>
      let behind ← gallop true (fun x => (before x last).map (!·)) right.reverse
      let mixing := right.length - behind
      if mixing = 0 then return (left ++ right, patience)
      else
        let (merged, patience) ←
          mergeParts before patience (left.drop inFront) (right.take mixing)
        return (left.take inFront ++ merged ++ right.drop mixing, patience)

end SpacingClasses.Sorting
