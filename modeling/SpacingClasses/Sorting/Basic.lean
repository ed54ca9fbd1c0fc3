import SpacingClasses.Sorting.Merge
import SpacingClasses.Sorting.Run

/-!
# Sorting

A stable sort that makes use of the order a list already has: the list is taken as a row of runs,
and neighbouring runs are merged, those first whose common boundary lies deepest in the halving of
the list.

For a total order any stable sort gives this result.  Which comparisons are made shows otherwise:
the first two elements that cannot be compared are the failure, and elements without an order among
them stay where the comparisons leave them.
-/

namespace SpacingClasses.Sorting

variable {ε α : Type}

/-- A run that waits to be merged: where it starts, its elements, and the depth of the boundary
between it and the run after it. -/
structure Pending (α : Type) where
  start : Nat
  run : List α
  depth : Nat
  deriving Repr

/-- How often a list of `n` elements is halved until a cut parts the middles of two neighbouring
runs, the first of which starts at `start`. -/
def boundaryDepth (n start left right : Nat) : Nat :=
  let a := 2 * start + left
  let b := a + left + right
  ((List.range (n.log2 + 1)).find? fun k => a * Nat.pow 2 k / n != b * Nat.pow 2 k / n).getD
    (n.log2 + 1) + 1

/-- The waiting runs, the latest first, after those have been merged whose boundary lies deeper than
the one that follows the latest, `top`. -/
def settle (before : α → α → Except ε Bool) (depth : Nat) (patience : Nat) (top : Pending α) :
    List (Pending α) → Except ε (List (Pending α) × Nat)
  | [] => .ok ([{ top with depth := depth }], patience)
  | below :: others =>
    if depth < below.depth then do
      let (merged, patience) ← mergeRuns before patience below.run top.run
      settle before depth patience { below with run := merged } others
    else .ok ({ top with depth := depth } :: below :: others, patience)

/-- The waiting runs with one more. -/
def push (before : α → α → Except ε Bool) (n patience : Nat) (run : List α) :
    List (Pending α) → Except ε (List (Pending α) × Nat)
  | [] => .ok ([⟨0, run, 0⟩], patience)
  | top :: others => do
    let depth := boundaryDepth n top.start top.run.length run.length
    let (waiting, patience) ← settle before depth patience top others
    return (⟨top.start + top.run.length, run, 0⟩ :: waiting, patience)

/-- All waiting runs, the latest first, merged into one.  The third is merged with the second when
it is shorter than the latest. -/
def collapse (before : α → α → Except ε Bool) (patience : Nat) :
    List (List α) → Except ε (List α)
  | [] => .ok []
  | [run] => .ok run
  | [top, below] => (mergeRuns before patience below top).map (·.1)
  | top :: below :: third :: others =>
    if third.length < top.length then
      (mergeRuns before patience third below).bind fun (merged, patience) =>
        collapse before patience (top :: merged :: others)
    else
      (mergeRuns before patience below top).bind fun (merged, patience) =>
        collapse before patience (merged :: third :: others)
termination_by runs => runs.length

/-- The rest of a list of `n` elements sorted together with the runs that wait, in at most so many
runs. -/
def sortRuns (before : α → α → Except ε Bool) (n : Nat) :
    Nat → Nat → List (Pending α) → List α → Except ε (List α)
  | bound + 1, patience, waiting, x :: rest => do
    let (run, others) ← nextRun before (leastRun n) (x :: rest)
    let (waiting, patience) ← push before n patience run waiting
    sortRuns before n bound patience waiting others
  | _, patience, waiting, _ => collapse before patience (waiting.map (·.run))

/-- The list in order. -/
def sort (before : α → α → Except ε Bool) (l : List α) : Except ε (List α) :=
  sortRuns before l.length l.length worthwhile [] l

end SpacingClasses.Sorting
