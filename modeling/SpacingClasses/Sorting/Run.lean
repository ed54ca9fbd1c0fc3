import SpacingClasses.Sorting.Search

/-!
# Runs

A run is a part of a list that is in order.  `nextRun` takes the run at the front of a list, turned
round when it descends, and lengthens it to a least length by putting the elements after it in their
places.
-/

namespace SpacingClasses.Sorting

variable {ε α : Type}

/-- How many elements a list must have to be sorted in several runs. -/
def severalRuns : Nat := 64

/-- The least length of a run in a list of `n` elements: `n` halved until it lies below
`severalRuns`, and one more if anything was lost. -/
def leastRun (n : Nat) : Nat :=
  go 0 n
where
  go (lost n : Nat) : Nat :=
    if n < severalRuns then n + lost else go (max lost (n % 2)) (n / 2)
  termination_by n
  decreasing_by unfold severalRuns at *; omega

/-- The elements that go on as a run after `last`, and the others. -/
def continueRun (before : α → α → Except ε Bool) (descending : Bool) (last : α) :
    List α → Except ε (List α × List α)
  | [] => .ok ([], [])
  | x :: rest => do
    if (← before x last) == descending then
      let (run, others) ← continueRun before descending x rest
      return (x :: run, others)
    else return ([], x :: rest)

/-- The run at the front of a list, in ascending order, and what follows it.  Only a run in which
every element comes before the one in front of it is turned round. -/
def leadingRun (before : α → α → Except ε Bool) : List α → Except ε (List α × List α)
  | x :: y :: rest => do
    let descending ← before y x
    let (run, others) ← continueRun before descending y rest
    let whole := x :: y :: run
    return (if descending then whole.reverse else whole, others)
  | l => .ok (l, [])

/-- A run with an element put in its place, after those that it does not come before. -/
def place (before : α → α → Except ε Bool) (run : List α) (x : α) : Except ε (List α) := do
  let position ← bisect false (fun y => (before x y).map (!·)) run 0 run.length
  return run.take position ++ x :: run.drop position

/-- The run at the front of a list, lengthened to the least length if it is shorter, and what
follows it. -/
def nextRun (before : α → α → Except ε Bool) (least : Nat) (l : List α) :
    Except ε (List α × List α) := do
  let (run, others) ← leadingRun before l
  let missing := least - run.length
  return (← (others.take missing).foldlM (place before) run, others.drop missing)

end SpacingClasses.Sorting
