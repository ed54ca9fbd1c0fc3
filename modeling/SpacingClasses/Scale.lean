import SpacingClasses.Number.Decimal

/-!
# The spacing scale

Steps and the lengths that they stand for.  One step is a quarter of a rem, four pixels, so the
step `4` is `1rem`.  Past the step 10 the scale has gaps.

* `Scale.lengths?` maps each step to its length, and fails on a step that comes twice;
* `Scale.remIndex` and `Scale.pxIndex` lead back from the lengths in rem and in pixels.
-/

namespace SpacingClasses

/-- A step of a scale. -/
structure Step where
  name : Text
  length : Text
  deriving DecidableEq, Repr

/-- Entries of a map, in order. -/
abbrev Index (α : Type) := List (α × Text)

namespace Index

/-- The index with a key set: in its place if it is there, else at the end. -/
def set {α : Type} [DecidableEq α] (index : Index α) (key : α) (value : Text) : Index α :=
  match index with
  | [] => [(key, value)]
  | (k, v) :: rest => if k = key then (k, value) :: rest else (k, v) :: set rest key value

end Index

namespace Scale

/-- How many pixels make a rem. -/
def pxPerRem : Nat := 16

/-- The steps of the scale. -/
def steps : List Step :=
  [⟨"px", "1px"⟩, ⟨"0", "0"⟩, ⟨"0.5", "0.125rem"⟩, ⟨"1", "0.25rem"⟩, ⟨"1.5", "0.375rem"⟩,
    ⟨"2", "0.5rem"⟩, ⟨"2.5", "0.625rem"⟩, ⟨"3", "0.75rem"⟩, ⟨"3.5", "0.875rem"⟩, ⟨"4", "1rem"⟩,
    ⟨"5", "1.25rem"⟩, ⟨"6", "1.5rem"⟩, ⟨"7", "1.75rem"⟩, ⟨"8", "2rem"⟩, ⟨"9", "2.25rem"⟩,
    ⟨"10", "2.5rem"⟩, ⟨"12", "3rem"⟩, ⟨"14", "3.5rem"⟩, ⟨"16", "4rem"⟩, ⟨"20", "5rem"⟩,
    ⟨"24", "6rem"⟩, ⟨"28", "7rem"⟩, ⟨"32", "8rem"⟩, ⟨"36", "9rem"⟩, ⟨"40", "10rem"⟩,
    ⟨"44", "11rem"⟩, ⟨"48", "12rem"⟩, ⟨"52", "13rem"⟩, ⟨"56", "14rem"⟩, ⟨"60", "15rem"⟩,
    ⟨"64", "16rem"⟩, ⟨"72", "18rem"⟩, ⟨"80", "20rem"⟩, ⟨"96", "24rem"⟩]

/-- The size of a length in pixels: a whole number of pixels, in `px` or in `rem`. -/
def lengthToPx? (length : Text) : Option Nat :=
  if length = ("0" : Text) then some 0
  else
    let px := match Text.beforeEnding? "rem" length with
      | some size => (parseFloat? size).map (Double.scale pxPerRem)
      | none => (Text.beforeEnding? "px" length).bind parseFloat?
    match px.bind Double.whole? with
    | some (.ofNat n) => some n
    | _ => none

/-- Adds the lengths of further steps to a map that has some already. -/
def addLengths : Index Text → List Step → Except Failure (Index Text)
  | index, [] => .ok index
  | index, step :: rest =>
    if (index.lookup step.name).isSome then .error (.duplicateStep step.name)
    else addLengths (index ++ [(step.name, step.length)]) rest

/-- The length of each step. -/
def lengths? (steps : List Step) : Except Failure (Index Text) := addLengths [] steps

/-- The step of each length in rem; of several steps with one length, the last. -/
def remIndex (steps : List Step) : Index Text :=
  steps.foldl
    (fun index step =>
      if ("rem" : Text).isSuffixOf step.length then index.set step.length step.name else index)
    []

/-- The step of each size in pixels; of several steps with one size, the last. -/
def pxIndex (steps : List Step) : Index Nat :=
  steps.foldl
    (fun index step =>
      match lengthToPx? step.length with
      | some px => index.set px step.name
      | none => index)
    []

/-- Whether the scale has a step of this name. -/
def isStep (name : Text) : Bool := steps.any (·.name == name)

/-- The length of a step of the scale. -/
def lengthOf (name : Text) : Except Failure Text :=
  match steps.find? (·.name == name) with
  | some step => .ok step.length
  | none => .error (.report (.unknownStep name))

/-- The step of a length in rem. -/
def stepOfRem? (length : Text) : Option Text := (remIndex steps).lookup length

/-- The step of a size in pixels. -/
def stepOfPx? (px : Nat) : Option Text := (pxIndex steps).lookup px

/-- A number of rem as a length. -/
def remLength (rem : Double) : Text :=
  (match rem.whole? with
    | some n => Integer.text n
    | none => rem.text) ++ "rem"

/-- The length in rem of a size in pixels. -/
def remForPx : Number → Except Failure Text
  | .int n =>
    match Double.ofRatio (n < 0) (n.natAbs * unitsPerOne) pxPerRem with
    | .infinite _ => .error .quotientRange
    | rem => .ok (remLength rem)
  | .double px => .ok (remLength (px.divide pxPerRem))

end Scale

end SpacingClasses
