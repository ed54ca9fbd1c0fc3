import SpacingClasses.Proofs.Rows
import SpacingClasses.Scale
import Mathlib.Data.List.Induction

/-!
# What the indices of the scale lead to

Both indices are filled step by step with the names of the steps, under a key that not every step
has.

* `Index.set_eq_put` : to set a key of an index is to put it into its rows;
* `Index.lookup_fill` : **a key leads to the name of the last step that has it**;
* `Scale.exists_of_stepOfRem?` : so a length in rem leads to a step of that length;
* `Scale.stepOfPx?_eq_some_iff` : a size in pixels leads to the one step of the scale of that size.
-/

namespace SpacingClasses

/-! ### Indices -/

namespace Index

variable {α : Type} [DecidableEq α]

theorem set_eq_put (index : Index α) (key : α) (name : Text) :
    index.set key name = Rows.put index key name := by
  induction index with
  | nil => rfl
  | cons entry index ih => rw [set, Rows.put, ih]

/-- The name of a step under its key, if it has one. -/
def enter (key : Step → Option α) (index : Index α) (step : Step) : Index α :=
  (key step).elim index fun k => index.set k step.name

/-- The names of steps under their keys. -/
def fill (key : Step → Option α) (steps : List Step) : Index α := steps.foldl (enter key) []

variable [BEq α] [LawfulBEq α]

/-- **A key leads to the name of the last step that has it.** -/
theorem lookup_fill (key : Step → Option α) (steps : List Step) (k : α) :
    List.lookup k (fill key steps) =
      (steps.reverse.find? fun step => key step == some k).map Step.name := by
  induction steps using List.reverseRecOn with
  | nil => rfl
  | append_singleton steps step ih =>
    rw [fill, List.foldl_append, List.foldl_cons, List.foldl_nil, ← fill, List.reverse_append,
      List.reverse_singleton, List.singleton_append, List.find?_cons, enter]
    cases hkey : key step with
    | none => simpa using ih
    | some k' =>
      rw [Option.elim_some, set_eq_put, Rows.lookup_put, ih]
      by_cases hk : k' = k
      · simp [hk]
      · have hother : (k' == k) = false := beq_eq_false_iff_ne.2 hk
        simp [hother, Ne.symm hk]

theorem exists_of_lookup_fill {key : Step → Option α} {steps : List Step} {k : α} {name : Text}
    (h : List.lookup k (fill key steps) = some name) :
    ∃ step ∈ steps, key step = some k ∧ step.name = name := by
  rw [lookup_fill, Option.map_eq_some_iff] at h
  obtain ⟨step, hstep, hname⟩ := h
  have hkey := List.find?_some hstep
  exact ⟨step, List.mem_reverse.1 (List.mem_of_find?_eq_some hstep), beq_iff_eq.1 hkey, hname⟩

/-- A key that no other step has leads to the name of its step. -/
theorem lookup_fill_of_unique {key : Step → Option α} {steps : List Step} {step : Step} {k : α}
    (hstep : step ∈ steps) (hkey : key step = some k)
    (hunique : ∀ other ∈ steps, key other = some k → other = step) :
    List.lookup k (fill key steps) = some step.name := by
  -- the last step with the key is the only one
  have hfound : (steps.reverse.find? fun step => key step == some k).isSome = true := by
    rw [List.find?_isSome]
    exact ⟨step, List.mem_reverse.2 hstep, beq_iff_eq.2 hkey⟩
  obtain ⟨other, hother⟩ := Option.isSome_iff_exists.1 hfound
  have hmem : other ∈ steps := List.mem_reverse.1 (List.mem_of_find?_eq_some hother)
  have hkey' := List.find?_some hother
  rw [lookup_fill, hother, Option.map_some, hunique other hmem (beq_iff_eq.1 hkey')]

end Index

/-! ### The indices of the scale -/

namespace Scale

variable {length name : Text} {px : Nat}

/-- The length of a step in rem. -/
def remKey (step : Step) : Option Text :=
  if ("rem" : Text).isSuffixOf step.length then some step.length else none

theorem remIndex_eq_fill (steps : List Step) : remIndex steps = Index.fill remKey steps := by
  have henter : Index.enter remKey = fun index step =>
      if ("rem" : Text).isSuffixOf step.length then Index.set index step.length step.name
      else index := by
    funext index step
    rw [Index.enter, remKey]
    split <;> rfl
  rw [remIndex, Index.fill, henter]

theorem pxIndex_eq_fill (steps : List Step) :
    pxIndex steps = Index.fill (fun step => lengthToPx? step.length) steps := by
  rw [pxIndex, Index.fill]
  congr 1
  funext index step
  rw [Index.enter]
  split
  · rename_i px hpx
    rw [hpx, Option.elim_some]
  · rename_i hpx
    rw [hpx, Option.elim_none]

theorem isStep_iff : isStep name = true ↔ name ∈ Scale.steps.map Step.name := by
  simp only [isStep, List.any_eq_true, List.mem_map, beq_iff_eq]

/-- A length in rem leads to a step of that length. -/
theorem exists_of_stepOfRem? (h : stepOfRem? length = some name) :
    ∃ step ∈ steps, step.length = length ∧ step.name = name := by
  rw [stepOfRem?, remIndex_eq_fill] at h
  obtain ⟨step, hstep, hkey, hname⟩ := Index.exists_of_lookup_fill h
  refine ⟨step, hstep, ?_, hname⟩
  rw [remKey] at hkey
  split at hkey
  · exact Option.some.inj hkey
  · cases hkey

/-- No two steps of the scale have the same size. -/
theorem nodup_sizes : (steps.map fun step => lengthToPx? step.length).Nodup := by
  decide +kernel

/-- **A size in pixels leads to the one step of the scale of that size.** -/
theorem stepOfPx?_eq_some_iff :
    stepOfPx? px = some name ↔
      ∃ step ∈ steps, lengthToPx? step.length = some px ∧ step.name = name := by
  rw [stepOfPx?, pxIndex_eq_fill]
  refine ⟨Index.exists_of_lookup_fill, ?_⟩
  rintro ⟨step, hstep, hpx, rfl⟩
  refine Index.lookup_fill_of_unique hstep hpx fun other hother hpx' => ?_
  exact List.inj_on_of_nodup_map nodup_sizes hother hstep (hpx'.trans hpx.symm)

/-- A length in rem that the scale has is that of a step. -/
theorem isStep_of_stepOfRem? (h : stepOfRem? length = some name) : isStep name = true := by
  obtain ⟨step, hstep, -, rfl⟩ := exists_of_stepOfRem? h
  exact isStep_iff.2 (List.mem_map_of_mem hstep)

/-- A size in pixels that the scale has is that of a step. -/
theorem isStep_of_stepOfPx? (h : stepOfPx? px = some name) : isStep name = true := by
  obtain ⟨step, hstep, -, rfl⟩ := stepOfPx?_eq_some_iff.1 h
  exact isStep_iff.2 (List.mem_map_of_mem hstep)

end Scale

end SpacingClasses
