import SpacingClasses.Proofs.Scale.Index

/-!
# What leads from steps to lengths and back

The map of the lengths and the two indices of a list of steps, whatever the steps are.  The map
takes no name twice.  An index lets a key that comes again keep its place, and leads from it to the
last step that has it.

* `Scale.LengthMap` : what the map of the lengths is, and which repeated name it fails on;
* `Index.Inverts` : which keys an index has, and what they lead to;
* `Index.inverts_fill` : an index that is filled step by step does so;
* `Scale.indices_invert` : **the map and both indices lead to and fro**.
-/

namespace SpacingClasses

/-! ### Indices -/

namespace Index

variable {α : Type} [DecidableEq α]

/-- The last of the steps that have the key. -/
def IsLast (key : Step → Option α) (steps : List Step) (k : α) (step : Step) : Prop :=
  ∃ front back, steps = front ++ step :: back ∧ key step = some k ∧
    ∀ other ∈ back, key other ≠ some k

/-- The index leads from the keys of the steps to their names. -/
structure Inverts [BEq α] (key : Step → Option α) (steps : List Step) (index : Index α) :
    Prop where
  /-- The keys are those of the steps, in the order in which they come first. -/
  keys : index.map (·.1) = (steps.filterMap key).eraseDups
  /-- A key leads to the name of the last step that has it. -/
  lookup_iff : ∀ k name, index.lookup k = some name ↔
    ∃ step, IsLast key steps k step ∧ step.name = name
  /-- If no two steps have a name in common, then no two keys lead to one. -/
  one_to_one : (steps.map Step.name).Nodup → ∀ k k' name,
    index.lookup k = some name → index.lookup k' = some name → k = k'
  /-- If no two steps have a key in common, then each key leads back to its own step. -/
  back : (steps.filterMap key).Nodup → ∀ step ∈ steps, ∀ k, key step = some k →
    index.lookup k = some step.name

variable {key : Step → Option α} {steps : List Step} {step : Step} {k : α} {name : Text}

omit [DecidableEq α] in
theorem IsLast.mem (h : IsLast key steps k step) : step ∈ steps := by
  obtain ⟨front, back, rfl, -, -⟩ := h
  exact List.mem_append_right front List.mem_cons_self

omit [DecidableEq α] in
theorem IsLast.key_eq (h : IsLast key steps k step) : key step = some k := by
  obtain ⟨front, back, -, hkey, -⟩ := h
  exact hkey

omit [DecidableEq α] in
/-- A key that comes once is that of the last step that has it. -/
theorem isLast_of_nodup (hkeys : (steps.filterMap key).Nodup) (hstep : step ∈ steps)
    (hkey : key step = some k) : IsLast key steps k step := by
  obtain ⟨front, back, rfl⟩ := List.append_of_mem hstep
  refine ⟨front, back, rfl, hkey, fun other hother hsame => ?_⟩
  rw [List.filterMap_append, List.filterMap_cons_some hkey, List.nodup_append] at hkeys
  obtain ⟨-, hkeys, -⟩ := hkeys
  exact (List.nodup_cons.1 hkeys).1 (List.mem_filterMap.2 ⟨other, hother, hsame⟩)

theorem fill_concat (key : Step → Option α) (steps : List Step) (step : Step) :
    fill key (steps ++ [step]) = enter key (fill key steps) step := by
  rw [fill, List.foldl_append]
  rfl

variable [BEq α] [LawfulBEq α]

/-- The keys of an index are those of the steps, in the order in which they come first. -/
theorem keys_fill (key : Step → Option α) (steps : List Step) :
    (fill key steps).map (·.1) = (steps.filterMap key).eraseDups := by
  induction steps using List.reverseRecOn with
  | nil => rfl
  | append_singleton steps step ih =>
    rw [fill_concat, enter, List.filterMap_append]
    cases hkey : key step with
    | none => simp [hkey, ih]
    | some k =>
      rw [Option.elim_some, set_eq_put, Rows.map_fst_put, ih,
        List.filterMap_cons_some hkey, List.filterMap_nil, Rows.eraseDups_concat]
      simp only [List.mem_eraseDups]

theorem lookup_fill_eq_some_iff :
    (fill key steps).lookup k = some name ↔
      ∃ step, IsLast key steps k step ∧ step.name = name := by
  rw [lookup_fill, Option.map_eq_some_iff]
  refine exists_congr fun step => and_congr_left fun _ => ?_
  rw [List.find?_eq_some_iff_append]
  constructor
  · rintro ⟨hkey, back, front, hsteps, hback⟩
    refine ⟨front.reverse, back.reverse, ?_, beq_iff_eq.1 hkey, fun other hother hsame => ?_⟩
    · rw [← List.reverse_reverse steps, hsteps]
      simp
    · have := hback other (List.mem_reverse.1 hother)
      simp [hsame] at this
  · rintro ⟨front, back, rfl, hkey, hback⟩
    refine ⟨beq_iff_eq.2 hkey, back.reverse, front.reverse, by simp, fun other hother => ?_⟩
    simpa using hback other (List.mem_reverse.1 hother)

/-- An index that is filled step by step leads from the keys of the steps to their names. -/
theorem inverts_fill (key : Step → Option α) (steps : List Step) :
    Inverts key steps (fill key steps) where
  keys := keys_fill key steps
  lookup_iff _ _ := lookup_fill_eq_some_iff
  one_to_one hnames k k' name h h' := by
    obtain ⟨step, hlast, hname⟩ := lookup_fill_eq_some_iff.1 h
    obtain ⟨step', hlast', hname'⟩ := lookup_fill_eq_some_iff.1 h'
    -- a name is that of one step, which has one key
    obtain rfl : step = step' :=
      List.inj_on_of_nodup_map hnames hlast.mem hlast'.mem (hname.trans hname'.symm)
    exact Option.some.inj (hlast.key_eq.symm.trans hlast'.key_eq)
  back hkeys step hstep k hkey :=
    lookup_fill_eq_some_iff.2 ⟨step, isLast_of_nodup hkeys hstep hkey, rfl⟩

end Index

/-! ### The map of the lengths -/

namespace Scale

variable {steps back : List Step} {step : Step}

/-- The first step with the name of a step before it. -/
def IsRepeat (steps : List Step) (step : Step) : Prop :=
  ∃ front back, steps = front ++ step :: back ∧ (front.map Step.name).Nodup ∧
    step.name ∈ front.map Step.name

/-- The lengths of steps under their names. -/
def lengthRows (steps : List Step) : Index Text := steps.map fun step => (step.name, step.length)

/-- The outcome is the map of the lengths of the steps. -/
structure LengthMap (steps : List Step) (outcome : Except Failure (Index Text)) : Prop where
  /-- Steps whose names are all different have their lengths, in their order. -/
  ok_iff : ∀ lengths, outcome = .ok lengths ↔
    (steps.map Step.name).Nodup ∧ lengths = lengthRows steps
  /-- Any others have none, because of the first step with the name of one before it. -/
  error_iff : ∀ failure, outcome = .error failure ↔
    ∃ step, IsRepeat steps step ∧ failure = .duplicateStep step.name
  /-- So there is none if two steps share a name, and only then. -/
  fails_iff : (∃ failure, outcome = .error failure) ↔ ¬ (steps.map Step.name).Nodup

theorem map_fst_lengthRows (steps : List Step) :
    (lengthRows steps).map (·.1) = steps.map Step.name := by
  rw [lengthRows, List.map_map]
  rfl

theorem isSome_lookup_lengthRows {name : Text} :
    ((lengthRows steps).lookup name).isSome = true ↔ name ∈ steps.map Step.name := by
  rw [Rows.isSome_lookup_iff, map_fst_lengthRows]

/-- A step whose name no other has leads to its length. -/
theorem lookup_lengthRows (hnames : (steps.map Step.name).Nodup) (hstep : step ∈ steps) :
    (lengthRows steps).lookup step.name = some step.length := by
  have hmem : (step.name, step.length) ∈ lengthRows steps := List.mem_map.2 ⟨step, hstep, rfl⟩
  have hkeys : ((lengthRows steps).map (·.1)).Nodup := by rwa [map_fst_lengthRows]
  exact Rows.lookup_of_mem hkeys hmem

/-- Steps with new names are added at the end, whatever steps follow. -/
theorem addLengths_append (front : List Step) (hnames : ((front ++ back).map Step.name).Nodup)
    (rest : List Step) :
    addLengths (lengthRows front) (back ++ rest) =
      addLengths (lengthRows (front ++ back)) rest := by
  induction back generalizing front with
  | nil => rw [List.nil_append, List.append_nil]
  | cons step back ih =>
    have hnew : step.name ∉ front.map Step.name := by
      rw [List.map_append, List.nodup_append] at hnames
      exact fun hmem => hnames.2.2 _ hmem _ List.mem_cons_self rfl
    have hrows : lengthRows front ++ [(step.name, step.length)] = lengthRows (front ++ [step]) := by
      simp [lengthRows]
    have happend : front ++ step :: back = front ++ [step] ++ back := by simp
    rw [List.cons_append, addLengths, if_neg (mt isSome_lookup_lengthRows.1 hnew), hrows, happend,
      ih _ (happend ▸ hnames)]

theorem lengths?_of_nodup (hnames : (steps.map Step.name).Nodup) :
    lengths? steps = .ok (lengthRows steps) := by
  have hadd := addLengths_append [] hnames []
  rwa [List.append_nil, addLengths] at hadd

theorem lengths?_of_isRepeat (h : IsRepeat steps step) :
    lengths? steps = .error (.duplicateStep step.name) := by
  obtain ⟨front, back, rfl, hnames, hmem⟩ := h
  have hadd := addLengths_append [] hnames (step :: back)
  rw [List.nil_append, addLengths, if_pos (isSome_lookup_lengthRows.2 hmem)] at hadd
  exact hadd

/-- If two steps share a name, one is the first with the name of a step before it. -/
theorem exists_isRepeat (h : ¬ (steps.map Step.name).Nodup) : ∃ step, IsRepeat steps step := by
  induction steps using List.reverseRecOn with
  | nil => exact absurd List.nodup_nil h
  | append_singleton steps last ih =>
    by_cases hnames : (steps.map Step.name).Nodup
    · refine ⟨last, steps, [], rfl, hnames, ?_⟩
      by_contra hnew
      rw [List.map_append, List.map_singleton, ← List.concat_eq_append] at h
      exact h (hnames.concat hnew)
    · obtain ⟨step, front, back, rfl, hfront, hmem⟩ := ih hnames
      exact ⟨step, front, back ++ [last], by simp, hfront, hmem⟩

/-- **The map of the lengths**: all of them in order, or the first repeated name. -/
theorem lengthMap (steps : List Step) : LengthMap steps (lengths? steps) := by
  by_cases hnames : (steps.map Step.name).Nodup
  · -- no name comes twice
    have hok := lengths?_of_nodup hnames
    refine ⟨fun lengths => ?_, fun failure => ?_, ?_⟩
    · rw [hok, Except.ok.injEq, and_iff_right hnames, eq_comm]
    · constructor
      · intro h
        rw [hok] at h
        cases h
      · rintro ⟨step, hstep, -⟩
        rw [lengths?_of_isRepeat hstep] at hok
        cases hok
    · simp [hok, hnames]
  · obtain ⟨step, hstep⟩ := exists_isRepeat hnames
    have herror := lengths?_of_isRepeat hstep
    refine ⟨fun lengths => ?_, fun failure => ⟨fun h => ?_, ?_⟩, ?_⟩
    · simp [herror, hnames]
    · rw [herror] at h
      exact ⟨step, hstep, (Except.error.inj h).symm⟩
    · rintro ⟨step', hstep', rfl⟩
      exact lengths?_of_isRepeat hstep'
    · simp [herror, hnames]

/-! ### To and fro -/

theorem remKey_eq_some_iff {length : Text} :
    remKey step = some length ↔ ("rem" : Text).isSuffixOf step.length = true ∧
      step.length = length := by
  rw [remKey, Option.ite_none_right_eq_some, Option.some.injEq]

/-- **The map of the lengths and the two indices lead to and fro**: if no two steps share a name,
what an index leads to has the length, or the size, that leads there. -/
theorem indices_invert (steps : List Step) :
    LengthMap steps (lengths? steps) ∧
      Index.Inverts remKey steps (remIndex steps) ∧
      Index.Inverts (fun step => lengthToPx? step.length) steps (pxIndex steps) ∧
      ((steps.map Step.name).Nodup → ∃ lengths, lengths? steps = .ok lengths ∧
        (∀ length name, (remIndex steps).lookup length = some name →
          lengths.lookup name = some length) ∧
        ∀ px name, (pxIndex steps).lookup px = some name →
          ∃ length, lengths.lookup name = some length ∧ lengthToPx? length = some px) := by
  have hrem := Index.inverts_fill remKey steps
  have hpx := Index.inverts_fill (fun step => lengthToPx? step.length) steps
  rw [← remIndex_eq_fill] at hrem
  rw [← pxIndex_eq_fill] at hpx
  refine ⟨lengthMap steps, hrem, hpx, fun hnames => ⟨_, lengths?_of_nodup hnames, ?_, ?_⟩⟩
  · intro length name hname
    obtain ⟨step, hlast, rfl⟩ := (hrem.lookup_iff length name).1 hname
    rw [lookup_lengthRows hnames hlast.mem, (remKey_eq_some_iff.1 hlast.key_eq).2]
  · intro px name hname
    obtain ⟨step, hlast, rfl⟩ := (hpx.lookup_iff px name).1 hname
    exact ⟨step.length, lookup_lengthRows hnames hlast.mem, hlast.key_eq⟩

/-- No two steps of the scale have a length in rem or a size in common, so that each of them is
found again. -/
theorem steps_found_again :
    (∀ step ∈ Scale.steps, ∀ length, remKey step = some length →
      stepOfRem? length = some step.name) ∧
    ∀ step ∈ Scale.steps, ∀ px, lengthToPx? step.length = some px →
      stepOfPx? px = some step.name :=
  ⟨(indices_invert Scale.steps).2.1.back (by decide +kernel),
    (indices_invert Scale.steps).2.2.1.back (by decide +kernel)⟩

/-- A length that comes again keeps its place and leads to the last step that has it. -/
example : remIndex [⟨"a", "1rem"⟩, ⟨"b", "2rem"⟩, ⟨"c", "1px"⟩, ⟨"d", "1rem"⟩] =
    [("1rem".toList, "d".toList), ("2rem".toList, "b".toList)] := by decide

end Scale

end SpacingClasses
