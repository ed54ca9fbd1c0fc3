import SpacingClasses.Proofs.Batch.Recording

/-!
# Strict batches

A strict run ends at the first unknown name.  Up to there it is the run that skips.

* `SpacingProp.isKnown p` : a spacing property has the name of the prop;
* `Batch.Passes skipUnknown front` : a run does not end at an unknown name among the props `front`;
* `Batch.run_append_of_passes` : **a strict run past known names** goes as the run that skips;
* `Batch.ofValue_strict` : **both runs agree up to the first unknown name**, in what they convert,
  reject and record.
-/

namespace SpacingClasses

/-- Whether a spacing property has the name of the prop. -/
def SpacingProp.isKnown (p : SpacingProp) : Bool := Property.isSpacing p.name

namespace Outcome

variable {p : SpacingProp} {o : Outcome}

theorem ofProp_of_unknown (h : p.isKnown = false) : ofProp p = .ok (unknown p.name) := by
  have hstem : Property.stem? p.name = none := Option.isNone_iff_eq_none.1 (Option.isSome_eq_false_iff.1 h)
  rw [ofProp, hstem]

/-- A source text that does not read settles a prop with a known name. -/
theorem ofProp_of_unreadable {raw : Text} {report : Report} (hp : p.isKnown = true)
    (hraw : p.raw = some raw) (hread : Attribute.read raw = .error (.report report)) :
    ofProp p = .ok (unreadable p.name raw report) := by
  obtain ⟨stem, hstem⟩ := Option.isSome_iff_exists.1 hp
  have hvalue : valueOf p = .ok (.error (raw, report)) := by
    simp only [valueOf, hraw, hread]
  rw [ofProp, hstem]
  simp only [hvalue, ok_bind]
  rfl

theorem ne_unknown_of_ofProp (h : ofProp p = .ok o) (hp : p.isKnown = true) (name : Text) :
    o ≠ unknown name := by
  rintro rfl
  cases settles_of_ofProp h with
  | unknown hname => exact Bool.false_ne_true (hname.symm.trans hp)

end Outcome

namespace Batch

variable {skipUnknown : Bool} {front back ps : List SpacingProp} {p : SpacingProp} {props : Value}

/-- No prop ends the run for its unknown name. -/
def Passes (skipUnknown : Bool) (ps : List SpacingProp) : Prop :=
  skipUnknown = true ∨ ∀ p ∈ ps, p.isKnown = true

theorem passes_cons :
    Passes skipUnknown (p :: ps) ↔
      (skipUnknown = true ∨ p.isKnown = true) ∧ Passes skipUnknown ps := by
  rw [Passes, Passes, List.forall_mem_cons, or_and_left]

/-! ### The strict run -/

/-- A run that does not end at the first prop goes on as the run that skips does. -/
theorem run_cons_of_passes (hp : skipUnknown = true ∨ p.isKnown = true) (ps : List SpacingProp) :
    run skipUnknown (p :: ps) =
      match Outcome.ofProp p with
      | .error f => { stopped := some f }
      | .ok o => { run skipUnknown ps with outcomes := o :: (run skipUnknown ps).outcomes } := by
  rcases hp with rfl | hp
  · exact run_cons p ps
  · rw [run]
    cases ho : Outcome.ofProp p with
    | error f => rfl
    | ok o =>
      cases o with
      | unknown name => exact absurd rfl (Outcome.ne_unknown_of_ofProp ho hp name)
      | converted c => rfl
      | unreadable name raw report => rfl

/-- **A run over two lists** is, past the first, the run that skips over the first and, unless that
stops, a run over the second. -/
theorem run_append_of_passes (h : Passes skipUnknown front) (back : List SpacingProp) :
    run skipUnknown (front ++ back) =
      match (run true front).stopped with
      | some f => { outcomes := (run true front).outcomes, stopped := some f }
      | none =>
        { outcomes := (run true front).outcomes ++ (run skipUnknown back).outcomes
          stopped := (run skipUnknown back).stopped } := by
  -- only the first list decides whether the run gets to the second, strict or not
  induction front with
  | nil => rfl
  | cons p front ih =>
    obtain ⟨hp, hfront⟩ := passes_cons.1 h
    rw [List.cons_append, run_cons_of_passes hp, run_cons, ih hfront]
    cases Outcome.ofProp p with
    | error f => rfl
    | ok o => cases (run true front).stopped <;> rfl

/-- With known names only, a strict run is the run that skips. -/
theorem run_of_known (h : ∀ p ∈ ps, p.isKnown = true) : run false ps = run true ps := by
  have hstrict := run_append_of_passes (.inr h : Passes false ps) []
  have hskip := run_append_of_passes (.inr h : Passes true ps) []
  rw [List.append_nil] at hstrict hskip
  exact hstrict.trans hskip.symm

/-- **A strict run stops at the first unknown name**, with the outcomes of the props before. -/
theorem run_at_unknown (hrun : (run true front).stopped = none)
    (hfront : ∀ q ∈ front, q.isKnown = true) (hp : p.isKnown = false) :
    run false (front ++ p :: back) =
      { outcomes := (run true front).outcomes, stopped := some (Property.unknown p.name) } := by
  have hstop : run false (p :: back) = { stopped := some (Property.unknown p.name) } := by
    rw [run, Outcome.ofProp_of_unknown hp]
    rfl
  rw [run_append_of_passes (.inr hfront), hrun, hstop]
  simp only [List.append_nil]

/-- A source text that does not read is rejected wherever a run comes to it. -/
theorem rejected_of_unreadable {raw : Text} {report : Report}
    (hrun : (run true front).stopped = none) (hfront : Passes skipUnknown front)
    (hp : p.isKnown = true) (hraw : p.raw = some raw)
    (hread : Attribute.read raw = .error (.report report)) :
    (p.name, Outcome.firstLine report.message) ∈
      (run skipUnknown (front ++ p :: back)).rejected := by
  have hmem : Outcome.unreadable p.name raw report ∈
      (run skipUnknown (front ++ p :: back)).outcomes := by
    rw [run_append_of_passes hfront, hrun, run_cons_of_passes (.inr hp),
      Outcome.ofProp_of_unreadable hp hraw hread]
    exact List.mem_append_right _ List.mem_cons_self
  exact List.mem_filterMap.2 ⟨_, hmem, rfl⟩

/-! ### Both runs -/

/-- How the strict run and the run that skips agree on the props of a value. -/
structure StrictlyAgrees (ps : List SpacingProp) (props : Value) : Prop where
  /-- With known names only, both give the same batch and the same store. -/
  same : (∀ p ∈ ps, p.isKnown = true) →
    ∀ store, ofValueRecording false store props = ofValueRecording true store props
  /-- The first unknown name stops the strict run, and is reported; the store then holds what the
  run that skips records for the props before. -/
  stops : ∀ front p back, ps = front ++ p :: back → (∀ q ∈ front, q.isKnown = true) →
    p.isKnown = false → ∀ store,
      (ofValueRecording false store props).1.stopped =
          some (.report (.unknownProperty p.name (Text.closest? p.name Property.names))) ∧
        (ofValueRecording false store props).2 = (runRecording true store front).2
  /-- A source text that does not read is rejected by each run that comes to it. -/
  rejects : ∀ skipUnknown front p back raw report, ps = front ++ p :: back →
    Passes skipUnknown front → p.isKnown = true → p.raw = some raw →
    Attribute.read raw = .error (.report report) → ∀ store,
      (p.name, Outcome.firstLine report.message) ∈
        (ofValueRecording skipUnknown store props).1.rejected

/-- **Strict runs agree with the run that skips** up to the first unknown name, wherever the latter
is not stopped. -/
theorem ofValue_strict (hps : SpacingProp.ofValue props = .ok ps)
    (hrun : (ofValue true props).stopped = none) : StrictlyAgrees ps props := by
  have hvalue := ofValue_of_props hps
  rw [hvalue] at hrun
  refine ⟨fun hknown store => ?_, ?_, ?_⟩
  · rw [ofValueRecording_eq, ofValueRecording_eq, hvalue, hvalue, run_of_known hknown]
  · -- the run that skips gets past the props before, since it gets past all
    rintro front p back rfl hfront hp store
    have hrunFront := (stopped_append.1 hrun).1
    rw [ofValueRecording_eq, runRecording_eq, hvalue, run_at_unknown hrunFront hfront hp]
    exact ⟨rfl, rfl⟩
  · rintro skipUnknown front p back raw report rfl hfront hp hraw hread store
    have hrunFront := (stopped_append.1 hrun).1
    rw [ofValueRecording_eq, hvalue]
    exact rejected_of_unreadable hrunFront hfront hp hraw hread

theorem warnedProps_strict :
    StrictlyAgrees warnedProps
      (.list (warnedProps.map fun p => .prop p.name p.value p.raw)) :=
  ofValue_strict rfl rfl

end Batch

end SpacingClasses
