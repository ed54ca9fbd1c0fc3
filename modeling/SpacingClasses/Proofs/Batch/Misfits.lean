import SpacingClasses.Proofs.Batch.Recording

/-!
# Entries that describe no prop

A list of props is read in full before the first prop is converted, so a single entry that
describes no prop undoes the whole batch.

* `SpacingProp.IsEntry v` : the value `v` describes a prop, wherever it stands in a list;
* `SpacingProp.misfit k v` : the report on a value that describes none, at the position `k`;
* `SpacingProp.ofEntries_split` : the first such entry decides what becomes of a list;
* `Batch.ofValueRecording_misfit` : **a batch with such an entry converts nothing, records nothing
  and reports the position of the first one**, strict or not and whatever the other entries are.
-/

namespace SpacingClasses

/-! ### Entries -/

namespace SpacingProp

variable {v x : Value} {front back items : List Value} {position : Nat}

/-- The values that describe a prop: a prop itself, a dictionary that names it by a text and has
nothing, a null or a text in the place of its source text, and a pair that starts with a text. -/
inductive IsEntry : Value → Prop where
  | prop (name : Text) (value : Value) (raw : Option Text) : IsEntry (.prop name value raw)
  | dict {entries : List (Value × Value)} {name : Text}
      (hname : Value.find? entries "name" = some (.text name))
      (hraw : ∀ w, Value.find? entries "defaultValue" = some w → w = .null ∨ ∃ raw, w = .text raw) :
      IsEntry (.dict entries)
  | listPair (name : Text) (value : Value) : IsEntry (.list [.text name, value])
  | tuplePair (name : Text) (value : Value) : IsEntry (.tuple [.text name, value])

/-- Whether a value is a dictionary that names something by a text. -/
def isNamed : Value → Bool
  | .dict entries =>
    match Value.find? entries "name" with
    | some (.text _) => true
    | _ => false
  | _ => false

theorem isNamed_dict {entries : List (Value × Value)} {name : Text}
    (h : Value.find? entries "name" = some (.text name)) : isNamed (.dict entries) = true := by
  rw [isNamed, h]

theorem exists_of_isNamed (h : isNamed v = true) :
    ∃ entries name, v = .dict entries ∧ Value.find? entries "name" = some (.text name) := by
  unfold isNamed at h
  split at h
  · rename_i entries
    split at h
    · rename_i name hname
      exact ⟨entries, name, rfl, hname⟩
    · cases h
  · cases h

/-- What is wrong with a value that describes no prop. -/
def complaint (v : Value) : Text :=
  if isNamed v then " has a non-text defaultValue." else " is missing a name."

/-- The report on a value that describes no prop. -/
def misfit (position : Nat) (v : Value) : Report :=
  if isNamed v then .defaultNotText position else .namelessProp position

theorem message_misfit (position : Nat) (v : Value) :
    (misfit position v).message =
      (Report.propsGuidance ("Prop #" ++ Text.ofNat position ++ complaint v)).message := by
  unfold misfit complaint
  split <;> rfl

/-- **What an entry is read as**: a prop if it describes one, and else the report on it. -/
theorem ofEntry_cases (position : Nat) (v : Value) :
    (IsEntry v ∧ ∃ p, ofEntry position v = .ok p) ∨
      ¬ IsEntry v ∧ ofEntry position v = .error (.report (misfit position v)) := by
  unfold misfit
  fun_cases ofEntry position v with
  | case1 name value raw => exact .inl ⟨.prop name value raw, _, rfl⟩
  | case2 entries name hname value hraw =>
    refine .inl ⟨.dict hname fun w hw => .inl ?_, _, rfl⟩
    rwa [hw] at hraw
  | case3 entries name hname value raw hraw =>
    refine .inl ⟨.dict hname fun w hw => .inr ⟨raw, ?_⟩, _, rfl⟩
    rwa [hw] at hraw
  | case4 entries name hname hnull htext =>
    refine .inr ⟨fun h => ?_, by rw [isNamed_dict hname, if_pos rfl]⟩
    cases h with
    | dict _ hraw =>
      cases hfound : Value.find? entries "defaultValue" with
      | none => exact hnull (by rw [hfound]; rfl)
      | some w =>
        obtain rfl | ⟨raw, rfl⟩ := hraw w hfound
        · exact hnull (by rw [hfound]; rfl)
        · exact htext raw (by rw [hfound]; rfl)
  | case5 entries hname =>
    refine .inr ⟨fun h => ?_, ?_⟩
    · cases h with
      | dict hnamed _ => exact hname _ hnamed
    · have hnamed : ¬ isNamed (.dict entries) = true := fun h => by
        obtain ⟨_, name, heq, hfound⟩ := exists_of_isNamed h
        cases heq
        exact hname name hfound
      rw [if_neg hnamed]
  | case6 name value => exact .inl ⟨.listPair name value, _, rfl⟩
  | case7 name value => exact .inl ⟨.tuplePair name value, _, rfl⟩
  | case8 _ hprop hdict hlist htuple =>
    refine .inr ⟨fun h => ?_, ?_⟩
    · cases h with
      | prop name value raw => exact hprop name value raw rfl
      | dict _ _ => exact hdict _ rfl
      | listPair name value => exact hlist name value rfl
      | tuplePair name value => exact htuple name value rfl
    · have hnamed : ¬ isNamed v = true := fun h => by
        obtain ⟨entries, -, heq, -⟩ := exists_of_isNamed h
        exact hdict entries heq
      rw [if_neg hnamed]

theorem IsEntry.exists_ofEntry (h : IsEntry v) (position : Nat) :
    ∃ p, ofEntry position v = .ok p := by
  obtain ⟨-, hp⟩ | ⟨hnot, -⟩ := ofEntry_cases position v
  · exact hp
  · exact absurd h hnot

theorem ofEntry_of_not_isEntry (h : ¬ IsEntry v) (position : Nat) :
    ofEntry position v = .error (.report (misfit position v)) := by
  obtain ⟨hv, -⟩ | ⟨-, hreport⟩ := ofEntry_cases position v
  · exact absurd hv h
  · exact hreport

/-! ### Lists of entries -/

/-- The first entry that describes no prop decides what becomes of a list. -/
theorem ofEntries_split (hfront : ∀ y ∈ front, IsEntry y) (hx : ¬ IsEntry x) (position : Nat) :
    ofEntries position (front ++ x :: back) =
      .error (.report (misfit (position + front.length) x)) := by
  induction front generalizing position with
  | nil =>
    rw [List.nil_append, ofEntries, ofEntry_of_not_isEntry hx]
    rfl
  | cons y front ih =>
    rw [List.forall_mem_cons] at hfront
    obtain ⟨p, hp⟩ := hfront.1.exists_ofEntry position
    rw [List.cons_append, ofEntries, hp, ok_bind, ih hfront.2, List.length_cons,
      Nat.add_right_comm, ← Nat.add_assoc]
    rfl

/-- At the position, counted from one, stands the first entry that describes no prop. -/
def FirstMisfit (items : List Value) (position : Nat) (x : Value) : Prop :=
  ∃ front back, items = front ++ x :: back ∧ position = front.length + 1 ∧
    (∀ y ∈ front, IsEntry y) ∧ ¬ IsEntry x

theorem exists_firstMisfit (h : ∃ x ∈ items, ¬ IsEntry x) :
    ∃ position x, FirstMisfit items position x := by
  classical
  obtain ⟨z, hz, hmisfit⟩ := h
  have hsome : (items.find? fun y => decide (¬ IsEntry y)).isSome = true :=
    List.find?_isSome.2 ⟨z, hz, decide_eq_true hmisfit⟩
  obtain ⟨x, hx⟩ := Option.isSome_iff_exists.1 hsome
  obtain ⟨hmisfit, front, back, rfl, hfront⟩ := List.find?_eq_some_iff_append.1 hx
  refine ⟨_, x, front, back, rfl, rfl, ?_, of_decide_eq_true hmisfit⟩
  intro y hy
  simpa using hfront y hy

theorem FirstMisfit.ofEntries_eq (h : FirstMisfit items position x) :
    ofEntries 1 items = .error (.report (misfit position x)) := by
  obtain ⟨front, back, rfl, rfl, hfront, hx⟩ := h
  rw [ofEntries_split hfront hx, Nat.add_comm]

end SpacingProp

/-! ### Batches -/

namespace Batch

open SpacingProp (IsEntry FirstMisfit misfit complaint)

variable {items : List Value} {props : Value} {f : Failure}

/-- A value that holds no props stops a batch before it starts. -/
theorem ofValueRecording_of_failure (h : SpacingProp.ofValue props = .error f) (skipUnknown : Bool)
    (store : Option Store) :
    ofValueRecording skipUnknown store props = ({ stopped := some f }, store) := by
  rw [ofValueRecording, h]

/-- **A list with an entry that describes no prop** converts nothing and leaves the store as it is,
strict or not and whatever the other entries are; the report tells the position of the first such
entry and what is wrong with it. -/
theorem ofValueRecording_misfit (hprops : props = .list items ∨ props = .tuple items)
    (h : ∃ x ∈ items, ¬ IsEntry x) :
    ∃ position x, FirstMisfit items position x ∧
      (misfit position x).message =
        (Report.propsGuidance ("Prop #" ++ Text.ofNat position ++ complaint x)).message ∧
      ∀ skipUnknown store, ofValueRecording skipUnknown store props =
        ({ outcomes := [], stopped := some (.report (misfit position x)) }, store) := by
  obtain ⟨position, x, hfirst⟩ := SpacingProp.exists_firstMisfit h
  refine ⟨position, x, hfirst, SpacingProp.message_misfit position x, ?_⟩
  intro skipUnknown store
  -- both kinds of list are read entry by entry
  have hread : SpacingProp.ofValue props = .error (.report (misfit position x)) := by
    rcases hprops with rfl | rfl <;> exact hfirst.ofEntries_eq
  exact ofValueRecording_of_failure hread skipUnknown store

/-- Entries with an unknown name and with a value that has no class, before a pair without its
value and a null. -/
def oddEntries : List Value :=
  [.prop "color" .null none, .prop "m" (.list [.dict [(.bytes [0x61], .null)]]) none,
    .tuple [.text "p"], .null]

theorem oddEntries_misfit :
    (∃ x ∈ oddEntries, ¬ IsEntry x) ∧
      ∃ position x, FirstMisfit oddEntries position x ∧
        (misfit position x).message =
          (Report.propsGuidance ("Prop #" ++ Text.ofNat position ++ complaint x)).message ∧
        ∀ skipUnknown store, ofValueRecording skipUnknown store (.tuple oddEntries) =
          ({ outcomes := [], stopped := some (.report (misfit position x)) }, store) := by
  have hnull : ∃ x ∈ oddEntries, ¬ IsEntry x :=
    ⟨.null, by simp [oddEntries], fun h => by cases h⟩
  exact ⟨hnull, ofValueRecording_misfit (.inr rfl) hnull⟩

/-- The third entry is the first that describes no prop. -/
example : (ofValue true (.list oddEntries)).stopped = some (.report (.namelessProp 3)) := rfl

end Batch

end SpacingClasses
