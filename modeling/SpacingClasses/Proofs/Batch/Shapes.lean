import SpacingClasses.Proofs.Batch.Recording
import SpacingClasses.Proofs.Value.Dictionary

/-!
# The shapes of a batch

Props come as a dictionary from names to values, as a list of dictionaries with a name each, or as a
list of pairs.  The value of a prop comes as it is, or as the source text that it is read from.

* `SpacingProp.Alike x y` : the entries `x` and `y` of a list come to the same outcome;
* `Batch.ofValueRecording_congr` : a batch and its events depend on the outcomes of the props alone,
  so entries that are alike can stand for each other;
* `Batch.ofValueRecording_shapes` : **all shapes of a batch agree**, and a source text that reads
  can be replaced by its value.
-/

namespace SpacingClasses

/-! ### Entries -/

namespace SpacingProp

/-- Two entries are alike if they describe props that come to the same outcome, at any position, or
if neither describes one and the reports agree. -/
def Alike (x y : Value) : Prop :=
  ∀ position, (ofEntry position x).map Outcome.ofProp = (ofEntry position y).map Outcome.ofProp

/-- The prop that has a name and a value, and no source text. -/
def plain (row : Text × Value) : SpacingProp := ⟨row.1, row.2, none⟩

/-- The entry with a name and a value. -/
def entry (row : Text × Value) : Value := Value.record [("name", .text row.1), ("value", row.2)]

/-- The entry that is a pair of a name and a value. -/
def pair (row : Text × Value) : Value := .tuple [.text row.1, row.2]

/-- The entry with a name, a source text and a value. -/
def sourced (name raw : Text) (value : Value) : Value :=
  Value.record [("name", .text name), ("defaultValue", .text raw), ("value", value)]

variable {xs ys : List Value} {rows : List (Text × Value)} {raw : Text} {v : Value}

theorem alike_refl (x : Value) : Alike x x := fun _ => rfl

/-- The outcomes of a list of entries are those of its first entry and of the rest. -/
theorem map_ofEntries_cons (x : Value) (xs : List Value) (position : Nat) :
    (ofEntries position (x :: xs)).map (List.map Outcome.ofProp) = (do
      return (← (ofEntry position x).map Outcome.ofProp) ::
        (← (ofEntries (position + 1) xs).map (List.map Outcome.ofProp))) := by
  rw [ofEntries]
  cases ofEntry position x with
  | error f => rfl
  | ok p => cases ofEntries (position + 1) xs <;> rfl

theorem map_ofEntries_congr (h : List.Forall₂ Alike xs ys) (position : Nat) :
    (ofEntries position xs).map (List.map Outcome.ofProp) =
      (ofEntries position ys).map (List.map Outcome.ofProp) := by
  induction h generalizing position with
  | nil => rfl
  | cons hxy _ ih => rw [map_ofEntries_cons, map_ofEntries_cons, hxy position, ih]

/-- A dictionary with a name describes a prop with the source text and the value that it has. -/
theorem ofEntry_record {fields : List (Text × Value)} {name : Text} {raw : Option Text}
    (hname : fields.lookup ("name" : Text) = some (.text name))
    (hraw : fields.lookup ("defaultValue" : Text) = raw.map Value.text) (position : Nat) :
    ofEntry position (Value.record fields) =
      .ok ⟨name, (fields.lookup ("value" : Text)).getD .null, raw⟩ := by
  rw [Value.record_eq]
  simp only [ofEntry, Value.find?_named, hname, hraw]
  cases raw <;> rfl

theorem ofEntry_entry (position : Nat) (row : Text × Value) :
    ofEntry position (entry row) = .ok (plain row) :=
  ofEntry_record rfl rfl position

theorem ofEntry_pair (position : Nat) (row : Text × Value) :
    ofEntry position (pair row) = .ok (plain row) := rfl

theorem ofEntry_sourced (position : Nat) (name raw : Text) (w : Value) :
    ofEntry position (sourced name raw w) = .ok ⟨name, w, some raw⟩ :=
  ofEntry_record rfl rfl position

/-- A list of entries of one shape, one for each row, describes the props of the rows. -/
theorem ofEntries_map {shape : Text × Value → Value}
    (h : ∀ position row, ofEntry position (shape row) = .ok (plain row)) (position : Nat)
    (rows : List (Text × Value)) :
    ofEntries position (rows.map shape) = .ok (rows.map plain) := by
  induction rows generalizing position with
  | nil => rfl
  | cons row rows ih =>
    rw [List.map_cons, ofEntries, h, ok_bind, ih]
    rfl

theorem ofValue_list_map {shape : Text × Value → Value}
    (h : ∀ position row, ofEntry position (shape row) = .ok (plain row))
    (rows : List (Text × Value)) : ofValue (.list (rows.map shape)) = .ok (rows.map plain) :=
  ofEntries_map h 1 rows

theorem ofDict_named (rows : List (Text × Value)) :
    ofDict (Value.named rows) = .ok (rows.map plain) := by
  induction rows with
  | nil => rfl
  | cons row rows ih =>
    rw [Value.named_cons, ofDict, ih]
    rfl

/-- A dictionary without the key that marks a single entry holds a prop under each key. -/
theorem ofValue_record (h : ∀ row ∈ rows, row.1 ≠ "name") :
    ofValue (Value.record rows) = .ok (rows.map plain) := by
  have hname : Value.find? (Value.named rows) "name" = none := by
    rw [Value.find?_named, List.lookup_eq_none_iff]
    intro row hrow
    exact bne_iff_ne.2 (h row hrow).symm
  rw [Value.record_eq, ofValue, hname, Option.isSome_none, if_neg Bool.false_ne_true, ofDict_named]

/-- A prop with a source text that reads comes to what it comes to with the value. -/
theorem ofProp_of_read (name : Text) (w : Value) (h : Attribute.read raw = .ok v) :
    Outcome.ofProp ⟨name, w, some raw⟩ = Outcome.ofProp ⟨name, v, none⟩ := by
  simp only [Outcome.ofProp, Outcome.valueOf, h]

theorem alike_of_read (name : Text) (w : Value) (h : Attribute.read raw = .ok v) :
    Alike (sourced name raw w) (entry (name, v)) := by
  intro position
  rw [ofEntry_sourced, ofEntry_entry]
  exact congrArg Except.ok (ofProp_of_read name w h)

end SpacingProp

/-! ### Batches -/

namespace Batch

open SpacingProp (Alike entry pair sourced)

variable {skipUnknown : Bool} {ps qs : List SpacingProp} {x y : Value}

theorem ofValueRecording_of_props (h : SpacingProp.ofValue x = .ok ps) (skipUnknown : Bool)
    (store : Option Store) :
    ofValueRecording skipUnknown store x = runRecording skipUnknown store ps := by
  rw [ofValueRecording, h]

/-- A run depends on the outcomes of its props alone. -/
theorem run_congr (h : ps.map Outcome.ofProp = qs.map Outcome.ofProp) :
    run skipUnknown ps = run skipUnknown qs := by
  induction ps generalizing qs with
  | nil => rw [List.map_eq_nil_iff.1 h.symm]
  | cons p ps ih =>
    obtain ⟨q, qs, rfl, hq, hqs⟩ := List.map_eq_cons_iff.1 h.symm
    rw [run, run, hq, ih hqs.symm]

/-- **A batch and its events depend on the outcomes of the props alone.** -/
theorem ofValueRecording_congr
    (h : (SpacingProp.ofValue x).map (List.map Outcome.ofProp) =
      (SpacingProp.ofValue y).map (List.map Outcome.ofProp))
    (skipUnknown : Bool) (store : Option Store) :
    ofValueRecording skipUnknown store x = ofValueRecording skipUnknown store y := by
  have hbatch : ofValue skipUnknown x = ofValue skipUnknown y := by
    rw [ofValue, ofValue]
    cases hx : SpacingProp.ofValue x <;> cases hy : SpacingProp.ofValue y <;>
      simp only [hx, hy, Except.map, Except.ok.injEq, Except.error.injEq, reduceCtorEq] at h
    · rw [h]
    · exact run_congr h
  rw [ofValueRecording_eq, ofValueRecording_eq, hbatch]

/-- An entry can be replaced by one that is alike, wherever it stands in a list. -/
theorem ofValueRecording_replace (h : Alike x y) (front back : List Value) (skipUnknown : Bool)
    (store : Option Store) :
    ofValueRecording skipUnknown store (.list (front ++ x :: back)) =
      ofValueRecording skipUnknown store (.list (front ++ y :: back)) := by
  have hrest : ∀ xs : List Value, List.Forall₂ Alike xs xs :=
    fun xs => List.forall₂_same.2 fun z _ => SpacingProp.alike_refl z
  have hlists : List.Forall₂ Alike (front ++ x :: back) (front ++ y :: back) :=
    List.rel_append (hrest front) (.cons h (hrest back))
  have houtcomes :
      (SpacingProp.ofValue (.list (front ++ x :: back))).map (List.map Outcome.ofProp) =
        (SpacingProp.ofValue (.list (front ++ y :: back))).map (List.map Outcome.ofProp) :=
    SpacingProp.map_ofEntries_congr hlists 1
  exact ofValueRecording_congr houtcomes skipUnknown store

/-- **All shapes of a batch agree**: a dictionary from names to values, the list of its entries with
a name and a value each, and the list of its pairs give the same batch and record the same events,
or stop for the same reason.  So do two lists that differ in one entry, which has a source text in
the first and the value that this text reads as in the second. -/
theorem ofValueRecording_shapes (skipUnknown : Bool) (store : Option Store) :
    (∀ rows : List (Text × Value), (∀ row ∈ rows, row.1 ≠ "name") →
      ofValueRecording skipUnknown store (.list (rows.map entry)) =
          ofValueRecording skipUnknown store (Value.record rows) ∧
        ofValueRecording skipUnknown store (.list (rows.map pair)) =
          ofValueRecording skipUnknown store (Value.record rows)) ∧
    ∀ (front back : List Value) (name raw : Text) (v w : Value), Attribute.read raw = .ok v →
      ofValueRecording skipUnknown store (.list (front ++ sourced name raw w :: back)) =
        ofValueRecording skipUnknown store (.list (front ++ entry (name, v) :: back)) := by
  refine ⟨fun rows hrows => ?_, fun front back name raw v w hread => ?_⟩
  · rw [ofValueRecording_of_props (SpacingProp.ofValue_record hrows),
      ofValueRecording_of_props (SpacingProp.ofValue_list_map SpacingProp.ofEntry_entry rows),
      ofValueRecording_of_props (SpacingProp.ofValue_list_map SpacingProp.ofEntry_pair rows)]
    exact ⟨rfl, rfl⟩
  · exact ofValueRecording_replace (SpacingProp.alike_of_read name w hread) front back skipUnknown
      store

/-- Two rows, the second with an unknown name, which ends a strict run. -/
def strictRows : List (Text × Value) := [("mb", .text "auto"), ("color", .null)]

/-- A strict run with a new store that keeps all events. -/
def strictly (props : Value) : Batch × Option Store :=
  ofValueRecording false (some { floor := .debug }) props

theorem strictRows_shapes :
    (strictly (.list (strictRows.map entry)) = strictly (Value.record strictRows) ∧
      strictly (.list (strictRows.map pair)) = strictly (Value.record strictRows)) ∧
    strictly (.list ([pair ("p", .null)] ++ sourced "m" "'auto'" .null :: strictRows.map pair)) =
      strictly (.list ([pair ("p", .null)] ++ entry ("m", .text "auto") :: strictRows.map pair)) :=
  ⟨(ofValueRecording_shapes false _).1 strictRows (by simp [strictRows]),
    (ofValueRecording_shapes false _).2 [pair ("p", .null)] (strictRows.map pair) "m" "'auto'"
      (.text "auto") .null rfl⟩

end Batch

end SpacingClasses
