import SpacingClasses.Proofs.Attribute.Stops
import SpacingClasses.Proofs.Batch.Recording
import SpacingClasses.Proofs.ClassToken.Readable
import SpacingClasses.Proofs.Log.File

/-!
# Batches of readable props

What becomes of a batch whose props are read from a file.

* `SpacingProp.Readable long p` : the value of the prop `p` is readable, and its source text has a long
  row of digits only if `long` holds;
* `SpacingProp.answers_ofValue` : **such props are found in a readable value**, or reported on;
* `Outcome.answers_ofProp` : what becomes of such a prop is readable;
* `Batch.readable_ofValue` : **so is a batch**, and it is stopped by a report or a number of too many
  digits alone;
* `Batch.Readable.toValue`, `Batch.Readable.exists_fileText` : its result is readable, and the text of
  its log can always be written.
-/

namespace SpacingClasses

open Attribute (Any)
open Value (Readable named)

variable {long blocked : Prop} {v : Value} {t : Text}

/-- A text with a row of as many digits as can be written only if `long` holds. -/
def Short (long : Prop) (t : Text) : Prop := t.HasRow Char.isDigit Integer.maxDigits → long

/-! ### Props -/

namespace SpacingProp

/-- The value of the prop is readable, and its source text short, as long as `long` does not hold. -/
structure Readable (long : Prop) (p : SpacingProp) : Prop where
  value : Value.Readable long (Short long) p.value
  raw : ∀ t, p.raw = some t → Short long t

theorem readable_of_find? {rows : List (Text × Value)}
    (h : ∀ e ∈ rows, Value.Readable long (Short long) e.2) {key : Text}
    (hv : Value.find? (named rows) key = some v) : Value.Readable long (Short long) v := by
  obtain ⟨row, hrow, rfl⟩ := Value.exists_of_find? hv
  exact h row hrow

theorem readable_getD {rows : List (Text × Value)}
    (h : ∀ e ∈ rows, Value.Readable long (Short long) e.2) (key : Text) :
    Value.Readable long (Short long) ((Value.find? (named rows) key).getD .null) := by
  cases hv : Value.find? (named rows) key with
  | none => exact .null
  | some v => exact readable_of_find? h hv

/-- An entry of a list is a readable prop, or is reported on. -/
theorem answers_ofEntry (hv : Value.Readable long (Short long) v) (position : Nat) :
    Answers (Readable long) long blocked (ofEntry position v) := by
  cases hv with
  | @dict rows hkeys h =>
    rw [ofEntry]
    split
    · rename_i name hname
      have hdefault := readable_getD h "defaultValue"
      dsimp only
      split
      · refine ⟨readable_getD h "value", ?_⟩
        rintro _ ⟨⟩
      · rename_i raw hraw
        refine ⟨readable_getD h "value", ?_⟩
        rintro t ⟨⟩
        rw [hraw] at hdefault
        cases hdefault with
        | text h => exact h
      · exact .report _
    · exact .report _
  | @list items h =>
    -- a list of two is a name with its value
    rw [ofEntry.eq_def]
    split <;> rename_i heq
    · cases heq
    · cases heq
    · cases heq
      refine ⟨h _ (by simp), ?_⟩
      rintro _ ⟨⟩
    · cases heq
    · exact .report _
  | _ => exact .report _

theorem answers_ofEntries {items : List Value}
    (h : ∀ v ∈ items, Value.Readable long (Short long) v) (position : Nat) :
    Answers (fun ps => ∀ p ∈ ps, Readable long p) long blocked (ofEntries position items) := by
  induction items generalizing position with
  | nil => exact nofun
  | cons v items ih =>
    rw [List.forall_mem_cons] at h
    refine (answers_ofEntry h.1 position).bind fun p hp => ?_
    exact (ih h.2 (position + 1)).bind fun ps hps => List.forall_mem_cons.2 ⟨hp, hps⟩

theorem answers_ofDict {rows : List (Text × Value)}
    (h : ∀ e ∈ rows, Value.Readable long (Short long) e.2) :
    Answers (fun ps => ∀ p ∈ ps, Readable long p) long blocked (ofDict (named rows)) := by
  induction rows with
  | nil => exact nofun
  | cons e rows ih =>
    rw [List.forall_mem_cons] at h
    exact (ih h.2).bind fun ps hps => List.forall_mem_cons.2 ⟨⟨h.1, nofun⟩, hps⟩

/-- **Readable props are found in a readable value**, or reported on. -/
theorem answers_ofValue (hv : Value.Readable long (Short long) v) :
    Answers (fun ps => ∀ p ∈ ps, Readable long p) long blocked (ofValue v) := by
  cases hv with
  | @dict rows hkeys h =>
    rw [ofValue]
    split
    · exact answers_ofEntries (List.forall_mem_singleton.2 (.dict hkeys h)) 1
    · exact answers_ofDict h
  | list h => exact answers_ofEntries h 1
  | _ => exact .report _

end SpacingProp

/-! ### Outcomes -/

namespace Outcome

/-- The value of a conversion is readable, and so is what has no tier. -/
def Readable (long : Prop) (o : Outcome) : Prop :=
  ∀ c, o.conversion? = some c →
    Value.Readable long Any c.value ∧ ∀ v ∈ c.overflow, Value.Readable long Any v

variable {p : SpacingProp}

theorem answers_valueOf (hp : p.Readable long) :
    Answers (fun x => ∀ v, x = .ok v → Value.Readable long Any v) long blocked (valueOf p) := by
  rw [valueOf]
  split
  · rintro v ⟨⟩
    exact hp.value.imp id fun _ _ => trivial
  · rename_i raw hraw
    have hread : Answers (Value.Readable long Any) long blocked (Attribute.read raw) :=
      Attribute.answers_read (hp.raw raw hraw)
    split
    · rename_i v hv
      rintro _ ⟨⟩
      exact hread.of_ok hv
    · rintro _ ⟨⟩
    · rename_i f _ hf
      rw [hf] at hread
      exact hread

/-- **What becomes of a readable prop is readable**, but for a number of too many digits. -/
theorem answers_ofProp (hp : p.Readable long) :
    Answers (Readable long) long blocked (ofProp p) := by
  rw [ofProp]
  split
  · rintro _ ⟨⟩
  · refine (answers_valueOf hp).bind fun x hx => ?_
    split
    · rintro _ ⟨⟩
    · rename_i stem _ _ v
      obtain ⟨s, hs, hreadable⟩ := Shape.exists_ofValue (hx v rfl)
      obtain ⟨vs, hvs, hoverflow⟩ := exists_overflowEntries (hx v rfl)
      rw [hs, hvs, ok_bind]
      refine Answers.bind (ClassToken.answers_ofShape hreadable) fun tokens _ => ?_
      rintro c ⟨⟩
      exact ⟨hx v rfl, hoverflow⟩

end Outcome

/-! ### Batches -/

/-- The outcomes of the batch are readable, and what has stopped it is told of or has its cause. -/
structure Batch.Readable (long blocked : Prop) (b : Batch) : Prop where
  outcomes : ∀ o ∈ b.outcomes, o.Readable long
  stopped : ∀ f, b.stopped = some f → f.Told long blocked

namespace Batch

variable {skipUnknown : Bool} {ps : List SpacingProp} {b : Batch}

theorem readable_stopped {f : Failure} (h : f.Told long blocked) :
    Readable long blocked { stopped := some f } := by
  refine ⟨nofun, ?_⟩
  rintro _ ⟨⟩
  exact h

theorem Readable.cons {o : Outcome} (hb : Readable long blocked b) (ho : o.Readable long) :
    Readable long blocked { b with outcomes := o :: b.outcomes } :=
  ⟨List.forall_mem_cons.2 ⟨ho, hb.outcomes⟩, hb.stopped⟩

/-- A run over readable props is readable. -/
theorem readable_run (h : ∀ p ∈ ps, p.Readable long) :
    Readable long blocked (run skipUnknown ps) := by
  induction ps with
  | nil => exact ⟨nofun, nofun⟩
  | cons p ps ih =>
    rw [List.forall_mem_cons] at h
    have hp : Answers (Outcome.Readable long) long blocked (Outcome.ofProp p) :=
      Outcome.answers_ofProp h.1
    rw [run]
    cases ho : Outcome.ofProp p with
    | error f =>
      rw [ho] at hp
      exact readable_stopped hp
    | ok o =>
      have hreadable := hp.of_ok ho
      cases o with
      | unknown name =>
        dsimp only
        split
        · exact (ih h.2).cons hreadable
        · exact readable_stopped (.report _)
      | converted c => exact (ih h.2).cons hreadable
      | unreadable name raw report => exact (ih h.2).cons hreadable

/-- **A batch of readable props is readable.** -/
theorem readable_ofValue (hv : Value.Readable long (Short long) v) :
    Readable long blocked (ofValue skipUnknown v) := by
  have hprops : Answers _ long blocked (SpacingProp.ofValue v) := SpacingProp.answers_ofValue hv
  rw [ofValue]
  split
  · rename_i ps hps
    exact readable_run (hprops.of_ok hps)
  · rename_i f hf
    rw [hf] at hprops
    exact readable_stopped hprops

/-! ### Results and logs -/

/-- The conversions of a readable batch are readable. -/
theorem Readable.conversion (hb : Readable long blocked b) {c : Conversion}
    (hc : c ∈ b.conversions) :
    Value.Readable long Any c.value ∧ ∀ v ∈ c.overflow, Value.Readable long Any v := by
  obtain ⟨o, ho, hconversion⟩ := List.mem_filterMap.1 hc
  exact hb.outcomes o ho c hconversion

/-- The rows of a conversion in the result. -/
def conversionRows (c : Conversion) : List (Text × Value) :=
  [("name", .text c.name), ("value", c.value), ("classes", .text c.classes)]

/-- The rows of a rejected prop in the result. -/
def rejectionRows (rejected : Text × Text) : List (Text × Value) :=
  [("name", .text rejected.1), ("reason", .text rejected.2)]

/-- The rows of the result. -/
def rows (b : Batch) : List (Text × Value) :=
  [("class_name", .text b.className),
    ("conversions", .list (b.conversions.map fun c => Value.record (conversionRows c))),
    ("rejected", .list (b.rejected.map fun r => Value.record (rejectionRows r)))]

theorem toValue_eq (b : Batch) : b.toValue = Value.record b.rows := rfl

theorem nodup_conversionRows (c : Conversion) : ((conversionRows c).map (·.1)).Nodup :=
  (by decide : (["name", "value", "classes"] : List Text).Nodup)

theorem nodup_rejectionRows (rejected : Text × Text) :
    ((rejectionRows rejected).map (·.1)).Nodup :=
  (by decide : (["name", "reason"] : List Text).Nodup)

theorem nodup_rows (b : Batch) : (b.rows.map (·.1)).Nodup :=
  (by decide : (["class_name", "conversions", "rejected"] : List Text).Nodup)

/-- **The result of a readable batch is readable.** -/
theorem Readable.toValue (hb : Readable long blocked b) : Value.Readable long Any b.toValue := by
  have htext : ∀ t, Value.Readable long Any (.text t) := fun t => .text trivial
  have hconversion : ∀ c ∈ b.conversions,
      Value.Readable long Any (Value.record (conversionRows c)) := by
    intro c hc
    refine .record (nodup_conversionRows c) ?_
    simp only [conversionRows, List.forall_mem_cons]
    exact ⟨htext _, (hb.conversion hc).1, htext _, nofun⟩
  have hrejection : ∀ r ∈ b.rejected, Value.Readable long Any (Value.record (rejectionRows r)) := by
    intro r _
    refine .record (nodup_rejectionRows r) ?_
    simp only [rejectionRows, List.forall_mem_cons]
    exact ⟨htext _, htext _, nofun⟩
  rw [toValue_eq]
  refine .record (nodup_rows b) ?_
  simp only [rows, List.forall_mem_cons]
  exact ⟨htext _, .list (List.forall_mem_map.2 hconversion),
    .list (List.forall_mem_map.2 hrejection), nofun⟩

/-- A named note of a log entry is readable if what it notes is. -/
theorem readable_note {name key : Text} {v : Value} (hkey : ("name" : Text) ≠ key)
    (hv : Value.Readable long Any v) :
    Value.Readable long Any (Value.record [("name", .text name), (key, v)]) := by
  refine .record (by simpa using hkey) ?_
  simp only [List.forall_mem_cons]
  exact ⟨.text trivial, hv, nofun⟩

/-- The fields of all log entries of a readable batch are readable. -/
theorem Readable.logEntry (hb : Readable long blocked b) {e : LogEntry} (he : e ∈ b.logEntries) :
    Value.Readable long Any e.fields := by
  obtain ⟨o, ho, he⟩ := List.mem_flatMap.1 he
  have htext : ∀ t, Value.Readable long Any (.text t) := fun t => .text trivial
  cases o with
  | converted c =>
    simp only [Outcome.entries, Outcome.conversionEntries, List.mem_append] at he
    rcases he with (he | he) | he
    · rw [List.mem_singleton.1 he]
      exact readable_note (by decide) (htext _)
    · split at he
      · cases he
      · rw [List.mem_singleton.1 he]
        exact readable_note (by decide) (.list (List.forall_mem_map.2 fun t _ => htext t))
    · split at he
      · cases he
      · rw [List.mem_singleton.1 he]
        exact readable_note (by decide) (.list (hb.outcomes _ ho c rfl).2)
  | unknown name =>
    rw [List.mem_singleton.1 he]
    exact .record (by simp) (List.forall_mem_singleton.2 (htext name))
  | unreadable name raw report =>
    rw [List.mem_singleton.1 he]
    exact readable_note (by decide) (htext raw)

/-- **The text of the log of a readable batch can always be written.** -/
theorem Readable.exists_fileText (hb : Readable long blocked b) (floor : Level) :
    ∃ t, (b.logTo { floor := floor }).fileText = .ok t := by
  rw [Store.exists_fileText_iff, logTo_eq, Store.addEntries_eq]
  intro e he v hv
  simp only [Array.empty_append, List.toList_toArray] at he
  obtain ⟨⟨entry, number⟩, hentry, rfl⟩ := List.mem_map.1 he
  obtain rfl : entry.fields = v := Option.some.inj hv
  have hmem : entry ∈ b.logEntries := List.mem_of_mem_filter (List.fst_mem_of_mem_zipIdx hentry)
  exact Json.exists_write_of_readable Json.canonicalLines (hb.logEntry hmem) 2

end Batch

end SpacingClasses
