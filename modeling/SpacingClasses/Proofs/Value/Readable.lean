import SpacingClasses.Proofs.Number.Reading
import SpacingClasses.Proofs.Value.Dictionary

/-!
# Values that are read

What the readers of JSON and of attribute values make.

* `Value.Readable long raw v` : the value `v` is made of nothing, truth values, numbers, texts with
  `raw`, lists, and dictionaries under texts; an integer in it has as many digits as can be written
  only if `long` holds;
* `Value.Readable.dictOf` : entries that are gathered in a dictionary keep this.
-/

namespace SpacingClasses

/-! ### Rows that are gathered -/

namespace Value

variable {entries d : List (Text × Value)} {e : Text × Value} {key : Text} {value : Value}

/-- What is found in a dictionary stands in one of its rows. -/
theorem exists_of_find? {v : Value} (h : find? (named d) key = some v) : ∃ e ∈ d, e.2 = v := by
  obtain ⟨e, he, rfl⟩ := Option.map_eq_some_iff.1 h
  obtain ⟨row, hrow, rfl⟩ := List.mem_map.1 (List.mem_of_find?_eq_some he)
  exact ⟨row, hrow, rfl⟩

theorem mem_put (h : e ∈ Rows.put d key value) : e = (key, value) ∨ e ∈ d := by
  induction d with
  | nil => exact .inl (List.mem_singleton.1 h)
  | cons first d ih =>
    rw [Rows.put] at h
    split_ifs at h with hkey
    · rcases List.mem_cons.1 h with rfl | h
      · exact .inl (Prod.ext hkey rfl)
      · exact .inr (List.mem_cons_of_mem _ h)
    · rcases List.mem_cons.1 h with rfl | h
      · exact .inr List.mem_cons_self
      · exact (ih h).imp_right (List.mem_cons_of_mem _)

/-- What is gathered comes from the entries. -/
theorem mem_of_mem_gather (h : e ∈ gather entries) : e ∈ entries := by
  induction entries using List.reverseRecOn with
  | nil => cases h
  | append_singleton es last ih =>
    rw [gather_concat] at h
    rcases mem_put h with rfl | h
    · exact List.mem_append_right _ (List.mem_singleton_self _)
    · exact List.mem_append_left _ (ih h)

/-! ### Readable values -/

/-- Nothing, truth values, numbers, texts with `raw`, lists, and dictionaries under texts that are
all different.  An integer has as many digits as can be written only if `long` holds. -/
inductive Readable (long : Prop) (raw : Text → Prop) : Value → Prop where
  | null : Readable long raw .null
  | bool (b : Bool) : Readable long raw (.bool b)
  | int {n : Int} (h : Integer.Read long n) : Readable long raw (.int n)
  | float (x : Double) : Readable long raw (.float x)
  | text {t : Text} (h : raw t) : Readable long raw (.text t)
  | list {items : List Value} (h : ∀ v ∈ items, Readable long raw v) :
      Readable long raw (.list items)
  | dict {rows : List (Text × Value)} (hkeys : (rows.map (·.1)).Nodup)
      (hvalues : ∀ e ∈ rows, Readable long raw e.2) : Readable long raw (.dict (named rows))

variable {long long' : Prop} {raw raw' : Text → Prop} {v : Value}

theorem Readable.imp (h : Readable long raw v) (hlong : long → long')
    (hraw : ∀ t, raw t → raw' t) : Readable long' raw' v := by
  induction h with
  | null => exact .null
  | bool b => exact .bool b
  | int h => exact .int ⟨h.length_le, fun heq => hlong (h.long_of_eq heq)⟩
  | float x => exact .float x
  | text h => exact .text (hraw _ h)
  | list _ ih => exact .list ih
  | dict hkeys _ ih => exact .dict hkeys ih

theorem Readable.record {rows : List (Text × Value)} (hkeys : (rows.map (·.1)).Nodup)
    (h : ∀ e ∈ rows, Readable long raw e.2) : Readable long raw (record rows) :=
  .dict hkeys h

/-- The dictionary of entries under texts is readable if their values are. -/
theorem Readable.dictOf (h : ∀ e ∈ entries, Readable long raw e.2) :
    Readable long raw (Value.dictOf (named entries)) := by
  rw [dictOf_named, record_eq]
  exact .dict (nodup_gather entries) fun e he => h e (mem_of_mem_gather he)

end Value

end SpacingClasses
