import SpacingClasses.Proofs.Rows
import SpacingClasses.Value.Key
import Mathlib.Data.List.Induction

/-!
# Dictionaries under texts

What a dictionary keeps of entries whose keys are texts.

* `Value.Gathers entries d` : the rows `d` have the keys of `entries`, each in its first place and
  with its last value;
* `Value.dictOf_named_eq_iff` : the dictionary of a row of entries is what gathers them.
-/

namespace SpacingClasses

namespace Value

/-- Entries under texts as entries of a dictionary. -/
def named (entries : List (Text × Value)) : List (Value × Value) :=
  entries.map fun e => (.text e.1, e.2)

/-- A repeated key keeps its first place and takes the last of its values. -/
structure Gathers (entries d : List (Text × Value)) : Prop where
  keys : d.map (·.1) = (entries.map (·.1)).eraseDups
  last : ∀ key, d.lookup key = entries.reverse.lookup key

variable {entries d : List (Text × Value)} {key : Text} {value : Value}

theorem record_eq (d : List (Text × Value)) : record d = .dict (named d) := rfl

theorem named_cons (e : Text × Value) (d : List (Text × Value)) :
    named (e :: d) = (.text e.1, e.2) :: named d := rfl

theorem named_injective : Function.Injective named := by
  refine List.map_injective_iff.2 fun e e' h => ?_
  simp only [Prod.mk.injEq, text.injEq] at h
  exact Prod.ext h.1 h.2

theorem insert_named (d : List (Text × Value)) (key : Text) (value : Value) :
    insert (named d) (.text key) value = named (Rows.put d key value) := by
  induction d with
  | nil => rfl
  | cons e d ih =>
    simp only [named, List.map_cons, insert, sameKey, beq_iff_eq, Rows.put] at ih ⊢
    split_ifs
    · rfl
    · rw [ih]; rfl

/-- The value under a text is that of the first row with this text. -/
theorem find?_named (d : List (Text × Value)) (key : Text) :
    find? (named d) key = d.lookup key := by
  induction d with
  | nil => rfl
  | cons e d ih =>
    rw [Rows.lookup_cons, ← ih, named_cons, find?, List.find?_cons]
    by_cases hkey : key = e.1
    · simp [sameKey, hkey]
    · simp [sameKey, hkey, beq_eq_false_iff_ne.2 (Ne.symm hkey), find?]

/-- One more entry is gathered by setting its key. -/
theorem Gathers.put (h : Gathers entries d) (key : Text) (value : Value) :
    Gathers (entries ++ [(key, value)]) (Rows.put d key value) := by
  constructor
  · have hmem : key ∈ d.map (·.1) ↔ key ∈ entries.map (·.1) := by
      rw [h.keys, List.mem_eraseDups]
    rw [Rows.map_fst_put, List.map_append, List.map_singleton, Rows.eraseDups_concat, ← h.keys]
    simp only [hmem]
  · intro k
    rw [Rows.lookup_put, List.reverse_append, List.reverse_singleton, List.singleton_append,
      Rows.lookup_cons, h.last]

theorem gathers_nil : Gathers [] [] := ⟨rfl, fun _ => rfl⟩

/-- The rows that gather the entries. -/
def gather (entries : List (Text × Value)) : List (Text × Value) :=
  entries.foldl (fun d e => Rows.put d e.1 e.2) []

theorem gather_concat (entries : List (Text × Value)) (e : Text × Value) :
    gather (entries ++ [e]) = Rows.put (gather entries) e.1 e.2 := by
  rw [gather, List.foldl_append]
  rfl

theorem gathers_gather (entries : List (Text × Value)) : Gathers entries (gather entries) := by
  -- the entries are set from the first to the last, so the induction takes the last one off
  induction entries using List.reverseRecOn with
  | nil => exact gathers_nil
  | append_singleton es e ih =>
    rw [gather_concat]
    exact ih.put e.1 e.2

theorem nodup_gather (entries : List (Text × Value)) : ((gather entries).map (·.1)).Nodup := by
  induction entries using List.reverseRecOn with
  | nil => exact List.nodup_nil
  | append_singleton es e ih =>
    rw [gather_concat, Rows.map_fst_put]
    split_ifs with he
    · exact ih
    · rw [← List.concat_eq_append]
      exact ih.concat he

/-- Entries with distinct keys are gathered as they are. -/
theorem gather_eq_self (h : (entries.map (·.1)).Nodup) : gather entries = entries := by
  induction entries using List.reverseRecOn with
  | nil => rfl
  | append_singleton es e ih =>
    rw [List.map_append, List.map_singleton, List.nodup_append] at h
    obtain ⟨hes, -, hdisjoint⟩ := h
    have he : e.1 ∉ es.map (·.1) := fun hmem =>
      hdisjoint e.1 hmem e.1 (List.mem_singleton_self e.1) rfl
    rw [gather_concat, ih hes, Rows.put_of_not_mem he]

theorem Gathers.eq_gather (h : Gathers entries d) : gather entries = d := by
  have hg := gathers_gather entries
  refine Rows.eq_of_lookup (nodup_gather entries) (hg.keys.trans h.keys.symm) fun k => ?_
  exact (hg.last k).trans (h.last k).symm

theorem dictOf_named (entries : List (Text × Value)) :
    dictOf (named entries) = record (gather entries) := by
  rw [dictOf, record_eq]
  congr 1
  induction entries using List.reverseRecOn with
  | nil => rfl
  | append_singleton es e ih =>
    rw [gather_concat, ← insert_named, ← ih, named, List.map_append, List.foldl_append]
    rfl

/-- **The dictionary of a row of entries** is the one that gathers them. -/
theorem dictOf_named_eq_iff : dictOf (named entries) = record d ↔ Gathers entries d := by
  rw [dictOf_named, record_eq, record_eq, Value.dict.injEq]
  constructor
  · intro h
    rw [← named_injective h]
    exact gathers_gather entries
  · intro h
    rw [h.eq_gather]

end Value

end SpacingClasses
