import SpacingClasses.Json.Writer
import SpacingClasses.Proofs.Outcome
import SpacingClasses.Proofs.Value.Data

/-!
# Lists and dictionaries are written item by item

What is written of a list or a dictionary comes from its items or entries, each on its own.

* `Json.writeEntry` : an entry under a text, with its key in words;
* `Json.arranged` : the entries of a dictionary as a format has them;
* `Json.write_list`, `Json.write_dict` : items and entries are written one by one;
* `Json.exists_write_list_iff`, `Json.exists_write_dict_iff` : there is a text for the whole if
  there is one for each;
* `Json.Composes R` : the texts of a list and of a dictionary are related to them, if those of their
  items and entries are;
* `Composes.exists_write` : **data is written as a text related to it in order**, for such a relation.
-/

namespace SpacingClasses

namespace Json

open Value (Data named ordered)

variable {f : Format} {level : Nat} {v : Value} {items : List Value} {rows : List (Text × Value)}
  {R : Text → Value → Prop}

/-! ### Items -/

theorem writeItems_eq_mapM (f : Format) (level : Nat) (items : List Value) :
    writeItems f level items = items.mapM (write f level) := by
  induction items with
  | nil => rfl
  | cons v items ih => rw [writeItems, ih, List.mapM_cons]

theorem write_list (f : Format) (level : Nat) (items : List Value) :
    write f level (.list items) =
      (items.mapM (write f (level + 1)) >>= fun ws => pure (enclose f (level + 1) '[' ']' ws)) := by
  rw [write, writeItems_eq_mapM]

/-- A tuple is written like a list. -/
theorem write_tuple (f : Format) (level : Nat) (items : List Value) :
    write f level (.tuple items) = write f level (.list items) := by
  rw [write, write]

/-- A list is written if each of its items is. -/
theorem exists_write_list_iff : (∃ w, write f level (.list items) = .ok w) ↔
    ∀ v ∈ items, ∃ w, write f (level + 1) v = .ok w := by
  rw [write_list, exists_map_eq_ok_iff, exists_mapM_eq_ok_iff]

/-! ### Entries -/

/-- What becomes of an entry under a text. -/
def writeEntry (f : Format) (level : Nat) (e : Text × Value) : Except Failure Text := do
  return writeText f.asciiOnly e.1 ++ colon f ++ (← write f level e.2)

/-- The entries in the order in which they are written. -/
def arranged (f : Format) (rows : List (Text × Value)) : List (Text × Value) :=
  if f.sorted then Value.sortByText rows else rows

theorem perm_arranged (f : Format) (rows : List (Text × Value)) : (arranged f rows).Perm rows := by
  rw [arranged]
  split
  · exact Value.perm_sortByText rows
  · exact .refl rows

theorem writeEntries_named (f : Format) (level : Nat) (rows : List (Text × Value)) :
    writeEntries f level (named rows) = rows.map fun e => (.text e.1, writeEntry f level e) := by
  induction rows with
  | nil => rfl
  | cons e rows ih =>
    rw [Value.named_cons, writeEntries, ih]
    rfl

/-- A dictionary under texts is written entry by entry. -/
theorem write_dict (f : Format) (level : Nat) (rows : List (Text × Value)) :
    write f level (.dict (named rows)) =
      ((arranged f rows).mapM (writeEntry f (level + 1)) >>= fun ts =>
        pure (enclose f (level + 1) '\x7b' '\x7d' ts)) := by
  rw [write, writeEntries_named, arranged]
  cases f.sorted with
  | true =>
    rw [if_pos rfl, if_pos rfl, Value.sortByKey_map, ok_bind]
    simp only [List.mapM_map, Function.comp_def]
  | false =>
    rw [if_neg Bool.false_ne_true, if_neg Bool.false_ne_true, ok_bind]
    simp only [List.mapM_map, Function.comp_def]

/-- A dictionary is written if each of its values is. -/
theorem exists_write_dict_iff : (∃ w, write f level (.dict (named rows)) = .ok w) ↔
    ∀ e ∈ rows, ∃ w, write f (level + 1) e.2 = .ok w := by
  rw [write_dict, exists_map_eq_ok_iff, exists_mapM_eq_ok_iff]
  simp only [(perm_arranged f rows).mem_iff, writeEntry, exists_map_eq_ok_iff]

/-! ### Written data -/

/-- The text of an entry: its key as a string, and a text that is related to its value. -/
def EntryOf (R : Text → Value → Prop) (f : Format) (t : Text) (e : Text × Value) : Prop :=
  ∃ w, t = writeText false e.1 ++ colon f ++ w ∧ R w e.2

/-- The relation holds of what is written of a scalar, and of a list or a dictionary if it holds of
its items or entries. -/
structure Composes (R : Text → Value → Prop) : Prop where
  null : R "null" .null
  bool (b : Bool) : R (if b then "true" else "false") (.bool b)
  int {n : Int} {w : Text} (h : Integer.write n = .ok w) : R w (.int n)
  text (t : Text) : R (writeText false t) (.text t)
  list {ws : List Text} {vs : List Value} (h : List.Forall₂ R ws vs) (f : Format) (level : Nat) :
    R (enclose f level '[' ']' ws) (.list vs)
  dict {f : Format} {ts : List Text} {rows : List (Text × Value)}
    (h : List.Forall₂ (EntryOf R f) ts rows) (hkeys : (rows.map (·.1)).Nodup) (level : Nat) :
    R (enclose f level '\x7b' '\x7d' ts) (.dict (named rows))

/-- An entry whose value is written as a related text is written as such an entry. -/
theorem exists_writeEntry {e : Text × Value} (hascii : f.asciiOnly = false)
    (h : ∃ w, write f level e.2 = .ok w ∧ R w (ordered e.2)) :
    ∃ t, writeEntry f level e = .ok t ∧ EntryOf R f t (e.1, ordered e.2) := by
  obtain ⟨w, hw, hrelated⟩ := h
  refine ⟨_, ?_, w, rfl, hrelated⟩
  rw [writeEntry, hw, hascii]
  rfl

/-- **Data is written as a text that is related to it**, with the entries of each dictionary in
order. -/
theorem Composes.exists_write (hR : Composes R) (hascii : f.asciiOnly = false)
    (hsorted : f.sorted = true) (hv : Data v) (level : Nat) :
    ∃ w, write f level v = .ok w ∧ R w (ordered v) := by
  -- for every level, as what is nested stands one level deeper
  induction hv generalizing level with
  | null => exact ⟨_, rfl, hR.null⟩
  | bool b => exact ⟨_, rfl, hR.bool b⟩
  | @int n h =>
    have hw : Integer.write n = .ok _ := if_pos h
    exact ⟨_, hw, hR.int hw⟩
  | text t =>
    refine ⟨writeText f.asciiOnly t, rfl, ?_⟩
    rw [hascii]
    exact hR.text t
  | list _ ih =>
    obtain ⟨ws, hws, hrelated⟩ := exists_mapM_forall₂_map fun v hv => ih v hv (level + 1)
    refine ⟨enclose f (level + 1) '[' ']' ws, ?_, ?_⟩
    · rw [write_list, hws]
      rfl
    · rw [ordered, Value.orderedItems_eq_map]
      exact hR.list hrelated f (level + 1)
  | @dict rows hkeys _ ih =>
    have hperm := Value.perm_sortByText rows
    obtain ⟨ts, hts, hrelated⟩ := exists_mapM_forall₂_map fun e he =>
      exists_writeEntry hascii (ih e (hperm.mem_iff.1 he) (level + 1))
    refine ⟨enclose f (level + 1) '\x7b' '\x7d' ts, ?_, ?_⟩
    · rw [write_dict, arranged, if_pos hsorted, hts]
      rfl
    · rw [Value.ordered_dict_named]
      exact hR.dict hrelated (Value.nodup_keys_ordered hkeys) (level + 1)

end Json

end SpacingClasses
