import Mathlib.Data.List.Nodup

/-!
# Rows of keys and values

Lists of pairs in which a key is looked up, and in which one is set.

* `Rows.put` : a key is set in its place if it is there, else at the end;
* `Rows.lookup_put`, `Rows.map_fst_put` : what is found and which keys there are after that;
* `Rows.eraseDups_concat` : a row without its repetitions takes one more in the same way;
* `Rows.lookup_of_mem` : of distinct keys, each leads to what stands under it;
* `Rows.eq_of_lookup` : distinct keys and what is found under them determine the rows.
-/

namespace SpacingClasses

namespace Rows

variable {κ ν : Type} [DecidableEq κ] [BEq κ] [LawfulBEq κ]

/-- The rows with a key set to a value, in its place or else at the end. -/
def put (d : List (κ × ν)) (key : κ) (value : ν) : List (κ × ν) :=
  match d with
  | [] => [(key, value)]
  | (k, v) :: rest => if k = key then (k, value) :: rest else (k, v) :: put rest key value

variable {d d' : List (κ × ν)}

theorem lookup_cons (e : κ × ν) (d : List (κ × ν)) (k : κ) :
    (e :: d).lookup k = if k = e.1 then some e.2 else d.lookup k := by
  obtain ⟨key, value⟩ := e
  rw [List.lookup_cons]
  by_cases hk : k = key
  · simp [hk]
  · simp [hk, beq_eq_false_iff_ne.2 hk]

theorem lookup_eq_none {k : κ} (hk : k ∉ d.map (·.1)) : d.lookup k = none := by
  induction d with
  | nil => rfl
  | cons e d ih =>
    rw [List.map_cons, List.mem_cons, not_or] at hk
    rw [lookup_cons, if_neg hk.1, ih hk.2]

/-- A key leads somewhere exactly if it is there. -/
theorem isSome_lookup_iff {k : κ} : (d.lookup k).isSome = true ↔ k ∈ d.map (·.1) := by
  induction d with
  | nil => simp
  | cons e d ih =>
    rw [lookup_cons, List.map_cons, List.mem_cons, ← ih]
    by_cases hk : k = e.1 <;> simp [hk]

/-- Of distinct keys, each leads to what stands under it. -/
theorem lookup_of_mem {e : κ × ν} (hkeys : (d.map (·.1)).Nodup) (he : e ∈ d) :
    d.lookup e.1 = some e.2 := by
  induction d with
  | nil => cases he
  | cons first d ih =>
    rw [List.map_cons, List.nodup_cons] at hkeys
    rw [lookup_cons]
    rcases List.mem_cons.1 he with rfl | he
    · rw [if_pos rfl]
    · have hne : e.1 ≠ first.1 := fun h => hkeys.1 (h ▸ List.mem_map_of_mem he)
      rw [if_neg hne, ih hkeys.2 he]

/-- The key that is set leads to the new value, and the others lead where they did. -/
theorem lookup_put (d : List (κ × ν)) (key : κ) (value : ν) (k : κ) :
    (put d key value).lookup k = if k = key then some value else d.lookup k := by
  induction d with
  | nil => rw [put, lookup_cons]
  | cons e d ih =>
    rw [put]
    by_cases he : e.1 = key
    · simp only [he, if_true, lookup_cons]
      split <;> rfl
    · simp only [he, if_false, lookup_cons, ih]
      by_cases hk : k = key
      · have hke : ¬ key = e.1 := fun h => he h.symm
        simp [hk, hke]
      · simp [hk]

omit [BEq κ] [LawfulBEq κ] in
/-- A key that is not there is set at the end. -/
theorem put_of_not_mem {key : κ} (hkey : key ∉ d.map (·.1)) (value : ν) :
    put d key value = d ++ [(key, value)] := by
  induction d with
  | nil => rfl
  | cons e d ih =>
    rw [List.map_cons, List.mem_cons, not_or] at hkey
    rw [put, if_neg (Ne.symm hkey.1), ih hkey.2, List.cons_append]

theorem map_fst_put (d : List (κ × ν)) (key : κ) (value : ν) :
    (put d key value).map (·.1) =
      if key ∈ d.map (·.1) then d.map (·.1) else d.map (·.1) ++ [key] := by
  induction d with
  | nil => simp [put]
  | cons e d ih =>
    rw [put]
    by_cases he : e.1 = key
    · simp [he]
    · simp only [he, if_false, List.map_cons, ih, List.mem_cons, Ne.symm he, false_or]
      split <;> rfl

omit [DecidableEq κ] in
/-- One more key is one more of the row without its repetitions if it is new. -/
theorem eraseDups_concat (ks : List κ) (k : κ) :
    (ks ++ [k]).eraseDups = if k ∈ ks then ks.eraseDups else ks.eraseDups ++ [k] := by
  rw [List.eraseDups_append]
  by_cases hk : k ∈ ks
  · simp [hk, List.removeAll]
  · simp [hk, List.removeAll, List.eraseDups_cons]

/-- Distinct keys and what stands under each of them determine the rows. -/
theorem eq_of_lookup (hnodup : (d.map (·.1)).Nodup) (hkeys : d.map (·.1) = d'.map (·.1))
    (hlookup : ∀ k, d.lookup k = d'.lookup k) : d = d' := by
  induction d generalizing d' with
  | nil => exact (List.map_eq_nil_iff.1 hkeys.symm).symm
  | cons e d ih =>
    cases d' with
    | nil => cases hkeys
    | cons e' d' =>
      simp only [List.map_cons, List.cons.injEq] at hkeys
      obtain ⟨hkey, hkeys⟩ := hkeys
      rw [List.map_cons, List.nodup_cons] at hnodup
      obtain ⟨hnot, hnodup⟩ := hnodup
      have hvalue : e.2 = e'.2 := by
        have := hlookup e.1
        rw [lookup_cons, lookup_cons, if_pos rfl, if_pos hkey] at this
        exact Option.some.inj this
      have hrest : d = d' := by
        refine ih hnodup hkeys fun k => ?_
        by_cases hk : k = e.1
        · -- the first key comes no second time in either
          have hd : k ∉ d.map (·.1) := hk ▸ hnot
          have hd' : k ∉ d'.map (·.1) := hkeys ▸ hd
          rw [lookup_eq_none hd, lookup_eq_none hd']
        · have := hlookup k
          rwa [lookup_cons, lookup_cons, if_neg hk, if_neg (hkey ▸ hk)] at this
      rw [Prod.ext hkey hvalue, hrest]

end Rows

end SpacingClasses
