import SpacingClasses.ClassToken
import SpacingClasses.Proofs.Suffix.Token
import Mathlib.Data.List.Basic

/-!
# Lists across the tiers

The entries of a list stand on the tiers of their positions, and those past the last tier on none.

* `ClassToken.onTier? stem i v` : the class name that the entry `v` has at position `i`, if any;
* `tokens_of_ofTiers` : the tokens of a list are those of its entries, each on its own tier;
* `ofTiers_append` : entries past the last tier change nothing;
* `ClassToken.Tiered` : what must hold of the tokens of a list, and of the entries left over;
* `ClassToken.ofValue_tiered` : **no entry of a list is lost silently**.
-/

namespace SpacingClasses

/-! ### Marks of tiers -/

namespace Breakpoint

theorem ladderMark?_eq_none_iff {i : Nat} : ladderMark? i = none ↔ ladder.length ≤ i := by
  rw [ladderMark?, Option.map_eq_none_iff, List.getElem?_eq_none_iff]

theorem exists_ladderMark? {i : Nat} (h : i < ladder.length) :
    ∃ mark, ladderMark? i = some mark := by
  rw [← Option.isSome_iff_exists, ← Option.ne_none_iff_isSome, Ne, ladderMark?_eq_none_iff]
  exact Nat.not_le.2 h

theorem nodup_marks : (ladder.map mark).Nodup := by
  decide

/-- No two tiers have the same mark. -/
theorem ladderMark?_injective {i j : Nat} {m : Text} (hi : ladderMark? i = some m)
    (hj : ladderMark? j = some m) : i = j := by
  rw [ladderMark?, ← List.getElem?_map] at hi hj
  obtain ⟨hlt, -⟩ := List.getElem?_eq_some_iff.1 hi
  exact (List.getElem?_inj hlt nodup_marks).1 (hi.trans hj.symm)

end Breakpoint

namespace ClassToken

open Breakpoint (ladder ladderMark?)

variable {stem mark s : Text} {v : Value} {items more : List Value} {tokens : List ClassToken}
  {i position : Nat}

/-! ### Tokens by position -/

/-- The class name of an entry at a position: that of its tier, if there is one, with its suffix, if
that is not empty. -/
def onTier? (stem : Text) (i : Nat) (v : Value) : Option ClassToken :=
  match ladderMark? i, Suffix.ofValue v with
  | some mark, .ok (c :: s) => some ⟨mark, stem, c :: s⟩
  | _, _ => none

theorem onTier?_eq_none (h : ladderMark? i = none) : onTier? stem i v = none := by
  rw [onTier?, h]

theorem onTier?_null : onTier? stem i .null = none := by
  rw [onTier?]
  cases ladderMark? i <;> rfl

theorem onTier?_eq_some_iff {t : ClassToken} :
    onTier? stem i v = some t ↔
      ∃ mark s, ladderMark? i = some mark ∧ Suffix.ofValue v = .ok s ∧ s ≠ [] ∧
        t = ⟨mark, stem, s⟩ := by
  rw [onTier?]
  constructor
  · intro h
    split at h
    · rename_i mark c s hmark hs
      obtain rfl := Option.some.inj h
      exact ⟨mark, c :: s, hmark, hs, List.cons_ne_nil c s, rfl⟩
    · cases h
  · rintro ⟨mark, s, hmark, hs, hne, rfl⟩
    obtain ⟨c, s, rfl⟩ := List.exists_cons_of_ne_nil hne
    simp only [hmark, hs]

theorem ofTier_eq_ok (hmark : ladderMark? i = some mark) (h : ofTier stem mark v = .ok tokens) :
    (∃ s, Suffix.ofValue v = .ok s) ∧ tokens = (onTier? stem i v).toList := by
  obtain ⟨s, hs, h⟩ := bind_eq_ok_iff.1 h
  refine ⟨⟨s, hs⟩, ?_⟩
  cases h
  rw [onTier?, hmark, hs]
  cases s <;> rfl

theorem isNull_iff : v.isNull = true ↔ v = .null := by
  cases v <;> simp [Value.isNull]

/-- Entries past the last tier have no class name. -/
theorem filterMap_onTier?_eq_nil (h : ladder.length ≤ position) :
    ((items.zipIdx position).filterMap fun e => onTier? stem e.2 e.1) = [] := by
  rw [List.filterMap_eq_nil_iff]
  rintro ⟨v, i⟩ he
  have hi : position ≤ i := List.le_snd_of_mem_zipIdx he
  exact onTier?_eq_none (Breakpoint.ladderMark?_eq_none_iff.2 (h.trans hi))

/-- **The tokens of a list are those of its entries**, each on the tier of its position. -/
theorem tokens_of_ofTiers (h : ofTiers stem position items = .ok tokens) :
    tokens = (items.zipIdx position).filterMap fun e => onTier? stem e.2 e.1 := by
  induction items generalizing position tokens with
  | nil =>
    cases h
    rfl
  | cons v items ih =>
    rw [ofTiers] at h
    split at h
    · -- nothing keeps its place, wherever it stands
      rename_i hnull
      rw [List.zipIdx_cons, List.filterMap_cons, isNull_iff.1 hnull, onTier?_null]
      exact ih h
    · split at h
      · -- the first entry past the last tier ends the search
        rename_i hmark
        cases h
        exact (filterMap_onTier?_eq_nil (Breakpoint.ladderMark?_eq_none_iff.1 hmark)).symm
      · rename_i mark hmark
        obtain ⟨first, hfirst, h⟩ := bind_eq_ok_iff.1 h
        obtain ⟨rest, hrest, h⟩ := bind_eq_ok_iff.1 h
        cases h
        rw [(ofTier_eq_ok hmark hfirst).2, ih hrest, List.zipIdx_cons, List.filterMap_cons]
        cases onTier? stem position v <;> rfl

/-- If a list has tokens, each of its entries on a tier has a suffix. -/
theorem exists_suffix_of_ofTiers (h : ofTiers stem position items = .ok tokens)
    (hv : items[i]? = some v) (hi : position + i < ladder.length) :
    ∃ s, Suffix.ofValue v = .ok s := by
  induction items generalizing position tokens i with
  | nil => cases hv
  | cons w items ih =>
    rw [ofTiers] at h
    split at h
    · rename_i hnull
      cases i with
      | zero =>
        obtain rfl := Option.some.inj hv
        rw [isNull_iff.1 hnull]
        exact ⟨[], rfl⟩
      | succ i => exact ih h hv (by omega)
    · split at h
      · rename_i hmark
        rw [Breakpoint.ladderMark?_eq_none_iff] at hmark
        omega
      · rename_i mark hmark
        obtain ⟨first, hfirst, h⟩ := bind_eq_ok_iff.1 h
        obtain ⟨rest, hrest, h⟩ := bind_eq_ok_iff.1 h
        cases i with
        | zero =>
          obtain rfl := Option.some.inj hv
          exact (ofTier_eq_ok hmark hfirst).1
        | succ i => exact ih hrest hv (by omega)

/-- Past the last tier there are no tokens, whatever the entries are. -/
theorem ofTiers_past (h : ladder.length ≤ position) : ofTiers stem position items = .ok [] := by
  induction items generalizing position with
  | nil => rfl
  | cons v items ih =>
    rw [ofTiers, Breakpoint.ladderMark?_eq_none_iff.2 h]
    split
    · exact ih (Nat.le_succ_of_le h)
    · rfl

/-- Entries past the last tier change nothing. -/
theorem ofTiers_append (h : ladder.length ≤ position + items.length) :
    ofTiers stem position (items ++ more) = ofTiers stem position items := by
  induction items generalizing position with
  | nil => exact (ofTiers_past h).trans rfl
  | cons v items ih =>
    rw [List.length_cons] at h
    have hrest : ofTiers stem (position + 1) (items ++ more) = ofTiers stem (position + 1) items :=
      ih (by omega)
    rw [List.cons_append, ofTiers, ofTiers, hrest]

/-! ### One token on a tier -/

/-- What a list with positions holds at one of them. -/
theorem filterMap_zipIdx_at {β : Type} (f : Value → Option β) (i : Nat) :
    ((items.zipIdx position).filterMap fun e => if e.2 = position + i then f e.1 else none) =
      (items[i]?.bind f).toList := by
  induction items generalizing position i with
  | nil => rfl
  | cons v items ih =>
    rw [List.zipIdx_cons, List.filterMap_cons]
    cases i with
    | zero =>
      have hrest : ((items.zipIdx (position + 1)).filterMap fun e =>
          if e.2 = position + 0 then f e.1 else none) = [] := by
        rw [List.filterMap_eq_nil_iff]
        rintro ⟨w, j⟩ he
        have hj : position + 1 ≤ j := List.le_snd_of_mem_zipIdx he
        exact if_neg (by omega)
      rw [hrest]
      cases hf : f v <;> simp [hf]
    | succ i =>
      have hne : position ≠ position + (i + 1) := by omega
      have hrest := @ih (position + 1) i
      rw [show position + 1 + i = position + (i + 1) by omega] at hrest
      rw [if_neg hne]
      exact hrest

theorem ladderMark?_of_onTier? {t : ClassToken} (h : onTier? stem i v = some t) :
    ladderMark? i = some t.mark := by
  obtain ⟨mark, s, hmark, -, -, rfl⟩ := onTier?_eq_some_iff.1 h
  exact hmark

/-- The tokens with the mark of a tier are those at the position of the tier. -/
theorem filter_onTier? {j : Nat} (hmark : ladderMark? i = some mark) :
    ((onTier? stem j v).filter fun t => t.mark = mark) =
      if j = i then onTier? stem i v else none := by
  by_cases hj : j = i
  · rw [if_pos hj, hj]
    cases ht : onTier? stem i v with
    | none => rfl
    | some t =>
      rw [ladderMark?_of_onTier? ht] at hmark
      rw [Option.filter_some, if_pos (decide_eq_true (Option.some.inj hmark))]
  · -- the mark would be that of two tiers
    rw [if_neg hj, Option.filter_eq_none_iff]
    intro t ht ht'
    have hmark' := ladderMark?_of_onTier? ht
    rw [of_decide_eq_true ht'] at hmark'
    exact hj (Breakpoint.ladderMark?_injective hmark' hmark)

/-- An entry with a token has the only one on its tier. -/
theorem filter_mark_eq {t : ClassToken} (hv : items[i]? = some v) (ht : onTier? stem i v = some t) :
    (items.zipIdx.filterMap fun e => onTier? stem e.2 e.1).filter (·.mark = t.mark) = [t] := by
  have honly : ∀ e : Value × Nat, ((onTier? stem e.2 e.1).filter fun u => u.mark = t.mark) =
      if e.2 = 0 + i then onTier? stem i e.1 else none := by
    intro e
    rw [Nat.zero_add]
    exact filter_onTier? (ladderMark?_of_onTier? ht)
  rw [List.filter_filterMap]
  simp only [honly, filterMap_zipIdx_at, hv]
  rw [Option.bind_some, ht]
  rfl

/-! ### Lists -/

/-- What must hold of the tokens of a list of entries, and of the entries that are left over. -/
structure Tiered (stem : Text) (items : List Value) (tokens : List ClassToken)
    (overflow : List Value) : Prop where
  /-- The tokens are those of the entries on their tiers, in the order of these. -/
  tokens_eq : tokens = items.zipIdx.filterMap fun e => onTier? stem e.2 e.1
  /-- Every entry on a tier has a suffix. -/
  suffix : ∀ i v, items[i]? = some v → i < ladder.length → ∃ s, Suffix.ofValue v = .ok s
  /-- The entries left over are those past the last tier that are not nothing. -/
  overflow_eq : overflow = (items.drop ladder.length).filter (!·.isNull)
  /-- An entry has the only token on its tier, or it is a blank text, or it is left over. -/
  entry : ∀ i v, items[i]? = some v → v ≠ .null →
    (∃ mark s, ladderMark? i = some mark ∧ Suffix.ofValue v = .ok s ∧ s ≠ [] ∧
      tokens.filter (·.mark = mark) = [⟨mark, stem, s⟩]) ∨
    (i < ladder.length ∧ ∃ t, v = .text t ∧ ∀ c ∈ t, Text.isBlank c = true) ∨
    ladder.length ≤ i ∧ v ∈ overflow

theorem tiered_of_ofTiers (h : ofTiers stem 0 items = .ok tokens) :
    Tiered stem items tokens ((items.drop ladder.length).filter (!·.isNull)) := by
  have htokens := tokens_of_ofTiers h
  refine ⟨htokens, fun i v hv hi => ?_, rfl, fun i v hv hnull => ?_⟩
  · exact exists_suffix_of_ofTiers h hv (by omega)
  · by_cases hi : i < ladder.length
    · obtain ⟨s, hs⟩ := exists_suffix_of_ofTiers h hv (by omega : 0 + i < ladder.length)
      obtain ⟨mark, hmark⟩ := Breakpoint.exists_ladderMark? hi
      by_cases hne : s = []
      · -- only a blank value has the empty suffix
        refine .inr (.inl ⟨hi, ?_⟩)
        cases (Suffix.eq_nil_iff_blank hs).1 hne with
        | null => exact absurd rfl hnull
        | @text t hblank => exact ⟨t, rfl, hblank⟩
      · refine .inl ⟨mark, s, hmark, hs, hne, ?_⟩
        rw [htokens]
        exact filter_mark_eq hv (onTier?_eq_some_iff.2 ⟨mark, s, hmark, hs, hne, rfl⟩)
    · have hle := Nat.not_lt.1 hi
      refine .inr (.inr ⟨hle, List.mem_filter.2 ⟨?_, ?_⟩⟩)
      · rw [List.mem_iff_getElem?]
        exact ⟨i - ladder.length, by rw [List.getElem?_drop, Nat.add_sub_cancel' hle, hv]⟩
      · rw [Bool.not_eq_true', Bool.eq_false_iff]
        exact fun h => hnull (isNull_iff.1 h)

theorem ofValue_of_rows {name : Text} (hstem : Property.stem? name = some stem)
    (hv : v = .list items ∨ v = .tuple items) :
    ofValue (.text name) v = ofTiers stem 0 items := by
  rw [ofValue_of_stem hstem]
  rcases hv with rfl | rfl
  · rfl
  · rfl

theorem overflowEntries_of_rows (hv : v = .list items ∨ v = .tuple items) :
    overflowEntries v = .ok ((items.drop ladder.length).filter (!·.isNull)) := by
  rcases hv with rfl | rfl
  · rfl
  · rfl

/-- **No entry of a list is lost silently**: each that is not nothing has the one token of its tier,
is a blank text on a tier, or is left over; and what follows a full ladder changes no token. -/
theorem ofValue_tiered {name : Text} (hstem : Property.stem? name = some stem)
    (hv : v = .list items ∨ v = .tuple items) (h : ofValue (.text name) v = .ok tokens) :
    (∃ overflow, overflowEntries v = .ok overflow ∧ Tiered stem items tokens overflow) ∧
      ∀ more w, ladder.length ≤ items.length →
        w = .list (items ++ more) ∨ w = .tuple (items ++ more) →
        ofValue (.text name) w = .ok tokens := by
  rw [ofValue_of_rows hstem hv] at h
  refine ⟨⟨_, overflowEntries_of_rows hv, tiered_of_ofTiers h⟩, fun more w hfull hw => ?_⟩
  rw [ofValue_of_rows hstem hw, ofTiers_append (by omega)]
  exact h

/-- A list with gaps, a blank text, and entries past the last tier. -/
theorem ofValue_tiered_long :
    ∃ overflow, overflowEntries (.list [.text "auto", .null, .text "  ", .text "4", .null,
        .text "0.5", .null, .text "auto", .bool true]) = .ok overflow ∧
      Tiered "m" [.text "auto", .null, .text "  ", .text "4", .null, .text "0.5", .null,
        .text "auto", .bool true]
        [⟨[], "m", "auto"⟩, ⟨"lg:", "m", "4"⟩, ⟨"2xl:", "m", "0.5"⟩] overflow := by
  have hstem : Property.stem? "margin" = some "m" := rfl
  exact (ofValue_tiered hstem (.inl rfl) rfl).1

end ClassToken

end SpacingClasses
