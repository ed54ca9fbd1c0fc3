import SpacingClasses.Number.Integer
import SpacingClasses.Proofs.Value.Dictionary
import SpacingClasses.Value.Order
import Mathlib.Data.Char
import Mathlib.Data.List.Lex

/-!
# Data and the order of its entries

The values that JSON has for its own, and what is left of them when the order of entries is none of
their matter.

* `Value.Data v` : the value is made of nothing, truth values, integers that can be written, texts,
  lists, and dictionaries under texts;
* `Value.ordered v` : the value with the entries of each dictionary in the order of their keys;
* `Value.Alike v w` : the values are the same but for the order of entries;
* `alike_ordered`, `Data.inOrder_ordered` : the ordered value is alike, and in order at every level.
-/

namespace SpacingClasses

/-! ### The order of texts -/

namespace Text

variable {s t u : Text}

theorem before_eq_true_iff : before s t = true ↔ s < t := by
  induction s generalizing t with
  | nil => cases t <;> simp [before]
  | cons c s ih =>
    cases t with
    | nil => simp [before]
    | cons d t =>
      have hlt : c.toNat < d.toNat ↔ c < d := Iff.rfl
      simp [before, ih, List.cons_lt_cons_iff, hlt]

theorem not_before_iff : (!before t s) = true ↔ s ≤ t := by
  rw [Bool.not_eq_true', ← Bool.not_eq_true, before_eq_true_iff, not_lt]

end Text

namespace Value

variable {α β : Type} {v w : Value} {items : List Value} {entries : List (Value × Value)}

/-! ### Data -/

/-- Data: nothing, truth values, integers that can be written, texts, lists, and dictionaries under
texts that are all different. -/
inductive Data : Value → Prop where
  | null : Data .null
  | bool (b : Bool) : Data (.bool b)
  | int {n : Int} (h : (Text.ofNat n.natAbs).length ≤ Integer.maxDigits) : Data (.int n)
  | text (t : Text) : Data (.text t)
  | list {items : List Value} (h : ∀ v ∈ items, Data v) : Data (.list items)
  | dict {rows : List (Text × Value)} (hkeys : (rows.map (·.1)).Nodup)
      (hvalues : ∀ e ∈ rows, Data e.2) : Data (.dict (named rows))

/-- Data with the entries of each dictionary in the order of their keys. -/
inductive InOrder : Value → Prop where
  | null : InOrder .null
  | bool (b : Bool) : InOrder (.bool b)
  | int (n : Int) : InOrder (.int n)
  | text (t : Text) : InOrder (.text t)
  | list {items : List Value} (h : ∀ v ∈ items, InOrder v) : InOrder (.list items)
  | dict {rows : List (Text × Value)}
      (hkeys : (rows.map (·.1)).Pairwise fun s t => Text.before s t = true)
      (hvalues : ∀ e ∈ rows, InOrder e.2) : InOrder (.dict (named rows))

/-! ### The order of entries -/

/-- Entries under texts in the order of these; entries with other keys as they are. -/
def inKeyOrder (entries : List (Value × Value)) : List (Value × Value) :=
  match entries.mapM textKeyed? with
  | some rows => named (sortByText rows)
  | none => entries

mutual

/-- The value with the entries of each dictionary in the order of their keys. -/
def ordered : Value → Value
  | list items => list (orderedItems items)
  | dict entries => dict (inKeyOrder (orderedEntries entries))
  | v => v

/-- The items of a list, each in order. -/
def orderedItems : List Value → List Value
  | [] => []
  | v :: rest => ordered v :: orderedItems rest

/-- The entries of a dictionary with their values in order, as they come. -/
def orderedEntries : List (Value × Value) → List (Value × Value)
  | [] => []
  | (k, v) :: rest => (k, ordered v) :: orderedEntries rest

end

mutual

/-- The values are the same but for the order of entries, at every level. -/
def Alike : Value → Value → Prop
  | list xs, list ys => AlikeItems xs ys
  | dict d, dict e => ∃ moved, moved.Perm e ∧ AlikeEntries d moved
  | v, w => v = w

/-- The items are alike one by one. -/
def AlikeItems : List Value → List Value → Prop
  | [], [] => True
  | x :: xs, y :: ys => Alike x y ∧ AlikeItems xs ys
  | _, _ => False

/-- The entries have the same keys and are alike one by one. -/
def AlikeEntries : List (Value × Value) → List (Value × Value) → Prop
  | [], [] => True
  | (k, x) :: d, (l, y) :: e => k = l ∧ Alike x y ∧ AlikeEntries d e
  | _, _ => False

end

example : Alike (.dict [(.text "b", .null), (.text "a", .list [])])
    (.dict [(.text "a", .list []), (.text "b", .null)]) :=
  ⟨_, .swap .., rfl, rfl, rfl, trivial, trivial⟩

/-! ### Sorted rows -/

theorem mapM_textKeyed? (rows : List (Text × α)) :
    (rows.map fun e => (text e.1, e.2)).mapM textKeyed? = some rows := by
  induction rows with
  | nil => rfl
  | cons e rows ih =>
    rw [List.map_cons, List.mapM_cons, ih]
    rfl

/-- Entries with texts for keys are named rows. -/
theorem eq_named_of_mapM {rows : List (Text × Value)} (h : entries.mapM textKeyed? = some rows) :
    entries = named rows := by
  induction entries generalizing rows with
  | nil =>
    cases h
    rfl
  | cons e entries ih =>
    rw [List.mapM_cons] at h
    obtain ⟨row, hrow, h⟩ := Option.bind_eq_some_iff.1 h
    obtain ⟨rest, hrest, h⟩ := Option.bind_eq_some_iff.1 h
    cases h
    rw [ih hrest]
    obtain ⟨k, v⟩ := e
    cases k <;> cases hrow
    rfl

theorem inKeyOrder_named (rows : List (Text × Value)) :
    inKeyOrder (named rows) = named (sortByText rows) := by
  rw [inKeyOrder, named, mapM_textKeyed?]

theorem perm_sortByText (rows : List (Text × α)) : (sortByText rows).Perm rows :=
  List.mergeSort_perm _ _

theorem perm_inKeyOrder (entries : List (Value × Value)) : entries.Perm (inKeyOrder entries) := by
  rw [inKeyOrder]
  split
  · rename_i rows hrows
    rw [eq_named_of_mapM hrows]
    exact ((perm_sortByText rows).map _).symm
  · exact .refl entries

/-- What the entries hold makes no difference to their order. -/
theorem sortByText_map (f : Text × α → β) (rows : List (Text × α)) :
    sortByText (rows.map fun e => (e.1, f e)) = (sortByText rows).map fun e => (e.1, f e) := by
  rw [sortByText, sortByText, List.map_mergeSort]
  intro e he e' he'
  rfl

/-- Entries with texts for keys always have an order. -/
theorem sortByKey_map (f : Text × α → β) (rows : List (Text × α)) :
    sortByKey (rows.map fun e => (text e.1, f e)) =
      .ok ((sortByText rows).map fun e => (text e.1, f e)) := by
  have hnamed := mapM_textKeyed? (rows.map fun e => (e.1, f e))
  rw [List.map_map] at hnamed
  have hsorted := sortByText_map f rows
  rw [sortByKey]
  simp only [Function.comp_def] at hnamed
  simp only [hnamed, hsorted, List.map_map, Function.comp_def]

/-- Different texts come in ascending order. -/
theorem pairwise_sortByText {rows : List (Text × α)} (hkeys : (rows.map (·.1)).Nodup) :
    ((sortByText rows).map (·.1)).Pairwise fun s t => Text.before s t = true := by
  have hsorted : (sortByText rows).Pairwise fun e f => (!Text.before f.1 e.1) = true := by
    refine List.pairwise_mergeSort (fun e f g hef hfg => ?_) (fun e f => ?_) rows
    · rw [Text.not_before_iff] at hef hfg ⊢
      exact hef.trans hfg
    · rw [Bool.or_eq_true, Text.not_before_iff, Text.not_before_iff]
      exact le_total e.1 f.1
  have hnodup : ((sortByText rows).map (·.1)).Nodup :=
    ((perm_sortByText rows).map _).nodup_iff.2 hkeys
  rw [List.Nodup, List.pairwise_map] at hnodup
  rw [List.pairwise_map]
  refine (hsorted.and hnodup).imp fun h => ?_
  rw [Text.not_before_iff] at h
  exact Text.before_eq_true_iff.2 (lt_of_le_of_ne h.1 h.2)

/-! ### Ordered values -/

theorem orderedItems_eq_map (items : List Value) : orderedItems items = items.map ordered := by
  induction items with
  | nil => rfl
  | cons v items ih => rw [orderedItems, ih, List.map_cons]

theorem orderedEntries_named (rows : List (Text × Value)) :
    orderedEntries (named rows) = named (rows.map fun e => (e.1, ordered e.2)) := by
  induction rows with
  | nil => rfl
  | cons e rows ih =>
    rw [named_cons, orderedEntries, ih]
    rfl

theorem ordered_dict_named (rows : List (Text × Value)) :
    ordered (.dict (named rows)) =
      .dict (named ((sortByText rows).map fun e => (e.1, ordered e.2))) := by
  rw [ordered, orderedEntries_named, inKeyOrder_named, sortByText_map fun e => ordered e.2]

/-- Different keys are still so once the entries are in order. -/
theorem nodup_keys_ordered {rows : List (Text × Value)} (hkeys : (rows.map (·.1)).Nodup) :
    (((sortByText rows).map fun e => (e.1, ordered e.2)).map (·.1)).Nodup := by
  rw [List.map_map]
  exact ((perm_sortByText rows).map _).nodup_iff.2 hkeys

mutual

/-- **The ordered value is alike.** -/
theorem alike_ordered : ∀ v, Alike v (ordered v)
  | .list items => alikeItems_ordered items
  | .dict entries => ⟨orderedEntries entries, perm_inKeyOrder _, alikeEntries_ordered entries⟩
  | .null => rfl
  | .bool _ => rfl
  | .int _ => rfl
  | .float _ => rfl
  | .decimal _ => rfl
  | .text _ => rfl
  | .bytes _ => rfl
  | .moment _ => rfl
  | .tuple _ => rfl
  | .scalar _ _ => rfl
  | .sequence _ => rfl
  | .keyed _ => rfl
  | .prop _ _ _ => rfl

theorem alikeItems_ordered : ∀ items, AlikeItems items (orderedItems items)
  | [] => trivial
  | v :: rest => ⟨alike_ordered v, alikeItems_ordered rest⟩

theorem alikeEntries_ordered : ∀ entries, AlikeEntries entries (orderedEntries entries)
  | [] => trivial
  | (_, v) :: rest => ⟨rfl, alike_ordered v, alikeEntries_ordered rest⟩

end

/-- **Ordered data is in order** at every level. -/
theorem Data.inOrder_ordered (h : Data v) : InOrder (ordered v) := by
  induction h with
  | null => exact .null
  | bool b => exact .bool b
  | int _ => exact .int _
  | text t => exact .text t
  | list _ ih =>
    rw [ordered, orderedItems_eq_map]
    exact .list (List.forall_mem_map.2 ih)
  | @dict rows hkeys _ ih =>
    rw [ordered_dict_named]
    refine .dict ?_ ?_
    · rw [List.map_map]
      exact pairwise_sortByText hkeys
    · exact List.forall_mem_map.2 fun e he => ih e ((perm_sortByText rows).mem_iff.1 he)

end Value

end SpacingClasses
