import SpacingClasses.Proofs.ClassToken.Tiers
import SpacingClasses.Proofs.Value.Dictionary

/-!
# Tiers by position and by name

A list addresses the tiers by the positions of its entries, a dictionary by their names.  Both forms
of one value have the same class names.

* `Value.byTier items` : the dictionary that has the entries of a list under the names of their
  tiers;
* `ofTiers_eq_ofEntries` : from any position on, the tokens of a list are those of its entries under
  the names that are left;
* `ClassToken.ofValue_list_eq_byTier` : **a list and its dictionary have the same tokens**, or fail
  alike.
-/

namespace SpacingClasses

/-! ### Names of tiers -/

namespace Breakpoint

/-- The names under which a dictionary addresses the tiers, from the narrowest page up. -/
def tierNames : List Text := ["base", "sm", "md", "lg", "xl", "2xl"]

/-- The mark of a tier is the same by position and by name. -/
theorem ladderMark?_eq_keyMark (i : Nat) : ladderMark? i = tierNames[i]?.map keyMark := by
  have h : ladder.map mark = tierNames.map keyMark := by decide
  rw [ladderMark?, ← List.getElem?_map, ← List.getElem?_map, h]

theorem nodup_tierNames : tierNames.Nodup := by
  decide

end Breakpoint

open Breakpoint (tierNames)

variable {stem : Text} {items : List Value}

/-! ### The dictionary of a list -/

/-- The dictionary of the entries of a list under the names of their tiers, as far as there are
tiers. -/
def Value.byTier (items : List Value) : Value :=
  Value.dictOf (Value.named (tierNames.zip items))

theorem nodup_zip_tierNames (items : List Value) : ((tierNames.zip items).map (·.1)).Nodup := by
  rw [List.zip_eq_zip_take_min, List.map_fst_zip (by simp)]
  exact Breakpoint.nodup_tierNames.sublist (List.take_sublist _ _)

/-- No name comes twice, so the dictionary has all the entries in their order. -/
theorem byTier_eq (items : List Value) :
    Value.byTier items = .dict (Value.named (tierNames.zip items)) := by
  rw [Value.byTier, Value.dictOf_named, Value.gather_eq_self (nodup_zip_tierNames items),
    Value.record_eq]

example : Value.byTier [.null, .bool true] =
    .dict [(.text "base", .null), (.text "sm", .bool true)] := rfl

theorem displayKeys_named (entries : List (Text × Value)) :
    Shape.displayKeys (Value.named entries) = .ok entries := by
  induction entries with
  | nil => rfl
  | cons e entries ih =>
    rw [Value.named] at ih ⊢
    rw [List.map_cons, Shape.displayKeys, ih]
    rfl

namespace ClassToken

open Breakpoint (ladder ladderMark?)

/-! ### Tokens -/

theorem ofTier_null (mark : Text) : ofTier stem mark .null = .ok [] := rfl

/-- **The tokens of a list from a position on** are those of its entries under the names of the
tiers that are left. -/
theorem ofTiers_eq_ofEntries (position : Nat) :
    ofTiers stem position items = ofEntries stem ((tierNames.drop position).zip items) := by
  induction items generalizing position with
  | nil =>
    rw [List.zip_nil_right]
    rfl
  | cons v items ih =>
    rw [ofTiers, ih, Breakpoint.ladderMark?_eq_keyMark]
    by_cases hlt : position < tierNames.length
    · rw [List.drop_eq_getElem_cons hlt, List.zip_cons_cons, ofEntries,
        List.getElem?_eq_getElem hlt, Option.map_some]
      split
      · -- nothing has no token under its name either
        rename_i hnull
        rw [isNull_iff.1 hnull, ofTier_null, ok_bind]
        cases ofEntries stem ((tierNames.drop (position + 1)).zip items) <;> rfl
      · rfl
    · -- there are no names past the last tier
      have hle : tierNames.length ≤ position := Nat.not_lt.1 hlt
      rw [List.drop_eq_nil_of_le hle, List.drop_eq_nil_of_le (Nat.le_succ_of_le hle),
        List.getElem?_eq_none hle, List.zip_nil_left, List.zip_nil_left]
      split <;> rfl

theorem ofShape_tiers_eq_keyed (stem : Text) (items : List Value) :
    ofShape stem (.tiers items) = ofShape stem (.keyed (tierNames.zip items)) := by
  rw [ofShape, ofShape, ofTiers_eq_ofEntries, List.drop_zero]

/-- **A list and the dictionary of its entries under the names of their tiers** have the same
tokens, whatever the entries are, or else both fail for the same reason. -/
theorem ofValue_list_eq_byTier (property : Value) (items : List Value) :
    ofValue property (.list items) = ofValue property (Value.byTier items) := by
  have hdict : Shape.ofValue (Value.byTier items) = .ok (.keyed (tierNames.zip items)) := by
    rw [byTier_eq, Shape.ofValue, displayKeys_named]
    rfl
  have hlist : Shape.ofValue (.list items) = .ok (.tiers items) := rfl
  rw [ofValue, ofValue, hdict, hlist]
  simp only [ok_bind, ofShape_tiers_eq_keyed]

end ClassToken

end SpacingClasses
