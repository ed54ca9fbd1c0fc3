import SpacingClasses.Proofs.Attribute.Integers
import SpacingClasses.Proofs.Value.Readable

/-!
# Data as an attribute has it

JSON escapes control characters in ways that attributes do not have, and an attribute has no integers
where the doubles end.  This is what is left of data that is written as JSON and read as a literal.

* `Attribute.isLost c` : the character is written by an escape that attributes do not have;
* `Attribute.unescaped t` : what is left of a text;
* `Value.reread v` : what is left of data;
* `Value.Kept v` : the value has no lost characters and no integers beyond the doubles;
* `Value.reread_ordered_eq_iff` : **nothing is lost of ordered data exactly if it is kept.**
-/

namespace SpacingClasses

namespace Attribute

variable {c d : Char} {t : Text}

/-! ### Texts -/

/-- Whether JSON escapes a character in a way that attributes do not have: control characters, other
than line ends and tabs. -/
def isLost (c : Char) : Bool := c.toNat < 32 && c != '\n' && c != '\t'

/-- What is left of a character: of a lost one, its escape without the backslash. -/
def leftOf (c : Char) : Text := if isLost c then (Json.writeChar false c).tail else [c]

/-- What is left of a text. -/
def unescaped (t : Text) : Text := t.flatMap leftOf

/-- What is left of a lost character has none in it. -/
theorem not_isLost_of_code :
    ∀ n < 32, (Json.writeChar false (Char.ofNat n)).tail.any isLost = false := by
  decide

theorem not_isLost_of_mem_leftOf (h : c ∈ leftOf d) : isLost c = false := by
  rw [leftOf] at h
  split_ifs at h with hd
  · have hcode : d.toNat < 32 := by
      simp only [isLost, Bool.and_eq_true, decide_eq_true_eq] at hd
      exact hd.1.1
    have hleft := not_isLost_of_code d.toNat hcode
    rw [Char.ofNat_toNat, List.any_eq_false] at hleft
    exact Bool.eq_false_iff.2 (hleft c h)
  · rw [List.mem_singleton.1 h]
    exact Bool.eq_false_iff.2 hd

theorem any_unescaped (t : Text) : (unescaped t).any isLost = false := by
  rw [List.any_eq_false]
  intro c hc
  obtain ⟨d, -, hc⟩ := List.mem_flatMap.1 hc
  exact Bool.eq_false_iff.1 (not_isLost_of_mem_leftOf hc)

theorem leftOf_of_not_isLost (h : isLost c = false) : leftOf c = [c] := by
  simp [leftOf, h]

theorem unescaped_cons (c : Char) (t : Text) : unescaped (c :: t) = leftOf c ++ unescaped t := rfl

/-- **A text is left as it is exactly if it has no lost characters.** -/
theorem unescaped_eq_self_iff : unescaped t = t ↔ t.any isLost = false := by
  constructor
  · intro h
    rw [← h]
    exact any_unescaped t
  · intro h
    induction t with
    | nil => rfl
    | cons c t ih =>
      rw [List.any_cons, Bool.or_eq_false_iff] at h
      rw [unescaped_cons, leftOf_of_not_isLost h.1, ih h.2, List.singleton_append]

end Attribute

namespace Value

open Attribute (isLost unescaped integerValue)

variable {v : Value} {items : List Value} {rows : List (Text × Value)} {n : Int} {t : Text}

/-! ### Values -/

mutual

/-- What is left of data that is written as JSON and read as a literal.  Keys that become the same are
one key of the dictionary. -/
def reread : Value → Value
  | int n => integerValue n
  | text t => text (unescaped t)
  | list items => list (rereadItems items)
  | dict entries => dictOf (rereadEntries entries)
  | v => v

/-- What is left of the items of a list. -/
def rereadItems : List Value → List Value
  | [] => []
  | v :: rest => reread v :: rereadItems rest

/-- What is left of the entries of a dictionary. -/
def rereadEntries : List (Value × Value) → List (Value × Value)
  | [] => []
  | (k, v) :: rest => (reread k, reread v) :: rereadEntries rest

end

/-- The value has no lost characters, and its integers are less than the limit of whole doubles. -/
inductive Kept : Value → Prop where
  | null : Kept .null
  | bool (b : Bool) : Kept (.bool b)
  | int {n : Int} (h : n.natAbs < Double.wholeLimit) : Kept (.int n)
  | text {t : Text} (h : t.any isLost = false) : Kept (.text t)
  | list {items : List Value} (h : ∀ v ∈ items, Kept v) : Kept (.list items)
  | dict {rows : List (Text × Value)} (hkeys : ∀ e ∈ rows, e.1.any isLost = false)
      (hvalues : ∀ e ∈ rows, Kept e.2) : Kept (.dict (named rows))

/-- A row is mapped to itself if its members are. -/
theorem map_eq_self_iff {α : Type} {f : α → α} {l : List α} : l.map f = l ↔ ∀ a ∈ l, f a = a := by
  simpa using List.map_inj_left (l := l) (f := f) (g := fun a => a)

theorem rereadItems_eq_map (items : List Value) : rereadItems items = items.map reread := by
  induction items with
  | nil => rfl
  | cons v items ih => rw [rereadItems, ih, List.map_cons]

/-- What is left of an entry under a text. -/
def rereadEntry (e : Text × Value) : Text × Value := (unescaped e.1, reread e.2)

theorem rereadEntries_named (rows : List (Text × Value)) :
    rereadEntries (named rows) = named (rows.map rereadEntry) := by
  induction rows with
  | nil => rfl
  | cons e rows ih =>
    rw [named_cons, rereadEntries, ih]
    rfl

theorem reread_dict_named (rows : List (Text × Value)) :
    reread (.dict (named rows)) = dictOf (named (rows.map rereadEntry)) := by
  rw [reread, rereadEntries_named]

/-! ### Kept data -/

theorem reread_list_eq_iff : reread (.list items) = .list items ↔ ∀ v ∈ items, reread v = v := by
  rw [reread, rereadItems_eq_map, list.injEq]
  exact map_eq_self_iff

/-- **A dictionary is left as it is exactly if each entry is.**  No lost character is in what is left,
so a dictionary with one in a key is left as another one, whatever keys become the same. -/
theorem reread_dict_eq_iff (hkeys : (rows.map (·.1)).Nodup) :
    reread (.dict (named rows)) = .dict (named rows) ↔ ∀ e ∈ rows, rereadEntry e = e := by
  rw [reread_dict_named, dictOf_named, record_eq, dict.injEq, named_injective.eq_iff]
  constructor
  · intro h
    have hunescaped : ∀ e ∈ rows, unescaped e.1 = e.1 := by
      intro e he
      rw [← h] at he
      obtain ⟨e', -, rfl⟩ := List.mem_map.1 (mem_of_mem_gather he)
      exact Attribute.unescaped_eq_self_iff.2 (Attribute.any_unescaped e'.1)
    have hsame : (rows.map rereadEntry).map (·.1) = rows.map (·.1) := by
      rw [List.map_map]
      exact List.map_congr_left hunescaped
    rw [gather_eq_self (hsame ▸ hkeys)] at h
    exact map_eq_self_iff.1 h
  · intro h
    have hmap : rows.map rereadEntry = rows := map_eq_self_iff.2 h
    rw [hmap, gather_eq_self hkeys]

theorem kept_int_iff : Kept (.int n) ↔ n.natAbs < Double.wholeLimit := by
  constructor
  · rintro ⟨⟩
    assumption
  · exact .int

theorem kept_text_iff : Kept (.text t) ↔ t.any isLost = false := by
  constructor
  · rintro ⟨⟩
    assumption
  · exact .text

theorem kept_list_iff : Kept (.list items) ↔ ∀ v ∈ items, Kept v := by
  constructor
  · rintro ⟨⟩
    assumption
  · exact .list

theorem kept_dict_iff : Kept (.dict (named rows)) ↔
    ∀ e ∈ rows, e.1.any isLost = false ∧ Kept e.2 := by
  constructor
  · intro h e he
    generalize hd : Value.dict (named rows) = d at h
    cases h with
    | dict hkeys hvalues =>
      obtain rfl := named_injective (dict.inj hd)
      exact ⟨hkeys e he, hvalues e he⟩
    | _ => cases hd
  · intro h
    exact .dict (fun e he => (h e he).1) fun e he => (h e he).2

/-- **Nothing is lost of ordered data exactly if it is kept.** -/
theorem reread_ordered_eq_iff (hv : Data v) : reread (ordered v) = ordered v ↔ Kept v := by
  induction hv with
  | null => exact iff_of_true rfl .null
  | bool b => exact iff_of_true rfl (.bool b)
  | @int n _ =>
    have hreread : reread (ordered (.int n)) = integerValue n := rfl
    have hordered : ordered (.int n) = .int n := rfl
    rw [hreread, hordered, Attribute.integerValue_eq_iff, kept_int_iff]
  | text t =>
    have hreread : reread (ordered (.text t)) = .text (unescaped t) := rfl
    have hordered : ordered (.text t) = .text t := rfl
    rw [hreread, hordered, text.injEq, Attribute.unescaped_eq_self_iff, kept_text_iff]
  | list _ ih =>
    rw [ordered, orderedItems_eq_map, reread_list_eq_iff, List.forall_mem_map, kept_list_iff]
    exact forall₂_congr ih
  | @dict rows hkeys _ ih =>
    have hperm := perm_sortByText rows
    rw [ordered_dict_named, reread_dict_eq_iff (nodup_keys_ordered hkeys), List.forall_mem_map,
      kept_dict_iff]
    constructor
    · intro h e he
      have hentry := h e (hperm.mem_iff.2 he)
      rw [rereadEntry, Prod.mk.injEq, Attribute.unescaped_eq_self_iff, ih e he] at hentry
      exact hentry
    · intro h e he
      have hkept := h e (hperm.mem_iff.1 he)
      rw [rereadEntry, Prod.mk.injEq, Attribute.unescaped_eq_self_iff, ih e (hperm.mem_iff.1 he)]
      exact hkept

end Value

end SpacingClasses
