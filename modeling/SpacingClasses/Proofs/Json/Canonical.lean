import SpacingClasses.Command.Basic
import SpacingClasses.Proofs.Json.RoundTrip
import Mathlib.Data.List.Perm.Basic

/-!
# Canonical JSON tells data apart

Canonical JSON forgets the order of entries, at every level, and nothing else.

* `Value.alike_iff_ordered_eq` : data are alike if they are the same once their entries are in order;
* `Json.Encodes.value_eq` : a text encodes one value at most;
* `Json.document` : canonical JSON as a text of its own, on one line or on several;
* `Json.document_eq_iff` : **the documents of two data are the same exactly if the data are alike**,
  and an argument that holds the lines of one is read as the data in order.
-/

namespace SpacingClasses

namespace Value

variable {α β : Type} {v w : Value} {xs ys : List Value} {rows rows' : List (Text × Value)}

/-! ### Rows in another order -/

/-- What is in the order of other images is a row of images in that order. -/
theorem exists_perm_of_perm_map {f : α → β} {l : List β} {l' : List α} (h : l.Perm (l'.map f)) :
    ∃ m : List α, m.Perm l' ∧ l = m.map f := by
  have himage : List.Forall₂ (fun b a => b = f a) (l'.map f) l' :=
    List.forall₂_map_left_iff.2 (List.forall₂_same.2 fun a _ => rfl)
  obtain ⟨m, hm, hperm⟩ := List.perm_comp_forall₂ h himage
  refine ⟨m, hperm, ?_⟩
  rw [← List.forall₂_eq_eq_eq, List.forall₂_map_right_iff]
  exact hm

/-- Rows under different texts are sorted into the same rows exactly if they are the same but for
their order. -/
theorem sortByText_eq_iff_perm {rows rows' : List (Text × α)} (hkeys : (rows.map (·.1)).Nodup) :
    sortByText rows = sortByText rows' ↔ rows.Perm rows' := by
  constructor
  · intro h
    exact (perm_sortByText rows).symm.trans (h ▸ perm_sortByText rows')
  · intro h
    have hkeys' : (rows'.map (·.1)).Nodup := (h.map _).nodup_iff.1 hkeys
    have hsorted := pairwise_sortByText hkeys
    have hsorted' := pairwise_sortByText hkeys'
    rw [List.pairwise_map] at hsorted hsorted'
    refine List.Perm.eq_of_pairwise (fun e f _ _ hef hfe => ?_) hsorted hsorted' ?_
    · -- no two texts come before each other
      rw [Text.before_eq_true_iff] at hef hfe
      exact absurd hef (lt_asymm hfe)
    · exact ((perm_sortByText rows).trans h).trans (perm_sortByText rows').symm

/-! ### Alike data -/

/-- Two relations that agree on the members of two rows agree on the rows. -/
theorem forall₂_congr_of_mem {R S : α → β → Prop} {as : List α} {bs : List β}
    (h : ∀ a ∈ as, ∀ b ∈ bs, (R a b ↔ S a b)) : List.Forall₂ R as bs ↔ List.Forall₂ S as bs := by
  induction as generalizing bs with
  | nil => simp
  | cons a as ih =>
    cases bs with
    | nil => simp
    | cons b bs =>
      have hrest : List.Forall₂ R as bs ↔ List.Forall₂ S as bs :=
        ih fun a ha b hb => h a (List.mem_cons_of_mem _ ha) b (List.mem_cons_of_mem _ hb)
      rw [List.forall₂_cons, List.forall₂_cons, hrest, h a List.mem_cons_self b List.mem_cons_self]

theorem map_eq_map_iff_forall₂ {f : α → β} {l m : List α} :
    l.map f = m.map f ↔ List.Forall₂ (fun a b => f a = f b) l m := by
  rw [← List.forall₂_eq_eq_eq, List.forall₂_map_left_iff, List.forall₂_map_right_iff]

theorem alikeItems_iff : AlikeItems xs ys ↔ List.Forall₂ Alike xs ys := by
  induction xs generalizing ys with
  | nil => cases ys <;> simp [AlikeItems]
  | cons x xs ih => cases ys <;> simp [AlikeItems, ih]

theorem alikeEntries_iff {d e : List (Value × Value)} :
    AlikeEntries d e ↔ List.Forall₂ (fun a b => a.1 = b.1 ∧ Alike a.2 b.2) d e := by
  induction d generalizing e with
  | nil => cases e <;> simp [AlikeEntries]
  | cons a d ih => cases e <;> simp [AlikeEntries, ih, and_assoc]

/-- Dictionaries are alike if the one has the entries of the other in some order, with values that
are alike. -/
theorem alike_dict_named_iff : Alike (.dict (named rows)) (.dict (named rows')) ↔
    ∃ moved, moved.Perm rows' ∧
      List.Forall₂ (fun e f => e.1 = f.1 ∧ Alike e.2 f.2) rows moved := by
  have hrows : ∀ moved, AlikeEntries (named rows) (named moved) ↔
      List.Forall₂ (fun e f => e.1 = f.1 ∧ Alike e.2 f.2) rows moved := by
    intro moved
    rw [alikeEntries_iff, named, named, List.forall₂_map_left_iff, List.forall₂_map_right_iff]
    simp only [text.injEq]
  constructor
  · rintro ⟨entries, hperm, hentries⟩
    obtain ⟨moved, hmoved, rfl⟩ := exists_perm_of_perm_map hperm
    exact ⟨moved, hmoved, (hrows moved).1 hentries⟩
  · rintro ⟨moved, hperm, hmoved⟩
    exact ⟨named moved, hperm.map _, (hrows moved).2 hmoved⟩

/-- **Data are alike exactly if they are the same once their entries are in order.** -/
theorem alike_iff_ordered_eq (hv : Data v) (hw : Data w) : Alike v w ↔ ordered v = ordered w := by
  induction hv generalizing w with
  | null | bool | int | text => cases hw <;> simp [Alike, ordered]
  | @list xs _ ih =>
    cases hw with
    | null | bool | int | text | dict => simp [Alike, ordered]
    | @list ys hys =>
      have hitems : List.Forall₂ Alike xs ys ↔
          List.Forall₂ (fun x y => ordered x = ordered y) xs ys :=
        forall₂_congr_of_mem fun x hx y hy => ih x hx (hys y hy)
      rw [Alike, alikeItems_iff, hitems, ordered, ordered, list.injEq, orderedItems_eq_map,
        orderedItems_eq_map, map_eq_map_iff_forall₂]
  | @dict rows hkeys _ ih =>
    cases hw with
    | null | bool | int | text | list => simp [Alike, ordered]
    | @dict rows' _ hvalues =>
      have hentries : ∀ moved, moved.Perm rows' →
          (List.Forall₂ (fun e f => e.1 = f.1 ∧ Alike e.2 f.2) rows moved ↔
            rows.map (fun e => (e.1, ordered e.2)) = moved.map fun e => (e.1, ordered e.2)) := by
        intro moved hperm
        rw [map_eq_map_iff_forall₂]
        refine forall₂_congr_of_mem fun e he f hf => ?_
        rw [ih e he (hvalues f (hperm.mem_iff.1 hf)), Prod.mk.injEq]
      have hordered : ((rows.map fun e => (e.1, ordered e.2)).map (·.1)).Nodup := by
        rwa [List.map_map]
      rw [alike_dict_named_iff, ordered_dict_named, ordered_dict_named, dict.injEq,
        named_injective.eq_iff, ← sortByText_map fun e => ordered e.2,
        ← sortByText_map fun e => ordered e.2, sortByText_eq_iff_perm hordered]
      constructor
      · rintro ⟨moved, hperm, hmoved⟩
        rw [(hentries moved hperm).1 hmoved]
        exact hperm.map _
      · intro h
        obtain ⟨moved, hperm, hmoved⟩ := exists_perm_of_perm_map h
        exact ⟨moved, hperm, (hentries moved hperm).2 hmoved⟩

end Value

namespace Json

open Value (Data Alike InOrder ordered named)

variable {f : Format} {v w : Value} {s t : Text}

/-- A text encodes one value at most. -/
theorem Encodes.value_eq (hv : Encodes s v) (hw : Encodes s w) : v = w := by
  have hread := hv.read_append (s := []) (by simp)
  rw [hw.read_append (by simp)] at hread
  exact (Except.ok.inj hread).symm

/-- Where entries are sorted anyway, data is written as if it were in order. -/
theorem write_ordered (hsorted : f.sorted = true) (hv : Data v) (level : Nat) :
    write f level (ordered v) = write f level v := by
  -- for every level, as what is nested stands one level deeper
  induction hv generalizing level with
  | null | bool | int | text => rfl
  | @list items _ ih =>
    have hitems : items.mapM (write f (level + 1) ∘ ordered) = items.mapM (write f (level + 1)) :=
      mapM_congr_of_mem fun v hv => ih v hv (level + 1)
    rw [ordered, Value.orderedItems_eq_map, write_list, write_list, List.mapM_map, hitems]
  | @dict rows hkeys _ ih =>
    have hperm := Value.perm_sortByText rows
    have hagain : Value.sortByText (Value.sortByText rows) = Value.sortByText rows :=
      (Value.sortByText_eq_iff_perm ((hperm.map _).nodup_iff.2 hkeys)).2 hperm
    have hentries : (Value.sortByText rows).mapM (writeEntry f (level + 1) ∘ fun e =>
        (e.1, ordered e.2)) = (Value.sortByText rows).mapM (writeEntry f (level + 1)) := by
      refine mapM_congr_of_mem fun e he => ?_
      rw [Function.comp_apply, writeEntry, writeEntry, ih e (hperm.mem_iff.1 he)]
    rw [Value.ordered_dict_named, write_dict, write_dict, arranged, arranged, if_pos hsorted,
      if_pos hsorted, Value.sortByText_map fun e => ordered e.2, hagain, List.mapM_map, hentries]

/-- Alike data is written as one text, and data that is not alike as two. -/
theorem exists_write_eq_iff (hascii : f.asciiOnly = false) (hsorted : f.sorted = true)
    (hv : Data v) (hw : Data w) :
    ∃ s t, write f 0 v = .ok s ∧ write f 0 w = .ok t ∧ (s = t ↔ Alike v w) := by
  obtain ⟨s, hs, hencodes⟩ := exists_write hascii hsorted hv 0
  obtain ⟨t, ht, hencodes'⟩ := exists_write hascii hsorted hw 0
  refine ⟨s, t, hs, ht, ?_⟩
  rw [Value.alike_iff_ordered_eq hv hw]
  constructor
  · rintro rfl
    exact hencodes.value_eq hencodes'
  · intro h
    rw [← write_ordered hsorted hv, h, write_ordered hsorted hw, ht] at hs
    exact (Except.ok.inj hs).symm

/-! ### Documents -/

/-- Canonical JSON as a document: on one line, or a line for each item with a line end behind the
last. -/
def document (lines : Bool) (v : Value) : Except Failure Text :=
  if lines then do return (← pretty v) ++ ['\n'] else canonical v

/-- The documents of data are the same exactly if the data is alike. -/
theorem exists_document_eq_iff (lines : Bool) (hv : Data v) (hw : Data w) :
    ∃ s t, document lines v = .ok s ∧ document lines w = .ok t ∧ (s = t ↔ Alike v w) := by
  cases lines with
  | false => exact exists_write_eq_iff rfl rfl hv hw
  | true =>
    obtain ⟨s, t, hs, ht, hiff⟩ :=
      exists_write_eq_iff (f := canonicalLines) rfl rfl hv hw
    refine ⟨s ++ ['\n'], t ++ ['\n'], ?_, ?_, ?_⟩
    · rw [document, if_pos rfl, pretty, hs]
      rfl
    · rw [document, if_pos rfl, pretty, ht]
      rfl
    · rw [List.append_left_inj, hiff]

/-- An argument that holds the lines of data is read as the data in order. -/
theorem exists_pretty_readArgument (hv : Data v) :
    ∃ s, pretty v = .ok s ∧ Command.readArgument s = .ok (ordered v) := by
  obtain ⟨s, hs, hencodes⟩ := exists_write (f := canonicalLines) rfl rfl hv 0
  have hread := hencodes.read_append (s := []) (by simp)
  rw [List.append_nil] at hread
  refine ⟨s, hs, ?_⟩
  rw [Command.readArgument, hread]

/-- **Canonical JSON tells data apart and forgets the order of entries, and nothing else**: on one
line or on several, two data have one document exactly if they are alike.  An argument with the lines
of data is read as this data, with the entries of every dictionary in the order of their keys. -/
theorem document_eq_iff :
    (∀ lines v w, Data v → Data w →
      ∃ s t, document lines v = .ok s ∧ document lines w = .ok t ∧ (s = t ↔ Alike v w)) ∧
    (∀ v, Data v → ∃ s, pretty v = .ok s ∧ document true v = .ok (s ++ ['\n']) ∧
      Command.readArgument s = .ok (ordered v) ∧ Alike v (ordered v) ∧ InOrder (ordered v)) := by
  refine ⟨fun lines v w => exists_document_eq_iff lines, fun v hv => ?_⟩
  obtain ⟨s, hs, hread⟩ := exists_pretty_readArgument hv
  refine ⟨s, hs, ?_, hread, Value.alike_ordered v, hv.inOrder_ordered⟩
  rw [document, if_pos rfl, hs]
  rfl

/-- Data whose entries stand across, in a list as well. -/
def across : Value :=
  .dict (named [("é", .list [.dict (named [("y", .int 1), ("x", .bool true)])]), ("a", .null)])

/-- The same data with its entries in order; a number is no truth value. -/
def straight (x : Value) : Value :=
  .dict (named [("a", .null), ("é", .list [.dict (named [("x", x), ("y", .int 1)])])])

theorem ordered_list_singleton (v : Value) : ordered (.list [v]) = .list [ordered v] := rfl

theorem sortByText_pair (s t : Text) (v w : Value) :
    Value.sortByText [(s, v), (t, w)] =
      if Text.before t s then [(t, w), (s, v)] else [(s, v), (t, w)] := by
  simp only [Value.sortByText, List.mergeSort, List.MergeSort.Internal.splitInTwo]
  cases h : Text.before t s <;> simp [h]

theorem ordered_across : ordered across = straight (.bool true) := by
  have hinner : Text.before "x" "y" = true := by decide
  have houter : Text.before "a" "é" = true := by decide
  rw [across, Value.ordered_dict_named, sortByText_pair, if_pos houter, List.map_cons,
    List.map_singleton, ordered_list_singleton, Value.ordered_dict_named, sortByText_pair,
    if_pos hinner]
  rfl

theorem ordered_straight (n : Int) : ordered (straight (.int n)) = straight (.int n) := by
  have hinner : ¬ Text.before "y" "x" = true := by decide
  have houter : ¬ Text.before "é" "a" = true := by decide
  rw [straight, Value.ordered_dict_named, sortByText_pair, if_neg houter, List.map_cons,
    List.map_singleton, ordered_list_singleton, Value.ordered_dict_named, sortByText_pair,
    if_neg hinner]
  rfl

theorem data_across : Data across := by
  have hinner : Data (.dict (named [("y", .int 1), ("x", .bool true)])) :=
    .dict (by decide) (by simpa using ⟨.int (by decide), .bool true⟩)
  exact .dict (by decide) (by simpa using ⟨.list (by simpa using hinner), .null⟩)

theorem data_straight {x : Value} (hx : Data x) : Data (straight x) := by
  have hinner : Data (.dict (named [("x", x), ("y", .int 1)])) :=
    .dict (by simp) (by simpa using ⟨hx, .int (by decide)⟩)
  exact .dict (by simp) (by simpa using ⟨.null, .list (by simpa using hinner)⟩)

/-- Entries that stand across make no other document, a number in the place of a truth value does,
and the lines of the first are read with the entries in order. -/
theorem document_eq_across :
    (∃ s, document true across = .ok s ∧ document true (straight (.bool true)) = .ok s) ∧
    (∃ s t, document false across = .ok s ∧ document false (straight (.int 1)) = .ok t ∧ s ≠ t) ∧
    ∃ s, pretty across = .ok s ∧ Command.readArgument s = .ok (straight (.bool true)) := by
  have hone : Data (straight (.int 1)) := data_straight (.int (by decide))
  refine ⟨?_, ?_, ?_⟩
  · obtain ⟨s, t, hs, ht, hiff⟩ := document_eq_iff.1 true _ _ data_across
      (data_straight (.bool true))
    obtain rfl := hiff.2 (ordered_across ▸ Value.alike_ordered across)
    exact ⟨s, hs, ht⟩
  · obtain ⟨s, t, hs, ht, hiff⟩ := document_eq_iff.1 false _ _ data_across hone
    refine ⟨s, t, hs, ht, fun h => ?_⟩
    have hsame := (Value.alike_iff_ordered_eq data_across hone).1 (hiff.1 h)
    rw [ordered_across, ordered_straight] at hsame
    simp [straight, named] at hsame
  · obtain ⟨s, hs, -, hread, -⟩ := document_eq_iff.2 _ data_across
    exact ⟨s, hs, ordered_across ▸ hread⟩

end Json

end SpacingClasses
