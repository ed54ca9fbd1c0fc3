import SpacingClasses.Proofs.Attribute.Reread
import SpacingClasses.Proofs.Command.Arguments
import SpacingClasses.Proofs.Json.Canonical

/-!
# Canonical JSON in braces

Written data is a literal, but not always of the data.

* `Attribute.Spells w v` : the text `w` is a literal of `v`, whatever follows that does not go on with
  a word or a number;
* `items_joined`, `entries_joined` : the items of a list and the entries of a dictionary are found one
  by one, if each is;
* `Attribute.composes_leaves` : **data is written as a literal of what is left of it**;
* `Attribute.read_braced_document` : so canonical JSON in braces is read as what is left of the data
  in order, and as this data exactly if it is kept.
-/

namespace SpacingClasses

open Text (Blanks MaximalRun)
open Value (Data named ordered reread rereadEntry)

namespace Attribute

open Json (Format newline closed colon writeText)

variable {f : Format} {level : Nat} {c d : Char} {read r s t w rest : Text} {v : Value}
  {ws ts : List Text} {vs : List Value} {rows : List (Text × Value)}

/-! ### Strings -/

/-- **What is left of a character is read where it is written.** -/
theorem stringChars_writeChar (h : StringChars '"' t read rest) (c : Char) :
    StringChars '"' (Json.writeChar false c ++ t) (leftOf c ++ read) rest := by
  rw [Json.writeChar]
  split_ifs with hself hn hr ht hb hf hcode hascii
  · have hleft : leftOf c = [escaped c] := by
      have hc : c = '"' ∨ c = '\\' := by simpa using hself
      rcases hc with rfl | rfl <;> rfl
    rw [hleft]
    exact .escape h
  · subst hn
    exact .escape h
  · subst hr
    exact .escape h
  · subst ht
    exact .escape h
  · subst hb
    exact .escape h
  · subst hf
    exact .escape h
  · obtain ⟨hescape, hunit⟩ := Json.unitEscape_control c.toNat hcode
    have hleft : leftOf c = (Json.unitEscape c.toNat).tail := by
      have hlost : isLost c = true := by simp [isLost, hcode, hn, ht]
      rw [leftOf, if_pos hlost, Json.writeChar, if_neg hself, if_neg hn, if_neg hr, if_neg ht,
        if_neg hb, if_neg hf, if_pos hcode]
    rw [hleft, hescape]
    exact Json.attribute_unit hunit h
  · simp at hascii
  · have hc : c ≠ '"' ∧ c ≠ '\\' := by simpa using hself
    have hlost : isLost c = false := by simp [isLost, hcode]
    rw [leftOf_of_not_isLost hlost]
    exact .plain hc.1 hc.2 h

theorem stringLiteral_writeText (t rest : Text) :
    StringLiteral (writeText false t ++ rest) (unescaped t) rest := by
  have hchars : StringChars '"' (t.flatMap (Json.writeChar false) ++ '"' :: rest) (unescaped t)
      rest := by
    induction t with
    | nil => exact .close
    | cons c t ih =>
      rw [List.flatMap_cons, List.append_assoc, unescaped_cons]
      exact stringChars_writeChar ih c
  have htext : writeText false t ++ rest =
      '"' :: (t.flatMap (Json.writeChar false) ++ '"' :: rest) := by
    simp [writeText]
  rw [htext]
  exact .mk rfl hchars fun h => absurd h (by decide)

/-! ### Texts that are literals -/

/-- Nothing at the front of a text goes on with a word or a number. -/
def EndsLiteral (rest : Text) : Prop :=
  ∀ c ∈ rest.head?, isWordChar c = false ∧ isNumberChar c = false

/-- The text is a literal of the value, before what does not go on with a word or a number. -/
def Spells (w : Text) (v : Value) : Prop := ∀ rest, EndsLiteral rest → Literal (w ++ rest) v rest

theorem endsLiteral_cons (hc : c ∈ Json.numeralEnds) (r : Text) : EndsLiteral (c :: r) := by
  have hends : Json.numeralEnds.all (fun c => !isWordChar c && !isNumberChar c) = true := by decide
  rintro d ⟨⟩
  simpa using List.all_eq_true.1 hends c hc

theorem endsLiteral_closed (hd : d ∈ [']', '\x7d']) (f : Format) (n : Nat) (r : Text) :
    EndsLiteral (closed f n d r) := by
  obtain ⟨c, t, hclosed, hc⟩ := Json.exists_closed_cons hd f n r
  rw [hclosed]
  exact endsLiteral_cons hc t

theorem spells_word (h : WordLiteral w v) (hw : w.all isWordChar = true) : Spells w v :=
  fun _ hrest => .word ⟨rfl, List.all_eq_true.1 hw, fun c hc => (hrest c hc).1⟩ h

theorem spells_bool (b : Bool) : Spells (if b then "true" else "false") (.bool b) := by
  cases b with
  | true => exact spells_word .true (by decide)
  | false => exact spells_word .false (by decide)

theorem spells_text (t : Text) : Spells (writeText false t) (.text (unescaped t)) :=
  fun rest _ => .string (stringLiteral_writeText t rest)

/-! ### Lists -/

theorem blanks_newline (f : Format) (n : Nat) (t : Text) : Blanks (newline f n ++ t) t :=
  ⟨newline f n, rfl, fun c hc => Json.isBlank_of_isSpace (Json.isSpace_of_mem_newline f n c hc)⟩

/-- The items of a list are found one by one. -/
theorem items_joined (f : Format) (level : Nat) (h : List.Forall₂ Spells ws vs) (hne : ws ≠ [])
    (r : Text) : Items Literal (newline f level ++
      (Text.joined (',' :: newline f level) ws ++ closed f (level - 1) ']' r)) vs r := by
  induction h with
  | nil => exact absurd rfl hne
  | @cons w v ws vs hw hws ih =>
    cases hws with
    | nil =>
      rw [Text.joined_singleton]
      refine .last (blanks_newline f level _) (hw _ ?_) (blanks_newline f (level - 1) _)
      exact endsLiteral_closed (by decide) f (level - 1) r
    | @cons u x us xs hu hus =>
      rw [Json.joined_append]
      refine .more (blanks_newline f level _) (hw _ ?_) (.refl _) (ih (List.cons_ne_nil u us))
      exact endsLiteral_cons (by decide) _

/-- **A list is spelled by its items.** -/
theorem spells_list (h : List.Forall₂ Spells ws vs) (f : Format) (level : Nat) :
    Spells (Json.enclose f level '[' ']' ws) (.list vs) := by
  intro rest _
  by_cases hne : ws = []
  · subst hne
    obtain rfl := List.forall₂_nil_left_iff.1 h
    exact .list (.close (.refl _))
  · rw [Json.enclose_append hne]
    exact .list (items_joined f level h hne rest)

/-! ### Dictionaries -/

/-- The text of an entry: a key as a string, and a text that spells its value. -/
def SpellsEntry (f : Format) (t : Text) (e : Text × Value) : Prop :=
  ∃ key w, t = writeText false key ++ colon f ++ w ∧ e.1 = unescaped key ∧ Spells w e.2

/-- An entry is found as its key, a colon and its value. -/
theorem SpellsEntry.entry {e : Text × Value} (h : SpellsEntry f t e) (hs : Blanks s (t ++ r))
    (hr : EndsLiteral r) : Entry Literal s e r := by
  obtain ⟨key, w, rfl, hkey, hw⟩ := h
  obtain ⟨space, hcolon, hspace⟩ := Json.exists_colon f
  have hblanks : Blanks (space ++ (w ++ r)) (w ++ r) :=
    ⟨space, rfl, fun c hc => Json.isBlank_of_isSpace (hspace c hc)⟩
  rw [List.append_assoc, List.append_assoc, hcolon] at hs
  have hstring := stringLiteral_writeText key (':' :: space ++ (w ++ r))
  rw [← hkey] at hstring
  exact .mk hs (.string hstring) (.refl _) hblanks (hw r hr)

/-- The entries of a dictionary are found one by one. -/
theorem entries_joined (level : Nat) (h : List.Forall₂ (SpellsEntry f) ts rows) (hne : ts ≠ [])
    (r : Text) : Entries Literal (newline f level ++
      (Text.joined (',' :: newline f level) ts ++ closed f (level - 1) '\x7d' r)) rows r := by
  induction h with
  | nil => exact absurd rfl hne
  | @cons t e ts rows ht hts ih =>
    cases hts with
    | nil =>
      rw [Text.joined_singleton]
      refine .last (ht.entry (blanks_newline f level _) ?_) (blanks_newline f (level - 1) _)
      exact endsLiteral_closed (by decide) f (level - 1) r
    | @cons u x us xs hu hus =>
      rw [Json.joined_append]
      refine .more (ht.entry (blanks_newline f level _) ?_) (.refl _) (ih (List.cons_ne_nil u us))
      exact endsLiteral_cons (by decide) _

/-- **A dictionary is spelled by its entries**, those with one key gathered. -/
theorem spells_dict (h : List.Forall₂ (SpellsEntry f) ts rows) (level : Nat) :
    Spells (Json.enclose f level '\x7b' '\x7d' ts) (Value.dictOf (named rows)) := by
  intro rest _
  have hgather := Value.gathers_gather rows
  rw [Value.dictOf_named]
  by_cases hne : ts = []
  · subst hne
    obtain rfl := List.forall₂_nil_left_iff.1 h
    exact .dict (.close (.refl _)) hgather
  · rw [Json.enclose_append hne]
    exact .dict (entries_joined level h hne rest) hgather

/-! ### Written data -/

/-- The text is a literal of what is left of the value. -/
def Leaves (w : Text) (v : Value) : Prop := Spells w (reread v)

theorem leaves_int {n : Int} (hw : Integer.write n = .ok w) : Leaves w (.int n) := by
  obtain ⟨hlength, rfl⟩ := Integer.write_eq_ok_iff.1 hw
  intro rest hrest
  exact literal_integer hlength fun c hc => (hrest c hc).2

theorem leaves_list (h : List.Forall₂ Leaves ws vs) (f : Format) (level : Nat) :
    Leaves (Json.enclose f level '[' ']' ws) (.list vs) := by
  have hitems : List.Forall₂ Spells ws (vs.map reread) := List.forall₂_map_right_iff.2 h
  rw [Leaves, reread, Value.rereadItems_eq_map]
  exact spells_list hitems f level

theorem leaves_dict (h : List.Forall₂ (Json.EntryOf Leaves f) ts rows) (level : Nat) :
    Leaves (Json.enclose f level '\x7b' '\x7d' ts) (.dict (named rows)) := by
  have hentries : List.Forall₂ (SpellsEntry f) ts (rows.map rereadEntry) := by
    refine List.forall₂_map_right_iff.2 (h.imp fun t e ht => ?_)
    obtain ⟨w, rfl, hw⟩ := ht
    exact ⟨e.1, w, rfl, rfl, hw⟩
  rw [Leaves, Value.reread_dict_named]
  exact spells_dict hentries level

/-- **What is written of a value is a literal of what is left of it**, if so it is of its parts. -/
theorem composes_leaves : Json.Composes Leaves where
  null := spells_word .null (by decide)
  bool := spells_bool
  int := leaves_int
  text := spells_text
  list := leaves_list
  dict h _ := leaves_dict h

/-- **Canonical JSON in braces is read as what is left of the data**, with the entries of every
dictionary in the order of their keys, on one line or on several.  This is the data in order exactly
if it has no control characters but line ends and tabs in its texts and keys, and no integers beyond
the doubles. -/
theorem read_braced_document {v : Value} (hv : Data v) (lines : Bool) :
    ∃ t, Json.document lines v = .ok t ∧
      Attribute.read (braced t) = .ok (reread (ordered v)) ∧
      (reread (ordered v) = ordered v ↔ v.Kept) := by
  have hkept := Value.reread_ordered_eq_iff hv
  cases lines with
  | false =>
    obtain ⟨w, hw, hspells⟩ := composes_leaves.exists_write (f := Json.canonicalLine) rfl rfl hv 0
    exact ⟨w, hw, read_braced (hspells _ (endsLiteral_cons (by decide) [])) (.refl _), hkept⟩
  | true =>
    obtain ⟨w, hw, hspells⟩ := composes_leaves.exists_write (f := Json.canonicalLines) rfl rfl hv 0
    refine ⟨w ++ ['\n'], ?_, ?_, hkept⟩
    · rw [Json.document, if_pos rfl, Json.pretty, hw]
      rfl
    · have hliteral := hspells ['\n', '\x7d'] (endsLiteral_cons (by decide) _)
      rw [List.append_cons] at hliteral
      exact read_braced hliteral ⟨['\n'], rfl, List.forall_mem_singleton.2 (by decide)⟩

/-- Every kind of quote, backslash and brace, with a line end, a tab and a character beyond ASCII. -/
def awkward : Text := "\"'\x60\\n$\x7bé\x7d\n\t\x7f"

/-- Entries that stand across, an awkward text, and an integer that no double is. -/
theorem read_braced_document_awkward :
    ∃ t, Json.document false (.list [Json.across, .text awkward, .int 9007199254740993]) = .ok t ∧
      Attribute.read (braced t) =
        .ok (.list [Json.straight (.bool true), .text awkward, .int 9007199254740993]) := by
  have hdata : Data (.list [Json.across, .text awkward, .int 9007199254740993]) := by
    refine .list ?_
    simpa using ⟨Json.data_across, Data.text awkward, Data.int (by decide)⟩
  have hordered : ordered (.list [Json.across, .text awkward, .int 9007199254740993]) =
      .list [Json.straight (.bool true), .text awkward, .int 9007199254740993] := by
    rw [← Json.ordered_across]
    rfl
  have hinner : Value.Kept (.dict (named [("y", .int 1), ("x", .bool true)])) := by
    have hone : Value.Kept (.int 1) := .int (Double.lt_wholeLimit_of_length (by decide))
    exact .dict (by decide) (by simpa using ⟨hone, .bool true⟩)
  have hacross : Json.across.Kept :=
    .dict (by decide) (by simpa using ⟨.list (by simpa using hinner), .null⟩)
  have hkept : Value.Kept (.list [Json.across, .text awkward, .int 9007199254740993]) := by
    refine .list ?_
    simpa using ⟨hacross, .text (by decide), .int (Double.lt_wholeLimit_of_length (by decide))⟩
  obtain ⟨t, ht, hread, hiff⟩ := read_braced_document hdata false
  rw [hiff.2 hkept, hordered] at hread
  exact ⟨t, ht, hread⟩

/-- A carriage return is read as the letter of its escape. -/
theorem read_braced_return :
    Data (.text "\r") ∧ Json.canonical (.text "\r") = .ok "\"\\r\"".toList ∧
      Attribute.read (braced "\"\\r\"") = .ok (.text "r") ∧
      Attribute.read (braced "\"\\r\"") ≠ .ok (ordered (.text "\r")) := by
  have hread : Attribute.read (braced "\"\\r\"") = .ok (.text "r") := rfl
  have hordered : ordered (.text "\r") = .text "\r" := rfl
  refine ⟨.text _, rfl, hread, ?_⟩
  rw [hread, hordered]
  simp

end Attribute

end SpacingClasses
