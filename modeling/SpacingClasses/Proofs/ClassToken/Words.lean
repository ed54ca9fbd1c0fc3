import SpacingClasses.Proofs.ClassToken.Entries
import SpacingClasses.Proofs.Suffix.Tidy

/-!
# Class names are the words of their text

The class names of a value are put into one text with a space between them, and found again as the
words of that text.

* `ClassToken.solid_of_mem` : no class name of a compactable value has a blank in it;
* `words_convertSpacing` : **the class names of a compactable value are the words** of the text that
  they are put into.
-/

namespace SpacingClasses

open Breakpoint (tierNames baseName keyMark)
open Text (Solid words)

variable {p v : Value} {stem key classes : Text} {shape : Shape} {ts : List ClassToken}
  {t : ClassToken}

/-! ### Entries -/

/-- The keys and the values of a shape are fit for class names without blanks. -/
theorem Shape.compactable_entries (hv : v.Compactable) (h : Shape.ofValue v = .ok shape) :
    ∀ e ∈ shape.entries, Solid e.1 ∧ e.2.Compactable := by
  have hnames : ∀ name ∈ tierNames, Solid name := by decide
  -- what is neither rows nor entries is the only entry
  have hsingle (hshape : Shape.ofValue v = .ok (.single v Value.singleLabel)) :
      ∀ e ∈ shape.entries, Solid e.1 ∧ e.2.Compactable := by
    rw [hshape] at h
    cases h
    intro e he
    rw [List.mem_singleton.1 he]
    exact ⟨hnames baseName List.mem_cons_self, hv⟩
  cases hv with
  | list hitems | tuple hitems =>
    cases h
    intro e he
    obtain ⟨hname, hitem⟩ := List.of_mem_zip he
    exact ⟨hnames e.1 hname, hitems e.2 hitem⟩
  | dict hkeys hvalues =>
    rw [Shape.ofValue, displayKeys_named] at h
    cases h
    exact fun e he => ⟨hkeys e he, hvalues e he⟩
  | null | bool | int | float | decimal | text => exact hsingle rfl

namespace ClassToken

/-! ### Tokens -/

theorem text_ne_nil (t : ClassToken) : t.text ≠ [] := by
  simp [text]

theorem solid_keyMark (h : Solid key) : Solid (keyMark key) := by
  have hcolon : Solid ":".toList := by decide
  rw [keyMark]
  split
  · exact Text.solid_nil
  · exact Text.solid_append.2 ⟨h, hcolon⟩

theorem IsOf.solid_text (h : IsOf stem key v t) (hstem : Solid stem) (hkey : Solid key)
    (hv : v.Compactable) : Solid t.text := by
  have hmark : Solid t.mark := h.mark_eq ▸ solid_keyMark hkey
  have hsuffix : Solid t.suffix := Suffix.solid_ofValue hv h.suffix
  have hhyphen : Text.isBlank '-' = false := by decide
  simp [text, h.stem_eq, hmark, hstem, hhyphen, hsuffix]

/-- No class name of a compactable value has a blank in it. -/
theorem solid_of_mem (hv : v.Compactable) (h : ofValue p v = .ok ts) :
    ∀ t ∈ ts, Solid t.text := by
  have hstems : ∀ stem ∈ Property.stems.map (·.2), Solid stem := by decide +kernel
  obtain ⟨stem, shape, hstem, hshape, hentries⟩ := exists_shape h
  intro t ht
  obtain ⟨e, he, hof⟩ := hentries t ht
  obtain ⟨hkey, hvalue⟩ := Shape.compactable_entries hv hshape e he
  exact hof.solid_text (hstems stem hstem) hkey hvalue

end ClassToken

/-! ### The text of class names -/

/-- **The class names of a compactable value are the words of the text that they are put into**, in
their order, and this text is empty only if there are none. -/
theorem words_convertSpacing (hv : v.Compactable) (h : convertSpacing p v = .ok classes) :
    ∃ ts, ClassToken.ofValue p v = .ok ts ∧ (∀ t ∈ ts, Solid t.text) ∧
      spacingClasses p v = .ok (ts.map ClassToken.text) ∧
      words classes = ts.map ClassToken.text ∧ (classes = [] ↔ ts = []) := by
  obtain ⟨names, hnames, h⟩ := bind_eq_ok_iff.1 h
  cases h
  obtain ⟨ts, hts, hmap⟩ := bind_eq_ok_iff.1 hnames
  cases hmap
  have hsolid := ClassToken.solid_of_mem hv hts
  have hwords : ∀ name ∈ ts.map ClassToken.text, name ≠ [] ∧ Solid name :=
    List.forall_mem_map.2 fun t ht => ⟨t.text_ne_nil, hsolid t ht⟩
  refine ⟨ts, hts, hsolid, hnames, Text.words_joined hwords, ?_⟩
  rw [Text.joined_eq_nil_iff hwords, List.map_eq_nil_iff]

/-- Entries of several kinds, with blanks in a compact function within a list. -/
def Value.spacedFunctions : Value :=
  .dict (Value.named [("base", .list [.null, .text "calc(1px + 2px)"]), ("any-name", .float .nan),
    ("md", .decimal (.infinite true)), ("lg", .text [])])

theorem compactable_spacedFunctions : Value.spacedFunctions.Compactable := by
  have hcalc : Suffix.Compactable "calc(1px + 2px)" :=
    .inr ⟨"calc", List.mem_cons_self, [], "(1px + 2px)", rfl⟩
  have hlist : Value.Compactable (.list [.null, .text "calc(1px + 2px)"]) :=
    .list (List.forall_mem_cons.2 ⟨.null, List.forall_mem_singleton.2 (.text hcalc)⟩)
  refine .dict (by decide) ?_
  refine List.forall_mem_cons.2 ⟨hlist, List.forall_mem_cons.2 ⟨.float _, ?_⟩⟩
  exact List.forall_mem_cons.2 ⟨.decimal _, List.forall_mem_singleton.2 (.text (.inl (by decide)))⟩

/-- Their class names. -/
def spacedClasses : Text :=
  "mx-[[null,\"calc(1px+2px)\"]] any-name:mx-[NaN] md:mx-[-Infinity]"

theorem words_convertSpacing_spacedFunctions :
    ∃ ts, ClassToken.ofValue (.text "marginX") Value.spacedFunctions = .ok ts ∧
      (∀ t ∈ ts, Solid t.text) ∧
      spacingClasses (.text "marginX") Value.spacedFunctions = .ok (ts.map ClassToken.text) ∧
      words spacedClasses = ts.map ClassToken.text ∧ (spacedClasses = [] ↔ ts = []) :=
  words_convertSpacing compactable_spacedFunctions rfl

end SpacingClasses
