import SpacingClasses.Proofs.ClassToken.Malformed

/-!
# Where a token comes from

Whatever its shape, a value has entries under names of tiers, and each of its tokens is that of an
entry.

* `Shape.entries` : the entries of a shape;
* `ClassToken.IsOf stem key v t` : the token `t` is that of the value `v` under a name;
* `ClassToken.exists_shape` : **every token of a value** is that of an entry of its shape.
-/

namespace SpacingClasses

open Breakpoint (tierNames baseName keyMark)

/-- The entries of a shape under names of tiers. -/
def Shape.entries : Shape → List (Text × Value)
  | single value _ => [(baseName, value)]
  | tiers items => tierNames.zip items
  | keyed entries => entries

namespace ClassToken

variable {p v leaf : Value} {stem key : Text} {shape : Shape} {entries : List (Text × Value)}
  {ts : List ClassToken} {t : ClassToken}

/-- The token has the stem, the mark of a name, and the suffix of a value, which is not empty. -/
structure IsOf (stem key : Text) (v : Value) (t : ClassToken) : Prop where
  mark_eq : t.mark = keyMark key
  stem_eq : t.stem = stem
  suffix : Suffix.ofValue v = .ok t.suffix
  suffix_ne_nil : t.suffix ≠ []

theorem isOf_of_ofTier (h : ofTier stem (keyMark key) v = .ok ts) (ht : t ∈ ts) :
    IsOf stem key v t := by
  obtain ⟨s, hs, h⟩ := bind_eq_ok_iff.1 h
  cases h
  split at ht
  · cases ht
  · rename_i hne
    obtain rfl := List.mem_singleton.1 ht
    exact ⟨rfl, rfl, hs, by simpa using hne⟩

theorem exists_entry_of_mem (h : ofEntries stem entries = .ok ts) (ht : t ∈ ts) :
    ∃ e ∈ entries, IsOf stem e.1 e.2 t := by
  induction entries generalizing ts with
  | nil =>
    cases h
    cases ht
  | cons e entries ih =>
    obtain ⟨first, hfirst, h⟩ := bind_eq_ok_iff.1 h
    obtain ⟨rest, hrest, h⟩ := bind_eq_ok_iff.1 h
    cases h
    rcases List.mem_append.1 ht with ht | ht
    · exact ⟨e, List.mem_cons_self, isOf_of_ofTier hfirst ht⟩
    · obtain ⟨d, hd, hof⟩ := ih hrest ht
      exact ⟨d, List.mem_cons_of_mem e hd, hof⟩

/-- The tokens of a shape are those of its entries. -/
theorem ofEntries_of_ofShape (h : ofShape stem shape = .ok ts) :
    ofEntries stem shape.entries = .ok ts := by
  cases shape with
  | single value label =>
    rw [ofShape] at h
    split at h
    · exact (ofEntries_base stem value).trans h
    · split_ifs at h
  | tiers items => exact (ofShape_tiers_eq_keyed stem items).symm.trans h
  | keyed entries => exact h

theorem stem_mem_of_stemOfValue (h : Property.stemOfValue p = .ok stem) :
    stem ∈ Property.stems.map (·.2) := by
  cases p with
  | text name =>
    rw [Property.stemOfValue, Property.stem] at h
    split at h
    · rename_i s hs
      cases h
      obtain ⟨before, after, hstems, -⟩ := List.lookup_eq_some_iff.1 hs
      rw [hstems]
      simp
    · cases h
  | _ =>
    obtain ⟨shown, -, h⟩ := bind_eq_ok_iff.1 h
    cases h

/-- **Every token of a value** has a stem of a property and is that of an entry of the value's
shape. -/
theorem exists_shape (h : ofValue p v = .ok ts) :
    ∃ stem shape, stem ∈ Property.stems.map (·.2) ∧ Shape.ofValue v = .ok shape ∧
      ∀ t ∈ ts, ∃ e ∈ shape.entries, IsOf stem e.1 e.2 t := by
  obtain ⟨stem, hstem, h⟩ := bind_eq_ok_iff.1 h
  obtain ⟨shape, hshape, h⟩ := bind_eq_ok_iff.1 h
  refine ⟨stem, shape, stem_mem_of_stemOfValue hstem, hshape, fun t ht => ?_⟩
  exact exists_entry_of_mem (ofEntries_of_ofShape h) ht

end ClassToken

end SpacingClasses
