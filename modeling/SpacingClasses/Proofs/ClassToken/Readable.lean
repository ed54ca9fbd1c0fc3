import SpacingClasses.Proofs.Answer
import SpacingClasses.Proofs.ClassToken.Named
import SpacingClasses.Proofs.Json.Writing
import SpacingClasses.Proofs.Value.Readable

/-!
# The classes of readable values

Only one thing keeps a readable value from having class names: the pixels of a negative integer that
has as many digits as can be written.

* `Json.exists_write_of_readable` : a readable value is written as JSON, in any format;
* `Suffix.answers_ofValue` : it has a suffix, or is such an integer;
* `ClassToken.answers_ofShape` : so are the tokens of its shape found;
* `answers_convertSpacing`, `answers_overflowEntries` : and the class names and the entries past the
  last tier.
-/

namespace SpacingClasses

open Value (Readable named)

variable {long blocked : Prop} {raw : Text → Prop} {v : Value} {stem mark : Text}
  {items : List Value} {rows : List (Text × Value)}

/-! ### JSON -/

/-- A readable value is written as JSON, in any format. -/
theorem Json.exists_write_of_readable (f : Format) (hv : Readable long raw v) (level : Nat) :
    ∃ w, write f level v = .ok w := by
  induction hv generalizing level with
  | null => exact ⟨_, rfl⟩
  | bool b => exact ⟨_, rfl⟩
  | int h => exact Integer.exists_write h.length_le
  | float x => exact ⟨_, rfl⟩
  | text h => exact ⟨_, rfl⟩
  | list _ ih => exact exists_write_list_iff.2 fun v hv => ih v hv (level + 1)
  | dict _ _ ih => exact exists_write_dict_iff.2 fun e he => ih e he (level + 1)

/-! ### Suffixes -/

namespace Suffix

theorem answers_of_exists {x : Except Failure Text} (h : ∃ t, x = .ok t) :
    Answers (fun _ => True) long blocked x := by
  obtain ⟨t, rfl⟩ := h
  exact trivial

/-- An integer has a suffix, or too many digits for its pixels. -/
theorem answers_ofInt {n : Int} (h : Integer.Read long n) :
    Answers (fun _ => True) long blocked (ofInt n) := by
  rcases Nat.lt_or_eq_of_le h.length_le with hlt | heq
  · exact answers_of_exists ⟨_, ofInt_of_length hlt⟩
  · rw [ofInt_eq]
    split
    · exact trivial
    · exact .digitLimit _ (h.long_of_eq heq)

/-- **A readable value has a suffix**, or it is an integer with too many digits for its pixels. -/
theorem answers_ofValue (hv : Readable long raw v) :
    Answers (fun _ => True) long blocked (ofValue v) := by
  have hliteral : ∀ {x : Except Failure Text}, (∃ t, x = .ok t) →
      Answers (fun _ => True) long blocked (do return ofText (← x)) := by
    rintro x ⟨t, rfl⟩
    exact trivial
  cases hv with
  | null => exact trivial
  | bool b => exact hliteral ⟨_, rfl⟩
  | int h => exact answers_ofInt h
  | float x => exact trivial
  | text h => exact trivial
  | list h => exact hliteral (Json.exists_write_of_readable Json.inlineFormat (.list h) 0)
  | dict hkeys h =>
    exact hliteral (Json.exists_write_of_readable Json.inlineFormat (.dict hkeys h) 0)

end Suffix

/-! ### Tokens -/

/-- The values of the shape are readable, and its label is that of a single value. -/
inductive Shape.Readable (long : Prop) (raw : Text → Prop) : Shape → Prop where
  | single {value : Value} (h : value.Readable long raw) :
      Readable long raw (.single value Value.singleLabel)
  | tiers {values : List Value} (h : ∀ v ∈ values, v.Readable long raw) :
      Readable long raw (.tiers values)
  | keyed {entries : List (Text × Value)} (h : ∀ e ∈ entries, e.2.Readable long raw) :
      Readable long raw (.keyed entries)

/-- A readable value has a shape. -/
theorem Shape.exists_ofValue (hv : Value.Readable long raw v) :
    ∃ s, ofValue v = .ok s ∧ s.Readable long raw := by
  cases hv with
  | null => exact ⟨_, rfl, .single .null⟩
  | bool b => exact ⟨_, rfl, .single (.bool b)⟩
  | int h => exact ⟨_, rfl, .single (.int h)⟩
  | float x => exact ⟨_, rfl, .single (.float x)⟩
  | text h => exact ⟨_, rfl, .single (.text h)⟩
  | list h => exact ⟨_, rfl, .tiers h⟩
  | @dict rows _ h =>
    refine ⟨.keyed rows, ?_, .keyed h⟩
    rw [ofValue, displayKeys_named]
    rfl

namespace ClassToken

theorem answers_ofTier (hv : Readable long raw v) :
    Answers (fun _ => True) long blocked (ofTier stem mark v) :=
  (Suffix.answers_ofValue hv).bind fun _ _ => trivial

theorem answers_ofTiers (h : ∀ v ∈ items, Readable long raw v) (position : Nat) :
    Answers (fun _ => True) long blocked (ofTiers stem position items) := by
  induction items generalizing position with
  | nil => exact trivial
  | cons v items ih =>
    rw [List.forall_mem_cons] at h
    rw [ofTiers]
    split
    · exact ih h.2 (position + 1)
    · split
      · exact trivial
      · exact (answers_ofTier h.1).bind fun _ _ => (ih h.2 (position + 1)).bind fun _ _ => trivial

theorem answers_ofEntries (h : ∀ e ∈ rows, Readable long raw e.2) :
    Answers (fun _ => True) long blocked (ofEntries stem rows) := by
  induction rows with
  | nil => exact trivial
  | cons e rows ih =>
    rw [List.forall_mem_cons] at h
    exact (answers_ofTier h.1).bind fun _ _ => (ih h.2).bind fun _ _ => trivial

/-- **The tokens of a readable shape** are found but for an integer of too many digits. -/
theorem answers_ofShape {s : Shape} (hs : s.Readable long raw) :
    Answers (fun _ => True) long blocked (ofShape stem s) := by
  cases hs with
  | single h => exact answers_ofTier h
  | tiers h => exact answers_ofTiers h 0
  | keyed h => exact answers_ofEntries h

end ClassToken

/-! ### Class names -/

theorem Property.answers_stem (name : Text) :
    Answers (fun _ => True) long blocked (Property.stem name) := by
  rw [stem]
  split
  · exact trivial
  · exact .report _

/-- **The class names of a readable value** are found but for an integer of too many digits, if the
property is one. -/
theorem answers_convertSpacing (name : Text) (hv : Readable long raw v) :
    Answers (fun _ => True) long blocked (convertSpacing (.text name) v) := by
  obtain ⟨s, hs, hreadable⟩ := Shape.exists_ofValue hv
  have htokens : Answers (fun _ => True) long blocked (ClassToken.ofValue (.text name) v) := by
    refine (Property.answers_stem name).bind fun stem _ => ?_
    rw [hs, ok_bind]
    exact ClassToken.answers_ofShape hreadable
  have hclasses : Answers (fun _ => True) long blocked (spacingClasses (.text name) v) :=
    htokens.bind fun _ _ => trivial
  exact hclasses.bind fun _ _ => trivial

/-- The entries of a readable value past the last tier are found, and are readable. -/
theorem exists_overflowEntries (hv : Readable long raw v) :
    ∃ vs, overflowEntries v = .ok vs ∧ ∀ v ∈ vs, Readable long raw v := by
  obtain ⟨s, hs, hreadable⟩ := Shape.exists_ofValue hv
  rw [overflowEntries, hs, ok_bind]
  cases hreadable with
  | single h => exact ⟨[], rfl, by simp⟩
  | tiers h =>
    refine ⟨_, rfl, fun v hv => h v ?_⟩
    exact (List.drop_sublist _ _).subset ((List.filter_sublist).subset hv)
  | keyed h => exact ⟨[], rfl, by simp⟩

end SpacingClasses
