import SpacingClasses.Proofs.Suffix.Tidy

/-!
# Suffixes of suffixes

A suffix is a text, and so has a suffix itself.

* `exists_of_ofValue` : the suffix of a value is that of a number or that of a text;
* `tidy_of_ofValue` : there is nothing to tidy in a suffix;
* `ofText_bracketed` : a literal gets one more pair of brackets;
* `ofText_eq_self_iff` : **a text is its own suffix exactly if it is empty, `auto` or a step**;
* `ofValue_again` : **so the suffix of a value stays as it is only if it is one of these**, and a
  literal goes into brackets once more.
-/

namespace SpacingClasses

namespace Suffix

variable {v : Value} {s t : Text}

/-! ### Literals -/

theorem isBracketed_iff : isBracketed s = true ↔ ∃ t, s = bracketed t := by
  rw [isBracketed, Bool.and_eq_true, List.isPrefixOf_iff_prefix, List.isSuffixOf_iff_suffix]
  constructor
  · rintro ⟨⟨back, rfl⟩, front, h⟩
    cases front with
    | nil => cases h
    | cons c front =>
      obtain ⟨-, hback⟩ := List.cons.inj h
      exact ⟨front, congrArg ('[' :: ·) hback.symm⟩
  · rintro ⟨t, rfl⟩
    exact ⟨⟨t ++ [']'], rfl⟩, '[' :: t, rfl⟩

/-- A literal gets one more pair of brackets, around what is tidied. -/
theorem ofText_bracketed (t : Text) : ofText (bracketed t) = bracketed (bracketed (tidy t)) := by
  rw [(enclosed_bracketed t).ofText_eq, tidy_bracketed]

theorem bracketed_ne_self (t : Text) : bracketed t ≠ t := by
  intro h
  have hlength := congrArg List.length h
  simp only [bracketed, List.length_cons, List.length_append, List.length_nil] at hlength
  omega

/-! ### Texts that are their own suffix -/

/-- A step of the scale is its own suffix. -/
theorem ofText_of_isStep (h : Scale.isStep t = true) : ofText t = t := by
  have hsteps : ∀ name ∈ Scale.steps.map Step.name, ofText name = name := by decide +kernel
  exact hsteps t (Scale.isStep_iff.1 h)

/-- **A text is its own suffix exactly if it is empty, `auto` or a step of the scale.** -/
theorem ofText_eq_self_iff : ofText t = t ↔ t = [] ∨ t = auto ∨ Scale.isStep t = true := by
  constructor
  · intro h
    rcases ofText_cases t with hnil | hauto | hstep | ⟨u, hu⟩
    · exact .inl (h.symm.trans hnil)
    · exact .inr (.inl (h.symm.trans hauto))
    · rw [h] at hstep
      exact .inr (.inr hstep)
    · -- a literal would be as long as what is tidied in it
      obtain rfl : t = bracketed u := h.symm.trans hu
      rw [ofText_bracketed] at h
      have htidy : tidy (bracketed (tidy u)) = tidy u := by rw [bracketed_injective h]
      rw [tidy_bracketed, tidy_tidy] at htidy
      exact absurd htidy (bracketed_ne_self _)
  · rintro (rfl | rfl | hstep)
    · rfl
    · exact ofText_auto
    · exact ofText_of_isStep hstep

/-! ### Suffixes of values -/

/-- The suffix of a value is that of a number, or that of a text which shows the value. -/
theorem exists_of_ofValue (h : ofValue v = .ok s) :
    (∃ n, ofNumber n = .ok s) ∨ ∃ t, ofText t = s := by
  cases v with
  | null =>
    cases h
    exact .inr ⟨[], rfl⟩
  | int n => exact .inl ⟨.int n, h⟩
  | float x =>
    cases h
    split
    · exact .inl ⟨.double x, rfl⟩
    · exact .inr ⟨_, rfl⟩
  | decimal d =>
    rw [ofValue] at h
    split at h
    · rename_i n hn
      exact .inl ⟨n, h⟩
    · cases h
      exact .inr ⟨_, rfl⟩
  | text t =>
    cases h
    exact .inr ⟨t, rfl⟩
  | _ =>
    obtain ⟨t, -, h⟩ := bind_eq_ok_iff.1 h
    cases h
    exact .inr ⟨t, rfl⟩

/-- There is nothing to tidy in a suffix. -/
theorem tidy_of_ofValue (h : ofValue v = .ok s) : tidy s = s := by
  rcases exists_of_ofValue h with ⟨n, hn⟩ | ⟨t, rfl⟩
  · exact tidy_of_solid (solid_ofNumber hn)
  · rcases ofText_literal_or_solid t with hliteral | hsolid
    · rw [hliteral, tidy_bracketed, tidy_tidy]
    · exact tidy_of_solid hsolid

/-- **A text is its own suffix exactly if it is empty, `auto` or a step of the scale.**  Hence the
suffix of a value stays as it is exactly if it is one of these; a literal goes into brackets once
more. -/
theorem ofValue_again :
    (∀ t, ofValue (.text t) = .ok t ↔ t = [] ∨ t = auto ∨ Scale.isStep t = true) ∧
    ∀ v s, ofValue v = .ok s →
      (ofValue (.text s) = .ok s ↔ s = [] ∨ s = auto ∨ Scale.isStep s = true) ∧
      (isBracketed s = true → ofValue (.text s) = .ok (bracketed s)) := by
  have hself : ∀ t, ofValue (.text t) = .ok t ↔ t = [] ∨ t = auto ∨ Scale.isStep t = true := by
    intro t
    rw [ofValue, Except.ok.injEq, ofText_eq_self_iff]
  refine ⟨hself, fun v s h => ⟨hself s, fun hbrackets => ?_⟩⟩
  obtain ⟨t, rfl⟩ := isBracketed_iff.1 hbrackets
  rw [ofValue, ofText_bracketed, ← tidy_bracketed, tidy_of_ofValue h]

/-- A sum with blanks in it loses them once, and gains brackets each time. -/
theorem ofValue_again_calc :
    ofValue (.text "[calc(1px + 2px)]") = .ok "[[calc(1px+2px)]]".toList ∧
      ofValue (.text "[[calc(1px+2px)]]") = .ok "[[[calc(1px+2px)]]]".toList ∧
      ofValue (.text "[[calc(1px+2px)]]") ≠ .ok "[[calc(1px+2px)]]".toList := by
  have hsum : ofValue (.text "[calc(1px + 2px)]") = .ok "[[calc(1px+2px)]]".toList := by rfl
  obtain ⟨hfixed, hliteral⟩ := ofValue_again.2 _ _ hsum
  exact ⟨hsum, hliteral (by decide), mt hfixed.1 (by decide)⟩

end Suffix

end SpacingClasses
