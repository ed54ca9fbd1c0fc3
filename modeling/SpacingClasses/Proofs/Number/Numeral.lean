import SpacingClasses.Number.Numeral
import Mathlib.Data.List.Forall2

/-!
# What a numeral is

`Numeral.Writes w n` says of a whole text `w`, without a reader, that it writes the numeral `n`: an
optional sign, a mantissa with a digit on one side of its point at least, and an optional exponent.

* `Numeral.read?_of_writes` : a numeral is read to its end before what cannot go on with it;
* `Numeral.writes_of_read?` : what is read is a numeral at the front of the text;
* `Numeral.whole?_eq_some_iff` : the texts that are numerals in full are those that write one.
-/

namespace SpacingClasses

namespace Numeral

open Text (digitValue? spanDigits ofDigits)

/-- A row of decimal digits of any script, with the numbers that they stand for. -/
def Digits : Text → List Nat → Prop := List.Forall₂ fun c d => digitValue? c = some d

/-- An optional sign, and whether it is a minus. -/
inductive WritesSign : Text → Bool → Prop where
  | none : WritesSign [] false
  | plus : WritesSign ['+'] false
  | minus : WritesSign ['-'] true

/-- A mantissa with its digits, and how many of them stand after the point. -/
inductive WritesMantissa : Text → List Nat → Nat → Prop where
  | whole {w ds} (hw : Digits w ds) (hne : ds ≠ []) : WritesMantissa w ds 0
  | point {w ds f es} (hw : Digits w ds) (hf : Digits f es) (hne : ds ++ es ≠ []) :
      WritesMantissa (w ++ '.' :: f) (ds ++ es) es.length

/-- A whole number with a sign. -/
def signedDigits (negative : Bool) (ds : List Nat) : Int :=
  if negative then -(ofDigits ds : Int) else ofDigits ds

/-- An optional exponent with its value. -/
inductive WritesExponent : Text → Int → Prop where
  | none : WritesExponent [] 0
  | some {c s negative w ds} (hc : c = 'e' ∨ c = 'E') (hs : WritesSign s negative)
      (hw : Digits w ds) (hne : ds ≠ []) :
      WritesExponent (c :: (s ++ w)) (signedDigits negative ds)

/-- The text writes the numeral. -/
inductive Writes : Text → Numeral → Prop where
  | mk {s negative m ds places x exponent} (hs : WritesSign s negative)
      (hm : WritesMantissa m ds places) (hx : WritesExponent x exponent) :
      Writes (s ++ (m ++ x)) ⟨negative, ds, exponent - places⟩

/-- Nothing at the front of a text goes on with a row of digits. -/
def EndsDigits (rest : Text) : Prop := ∀ c ∈ rest.head?, digitValue? c = none

/-- Nothing at the front of a text goes on with a mantissa. -/
def EndsMantissa (rest : Text) : Prop := ∀ c ∈ rest.head?, digitValue? c = none ∧ c ≠ '.'

/-- Nothing at the front of a text goes on with a numeral. -/
def EndsNumeral (rest : Text) : Prop :=
  ∀ c ∈ rest.head?, digitValue? c = none ∧ c ≠ '.' ∧ c ≠ 'e' ∧ c ≠ 'E'

variable {t w s m x rest : Text} {ds : List Nat} {places : Nat} {exponent : Int}
  {negative : Bool} {n : Numeral}

theorem EndsMantissa.endsDigits (h : EndsMantissa rest) : EndsDigits rest := fun c hc => (h c hc).1

theorem EndsNumeral.endsMantissa (h : EndsNumeral rest) : EndsMantissa rest :=
  fun c hc => ⟨(h c hc).1, (h c hc).2.1⟩

theorem endsNumeral_nil : EndsNumeral [] := by simp [EndsNumeral]

/-! ### Digits -/

theorem Digits.ne_nil (h : Digits w ds) (hne : ds ≠ []) : w ≠ [] := by
  rintro rfl
  exact hne (List.forall₂_nil_left_iff.1 h)

theorem spanDigits_append (h : Digits w ds) (hrest : EndsDigits rest) :
    spanDigits (w ++ rest) = (ds, rest) := by
  induction h with
  | nil =>
    cases rest with
    | nil => rfl
    | cons c r =>
      have hc : digitValue? c = none := hrest c (by simp)
      simp [spanDigits, hc]
  | cons hc _ ih =>
    simp only [List.cons_append, spanDigits, hc]
    rw [ih]

theorem exists_digits (t : Text) : ∃ w, t = w ++ (spanDigits t).2 ∧ Digits w (spanDigits t).1 := by
  induction t with
  | nil => exact ⟨[], rfl, .nil⟩
  | cons c t ih =>
    obtain ⟨w, ht, hw⟩ := ih
    cases hc : digitValue? c with
    | none => exact ⟨[], by simp [spanDigits, hc], by simpa [spanDigits, hc] using .nil⟩
    | some d =>
      refine ⟨c :: w, ?_, ?_⟩
      · simp only [spanDigits, hc, List.cons_append]
        rw [← ht]
      · simp only [spanDigits, hc]
        exact .cons hc hw

theorem digits_of_spanDigits (h : spanDigits t = (ds, rest)) :
    ∃ w, t = w ++ rest ∧ Digits w ds := by
  have := exists_digits t
  rwa [h] at this

/-- A row of digits starts with none of the marks of a numeral. -/
theorem Digits.head?_ne (h : Digits w ds) {c : Char} (hc : c ∈ w.head?) :
    (digitValue? c).isSome = true := by
  cases h with
  | nil => cases hc
  | cons hd _ =>
    obtain rfl := Option.some.inj hc
    simp [hd]

/-! ### Signs -/

theorem sign_append (h : WritesSign s negative) (hrest : ∀ c ∈ rest.head?, c ≠ '-' ∧ c ≠ '+') :
    sign (s ++ rest) = (negative, rest) := by
  cases h with
  | plus => rfl
  | minus => rfl
  | none =>
    cases rest with
    | nil => rfl
    | cons c r =>
      obtain ⟨hminus, hplus⟩ := hrest c (by simp)
      rw [List.nil_append, sign]
      · simp [hminus]
      · simp [hplus]

theorem writesSign_of_sign (t : Text) : ∃ s, t = s ++ (sign t).2 ∧ WritesSign s (sign t).1 := by
  rw [sign.eq_def]
  split
  · exact ⟨['-'], rfl, .minus⟩
  · exact ⟨['+'], rfl, .plus⟩
  · exact ⟨[], rfl, .none⟩

/-! ### Mantissas -/

theorem mantissa?_append (h : WritesMantissa m ds places) (hrest : EndsMantissa rest) :
    mantissa? (m ++ rest) = some (ds, places, rest) := by
  have hdot : digitValue? '.' = none := by decide
  cases h with
  | whole hw hne =>
    have hspan := spanDigits_append hw hrest.endsDigits
    obtain ⟨d, ds', rfl⟩ := List.exists_cons_of_ne_nil hne
    simp only [mantissa?, hspan]
    -- of the four ways to go on, only that without a point is left
    split
    · rename_i h; cases h
    · rename_i h; cases h
    · rename_i h
      obtain ⟨-, rfl⟩ := Prod.mk.inj h
      exact absurd rfl (hrest '.' (by simp)).2
    · rename_i h
      obtain ⟨rfl, rfl⟩ := Prod.mk.inj h
      rfl
  | @point w whole f es hw hf hne =>
    have hfspan := spanDigits_append hf hrest.endsDigits
    have hspan : spanDigits (w ++ '.' :: f ++ rest) = (whole, '.' :: (f ++ rest)) := by
      rw [List.append_assoc]
      refine spanDigits_append hw fun c hc => ?_
      obtain rfl := Option.some.inj hc
      exact hdot
    simp only [mantissa?, hspan]
    cases whole with
    | cons d ds' => simp [hfspan]
    | nil =>
      obtain ⟨e, es', rfl⟩ := List.exists_cons_of_ne_nil (by simpa using hne)
      simp [hfspan]

theorem writesMantissa_of_mantissa? (h : mantissa? t = some (ds, places, rest)) :
    ∃ m, t = m ++ rest ∧ WritesMantissa m ds places := by
  rw [mantissa?] at h
  split at h
  · rename_i r hspan
    obtain ⟨w, rfl, hw⟩ := digits_of_spanDigits hspan
    split at h
    · cases h
    · rename_i f r' hne hfspan
      simp only [Option.some.injEq, Prod.mk.injEq] at h
      obtain ⟨rfl, rfl, rfl⟩ := h
      obtain ⟨v, rfl, hv⟩ := digits_of_spanDigits hfspan
      exact ⟨w ++ '.' :: v, by simp, .point hw hv (by simpa using hne)⟩
  · cases h
  · rename_i whole r hne hspan
    simp only [Option.some.injEq, Prod.mk.injEq] at h
    obtain ⟨rfl, rfl, rfl⟩ := h
    obtain ⟨w, rfl, hw⟩ := digits_of_spanDigits hspan
    obtain ⟨v, hr, hv⟩ := exists_digits r
    refine ⟨w ++ '.' :: v, ?_, .point hw hv ?_⟩
    · rw [List.append_assoc, List.cons_append, ← hr]
    · exact fun h => hne (List.append_eq_nil_iff.1 h).1
  · rename_i whole r hne hdot hspan
    simp only [Option.some.injEq, Prod.mk.injEq] at h
    obtain ⟨rfl, rfl, rfl⟩ := h
    obtain ⟨w, rfl, hw⟩ := digits_of_spanDigits hspan
    exact ⟨w, rfl, .whole hw hne⟩

/-! ### Exponents -/

theorem exponentPart_append (h : WritesExponent x exponent) (hrest : EndsNumeral rest) :
    exponentPart (x ++ rest) = (exponent, rest) := by
  cases h with
  | none =>
    cases rest with
    | nil => rfl
    | cons c r =>
      obtain ⟨-, -, he, hE⟩ := hrest c (by simp)
      simp [exponentPart, he, hE]
  | @some c s negative w ds hc hs hw hne =>
    have hspan := spanDigits_append hw hrest.endsMantissa.endsDigits
    have hsign : sign (s ++ (w ++ rest)) = (negative, w ++ rest) := by
      refine sign_append hs fun d hd => ?_
      rw [List.head?_append, Option.or_of_isSome (by simpa using hw.ne_nil hne)] at hd
      have := hw.head?_ne hd
      constructor
      · rintro rfl; exact absurd this (by decide)
      · rintro rfl; exact absurd this (by decide)
    obtain ⟨d, ds', rfl⟩ := List.exists_cons_of_ne_nil hne
    have hmark : (decide (c = 'e') || decide (c = 'E')) = true := by simpa using hc
    simp only [List.cons_append, List.append_assoc, exponentPart, hmark, ↓reduceIte, hsign, hspan]
    rfl

theorem writesExponent_of_exponentPart (t : Text) :
    ∃ x, t = x ++ (exponentPart t).2 ∧ WritesExponent x (exponentPart t).1 := by
  cases t with
  | nil => exact ⟨[], rfl, .none⟩
  | cons c r =>
    obtain ⟨s, hr, hs⟩ := writesSign_of_sign r
    obtain ⟨w, hw, hds⟩ := exists_digits (sign r).2
    by_cases hc : (decide (c = 'e') || decide (c = 'E')) = true
    · simp only [exponentPart, hc, ↓reduceIte]
      cases hspan : spanDigits (sign r).2 with
      | mk ds r' =>
        rw [hspan] at hw hds
        cases ds with
        -- a mark without digits is no exponent and is given back
        | nil => exact ⟨[], rfl, .none⟩
        | cons d ds =>
          refine ⟨c :: (s ++ w), ?_, .some (by simpa using hc) hs hds (by simp)⟩
          rw [List.cons_append, List.append_assoc, ← hw, ← hr]
    · simp only [exponentPart, hc]
      exact ⟨[], rfl, .none⟩

/-! ### Numerals -/

/-- A mantissa starts with a digit or with the point. -/
theorem WritesMantissa.head? (h : WritesMantissa m ds places) {c : Char}
    (hc : c ∈ (m ++ rest).head?) : (digitValue? c).isSome = true ∨ c = '.' := by
  cases h with
  | whole hw hne =>
    rw [List.head?_append, Option.or_of_isSome (by simpa using hw.ne_nil hne)] at hc
    exact .inl (hw.head?_ne hc)
  | point hw _ _ =>
    cases hw with
    | nil => exact .inr (Option.some.inj hc).symm
    | cons hd _ =>
      obtain rfl := Option.some.inj hc
      exact .inl (by simp [hd])

/-- A numeral is read to its end before anything that cannot go on with it. -/
theorem read?_of_writes (h : Writes w n) (hrest : EndsNumeral rest) :
    read? (w ++ rest) = some (n, rest) := by
  obtain @⟨s, negative, m, ds, places, x, exponent, hs, hm, hx⟩ := h
  -- each part ends where the next one starts: a mantissa with no sign, an exponent with no digit
  have hsign : sign (s ++ (m ++ (x ++ rest))) = (negative, m ++ (x ++ rest)) := by
    refine sign_append hs fun c hc => ?_
    constructor
    · rintro rfl; exact absurd (hm.head? hc) (by decide)
    · rintro rfl; exact absurd (hm.head? hc) (by decide)
  have hexponent : EndsMantissa (x ++ rest) := by
    cases hx with
    | none => exact hrest.endsMantissa
    | some hc _ _ _ =>
      intro e he
      obtain rfl := Option.some.inj he
      rcases hc with rfl | rfl <;> decide
  rw [List.append_assoc, List.append_assoc, read?]
  simp only [hsign, mantissa?_append hm hexponent, exponentPart_append hx hrest]

/-- What is read is a numeral at the front of the text. -/
theorem writes_of_read? (h : read? t = some (n, rest)) : ∃ w, t = w ++ rest ∧ Writes w n := by
  obtain ⟨s, ht, hs⟩ := writesSign_of_sign t
  simp only [read?] at h
  cases hmantissa : mantissa? (sign t).2 with
  | none => simp [hmantissa] at h
  | some part =>
    obtain ⟨ds, places, r⟩ := part
    simp only [hmantissa, Option.some.injEq, Prod.mk.injEq] at h
    obtain ⟨rfl, rfl⟩ := h
    obtain ⟨m, hm, hwm⟩ := writesMantissa_of_mantissa? hmantissa
    obtain ⟨x, hx, hwx⟩ := writesExponent_of_exponentPart r
    refine ⟨s ++ (m ++ x), ?_, .mk hs hwm hwx⟩
    rw [List.append_assoc, List.append_assoc, ← hx, ← hm, ← ht]

/-- **The texts that are numerals in full** are those that write one. -/
theorem whole?_eq_some_iff : whole? t = some n ↔ Writes t n := by
  constructor
  · intro h
    rw [whole?] at h
    split at h
    · rename_i m hread
      obtain rfl := Option.some.inj h
      obtain ⟨w, rfl, hw⟩ := writes_of_read? hread
      rwa [List.append_nil]
    · cases h
  · intro h
    have := read?_of_writes h endsNumeral_nil
    rw [List.append_nil] at this
    rw [whole?, this]

end Numeral

end SpacingClasses
