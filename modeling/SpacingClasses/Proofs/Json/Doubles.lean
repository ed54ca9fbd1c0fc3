import SpacingClasses.Proofs.Json.RoundTrip
import SpacingClasses.Proofs.Number.Sign

/-!
# Doubles are read from what is written for them

* `Json.Fractional w` : the text `w` is a whole part with a fraction or an exponent, as JSON has them;
* `Shortest.fractional_text`, `Double.fractional_text` : so is what is written for a double;
* `Json.encodes_double` : **what is written for a double is read as some double**.
-/

namespace SpacingClasses

/-! ### Digits -/

namespace Text

variable {t : Text}

/-- The text is a row of digits, not of other scripts, and not empty. -/
structure DigitRow (t : Text) : Prop where
  ne_nil : t ≠ []
  all : ∀ c ∈ t, c.isDigit = true

theorem digitRow_ofNat (n : Nat) : DigitRow (ofNat n) :=
  ⟨ofNat_ne_nil n, fun _ => isDigit_of_mem_ofNat⟩

theorem DigitRow.append_zeros (h : DigitRow t) (n : Nat) :
    DigitRow (t ++ List.replicate n '0') := by
  refine ⟨List.append_ne_nil_of_left_ne_nil h.ne_nil _, List.forall_mem_append.2 ⟨h.all, ?_⟩⟩
  intro c hc
  rw [List.eq_of_mem_replicate hc]
  rfl

theorem DigitRow.zeros_append (h : DigitRow t) (n : Nat) :
    DigitRow (List.replicate n '0' ++ t) := by
  refine ⟨List.append_ne_nil_of_right_ne_nil _ h.ne_nil, List.forall_mem_append.2 ⟨?_, h.all⟩⟩
  intro c hc
  rw [List.eq_of_mem_replicate hc]
  rfl

theorem DigitRow.sublist {s : Text} (h : DigitRow t) (hs : s.Sublist t) (hne : s ≠ []) :
    DigitRow s :=
  ⟨hne, fun c hc => h.all c (hs.subset hc)⟩

theorem DigitRow.exists_cons (h : DigitRow t) : ∃ c s, t = c :: s ∧ c.isDigit = true := by
  obtain ⟨c, s, rfl⟩ := List.exists_cons_of_ne_nil h.ne_nil
  exact ⟨c, s, rfl, h.all c List.mem_cons_self⟩

/-- The digits of a row stand for numbers. -/
theorem DigitRow.exists_digits (h : DigitRow t) : ∃ ds, Numeral.Digits t ds ∧ ds ≠ [] := by
  have hdigits : ∀ s : Text, (∀ c ∈ s, c.isDigit = true) →
      Numeral.Digits s (s.map fun c => c.toNat - 48) := by
    intro s hs
    refine List.forall₂_map_right_iff.2 (List.forall₂_same.2 fun c hc => ?_)
    rw [digitValue?, if_pos (hs c hc)]
  exact ⟨_, hdigits t h.all, by simpa using h.ne_nil⟩

end Text

open Text (DigitRow)

namespace Json

open Numeral (EndsNumeral)

/-! ### Numbers with a fraction or an exponent -/

/-- A point with digits after it, or nothing. -/
inductive Fraction : Text → Prop where
  | none : Fraction []
  | some {t} (h : DigitRow t) : Fraction ('.' :: t)

/-- The mark of an exponent with a sign and digits, or nothing. -/
inductive Exponent : Text → Prop where
  | none : Exponent []
  | some {c t} (hsign : c = '+' ∨ c = '-') (h : DigitRow t) : Exponent ('e' :: c :: t)

/-- Digits that start with a zero only if there is no other digit, with a fraction or an exponent
behind them. -/
inductive Fractional : Text → Prop where
  | mk {whole fraction exponent} (hwhole : DigitRow whole)
      (hzero : whole.head? = some '0' → whole = ['0']) (hfraction : Fraction fraction)
      (hexponent : Exponent exponent) (hne : fraction ++ exponent ≠ []) :
      Fractional (whole ++ (fraction ++ exponent))

variable {whole fraction exponent w r s : Text} {c : Char}

theorem not_isDigit_of_exponent (h : Exponent exponent) (hr : EndsNumeral r) :
    ∀ c ∈ (exponent ++ r).head?, c.isDigit = false ∧ c ≠ '.' := by
  cases h with
  | none => exact fun c hc => ⟨isDigit_of_endsNumeral hr c hc, (hr c hc).2.1⟩
  | some _ _ =>
    rintro c ⟨⟩
    decide

theorem not_isDigit_of_fraction (h : Fraction fraction) (hexponent : Exponent exponent)
    (hr : EndsNumeral r) : ∀ c ∈ (fraction ++ (exponent ++ r)).head?, c.isDigit = false := by
  cases h with
  | none => exact fun c hc => (not_isDigit_of_exponent hexponent hr c hc).1
  | some _ =>
    rintro c ⟨⟩
    rfl

theorem wholeDigits?_append (h : DigitRow whole) (hzero : whole.head? = some '0' → whole = ['0'])
    (hr : ∀ c ∈ r.head?, c.isDigit = false) : wholeDigits? (whole ++ r) = some (whole, r) := by
  obtain ⟨c, s, rfl, hc⟩ := h.exists_cons
  by_cases hlead : c = '0'
  · subst hlead
    rw [hzero rfl]
    rfl
  · have hrun : Text.MaximalRun Char.isDigit (s ++ r) s r :=
      ⟨rfl, fun d hd => h.all d (List.mem_cons_of_mem c hd), hr⟩
    rw [List.cons_append, wholeDigits?, if_pos hc, hrun.takeWhile_eq, hrun.dropWhile_eq]
    exact hlead

theorem fractionPart_append (h : Fraction fraction)
    (hr : ∀ c ∈ r.head?, c.isDigit = false ∧ c ≠ '.') :
    fractionPart (fraction ++ r) = (fraction, r) := by
  cases h with
  | none =>
    rw [fractionPart.eq_def]
    split
    · rename_i d rest hpoint
      rw [List.nil_append] at hpoint
      exact absurd rfl (hr '.' (by rw [hpoint]; rfl)).2
    · rfl
  | some h =>
    obtain ⟨d, s, rfl, hd⟩ := h.exists_cons
    have hrun : Text.MaximalRun Char.isDigit (s ++ r) s r :=
      ⟨rfl, fun e he => h.all e (List.mem_cons_of_mem d he), fun c hc => (hr c hc).1⟩
    rw [List.cons_append, List.cons_append, fractionPart, if_pos hd, hrun.takeWhile_eq,
      hrun.dropWhile_eq]

theorem exponentPart_append (h : Exponent exponent) (hr : EndsNumeral r) :
    exponentPart (exponent ++ r) = (exponent, r) := by
  cases h with
  | none => exact exponentPart_eq hr
  | @some sign t hsign h =>
    have hrun : Text.MaximalRun Char.isDigit (t ++ r) t r :=
      ⟨rfl, h.all, isDigit_of_endsNumeral hr⟩
    have hne : t.isEmpty = false := by simpa using h.ne_nil
    rcases hsign with rfl | rfl
    all_goals
      rw [List.cons_append, List.cons_append, exponentPart.eq_def]
      simp [hrun.takeWhile_eq, hrun.dropWhile_eq, hne]

/-- A whole part with a fraction or an exponent writes a numeral. -/
theorem exists_whole? (hwhole : DigitRow whole) (hfraction : Fraction fraction)
    (hexponent : Exponent exponent) : ∃ n, Numeral.whole? (whole ++ fraction ++ exponent) = some n := by
  obtain ⟨ds, hds, hne⟩ := hwhole.exists_digits
  have hmantissa : ∃ es places, Numeral.WritesMantissa (whole ++ fraction) es places := by
    cases hfraction with
    | none =>
      rw [List.append_nil]
      exact ⟨ds, 0, .whole hds hne⟩
    | some h =>
      obtain ⟨es, hes, -⟩ := h.exists_digits
      exact ⟨_, _, .point hds hes (by simp [hne])⟩
  have hpower : ∃ k, Numeral.WritesExponent exponent k := by
    cases hexponent with
    | none => exact ⟨0, .none⟩
    | @some sign t hsign h =>
      obtain ⟨es, hes, hne⟩ := h.exists_digits
      rcases hsign with rfl | rfl
      · exact ⟨_, .some (s := ['+']) (.inl rfl) .plus hes hne⟩
      · exact ⟨_, .some (s := ['-']) (.inl rfl) .minus hes hne⟩
  obtain ⟨es, places, hmantissa⟩ := hmantissa
  obtain ⟨k, hpower⟩ := hpower
  exact ⟨_, Numeral.whole?_eq_some_iff.2 (.mk .none hmantissa hpower)⟩

/-- **A number with a fraction or an exponent is read as a double**, after a minus or without one. -/
theorem exists_readNumber (h : Fractional w) (negative : Bool) :
    ∃ x, ∀ r s, EndsNumeral r → minusPart s = (negative, w ++ r) →
      readNumber s = .ok (.float x, r) := by
  obtain @⟨whole, fraction, exponent, hwhole, hzero, hfraction, hexponent, hne⟩ := h
  obtain ⟨n, hn⟩ := exists_whole? hwhole hfraction hexponent
  have hdouble : (fraction.isEmpty && exponent.isEmpty) = false := by
    rw [Bool.eq_false_iff]
    simpa [List.isEmpty_iff] using hne
  refine ⟨{ n with negative := negative }.toDouble, fun r s hr hminus => ?_⟩
  rw [List.append_assoc, List.append_assoc] at hminus
  unfold readNumber
  simp only [hminus,
    wholeDigits?_append hwhole hzero (not_isDigit_of_fraction hfraction hexponent hr),
    fractionPart_append hfraction (not_isDigit_of_exponent hexponent hr),
    exponentPart_append hexponent hr, hdouble, hn]
  rfl

theorem Fractional.exists_cons (h : Fractional w) : ∃ c s, w = c :: s ∧ c.isDigit = true := by
  obtain ⟨hwhole, -, -, -, -⟩ := h
  obtain ⟨c, s, rfl, hc⟩ := hwhole.exists_cons
  exact ⟨c, _, rfl, hc⟩

end Json

/-! ### Written doubles -/

namespace Shortest

open Json (Fractional Fraction Exponent)

variable {s : Shortest} {digits : Text} {u : Nat}

theorem trimZeros_ne_zero (n : Nat) (hs : s.coefficient ≠ 0) :
    (trimZeros n s).coefficient ≠ 0 := by
  induction n generalizing s with
  | zero => exact hs
  | succ n ih =>
    rw [trimZeros]
    split
    · rename_i hzero
      simp only [Bool.and_eq_true, decide_eq_true_eq] at hzero
      refine ih ?_
      dsimp only
      omega
    · exact hs

/-- A decimal that reads back as some units is not zero. -/
theorem ne_zero_of_unitsRead? (h : s.unitsRead? = some u) (hu : u ≠ 0) : s.coefficient ≠ 0 := by
  intro hzero
  have hnearest := Double.isZero_nearest_zero false s.exponent
  rw [unitsRead?, hzero] at h
  split at h
  · rename_i m hm
    rw [hm] at hnearest
    obtain rfl := Option.some.inj h
    exact hu (beq_iff_eq.1 hnearest)
  · cases h

theorem exact_ne_zero (hu : u ≠ 0) (n : Nat) (exponent : Int) :
    (Shortest.mk (u * Nat.pow 5 n) exponent).coefficient ≠ 0 :=
  Nat.mul_ne_zero hu (Nat.pow_pos (by decide)).ne'

theorem onGrid?_ne_zero {exponent : Int} (h : onGrid? u exponent = some s) (hu : u ≠ 0) :
    s.coefficient ≠ 0 := by
  have hread := List.find?_some h
  exact ne_zero_of_unitsRead? (beq_iff_eq.1 hread) hu

theorem getD_ne_zero {found : Option Shortest} (hfound : ∀ s ∈ found, s.coefficient ≠ 0)
    (hs : s.coefficient ≠ 0) : (found.getD s).coefficient ≠ 0 := by
  cases found with
  | some s => exact hfound s rfl
  | none => exact hs

/-- The shortest decimal of a double that is not zero is not zero. -/
theorem decimal_ne_zero (hu : u ≠ 0) : (decimal u).coefficient ≠ 0 := by
  rw [decimal]
  apply trimZeros_ne_zero
  apply getD_ne_zero
  · intro s hs
    obtain ⟨i, -, hgrid⟩ := List.exists_of_findSome?_eq_some hs
    exact onGrid?_ne_zero hgrid hu
  · apply exact_ne_zero hu

theorem digitRow_zero : DigitRow ['0'] := ⟨by simp, by simp⟩

theorem fractional_positional (h : DigitRow digits) (hzero : digits.head? ≠ some '0')
    (exponent : Int) : Fractional (positional digits exponent) := by
  have hpoint : ∀ t : Text, ('.' :: t) ++ [] ≠ [] := by simp
  rw [positional]
  split
  · -- a zero stands before the point
    have hfraction := h.zeros_append (-(exponent + 1)).toNat
    have hmk := Fractional.mk digitRow_zero (fun _ => rfl) (.some hfraction) .none (hpoint _)
    simpa using hmk
  · rename_i hplaces
    split
    · -- all digits stand before the point
      have hlead : (digits ++ List.replicate ((exponent + 1).toNat - digits.length) '0').head? ≠
          some '0' := by
        rwa [List.head?_append_of_ne_nil _ h.ne_nil]
      exact .mk (h.append_zeros _) (fun heq => absurd heq hlead) (.some digitRow_zero) .none
        (hpoint _)
    · rename_i hlength
      have hpos : (exponent + 1).toNat ≠ 0 := by omega
      have hne : digits.take (exponent + 1).toNat ≠ [] := by
        rw [ne_eq, List.take_eq_nil_iff, not_or]
        exact ⟨hpos, h.ne_nil⟩
      have hfraction : DigitRow (digits.drop (exponent + 1).toNat) :=
        h.sublist (List.drop_sublist ..) fun hnil => hlength (List.drop_eq_nil_iff.1 hnil)
      have hlead : (digits.take (exponent + 1).toNat).head? ≠ some '0' := by
        rwa [List.head?_take, if_neg hpos]
      have hmk := Fractional.mk (h.sublist (List.take_sublist ..) hne)
        (fun heq => absurd heq hlead) (.some hfraction) .none (hpoint _)
      simpa using hmk

theorem fractional_scientific (h : DigitRow digits) (exponent : Int) :
    Fractional (scientific digits exponent) := by
  have hdigits : DigitRow (Text.padLeft 2 '0' (Text.ofNat exponent.natAbs)) :=
    (Text.digitRow_ofNat _).zeros_append _
  have hsign : (if exponent < 0 then '-' else '+') = '+' ∨
      (if exponent < 0 then '-' else '+') = '-' := by
    split
    · exact .inr rfl
    · exact .inl rfl
  have hpower := Exponent.some hsign hdigits
  obtain ⟨d, rest, rfl, hd⟩ := h.exists_cons
  have hwhole : DigitRow [d] := ⟨by simp, by simpa using hd⟩
  have hzero : [d].head? = some '0' → [d] = ['0'] := by simp
  cases rest with
  | nil => exact .mk hwhole hzero .none hpower (by simp)
  | cons e rest =>
    have hrest : DigitRow (e :: rest) := h.sublist (List.sublist_cons_self ..) (by simp)
    have hmk := Fractional.mk hwhole hzero (.some hrest) hpower (by simp)
    simpa [scientific] using hmk

theorem fractional_text (hs : s.coefficient ≠ 0) : Fractional s.text := by
  have hzero : (Text.ofNat s.coefficient).head? ≠ some '0' := fun h =>
    Text.head?_ofNat hs '0' h rfl
  rw [text]
  split
  · exact fractional_positional (Text.digitRow_ofNat _) hzero _
  · exact fractional_scientific (Text.digitRow_ofNat _) _

end Shortest

/-- A finite double is written as a number with a fraction or an exponent, after its sign. -/
theorem Double.fractional_text (negative : Bool) (m : Magnitude) : ∃ w, Json.Fractional w ∧
    (finite negative m).text = if negative then '-' :: w else w := by
  refine ⟨if m.units = 0 then "0.0".toList else (Shortest.decimal m.units).text, ?_, rfl⟩
  split
  · exact .mk Shortest.digitRow_zero (fun _ => rfl) (.some Shortest.digitRow_zero) .none (by simp)
  · rename_i hunits
    exact Shortest.fractional_text (Shortest.decimal_ne_zero hunits)

/-! ### Doubles are read -/

namespace Json

open Numeral (EndsNumeral)

variable {w r s : Text} {negative : Bool}

/-- A number with a fraction or an exponent encodes a double, after a minus or without one. -/
theorem Fractional.encodes (h : Fractional w) (negative : Bool)
    (hreturn : '\r' ∉ (if negative then '-' :: w else w)) :
    ∃ x, Encodes (if negative then '-' :: w else w) (.float x) := by
  obtain ⟨c, s, hw, hc⟩ := h.exists_cons
  obtain ⟨x, hx⟩ := exists_readNumber h negative
  have hminus : ∀ r, minusPart ((if negative then '-' :: w else w) ++ r) = (negative, w ++ r) := by
    intro r
    cases negative with
    | true => rfl
    | false =>
      rw [if_neg Bool.false_ne_true, hw, List.cons_append, minusPart]
      rintro rest ⟨⟩
      cases hc
  have hword : ∀ r, words.find? (fun e =>
      e.1.isPrefixOf ((if negative then '-' :: w else w) ++ r)) = none := by
    intro r
    rw [List.find?_eq_none]
    intro e he
    obtain ⟨hplain, hsigned⟩ := not_word_of_isDigit hc (s ++ r) e he
    rw [hw]
    cases negative with
    | true => exact hsigned
    | false => exact hplain
  have hread : ∀ r, EndsNumeral r →
      readScalar ((if negative then '-' :: w else w) ++ r) = .ok (.float x, r) := by
    intro r hr
    rw [readScalar, hword r]
    exact hx r _ hr (hminus r)
  refine ⟨x, ?_⟩
  cases negative with
  | true => exact encodes_scalar rfl (by decide) (by decide) hreturn hread
  | false =>
    have hquotes : ∀ d ∈ ['"', '[', '\x7b'], d.isDigit = false := by simp
    refine encodes_scalar hw (not_start_of_isDigit hc) (fun hquote => ?_) hreturn hread
    rw [hquotes c hquote] at hc
    cases hc

/-- **What is written for a double is read as some double.** -/
theorem encodes_double (x : Double) : ∃ y, Encodes (writeDouble x) (.float y) := by
  cases x with
  | nan => exact ⟨.nan, encodes_scalar rfl (by decide) (by decide) (by decide) fun _ _ => rfl⟩
  | infinite negative =>
    refine ⟨.infinite negative, ?_⟩
    cases negative with
    | true => exact encodes_scalar rfl (by decide) (by decide) (by decide) fun _ _ => rfl
    | false => exact encodes_scalar rfl (by decide) (by decide) (by decide) fun _ _ => rfl
  | finite negative m =>
    obtain ⟨w, hw, htext⟩ := Double.fractional_text negative m
    have hreturn : '\r' ∉ (Double.finite negative m).text := by
      intro hmem
      rcases Double.uses_text _ '\r' hmem with hdigit | hmark
      · cases hdigit
      · exact absurd hmark (by decide)
    rw [htext] at hreturn
    obtain ⟨y, hy⟩ := hw.encodes negative hreturn
    rw [← htext] at hy
    exact ⟨y, hy⟩

end Json

end SpacingClasses
