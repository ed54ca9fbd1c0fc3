import SpacingClasses.Number.Decimal
import SpacingClasses.Proofs.Outcome
import SpacingClasses.Proofs.Text.Solid
import SpacingClasses.Proofs.Number.Written

/-!
# The characters of written numbers

Numbers are written with digits and with few other characters.

* `Text.Uses marks t` : the text `t` is made of digits and of the `marks`;
* `Double.uses_text`, `Number.uses_write`, `Decimal.uses_text` : how numbers are written;
* `Text.Uses.solid` : none of this is blank.
-/

namespace SpacingClasses

namespace Text

/-- The text is made of digits and of some further characters. -/
def Uses (marks t : Text) : Prop := ∀ c ∈ t, c.isDigit = true ∨ c ∈ marks

variable {marks s t : Text} {c : Char}

instance (marks t : Text) : Decidable (Uses marks t) :=
  decidable_of_iff (t.all (fun c => c.isDigit || marks.contains c) = true) (by simp [Uses])

@[simp] theorem uses_nil : Uses marks [] := by
  intro c hc
  cases hc

@[simp] theorem uses_cons : Uses marks (c :: t) ↔ (c.isDigit = true ∨ c ∈ marks) ∧ Uses marks t :=
  List.forall_mem_cons

@[simp] theorem uses_append : Uses marks (s ++ t) ↔ Uses marks s ∧ Uses marks t :=
  List.forall_mem_append

@[simp] theorem uses_ofNat (n : Nat) : Uses marks (ofNat n) := fun _ hc =>
  .inl (isDigit_of_mem_ofNat hc)

@[simp] theorem uses_replicate_zero (n : Nat) : Uses marks (List.replicate n '0') := by
  intro c hc
  rw [List.eq_of_mem_replicate hc]
  exact .inl rfl

theorem Uses.sublist (h : Uses marks t) (hs : s.Sublist t) : Uses marks s :=
  fun c hc => h c (hs.subset hc)

/-- Digits and marks that are not blank make a solid text. -/
theorem Uses.solid (h : Uses marks t) (hmarks : Solid marks) : Solid t := by
  intro c hc
  rcases h c hc with hdigit | hmark
  · exact not_isBlank_of_isDigit hdigit
  · exact hmarks c hmark

end Text

open Text (Uses Solid)

/-! ### Integers and doubles -/

/-- The characters other than digits that integers and doubles are written with. -/
def Number.marks : Text := "+-.einfa"

theorem Number.solid_marks : Solid Number.marks := by
  decide

theorem Number.minus_mem_marks : '-' ∈ Number.marks := by
  decide

theorem Number.point_mem_marks : '.' ∈ Number.marks := by
  decide

theorem Integer.uses_text (n : Int) : Uses Number.marks (Integer.text n) := by
  cases n with
  | ofNat n => exact Text.uses_ofNat n
  | negSucc n => exact Text.uses_cons.2 ⟨.inr Number.minus_mem_marks, Text.uses_ofNat _⟩

theorem Integer.uses_write {n : Int} {t : Text} (h : Integer.write n = .ok t) :
    Uses Number.marks t := by
  rw [Integer.write] at h
  split at h
  · cases h
    split
    · exact Text.uses_cons.2 ⟨.inr Number.minus_mem_marks, Text.uses_ofNat _⟩
    · exact Text.uses_ofNat _
  · cases h

namespace Shortest

variable {digits : Text}

theorem uses_positional (h : Uses Number.marks digits) (exponent : Int) :
    Uses Number.marks (positional digits exponent) := by
  have htake := fun n => h.sublist (List.take_sublist n digits)
  have hdrop := fun n => h.sublist (List.drop_sublist n digits)
  have hfront : Uses Number.marks "0.".toList := by decide
  have hback : Uses Number.marks ".0".toList := by decide
  rw [positional]
  split_ifs
  · exact Text.uses_append.2 ⟨Text.uses_append.2 ⟨hfront, Text.uses_replicate_zero _⟩, h⟩
  · exact Text.uses_append.2 ⟨Text.uses_append.2 ⟨h, Text.uses_replicate_zero _⟩, hback⟩
  · exact Text.uses_append.2 ⟨htake _, Text.uses_cons.2 ⟨.inr Number.point_mem_marks, hdrop _⟩⟩

theorem uses_scientific (h : Uses Number.marks digits) (exponent : Int) :
    Uses Number.marks (scientific digits exponent) := by
  have hletter : 'e' ∈ Number.marks := by decide
  have hsign : (if exponent < 0 then '-' else '+') ∈ Number.marks := by
    split <;> decide
  have hpower : Uses Number.marks
      ('e' :: (if exponent < 0 then '-' else '+') ::
        Text.padLeft 2 '0' (Text.ofNat exponent.natAbs)) := by
    simp [Text.padLeft, hletter, hsign]
  refine Text.uses_append.2 ⟨?_, hpower⟩
  match digits, h with
  | [], h => exact h
  | [_], h => exact h
  | d :: e :: rest, h =>
    obtain ⟨hd, hrest⟩ := Text.uses_cons.1 h
    exact Text.uses_cons.2 ⟨hd, Text.uses_cons.2 ⟨.inr Number.point_mem_marks, hrest⟩⟩

theorem uses_text (s : Shortest) : Uses Number.marks s.text := by
  rw [text]
  split
  · exact uses_positional (Text.uses_ofNat _) _
  · exact uses_scientific (Text.uses_ofNat _) _

end Shortest

theorem Double.uses_text (x : Double) : Uses Number.marks x.text := by
  have hzero : Uses Number.marks "0.0".toList := by decide
  cases x with
  | finite negative m =>
    rw [Double.text]
    split_ifs
    · exact Text.uses_cons.2 ⟨.inr Number.minus_mem_marks, hzero⟩
    · exact Text.uses_cons.2 ⟨.inr Number.minus_mem_marks, Shortest.uses_text _⟩
    · exact hzero
    · exact Shortest.uses_text _
  | infinite negative => cases negative <;> decide
  | nan => decide

/-- A number is written with digits, signs, a point, and the letters of the words for numbers. -/
theorem Number.uses_write {n : Number} {t : Text} (h : n.write = .ok t) :
    Uses Number.marks t := by
  cases n with
  | int n => exact Integer.uses_write h
  | double x =>
    cases h
    split
    · exact Integer.uses_text _
    · exact x.uses_text

/-! ### Decimals -/

/-- The characters other than digits that decimals are written with. -/
def Decimal.marks : Text := "+-.EINafinsty"

theorem Decimal.solid_marks : Solid Decimal.marks := by
  decide

theorem Decimal.minus_mem_marks : '-' ∈ Decimal.marks := by
  decide

theorem Decimal.uses_finiteText (coefficient : Nat) (exponent : Int) :
    Uses Decimal.marks (finiteText coefficient exponent) := by
  have hfront : Uses Decimal.marks "0.".toList := by decide
  have hpoint : '.' ∈ Decimal.marks := by decide
  have hletter : 'E' ∈ Decimal.marks := by decide
  have hplus : '+' ∈ Decimal.marks := by decide
  unfold finiteText
  extract_lets digits adjusted places mantissa
  have hdigits : Uses Decimal.marks digits := Text.uses_ofNat coefficient
  have hmantissa : Uses Decimal.marks mantissa := by
    have htake := fun n => hdigits.sublist (List.take_sublist n digits)
    have hdrop := fun n => hdigits.sublist (List.drop_sublist n digits)
    by_cases hsmall : places ≤ 0
    · simp only [mantissa, if_pos hsmall, Text.uses_append]
      exact ⟨⟨hfront, Text.uses_replicate_zero _⟩, hdigits⟩
    · by_cases hwhole : digits.length ≤ places.toNat
      · simp only [mantissa, if_neg hsmall, if_pos hwhole, Text.uses_append]
        exact ⟨hdigits, Text.uses_replicate_zero _⟩
      · simp only [mantissa, if_neg hsmall, if_neg hwhole, Text.uses_append, Text.uses_cons]
        exact ⟨htake _, .inr hpoint, hdrop _⟩
  have hsign : (if adjusted < places then '-' else '+') ∈ Decimal.marks := by
    split
    · exact Decimal.minus_mem_marks
    · exact hplus
  split
  · exact hmantissa
  · simp only [Text.uses_append, Text.uses_cons]
    exact ⟨hmantissa, .inr hletter, .inr hsign, Text.uses_ofNat _⟩

theorem Decimal.uses_text (d : Decimal) : Uses Decimal.marks d.text := by
  have hminus (negative : Bool) : Uses Decimal.marks (if negative then ['-'] else []) := by
    cases negative <;> decide
  cases d with
  | finite negative coefficient exponent =>
    exact Text.uses_append.2 ⟨hminus negative, uses_finiteText coefficient exponent⟩
  | infinite negative => cases negative <;> decide
  | nan negative signaling payload =>
    have hsignal : Uses Decimal.marks (if signaling then ['s'] else []) := by
      cases signaling <;> decide
    have hword : Uses Decimal.marks "NaN".toList := by decide
    have hpayload : Uses Decimal.marks (if payload = 0 then [] else Text.ofNat payload) := by
      split
      · exact Text.uses_nil
      · exact Text.uses_ofNat payload
    simp only [Decimal.text, Text.uses_append]
    exact ⟨⟨⟨hminus negative, hsignal⟩, hword⟩, hpayload⟩

end SpacingClasses
