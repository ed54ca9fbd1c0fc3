import SpacingClasses.Proofs.Number.Denotation

/-!
# Doubles are read back

* `Shortest.denotes_text` : the text of a decimal denotes the decimal;
* `Shortest.readsAs_decimal` : the shortest decimal of a double is read as the double;
* `Double.parseFloat?_text` : **a finite double is read back from its text**;
* `Double.parseFloat?_write` : so it is from the text of its number, which has no point if it is
  whole.
-/

namespace SpacingClasses

open Numeral (Digits Writes WritesSign WritesExponent Denotes writesSign_minus)
open Text (ofDigits ofDigits_append ofDigits_zeros ofDigits_zeros_append Uses)

variable {t w digits : Text} {ds : List Nat} {m : Magnitude} {negative : Bool}
  {coefficient : Nat} {exponent : Int}

/-! ### Texts of decimals -/

namespace Shortest

/-- Digits that are written out denote what they do in their places. -/
theorem denotes_positional (hds : Digits digits ds) (hne : ds ≠ []) (exponent : Int) :
    Denotes (positional digits exponent) (ofDigits ds) (exponent + 1 - ds.length) := by
  have hlength : digits.length = ds.length := hds.length_eq
  have hzero : Digits ['0'] [0] := Digits.zeros 1
  unfold positional
  extract_lets places
  split_ifs with hsmall hwhole
  · -- zeros stand before the digits
    have hdenotes := Numeral.denotes_mantissa (Numeral.writesMantissa_small hds (-places).toNat)
    have hcoefficient : ofDigits ([0] ++ (List.replicate (-places).toNat 0 ++ ds)) =
        ofDigits ds :=
      (ofDigits_zeros_append 1 _).trans (ofDigits_zeros_append _ ds)
    have hexponent : -((List.replicate (-places).toNat 0 ++ ds).length : Int) =
        exponent + 1 - ds.length := by
      rw [List.length_append, List.length_replicate]
      omega
    rwa [hcoefficient, hexponent] at hdenotes
  · -- zeros stand behind the digits
    have hback : Digits (digits ++ List.replicate (places.toNat - digits.length) '0')
        (ds ++ List.replicate (places.toNat - digits.length) 0) :=
      List.rel_append hds (Digits.zeros _)
    have hdenotes := Numeral.denotes_point hback hzero (by simp)
    have hcoefficient : ofDigits (ds ++ List.replicate (places.toNat - digits.length) 0 ++ [0]) =
        ofDigits ds * 10 ^ (places.toNat - digits.length + 1) := by
      rw [ofDigits_append, ofDigits_append, ofDigits_zeros, Nat.pow_succ]
      simp [ofDigits, Nat.mul_assoc]
    have hexponent : -(([0] : List Nat).length : Int) + (places.toNat - digits.length + 1 : Nat) =
        exponent + 1 - ds.length := by
      rw [List.length_singleton]
      omega
    rw [hcoefficient] at hdenotes
    rw [← hexponent]
    exact hdenotes.of_mul_pow
  · -- the point stands among the digits
    have hdenotes := Numeral.denotes_mantissa (Numeral.writesMantissa_split hds hne places.toNat)
    have hexponent : -((ds.length - places.toNat : Nat) : Int) = exponent + 1 - ds.length := by
      omega
    rwa [hexponent] at hdenotes

/-- Digits in scientific notation denote what they do in their places. -/
theorem denotes_scientific (hds : Digits digits ds) (hne : ds ≠ []) (exponent : Int) :
    Denotes (scientific digits exponent) (ofDigits ds) (exponent + 1 - ds.length) := by
  have hexponent := Numeral.writesExponent_padded (.inl rfl) 2 exponent
  intro s negative hs
  cases hds with
  | nil => exact absurd rfl hne
  | @cons c d digits ds hd hds =>
    have hlead : Digits [c] [d] := .cons hd .nil
    cases hds with
    | nil =>
      refine ⟨_, .mk hs (.whole hlead (by simp)) hexponent, ?_⟩
      rw [Numeral.toDouble]
      congr 1
      simp only [List.length_singleton]
      omega
    | @cons c' d' digits ds hd' hds =>
      have hrest : Digits (c' :: digits) (d' :: ds) := .cons hd' hds
      refine ⟨_, .mk hs (.point hlead hrest (by simp)) hexponent, ?_⟩
      rw [Numeral.toDouble, List.singleton_append]
      congr 1
      simp only [List.length_cons]
      omega

/-- **The text of a decimal denotes the decimal.** -/
theorem denotes_text (d : Shortest) : Denotes d.text d.coefficient d.exponent := by
  obtain ⟨ds, hds, hvalue⟩ := Text.exists_digits_ofNat d.coefficient
  have hlength : (Text.ofNat d.coefficient).length = ds.length := hds.length_eq
  have hne : ds ≠ [] := hds.values_ne_nil (Text.ofNat_ne_nil _)
  have hexponent : d.exponent + (Text.ofNat d.coefficient).length - 1 + 1 - ds.length =
      d.exponent := by omega
  have hpositional :=
    denotes_positional hds hne (d.exponent + (Text.ofNat d.coefficient).length - 1)
  have hscientific :=
    denotes_scientific hds hne (d.exponent + (Text.ofNat d.coefficient).length - 1)
  rw [hvalue, hexponent] at hpositional hscientific
  rw [text]
  split
  · exact hpositional
  · exact hscientific

/-! ### The shortest decimal -/

/-- The decimal is read as the double, with either sign. -/
def ReadsAs (d : Shortest) (m : Magnitude) : Prop :=
  ∀ negative, Double.nearest negative d.coefficient d.exponent = .finite negative m

theorem readsAs_of_unitsRead? {d : Shortest} (h : d.unitsRead? = some m.units) : d.ReadsAs m := by
  rw [unitsRead?] at h
  split at h
  · rename_i sign m' hm'
    obtain rfl : m' = m := by
      cases m
      cases m'
      cases h
      rfl
    exact Double.nearest_of_sign hm'
  · cases h

theorem ReadsAs.trimZeros {d : Shortest} (h : d.ReadsAs m) (fuel : Nat) :
    (trimZeros fuel d).ReadsAs m := by
  induction fuel generalizing d with
  | zero => exact h
  | succ fuel ih =>
    rw [Shortest.trimZeros]
    split
    · rename_i hzero
      simp only [Bool.and_eq_true, decide_eq_true_eq] at hzero
      have hten : d.coefficient / 10 * 10 ^ 1 = d.coefficient := by omega
      refine ih fun negative => ?_
      have hmoved := Double.nearest_mul_pow negative (d.coefficient / 10) 1 d.exponent
      rw [hten, h negative] at hmoved
      exact hmoved.symm
    · exact h

theorem readsAs_of_onGrid? {d : Shortest} (h : onGrid? m.units exponent = some d) :
    d.ReadsAs m := by
  have hread := List.find?_some h
  exact readsAs_of_unitsRead? (beq_iff_eq.1 hread)

theorem readsAs_getD {found : Option Shortest} {d : Shortest}
    (hfound : ∀ d ∈ found, d.ReadsAs m) (hd : d.ReadsAs m) : (found.getD d).ReadsAs m := by
  cases found with
  | some d => exact hfound d rfl
  | none => exact hd

/-- The exact value is read as the double. -/
theorem readsAs_exact {bits : Nat} (hbits : unitsPerOne = 2 ^ bits) (hexponent : exponent = -bits) :
    (mk (m.units * Nat.pow 5 bits) exponent).ReadsAs m :=
  fun negative => Double.nearest_exact hbits hexponent negative m

/-- **The shortest decimal of a double is read as the double.** -/
theorem readsAs_decimal (m : Magnitude) : (decimal m.units).ReadsAs m := by
  rw [decimal]
  apply ReadsAs.trimZeros
  apply readsAs_getD
  · intro d hd
    obtain ⟨i, -, hgrid⟩ := List.exists_of_findSome?_eq_some hd
    exact readsAs_of_onGrid? hgrid
  · obtain ⟨bits, hbits, hunits, hexponent⟩ :
        ∃ bits : Nat, bits = 1074 ∧ unitsPerOne = 2 ^ bits ∧ (-1074 : Int) = -bits := by
      obtain ⟨bits, rfl, hunits⟩ := exists_unitsPerOne_eq
      exact ⟨_, rfl, hunits, rfl⟩
    rw [← hbits]
    exact readsAs_exact hunits hexponent

end Shortest

/-! ### Doubles -/

theorem Integer.text_signed {n : Nat} (h : negative = true → n ≠ 0) :
    text (if negative then -(n : Int) else n) =
      (if negative then ['-'] else []) ++ Text.ofNat n := by
  cases negative with
  | false => rfl
  | true =>
    obtain ⟨n, rfl⟩ := Nat.exists_eq_succ_of_ne_zero (h rfl)
    rfl

namespace Double

theorem denotes_zero : Denotes "0.0".toList 0 (-1) := by
  have hzero : Digits ['0'] [0] := Digits.zeros 1
  have htext : "0.0".toList = ['0'] ++ '.' :: ['0'] := rfl
  have hvalue : ofDigits ([0] ++ [0]) = 0 := rfl
  have hdenotes := Numeral.denotes_point hzero hzero (by simp)
  rwa [hvalue, ← htext] at hdenotes

theorem nearest_zero (hm : m.units = 0) (negative : Bool) (exponent : Int) :
    nearest negative 0 exponent = finite negative m := by
  have hunits : roundUnits 0 1 = m.units := by
    rw [hm]
    exact (roundUnits_eq_zero_iff Nat.one_pos).2 (by decide)
  rw [nearest.eq_def, if_pos rfl, ofRatio_eq_finite hunits]

/-- **A finite double is read back from its text.** -/
theorem parseFloat?_text (negative : Bool) (m : Magnitude) :
    parseFloat? (finite negative m).text = some (finite negative m) := by
  have htext : (finite negative m).text = (if negative then ['-'] else []) ++
      if m.units = 0 then "0.0".toList else (Shortest.decimal m.units).text := by
    cases negative <;> rfl
  rw [htext]
  by_cases hzero : m.units = 0
  · rw [if_pos hzero, denotes_zero.parseFloat? (writesSign_minus negative), nearest_zero hzero]
  · rw [if_neg hzero, (Shortest.denotes_text _).parseFloat? (writesSign_minus negative),
      Shortest.readsAs_decimal m negative]

/-- A finite double is read back from the text of its number, unless it is the zero below zero. -/
theorem parseFloat?_write (hzero : negative = true → m.units ≠ 0)
    (h : (Number.double (finite negative m)).write = .ok t) :
    parseFloat? t = some (finite negative m) := by
  cases h
  split
  · rename_i n hn
    obtain ⟨k, hunits, rfl⟩ := exists_of_whole? hn
    have hk : negative = true → k ≠ 0 := by
      rintro hsign rfl
      exact hzero hsign (by rw [hunits, Nat.zero_mul])
    rw [Integer.text_signed hk, (Numeral.denotes_ofNat k).parseFloat? (writesSign_minus negative),
      nearest_whole hunits]
  · exact parseFloat?_text negative m

end Double

end SpacingClasses
