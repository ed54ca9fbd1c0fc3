import SpacingClasses.Proofs.Number.Digits
import SpacingClasses.Proofs.Scale.Pixels

/-!
# Sizes that come back

A whole number of pixels is written in pixels, or as the sixteenth part of it in rem.  Up to the
first number that needs 54 bits, neither text loses the number: the sixteenth part takes no more
bits than the number, is read back from its text, and sixteen times that is the number again.

* `Scale.lengthToPx?_px` : the size of a length in pixels, by the number that is read from it;
* `Scale.exists_remForPx` : the length in rem of a size, from the double of which it is made;
* `Scale.sizes_come_back` : **both texts of a size lead back to it**, so that no two sizes have one
  length in rem.
-/

namespace SpacingClasses

/-- A length in pixels is none in rem. -/
theorem Text.beforeEnding?_rem_px (t : Text) : beforeEnding? "rem" (t ++ "px") = none := by
  refine Option.eq_none_iff_forall_ne_some.2 fun part h => ?_
  have hlast := congrArg List.getLast? (eq_append_of_beforeEnding? h)
  simp at hlast

namespace Scale

variable {t : Text} {x : Double} {m : Magnitude} {negative : Bool} {n : Nat} {i : Int}

/-! ### Lengths in pixels -/

/-- The size of a length in pixels, by the number that is read from it. -/
theorem lengthToPx?_px (hx : parseFloat? t = some x) :
    lengthToPx? (t ++ "px") = x.whole?.bind Int.toNat? := by
  rw [lengthToPx?_append (by simp), Text.beforeEnding?_rem_px, Text.beforeEnding?_append]
  simp only [Option.bind_some, hx]

/-- The digits of a size lead back to it, if there is a double for it. -/
theorem lengthToPx?_ofNat_px (hm : m.units = n * unitsPerOne) :
    lengthToPx? (Text.ofNat n ++ "px") = some n := by
  have hread : parseFloat? (Text.ofNat n) = some (.finite false m) := by
    have hdenotes := (Numeral.denotes_ofNat n).parseFloat? .none
    rwa [List.nil_append, Double.nearest_whole hm] at hdenotes
  rw [lengthToPx?_px hread, Double.whole?_whole hm]
  rfl

/-- The digits of a size are not too many. -/
theorem write_of_le (hn : n ≤ 2 ^ 53) : Integer.write n = .ok (Text.ofNat n) := by
  have hlength : (Text.ofNat n).length ≤ 16 := by
    rw [Text.length_ofNat_le_iff (by decide)]
    exact Nat.lt_of_le_of_lt hn (by decide)
  have hlimit : (Text.ofNat n).length ≤ Integer.maxDigits := hlength.trans (by decide)
  rw [Integer.write, Int.natAbs_natCast, if_pos hlimit, if_neg (by omega)]

/-! ### Lengths in rem -/

/-- The sixteenth part of a size is exact. -/
theorem exists_sixteenth (hn : n ≤ 2 ^ 53) :
    ∃ m : Magnitude, n * unitsPerOne = m.units * pxPerRem := by
  obtain ⟨bits, hbits, hunits⟩ := exists_unitsPerOne_eq
  have hlimit : overflowBits = 2098 := rfl
  have hsixteen : pxPerRem = 2 ^ 4 := rfl
  obtain ⟨rest, rfl⟩ : ∃ rest, bits = rest + 4 := ⟨bits - 4, by omega⟩
  refine ⟨⟨n * 2 ^ rest, representable_mul_two_pow hn (by omega)⟩, ?_⟩
  rw [hunits, hsixteen, Nat.pow_add, Nat.mul_assoc]

/-- The length in rem of an integer, by the quotient. -/
theorem remForPx_int
    (h : Double.ofRatio (decide (i < 0)) (i.natAbs * unitsPerOne) pxPerRem = .finite negative m) :
    remForPx (.int i) = .ok (remLength (.finite negative m)) := by
  -- the quotient is not to be computed
  obtain ⟨ratio, hratio⟩ : ∃ ratio, Double.ofRatio = ratio := ⟨_, rfl⟩
  rw [hratio] at h
  rw [remForPx.eq_def, hratio]
  simp only [h]

/-- **The length in rem of a size** is that of a double, sixteen times which is the size. -/
theorem exists_remForPx (hn : n ≤ 2 ^ 53) :
    ∃ rem : Magnitude, remForPx (.int n) = .ok (remLength (.finite false rem)) ∧
      ((Double.finite false rem).scale pxPerRem).whole? = some (n : Int) := by
  obtain ⟨whole, hwhole⟩ := exists_whole hn
  obtain ⟨rem, hrem⟩ := exists_sixteenth hn
  have hsign : decide ((n : Int) < 0) = false := decide_eq_false (by omega)
  refine ⟨rem, remForPx_int ?_, ?_⟩
  · rw [Int.natAbs_natCast, hsign, hrem, Double.ofRatio_exact rem (by decide)]
  · rw [Double.scale_exact (hwhole.trans hrem), Double.whole?_whole hwhole, if_neg (by decide)]

/-- The length in rem of a size leads back to it. -/
theorem lengthToPx?_remForPx (hn : n ≤ 2 ^ 53) :
    ∃ t, remForPx (.int n) = .ok t ∧ lengthToPx? t = some n := by
  obtain ⟨rem, hrem, hback⟩ := exists_remForPx hn
  refine ⟨_, hrem, ?_⟩
  rw [lengthToPx?_remLength (by simp), hback]
  rfl

/-- **Both texts of a size lead back to it**, so that no two sizes have one length in rem. -/
theorem sizes_come_back (hn : n ≤ 2 ^ 53) :
    (∃ t, remForPx (.int n) = .ok t ∧ lengthToPx? t = some n) ∧
    (∃ t, Integer.write n = .ok t ∧ lengthToPx? (t ++ "px") = some n) ∧
    ∀ k : Nat, k ≤ 2 ^ 53 → remForPx (.int k) = remForPx (.int n) → k = n := by
  obtain ⟨whole, hwhole⟩ := exists_whole hn
  refine ⟨lengthToPx?_remForPx hn, ⟨_, write_of_le hn, lengthToPx?_ofNat_px hwhole⟩, ?_⟩
  intro k hk heq
  -- what one length leads back to is both
  obtain ⟨t, ht, hback⟩ := lengthToPx?_remForPx hn
  obtain ⟨t', ht', hback'⟩ := lengthToPx?_remForPx hk
  rw [heq, ht] at ht'
  obtain rfl := Except.ok.inj ht'
  exact Option.some.inj (hback'.symm.trans hback)

/-- The greatest odd number of 53 bits comes back, though its length `562949953421311.94rem` has
fewer digits than the sixteenth part of it. -/
theorem greatest_size_comes_back :
    2 ^ 53 - 1 ≤ 2 ^ 53 ∧
      (∃ t, remForPx (.int ((2 ^ 53 - 1 : Nat) : Int)) = .ok t ∧
        lengthToPx? t = some (2 ^ 53 - 1)) ∧
      (∃ t, Integer.write ((2 ^ 53 - 1 : Nat) : Int) = .ok t ∧
        lengthToPx? (t ++ "px") = some (2 ^ 53 - 1)) ∧
      ∀ k : Nat, k ≤ 2 ^ 53 →
        remForPx (.int k) = remForPx (.int ((2 ^ 53 - 1 : Nat) : Int)) → k = 2 ^ 53 - 1 :=
  ⟨by decide, sizes_come_back (by decide)⟩

end Scale

end SpacingClasses
