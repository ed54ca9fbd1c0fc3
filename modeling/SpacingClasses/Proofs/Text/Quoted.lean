import SpacingClasses.Text.Lines
import SpacingClasses.Text.Quoted
import SpacingClasses.Proofs.Text.Classes

/-!
# Quoted texts fit on one line

* `Text.mem_hex` : a number in base sixteen is written with sixteen digits;
* `Text.not_isLineEnd_of_isPrintable` : no character that can be shown ends a line;
* `Text.isPrintable_of_mem_quoted` : **every character of a quoted text can be shown**, so that the
  quoted text has no line end.
-/

namespace SpacingClasses

namespace Text

variable {c d quote : Char} {t : Text}

/-! ### Numbers in base sixteen -/

theorem exists_digitChar {b n : Nat} (hb : 1 < b) (h : c ∈ Nat.toDigits b n) :
    ∃ d < b, c = Nat.digitChar d := by
  induction n using Nat.strongRecOn with
  | ind n ih =>
    rw [Nat.toDigits_eq_if hb] at h
    split at h
    · rename_i hlt
      exact ⟨n, hlt, List.mem_singleton.1 h⟩
    · rename_i hle
      rcases List.mem_append.1 h with h | h
      · exact ih (n / b) (Nat.div_lt_self (by omega) hb) h
      · exact ⟨n % b, Nat.mod_lt n (by omega), List.mem_singleton.1 h⟩

/-- A number in base sixteen is written with sixteen digits. -/
theorem mem_hex {width n : Nat} (h : c ∈ hex width n) : ∃ d < 16, c = Nat.digitChar d := by
  rw [hex, padLeft, List.mem_append] at h
  rcases h with h | h
  · exact ⟨0, by decide, List.eq_of_mem_replicate h⟩
  · exact exists_digitChar (by decide) h

/-! ### Characters that can be shown -/

theorem unprintableSpans_ascend : unprintableSpans.IsChain fun s u => s.1 ≤ u.1 := by
  decide +kernel

/-- The line ends beyond ASCII. -/
def wideLineEnds : List (Nat × Nat) := [(0x85, 0x85), (0x2028, 0x2029)]

theorem wideLineEnds_within : spansWithin wideLineEnds unprintableSpans = true := by
  decide +kernel

/-- No character that can be shown ends a line. -/
theorem not_isLineEnd_of_isPrintable (h : isPrintable c = true) : isLineEnd c = false := by
  by_contra hend
  simp only [isPrintable, Bool.and_eq_true, Bool.or_eq_true, decide_eq_true_eq,
    Bool.not_eq_true'] at h
  simp only [isLineEnd, inSpans, Bool.or_false, Bool.not_eq_false, Bool.and_eq_true,
    Bool.or_eq_true, decide_eq_true_eq] at hend
  obtain ⟨hspace, hascii | hspans⟩ := h
  · omega
  · have hwide : inSpans c.toNat wideLineEnds = true := by
      simp only [wideLineEnds, inSpans, Bool.or_false, Bool.and_eq_true, Bool.or_eq_true,
        decide_eq_true_eq]
      by_contra hnot
      -- below the wide ones all line ends come before the space
      omega
    obtain ⟨s, hs, hfirst, hlast⟩ := exists_span_of_inSpans hwide
    obtain ⟨u, hu, hufirst, hulast⟩ := exists_of_spansWithin wideLineEnds_within hs
    rw [inSpans_of_mem unprintableSpans_ascend hu (by omega) (by omega)] at hspans
    cases hspans

/-! ### Quoted texts -/

theorem isPrintable_digitChar : ∀ d < 16, isPrintable (Nat.digitChar d) = true := by
  decide

theorem isPrintable_of_mem_codeEscape {n : Nat} (h : d ∈ codeEscape n) : isPrintable d = true := by
  have hdigits : ∀ width, d ∈ hex width n → isPrintable d = true := by
    intro width hd
    obtain ⟨k, hk, rfl⟩ := mem_hex hd
    exact isPrintable_digitChar k hk
  have hmarks : ∀ mark : Char, isPrintable mark = true → ∀ width,
      d ∈ '\\' :: mark :: hex width n → isPrintable d = true := by
    intro mark hmark width hd
    simp only [List.mem_cons] at hd
    rcases hd with rfl | rfl | hd
    · decide
    · exact hmark
    · exact hdigits width hd
  rw [codeEscape] at h
  split at h
  · exact hmarks 'x' (by decide) 2 h
  · split at h
    · exact hmarks 'u' (by decide) 4 h
    · exact hmarks 'U' (by decide) 8 h

theorem isPrintable_of_mem_quoteChar (hquote : isPrintable quote = true)
    (h : d ∈ quoteChar quote c) : isPrintable d = true := by
  rw [quoteChar] at h
  split_ifs at h with hself htab hfeed hreturn hprintable
  · simp only [Bool.or_eq_true, decide_eq_true_eq] at hself
    simp only [List.mem_cons, List.not_mem_nil, or_false] at h
    rcases h with rfl | rfl
    · decide
    · rcases hself with rfl | rfl
      · exact hquote
      · decide
  · exact List.all_eq_true.1 (by decide : List.all ['\\', 't'] isPrintable = true) d h
  · exact List.all_eq_true.1 (by decide : List.all ['\\', 'n'] isPrintable = true) d h
  · exact List.all_eq_true.1 (by decide : List.all ['\\', 'r'] isPrintable = true) d h
  · rw [List.mem_singleton.1 h]
    exact hprintable
  · exact isPrintable_of_mem_codeEscape h

theorem isPrintable_chooseQuote (t : Text) : isPrintable (chooseQuote t) = true := by
  rw [chooseQuote]
  split <;> decide

/-- **Every character of a quoted text can be shown.** -/
theorem isPrintable_of_mem_quoted (h : c ∈ quoted t) : isPrintable c = true := by
  simp only [quoted, List.mem_cons, List.mem_append, List.mem_flatMap, List.not_mem_nil,
    or_false] at h
  rcases h with rfl | ⟨d, -, hd⟩ | rfl
  · exact isPrintable_chooseQuote t
  · exact isPrintable_of_mem_quoteChar (isPrintable_chooseQuote t) hd
  · exact isPrintable_chooseQuote t

theorem not_isLineEnd_of_mem_quoted (h : c ∈ quoted t) : isLineEnd c = false :=
  not_isLineEnd_of_isPrintable (isPrintable_of_mem_quoted h)

/-- The quoted form of a text of line ends has none. -/
example : quoted "\r\u0085\u2028" = "'\\r\\x85\\u2028'" := by decide +kernel

end Text

end SpacingClasses
