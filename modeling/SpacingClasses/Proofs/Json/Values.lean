import SpacingClasses.Proofs.Json.Strings
import SpacingClasses.Proofs.Value.Readable

/-!
# The values of JSON texts

What the readers of JSON give, and when a row of digits is too long for them.

* `Json.gives_readValue` : a value is readable, with an ending of its text;
* `Json.readable_of_read`, `Json.long_of_read` : so is the value of a whole text, which is too long
  only if it has a row of as many digits as can be written;
* `Json.start_of_readValue` : which characters a value starts with.
-/

namespace SpacingClasses

namespace Json

open Reader (Gives gives_stopAt cons_eq_error_iff)
open Text (HasRow)
open Value (Readable)

variable {long : Prop} {raw : Text → Prop} {source t u whole rest : Text} {v : Value} {c : Char}

/-! ### Strings -/

/-- What the texts of a source are said to be, its strings as they read are. -/
def Reads (raw : Text → Prop) (source : Text) : Prop :=
  ∀ {t read rest}, t <:+ source → StringChars t read rest → raw read

theorem readChars_ne_limit (start : Nat) (t : Text) (digits : Nat) :
    readChars start t ≠ .error (.limit digits) := by
  fun_induction readChars start t with
  | case5 | case6 | case7 | case9 | case12 | case15 => rwa [ne_eq, cons_eq_error_iff]
  | _ =>
    intro h
    cases h

theorem gives_readString (hraw : Reads raw source) (ht : t <:+ source) :
    Gives raw long t (readString t) := by
  rw [readString]
  cases h : readChars (t.length + 1) t with
  | ok part =>
    have hchars := stringChars_of_readChars h
    obtain ⟨inside, hsplit, -⟩ := hchars.split
    refine ⟨hraw ht hchars, ?_⟩
    rw [hsplit]
    exact (List.suffix_cons _ _).trans (List.suffix_append _ _)
  | error stop =>
    cases stop with
    | fault n reason => exact trivial
    | limit digits => exact absurd h (readChars_ne_limit _ t digits)
    | exhausted => exact trivial

/-! ### Numbers -/

/-- The whole part of a number is a row of digits. -/
theorem wholeDigits?_eq_some (h : wholeDigits? t = some (whole, rest)) :
    t = whole ++ rest ∧ whole ≠ [] ∧ ∀ c ∈ whole, c.isDigit = true := by
  cases t with
  | nil => cases h
  | cons c t =>
    rw [wholeDigits?.eq_def] at h
    split at h
    · rename_i heq
      cases heq
      cases h
      exact ⟨rfl, List.cons_ne_nil _ _, by simp⟩
    · rename_i heq
      cases heq
      split_ifs at h with hc
      cases h
      refine ⟨by simp, List.cons_ne_nil _ _, List.forall_mem_cons.2 ⟨hc, fun c hc => ?_⟩⟩
      exact List.mem_takeWhile_imp hc
    · rename_i heq
      cases heq

theorem fractionPart_suffix (t : Text) : (fractionPart t).2 <:+ t := by
  rw [fractionPart.eq_def]
  split
  · rename_i d rest
    split
    · exact ((List.dropWhile_suffix _).trans (List.suffix_cons d rest)).trans (List.suffix_cons _ _)
    · exact List.suffix_rfl
  · exact List.suffix_rfl

theorem exponentPart_suffix (t : Text) : (exponentPart t).2 <:+ t := by
  rw [exponentPart.eq_def]
  split
  · rename_i c rest
    -- whatever the sign is, the digits are an ending of what follows the mark
    have hdigits : ∀ (part : Text) {digits}, digits <:+ rest →
        (if (digits.takeWhile Char.isDigit).isEmpty then (([], c :: rest) : Text × Text)
          else (part, digits.dropWhile Char.isDigit)).2 <:+ c :: rest := by
      intro part digits h
      split
      · exact List.suffix_rfl
      · exact ((List.dropWhile_suffix _).trans h).trans (List.suffix_cons c rest)
    split
    · split
      rename_i sign digits hsign
      refine hdigits _ ?_
      split at hsign
      · cases hsign
        exact List.suffix_cons _ _
      · cases hsign
        exact List.suffix_cons _ _
      · cases hsign
        exact List.suffix_rfl
    · exact List.suffix_rfl
  · exact List.suffix_rfl

theorem minusPart_suffix (t : Text) : (minusPart t).2 <:+ t := by
  rw [minusPart.eq_def]
  split
  · exact List.suffix_cons _ _
  · exact List.suffix_rfl

theorem spanDigits_ne_nil (hne : t ≠ []) (hdigits : ∀ c ∈ t, c.isDigit = true) :
    (Text.spanDigits t).1 ≠ [] := by
  obtain ⟨c, u, rfl⟩ := List.exists_cons_of_ne_nil hne
  have hvalue : Text.digitValue? c = some (c.toNat - 48) := by
    rw [Text.digitValue?, if_pos (hdigits c List.mem_cons_self)]
  simp [Text.spanDigits, hvalue]

theorem gives_readNumber (hlong : source.HasRow Char.isDigit Integer.maxDigits → long)
    (ht : t <:+ source) : Gives (Readable long raw) long t (readNumber t) := by
  have hminus := minusPart_suffix t
  rw [readNumber]
  split
  rename_i negative unsigned hunsigned
  rw [hunsigned] at hminus
  split
  · exact gives_stopAt ..
  · rename_i whole rest hwhole
    obtain ⟨rfl, hne, hdigits⟩ := wholeDigits?_eq_some hwhole
    have hrest : rest <:+ t := (List.suffix_append _ _).trans hminus
    have hfraction := (fractionPart_suffix rest).trans hrest
    have hexponent := (exponentPart_suffix _).trans hfraction
    dsimp only
    split
    · -- an integer is its whole part
      obtain ⟨w, hw, hds⟩ := Numeral.exists_digits whole
      have hlimit : Integer.maxDigits ≤ (Text.spanDigits whole).1.length → long := by
        intro hlength
        refine hlong ⟨whole, ?_, ?_, hdigits⟩
        · exact ((List.prefix_append _ _).isInfix.trans hminus.isInfix).trans ht.isInfix
        · rw [← hds.length_eq] at hlength
          rw [hw, List.length_append]
          omega
      rcases Integer.read_of_digits negative hds.lt_ten
        (spanDigits_ne_nil hne hdigits) hlimit with ⟨i, hi, hread⟩ | ⟨⟨f, hf⟩, h⟩
      · rw [hi]
        exact ⟨.int hread, hexponent⟩
      · rw [hf]
        exact h
    · split
      · exact ⟨.float _, hexponent⟩
      · exact gives_stopAt ..

theorem gives_readScalar (hlong : source.HasRow Char.isDigit Integer.maxDigits → long)
    (ht : t <:+ source) : Gives (Readable long raw) long t (readScalar t) := by
  rw [readScalar]
  split
  · rename_i word v hword
    refine ⟨?_, List.drop_suffix _ _⟩
    have hmem := List.mem_of_find?_eq_some hword
    simp only [words, List.mem_cons, Prod.mk.injEq, List.not_mem_nil, or_false] at hmem
    rcases hmem with ⟨-, rfl⟩ | ⟨-, rfl⟩ | ⟨-, rfl⟩ | ⟨-, rfl⟩ | ⟨-, rfl⟩ | ⟨-, rfl⟩
    · exact .null
    · exact .bool _
    · exact .bool _
    · exact .float _
    · exact .float _
    · exact .float _
  · exact gives_readNumber hlong ht

/-! ### Lists and dictionaries -/

theorem skipSpace_suffix (t : Text) : skipSpace t <:+ t := List.dropWhile_suffix _

section

variable {good : Value → Prop} {item : Reader Fault Value}

theorem gives_readItems (hitem : ∀ u, u <:+ t → Gives good long u (item u)) (bound : Nat) :
    Gives (fun vs => ∀ v ∈ vs, good v) long t (readItems item bound t) := by
  induction bound generalizing t with
  | zero => exact trivial
  | succ bound ih =>
    rw [readItems]
    refine (hitem t List.suffix_rfl).bind fun v w hv hw => ?_
    dsimp only
    split
    · rename_i rest h
      exact ⟨List.forall_mem_singleton.2 hv, Text.suffix_of_dropWhile h⟩
    · rename_i next hnext
      have hsuffix := (skipSpace_suffix next).trans (Text.suffix_of_dropWhile hnext)
      have hmore := ih fun u hu => hitem u ((hu.trans hsuffix).trans hw)
      refine (hmore.bind fun vs rest hvs _ => ?_).of_suffix hsuffix
      exact ⟨List.forall_mem_cons.2 ⟨hv, hvs⟩, List.suffix_rfl⟩
    · exact gives_stopAt ..

theorem gives_readEntries (hraw : Reads raw source) (ht : t <:+ source)
    (hitem : ∀ u, u <:+ t → Gives good long u (item u)) (bound : Nat) :
    Gives (fun es => ∃ rows, es = Value.named rows ∧ ∀ e ∈ rows, good e.2) long t
      (readEntries item bound t) := by
  induction bound generalizing t with
  | zero => exact trivial
  | succ bound ih =>
    rw [readEntries.eq_def]
    dsimp only
    split
    · rename_i chars
      have hchars := List.suffix_cons '"' chars
      refine ((gives_readString hraw (hchars.trans ht)).bind fun key w _ hw => ?_).of_suffix hchars
      dsimp only
      split
      · rename_i x hx
        have hvalue := (skipSpace_suffix x).trans (Text.suffix_of_dropWhile hx)
        have hstart := (hvalue.trans hw).trans hchars
        refine ((hitem _ hstart).bind fun v y hv hy => ?_).of_suffix hvalue
        dsimp only
        split
        · rename_i rest h
          exact ⟨⟨[(key, v)], rfl, List.forall_mem_singleton.2 hv⟩, Text.suffix_of_dropWhile h⟩
        · rename_i next hnext
          have hsuffix := (skipSpace_suffix next).trans (Text.suffix_of_dropWhile hnext)
          have hafter := (hsuffix.trans hy).trans hstart
          have hmore := ih (hafter.trans ht) fun u hu => hitem u (hu.trans hafter)
          refine (hmore.bind fun es rest hes _ => ?_).of_suffix hsuffix
          obtain ⟨rows, rfl, hrows⟩ := hes
          exact ⟨⟨(key, v) :: rows, rfl, List.forall_mem_cons.2 ⟨hv, hrows⟩⟩, List.suffix_rfl⟩
        · exact gives_stopAt ..
      · exact gives_stopAt ..
    · exact gives_stopAt ..

end

/-! ### Values -/

/-- **A value is readable.** -/
theorem gives_readValue (hlong : source.HasRow Char.isDigit Integer.maxDigits → long)
    (hraw : Reads raw source) (ht : t <:+ source) (bound : Nat) :
    Gives (Readable long raw) long t (readValue bound t) := by
  induction bound generalizing t with
  | zero => exact trivial
  | succ bound ih =>
    rw [readValue.eq_def]
    dsimp only
    split
    · exact gives_stopAt ..
    · rename_i chars
      have hchars := List.suffix_cons '"' chars
      refine ((gives_readString hraw (hchars.trans ht)).bind fun read rest hread _ => ?_).of_suffix
        hchars
      exact ⟨.text hread, List.suffix_rfl⟩
    · rename_i inside
      have hinside := List.suffix_cons '[' inside
      split
      · rename_i rest h
        exact ⟨.list (by simp), (Text.suffix_of_dropWhile h).trans hinside⟩
      · have hstart := (skipSpace_suffix inside).trans hinside
        have hitems := gives_readItems (t := skipSpace inside)
          (fun u hu => ih ((hu.trans hstart).trans ht)) ((skipSpace inside).length + 1)
        refine (hitems.bind fun items rest hitems _ => ?_).of_suffix hstart
        exact ⟨.list hitems, List.suffix_rfl⟩
    · rename_i inside
      have hinside := List.suffix_cons '\x7b' inside
      split
      · rename_i rest h
        have hempty : Readable long raw (.dict (Value.named [])) := .dict List.nodup_nil (by simp)
        exact ⟨hempty, (Text.suffix_of_dropWhile h).trans hinside⟩
      · have hstart := (skipSpace_suffix inside).trans hinside
        have hentries := gives_readEntries hraw (hstart.trans ht)
          (fun u hu => ih ((hu.trans hstart).trans ht)) ((skipSpace inside).length + 1)
        refine (hentries.bind fun es rest hes _ => ?_).of_suffix hstart
        obtain ⟨rows, rfl, hrows⟩ := hes
        exact ⟨.dictOf hrows, List.suffix_rfl⟩
    · exact gives_readScalar hlong ht

/-- A whole text is read from its first character that is no space, up to spaces. -/
theorem readValue_of_read (h : Json.read t = .ok v) :
    ∃ rest, readValue ((skipSpace t).length + 1) (skipSpace t) = .ok (v, rest) ∧
      skipSpace rest = [] := by
  unfold Json.read at h
  split at h
  · cases h
  · obtain ⟨⟨w, rest⟩, hread, h⟩ := bind_eq_ok_iff.1 h
    dsimp only at h
    split at h
    · rename_i hrest
      cases h
      exact ⟨rest, hread, hrest⟩
    · cases h

theorem readValue_of_read_limit {digits : Nat} (h : Json.read t = .error (.limit digits)) :
    readValue ((skipSpace t).length + 1) (skipSpace t) = .error (.limit digits) := by
  unfold Json.read at h
  dsimp only at h
  split at h
  · cases h
  · cases hread : readValue ((skipSpace t).length + 1) (skipSpace t) with
    | ok part =>
      rw [hread, ok_bind] at h
      split at h
      · cases h
      · cases h
    | error stop =>
      rw [hread] at h
      exact congrArg Except.error (Except.error.inj h)

/-- **The value of a JSON text is readable.** -/
theorem readable_of_read (hlong : t.HasRow Char.isDigit Integer.maxDigits → long)
    (hraw : Reads raw t) (h : Json.read t = .ok v) : Readable long raw v := by
  obtain ⟨rest, hread, -⟩ := readValue_of_read h
  have hgives := gives_readValue hlong hraw (skipSpace_suffix t) ((skipSpace t).length + 1)
  rw [hread] at hgives
  exact hgives.1

/-- A number in a JSON text is too long only if the text has a row of as many digits as can be
written. -/
theorem long_of_read {digits : Nat} (hlong : t.HasRow Char.isDigit Integer.maxDigits → long)
    (h : Json.read t = .error (.limit digits)) : long := by
  have hgives := gives_readValue hlong (fun _ _ => trivial : Reads (fun _ => True) t)
    (skipSpace_suffix t) ((skipSpace t).length + 1)
  rw [readValue_of_read_limit h] at hgives
  exact hgives

/-! ### What a value starts with -/

/-- The characters other than digits that a value starts with. -/
def starts : Text := ['"', '[', '\x7b', '-', 'n', 't', 'f', 'N', 'I']

theorem start_of_readScalar (h : readScalar t = .ok (v, rest)) :
    ∃ c u, t = c :: u ∧ (c ∈ starts ∨ c.isDigit = true) := by
  rw [readScalar] at h
  split at h
  · rename_i word v hword
    have hmem := List.mem_of_find?_eq_some hword
    have hprefix := List.find?_some hword
    obtain ⟨u, rfl⟩ := List.isPrefixOf_iff_prefix.1 hprefix
    simp only [words, List.mem_cons, Prod.mk.injEq, List.not_mem_nil, or_false] at hmem
    rcases hmem with ⟨rfl, -⟩ | ⟨rfl, -⟩ | ⟨rfl, -⟩ | ⟨rfl, -⟩ | ⟨rfl, -⟩ | ⟨rfl, -⟩
    all_goals exact ⟨_, _, rfl, .inl (by decide)⟩
  · rw [readNumber] at h
    split at h
    rename_i negative unsigned hunsigned
    rw [minusPart.eq_def] at hunsigned
    split at hunsigned
    · exact ⟨'-', _, rfl, .inl (by decide)⟩
    · cases hunsigned
      split at h
      · cases h
      · rename_i whole rest hwhole
        obtain ⟨rfl, hne, hdigits⟩ := wholeDigits?_eq_some hwhole
        obtain ⟨c, u, rfl⟩ := List.exists_cons_of_ne_nil hne
        exact ⟨c, _, rfl, .inr (hdigits c List.mem_cons_self)⟩

theorem start_of_readValue {bound : Nat} (h : readValue bound t = .ok (v, rest)) :
    ∃ c u, t = c :: u ∧ (c ∈ starts ∨ c.isDigit = true) := by
  cases bound with
  | zero => cases h
  | succ bound =>
    rw [readValue.eq_def] at h
    dsimp only at h
    split at h
    · cases h
    · exact ⟨_, _, rfl, .inl (by decide)⟩
    · exact ⟨_, _, rfl, .inl (by decide)⟩
    · exact ⟨_, _, rfl, .inl (by decide)⟩
    · exact start_of_readScalar h

end Json

end SpacingClasses
