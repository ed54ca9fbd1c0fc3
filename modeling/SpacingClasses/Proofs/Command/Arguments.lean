import SpacingClasses.Command.Basic
import SpacingClasses.Proofs.Attribute.Values
import SpacingClasses.Proofs.Json.Values
import SpacingClasses.Proofs.Number.Written
import SpacingClasses.Proofs.Text.Trim

/-!
# Attribute values as arguments

An argument is read as JSON first.  This makes a difference to no attribute value but a string with
a backslash in it.

* `Attribute.Derives.ends` : which characters an attribute value starts and ends with;
* `Attribute.looksLikeOne_of_derives` : so it looks like one;
* `Json.eq_of_quoted` : a string without a backslash is the same string in JSON;
* `Json.false_of_braced` : **no literal in braces is JSON**;
* `Command.readArgument_attribute` : **an attribute value is read as such** in an argument, unless it
  is a string in double quotes with a backslash.
-/

namespace SpacingClasses

open Text (Blanks isBlank skipBlanks strip)

variable {t u w inside rest : Text} {v v' : Value} {c d : Char}

/-! ### The ends of an attribute value -/

namespace Attribute

theorem StringChars.split {quote : Char} {read : Text} (h : StringChars quote t read rest) :
    ∃ inside, t = inside ++ quote :: rest ∧ ('\\' ∉ inside → read = inside) := by
  induction h with
  | close => exact ⟨[], rfl, fun _ => rfl⟩
  | plain _ _ _ ih =>
    obtain ⟨inside, rfl, hread⟩ := ih
    refine ⟨_ :: inside, rfl, fun hslash => ?_⟩
    rw [hread fun hmem => hslash (List.mem_cons_of_mem _ hmem)]
  | escape _ ih =>
    obtain ⟨inside, rfl, -⟩ := ih
    exact ⟨'\\' :: _ :: inside, rfl, fun hslash => absurd List.mem_cons_self hslash⟩

/-- What follows a literal is an ending of the text that it stands in. -/
theorem Literal.suffix (h : Literal w v rest) : rest <:+ w := by
  have hread := readLiteral_of_literal h (Blanks.refl w) (Nat.lt_succ_self _)
  have hgives : Reader.Gives (Value.Readable True Any) True w (readLiteral (w.length + 1) w) :=
    gives_readLiteral (fun _ => trivial) (List.suffix_refl w) (w.length + 1)
  rw [hread] at hgives
  exact hgives.2

/-- A literal that starts with a double quote is a string. -/
theorem Literal.exists_chars (h : Literal ('"' :: t) v rest) :
    ∃ read, StringChars '"' t read rest := by
  cases h with
  | string h =>
    obtain ⟨-, h, -⟩ := h
    exact ⟨_, h⟩
  | word hrun hword =>
    have hhead := hrun.head?_eq hword.ne_nil
    obtain ⟨c, run, rfl⟩ := List.exists_cons_of_ne_nil hword.ne_nil
    cases hhead
    exact absurd (hrun.all _ List.mem_cons_self) (by decide)
  | number hrun hhead _ =>
    rw [← hrun.head?_eq (Text.ne_nil_of_head? hhead)] at hhead
    obtain ⟨c, hc, hnumber⟩ := hhead
    cases hc
    exact absurd hnumber (by decide)

/-- The two ends of an attribute value: braces, or the same quote twice. -/
def Ends (c d : Char) : Prop := c = '\x7b' ∧ d = '\x7d' ∨ isQuote c = true ∧ d = c

theorem Ends.not_blank (h : Ends c d) : isBlank c = false ∧ isBlank d = false := by
  rcases h with ⟨rfl, rfl⟩ | ⟨hquote, rfl⟩
  · decide
  · rcases isQuote_iff.1 hquote with rfl | rfl | rfl <;> decide

/-- An attribute value starts and ends with braces or with a quote, blanks aside. -/
theorem Derives.ends (h : Derives t v) : ∃ c inside d, Ends c d ∧ strip t = c :: (inside ++ [d]) := by
  suffices ∃ s c inside d r, t = s ++ c :: (inside ++ d :: r) ∧ Ends c d ∧
      (∀ x ∈ s, isBlank x = true) ∧ ∀ x ∈ r, isBlank x = true by
    obtain ⟨s, c, inside, d, r, rfl, hends, hs, hr⟩ := this
    exact ⟨c, inside, d, hends, Text.strip_between hs hr hends.not_blank.1 hends.not_blank.2 inside⟩
  cases h with
  | string hu h hend =>
    obtain ⟨s, rfl, hs⟩ := hu
    obtain ⟨hquote, hchars, -⟩ := h
    obtain ⟨inside, rfl, -⟩ := hchars.split
    obtain ⟨r, hr, hblank⟩ := hend
    rw [List.append_nil] at hr
    subst hr
    exact ⟨s, _, inside, _, _, rfl, .inr ⟨hquote, rfl⟩, hs, hblank⟩
  | braced hopen hw h hclose hend =>
    obtain ⟨s, rfl, hs⟩ := hopen
    obtain ⟨b, rfl, -⟩ := hw
    obtain ⟨inside, rfl⟩ := h.suffix
    obtain ⟨b', rfl, -⟩ := hclose
    obtain ⟨r, hr, hblank⟩ := hend
    rw [List.append_nil] at hr
    subst hr
    exact ⟨s, '\x7b', b ++ (inside ++ b'), '\x7d', _, by simp, .inl ⟨rfl, rfl⟩, hs, hblank⟩

/-- A text with such ends looks like an attribute value. -/
theorem looksLikeOne_of_ends {d : Char} {inside : Text} (hends : Ends c d)
    (hstrip : strip t = c :: (inside ++ [d])) : looksLikeOne t = true := by
  have hlast : looksLikeOne t = (c == '\x7b' && d == '\x7d' || isQuote c && d == c) := by
    rw [looksLikeOne, hstrip]
    cases inside with
    | nil => rfl
    | cons b inside => simp
  rw [hlast]
  rcases hends with ⟨rfl, rfl⟩ | ⟨hquote, rfl⟩
  · rfl
  · simp [hquote]

/-- **An attribute value looks like one.** -/
theorem looksLikeOne_of_derives (h : Derives t v) : looksLikeOne t = true := by
  obtain ⟨c, inside, d, hends, hstrip⟩ := h.ends
  exact looksLikeOne_of_ends hends hstrip

end Attribute

/-! ### What JSON makes of attribute values -/

namespace Json

open Attribute (Literal Derives templateMark)

theorem isBlank_of_isSpace (h : isSpace c = true) : isBlank c = true := by
  simp only [isSpace, Bool.or_eq_true, beq_iff_eq] at h
  rcases h with ((rfl | rfl) | rfl) | rfl <;> decide

theorem skipBlanks_of_skipSpace (h : skipSpace t = c :: u) (hc : isBlank c = false) :
    skipBlanks t = c :: u := by
  have hblanks : Blanks t (c :: u) := by
    refine ⟨t.takeWhile isSpace, ?_, fun x hx => isBlank_of_isSpace (List.mem_takeWhile_imp hx)⟩
    rw [← h, skipSpace, List.takeWhile_append_dropWhile]
  exact hblanks.skip_cons hc

theorem not_isBlank_of_start (h : c ∈ starts ∨ c.isDigit = true) : isBlank c = false := by
  rcases h with h | h
  · have hstarts : (starts.all fun c => !isBlank c) = true := by decide
    simpa using List.all_eq_true.1 hstarts c h
  · exact Text.not_isBlank_of_isDigit h

/-- A JSON text starts behind its blanks with a character that may start a value. -/
theorem start_of_read (h : Json.read t = .ok v) : ∃ c u, skipSpace t = c :: u ∧
    skipBlanks t = c :: u ∧ (c ∈ starts ∨ c.isDigit = true) := by
  obtain ⟨rest, hread, -⟩ := readValue_of_read h
  obtain ⟨c, u, hstart, hc⟩ := start_of_readValue hread
  exact ⟨c, u, hstart, skipBlanks_of_skipSpace hstart (not_isBlank_of_start hc), hc⟩

/-- A string that is JSON is in double quotes, and without a backslash it is the same in both. -/
theorem eq_of_quoted (h : Json.read t = .ok v) {read : Text} (hu : Blanks t u)
    (hstring : Attribute.StringLiteral u read rest) :
    ∃ inside, u = '"' :: (inside ++ '"' :: rest) ∧ ('\\' ∉ inside → v = .text read) := by
  obtain ⟨c, s, hspace, hblanks, hstart⟩ := start_of_read h
  have hopens := hstring.opens (by decide : Attribute.isQuote ']' = false)
  rw [hu.skip_eq hopens.head] at hblanks
  obtain ⟨hquote, hchars, -⟩ := hstring
  obtain ⟨rfl, rfl⟩ := List.cons.inj hblanks
  -- neither of the other quotes starts a JSON value
  rcases Attribute.isQuote_iff.1 hquote with rfl | rfl | rfl
  · obtain ⟨inside, hsplit, hinside⟩ := hchars.split
    refine ⟨inside, congrArg ('"' :: ·) hsplit, fun hslash => ?_⟩
    obtain ⟨rest', hread, -⟩ := readValue_of_read h
    rw [hspace, readValue] at hread
    obtain ⟨⟨read', r⟩, hstring, hv⟩ := bind_eq_ok_iff.1 hread
    cases hv
    -- both strings end at the same quote
    have hjson := stringChars_of_readChars hstring
    obtain ⟨read₂, hchars₂⟩ := hjson.attribute
    have hsame := (Attribute.readChars_of_stringChars (by decide) hchars).symm.trans
      (Attribute.readChars_of_stringChars (by decide) hchars₂)
    cases hsame
    obtain ⟨inside', hsplit', hinside'⟩ := hjson.split
    obtain rfl := List.append_cancel_right (hsplit.symm.trans hsplit')
    rw [hinside hslash, hinside' hslash]
  · exact absurd hstart (by decide)
  · exact absurd hstart (by decide)

/-- What stands in the braces of a JSON value: nothing, or a string and a colon. -/
theorem braces_of_readValue {bound : Nat} (h : readValue bound ('\x7b' :: u) = .ok (v, rest)) :
    (∃ r, skipSpace u = '\x7d' :: r) ∨
      ∃ chars key after r, skipSpace u = '"' :: chars ∧ StringChars chars key after ∧
        skipSpace after = ':' :: r := by
  cases bound with
  | zero => cases h
  | succ bound =>
    rw [readValue] at h
    split at h
    · rename_i r hclose
      exact .inl ⟨r, hclose⟩
    · obtain ⟨⟨es, r⟩, hentries, -⟩ := bind_eq_ok_iff.1 h
      rw [readEntries.eq_def] at hentries
      dsimp only at hentries
      split at hentries
      · rename_i chars hchars
        obtain ⟨⟨key, after⟩, hkey, hentries⟩ := bind_eq_ok_iff.1 hentries
        dsimp only at hentries
        split at hentries
        · rename_i r hcolon
          exact .inr ⟨chars, key, after, r, hchars, stringChars_of_readChars hkey, hcolon⟩
        · cases hentries
      · cases hentries

/-- **No literal in braces is JSON**: there a string is followed by a colon, and not by the brace. -/
theorem false_of_braced (h : Json.read t = .ok v) (hopen : Blanks t ('\x7b' :: u))
    (hw : Blanks u w) (hliteral : Literal w v' inside)
    (hclose : Blanks inside ('\x7d' :: rest)) : False := by
  obtain ⟨c, s, hspace, hblanks, -⟩ := start_of_read h
  rw [hopen.skip_cons (by decide)] at hblanks
  obtain ⟨rfl, rfl⟩ := List.cons.inj hblanks
  obtain ⟨r, hread, -⟩ := readValue_of_read h
  rw [hspace] at hread
  obtain ⟨e, w', rfl, he, hbrace⟩ := hliteral.opens (.inr rfl)
  have hliteralStart := hw.skip_cons he
  rcases braces_of_readValue hread with ⟨r, hempty⟩ | ⟨chars, key, after, r, hstart, hchars, hcolon⟩
  · -- a brace that closes starts no literal
    rw [skipBlanks_of_skipSpace hempty (by decide)] at hliteralStart
    exact hbrace (List.cons.inj hliteralStart).1.symm
  · rw [skipBlanks_of_skipSpace hstart (by decide)] at hliteralStart
    obtain ⟨rfl, rfl⟩ := List.cons.inj hliteralStart
    -- both read the same string, but a colon follows it in one and a brace in the other
    obtain ⟨read, hattribute⟩ := hliteral.exists_chars
    obtain ⟨read', hattribute'⟩ := hchars.attribute
    have hsame := (Attribute.readChars_of_stringChars (by decide) hattribute).symm.trans
      (Attribute.readChars_of_stringChars (by decide) hattribute')
    cases hsame
    have hafter := skipBlanks_of_skipSpace hcolon (by decide)
    rw [hclose.skip_cons (by decide)] at hafter
    cases hafter

end Json

/-! ### Arguments -/

namespace Command

theorem readArgument_of_error {stop : Stop Json.Fault} (h : Json.read t = .error stop)
    (hlooks : Attribute.looksLikeOne t = true) : readArgument t = Attribute.read t := by
  rw [readArgument, h]
  exact if_pos hlooks

/-- **An attribute value is read as such** in an argument, or else it is a string in double quotes
with a backslash in it; it always looks like an attribute value.  In braces no attribute value is
JSON. -/
theorem readArgument_attribute (t : Text) :
    (∀ v, Attribute.read t = .ok v → Attribute.looksLikeOne t = true ∧
      (readArgument t = .ok v ∨
        ∃ inside, strip t = '"' :: (inside ++ ['"']) ∧ '\\' ∈ inside)) ∧
    ∀ u, skipBlanks t = '\x7b' :: u → ∀ v, Json.read t = .ok v →
      ∀ v', Attribute.read t ≠ .ok v' := by
  constructor
  · intro v hv
    have hderives := Attribute.derives_of_readWhole (mapError_eq_ok_iff.1 hv)
    have hlooks := Attribute.looksLikeOne_of_derives hderives
    refine ⟨hlooks, ?_⟩
    cases hjson : Json.read t with
    | error stop =>
      left
      rw [readArgument_of_error hjson hlooks, hv]
    | ok v' =>
      cases hderives with
      | braced hopen hw h hclose _ => exact (Json.false_of_braced hjson hopen hw h hclose).elim
      | string hu h hend =>
        obtain ⟨inside, rfl, hsame⟩ := Json.eq_of_quoted hjson hu h
        by_cases hslash : '\\' ∈ inside
        · right
          obtain ⟨s, rfl, hs⟩ := hu
          obtain ⟨r, hr, hblank⟩ := hend
          rw [List.append_nil] at hr
          subst hr
          exact ⟨inside, Text.strip_between hs hblank (by decide) (by decide) inside, hslash⟩
        · left
          rw [readArgument, hjson, hsame hslash]
  · intro u hu v hjson v' hv'
    have hderives := Attribute.derives_of_readWhole (mapError_eq_ok_iff.1 hv')
    cases hderives with
    | braced hopen hw h hclose _ => exact Json.false_of_braced hjson hopen hw h hclose
    | string hstart h _ =>
      have hopens := h.opens (by decide : Attribute.isQuote ']' = false)
      rw [hstart.skip_eq hopens.head] at hu
      obtain ⟨hquote, -, -⟩ := h
      rw [(List.cons.inj hu).1] at hquote
      exact absurd hquote (by decide)

/-- A list in braces between blanks is read as an attribute value, and a dictionary that is JSON is
none. -/
theorem readArgument_attribute_braces :
    (Attribute.looksLikeOne " \x7b[\"auto\", null]\x7d\n" = true ∧
      (readArgument " \x7b[\"auto\", null]\x7d\n" = .ok (.list [.text "auto", .null]) ∨
        ∃ inside, strip " \x7b[\"auto\", null]\x7d\n" = '"' :: (inside ++ ['"']) ∧
          '\\' ∈ inside)) ∧
      ∀ v, Attribute.read "\x7b\"md\": \"auto\"\x7d" ≠ .ok v :=
  ⟨(readArgument_attribute " \x7b[\"auto\", null]\x7d\n").1 (.list [.text "auto", .null]) rfl,
    (readArgument_attribute "\x7b\"md\": \"auto\"\x7d").2 "\"md\": \"auto\"\x7d" rfl
      (.dict [(.text "md", .text "auto")]) rfl⟩

end Command

end SpacingClasses
