import SpacingClasses.Proofs.Attribute.Stops

/-!
# The reader of attribute values goes on

Wherever the reader of attribute values starts in a source, it stops behind that place.

* `Attribute.readLiteral_congr` : what is read does not depend on a bound above the length of the
  text;
* `Attribute.readers_advance` : **every reader of literals goes on**, by rounds that go on, without
  seeing what stands before it and without spending its bound.
-/

namespace SpacingClasses

namespace Attribute

open Reader
open Text (Past skipBlanks)

variable {t : Text} {item item' : Reader Reason Value}

/-! ### Bounds -/

theorem itemRound_congr (h : ∀ u, u <:+ t → item u = item' u) :
    itemRound item t = itemRound item' t := by
  rw [itemRound, itemRound]
  split
  · rfl
  · rw [h _ (skipBlanks_suffix t)]

theorem entryRound_congr (h : ∀ u, u <:+ t → item u = item' u) :
    entryRound item t = entryRound item' t := by
  rw [entryRound, entryRound]
  split
  · rfl
  · refine (goes_readKey (stands_skipBlanks List.suffix_rfl)).bind_congr fun part hpart => ?_
    obtain ⟨key, afterKey⟩ := part
    have hkey : afterKey <:+ t := hpart.1.trans (skipBlanks_suffix t)
    refine (goes_expect ':' hkey).bind_congr fun afterColon hcolon => ?_
    rw [h afterColon (hcolon.1.trans hkey)]

section

variable (hitem : ∀ u, u <:+ t → item u = item' u) (hgoes : ∀ u, u <:+ t → Goes.Past t u (item u))

include hitem hgoes

theorem readItems_congr :
    readItems item (t.length + 1) t = readItems item' (t.length + 1) t := by
  have hround : ∀ u, u <:+ t → Goes.Past t u (itemRound item u) :=
    fun u hu => goes_itemRound (fun w hw => hgoes w (hw.trans hu)) hu
  rw [readItems_eq_loop, readItems_eq_loop]
  refine loop_congr (fun u hu => ?_) hround (Nat.lt_succ_self _) (Nat.lt_succ_self _)
  exact itemRound_congr fun w hw => hitem w (hw.trans hu)

theorem readEntries_congr :
    readEntries item (t.length + 1) t = readEntries item' (t.length + 1) t := by
  have hround : ∀ u, u <:+ t → Goes.Past t u (entryRound item u) :=
    fun u hu => goes_entryRound (fun w hw => hgoes w (hw.trans hu)) hu
  rw [readEntries_eq_loop, readEntries_eq_loop]
  refine loop_congr (fun u hu => ?_) hround (Nat.lt_succ_self _) (Nat.lt_succ_self _)
  exact entryRound_congr fun w hw => hitem w (hw.trans hu)

end

/-- **What is read does not depend on a bound above the length of the text.** -/
theorem readLiteral_congr {depth depth' : Nat} (hdepth : t.length < depth)
    (hdepth' : t.length < depth') : readLiteral depth t = readLiteral depth' t := by
  induction depth generalizing t depth' with
  | zero => cases hdepth
  | succ depth ih =>
    obtain ⟨depth', rfl⟩ := Nat.exists_eq_add_one_of_ne_zero (Nat.ne_zero_of_lt hdepth')
    rw [readLiteral, readLiteral]
    cases hskip : skipBlanks t with
    | nil => rfl
    | cons c u =>
      have hlength := (Past.of_skipBlanks hskip).2
      have hitem : ∀ w, w <:+ u → readLiteral depth w = readLiteral depth' w := by
        intro w hw
        have := hw.length_le
        exact ih (by omega) (by omega)
      have hgoes : ∀ w, w <:+ u → Goes.Past u w (readLiteral depth w) := by
        intro w hw
        have := hw.length_le
        exact goes_readLiteral hw (by omega)
      simp only [readItems_congr hitem hgoes, readEntries_congr hitem hgoes]

/-! ### Places in a source -/

section

variable {source : Text} {start depth : Nat} (hdepth : source.length - start < depth)

include hdepth

theorem goes_readLiteral_drop {u w : Text} (hu : u <:+ source.drop start) (hw : w <:+ u) :
    Goes.Past (source.drop start) w (readLiteral depth w) := by
  have hsuffix := hw.trans hu
  have hlength := hsuffix.length_le
  rw [List.length_drop] at hlength
  exact goes_readLiteral hsuffix (by omega)

theorem advances_readLiteral : Advances (readLiteral depth) source start :=
  advances_of_halts (goes_readLiteral_drop hdepth List.suffix_rfl List.suffix_rfl)

theorem loopAdvances_readItems :
    LoopAdvances (readItems (readLiteral depth)) (itemRound (readLiteral depth)) source start :=
  loopAdvances_of_halts (fun bound _ => readItems_eq_loop _ bound _)
    fun _ hu => goes_itemRound (fun _ hw => goes_readLiteral_drop hdepth hu hw) hu

theorem loopAdvances_readEntries :
    LoopAdvances (readEntries (readLiteral depth)) (entryRound (readLiteral depth)) source start :=
  loopAdvances_of_halts (fun bound _ => readEntries_eq_loop _ bound _)
    fun _ hu => goes_entryRound (fun _ hw => goes_readLiteral_drop hdepth hu hw) hu

end

section

variable (source : Text) (start : Nat) (quote : Char)

theorem advances_readKey : Advances readKey source start := by
  -- behind a quote the reader may stand anywhere
  have hplace : Stands ('"' :: source.drop start) (source.drop start) :=
    ⟨List.suffix_cons _ _, .inr ⟨'"', rfl, List.suffix_rfl⟩⟩
  exact advances_of_halts (goes_readKey hplace)

theorem advances_readString (hquote : isQuote quote = true) :
    Advances (readString quote) source start :=
  advances_of_halts (goes_readString hquote List.suffix_rfl)

theorem loopAdvances_readChars :
    LoopAdvances (fun _ => readChars quote) (charRound quote) source start :=
  loopAdvances_of_halts (fun _ hbound => readChars_eq_loop (by rwa [List.length_drop]))
    fun _ hu => goes_charRound hu

end

/-- **The readers of literals go on.** Wherever one of them starts in a source, it stops behind that
place, or for a fault; it does not see what stands before the place. Lists, dictionaries and strings
are read by rounds, each of which goes on as well. No bound above the number of characters that are
left is ever spent, on nesting or on rounds, and what is read is the same for all of them. -/
theorem readers_advance (source : Text) (start : Nat) :
    (∀ depth, source.length - start < depth →
      Advances (readLiteral depth) source start ∧
      (∀ depth', source.length - start < depth' →
        readLiteral depth' (source.drop start) = readLiteral depth (source.drop start)) ∧
      LoopAdvances (readItems (readLiteral depth)) (itemRound (readLiteral depth)) source start ∧
      LoopAdvances (readEntries (readLiteral depth)) (entryRound (readLiteral depth)) source
        start) ∧
    Advances readKey source start ∧
    (∀ quote, isQuote quote = true →
      Advances (readString quote) source start ∧
      LoopAdvances (fun _ => readChars quote) (charRound quote) source start) ∧
    readWhole source ≠ .error .exhausted := by
  refine ⟨fun depth hdepth => ⟨advances_readLiteral hdepth, fun depth' hdepth' => ?_,
    loopAdvances_readItems hdepth, loopAdvances_readEntries hdepth⟩,
    advances_readKey source start,
    fun quote hquote => ⟨advances_readString source start quote hquote,
      loopAdvances_readChars source start quote⟩, fun hread => ?_⟩
  · rw [← List.length_drop] at hdepth hdepth'
    exact readLiteral_congr hdepth' hdepth
  · have hgoes := goes_readWhole source
    rw [hread] at hgoes
    exact hgoes

/-- A list with a dictionary in it behind a brace, and behind the name of an attribute. -/
theorem readers_advance_nested :
    ((1 < 17 ∧ 17 ≤ ("\x7b[null, \x7ba: 'x'\x7d]\x7d" : Text).length) ∧
      readAt (readLiteral 18) "mb=[null, \x7ba: 'x'\x7d]\x7d" 3 =
        .ok (.list [.null, .dict [(.text "a", .text "x")]], 19)) ∧
    readLiteral 1000 "[null, \x7ba: 'x'\x7d]\x7d" = readLiteral 18 "[null, \x7ba: 'x'\x7d]\x7d" ∧
    readAt (readItems (readLiteral 18) 18) "\x7b[[[[null, \x7ba" 1 ≠ .error .exhausted ∧
    Advances (charRound '\'') "\x7b[null, \x7ba: 'x'\x7d]\x7d" 14 := by
  have hread : readAt (readLiteral 18) "\x7b[null, \x7ba: 'x'\x7d]\x7d" 1 =
      .ok (.list [.null, .dict [(.text "a", .text "x")]], 17) := by rfl
  obtain ⟨hliteral, -, hstring, -⟩ := readers_advance "\x7b[null, \x7ba: 'x'\x7d]\x7d" 1
  obtain ⟨hadvances, hsteady, -, -⟩ := hliteral 18 (by decide)
  obtain ⟨-, -, hopen, -⟩ := (readers_advance "\x7b[[[[null, \x7ba" 1).1 18 (by decide)
  refine ⟨⟨?_, ?_⟩, hsteady 1000 (by decide), (hopen.advances 18 (by decide)).unspent, ?_⟩
  · obtain ⟨hstart, hstop, -⟩ := hadvances.onward _ _ hread
    exact ⟨hstart, hstop⟩
  · have hmoved := hadvances.anywhere "mb="
    rw [hread] at hmoved
    exact hmoved
  · exact (hstring '\'' (by decide)).2.rounds 14 (by decide)

end Attribute

end SpacingClasses
