import SpacingClasses.Proofs.Attribute.Stops

/-!
# How deep attribute values are nested

Each literal inside another takes calls of its own, and there is room for some calls only.  An attribute
value for which there is room is read as if there were room for any number of calls.

* `Attribute.nesting t` : the greatest number of brackets and braces of the text that are open at once,
  those in strings aside;
* `Attribute.Nests deep good x` : the answer `x` of a reader is `good`, or a stop, and one for want of
  room only if `deep` holds;
* `Attribute.nests_readLiteral` : **a literal wants more room than there is only if as many brackets are
  open at once**;
* `Attribute.Agrees x x'` : the answers are the same, unless the first is a stop for want of room;
* `Attribute.agrees_readLiteral` : what is read with some room is read with more;
* `Attribute.readIn_cases` : **an attribute value is read in full**, or it is nested too deep;
* `Attribute.readIn_eq_read` : with room for what is nested it is read in full;
* `Attribute.readIn_brackets` : with less room brackets are not read.
-/

namespace SpacingClasses

namespace Attribute

open Reader (Round loop stopAt cons)
open Text (Past skipBlanks)

/-! ### Open brackets -/

/-- Where a scan of a text stands. -/
inductive Scan where
  | outside
  /-- In a string with this quote. -/
  | inside (quote : Char)
  /-- In such a string behind a backslash. -/
  | escape (quote : Char)

/-- The characters that open and close strings, lists and dictionaries. -/
def marks : List Char := ['"', '\'', templateMark, '[', ']', '\x7b', '\x7d']

/-- Where the scan stands behind a character. -/
def Scan.next : Scan → Char → Scan
  | outside, c => if isQuote c then inside c else outside
  | inside quote, c =>
    if c = '\\' then escape quote else if c = quote then outside else inside quote
  | escape quote, _ => inside quote

/-- The number of brackets that are open behind a character. -/
def Scan.level : Scan → Nat → Char → Nat
  | outside, level, c =>
    if c = '[' || c = '\x7b' then level + 1
    else if c = ']' || c = '\x7d' then level - 1
    else level
  | _, level, _ => level

/-- The greatest number of brackets that are open at once, when so many are to begin with. -/
def deepest : Scan → Nat → Text → Nat
  | _, level, [] => level
  | s, level, c :: rest => max level (deepest (s.next c) (s.level level c) rest)

/-- The greatest number of brackets of a text that are open at once. -/
def nesting (t : Text) : Nat := deepest .outside 0 t

example : nesting "\x7b[']]]', [[], 1]]\x7d" = 4 := by decide

variable {α β : Type} {s : Scan} {level depth n : Nat} {t u rest : Text} {c quote : Char}

theorem level_le_deepest (s : Scan) (level : Nat) (t : Text) : level ≤ deepest s level t := by
  cases t with
  | nil => exact le_rfl
  | cons c t => exact le_max_left ..

/-- Behind a character no more brackets are open at once than from before it on. -/
theorem deepest_next (s : Scan) (level : Nat) (c : Char) (t : Text) :
    deepest (s.next c) (s.level level c) t ≤ deepest s level (c :: t) := le_max_right ..

theorem not_isQuote_of_not_mark (hc : c ∉ marks) : isQuote c = false := by
  simp only [marks, List.mem_cons, not_or] at hc
  simp [isQuote, hc]

theorem deepest_plain (hc : c ∉ marks) (level : Nat) (t : Text) :
    deepest .outside level t ≤ deepest .outside level (c :: t) := by
  have hnext := deepest_next .outside level c t
  have hquote := not_isQuote_of_not_mark hc
  simp only [marks, List.mem_cons, not_or] at hc
  simpa [Scan.next, Scan.level, hquote, hc] using hnext

theorem deepest_opening (hc : c = '[' ∨ c = '\x7b') (level : Nat) (t : Text) :
    deepest .outside (level + 1) t ≤ deepest .outside level (c :: t) := by
  rcases hc with rfl | rfl
  · exact deepest_next .outside level '[' t
  · exact deepest_next .outside level '\x7b' t

theorem deepest_closing (hc : c = ']' ∨ c = '\x7d') (level : Nat) (t : Text) :
    deepest .outside level t ≤ deepest .outside (level + 1) (c :: t) := by
  rcases hc with rfl | rfl
  · exact deepest_next .outside (level + 1) ']' t
  · exact deepest_next .outside (level + 1) '\x7d' t

theorem deepest_quote (hquote : isQuote quote = true) (level : Nat) (t : Text) :
    deepest (.inside quote) level t ≤ deepest .outside level (quote :: t) := by
  rcases isQuote_iff.1 hquote with rfl | rfl | rfl
  · exact deepest_next .outside level '"' t
  · exact deepest_next .outside level '\'' t
  · exact deepest_next .outside level templateMark t

/-- Characters of a class without brackets and quotes are passed over. -/
theorem deepest_dropWhile {p : Char → Bool} (hp : marks.any p = false) (level : Nat)
    (t : Text) : deepest .outside level (t.dropWhile p) ≤ deepest .outside level t := by
  induction t with
  | nil => exact le_rfl
  | cons c t ih =>
    by_cases hc : p c = true
    · have hmark : c ∉ marks := fun hmem => List.any_eq_false.1 hp c hmem hc
      rw [List.dropWhile_cons_of_pos hc]
      exact ih.trans (deepest_plain hmark level t)
    · rw [List.dropWhile_cons_of_neg hc]

theorem deepest_skipBlanks (level : Nat) (t : Text) :
    deepest .outside level (skipBlanks t) ≤ deepest .outside level t :=
  deepest_dropWhile (by decide) level t

theorem deepest_of_skipBlanks (h : skipBlanks t = u) (ht : deepest .outside level t ≤ n) :
    deepest .outside level u ≤ n :=
  h ▸ (deepest_skipBlanks level t).trans ht

/-! ### Room -/

/-- The answer of a reader is `good`, or a stop, and one for want of room only if `deep` holds. -/
def Nests (deep : Prop) (good : α → Prop) : Except (Stop Reason) α → Prop
  | .ok a => good a
  | .error .exhausted => deep
  | .error (.fault ..) => True
  | .error (.limit _) => True

variable {deep : Prop} {good : α → Prop} {good' : β → Prop}

theorem Nests.bind {x : Except (Stop Reason) α} {f : α → Except (Stop Reason) β}
    (h : Nests deep good x) (hf : ∀ a, good a → Nests deep good' (f a)) :
    Nests deep good' (x >>= f) :=
  match x, h with
  | .ok a, h => hf a h
  | .error .exhausted, h => h
  | .error (.fault ..), _ => trivial
  | .error (.limit _), _ => trivial

theorem Nests.imp {good₂ : α → Prop} {x : Except (Stop Reason) α} (h : Nests deep good x)
    (himp : ∀ a, good a → good₂ a) : Nests deep good₂ x :=
  match x, h with
  | .ok a, h => himp a h
  | .error .exhausted, h => h
  | .error (.fault ..), _ => trivial
  | .error (.limit _), _ => trivial

/-- What is known of all answers that are no stops may be added. -/
theorem Nests.and {good₂ : α → Prop} {x : Except (Stop Reason) α} (h : Nests deep good x)
    (hadd : ∀ a, x = .ok a → good₂ a) : Nests deep (fun a => good₂ a ∧ good a) x :=
  match x, h, hadd with
  | .ok a, h, hadd => ⟨hadd a rfl, h⟩
  | .error .exhausted, h, _ => h
  | .error (.fault ..), _, _ => trivial
  | .error (.limit _), _, _ => trivial

theorem nests_stopAt (left : Text) (reason : Reason) :
    Nests deep good (stopAt left reason) := trivial

theorem nests_cons {good : Text × Text → Prop} {x : Except (Stop Reason) (Text × Text)}
    (h : Nests deep (fun part => good (c :: part.1, part.2)) x) : Nests deep good (cons c x) :=
  match x, h with
  | .ok _, h => h
  | .error .exhausted, h => h
  | .error (.fault ..), _ => trivial
  | .error (.limit _), _ => trivial

/-- Behind what is read no more than `n` brackets are open at once. -/
abbrev Nests.Below {α : Type} (deep : Prop) (level n : Nat)
    (x : Except (Stop Reason) (α × Text)) : Prop :=
  Nests deep (fun part => deepest .outside level part.2 ≤ n) x

/-! ### Strings, words and numbers -/

theorem nests_readChars (hslash : quote ≠ '\\') (ht : deepest (.inside quote) level t ≤ n) :
    Nests.Below deep level n (readChars quote t) := by
  fun_induction readChars quote t with
  | case1 => exact nests_stopAt ..
  | case2 c t ih =>
    refine nests_cons (ih (le_trans ?_ ht))
    exact (deepest_next (.escape quote) level c t).trans (deepest_next (.inside quote) level '\\' _)
  | case3 t =>
    have hnext := deepest_next (.inside quote) level quote t
    rw [Scan.next, if_neg hslash, if_pos rfl] at hnext
    exact hnext.trans ht
  | case4 c t hlone hquote ih =>
    by_cases hc : c = '\\'
    · -- a backslash at the end of the text is followed by nothing
      cases t with
      | nil => exact nests_cons (nests_stopAt ..)
      | cons d t => exact (hlone d t hc rfl).elim
    · have hnext := deepest_next (.inside quote) level c t
      rw [Scan.next, if_neg hc, if_neg hquote] at hnext
      exact nests_cons (ih (hnext.trans ht))

theorem nests_readString (hquote : isQuote quote = true)
    (ht : deepest .outside level (quote :: t) ≤ n) :
    Nests.Below deep level n (readString quote t) := by
  have hslash : quote ≠ '\\' := by
    rcases isQuote_iff.1 hquote with rfl | rfl | rfl <;> decide
  rw [readString]
  refine (nests_readChars hslash ((deepest_quote hquote level t).trans ht)).bind fun part hpart => ?_
  dsimp only
  split
  · exact nests_stopAt ..
  · exact hpart

theorem nests_readWord (ht : deepest .outside level t ≤ n) :
    Nests.Below deep level n (readWord t) := by
  rw [readWord]
  split
  · exact (deepest_dropWhile (by decide) level t).trans ht
  · exact nests_stopAt ..

theorem nests_readNumber (ht : deepest .outside level t ≤ n) :
    Nests.Below deep level n (readNumber t) := by
  have hrest := (deepest_dropWhile (p := isNumberChar) (by decide) level t).trans ht
  rw [readNumber]
  dsimp only
  split
  · exact nests_stopAt ..
  · split
    · split
      · exact hrest
      · exact trivial
    · exact hrest

theorem nests_readKey (ht : deepest .outside level t ≤ n) :
    Nests.Below deep level n (readKey t) := by
  cases t with
  | nil => exact nests_stopAt ..
  | cons c t =>
    rw [readKey]
    split
    · rename_i hquote
      exact nests_readString hquote ht
    · split
      · exact (deepest_dropWhile (by decide) level (c :: t)).trans ht
      · split
        · exact (deepest_dropWhile (by decide) level (c :: t)).trans ht
        · exact nests_stopAt ..

theorem nests_expect (c : Char) (t : Text) :
    Nests deep (fun rest => skipBlanks t = c :: rest) (expect c t) := by
  rw [expect]
  split
  · exact trivial
  · rename_i d rest hskip
    split
    · rename_i hd
      rw [hskip, hd]
      rfl
    · exact trivial

/-! ### Lists and dictionaries -/

/-- Behind a round that goes on one more bracket is open than behind one that does not, and no more than
`n` are at once. -/
def Leads (level n : Nat) : Round α × Text → Prop
  | (.more _, rest) => deepest .outside (level + 1) rest ≤ n
  | (.last _, rest) => deepest .outside level rest ≤ n
  | (.close, rest) => deepest .outside level rest ≤ n

/-- **If each round goes on in the text, the bound of a loop is no want of room.** -/
theorem nests_loop {round : Reader Reason (Round α)}
    (hround : ∀ u, deepest .outside (level + 1) u ≤ n →
      Nests deep (fun part => part.2.length < u.length ∧ Leads level n part) (round u))
    {bound : Nat} (ht : deepest .outside (level + 1) t ≤ n) (hbound : t.length < bound) :
    Nests.Below deep level n (loop round bound t) := by
  induction bound generalizing t with
  | zero => cases hbound
  | succ bound ih =>
    rw [loop]
    refine (hround t ht).bind fun part hpart => ?_
    obtain ⟨part, rest⟩ := part
    obtain ⟨hlength, hleads⟩ := hpart
    cases part with
    | close => exact hleads
    | last a => exact hleads
    | more a =>
      have hmore := ih hleads (hlength.trans_le (Nat.le_of_lt_succ hbound))
      exact hmore.bind fun part hrest => hrest

theorem nests_roundEnd {close : Char} (hclose : close = ']' ∨ close = '\x7d') (a : α)
    (ht : deepest .outside (level + 1) t ≤ n) :
    Nests deep (Leads level n) (roundEnd close a t) := by
  rw [roundEnd]
  split
  · rename_i next hcomma
    exact (deepest_plain (by decide) _ next).trans (deepest_of_skipBlanks hcomma ht)
  · refine (nests_expect close t).bind fun rest hrest => ?_
    exact (deepest_closing hclose level rest).trans (deepest_of_skipBlanks hrest ht)

section

variable {item : Reader Reason Value}
  (hitem : ∀ u, deepest .outside (level + 1) u ≤ n → Nests.Below deep (level + 1) n (item u))

include hitem

theorem nests_itemRound (ht : deepest .outside (level + 1) t ≤ n) :
    Nests deep (Leads level n) (itemRound item t) := by
  rw [itemRound]
  split
  · rename_i rest hclose
    exact (deepest_closing (.inl rfl) level rest).trans (deepest_of_skipBlanks hclose ht)
  · refine (hitem _ (deepest_of_skipBlanks rfl ht)).bind fun part hpart => ?_
    exact nests_roundEnd (.inl rfl) part.1 hpart

theorem nests_entryRound (ht : deepest .outside (level + 1) t ≤ n) :
    Nests deep (Leads level n) (entryRound item t) := by
  rw [entryRound]
  split
  · rename_i rest hclose
    exact (deepest_closing (.inr rfl) level rest).trans (deepest_of_skipBlanks hclose ht)
  · refine (nests_readKey (deepest_of_skipBlanks rfl ht)).bind fun key hkey => ?_
    refine (nests_expect ':' key.2).bind fun afterColon hcolon => ?_
    have hafter := (deepest_plain (by decide) (level + 1) afterColon).trans
      (deepest_of_skipBlanks hcolon hkey)
    refine (hitem _ hafter).bind fun part hpart => ?_
    exact nests_roundEnd (.inr rfl) _ hpart

end

section

variable {item : Reader Reason Value} {part : Round Value × Text}
  {entry : Round (Value × Value) × Text}
  (hlength : ∀ {u v w}, item u = .ok (v, w) → w.length < u.length)

include hlength

theorem length_lt_of_itemRound (h : itemRound item t = .ok part) : part.2.length < t.length := by
  have hskip := (skipBlanks_suffix t).length_le
  rw [itemRound] at h
  split at h
  · rename_i rest hclose
    cases h
    exact (Past.of_skipBlanks hclose).2
  · obtain ⟨⟨v, after⟩, hv, h⟩ := bind_eq_ok_iff.1 h
    have hend := goes_roundEnd ']' v (List.suffix_refl after)
    have hitem := hlength hv
    dsimp only at h
    rw [h] at hend
    have := hend.2
    omega

theorem length_lt_of_entryRound (h : entryRound item t = .ok entry) :
    entry.2.length < t.length := by
  rw [entryRound] at h
  split at h
  · rename_i rest hclose
    cases h
    exact (Past.of_skipBlanks hclose).2
  · obtain ⟨⟨key, afterKey⟩, hkey, h⟩ := bind_eq_ok_iff.1 h
    obtain ⟨afterColon, hcolon, h⟩ := bind_eq_ok_iff.1 h
    obtain ⟨⟨v, after⟩, hv, h⟩ := bind_eq_ok_iff.1 h
    have hpastKey := goes_readKey (stands_skipBlanks (List.suffix_refl t))
    have hpastColon := goes_expect ':' (List.suffix_refl afterKey)
    have hend := goes_roundEnd '\x7d' (Value.text key, v) (List.suffix_refl after)
    have hitem := hlength hv
    dsimp only at hcolon h
    rw [hkey] at hpastKey
    rw [hcolon] at hpastColon
    rw [h] at hend
    have hkeyLength : afterKey.length < (skipBlanks t).length := hpastKey.2
    have := (skipBlanks_suffix t).length_le
    have := hpastColon.2
    have := hend.2
    omega

end

/-- A literal goes on in the text, with whatever room it is read. -/
theorem length_lt_of_readLiteral {v : Value} (h : readLiteral depth t = .ok (v, rest)) :
    rest.length < t.length :=
  (literal_of_readLiteral h).length_lt.trans_le (skipBlanks_suffix t).length_le

/-! ### Literals and attribute values -/

/-- **A literal wants more room than there is only if as many brackets are open at once.** -/
theorem nests_readLiteral (depth level : Nat) (ht : deepest .outside level t ≤ n) :
    Nests.Below (level + depth ≤ n) level n (readLiteral depth t) := by
  induction depth generalizing level t with
  | zero => exact (level_le_deepest .outside level t).trans ht
  | succ depth ih =>
    rw [readLiteral]
    split
    · exact nests_stopAt ..
    · rename_i c u hskip
      have hu := deepest_of_skipBlanks hskip ht
      have hdeep : level + 1 + depth = level + (depth + 1) := by omega
      split
      · rename_i hquote
        exact (nests_readString hquote hu).bind fun part hpart => hpart
      · split
        · rename_i hopen
          have hinside := (deepest_opening (.inl hopen) level u).trans hu
          have hitems : Nests.Below (level + (depth + 1) ≤ n) level n
              (readItems (readLiteral depth) (u.length + 1) u) := by
            rw [readItems_eq_loop, ← hdeep]
            refine nests_loop (fun w hw => ?_) hinside (Nat.lt_succ_self _)
            have hround := nests_itemRound (fun x hx => ih (level + 1) hx) hw
            exact hround.and fun part => length_lt_of_itemRound length_lt_of_readLiteral
          exact hitems.bind fun part hpart => hpart
        · split
          · rename_i hopen
            have hinside := (deepest_opening (.inr hopen) level u).trans hu
            have hentries : Nests.Below (level + (depth + 1) ≤ n) level n
                (readEntries (readLiteral depth) (u.length + 1) u) := by
              rw [readEntries_eq_loop, ← hdeep]
              refine nests_loop (fun w hw => ?_) hinside (Nat.lt_succ_self _)
              have hround := nests_entryRound (fun x hx => ih (level + 1) hx) hw
              exact hround.and fun part => length_lt_of_entryRound length_lt_of_readLiteral
            exact hentries.bind fun part hpart => hpart
          · split
            · exact nests_readNumber hu
            · exact nests_readWord hu

/-- So does an attribute value, whose brace is one of the brackets. -/
theorem nests_readWholeBy (depth : Nat) (t : Text) :
    Nests (depth < nesting t) (fun _ => True) (readWholeBy (readLiteral depth) t) := by
  have hvalue : Nests (depth < nesting t) (fun _ => True) (readValueBy (readLiteral depth) t) := by
    rw [readValueBy]
    split
    · exact nests_stopAt ..
    · rename_i c u hskip
      have hu : deepest .outside 0 (c :: u) ≤ nesting t := deepest_of_skipBlanks hskip le_rfl
      split
      · rename_i hquote
        exact (nests_readString hquote hu).bind fun _ _ => trivial
      · split
        · rename_i hopen
          have hinside := (deepest_opening (.inr hopen) 0 u).trans hu
          have hliteral := nests_readLiteral depth (0 + 1) hinside
          rw [Nat.zero_add, Nat.add_comm] at hliteral
          refine hliteral.bind fun part _ => ?_
          exact (nests_expect '\x7d' part.2).bind fun _ _ => trivial
        · exact nests_stopAt ..
  refine hvalue.bind fun part _ => ?_
  dsimp only
  split
  · exact trivial
  · exact trivial

/-! ### More room -/

/-- The second answer is the first, unless that is a stop for want of room. -/
def Agrees {ρ : Type} (x x' : Except (Stop ρ) α) : Prop := x ≠ .error .exhausted → x' = x

theorem Agrees.refl {ρ : Type} (x : Except (Stop ρ) α) : Agrees x x := fun _ => rfl

theorem Agrees.bind {ρ : Type} {x x' : Except (Stop ρ) α} {f f' : α → Except (Stop ρ) β}
    (h : Agrees x x') (hf : ∀ a, Agrees (f a) (f' a)) : Agrees (x >>= f) (x' >>= f') := by
  intro hbind
  cases x with
  | ok a =>
    rw [h nofun]
    exact hf a hbind
  | error stop =>
    rw [h fun hstop => hbind (by rw [hstop]; rfl)]
    rfl

section

variable {item item' : Reader Reason Value} (hitem : ∀ u, Agrees (item u) (item' u))

include hitem

theorem agrees_itemRound (t : Text) : Agrees (itemRound item t) (itemRound item' t) := by
  rw [itemRound, itemRound]
  split
  · exact .refl _
  · exact (hitem _).bind fun part => .refl _

theorem agrees_entryRound (t : Text) : Agrees (entryRound item t) (entryRound item' t) := by
  rw [entryRound, entryRound]
  split
  · exact .refl _
  · refine (Agrees.refl _).bind fun key => (Agrees.refl _).bind fun afterColon => ?_
    exact (hitem _).bind fun part => .refl _

end

theorem agrees_loop {ρ : Type} {round round' : Reader ρ (Round α)}
    (hround : ∀ u, Agrees (round u) (round' u)) (bound : Nat) (t : Text) :
    Agrees (loop round bound t) (loop round' bound t) := by
  induction bound generalizing t with
  | zero => exact .refl _
  | succ bound ih =>
    rw [loop, loop]
    refine (hround t).bind fun part => ?_
    obtain ⟨part, rest⟩ := part
    cases part with
    | close => exact .refl _
    | last a => exact .refl _
    | more a => exact (ih rest).bind fun part => .refl _

/-- **What is read with some room is read with more.** -/
theorem agrees_readLiteral {more : Nat} (h : depth ≤ more) (t : Text) :
    Agrees (readLiteral depth t) (readLiteral more t) := by
  induction depth generalizing more t with
  | zero => exact fun hroom => (hroom rfl).elim
  | succ depth ih =>
    obtain ⟨more, rfl⟩ := Nat.exists_eq_add_one_of_ne_zero (Nat.ne_zero_of_lt h)
    have hitem := fun u => ih (Nat.le_of_succ_le_succ h) u
    rw [readLiteral, readLiteral]
    cases skipBlanks t with
    | nil => exact .refl _
    | cons c u =>
      dsimp only
      split
      · exact .refl _
      · split
        · rw [readItems_eq_loop, readItems_eq_loop]
          exact (agrees_loop (agrees_itemRound hitem) _ u).bind fun part => .refl _
        · split
          · rw [readEntries_eq_loop, readEntries_eq_loop]
            exact (agrees_loop (agrees_entryRound hitem) _ u).bind fun part => .refl _
          · exact .refl _

/-- What is read with any room is what is read with as much as the length of the text. -/
theorem agrees_readAnyLiteral (depth : Nat) (t : Text) :
    Agrees (readLiteral depth t) (readAnyLiteral t) := by
  intro hroom
  have hmore := agrees_readLiteral (Nat.le_max_left depth (t.length + 1)) t hroom
  have hany := agrees_readLiteral (Nat.le_max_right depth (t.length + 1)) t fun hspent => by
    have hgoes := goes_readLiteral (List.suffix_refl t) (Nat.lt_succ_self t.length)
    rw [hspent] at hgoes
    exact hgoes
  exact hany.symm.trans hmore

theorem agrees_readWholeBy (depth : Nat) (t : Text) :
    Agrees (readWholeBy (readLiteral depth) t) (readWhole t) := by
  have hvalue : Agrees (readValueBy (readLiteral depth) t) (readValueBy readAnyLiteral t) := by
    rw [readValueBy, readValueBy]
    cases skipBlanks t with
    | nil => exact .refl _
    | cons c u =>
      dsimp only
      split
      · exact .refl _
      · split
        · exact (agrees_readAnyLiteral depth u).bind fun part => .refl _
        · exact .refl _
  exact hvalue.bind fun part => .refl _

/-- **An attribute value is read in full**, or it is nested too deep for the room that there is. -/
theorem readIn_cases (calls : Nat) (t : Text) :
    readIn calls t = read t ∨ levelsIn calls < nesting t ∧ readIn calls t = .error .tooDeep := by
  have hnests := nests_readWholeBy (levelsIn calls) t
  by_cases hroom : readWholeBy (readLiteral (levelsIn calls)) t = .error .exhausted
  · rw [hroom] at hnests
    refine .inr ⟨hnests, ?_⟩
    rw [readIn, hroom]
    rfl
  · left
    rw [readIn, read, agrees_readWholeBy (levelsIn calls) t hroom]

/-- With room enough for what is nested there might as well be room for any number of calls. -/
theorem readIn_eq_read {calls : Nat} (h : nesting t ≤ levelsIn calls) : readIn calls t = read t :=
  (readIn_cases calls t).resolve_right fun hdeep => absurd hdeep.1 (Nat.not_lt.2 h)

/-! ### Brackets -/

/-- So many brackets in braces. -/
def brackets (n : Nat) : Text :=
  '\x7b' :: (List.replicate n '[' ++ (List.replicate n ']' ++ ['\x7d']))

/-- Brackets in one another want as much room as there are. -/
theorem readLiteral_brackets (h : depth < n) (t : Text) :
    readLiteral depth (List.replicate n '[' ++ t) = .error .exhausted := by
  induction depth generalizing n with
  | zero => rfl
  | succ depth ih =>
    obtain ⟨n, rfl⟩ := Nat.exists_eq_add_one_of_ne_zero (Nat.ne_zero_of_lt h)
    have hdepth : depth < n := Nat.lt_of_succ_lt_succ h
    obtain ⟨m, rfl⟩ := Nat.exists_eq_add_one_of_ne_zero (Nat.ne_zero_of_lt hdepth)
    have hitem := ih hdepth
    rw [List.replicate_succ, List.cons_append] at hitem
    rw [List.replicate_succ, List.replicate_succ, List.cons_append, List.cons_append]
    generalize List.replicate m '[' ++ t = u at hitem
    have hskip : skipBlanks ('[' :: u) = '[' :: u := List.dropWhile_cons_of_neg (by decide)
    have hround : itemRound (readLiteral depth) ('[' :: u) = .error .exhausted := by
      rw [itemRound_open (by rw [hskip]; nofun), hskip, hitem]
      rfl
    have hitems : readItems (readLiteral depth) (u.length + 1 + 1) ('[' :: u) =
        .error .exhausted := by
      rw [readItems_eq_loop, loop, hround]
      rfl
    have hliteral : readLiteral (depth + 1) ('[' :: '[' :: u) =
        readItems (readLiteral depth) (u.length + 1 + 1) ('[' :: u) >>= fun part =>
          .ok (.list part.1, part.2) := rfl
    rw [hliteral, hitems]
    rfl

/-- So many brackets are too deep, if there is not as much room. -/
theorem readIn_brackets {calls : Nat} (h : levelsIn calls < n) :
    readIn calls (brackets n) = .error .tooDeep := by
  rw [readIn, brackets, readWholeBy_braced (readLiteral_brackets h _)]
  rfl

end Attribute

end SpacingClasses
