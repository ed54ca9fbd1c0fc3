import SpacingClasses.Proofs.Attribute.Reading
import SpacingClasses.Proofs.Progress

/-!
# Rounds of the reader of attribute values

The items of a list, the entries of a dictionary and the characters of a string are read in rounds:
one thing after another, with what stands between two of them.

* `Attribute.itemRound`, `Attribute.entryRound`, `Attribute.charRound` : one round;
* `Attribute.readItems_eq_loop`, `Attribute.readEntries_eq_loop`, `Attribute.readChars_eq_loop` :
  **what is read is what the rounds read**, one after another.
-/

namespace SpacingClasses

namespace Attribute

open Reader
open Text (skipBlanks)

variable {α : Type} {t : Text} {quote : Char}

/-- What stands behind one of several things: a comma, or the end of the loop. -/
def roundEnd (close : Char) (a : α) (t : Text) : Except (Stop Reason) (Round α × Text) :=
  match skipBlanks t with
  | ',' :: next => .ok (.more a, next)
  | _ => do
    let rest ← expect close t
    .ok (.last a, rest)

/-- One item of a list with the comma or the bracket behind it, or the closing bracket. -/
def itemRound (item : Reader Reason Value) : Reader Reason (Round Value) := fun t =>
  match skipBlanks t with
  | ']' :: rest => .ok (.close, rest)
  | start => do
    let (v, afterItem) ← item start
    roundEnd ']' v afterItem

/-- One entry of a dictionary with the comma or the brace behind it, or the closing brace. -/
def entryRound (item : Reader Reason Value) : Reader Reason (Round (Value × Value)) := fun t =>
  match skipBlanks t with
  | '\x7d' :: rest => .ok (.close, rest)
  | start => do
    let (key, afterKey) ← readKey start
    let afterColon ← expect ':' afterKey
    let (v, afterItem) ← item afterColon
    roundEnd '\x7d' (.text key, v) afterItem

/-- One character of a string, or the closing quote. -/
def charRound (quote : Char) : Reader Reason (Round Char)
  | [] => stopAt [] .unterminated
  | '\\' :: c :: rest => .ok (.more (escaped c), rest)
  | c :: rest => if c = quote then .ok (.close, rest) else .ok (.more c, rest)

/-! ### One round -/

section

variable {item : Reader Reason Value} {close : Char} {a : α} {rest next : Text}

theorem roundEnd_more (h : skipBlanks t = ',' :: next) :
    roundEnd close a t = .ok (.more a, next) := by
  rw [roundEnd, h]
  rfl

theorem roundEnd_last (h : ∀ next, skipBlanks t = ',' :: next → False) :
    roundEnd close a t = expect close t >>= fun rest => .ok (.last a, rest) := by
  rw [roundEnd]
  split
  · rename_i next hcomma
    exact (h next hcomma).elim
  · rfl

theorem itemRound_close (h : skipBlanks t = ']' :: rest) :
    itemRound item t = .ok (.close, rest) := by
  rw [itemRound, h]
  rfl

theorem itemRound_open (h : ∀ rest, skipBlanks t = ']' :: rest → False) :
    itemRound item t = item (skipBlanks t) >>= fun part => roundEnd ']' part.1 part.2 := by
  rw [itemRound]
  split
  · rename_i rest hclose
    exact (h rest hclose).elim
  · rfl

theorem entryRound_close (h : skipBlanks t = '\x7d' :: rest) :
    entryRound item t = .ok (.close, rest) := by
  rw [entryRound, h]
  rfl

theorem entryRound_open (h : ∀ rest, skipBlanks t = '\x7d' :: rest → False) :
    entryRound item t = readKey (skipBlanks t) >>= fun key => expect ':' key.2 >>= fun afterColon =>
      item afterColon >>= fun part => roundEnd '\x7d' (.text key.1, part.1) part.2 := by
  rw [entryRound]
  split
  · rename_i rest hclose
    exact (h rest hclose).elim
  · rfl

end

/-! ### Round after round -/

/-- **The items of a list are read round after round.** -/
theorem readItems_eq_loop (item : Reader Reason Value) (bound : Nat) (t : Text) :
    readItems item bound t = loop (itemRound item) bound t := by
  induction bound generalizing t with
  | zero => rfl
  | succ bound ih =>
    rw [readItems, loop]
    split
    · rename_i rest hclose
      rw [itemRound_close hclose]
      rfl
    · rename_i hopen
      rw [itemRound_open hopen, bind_assoc]
      refine bind_congr fun part => ?_
      obtain ⟨v, afterItem⟩ := part
      dsimp only
      split
      · rename_i next hcomma
        rw [roundEnd_more hcomma, ih]
        rfl
      · rename_i hlast
        rw [roundEnd_last hlast, bind_assoc]
        rfl

/-- **The entries of a dictionary are read round after round.** -/
theorem readEntries_eq_loop (item : Reader Reason Value) (bound : Nat) (t : Text) :
    readEntries item bound t = loop (entryRound item) bound t := by
  induction bound generalizing t with
  | zero => rfl
  | succ bound ih =>
    rw [readEntries, loop]
    split
    · rename_i rest hclose
      rw [entryRound_close hclose]
      rfl
    · rename_i hopen
      rw [entryRound_open hopen, bind_assoc]
      refine bind_congr fun key => ?_
      rw [bind_assoc]
      refine bind_congr fun afterColon => ?_
      rw [bind_assoc]
      refine bind_congr fun part => ?_
      obtain ⟨v, afterItem⟩ := part
      dsimp only
      split
      · rename_i next hcomma
        rw [roundEnd_more hcomma, ih]
        rfl
      · rename_i hlast
        rw [roundEnd_last hlast, bind_assoc]
        rfl

/-- **The characters of a string are read round after round.** -/
theorem readChars_eq_loop {bound : Nat} (hbound : t.length < bound) :
    readChars quote t = loop (charRound quote) bound t := by
  induction bound generalizing t with
  | zero => cases hbound
  | succ bound ih =>
    fun_cases readChars quote t with
    | case1 => rfl
    | case2 c t =>
      simp only [List.length_cons] at hbound
      have hround : charRound quote ('\\' :: c :: t) = .ok (.more (escaped c), t) := rfl
      rw [loop_more hround, ih (by omega), cons]
    | case3 t hlone =>
      have hround : charRound quote (quote :: t) = .ok (.close, t) := by
        rw [charRound, if_pos rfl]
        exact hlone
      rw [loop, hround]
      rfl
    | case4 c t hlone hquote =>
      simp only [List.length_cons] at hbound
      have hround : charRound quote (c :: t) = .ok (.more c, t) := by
        rw [charRound, if_neg hquote]
        exact hlone
      rw [loop_more hround, ih (by omega), cons]

end Attribute

end SpacingClasses
