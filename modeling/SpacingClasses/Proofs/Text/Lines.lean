import SpacingClasses.Proofs.Text.Row
import Mathlib.Data.List.TakeWhile

/-!
# Lines and places

Where an offset lies in a text whose lines are ended by line feeds, and what the lines of a text are
that are ended by any line end.

* `Text.LineStartsAt t k i` : the line that the offset `k` lies in starts at `i`;
* `Text.lineStart`, `Text.lineAt` : the start of that line, and the line itself;
* `Text.columnNumber_take` : the column of an offset is counted from there;
* `Text.lines_append` : a text that ends with a line feed has its lines before those of what
  follows it;
* `Text.feedsOnly`, `Text.length_lines_iff` : a text of whole lines has as many lines as line feeds
  exactly if no other line end stands in it, except before a line feed that it goes with;
* `Text.getElem?_lines_of_feeds`, `Text.getElem?_lines_of_not_feeds` : **the line under the number of
  an offset** starts where the line of the offset starts, if the text before has no more lines than
  line feeds, and else lies before it.
-/

namespace SpacingClasses

namespace Text

variable {t u w : Text} {c : Char} {i k : Nat}

/-! ### The line of an offset -/

/-- The line that an offset lies in starts at the front of the text or behind a line feed, and no
further line feed comes before the offset. -/
structure LineStartsAt (t : Text) (k i : Nat) : Prop where
  le : i ≤ k
  starts : i = 0 ∨ t[i - 1]? = some '\n'
  within : '\n' ∉ (t.take k).drop i

/-- Where the line starts that an offset lies in. -/
def lineStart (t : Text) (k : Nat) : Nat := k - ((t.take k).reverse.takeWhile (· != '\n')).length

/-- The line that an offset lies in, of those that line feeds end. -/
def lineAt (t : Text) (k : Nat) : Text := (t.drop (lineStart t k)).takeWhile (· != '\n')

example : lineAt "a\nbc\nd" 3 = "bc" ∧ lineAt "a\n" 2 = [] := by decide

theorem takeWhile_reverse_length_le (t : Text) (k : Nat) :
    ((t.take k).reverse.takeWhile (· != '\n')).length ≤ k := by
  have hpart := (List.takeWhile_prefix (· != '\n') (l := (t.take k).reverse)).length_le
  rw [List.length_reverse, List.length_take] at hpart
  omega

theorem lineStart_le (t : Text) (k : Nat) : lineStart t k ≤ k := Nat.sub_le ..

/-- The column of an offset is counted from the start of its line. -/
theorem columnNumber_take (t : Text) (k : Nat) :
    columnNumber (t.take k) = k - lineStart t k + 1 := by
  have hle := takeWhile_reverse_length_le t k
  rw [columnNumber, lineStart]
  omega

/-- A text is cut behind its last line feed. -/
theorem exists_split_at_feed (t : Text) :
    ∃ front line, t = front ++ line ∧ '\n' ∉ line ∧ (front = [] ∨ ∃ u, front = u ++ ['\n']) ∧
      (t.reverse.takeWhile (· != '\n')).length = line.length := by
  refine ⟨(t.reverse.dropWhile (· != '\n')).reverse, (t.reverse.takeWhile (· != '\n')).reverse,
    ?_, ?_, ?_, ?_⟩
  · rw [← List.reverse_append, List.takeWhile_append_dropWhile, List.reverse_reverse]
  · intro hmem
    have := List.mem_takeWhile_imp (List.mem_reverse.1 hmem)
    simp at this
  · cases hrest : t.reverse.dropWhile (· != '\n') with
    | nil => exact .inl rfl
    | cons c rest =>
      have hhead := List.head?_dropWhile_not (· != '\n') t.reverse
      rw [hrest] at hhead
      simp only [List.head?_cons, bne_eq_false_iff_eq] at hhead
      exact .inr ⟨rest.reverse, by simp [hhead]⟩
  · rw [List.length_reverse]

/-- A text is cut where the line of an offset starts. -/
theorem exists_take_lineStart (hk : k ≤ t.length) :
    ∃ line, t.take k = t.take (lineStart t k) ++ line ∧ '\n' ∉ line ∧
      (t.take (lineStart t k) = [] ∨ ∃ u, t.take (lineStart t k) = u ++ ['\n']) ∧
      lineStart t k + line.length = k := by
  obtain ⟨front, line, hsplit, hline, hfront, hlength⟩ := exists_split_at_feed (t.take k)
  have htotal : k = front.length + line.length := by
    rw [← List.length_append, ← hsplit, List.length_take, Nat.min_eq_left hk]
  have hstart : lineStart t k = front.length := by
    rw [lineStart, hlength]
    omega
  have htake : t.take (lineStart t k) = front := by
    rw [← Nat.min_eq_left (lineStart_le t k), ← List.take_take, hsplit, hstart,
      List.take_left]
  rw [htake]
  exact ⟨line, hsplit, hline, hfront, by omega⟩

theorem lineStartsAt_lineStart (hk : k ≤ t.length) : LineStartsAt t k (lineStart t k) := by
  obtain ⟨line, hsplit, hline, hfront, hlength⟩ := exists_take_lineStart hk
  have hle := lineStart_le t k
  refine ⟨hle, ?_, ?_⟩
  · rcases hfront with hnil | ⟨u, hu⟩
    · left
      have := congrArg List.length hnil
      rw [List.length_take, List.length_nil] at this
      omega
    · right
      have hlen := congrArg List.length hu
      rw [List.length_take, List.length_append, List.length_singleton] at hlen
      have hi : lineStart t k - 1 = u.length := by omega
      have hlt : lineStart t k - 1 < lineStart t k := by omega
      rw [← List.getElem?_take_of_lt hlt, hu, hi]
      simp
  · rw [hsplit, List.drop_left' (by rw [List.length_take]; omega)]
    exact hline

/-- As many line feeds come before an offset as before the line that it lies in. -/
theorem count_take_lineStart (hk : k ≤ t.length) :
    (t.take k).count '\n' = (t.take (lineStart t k)).count '\n' := by
  obtain ⟨line, hsplit, hline, -, -⟩ := exists_take_lineStart hk
  rw [hsplit, List.count_append, List.count_eq_zero.2 hline, Nat.add_zero]

/-- The line of an offset is what stands before the offset in it, and what follows up to a line
feed. -/
theorem exists_lineAt_eq (hk : k ≤ t.length) :
    ∃ left, t.drop (lineStart t k) = left ++ t.drop k ∧ left.length = k - lineStart t k ∧
      lineAt t k = left ++ (t.drop k).takeWhile (· != '\n') := by
  obtain ⟨left, hsplit, hleft, -, hlength⟩ := exists_take_lineStart hk
  have hdrop : t.drop (lineStart t k) = left ++ t.drop k := by
    refine (List.append_right_inj (t.take (lineStart t k))).1 ?_
    rw [List.take_append_drop, ← List.append_assoc, ← hsplit, List.take_append_drop]
  refine ⟨left, hdrop, by omega, ?_⟩
  rw [lineAt, hdrop, List.takeWhile_append_of_pos]
  intro c hc
  rw [bne_iff_ne]
  rintro rfl
  exact hleft hc

theorem feed_not_mem_lineAt (t : Text) (k : Nat) : '\n' ∉ lineAt t k := by
  intro hmem
  have := List.mem_takeWhile_imp hmem
  simp at this

/-! ### The lines of a text -/

theorem isLineEnd_feed : isLineEnd '\n' = true := by decide

/-- A character that does not open a line end of two is a line end or belongs to the first line. -/
theorem lines_cons (h : c = '\r' → t.head? ≠ some '\n') :
    lines (c :: t) =
      if isLineEnd c then [] :: lines t
      else (c :: (lines t).headD []) :: (lines t).tail := by
  rw [lines]
  · split
    · rfl
    · cases lines t <;> rfl
  · rintro rest rfl rfl
    exact h rfl rfl

/-- The first line goes up to the first line end. -/
theorem head?_lines (h : t ≠ []) : (lines t).head? = some (t.takeWhile (!isLineEnd ·)) := by
  fun_induction lines t with
  | case1 => exact absurd rfl h
  | case2 t ih => rfl
  | case3 c t _ hend ih => simp [hend]
  | case4 c t _ hend hlines ih =>
    cases t with
    | nil => simp [hend]
    | cons d t =>
      have := ih (by simp)
      rw [hlines] at this
      cases this
  | case5 c t _ hend line others hlines ih =>
    cases t with
    | nil => cases hlines
    | cons d t =>
      have := ih (by simp)
      rw [hlines] at this
      rw [List.takeWhile_cons_of_pos (by simp [hend]), ← Option.some.inj this]
      rfl

/-- The first line of a text, which is empty if there is none. -/
theorem headD_lines (t : Text) : (lines t).headD [] = t.takeWhile (!isLineEnd ·) := by
  by_cases ht : t = []
  · rw [ht]
    rfl
  · rw [List.headD_eq_head?_getD, head?_lines ht]
    rfl

theorem lines_eq_nil_iff : lines t = [] ↔ t = [] := by
  constructor
  · intro h
    by_contra hne
    have := head?_lines hne
    rw [h] at this
    cases this
  · rintro rfl
    rfl

/-- There are at least as many lines as line feeds. -/
theorem count_le_length_lines (t : Text) : t.count '\n' ≤ (lines t).length := by
  fun_induction lines t with
  | case1 => exact Nat.le_refl 0
  | case2 t ih =>
    rw [List.count_cons_of_ne (by decide), List.count_cons_self, List.length_cons]
    omega
  | case3 c t _ hend ih =>
    have hone : (c :: t).count '\n' ≤ t.count '\n' + 1 := by
      rw [List.count_cons]
      split <;> omega
    rw [List.length_cons]
    omega
  | case4 c t _ hend hlines ih =>
    rw [hlines] at ih
    rw [List.count_cons_of_ne (by rintro rfl; exact hend isLineEnd_feed)]
    exact ih.trans (Nat.zero_le _)
  | case5 c t _ hend line others hlines ih =>
    rw [hlines] at ih
    rw [List.count_cons_of_ne (by rintro rfl; exact hend isLineEnd_feed)]
    exact ih

/-- A character opens no line end of two, unless it is a carriage return right before the line
feed. -/
theorem head?_ne_feed (hpair : ∀ rest, c = '\r' → u = '\n' :: rest → False)
    (hc : ¬ (c = '\r' ∧ u = [])) (w : Text) : c = '\r' → (u ++ '\n' :: w).head? ≠ some '\n' := by
  intro hreturn hhead
  cases u with
  | nil => exact hc ⟨hreturn, rfl⟩
  | cons d u =>
    obtain rfl : d = '\n' := by simpa using hhead
    exact hpair u hreturn rfl

/-- A text that ends with a line feed has its lines before those of what follows it. -/
theorem lines_feed_append (u w : Text) :
    lines (u ++ '\n' :: w) = lines (u ++ ['\n']) ++ lines w := by
  fun_induction lines u with
  | case1 =>
    rw [List.nil_append, List.nil_append, lines_cons (by simp), lines_cons (by simp),
      isLineEnd_feed]
    rfl
  | case2 u ih =>
    rw [List.cons_append, List.cons_append, List.cons_append, List.cons_append, lines, lines, ih,
      List.cons_append]
  | case3 c u hpair _ ih | case4 c u hpair _ _ ih | case5 c u hpair _ _ _ _ ih =>
    by_cases hc : c = '\r' ∧ u = []
    · -- a carriage return at the end of the front joins the line feed
      obtain ⟨rfl, rfl⟩ := hc
      rfl
    · have hne : u ++ ['\n'] ≠ [] := List.append_ne_nil_of_right_ne_nil u (List.cons_ne_nil _ _)
      obtain ⟨line, others, hlines⟩ := List.exists_cons_of_ne_nil (mt lines_eq_nil_iff.1 hne)
      rw [List.cons_append, List.cons_append, lines_cons (head?_ne_feed hpair hc w),
        lines_cons (head?_ne_feed hpair hc []), ih, hlines]
      split <;> rfl

/-- A text cut behind a line feed, or at its front, has the lines of both parts. -/
theorem lines_append (hu : u = [] ∨ ∃ v, u = v ++ ['\n']) (w : Text) :
    lines (u ++ w) = lines u ++ lines w := by
  rcases hu with rfl | ⟨v, rfl⟩
  · rfl
  · rw [List.append_assoc, List.singleton_append, lines_feed_append]

/-! ### Line feeds only -/

/-- Whether each line end in the text is a line feed, or a carriage return before one. -/
def feedsOnly : Text → Bool
  | [] => true
  | c :: t =>
    (!isLineEnd c || c == '\n' || (c == '\r' && t.head? == some '\n')) && feedsOnly t

/-- One more character that opens no line end of two keeps lines and line feeds in step, unless it is
another line end. -/
theorem length_lines_cons_iff (hjoin : c = '\r' → t.head? ≠ some '\n') (ht : t ≠ [])
    (h : (lines t).length = t.count '\n' ↔ feedsOnly t = true) :
    (lines (c :: t)).length = (c :: t).count '\n' ↔ feedsOnly (c :: t) = true := by
  have hcount := count_le_length_lines t
  have hpair : (c == '\r' && t.head? == some '\n') = false := by
    rw [Bool.and_eq_false_imp, beq_iff_eq]
    exact fun hreturn => beq_eq_false_iff_ne.2 (hjoin hreturn)
  rw [lines_cons hjoin, List.count_cons, feedsOnly, hpair]
  by_cases hend : isLineEnd c = true
  · by_cases hfeed : c = '\n'
    · simp [hfeed, isLineEnd_feed, h]
    · -- any other line end makes a line without a line feed
      have hmore : (lines t).length + 1 ≠ t.count '\n' := by omega
      simp [hend, hfeed, hmore]
  · have hfeed : c ≠ '\n' := by
      rintro rfl
      exact hend isLineEnd_feed
    have hlines : (lines t).length - 1 + 1 = (lines t).length :=
      Nat.sub_add_cancel (List.length_pos_iff.2 (mt lines_eq_nil_iff.1 ht))
    simp [hend, hfeed, hlines, h]

/-- With line feeds only, a text of whole lines has as many lines as line feeds, and else more. -/
theorem length_lines_feed_iff (u : Text) :
    (lines (u ++ ['\n'])).length = (u ++ ['\n']).count '\n' ↔ feedsOnly (u ++ ['\n']) = true := by
  induction u using lines.induct with
  | case1 => decide
  | case2 u ih =>
    have hreturn : feedsOnly ('\r' :: '\n' :: (u ++ ['\n'])) = feedsOnly (u ++ ['\n']) := by
      simp [feedsOnly]
    rw [List.cons_append, List.cons_append, hreturn, ← ih, lines, List.length_cons,
      List.count_cons_of_ne (by decide), List.count_cons_self, Nat.add_right_cancel_iff]
  | case3 c u hpair _ ih | case4 c u hpair _ _ ih | case5 c u hpair _ _ _ _ ih =>
    by_cases hc : c = '\r' ∧ u = []
    · obtain ⟨rfl, rfl⟩ := hc
      decide
    · exact length_lines_cons_iff (head?_ne_feed hpair hc []) (by simp) ih

theorem length_lines_iff (hu : u = [] ∨ ∃ v, u = v ++ ['\n']) :
    (lines u).length = u.count '\n' ↔ feedsOnly u = true := by
  rcases hu with rfl | ⟨v, rfl⟩
  · decide
  · exact length_lines_feed_iff v

/-! ### The line under a number -/

theorem length_lines_take_iff (hk : k ≤ t.length) :
    (lines (t.take (lineStart t k))).length = (t.take k).count '\n' ↔
      feedsOnly (t.take (lineStart t k)) = true := by
  obtain ⟨-, -, -, hfront, -⟩ := exists_take_lineStart hk
  rw [count_take_lineStart hk]
  exact length_lines_iff hfront

theorem lines_split (hk : k ≤ t.length) :
    lines t = lines (t.take (lineStart t k)) ++ lines (t.drop (lineStart t k)) := by
  obtain ⟨-, -, -, hfront, -⟩ := exists_take_lineStart hk
  rw [← lines_append hfront, List.take_append_drop]

/-- **The line under the number of an offset** starts where the line of the offset does, and goes up
to its first line end. -/
theorem getElem?_lines_of_feeds (hk : k ≤ t.length)
    (hfeeds : feedsOnly (t.take (lineStart t k)) = true) :
    (lines t)[(t.take k).count '\n']? =
      if lineStart t k = t.length then none else some ((lineAt t k).takeWhile (!isLineEnd ·)) := by
  have hle := lineStart_le t k
  have h := (length_lines_take_iff hk).2 hfeeds
  rw [lines_split hk, List.getElem?_append_right (Nat.le_of_eq h), ← h, Nat.sub_self]
  by_cases hend : lineStart t k = t.length
  · rw [if_pos hend, hend, List.drop_length]
    rfl
  · have hne : t.drop (lineStart t k) ≠ [] := by
      rw [Ne, List.drop_eq_nil_iff]
      omega
    rw [if_neg hend, ← List.head?_eq_getElem?, head?_lines hne, lineAt, List.takeWhile_takeWhile]
    congr 2
    funext c
    by_cases hc : c = '\n'
    · simp [hc, isLineEnd_feed]
    · simp [hc]

/-- Where other characters end lines before that of an offset, **the line under its number** is one of
those before. -/
theorem getElem?_lines_of_not_feeds (hk : k ≤ t.length)
    (hfeeds : feedsOnly (t.take (lineStart t k)) = false) :
    ∃ line ∈ lines (t.take (lineStart t k)), (lines t)[(t.take k).count '\n']? = some line := by
  have hcount := count_le_length_lines (t.take (lineStart t k))
  rw [← count_take_lineStart hk] at hcount
  have hlt : (t.take k).count '\n' < (lines (t.take (lineStart t k))).length :=
    lt_of_le_of_ne hcount fun heq =>
      Bool.eq_false_iff.1 hfeeds ((length_lines_take_iff hk).1 heq.symm)
  refine ⟨_, List.getElem_mem hlt, ?_⟩
  rw [lines_split hk, List.getElem?_append_left hlt, List.getElem?_eq_getElem hlt]

end Text

end SpacingClasses
