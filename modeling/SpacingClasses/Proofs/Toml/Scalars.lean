import SpacingClasses.Proofs.Number.Reading
import SpacingClasses.Proofs.Reader
import SpacingClasses.Proofs.Text.Row
import SpacingClasses.Proofs.Value.Dictionary
import SpacingClasses.Toml.Scalar
import Mathlib.Tactic.SplitIfs

/-!
# Scalars of a TOML document as they are read

What the readers of strings, dates, times and numbers give, and when a row of digits is too long for
them.

* `Toml.Legible long v` : the value `v` is one that a document may hold; an integer in it can be
  written unless `long` holds;
* `Toml.gives_readString` : a string leaves an ending of its text;
* `Toml.gives_readPlain` : a date, a time or a number is legible, and one is too long only if its text
  has a row of `Toml.longRow` digits of a base or underscores.
-/

namespace SpacingClasses

namespace Toml

open Reader (Gives Yields gives_stopAt gives_cons)
open Text (HasRow)
open Value (named)

/-! ### Legible values -/

/-- What a document may hold.  An integer in it can be written unless `long` holds. -/
inductive Legible (long : Prop) : Value → Prop where
  | bool (b : Bool) : Legible long (.bool b)
  | int {n : Int} (h : Integer.maxDigits < (Text.ofNat n.natAbs).length → long) :
      Legible long (.int n)
  | float (x : Double) : Legible long (.float x)
  | text (t : Text) : Legible long (.text t)
  | moment (m : Moment) : Legible long (.moment m)
  | list {items : List Value} (h : ∀ v ∈ items, Legible long v) : Legible long (.list items)
  | dict {rows : List (Text × Value)} (h : ∀ e ∈ rows, Legible long e.2) :
      Legible long (.dict (named rows))

/-- The characters of numbers: digits of all bases and underscores. -/
def isNumberChar (c : Char) : Bool := isHex c || c == '_'

/-- So many hexadecimal digits, and no fewer, can write an integer that cannot be written in base
ten. -/
def longRow : Nat := 3572

variable {α β : Type} {long : Prop} {source t u rest span after digits : Text} {c : Char} {k : Nat}

/-! ### Strings -/

theorem skipSpace_suffix (t : Text) : skipSpace t <:+ t := List.dropWhile_suffix _

theorem eq_append_of_splitAt? {part : Text} (h : splitAt? part t = some (span, after)) :
    t = span ++ after := by
  induction t generalizing span with
  | nil => cases h
  | cons c t ih =>
    rw [splitAt?] at h
    split_ifs at h
    · cases h
      rfl
    · obtain ⟨⟨before, after'⟩, hsplit, h⟩ := Option.map_eq_some_iff.1 h
      cases h
      rw [ih hsplit]
      rfl

theorem yields_checkLegal (long : Prop) (multiline : Bool) (span left : Text) :
    Yields (fun _ => True) long (checkLegal multiline span left) := by
  induction span generalizing left with
  | nil => exact trivial
  | cons c span ih =>
    rw [checkLegal]
    split
    · exact trivial
    · exact ih left.tail

theorem gives_readLiteral (long : Prop) (closing : Text) (multiline : Bool) (t : Text) :
    Gives (fun _ => True) long t (readLiteral closing multiline t) := by
  rw [readLiteral]
  split
  · exact gives_stopAt ..
  · rename_i span after hsplit
    refine Yields.bind (yields_checkLegal long multiline span t) fun _ _ => ⟨trivial, ?_⟩
    rw [eq_append_of_splitAt? hsplit]
    exact (List.drop_suffix _ _).trans (List.suffix_append _ _)

theorem gives_readCode (long : Prop) (width : Nat) (t : Text) :
    Gives (fun _ => True) long t (readCode width t) := by
  rw [readCode]
  split
  · exact gives_stopAt ..
  · split
    · exact ⟨trivial, List.drop_suffix _ _⟩
    · exact gives_stopAt ..

theorem gives_readEscape (long multiline) (t : Text) :
    Gives (fun _ => True) long t (readEscape multiline t) := by
  cases t with
  | nil => exact gives_stopAt ..
  | cons c t =>
    have ht := List.suffix_cons c t
    have hone : ∀ d : Char, Gives (fun _ => True) long (c :: t)
        (.ok ([d], t) : Except (Stop Fault) (Text × Text)) := fun _ => ⟨trivial, ht⟩
    rw [readEscape]
    refine .ite ⟨trivial, (List.dropWhile_suffix _).trans ht⟩ (.ite ?_ ?_)
    · split
      · exact ⟨trivial, List.nil_suffix⟩
      · rename_i u hu
        exact ⟨trivial, ((List.dropWhile_suffix _).trans (Text.suffix_of_dropWhile hu)).trans ht⟩
      · exact gives_stopAt ..
    · refine .ite ((gives_readCode long 4 t).of_suffix ht) ?_
      refine .ite ((gives_readCode long 8 t).of_suffix ht) ?_
      -- what is left are characters that stand for one character each
      refine .ite (hone _) (.ite (hone _) (.ite (hone _) (.ite (hone _) (.ite (hone _) ?_))))
      exact .ite (hone c) (gives_stopAt ..)

theorem gives_readBasic (long : Prop) (multiline : Bool) (bound : Nat) (t : Text) :
    Gives (fun _ => True) long t (readBasic multiline bound t) := by
  induction bound generalizing t with
  | zero => exact trivial
  | succ bound ih =>
    rw [readBasic.eq_def]
    dsimp only
    split
    · exact gives_stopAt ..
    · rename_i rest
      have hrest := List.suffix_cons '"' rest
      split_ifs
      · exact ⟨trivial, hrest⟩
      · split
        · rename_i u
          exact ⟨trivial, ((List.suffix_cons _ u).trans (List.suffix_cons _ _)).trans hrest⟩
        · exact gives_cons ((ih rest).of_suffix hrest)
    · rename_i rest
      refine ((gives_readEscape long multiline rest).bind fun meant u _ _ => ?_).of_suffix
        (List.suffix_cons _ rest)
      exact (ih u).bind fun read w _ _ => ⟨trivial, List.suffix_rfl⟩
    · rename_i c rest _ _
      split_ifs
      · exact gives_stopAt ..
      · exact gives_cons ((ih rest).of_suffix (List.suffix_cons c rest))

theorem readExtraQuotes_suffix (quote : Char) (read rest : Text) :
    (readExtraQuotes quote read rest).2 <:+ rest := by
  rw [readExtraQuotes.eq_def]
  split
  · rename_i c u
    split_ifs
    · split
      · rename_i d w
        split_ifs
        · exact (List.suffix_cons d w).trans (List.suffix_cons c _)
        · exact List.suffix_cons c _
      · exact List.nil_suffix
    · exact List.suffix_rfl
  · exact List.suffix_rfl

theorem dropLine_suffix (t : Text) : dropLine t <:+ t := by
  rw [dropLine.eq_def]
  split
  · exact List.suffix_cons _ _
  · exact List.suffix_rfl

theorem gives_readLine (long : Prop) (quote : Char) (t : Text) :
    Gives (fun _ => True) long t (readLine quote t) := by
  rw [readLine]
  split
  · exact gives_readBasic long false (t.length + 1) t
  · exact gives_readLiteral long _ false t

theorem gives_readLines (long : Prop) (quote : Char) (t : Text) :
    Gives (fun _ => True) long t (readLines quote t) := by
  have hquotes : ∀ read rest : Text,
      Gives (fun _ => True) long rest
        (.ok (readExtraQuotes quote read rest) : Except (Stop Fault) (Text × Text)) :=
    fun read rest => ⟨trivial, readExtraQuotes_suffix quote read rest⟩
  refine Gives.of_suffix ?_ (dropLine_suffix t)
  rw [readLines]
  split
  · exact (gives_readBasic long true _ _).bind fun read rest _ _ => hquotes read rest
  · exact (gives_readLiteral long _ true _).bind fun read rest _ _ => hquotes read rest

/-- A string leaves an ending of its text. -/
theorem gives_readString (long : Prop) (quote : Char) (t : Text) :
    Gives (fun _ => True) long t (readString quote t) := by
  rw [readString.eq_def]
  split
  · rename_i c d u
    split
    · exact (gives_readLines long quote u).of_suffix
        ((List.suffix_cons d u).trans (List.suffix_cons c _))
    · exact gives_readLine long quote _
  · exact gives_readLine long quote _

/-! ### Dates and times -/

/-- What a reader leaves that may find nothing is an ending of its text. -/
def Leaves (left : α → Text) (t : Text) (x : Option α) : Prop := ∀ a, x = some a → left a <:+ t

theorem Leaves.bind {left : α → Text} {left' : β → Text} {x : Option α} {f : α → Option β}
    (h : Leaves left t x) (hf : ∀ a, Leaves left' (left a) (f a)) : Leaves left' t (x >>= f) := by
  intro b hb
  obtain ⟨a, ha, hb⟩ := Option.bind_eq_some_iff.1 hb
  exact (hf a b hb).trans (h a ha)

theorem leaves_some {left : α → Text} {a : α} (h : left a <:+ t) : Leaves left t (some a) := by
  rintro b ⟨⟩
  exact h

theorem leaves_after? (c : Char) (t : Text) : Leaves id t (after? c t) := by
  cases t with
  | nil => exact nofun
  | cons d t =>
    rw [after?]
    split_ifs
    · exact leaves_some (List.suffix_cons d t)
    · exact nofun

theorem leaves_fixed? (width low high : Nat) (t : Text) :
    Leaves Prod.snd t (fixed? width low high t) := by
  rw [fixed?]
  dsimp only
  split_ifs
  · exact leaves_some (List.drop_suffix _ _)
  · exact nofun
  · exact nofun

theorem microseconds_suffix (t : Text) : (microseconds t).2 <:+ t := by
  rw [microseconds.eq_def]
  split
  · rename_i u
    dsimp only
    split_ifs
    · exact List.suffix_rfl
    · exact (List.dropWhile_suffix _).trans (List.suffix_cons _ u)
  · exact List.suffix_rfl

theorem leaves_time? (t : Text) : Leaves Prod.snd t (time? t) := by
  refine (leaves_fixed? 2 0 23 t).bind fun hour => (leaves_after? ':' _).bind fun u => ?_
  refine (leaves_fixed? 2 0 59 u).bind fun minute => (leaves_after? ':' _).bind fun w => ?_
  exact (leaves_fixed? 2 0 59 w).bind fun second => leaves_some (microseconds_suffix _)

theorem leaves_offset? (t : Text) : Leaves Prod.snd t (offset? t) := by
  cases t with
  | nil => exact nofun
  | cons c t =>
    have ht := List.suffix_cons c t
    rw [offset?]
    split
    · exact leaves_some ht
    · split
      · have hclock : ∀ f : Int → Int,
            Leaves Prod.snd t (fixed? 2 0 23 t >>= fun part => after? ':' part.2 >>= fun u =>
              fixed? 2 0 59 u >>= fun part' => some (f (60 * part.1 + part'.1), part'.2)) := by
          intro f
          refine (leaves_fixed? 2 0 23 t).bind fun part => (leaves_after? ':' _).bind fun u => ?_
          exact (leaves_fixed? 2 0 59 u).bind fun part' => leaves_some List.suffix_rfl
        exact fun a h => (hclock (fun n => if c = '-' then -n else n) a h).trans ht
      · exact nofun

theorem leaves_dateTime? (t : Text) : Leaves (·.2.2) t (dateTime? t) := by
  refine (leaves_fixed? 4 0 9999 t).bind fun year => (leaves_after? '-' _).bind fun u => ?_
  refine (leaves_fixed? 2 1 12 u).bind fun month => (leaves_after? '-' _).bind fun w => ?_
  refine (leaves_fixed? 2 1 31 w).bind fun day => ?_
  dsimp only
  split
  · exact leaves_some List.suffix_rfl
  · rename_i _ time x hx
    -- the time is read behind its mark
    have hsuffix : x <:+ day.2 := by
      split at hx
      · rename_i c rest hday
        rw [hday]
        split at hx
        · exact (leaves_time? rest _ hx).trans (List.suffix_cons c rest)
        · cases hx
      · cases hx
    split
    · rename_i offset y hy
      exact leaves_some ((leaves_offset? x _ hy).trans hsuffix)
    · exact leaves_some hsuffix

/-! ### Numbers -/

theorem isNumberChar_of_isDigit (h : c.isDigit = true) : isNumberChar c = true := by
  simp [isNumberChar, isHex, hexNumber?, h]

/-- The digits of a run are some of the characters of a row that has underscores besides them. -/
theorem exists_row_of_digitRun {isOne : Char → Bool} (h : digitRun isOne t = (digits, rest)) :
    ∃ row, t = row ++ rest ∧ digits.length ≤ row.length ∧
      ∀ c ∈ row, isOne c = true ∨ c = '_' := by
  fun_induction digitRun isOne t generalizing digits rest with
  | case1 =>
    cases h
    exact ⟨[], rfl, Nat.le_refl _, by simp⟩
  | case2 c t hc ds after hrun ih =>
    cases h
    obtain ⟨row, ht, hlength, hrow⟩ := ih hrun
    exact ⟨c :: row, congrArg (c :: ·) ht, Nat.succ_le_succ hlength,
      List.forall_mem_cons.2 ⟨.inl hc, hrow⟩⟩
  | case3 d t hd ds after hrun _ ih =>
    cases h
    obtain ⟨row, ht, hlength, hrow⟩ := ih hrun
    refine ⟨'_' :: d :: row, congrArg ('_' :: d :: ·) ht, ?_,
      List.forall_mem_cons.2 ⟨.inr rfl, List.forall_mem_cons.2 ⟨.inl hd, hrow⟩⟩⟩
    simp only [List.length_cons]
    omega
  | _ =>
    cases h
    exact ⟨[], rfl, Nat.le_refl _, by simp⟩

theorem exists_row_of_digits? {isOne : Char → Bool} (h : digits? isOne t = some (digits, rest)) :
    ∃ row, t = row ++ rest ∧ digits.length ≤ row.length ∧
      ∀ c ∈ row, isOne c = true ∨ c = '_' := by
  cases t with
  | nil => cases h
  | cons c t =>
    rw [digits?] at h
    split_ifs at h
    exact exists_row_of_digitRun (Option.some.inj h)

theorem hexValue_lt (c : Char) : (hexNumber? [c]).getD 0 < 16 := by
  have hsmall : c ≤ 'f' ↔ c.toNat ≤ 102 := Iff.rfl
  have hcapital : c ≤ 'F' ↔ c.toNat ≤ 70 := Iff.rfl
  simp only [hexNumber?, List.foldl_cons, List.foldl_nil, Option.bind_eq_bind, Option.bind_some]
  split_ifs with hdigit h h
  · have hlast : c.toNat ≤ 57 := (Char.isDigit_iff_toNat.1 hdigit).2
    simp only [Option.pure_def, Option.getD_some]
    omega
  · rw [Bool.and_eq_true, decide_eq_true_eq, decide_eq_true_eq, hsmall] at h
    simp only [Option.pure_def, Option.getD_some]
    omega
  · rw [Bool.and_eq_true, decide_eq_true_eq, decide_eq_true_eq, hcapital] at h
    simp only [Option.pure_def, Option.getD_some]
    omega
  · decide

theorem inBase_lt {base : Nat} (hbase : base ≤ 16) (digits : Text) :
    inBase base digits < 16 ^ digits.length := by
  induction digits using List.reverseRecOn with
  | nil => exact Nat.one_pos
  | append_singleton digits c ih =>
    have hstep : inBase base (digits ++ [c]) =
        base * inBase base digits + (hexNumber? [c]).getD 0 := List.foldl_append
    have hvalue := hexValue_lt c
    have hfront : base * inBase base digits ≤ 16 * inBase base digits :=
      Nat.mul_le_mul_right _ hbase
    rw [hstep, List.length_append, List.length_singleton, Nat.pow_succ]
    omega

/-- Fewer digits of a base than make a long row write an integer that can be written. -/
theorem length_ofNat_le {n : Nat} (h : n < 16 ^ k) (hk : k < longRow) :
    (Text.ofNat n).length ≤ Integer.maxDigits := by
  have hlimit : 16 ^ (longRow - 1) ≤ 10 ^ Integer.maxDigits := by decide +kernel
  rw [Text.length_ofNat_le_iff (by decide)]
  calc n < 16 ^ k := h
    _ ≤ 16 ^ (longRow - 1) := Nat.pow_le_pow_right (by decide) (by omega)
    _ ≤ 10 ^ Integer.maxDigits := hlimit

/-- A number with a row of characters of numbers is long if the row is. -/
theorem long_of_row {row : Text} (hlong : source.HasRow isNumberChar longRow → long)
    (ht : t <:+ source) (hrow : row <:+: t) (hchars : ∀ c ∈ row, isNumberChar c = true)
    (h : longRow ≤ row.length) : long :=
  hlong ⟨row, hrow.trans ht.isInfix, h, hchars⟩

/-- The digits of each base are hexadecimal digits. -/
theorem isHex_of_octal (h : '0' ≤ c ∧ c ≤ '7') : isHex c = true := by
  have hdigit : c.isDigit = true := by
    have hfirst : 48 ≤ c.toNat := h.1
    have hlast : c.toNat ≤ 55 := h.2
    exact Char.isDigit_iff_toNat.2 ⟨hfirst, hlast.trans (by decide)⟩
  simp [isHex, hexNumber?, hdigit]

/-- A number in base sixteen, two or eight is legible. -/
theorem legible_of_prefixed? {n : Nat} (hlong : source.HasRow isNumberChar longRow → long)
    (ht : t <:+ source) (h : prefixed? t = some (n, rest)) :
    Legible long (.int n) ∧ rest <:+ t := by
  rw [prefixed?.eq_def] at h
  split at h
  · rename_i c u
    have hu : u <:+ '0' :: c :: u := (List.suffix_cons c u).trans (List.suffix_cons _ _)
    obtain ⟨⟨base, isOne⟩, hbase, h⟩ := Option.bind_eq_some_iff.1 h
    obtain ⟨⟨digits, after⟩, hdigits, h⟩ := Option.map_eq_some_iff.1 h
    cases h
    have hbase : base ≤ 16 ∧ ∀ c, isOne c = true → isHex c = true := by
      split_ifs at hbase
      · cases hbase
        exact ⟨Nat.le_refl 16, fun c h => h⟩
      · cases hbase
        refine ⟨by decide, fun c h => ?_⟩
        simp only [Bool.or_eq_true, beq_iff_eq] at h
        rcases h with rfl | rfl <;> decide
      · cases hbase
        refine ⟨by decide, fun c h => isHex_of_octal ?_⟩
        simpa using h
    obtain ⟨row, rfl, hlength, hrow⟩ := exists_row_of_digits? hdigits
    refine ⟨.int fun htoo => ?_, (List.suffix_append row rest).trans hu⟩
    refine long_of_row hlong ht ((List.prefix_append row rest).isInfix.trans hu.isInfix) ?_ ?_
    · intro c hc
      rw [isNumberChar]
      rcases hrow c hc with h | rfl
      · rw [hbase.2 c h, Bool.true_or]
      · decide
    · -- so many digits write less than what cannot be shown, whatever their base
      by_contra hshort
      have hsize := length_ofNat_le (inBase_lt hbase.1 digits) (by omega)
      exact absurd htoo (Nat.not_lt.2 hsize)
  · cases h

theorem sign_suffix (t : Text) : t = (sign t).1 ++ (sign t).2 ∧ (sign t).1.length ≤ 1 := by
  rw [sign.eq_def]
  split
  · exact ⟨rfl, Nat.le_refl _⟩
  · exact ⟨rfl, Nat.le_refl _⟩
  · exact ⟨rfl, Nat.zero_le _⟩

theorem digits?_suffix {isOne : Char → Bool} (h : digits? isOne t = some (digits, rest)) :
    rest <:+ t := by
  obtain ⟨row, rfl, -⟩ := exists_row_of_digits? h
  exact List.suffix_append row rest

theorem fraction_suffix (t : Text) : (fraction t).2 <:+ t := by
  rw [fraction]
  split
  · rename_i digits rest h
    obtain ⟨u, hu, hdigits⟩ := Option.bind_eq_some_iff.1 h
    exact (digits?_suffix hdigits).trans (leaves_after? '.' t u hu)
  · exact List.suffix_rfl

theorem exponent_suffix (t : Text) : (exponent t).2 <:+ t := by
  rw [exponent.eq_def]
  split
  · rename_i c u
    split
    · dsimp only
      split
      · rename_i digits rest h
        have hsign := (sign_suffix u).1
        refine (digits?_suffix h).trans (List.IsSuffix.trans ?_ (List.suffix_cons c u))
        exact ⟨_, hsign.symm⟩
      · exact List.suffix_rfl
    · exact List.suffix_rfl
  · exact List.suffix_rfl

/-- The digits of a whole part are some of the characters of a row at the front of the text. -/
theorem exists_row_of_whole? (h : whole? t = some (digits, rest)) :
    ∃ row, t = row ++ rest ∧ digits.length ≤ row.length ∧ ∀ c ∈ row, isNumberChar c = true := by
  rw [whole?.eq_def] at h
  split at h
  · cases h
    exact ⟨['0'], rfl, Nat.le_refl _, List.forall_mem_singleton.2 (by decide)⟩
  · obtain ⟨row, ht, hlength, hrow⟩ := exists_row_of_digits? h
    refine ⟨row, ht, hlength, fun c hc => ?_⟩
    rcases hrow c hc with h | rfl
    · exact isNumberChar_of_isDigit h
    · decide

/-- A number in base ten is legible. -/
theorem gives_decimal? {x : Except (Stop Fault) (Value × Text)}
    (hlong : source.HasRow isNumberChar longRow → long) (ht : t <:+ source)
    (h : decimal? t = some x) : Gives (Legible long) long t x := by
  rw [decimal?] at h
  obtain ⟨hsign, hmark⟩ := sign_suffix t
  generalize sign t = signed at h hsign hmark
  obtain ⟨mark, unsigned⟩ := signed
  dsimp only at h hsign hmark
  obtain ⟨⟨whole, rest⟩, hwhole, h⟩ := Option.bind_eq_some_iff.1 h
  dsimp only at h
  obtain ⟨row, hrow, hlength, hchars⟩ := exists_row_of_whole? hwhole
  have hunsigned : unsigned <:+ t := ⟨mark, hsign.symm⟩
  have hrest : rest <:+ t := List.IsSuffix.trans ⟨row, hrow.symm⟩ hunsigned
  have hfraction := (fraction_suffix rest).trans hrest
  generalize fraction rest = point at h hfraction
  obtain ⟨point, rest₁⟩ := point
  dsimp only at h hfraction
  have hexponent := (exponent_suffix rest₁).trans hfraction
  generalize exponent rest₁ = power at h hexponent
  obtain ⟨power, rest₂⟩ := power
  dsimp only at h hexponent
  obtain ⟨n, hn, h⟩ := Option.bind_eq_some_iff.1 h
  split_ifs at h with hint
  · rw [Bool.and_eq_true, List.isEmpty_iff, List.isEmpty_iff] at hint
    obtain ⟨hne, hten, hdigits⟩ := (Numeral.whole?_eq_some_iff.1 hn).digits
    rw [hint.1, hint.2, List.append_nil, List.append_nil, List.length_append] at hdigits
    have hlimit : Integer.maxDigits ≤ n.digits.length → long := by
      intro hmany
      refine long_of_row hlong ht ?_ hchars ?_
      · rw [hrow] at hunsigned
        exact (List.prefix_append row rest).isInfix.trans hunsigned.isInfix
      · have : longRow + 1 ≤ Integer.maxDigits := by decide
        omega
    rcases Integer.read_of_digits n.negative hten hne hlimit with
      ⟨i, hi, hread⟩ | ⟨⟨f, hf⟩, hlong⟩
    · rw [hi] at h
      cases h
      exact ⟨.int fun htoo => absurd hread.length_le (Nat.not_le.2 htoo), hexponent⟩
    · rw [hf] at h
      cases h
      exact hlong
  · cases h
    exact ⟨.float _, hexponent⟩

/-- **A date, a time or a number is legible**, and one is too long only if its text has a long
row. -/
theorem gives_readPlain (hlong : source.HasRow isNumberChar longRow → long) (ht : t <:+ source) :
    Gives (Legible long) long t (readPlain t) := by
  rw [readPlain]
  split
  · rename_i moment date rest h
    split
    · exact ⟨.moment moment, leaves_dateTime? t _ h⟩
    · exact gives_stopAt ..
  · split
    · rename_i time rest h
      exact ⟨.moment _, leaves_time? t _ h⟩
    · split
      · rename_i n rest h
        exact legible_of_prefixed? hlong ht h
      · split
        · rename_i result h
          exact gives_decimal? hlong ht h
        · split
          · exact ⟨.float _, List.drop_suffix _ _⟩
          · exact gives_stopAt ..

end Toml

end SpacingClasses
