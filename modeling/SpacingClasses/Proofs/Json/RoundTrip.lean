import SpacingClasses.Proofs.Json.Scalars
import SpacingClasses.Proofs.Json.Writing
import SpacingClasses.Proofs.Number.Characters
import SpacingClasses.Proofs.Number.Digits

/-!
# Data is read as it is written

Canonical JSON, on one line or with a line for each item, gives the data back, with the entries of
each dictionary in the order of their keys.

* `Json.Encodes w v` : the text `w` is read as the value `v`, whatever follows that does not go on
  with a number;
* `readItems_joined`, `readEntries_joined` : the items of a list and the entries of a dictionary are
  read one by one, if each is;
* `Json.exists_write` : **data is written as a text that encodes it in order**;
* `Encodes.read_append` : such a text is read with any space after it.
-/

namespace SpacingClasses

namespace Json

open Numeral (EndsNumeral)
open Value (Data named ordered)

variable {f : Format} {bound level n : Nat} {c d : Char} {r w s t : Text} {v : Value}
  {ws ts : List Text} {vs : List Value} {rows : List (Text × Value)}

/-! ### Spaces -/

theorem skipSpace_cons (hc : isSpace c = false) (t : Text) : skipSpace (c :: t) = c :: t := by
  simp [skipSpace, hc]

theorem skipSpace_append (hs : ∀ c ∈ s, isSpace c = true) (t : Text) :
    skipSpace (s ++ t) = skipSpace t :=
  List.dropWhile_append_of_pos hs

theorem isSpace_of_mem_newline (f : Format) (n : Nat) : ∀ c ∈ newline f n, isSpace c = true := by
  intro c hc
  rw [newline] at hc
  split at hc
  · cases hc
  · rcases List.mem_cons.1 hc with rfl | hc
    · rfl
    · rw [List.eq_of_mem_replicate hc]
      rfl

/-! ### Texts that encode values -/

/-- The characters that no value starts with: spaces, closing brackets and the byte order mark. -/
def noStarts : List Char := [' ', '\t', '\n', '\r', ']', '\x7d', '\ufeff']

/-- The text is read as the value, before what does not go on with a number.  It starts like a value
and has no carriage return in it. -/
structure Encodes (w : Text) (v : Value) : Prop where
  starts : ∃ c s, w = c :: s ∧ c ∉ noStarts
  reads : ∀ bound r, w.length ≤ bound → EndsNumeral r → readValue bound (w ++ r) = .ok (v, r)
  no_return : '\r' ∉ w

theorem not_isSpace_of_start (h : c ∉ noStarts) : isSpace c = false := by
  simp only [noStarts, List.mem_cons, not_or] at h
  simp [isSpace, h]

theorem not_start_of_isDigit (h : c.isDigit = true) : c ∉ noStarts := by
  intro hc
  have hstarts : noStarts.all (!·.isDigit) = true := by decide
  have hdigit := List.all_eq_true.1 hstarts c hc
  rw [h] at hdigit
  cases hdigit

theorem Encodes.exists_cons (h : Encodes w v) : ∃ c s, w = c :: s ∧ isSpace c = false := by
  obtain ⟨c, s, hw, hc⟩ := h.starts
  exact ⟨c, s, hw, not_isSpace_of_start hc⟩

theorem Encodes.ne_nil (h : Encodes w v) : w ≠ [] := by
  obtain ⟨c, s, rfl, -⟩ := h.starts
  exact List.cons_ne_nil c s

theorem Encodes.skipSpace_eq (h : Encodes w v) (r : Text) : skipSpace (w ++ r) = w ++ r := by
  obtain ⟨c, s, rfl, hc⟩ := h.exists_cons
  exact skipSpace_cons hc (s ++ r)

/-! ### Scalars -/

/-- A text that starts neither a string nor a list nor a dictionary is read as a scalar. -/
theorem readValue_scalar (h : c ∉ ['"', '[', '\x7b']) (t : Text) :
    readValue (bound + 1) (c :: t) = readScalar (c :: t) := by
  simp only [List.mem_cons, not_or] at h
  rw [readValue]
  all_goals simp [h]

theorem encodes_scalar (hcons : w = c :: s) (hstart : c ∉ noStarts) (hc : c ∉ ['"', '[', '\x7b'])
    (hreturn : '\r' ∉ w) (h : ∀ r, EndsNumeral r → readScalar (w ++ r) = .ok (v, r)) :
    Encodes w v := by
  refine ⟨⟨c, s, hcons, hstart⟩, fun bound r hbound hr => ?_, hreturn⟩
  subst hcons
  cases bound with
  | zero => cases hbound
  | succ bound => exact (readValue_scalar hc (s ++ r)).trans (h r hr)

theorem encodes_null : Encodes "null" .null :=
  encodes_scalar rfl (by decide) (by decide) (by decide) fun _ _ => rfl

theorem encodes_bool (b : Bool) : Encodes (if b then "true" else "false") (.bool b) := by
  cases b with
  | true => exact encodes_scalar rfl (by decide) (by decide) (by decide) fun _ _ => rfl
  | false => exact encodes_scalar rfl (by decide) (by decide) (by decide) fun _ _ => rfl

theorem encodes_int {i : Int} (hw : Integer.write i = .ok w) : Encodes w (.int i) := by
  have hreturn : '\r' ∉ w := by
    intro hmem
    rcases Integer.uses_write hw '\r' hmem with hdigit | hmark
    · cases hdigit
    · exact absurd hmark (by decide)
  have hreads := fun r (hr : EndsNumeral r) => readScalar_write hw hr
  obtain ⟨c, s, hcs, hdigit⟩ := exists_cons_write hw
  have hquotes : ∀ d ∈ ['"', '[', '\x7b'], d.isDigit = false := by simp
  rcases hcs with rfl | rfl
  · refine encodes_scalar rfl (not_start_of_isDigit hdigit) (fun hc => ?_) hreturn hreads
    rw [hquotes c hc] at hdigit
    cases hdigit
  · exact encodes_scalar rfl (by decide) (by decide) hreturn hreads

theorem no_return_writeChar (c : Char) : '\r' ∉ writeChar false c := by
  have hunits : ∀ n < 32, '\r' ∉ unitEscape n := by decide
  rw [writeChar]
  split_ifs with hself hn hr ht hb hf hcode hascii
  · have hc : c ≠ '\r' := by
      rintro rfl
      cases hself
    simpa using Ne.symm hc
  · decide
  · decide
  · decide
  · decide
  · decide
  · exact hunits _ hcode
  · simp at hascii
  · simpa using Ne.symm hr

theorem encodes_text (t : Text) : Encodes (writeText false t) (.text t) := by
  refine ⟨⟨'"', _, rfl, by decide⟩, fun bound r hbound hr => ?_, ?_⟩
  · obtain ⟨inside, hinside, hread⟩ := readString_writeText t r
    cases bound with
    | zero => cases hbound
    | succ bound =>
      rw [hinside, readValue, hread]
      rfl
  · intro hmem
    simp only [writeText, List.mem_cons, List.mem_append, List.mem_flatMap] at hmem
    rcases hmem with hquote | ⟨c, -, hc⟩ | hquote | hnil
    · cases hquote
    · exact no_return_writeChar c hc
    · cases hquote
    · cases hnil

/-! ### Joined texts -/

theorem exists_mem_of_mem_joined (h : c ∈ Text.joined s ws) : c ∈ s ∨ ∃ w ∈ ws, c ∈ w := by
  induction ws with
  | nil => simp at h
  | cons w ws ih =>
    cases ws with
    | nil => exact .inr ⟨w, by simp, by simpa using h⟩
    | cons u us =>
      rw [Text.joined_cons_cons, List.mem_append, List.mem_append] at h
      rcases h with h | h | h
      · exact .inr ⟨w, List.mem_cons_self, h⟩
      · exact .inl h
      · rcases ih h with h | ⟨x, hx, hc⟩
        · exact .inl h
        · exact .inr ⟨x, List.mem_cons_of_mem w hx, hc⟩

theorem length_le_joined (h : w ∈ ws) : w.length ≤ (Text.joined s ws).length := by
  induction ws with
  | nil => cases h
  | cons u us ih =>
    cases us with
    | nil =>
      rw [List.mem_singleton.1 h, Text.joined_singleton]
    | cons x xs =>
      rw [Text.joined_cons_cons, List.length_append, List.length_append]
      rcases List.mem_cons.1 h with rfl | h
      · omega
      · have := ih h
        omega

theorem length_le_length_joined (h : ∀ w ∈ ws, w ≠ []) : ws.length ≤ (Text.joined s ws).length := by
  induction ws with
  | nil => simp
  | cons w ws ih =>
    rw [List.forall_mem_cons] at h
    have hpos := List.length_pos_iff.2 h.1
    have hrest := ih h.2
    cases ws with
    | nil =>
      rw [Text.joined_singleton]
      exact hpos
    | cons u us =>
      rw [Text.joined_cons_cons, List.length_append, List.length_append, List.length_cons]
      omega

theorem exists_joined_cons (s w : Text) (ws : List Text) :
    ∃ more, Text.joined s (w :: ws) = w ++ more := by
  cases ws with
  | nil => exact ⟨[], by simp⟩
  | cons u us => exact ⟨_, Text.joined_cons_cons s w u us⟩

/-- Joined texts are found on a new line, if the first starts with no space. -/
theorem skipSpace_joined (hw : ∃ c s, w = c :: s ∧ isSpace c = false) (f : Format) (n : Nat)
    (s : Text) (ws : List Text) (t : Text) :
    skipSpace (newline f n ++ (Text.joined s (w :: ws) ++ t)) = Text.joined s (w :: ws) ++ t := by
  obtain ⟨c, w, rfl, hc⟩ := hw
  obtain ⟨more, hmore⟩ := exists_joined_cons s (c :: w) ws
  rw [skipSpace_append (isSpace_of_mem_newline f n), hmore]
  exact skipSpace_cons hc _

/-! ### Lists -/

/-- What follows the last item of a list or of a dictionary. -/
def closed (f : Format) (n : Nat) (d : Char) (r : Text) : Text := newline f n ++ d :: r

theorem skipSpace_closed (hd : isSpace d = false) (f : Format) (n : Nat) (r : Text) :
    skipSpace (closed f n d r) = d :: r := by
  rw [closed, skipSpace_append (isSpace_of_mem_newline f n), skipSpace_cons hd]

/-- The characters that may follow a number. -/
def numeralEnds : List Char := [',', ']', '\x7d', ' ', '\t', '\n', '\r']

theorem endsNumeral_cons (hc : c ∈ numeralEnds) (r : Text) : EndsNumeral (c :: r) := by
  have hends : numeralEnds.all
      (fun c => Text.digitValue? c = none ∧ c ≠ '.' ∧ c ≠ 'e' ∧ c ≠ 'E') = true := by decide
  rintro d ⟨⟩
  simpa using List.all_eq_true.1 hends c hc

/-- What closes a list or a dictionary starts with one of these. -/
theorem exists_closed_cons (hd : d ∈ [']', '\x7d']) (f : Format) (n : Nat) (r : Text) :
    ∃ c t, closed f n d r = c :: t ∧ c ∈ numeralEnds := by
  rw [closed, newline]
  cases f.indent with
  | none => exact ⟨d, r, rfl, List.mem_cons_of_mem _ (List.mem_append_left _ hd)⟩
  | some width => exact ⟨_, _, rfl, by decide⟩

theorem endsNumeral_closed (hd : d ∈ [']', '\x7d']) (f : Format) (n : Nat) (r : Text) :
    EndsNumeral (closed f n d r) := by
  obtain ⟨c, t, hclosed, hc⟩ := exists_closed_cons hd f n r
  rw [hclosed]
  exact endsNumeral_cons hc t

/-- Joined texts do not start with a character that the first one does not start with. -/
theorem joined_append_ne (hw : ∃ c s, w = c :: s ∧ c ≠ d) (s : Text) (ws : List Text) (t r : Text) :
    Text.joined s (w :: ws) ++ t ≠ d :: r := by
  obtain ⟨c, w, rfl, hc⟩ := hw
  obtain ⟨more, hmore⟩ := exists_joined_cons s (c :: w) ws
  rw [hmore]
  intro h
  exact hc (List.cons.inj h).1

/-- What follows an item before another one. -/
theorem joined_append (s w u : Text) (us : List Text) (r : Text) :
    Text.joined (',' :: s) (w :: u :: us) ++ r =
      w ++ ',' :: (s ++ (Text.joined (',' :: s) (u :: us) ++ r)) := by
  simp

/-- The items of a list are read one by one. -/
theorem readItems_joined (f : Format) (level : Nat) (h : List.Forall₂ Encodes ws vs) (hne : ws ≠ [])
    (hbound : ∀ w ∈ ws, w.length ≤ bound) (hn : ws.length ≤ n) (r : Text) :
    readItems (readValue bound) n
      (Text.joined (',' :: newline f level) ws ++ closed f (level - 1) ']' r) = .ok (vs, r) := by
  induction h generalizing n with
  | nil => exact absurd rfl hne
  | @cons w v ws vs hw hws ih =>
    rw [List.forall_mem_cons] at hbound
    cases n with
    | zero => cases hn
    | succ n =>
      cases hws with
      | nil =>
        have hread := hw.reads bound _ hbound.1
          (endsNumeral_closed (d := ']') (by decide) f (level - 1) r)
        have hclosed := skipSpace_closed (d := ']') rfl f (level - 1) r
        rw [Text.joined_singleton, readItems, hread, ok_bind]
        simp only [hclosed]
      | @cons u x us xs hu hus =>
        have hread := fun t => hw.reads bound _ hbound.1 (endsNumeral_cons (c := ',') (by decide) t)
        have hcomma := skipSpace_cons (c := ',') rfl
        have hnext := skipSpace_joined hu.exists_cons f level (',' :: newline f level) us
        have hrest := ih (List.cons_ne_nil u us) hbound.2 (Nat.le_of_succ_le_succ hn)
        rw [joined_append, readItems, hread, ok_bind]
        simp only [hcomma, hnext, hrest, ok_bind]

/-! ### Entries -/

/-- The text of an entry: its key as a string, and a text that encodes its value. -/
def EncodesEntry (f : Format) (t : Text) (e : Text × Value) : Prop :=
  ∃ w, t = writeText false e.1 ++ colon f ++ w ∧ Encodes w e.2

theorem exists_colon (f : Format) : ∃ s, colon f = ':' :: s ∧ ∀ c ∈ s, isSpace c = true := by
  rw [colon]
  split
  · exact ⟨[' '], rfl, by simp [isSpace]⟩
  · exact ⟨[], rfl, nofun⟩

/-- An entry is read as its key, a colon and its value. -/
theorem EncodesEntry.reads {e : Text × Value} (h : EncodesEntry f t e) (hbound : t.length ≤ bound)
    (hr : EndsNumeral r) : ∃ chars afterKey afterColon, t ++ r = '"' :: chars ∧
      readString chars = .ok (e.1, afterKey) ∧ skipSpace afterKey = ':' :: afterColon ∧
      readValue bound (skipSpace afterColon) = .ok (e.2, r) := by
  obtain ⟨w, rfl, hw⟩ := h
  obtain ⟨s, hcolon, hs⟩ := exists_colon f
  obtain ⟨chars, hchars, hstring⟩ := readString_writeText e.1 (colon f ++ w ++ r)
  refine ⟨chars, colon f ++ w ++ r, s ++ w ++ r, ?_, hstring, ?_, ?_⟩
  · rw [← hchars]
    simp
  · rw [hcolon]
    exact skipSpace_cons rfl _
  · rw [List.append_assoc, skipSpace_append hs, hw.skipSpace_eq]
    simp only [List.length_append] at hbound
    exact hw.reads bound r (by omega) hr

theorem EncodesEntry.no_return {e : Text × Value} (h : EncodesEntry f t e) : '\r' ∉ t := by
  obtain ⟨w, rfl, hw⟩ := h
  have hcolon : '\r' ∉ colon f := by
    rw [colon]
    split <;> decide
  simp [(encodes_text e.1).no_return, hcolon, hw.no_return]

theorem EncodesEntry.ne_nil {e : Text × Value} (h : EncodesEntry f t e) : t ≠ [] := by
  obtain ⟨w, rfl, -⟩ := h
  exact List.cons_ne_nil _ _

theorem EncodesEntry.exists_cons {e : Text × Value} (h : EncodesEntry f t e) :
    ∃ c s, t = c :: s ∧ isSpace c = false := by
  obtain ⟨w, rfl, -⟩ := h
  exact ⟨'"', _, rfl, rfl⟩

/-- The entries of a dictionary are read one by one. -/
theorem readEntries_joined (level : Nat) (h : List.Forall₂ (EncodesEntry f) ts rows) (hne : ts ≠ [])
    (hbound : ∀ t ∈ ts, t.length ≤ bound) (hn : ts.length ≤ n) (r : Text) :
    readEntries (readValue bound) n
      (Text.joined (',' :: newline f level) ts ++ closed f (level - 1) '\x7d' r) =
        .ok (named rows, r) := by
  induction h generalizing n with
  | nil => exact absurd rfl hne
  | @cons t e ts rows ht hts ih =>
    rw [List.forall_mem_cons] at hbound
    cases n with
    | zero => cases hn
    | succ n =>
      cases hts with
      | nil =>
        have hclosed := skipSpace_closed (d := '\x7d') rfl f (level - 1) r
        obtain ⟨chars, afterKey, afterColon, hchars, hstring, hcolon, hvalue⟩ :=
          ht.reads hbound.1 (endsNumeral_closed (d := '\x7d') (by decide) f (level - 1) r)
        rw [Text.joined_singleton, hchars, readEntries, hstring, ok_bind]
        simp only [hcolon, hvalue, ok_bind, hclosed]
        rfl
      | @cons u x us xs hu hus =>
        have hcomma := skipSpace_cons (c := ',') rfl
        have hnext := skipSpace_joined hu.exists_cons f level (',' :: newline f level) us
        have hrest := ih (List.cons_ne_nil u us) hbound.2 (Nat.le_of_succ_le_succ hn)
        obtain ⟨chars, afterKey, afterColon, hchars, hstring, hcolon, hvalue⟩ :=
          ht.reads hbound.1 (endsNumeral_cons (c := ',') (by decide)
            (newline f level ++ (Text.joined (',' :: newline f level) (u :: us) ++
              closed f (level - 1) '\x7d' r)))
        rw [joined_append, hchars, readEntries, hstring, ok_bind]
        simp only [hcolon, hvalue, ok_bind, hcomma, hnext, hrest]
        rfl

/-! ### Lists and dictionaries -/

theorem no_return_enclose (hc : c ≠ '\r') (hd : d ≠ '\r') (h : ∀ w ∈ ws, '\r' ∉ w) :
    '\r' ∉ enclose f level c d ws := by
  have hnewline : ∀ n, '\r' ∉ newline f n := by
    intro n hmem
    rw [newline] at hmem
    split at hmem
    · cases hmem
    · simp at hmem
  have hjoined : '\r' ∉ Text.joined (',' :: newline f level) ws := by
    intro hmem
    rcases exists_mem_of_mem_joined hmem with hmem | ⟨w, hw, hmem⟩
    · simp [hnewline] at hmem
    · exact h w hw hmem
  rw [enclose]
  split
  · simp [hc.symm, hd.symm]
  · simp [hc.symm, hd.symm, hnewline, hjoined]

/-- What is enclosed stands between the brackets. -/
theorem enclose_append (hne : ws ≠ []) (r : Text) : enclose f level c d ws ++ r =
    c :: (newline f level ++
      (Text.joined (',' :: newline f level) ws ++ closed f (level - 1) d r)) := by
  rw [enclose, if_neg (by simpa using hne), closed]
  simp

theorem exists_enclose_cons : ∃ s, enclose f level c d ws = c :: s := by
  rw [enclose]
  split
  · exact ⟨_, rfl⟩
  · exact ⟨_, rfl⟩

theorem length_joined_le (f : Format) (level : Nat) (c d : Char) (hne : ws ≠ []) :
    (Text.joined (',' :: newline f level) ws).length + 2 ≤ (enclose f level c d ws).length := by
  rw [enclose, if_neg (by simpa using hne)]
  simp only [List.cons_append, List.append_assoc, List.length_cons, List.length_append,
    List.length_nil]
  omega

/-- The bounds that the items of an enclosed text are read with are large enough. -/
theorem bounds_of_enclose (hne : ws ≠ []) (hws : ∀ w ∈ ws, w ≠ [])
    (hbound : (enclose f level c d ws).length ≤ bound + 1) (t : Text) :
    (∀ w ∈ ws, w.length ≤ bound) ∧
      ws.length ≤ (Text.joined (',' :: newline f level) ws ++ t).length + 1 := by
  have hjoined := length_joined_le f level c d hne
  refine ⟨fun w hw => ?_, ?_⟩
  · have := length_le_joined (s := ',' :: newline f level) hw
    omega
  · have := length_le_length_joined (s := ',' :: newline f level) hws
    rw [List.length_append]
    omega

/-- **A list is encoded by its items.** -/
theorem encodes_list (h : List.Forall₂ Encodes ws vs) (f : Format) (level : Nat) :
    Encodes (enclose f level '[' ']' ws) (.list vs) := by
  have hwords : ∀ w ∈ ws, w ≠ [] ∧ '\r' ∉ w :=
    ((List.forall₂_and_left _ _).1 (h.imp fun w v hw => ⟨⟨hw.ne_nil, hw.no_return⟩, hw⟩)).1
  have hreturn : '\r' ∉ enclose f level '[' ']' ws :=
    no_return_enclose (by decide) (by decide) fun w hw => (hwords w hw).2
  obtain ⟨s, hs⟩ : ∃ s, enclose f level '[' ']' ws = '[' :: s := exists_enclose_cons
  refine ⟨⟨'[', s, hs, by decide⟩, fun bound r hbound hr => ?_, hreturn⟩
  cases bound with
  | zero =>
    rw [hs] at hbound
    cases hbound
  | succ bound =>
    cases h with
    | nil =>
      have hempty : enclose f level '[' ']' [] ++ r = '[' :: ']' :: r := rfl
      rw [hempty, readValue]
      rfl
    | @cons w v ws vs hw hws =>
      have hne := List.cons_ne_nil w ws
      obtain ⟨hshort, hmany⟩ := bounds_of_enclose hne (fun w hw => (hwords w hw).1) hbound
        (closed f (level - 1) ']' r)
      have hread := readItems_joined f level (.cons hw hws) hne hshort hmany r
      have hfirst : ∃ c s, w = c :: s ∧ c ≠ ']' := by
        obtain ⟨c, s, hcs, hc⟩ := hw.starts
        exact ⟨c, s, hcs, fun h => hc (h ▸ by decide)⟩
      rw [enclose_append hne, readValue]
      simp only [skipSpace_joined hw.exists_cons]
      split
      · rename_i hclosed
        exact absurd hclosed (joined_append_ne hfirst _ _ _ _)
      · rw [hread]
        rfl

/-- **A dictionary is encoded by its entries**, if their keys are all different. -/
theorem encodes_dict (h : List.Forall₂ (EncodesEntry f) ts rows)
    (hkeys : (rows.map (·.1)).Nodup) (level : Nat) :
    Encodes (enclose f level '\x7b' '\x7d' ts) (.dict (named rows)) := by
  have hwords : ∀ t ∈ ts, t ≠ [] ∧ '\r' ∉ t :=
    ((List.forall₂_and_left _ _).1 (h.imp fun t e ht => ⟨⟨ht.ne_nil, ht.no_return⟩, ht⟩)).1
  have hreturn : '\r' ∉ enclose f level '\x7b' '\x7d' ts :=
    no_return_enclose (by decide) (by decide) fun t ht => (hwords t ht).2
  obtain ⟨s, hs⟩ : ∃ s, enclose f level '\x7b' '\x7d' ts = '\x7b' :: s := exists_enclose_cons
  refine ⟨⟨'\x7b', s, hs, by decide⟩, fun bound r hbound hr => ?_, hreturn⟩
  cases bound with
  | zero =>
    rw [hs] at hbound
    cases hbound
  | succ bound =>
    cases h with
    | nil =>
      have hempty : enclose f level '\x7b' '\x7d' [] ++ r = '\x7b' :: '\x7d' :: r := rfl
      rw [hempty, readValue]
      rfl
    | @cons t e ts rows ht hts =>
      have hne := List.cons_ne_nil t ts
      obtain ⟨hshort, hmany⟩ := bounds_of_enclose hne (fun t ht => (hwords t ht).1) hbound
        (closed f (level - 1) '\x7d' r)
      have hread := readEntries_joined level (.cons ht hts) hne hshort hmany r
      have hfirst : ∃ c s, t = c :: s ∧ c ≠ '\x7d' := by
        obtain ⟨w, rfl, -⟩ := ht
        exact ⟨'"', _, rfl, by decide⟩
      have hdict : Value.dictOf (named (e :: rows)) = .dict (named (e :: rows)) := by
        rw [Value.dictOf_named, Value.gather_eq_self hkeys, Value.record_eq]
      rw [enclose_append hne, readValue]
      simp only [skipSpace_joined ht.exists_cons]
      split
      · rename_i hclosed
        exact absurd hclosed (joined_append_ne hfirst _ _ _ _)
      · rw [hread, ok_bind, hdict]

/-! ### Written data -/

/-- What is written of a value encodes it, if what is written of its parts does. -/
theorem composes_encodes : Composes Encodes where
  null := encodes_null
  bool := encodes_bool
  int := encodes_int
  text := encodes_text
  list := encodes_list
  dict := encodes_dict

/-- **Data is written as a text that encodes it**, with the entries of each dictionary in order. -/
theorem exists_write (hascii : f.asciiOnly = false) (hsorted : f.sorted = true) (hv : Data v)
    (level : Nat) : ∃ w, write f level v = .ok w ∧ Encodes w (ordered v) :=
  composes_encodes.exists_write hascii hsorted hv level

/-! ### Whole texts -/

theorem endsNumeral_of_space (hs : ∀ c ∈ s, isSpace c = true) : EndsNumeral s := by
  cases s with
  | nil => exact Numeral.endsNumeral_nil
  | cons c s =>
    have hspace : c ∈ [' ', '\t', '\n', '\r'] := by
      simpa [isSpace, or_assoc] using hs c List.mem_cons_self
    exact endsNumeral_cons (List.mem_append_right [',', ']', '\x7d'] hspace) s

/-- **A text that encodes a value is read as that value**, with any space after it. -/
theorem Encodes.read_append (h : Encodes w v) (hs : ∀ c ∈ s, isSpace c = true) :
    Json.read (w ++ s) = .ok v := by
  have hspace : skipSpace s = [] := List.dropWhile_eq_nil_iff.2 hs
  have hread : readValue ((w ++ s).length + 1) (w ++ s) = .ok (v, s) := by
    refine h.reads _ s ?_ (endsNumeral_of_space hs)
    rw [List.length_append]
    omega
  have hstart := h.skipSpace_eq s
  obtain ⟨c, w, rfl, hc⟩ := h.starts
  unfold Json.read
  split
  · rename_i hmark
    have hc' : c = '\ufeff' := (List.cons.inj hmark).1
    exact absurd (hc' ▸ by decide) hc
  · simp only [hstart, hread, ok_bind, hspace]

end Json

end SpacingClasses
