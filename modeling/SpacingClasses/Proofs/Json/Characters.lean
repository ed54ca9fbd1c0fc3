import SpacingClasses.Proofs.Json.RoundTrip
import SpacingClasses.Proofs.Text.Quoted

/-!
# The characters of written data

All that the writer adds to the texts in a value is ASCII.

* `Value.Mentions c v` : the character is in a text of the value, or in a key, at any depth;
* `Json.Shows w v` : beyond ASCII the text `w` has the characters that the value mentions;
* `Json.composes_shows` : such are the texts that data is written as.
-/

namespace SpacingClasses

/-- The character is in a text of the value, or in a key of a dictionary in it. -/
inductive Value.Mentions (c : Char) : Value → Prop where
  | text {t : Text} (h : c ∈ t) : Mentions c (.text t)
  | item {v : Value} {items : List Value} (hv : v ∈ items) (h : Mentions c v) :
      Mentions c (.list items)
  | key {e : Value × Value} {entries : List (Value × Value)} (he : e ∈ entries)
      (h : Mentions c e.1) : Mentions c (.dict entries)
  | value {e : Value × Value} {entries : List (Value × Value)} (he : e ∈ entries)
      (h : Mentions c e.2) : Mentions c (.dict entries)

namespace Value

variable {c : Char} {v : Value} {t : Text} {items : List Value} {rows : List (Text × Value)}

theorem mentions_text_iff : Mentions c (.text t) ↔ c ∈ t :=
  ⟨fun | .text h => h, .text⟩

theorem mentions_list_iff : Mentions c (.list items) ↔ ∃ v ∈ items, Mentions c v :=
  ⟨fun | .item hv h => ⟨_, hv, h⟩, fun ⟨_, hv, h⟩ => .item hv h⟩

theorem mentions_named_iff :
    Mentions c (.dict (named rows)) ↔ ∃ e ∈ rows, c ∈ e.1 ∨ Mentions c e.2 := by
  constructor
  · rintro (_ | _ | ⟨hentry, h⟩ | ⟨hentry, h⟩)
    · obtain ⟨e, he, rfl⟩ := List.mem_map.1 hentry
      exact ⟨e, he, .inl (mentions_text_iff.1 h)⟩
    · obtain ⟨e, he, rfl⟩ := List.mem_map.1 hentry
      exact ⟨e, he, .inr h⟩
  · rintro ⟨e, he, h | h⟩
    · exact .key (List.mem_map_of_mem he) (.text h)
    · exact .value (List.mem_map_of_mem he) h

/-- The order of entries is no matter. -/
theorem Data.mentions_ordered_iff (h : Data v) : Mentions c (ordered v) ↔ Mentions c v := by
  induction h with
  | null => rfl
  | bool _ => rfl
  | int _ => rfl
  | text _ => rfl
  | @list items _ ih =>
    rw [ordered, orderedItems_eq_map, mentions_list_iff, mentions_list_iff]
    simp only [List.mem_map, exists_exists_and_eq_and]
    exact exists_congr fun v => and_congr_right fun hv => ih v hv
  | @dict rows _ _ ih =>
    rw [ordered_dict_named, mentions_named_iff, mentions_named_iff]
    simp only [List.mem_map, exists_exists_and_eq_and, (perm_sortByText rows).mem_iff]
    exact exists_congr fun e => and_congr_right fun he => or_congr_right (ih e he)

end Value

namespace Json

open Value (Data Mentions named ordered)

variable {f : Format} {level : Nat} {c opening closing : Char} {s t w : Text} {ws : List Text}
  {v : Value} {vs : List Value}

/-- The text has ASCII characters only. -/
def Ascii (t : Text) : Prop := ∀ c ∈ t, c.toNat < 128

instance (t : Text) : Decidable (Ascii t) :=
  decidable_of_iff (t.all (fun c => c.toNat < 128) = true) (by simp [Ascii])

/-- Beyond ASCII the text has the characters that the value mentions, and no others. -/
def Shows (w : Text) (v : Value) : Prop := ∀ c, 128 ≤ c.toNat → (c ∈ w ↔ Mentions c v)

/-- Characters beyond ASCII are in no ASCII text. -/
theorem Ascii.not_mem (h : Ascii t) (hc : 128 ≤ c.toNat) : c ∉ t :=
  fun hmem => absurd (h c hmem) (Nat.not_lt.2 hc)

/-! ### Scalars -/

theorem ascii_unitEscape (n : Nat) : Ascii (unitEscape n) := by
  have hdigits : ∀ d < 16, (Nat.digitChar d).toNat < 128 := by decide
  intro c hc
  simp only [unitEscape, List.mem_cons] at hc
  rcases hc with rfl | rfl | hc
  · decide
  · decide
  · obtain ⟨d, hd, rfl⟩ := Text.mem_hex hc
    exact hdigits d hd

theorem ascii_write {n : Int} (h : Integer.write n = .ok w) : Ascii w := by
  have hmarks : Ascii Number.marks := by decide
  intro c hc
  rcases Integer.uses_write h c hc with hdigit | hmark
  · have hrange : c.toNat ≤ '9'.toNat := (Char.isDigit_iff_toNat.1 hdigit).2
    exact hrange.trans_lt (by decide)
  · exact hmarks c hmark

/-- Of a character beyond ASCII nothing else is written, and of others it is not. -/
theorem mem_writeChar_iff {d : Char} (hc : 128 ≤ c.toNat) : c ∈ writeChar false d ↔ c = d := by
  have hself {t : Text} (hd : d.toNat < 128) (ht : Ascii t) : c ∈ t ↔ c = d := by
    refine iff_of_false (ht.not_mem hc) ?_
    rintro rfl
    omega
  rw [writeChar]
  split_ifs with hquote hn hr ht hb hf hcode hascii
  · rw [Bool.or_eq_true, decide_eq_true_eq, decide_eq_true_eq] at hquote
    rcases hquote with rfl | rfl
    · exact hself (by decide) (by decide)
    · exact hself (by decide) (by decide)
  · exact hself (hn ▸ by decide) (by decide)
  · exact hself (hr ▸ by decide) (by decide)
  · exact hself (ht ▸ by decide) (by decide)
  · exact hself (hb ▸ by decide) (by decide)
  · exact hself (hf ▸ by decide) (by decide)
  · exact hself (by omega) (ascii_unitEscape _)
  · cases hascii
  · exact List.mem_singleton

theorem mem_writeText_iff (hc : 128 ≤ c.toNat) : c ∈ writeText false t ↔ c ∈ t := by
  have hquote : c ≠ '"' := by
    rintro rfl
    exact absurd hc (by decide)
  simp [writeText, hquote, mem_writeChar_iff hc]

/-! ### Lists and dictionaries -/

theorem mem_joined_iff (hs : c ∉ s) : c ∈ Text.joined s ws ↔ ∃ w ∈ ws, c ∈ w := by
  refine ⟨fun h => (exists_mem_of_mem_joined h).resolve_left hs, ?_⟩
  rintro ⟨w, hw, hmem⟩
  induction ws with
  | nil => cases hw
  | cons u ws ih =>
    cases ws with
    | nil =>
      rw [List.mem_singleton] at hw
      simpa [hw] using hmem
    | cons x xs =>
      rw [Text.joined_cons_cons, List.mem_append, List.mem_append]
      rcases List.mem_cons.1 hw with rfl | hw
      · exact .inl hmem
      · exact .inr (.inr (ih hw))

theorem ascii_newline (f : Format) (level : Nat) : Ascii (newline f level) := by
  intro c hc
  rw [newline] at hc
  split at hc
  · cases hc
  · rcases List.mem_cons.1 hc with rfl | hc
    · decide
    · rw [List.eq_of_mem_replicate hc]
      decide

theorem mem_enclose_iff (hopening : opening.toNat < 128) (hclosing : closing.toNat < 128)
    (hc : 128 ≤ c.toNat) : c ∈ enclose f level opening closing ws ↔ ∃ w ∈ ws, c ∈ w := by
  have hopen : c ≠ opening := by
    rintro rfl
    omega
  have hclose : c ≠ closing := by
    rintro rfl
    omega
  have hline := fun n => (ascii_newline f n).not_mem hc
  have hcomma : c ∉ ',' :: newline f level := by
    rw [List.mem_cons, not_or]
    refine ⟨?_, hline level⟩
    rintro rfl
    exact absurd hc (by decide)
  rw [enclose]
  split
  · rename_i hempty
    rw [List.isEmpty_iff] at hempty
    simp [hempty, hopen, hclose]
  · simp only [List.mem_cons, List.mem_append, List.not_mem_nil, hopen, hclose, hline, false_or,
      or_false, mem_joined_iff hcomma]

theorem exists_mem_iff {α : Type} {R : Text → α → Prop} {p : α → Prop} {as : List α}
    (h : List.Forall₂ R ws as) (hp : ∀ w a, R w a → (c ∈ w ↔ p a)) :
    (∃ w ∈ ws, c ∈ w) ↔ ∃ a ∈ as, p a := by
  induction h with
  | nil => simp
  | cons hR _ ih => rw [List.exists_mem_cons_iff, List.exists_mem_cons_iff, hp _ _ hR, ih]

theorem ascii_colon (f : Format) : Ascii (colon f) := by
  rw [colon]
  split
  · decide
  · decide

/-- **Beyond ASCII data is written with the characters of its texts alone.** -/
theorem composes_shows : Composes Shows where
  null c hc := iff_of_false (Ascii.not_mem (by decide) hc) nofun
  bool b c hc := by
    refine iff_of_false (Ascii.not_mem ?_ hc) nofun
    cases b <;> decide
  int hw c hc := iff_of_false ((ascii_write hw).not_mem hc) nofun
  text t c hc := by rw [mem_writeText_iff hc, Value.mentions_text_iff]
  list h f level c hc := by
    rw [mem_enclose_iff (by decide) (by decide) hc, Value.mentions_list_iff]
    exact exists_mem_iff h fun w v hshows => hshows c hc
  dict {f ts rows} h _ level c hc := by
    rw [mem_enclose_iff (by decide) (by decide) hc, Value.mentions_named_iff]
    refine exists_mem_iff h ?_
    rintro _ e ⟨w, rfl, hshows⟩
    rw [List.mem_append, List.mem_append, mem_writeText_iff hc, hshows c hc,
      iff_false_intro ((ascii_colon f).not_mem hc), or_false]

/-- The canonical text of data shows it. -/
theorem shows_of_write (hascii : f.asciiOnly = false) (hsorted : f.sorted = true) (hv : Data v)
    (hw : write f level v = .ok w) : Shows w v := by
  obtain ⟨w', hw', hshows⟩ := composes_shows.exists_write hascii hsorted hv level
  obtain rfl : w = w' := Except.ok.inj (hw.symm.trans hw')
  exact fun c hc => (hshows c hc).trans hv.mentions_ordered_iff

end Json

end SpacingClasses
