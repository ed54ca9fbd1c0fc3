import SpacingClasses.Proofs.Settings.Precedence
import SpacingClasses.Proofs.Text.Lowercase

/-!
# Levels in the settings and in the log

The settings take a level from a text strictly, and the log leniently: a text that names none is
`info` there.

* `Level.words` : the words for a level;
* `Level.ofText?_eq_some_iff` : the settings take a level exactly from a text that spells a word
  for it;
* `Level.ofLabel_eq` : the log takes what the settings do, and `info` where they take nothing,
  though they strip a text before they lower it, and the log after;
* `Level.read_alike` : **a level that the settings take is the same in the log**, and a text that
  they refuse is `info` there.
-/

namespace SpacingClasses

namespace Level

open Text (Plain Solid Spells)

variable {l : Level} {t : Text}

/-- The words for a level: its name, and a longer one of `warn`. -/
def words : Level → List Text
  | warn => ["warn", "warning"]
  | l => [l.name]

theorem ofName?_eq_some_iff {word : Text} : ofName? word = some l ↔ word ∈ l.words := by
  rw [Settings.ofName?_eq_some_iff]
  cases l with
  | warn => exact (or_congr_right (and_iff_left rfl)).trans List.mem_pair.symm
  | debug | info | error => simp [words]

theorem plain_words (l : Level) : ∀ word ∈ l.words, Plain word ∧ Solid word := by
  cases l <;> decide

/-- The settings take a level from a text that spells a word for it, and from no other. -/
theorem ofText?_eq_some_iff : ofText? t = some l ↔ ∃ word ∈ l.words, Spells word t := by
  rw [ofText?, ofName?_eq_some_iff]
  constructor
  · intro h
    obtain ⟨hplain, hsolid⟩ := plain_words l _ h
    exact ⟨_, h, (Text.lower_strip_eq_iff hplain hsolid).1 rfl⟩
  · rintro ⟨word, hmem, hspells⟩
    obtain ⟨hplain, hsolid⟩ := plain_words l word hmem
    rwa [(Text.lower_strip_eq_iff hplain hsolid).2 hspells]

/-- The log takes the level that the settings take, and `info` where they take none. -/
theorem ofLabel_eq (t : Text) : ofLabel t = (ofText? t).getD info := by
  rw [ofLabel, ofText?, Text.strip_lower]

theorem ofLabel_name (l : Level) : ofLabel l.name = l := by
  cases l <;> decide

theorem logLevel_eq_ok_iff {setting : Text} :
    Settings.logLevel setting (.text t) = .ok l ↔ ofText? t = some l := by
  cases h : ofText? t with
  | some l' => simp [Settings.logLevel, h]
  | none =>
    have hrefused : Settings.logLevel setting (.text t) =
        .error (.report (.notLevel setting (Text.quoted t))) := by
      simp only [Settings.logLevel, h]
      rfl
    simp [hrefused]

/-- **Levels are read alike.**  A level that the settings take from a text is the level of the log
for the same text and for the name of the level, as the floor of a store and in its events; what the
settings refuse is `info` there.  The settings take a level from every text that spells a word for
it in letters of either case between blanks, and from no other. -/
theorem read_alike (setting t : Text) :
    (∀ l, Settings.logLevel setting (.text t) = .ok l → ∀ label ∈ [t, l.name],
      ofLabel label = l ∧ Store.create (.text label) = .ok { floor := l } ∧
        ∀ (s : Store) (message : Value) (fields : Option Value),
          s.record (.text label) message fields = s.add l message fields) ∧
    (∀ f, Settings.logLevel setting (.text t) = .error f → ofLabel t = info) ∧
    ∀ l, Settings.logLevel setting (.text t) = .ok l ↔ ∃ word ∈ l.words, Spells word t := by
  refine ⟨fun l hl label hlabel => ?_, fun f hf => ?_, fun l => ?_⟩
  · have hread : ofLabel label = l := by
      rcases List.mem_pair.1 hlabel with rfl | rfl
      · rw [ofLabel_eq, logLevel_eq_ok_iff.1 hl]
        rfl
      · exact ofLabel_name l
    refine ⟨hread, ?_, fun s message fields => ?_⟩
    · rw [← hread]
      rfl
    · rw [← hread]
      rfl
  · cases h : ofText? t with
    | none =>
      rw [ofLabel_eq, h]
      rfl
    | some l =>
      rw [logLevel_eq_ok_iff.2 h] at hf
      cases hf
  · rw [logLevel_eq_ok_iff, ofText?_eq_some_iff]

/-- A longer name in capitals between blanks, and a word that names no level and ends in a final
sigma. -/
theorem read_alike_capitals :
    ofLabel "\u2003WARNing\n" = warn ∧ ofLabel warn.name = warn ∧
      ofLabel "INF\u039f\u03a3 " = info := by
  have hwarn : Settings.logLevel "logging.level" (.text "\u2003WARNing\n") = .ok warn := by
    decide +kernel
  have hinfo : Settings.logLevel "logging.level" (.text "INF\u039f\u03a3 ") =
      .error (.report (.notLevel "logging.level" "'INF\u039f\u03a3 '")) := by
    decide +kernel
  have hread := (read_alike "logging.level" "\u2003WARNing\n").1 warn hwarn
  obtain ⟨-, hrefused, -⟩ := read_alike "logging.level" "INF\u039f\u03a3 "
  exact ⟨(hread _ List.mem_cons_self).1, (hread _ (List.mem_pair.2 (.inr rfl))).1, hrefused _ hinfo⟩

end Level

end SpacingClasses
