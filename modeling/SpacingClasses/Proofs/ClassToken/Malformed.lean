import SpacingClasses.Proofs.ClassToken.Named
import SpacingClasses.Proofs.Json.OddKeys

/-!
# Values that are no sizes

A plain value of any shape has class names: what is no size becomes a literal in brackets.  The one
thing that stops the conversion is a key of bytes, or a tuple for a key, in a dictionary that is to
become a literal.

* `Value.leaves v` : the values that a suffix is looked for, one for each tier;
* `Suffix.stopsIff_ofValue` : the suffix of a plain value stops at such a key only;
* `ClassToken.exists_entries` : whatever its shape, the tokens of a value are those of its leaves;
* `convertSpacing_plain` : **a plain value has class names** unless there is such a key in one of
  its leaves.
-/

namespace SpacingClasses

open Breakpoint (ladder tierNames)
open Value (Plain PlainKey OddKey OddKeyed)

variable {v : Value} {name stem : Text} {entries : List (Text × Value)}

/-! ### Leaves -/

/-- The values that a suffix is looked for: the entries of a list that have a tier, the entries of a
dictionary, or the value itself. -/
def Value.leaves : Value → List Value
  | .list items => items.take ladder.length
  | .tuple items => items.take ladder.length
  | .dict entries => entries.map (·.2)
  | v => [v]

theorem Value.Plain.leaf (h : Plain v) : ∀ leaf ∈ v.leaves, Plain leaf := by
  cases h with
  | list h | tuple h => exact fun leaf hleaf => h leaf (List.mem_of_mem_take hleaf)
  | dict hkeys hvalues => exact List.forall_mem_map.2 hvalues
  | int h => exact List.forall_mem_singleton.2 (.int h)
  | null => exact List.forall_mem_singleton.2 .null
  | bool b => exact List.forall_mem_singleton.2 (.bool b)
  | float x => exact List.forall_mem_singleton.2 (.float x)
  | decimal d => exact List.forall_mem_singleton.2 (.decimal d)
  | bytes bs => exact List.forall_mem_singleton.2 (.bytes bs)
  | text t => exact List.forall_mem_singleton.2 (.text t)

/-! ### Suffixes -/

namespace Suffix

theorem exists_ofDecimal (d : Decimal) : ∃ s, ofValue (.decimal d) = .ok s := by
  rw [ofValue]
  split
  · rename_i n hn
    cases n with
    | int n => exact ⟨_, ofInt_of_length (Decimal.length_le_of_number? hn)⟩
    | double x => exact ⟨_, rfl⟩
  · exact ⟨_, rfl⟩

/-- The suffix of a plain value stops exactly if the value has a key that cannot be written. -/
theorem stopsIff_ofValue (h : Plain v) : StopsIff (OddKeyed v) (ofValue v) := by
  have hwrite := Json.stopsIff_write h 0
  cases h with
  | int h => exact .of_exists ⟨_, ofInt_of_length (Value.length_le_maxDigits h)⟩ nofun
  | decimal d => exact .of_exists (exists_ofDecimal d) nofun
  | list h | tuple h | dict hkeys hvalues => exact hwrite.map _
  | null | bool b | float x | bytes bs | text t => exact .gives nofun _

end Suffix

/-! ### Tokens -/

namespace ClassToken

theorem stopsIff_ofTier (h : Plain v) (stem mark : Text) :
    StopsIff (OddKeyed v) (ofTier stem mark v) :=
  (Suffix.stopsIff_ofValue h).map _

theorem stopsIff_ofEntries (h : ∀ leaf ∈ entries.map (·.2), Plain leaf) (stem : Text) :
    StopsIff (∃ leaf ∈ entries.map (·.2), OddKeyed leaf) (ofEntries stem entries) := by
  induction entries with
  | nil => exact .gives (by simp) []
  | cons e entries ih =>
    rw [List.map_cons, List.forall_mem_cons] at h
    rw [ofEntries]
    refine ((stopsIff_ofTier h.1 stem _).bind fun first => (ih h.2).map _).congr ?_
    simp only [List.map_cons, List.mem_cons, exists_eq_or_imp]

theorem map_snd_zip_tierNames (items : List Value) :
    (tierNames.zip items).map (·.2) = items.take ladder.length := by
  rw [List.zip_eq_zip_take_min, List.map_snd_zip (by simp)]
  exact List.take_eq_take_iff.2 (by simp [tierNames, ladder])

/-- The keys of a plain dictionary are displayed, and its entries keep their values. -/
theorem exists_displayKeys {rows : List (Value × Value)} (h : ∀ e ∈ rows, PlainKey e.1) :
    ∃ entries, Shape.displayKeys rows = .ok entries ∧ entries.map (·.2) = rows.map (·.2) := by
  induction rows with
  | nil => exact ⟨[], rfl, rfl⟩
  | cons e rows ih =>
    rw [List.forall_mem_cons] at h
    obtain ⟨key, hkey⟩ := h.1.exists_display
    obtain ⟨entries, hentries, hvalues⟩ := ih h.2
    refine ⟨(key, e.2) :: entries, ?_, ?_⟩
    · rw [Shape.displayKeys, hkey, hentries]
      rfl
    · rw [List.map_cons, List.map_cons, hvalues]

theorem ofEntries_base (stem : Text) (v : Value) :
    ofEntries stem [(Breakpoint.baseName, v)] = ofTier stem [] v := by
  rw [ofEntries, ofEntries]
  cases h : ofTier stem (Breakpoint.keyMark Breakpoint.baseName) v with
  | error f => exact h.symm
  | ok tokens =>
    rw [ok_bind, ok_bind, List.append_nil]
    exact h.symm

/-- **Whatever the shape of a plain value**, its tokens are those of its leaves, each under the name
of a tier. -/
theorem exists_entries (h : Plain v) (hstem : Property.stem? name = some stem) :
    ∃ entries, entries.map (·.2) = v.leaves ∧ ofValue (.text name) v = ofEntries stem entries := by
  have hvalue : ∀ shape, Shape.ofValue v = .ok shape →
      ofValue (.text name) v = ofShape stem shape := by
    intro shape hshape
    rw [ofValue_of_stem hstem, hshape, ok_bind]
  -- what is neither rows nor entries is its own leaf, on the base tier
  have hsingle (hleaves : v.leaves = [v])
      (hshape : Shape.ofValue v = .ok (.single v Value.singleLabel)) :
      ∃ entries, entries.map (·.2) = v.leaves ∧
        ofValue (.text name) v = ofEntries stem entries := by
    refine ⟨[(Breakpoint.baseName, v)], hleaves.symm, (hvalue _ hshape).trans ?_⟩
    exact (ofEntries_base stem v).symm
  cases h with
  | list h | tuple h =>
    refine ⟨_, map_snd_zip_tierNames _, (hvalue _ rfl).trans ?_⟩
    exact ofShape_tiers_eq_keyed stem _
  | dict hkeys hvalues =>
    obtain ⟨entries, hentries, hleaves⟩ := exists_displayKeys hkeys
    exact ⟨entries, hleaves, hvalue (.keyed entries) (by rw [Shape.ofValue, hentries]; rfl)⟩
  | int h => exact hsingle rfl rfl
  | null | bool b | float x | decimal d | bytes bs | text t => exact hsingle rfl rfl

end ClassToken

/-! ### Class names -/

theorem stopsIff_convertSpacing (h : Plain v) (hname : Property.isSpacing name = true) :
    StopsIff (∃ leaf ∈ v.leaves, OddKeyed leaf) (convertSpacing (.text name) v) := by
  obtain ⟨stem, hstem⟩ := Option.isSome_iff_exists.1 hname
  obtain ⟨entries, hleaves, htokens⟩ := ClassToken.exists_entries h hstem
  have htoken := ClassToken.stopsIff_ofEntries (hleaves ▸ h.leaf) stem
  rw [hleaves, ← htokens] at htoken
  exact (htoken.map _).map _

/-- **A plain value has class names**, whatever its shape, exactly if no dictionary in its leaves
has a key of bytes or a tuple for a key; such a key is all that the conversion ever stops at. -/
theorem convertSpacing_plain (hname : Property.isSpacing name = true) (hv : v.Plain) :
    ((∃ t, convertSpacing (.text name) v = .ok t) ↔ ∀ leaf ∈ v.leaves, ¬ leaf.OddKeyed) ∧
      ∀ failure, convertSpacing (.text name) v = .error failure →
        failure = .unwritableKey "bytes" ∨ failure = .unwritableKey "tuple" := by
  have h := stopsIff_convertSpacing hv hname
  constructor
  · rw [h.exists_ok_iff]
    simp only [not_exists, not_and]
  · intro failure hfailure
    obtain ⟨kind, hkind, rfl⟩ := h.kind_of_error hfailure
    rcases List.mem_cons.1 hkind with rfl | hkind
    · exact .inl rfl
    · exact .inr (congrArg _ (List.mem_singleton.1 hkind))

/-- Keys of bytes and of tuples, which are names of tiers, and a leaf with keys that JSON has. -/
def Value.oddTiers : Value :=
  .dict [(.bytes [97], .text "auto"),
    (.tuple [.null, .int 7], .list [.bool true, .dict [(.null, .bytes [98])]])]

theorem plain_oddTiers : Value.oddTiers.Plain := by
  have hpair : ∀ k ∈ [Value.null, .int 7], PlainKey k :=
    List.forall_mem_cons.2 ⟨.null, List.forall_mem_singleton.2 (.int (by decide))⟩
  have hleaf : Plain (.dict [(.null, .bytes [98])]) :=
    .dict (List.forall_mem_singleton.2 .null) (List.forall_mem_singleton.2 (.bytes [98]))
  have hitems : ∀ v ∈ [Value.bool true, .dict [(.null, .bytes [98])]], Plain v :=
    List.forall_mem_cons.2 ⟨.bool true, List.forall_mem_singleton.2 hleaf⟩
  refine .dict ?_ ?_
  · exact List.forall_mem_cons.2 ⟨.bytes [97], List.forall_mem_singleton.2 (.tuple hpair)⟩
  · exact List.forall_mem_cons.2 ⟨.text "auto", List.forall_mem_singleton.2 (.list hitems)⟩

theorem convertSpacing_oddTiers : ∃ t, convertSpacing (.text "p") Value.oddTiers = .ok t := by
  -- the odd keys are names of tiers, and no leaf has one
  refine (convertSpacing_plain rfl plain_oddTiers).1.2 (List.forall_mem_cons.2 ⟨nofun, ?_⟩)
  refine List.forall_mem_singleton.2 fun h => ?_
  obtain ⟨v, hv, h⟩ := Value.oddKeyed_list.1 h
  rcases List.mem_cons.1 hv with rfl | hv
  · cases h
  · cases List.mem_singleton.1 hv
    obtain ⟨e, he, h⟩ := Value.oddKeyed_dict.1 h
    cases List.mem_singleton.1 he
    rcases h with h | h <;> cases h

/-- A list whose first entry is a dictionary with a key of bytes. -/
def Value.bytesKeyed : Value := .list [.dict [(.bytes [97], .int 1)]]

/-- **Not every plain value has class names.** -/
theorem convertSpacing_bytesKeyed :
    Property.isSpacing "margin" = true ∧ Value.bytesKeyed.Plain ∧
      convertSpacing (.text "margin") Value.bytesKeyed = .error (.unwritableKey "bytes") := by
  refine ⟨rfl, .list (List.forall_mem_singleton.2 (.dict ?_ ?_)), rfl⟩
  · exact List.forall_mem_singleton.2 (.bytes [97])
  · exact List.forall_mem_singleton.2 (.int (by decide))

end SpacingClasses
