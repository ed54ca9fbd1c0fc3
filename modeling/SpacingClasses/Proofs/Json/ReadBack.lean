import SpacingClasses.Proofs.Json.Doubles
import SpacingClasses.Proofs.Value.Readable

/-!
# What is read comes back

Readable values are written as JSON, and read from it but for the order of entries and the doubles.

* `Value.ReadBack v w` : the value `w` is what comes back of `v`; its entries are in the order of their
  keys, and its doubles may be any;
* `Value.field?` : what stands in a dictionary under a text;
* `Value.ReadBack.field` : what stands under a text comes back under it;
* `Json.exists_write_readable` : **a readable value is written as a text that encodes what comes back**;
* `Json.exists_pretty` : and with a line end behind it that text is read.
-/

namespace SpacingClasses

namespace Value

/-- What comes back of a value: its entries are in the order of their keys, and its doubles may be
any. -/
inductive ReadBack : Value → Value → Prop where
  | null : ReadBack .null .null
  | bool (b : Bool) : ReadBack (.bool b) (.bool b)
  | int (n : Int) : ReadBack (.int n) (.int n)
  | float (x y : Double) : ReadBack (.float x) (.float y)
  | text (t : Text) : ReadBack (.text t) (.text t)
  | list {vs ws : List Value} (h : List.Forall₂ ReadBack vs ws) : ReadBack (.list vs) (.list ws)
  | dict {rows rows' : List (Text × Value)}
      (hkeys : (sortByText rows).map (·.1) = rows'.map (·.1))
      (hvalues : List.Forall₂ ReadBack ((sortByText rows).map (·.2)) (rows'.map (·.2))) :
      ReadBack (.dict (named rows)) (.dict (named rows'))

/-- What stands in a dictionary under a text. -/
def field? (v : Value) (name : Text) : Option Value :=
  match v with
  | .dict entries => find? entries name
  | _ => none

variable {v w : Value} {vs : List Value} {rows : List (Text × Value)} {name t : Text}

/-- A row has its counterpart among rows with the same keys and related values. -/
theorem exists_mem_of_forall₂ {R : Value → Value → Prop} {rows' : List (Text × Value)}
    (hkeys : rows.map (·.1) = rows'.map (·.1))
    (hvalues : List.Forall₂ R (rows.map (·.2)) (rows'.map (·.2))) {e : Text × Value}
    (he : e ∈ rows) : ∃ e' ∈ rows', e.1 = e'.1 ∧ R e.2 e'.2 := by
  induction rows generalizing rows' with
  | nil => cases he
  | cons first rows ih =>
    cases rows' with
    | nil => cases hkeys
    | cons first' rows' =>
      rw [List.map_cons, List.map_cons] at hkeys hvalues
      obtain ⟨hkey, hkeys⟩ := List.cons.inj hkeys
      cases hvalues with
      | cons hvalue hvalues =>
        rcases List.mem_cons.1 he with rfl | he
        · exact ⟨first', List.mem_cons_self, hkey, hvalue⟩
        · obtain ⟨e', he', h⟩ := ih hkeys hvalues he
          exact ⟨e', List.mem_cons_of_mem _ he', h⟩

/-- **What stands under a text comes back under it.** -/
theorem ReadBack.field (h : ReadBack (record rows) w) (hkeys : (rows.map (·.1)).Nodup)
    (hmem : (name, v) ∈ rows) : ∃ v', w.field? name = some v' ∧ ReadBack v v' := by
  rw [record_eq] at h
  generalize hnamed : named rows = entries at h
  cases h with
  | @dict _ rows' hsorted hvalues =>
    obtain rfl := named_injective hnamed
    have hperm := perm_sortByText rows
    obtain ⟨⟨name', v'⟩, he', rfl, hv⟩ :=
      exists_mem_of_forall₂ hsorted hvalues (hperm.mem_iff.2 hmem)
    have hnodup : (rows'.map (·.1)).Nodup := by
      rw [← hsorted]
      exact (hperm.map _).nodup_iff.2 hkeys
    refine ⟨v', ?_, hv⟩
    rw [field?, find?_named]
    exact Rows.lookup_of_mem hnodup he'

theorem ReadBack.field_text (h : ReadBack (record rows) w) (hkeys : (rows.map (·.1)).Nodup)
    (hmem : (name, .text t) ∈ rows) : w.field? name = some (.text t) := by
  obtain ⟨v', hfield, hv⟩ := h.field hkeys hmem
  cases hv
  exact hfield

theorem ReadBack.field_list (h : ReadBack (record rows) w) (hkeys : (rows.map (·.1)).Nodup)
    (hmem : (name, .list vs) ∈ rows) :
    ∃ ws, w.field? name = some (.list ws) ∧ List.Forall₂ ReadBack vs ws := by
  obtain ⟨v', hfield, hv⟩ := h.field hkeys hmem
  cases hv with
  | list hvs => exact ⟨_, hfield, hvs⟩

end Value

/-! ### Written values -/

namespace Json

open Value (Readable ReadBack named)

variable {f : Format} {v : Value} {long : Prop} {raw : Text → Prop}

/-- **A readable value is written as a text that encodes what comes back of it.** -/
theorem exists_write_readable (hascii : f.asciiOnly = false) (hsorted : f.sorted = true)
    (hv : Readable long raw v) (level : Nat) :
    ∃ w v', write f level v = .ok w ∧ Encodes w v' ∧ ReadBack v v' := by
  -- for every level, as what is nested stands one level deeper
  induction hv generalizing level with
  | null => exact ⟨_, _, rfl, encodes_null, .null⟩
  | bool b => exact ⟨_, _, rfl, encodes_bool b, .bool b⟩
  | int h =>
    obtain ⟨w, hw⟩ := Integer.exists_write h.length_le
    exact ⟨w, _, hw, encodes_int hw, .int _⟩
  | float x =>
    obtain ⟨y, hy⟩ := encodes_double x
    exact ⟨_, _, rfl, hy, .float x y⟩
  | @text t _ =>
    refine ⟨writeText f.asciiOnly t, _, rfl, ?_, .text t⟩
    rw [hascii]
    exact encodes_text t
  | list _ ih =>
    obtain ⟨ws, vs, hws, hencodes, hback⟩ := exists_mapM_forall₂ fun v hv => ih v hv (level + 1)
    refine ⟨enclose f (level + 1) '[' ']' ws, _, ?_, encodes_list hencodes f (level + 1), .list hback⟩
    rw [write_list, hws]
    rfl
  | @dict rows hkeys _ ih =>
    have hperm := Value.perm_sortByText rows
    have hentry : ∀ e ∈ Value.sortByText rows, ∃ t e', writeEntry f (level + 1) e = .ok t ∧
        EncodesEntry f t e' ∧ (e.1 = e'.1 ∧ ReadBack e.2 e'.2) := by
      intro e he
      obtain ⟨w, v', hw, hencodes, hback⟩ := ih e (hperm.mem_iff.1 he) (level + 1)
      refine ⟨_, (e.1, v'), ?_, ⟨w, rfl, hencodes⟩, rfl, hback⟩
      rw [writeEntry, hw, hascii]
      rfl
    obtain ⟨ts, rows', hts, hencodes, hback⟩ := exists_mapM_forall₂ hentry
    have hsame : (Value.sortByText rows).map (·.1) = rows'.map (·.1) := by
      rw [← List.forall₂_eq_eq_eq, List.forall₂_map_left_iff, List.forall₂_map_right_iff]
      exact hback.imp fun _ _ h => h.1
    have hvalues : List.Forall₂ ReadBack ((Value.sortByText rows).map (·.2)) (rows'.map (·.2)) := by
      rw [List.forall₂_map_left_iff, List.forall₂_map_right_iff]
      exact hback.imp fun _ _ h => h.2
    have hnodup : (rows'.map (·.1)).Nodup := by
      rw [← hsame]
      exact (hperm.map _).nodup_iff.2 hkeys
    refine ⟨enclose f (level + 1) '\x7b' '\x7d' ts, _, ?_, encodes_dict hencodes hnodup (level + 1),
      .dict hsame hvalues⟩
    rw [write_dict, arranged, if_pos hsorted, hts]
    rfl

/-- **A readable value is printed as JSON**, and read from there with the line end behind it. -/
theorem exists_pretty (hv : Readable long raw v) : ∃ w v', pretty v = .ok w ∧
    Json.read (w ++ ['\n']) = .ok v' ∧ ReadBack v v' := by
  obtain ⟨w, v', hw, hencodes, hback⟩ := exists_write_readable (f := canonicalLines) rfl rfl hv 0
  exact ⟨w, v', hw, hencodes.read_append (by simp [isSpace]), hback⟩

end Json

end SpacingClasses
