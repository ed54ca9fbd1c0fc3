import SpacingClasses.Proofs.Toml.Scalars
import SpacingClasses.Proofs.Value.Readable
import SpacingClasses.Toml.Reader

/-!
# Tables of a TOML document as they are read

Whatever the statements of a document do to its tables, these hold legible values alone.

* `Toml.LegibleTable long table` : the entries of the table stand under texts, and are legible;
* `Toml.changeAt_legible` : a change of a table inside another one keeps this;
* `Toml.yields_readStatements` : so do all statements up to the end;
* `Toml.yields_read` : **the tables of a document are legible**, and a number in it is too long only if
  it has a long row.
-/

namespace SpacingClasses

namespace Toml

open Reader (Gives Yields gives_stopAt)
open Text (HasRow)
open Value (named)

variable {long : Prop} {source t part : Text} {table : Table} {v : Value}

/-! ### Changes of tables -/

/-- The entries of a table stand under texts, and are legible. -/
def LegibleTable (long : Prop) (table : Table) : Prop :=
  ∃ rows, table = named rows ∧ ∀ e ∈ rows, Legible long e.2

theorem legibleTable_nil : LegibleTable long [] := ⟨[], rfl, by simp⟩

theorem LegibleTable.dict (h : LegibleTable long table) : Legible long (.dict table) := by
  obtain ⟨rows, rfl, hrows⟩ := h
  exact .dict hrows

theorem LegibleTable.of_dict (h : Legible long (.dict table)) : LegibleTable long table := by
  cases h with
  | dict h => exact ⟨_, rfl, h⟩

theorem LegibleTable.find? (h : LegibleTable long table) (hv : Value.find? table part = some v) :
    Legible long v := by
  obtain ⟨rows, rfl, hrows⟩ := h
  obtain ⟨row, hrow, rfl⟩ := Value.exists_of_find? hv
  exact hrows row hrow

theorem LegibleTable.insert (h : LegibleTable long table) (hv : Legible long v) (part : Text) :
    LegibleTable long (Value.insert table (.text part) v) := by
  obtain ⟨rows, rfl, hrows⟩ := h
  refine ⟨_, Value.insert_named rows part v, fun e he => ?_⟩
  rcases Value.mem_put he with rfl | he
  · exact hv
  · exact hrows e he

/-- A change keeps tables legible. -/
def KeepsLegible (long : Prop) (change : Table → Except Fault Table) : Prop :=
  ∀ table table', LegibleTable long table → change table = .ok table' → LegibleTable long table'

theorem keepsLegible_ok : KeepsLegible long .ok := by
  rintro table _ h ⟨⟩
  exact h

theorem keepsLegible_addEntry (hv : Legible long v) (fault : Fault) (part : Text) :
    KeepsLegible long (addEntry fault part v) := by
  intro table table' h hadd
  rw [addEntry] at hadd
  split at hadd
  · cases hadd
  · cases hadd
    exact h.insert hv part

theorem keepsLegible_addToArray (part : Text) : KeepsLegible long (addToArray part) := by
  have hempty : Legible long (.dict []) := legibleTable_nil.dict
  intro table table' h hadd
  rw [addToArray] at hadd
  split at hadd
  · cases hadd
    exact h.insert (.list (List.forall_mem_singleton.2 hempty)) part
  · rename_i items hitems
    cases hadd
    refine h.insert (.list (List.forall_mem_append.2 ⟨?_, List.forall_mem_singleton.2 hempty⟩)) part
    cases h.find? hitems with
    | list h => exact h
  · cases hadd

/-- **A change of a table inside another one** keeps both legible. -/
theorem keepsLegible_changeAt {change : Table → Except Fault Table}
    (hchange : KeepsLegible long change) (throughLists : Bool) (path : Key) :
    KeepsLegible long (changeAt throughLists · path change) := by
  induction path with
  | nil => exact hchange
  | cons part path ih =>
    intro table table' h hresult
    simp only [changeAt] at hresult
    split at hresult
    · obtain ⟨inner, hinner, hresult⟩ := bind_eq_ok_iff.1 hresult
      cases hresult
      exact h.insert (ih _ _ legibleTable_nil hinner).dict part
    · rename_i inner hfound
      obtain ⟨inner', hinner, hresult⟩ := bind_eq_ok_iff.1 hresult
      cases hresult
      exact h.insert (ih _ _ (.of_dict (h.find? hfound)) hinner).dict part
    · rename_i items hfound
      have hitems : ∀ v ∈ items, Legible long v := by
        cases h.find? hfound with
        | list h => exact h
      split at hresult
      · -- the last table of a list is changed in its place
        rename_i inner hlast
        obtain ⟨inner', hinner, hresult⟩ := bind_eq_ok_iff.1 hresult
        cases hresult
        have hlegible := ih _ _ (.of_dict (hitems _ (List.mem_of_getLast? hlast))) hinner
        refine h.insert (.list (List.forall_mem_append.2 ⟨fun v hv => ?_, ?_⟩)) part
        · exact hitems v (List.mem_of_mem_dropLast hv)
        · exact List.forall_mem_singleton.2 hlegible.dict
      · cases hresult
    · cases hresult

/-! ### Keys and what stands between -/

theorem gives_readKeyPart (long : Prop) (t : Text) :
    Gives (fun _ => True) long t (readKeyPart t) := by
  cases t with
  | nil => exact gives_stopAt ..
  | cons c t =>
    rw [readKeyPart]
    split_ifs
    · exact ⟨trivial, List.dropWhile_suffix _⟩
    · exact (gives_readLine long c t).of_suffix (List.suffix_cons c t)
    · exact gives_stopAt ..

theorem gives_readKeyRest (long : Prop) (bound : Nat) (t : Text) :
    Gives (fun _ => True) long t (readKeyRest bound t) := by
  induction bound generalizing t with
  | zero => exact trivial
  | succ bound ih =>
    rw [readKeyRest]
    split
    · rename_i u hu
      have hsuffix := (skipSpace_suffix u).trans (Text.suffix_of_dropWhile hu)
      refine ((gives_readKeyPart long (skipSpace u)).bind fun part w _ _ => ?_).of_suffix hsuffix
      exact (ih w).bind fun parts x _ _ => ⟨trivial, List.suffix_rfl⟩
    · exact ⟨trivial, skipSpace_suffix t⟩

theorem gives_readKey (long : Prop) (t : Text) : Gives (fun _ => True) long t (readKey t) := by
  refine (gives_readKeyPart long t).bind fun part u _ _ => ?_
  exact (gives_readKeyRest long (u.length + 1) u).bind fun parts w _ _ => ⟨trivial, List.suffix_rfl⟩

theorem yields_skipComment (long : Prop) (t : Text) : Yields (· <:+ t) long (skipComment t) := by
  rw [skipComment.eq_def]
  split
  · rename_i u
    refine (yields_checkLegal long false _ u).bind fun _ _ => ?_
    exact (List.dropWhile_suffix _).trans (List.suffix_cons _ u)
  · exact List.suffix_rfl

theorem yields_skipBetween (long : Prop) (bound : Nat) (t : Text) :
    Yields (· <:+ t) long (skipBetween bound t) := by
  induction bound generalizing t with
  | zero => exact trivial
  | succ bound ih =>
    have hskip : t.dropWhile isSpaceOrLine <:+ t := List.dropWhile_suffix _
    rw [skipBetween]
    split
    · rename_i u hu
      rw [hu] at hskip
      refine (yields_skipComment long _).bind fun w hw => ?_
      exact (ih w).imp fun x hx => (hx.trans hw).trans hskip
    · exact hskip

theorem yields_faultAt {α : Type} {good : α → Prop} {x : Except Fault α}
    (h : ∀ a, x = .ok a → good a) (left : Text) :
    Yields good long (faultAt left x) := by
  cases x with
  | ok a => exact h a rfl
  | error fault => exact trivial

/-! ### Values -/

section

variable {item : Reader Fault Value}

theorem gives_readItems (hitem : ∀ u, u <:+ t → Gives (Legible long) long u (item u)) (bound : Nat) :
    Gives (fun vs => ∀ v ∈ vs, Legible long v) long t (readItems item bound t) := by
  induction bound generalizing t with
  | zero => exact trivial
  | succ bound ih =>
    rw [readItems]
    refine (yields_skipBetween long _ t).gives fun start hstart => ?_
    split
    · exact ⟨by simp, List.suffix_cons _ _⟩
    · refine (hitem start hstart).bind fun v u hv hu => ?_
      refine (yields_skipBetween long _ u).gives fun w hw => ?_
      split
      · exact ⟨List.forall_mem_singleton.2 hv, List.suffix_cons _ _⟩
      · rename_i next
        have hnext := List.suffix_cons ',' next
        have ht := ((hnext.trans hw).trans hu).trans hstart
        refine ((ih fun x hx => hitem x (hx.trans ht)).bind fun vs rest hvs _ => ?_).of_suffix hnext
        exact ⟨List.forall_mem_cons.2 ⟨hv, hvs⟩, List.suffix_rfl⟩
      · exact gives_stopAt ..

theorem gives_readPair (hitem : ∀ u, u <:+ t → Gives (Legible long) long u (item u)) :
    Gives (fun pair => Legible long pair.2) long t (readPair item t) := by
  refine (gives_readKey long t).bind fun key u _ hu => ?_
  dsimp only
  split
  · rename_i w
    have hw := (skipSpace_suffix w).trans (List.suffix_cons '=' w)
    refine ((hitem _ (hw.trans hu)).bind fun v rest hv _ => ?_).of_suffix hw
    exact ⟨hv, List.suffix_rfl⟩
  · exact gives_stopAt ..

theorem gives_readEntries (hitem : ∀ u, u <:+ t → Gives (Legible long) long u (item u))
    (htable : LegibleTable long table) (frozen : List Key) (bound : Nat) :
    Gives (LegibleTable long) long t (readEntries item bound table frozen t) := by
  induction bound generalizing t table frozen with
  | zero => exact trivial
  | succ bound ih =>
    rw [readEntries]
    refine (gives_readPair hitem).bind fun pair u hv hu => ?_
    dsimp only
    split
    · exact gives_stopAt ..
    · refine Yields.bind (yields_faultAt (fun table' h => (?_ : LegibleTable long table')) u)
        fun table' htable' => ?_
      · exact keepsLegible_changeAt (keepsLegible_addEntry hv _ _) _ _ _ _ htable h
      · split
        · rename_i rest h
          exact ⟨htable', Text.suffix_of_dropWhile h⟩
        · rename_i next h
          have hnext := (skipSpace_suffix next).trans (Text.suffix_of_dropWhile h)
          exact (ih (fun w hw => hitem w ((hw.trans hnext).trans hu)) htable' _).of_suffix hnext
        · exact gives_stopAt ..

end

/-- **A value is legible.** -/
theorem gives_readValue (hlong : source.HasRow isNumberChar longRow → long) (ht : t <:+ source)
    (bound : Nat) : Gives (Legible long) long t (readValue bound t) := by
  induction bound generalizing t with
  | zero => exact trivial
  | succ bound ih =>
    rw [readValue.eq_def]
    dsimp only
    split
    · exact gives_readPlain hlong ht
    · rename_i c u
      have hu := List.suffix_cons c u
      have hitem : ∀ w, w <:+ u → Gives (Legible long) long w (readValue bound w) :=
        fun w hw => ih ((hw.trans hu).trans ht)
      split_ifs
      · refine ((gives_readString long c u).bind fun read rest _ _ => ?_).of_suffix hu
        exact ⟨.text read, List.suffix_rfl⟩
      · exact ⟨.bool true, List.drop_suffix _ _⟩
      · exact ⟨.bool false, List.drop_suffix _ _⟩
      · refine ((gives_readItems hitem _).bind fun items rest hitems _ => ?_).of_suffix hu
        exact ⟨.list hitems, List.suffix_rfl⟩
      · split
        · rename_i rest h
          exact ⟨legibleTable_nil.dict, (Text.suffix_of_dropWhile h).trans hu⟩
        · have hstart := skipSpace_suffix u
          refine ((gives_readEntries (fun w hw => hitem w (hw.trans hstart)) legibleTable_nil []
            _).bind fun table rest htable _ => ?_).of_suffix (hstart.trans hu)
          exact ⟨htable.dict, List.suffix_rfl⟩
      · exact gives_readPlain hlong ht

/-! ### Statements -/

/-- The tables of the document are legible. -/
def Document.Legible (long : Prop) (d : Document) : Prop := LegibleTable long d.root

variable {d d' : Document} {header key : Key}

theorem Document.Legible.openTable (hd : d.Legible long) (h : d.openTable key = .ok d') :
    d'.Legible long := by
  rw [Document.openTable] at h
  split at h
  · cases h
  · obtain ⟨root, hroot, h⟩ := bind_eq_ok_iff.1 h
    cases h
    exact keepsLegible_changeAt keepsLegible_ok _ _ _ _ hd hroot

theorem Document.Legible.openItem (hd : d.Legible long) (h : d.openItem key = .ok d') :
    d'.Legible long := by
  rw [Document.openItem] at h
  split at h
  · cases h
  · obtain ⟨root, hroot, h⟩ := bind_eq_ok_iff.1 h
    cases h
    exact keepsLegible_changeAt (keepsLegible_addToArray _) _ _ _ _ hd hroot

theorem Document.Legible.set (hd : d.Legible long) (hv : Toml.Legible long v)
    (h : d.set header key v = .ok d') : d'.Legible long := by
  rw [Document.set] at h
  split at h
  · cases h
  · dsimp only at h
    split at h
    · cases h
    · obtain ⟨root, hroot, h⟩ := bind_eq_ok_iff.1 h
      cases h
      exact keepsLegible_changeAt (keepsLegible_addEntry hv _ _) _ _ _ _ hd hroot

theorem gives_readTableHeader (hd : d.Legible long) (t : Text) :
    Gives (fun part => part.1.Legible long) long t (readTableHeader d t) := by
  refine ((gives_readKey long (skipSpace t)).bind fun key u _ _ => ?_).of_suffix (skipSpace_suffix t)
  have hsettle : d.settle.Legible long := hd
  refine Yields.bind (yields_faultAt (fun d' h => hsettle.openTable h) u) fun d' hd' => ?_
  split
  · exact ⟨hd', List.suffix_cons _ _⟩
  · exact trivial

theorem gives_readItemHeader (hd : d.Legible long) (t : Text) :
    Gives (fun part => part.1.Legible long) long t (readItemHeader d t) := by
  refine ((gives_readKey long (skipSpace t)).bind fun key u _ _ => ?_).of_suffix (skipSpace_suffix t)
  have hsettle : d.settle.Legible long := hd
  refine Yields.bind (yields_faultAt (fun d' h => hsettle.openItem h) u) fun d' hd' => ?_
  split
  · exact ⟨hd', (List.suffix_cons _ _).trans (List.suffix_cons _ _)⟩
  · exact trivial

/-- A statement keeps the tables legible. -/
theorem gives_readStatement (hlong : source.HasRow isNumberChar longRow → long)
    (hd : d.Legible long) (header : Key) (ht : t <:+ source) :
    Gives (fun part => part.1.Legible long) long t (readStatement d header t) := by
  rw [readStatement.eq_def]
  split
  · rename_i u
    exact (gives_readItemHeader hd u).of_suffix
      ((List.suffix_cons _ u).trans (List.suffix_cons _ _))
  · rename_i u _
    exact (gives_readTableHeader hd u).of_suffix (List.suffix_cons _ u)
  · exact ⟨hd, List.suffix_rfl⟩
  · rename_i c w _ _ _
    split
    · have hpair := gives_readPair fun u hu =>
        gives_readValue hlong (hu.trans ht) ((c :: w).length + 1)
      refine hpair.bind fun pair u hv _ => ?_
      refine Yields.bind (yields_faultAt (fun d' h => hd.set hv h) u) fun d' hd' => ?_
      exact ⟨hd', List.suffix_rfl⟩
    · exact gives_stopAt ..
  · exact ⟨hd, List.suffix_rfl⟩

/-- **All statements** keep the tables legible. -/
theorem yields_readStatements (hlong : source.HasRow isNumberChar longRow → long)
    (hd : d.Legible long) (header : Key) (bound : Nat) (ht : t <:+ source) :
    Yields (Document.Legible long) long (readStatements bound d header t) := by
  induction bound generalizing t d header with
  | zero => exact trivial
  | succ bound ih =>
    have hskip := (skipSpace_suffix t).trans ht
    rw [readStatements]
    split
    · exact hd
    · rename_i u hu
      rw [hu] at hskip
      exact ih hd header ((List.suffix_cons _ u).trans hskip)
    · refine Yields.bind (gives_readStatement hlong hd header hskip) fun part hpart => ?_
      obtain ⟨⟨d', header'⟩, u⟩ := part
      have hu := ((skipSpace_suffix u).trans hpart.2).trans hskip
      refine (yields_skipComment long (skipSpace u)).bind fun w hw => ?_
      split
      · exact hpart.1
      · rename_i x
        exact ih hpart.1 header' (((List.suffix_cons _ x).trans hw).trans hu)
      · exact trivial

/-- **The tables of a document are legible**, and a number in it is too long only if it has a long
row. -/
theorem yields_read (hlong : t.HasRow isNumberChar longRow → long) :
    Yields (LegibleTable long) long (Toml.read t) := by
  have hstart : Document.Legible long {} := legibleTable_nil
  exact (yields_readStatements hlong hstart [] (t.length + 1) List.suffix_rfl).bind fun d hd => hd

end Toml

end SpacingClasses
