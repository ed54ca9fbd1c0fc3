import SpacingClasses.Log.File
import SpacingClasses.Proofs.Json.Characters

/-!
# The log file gives the events back

What is written to the log file is what is read from it.  But the file is emptied before a text is
put into bytes, so that an event with half of a surrogate pair in it costs the log that was there.

* `Encoding.gap?_eq_none_iff` : a text is put into bytes if each of its characters is;
* `Event.HoldsData e` : the fields of the event, if it has any, are data;
* `Event.Writable e` : the fields of the event, if it has any, can be put into words;
* `Event.HasBytes encoding e` : all characters in the event have bytes;
* `Store.readBack_fileText` : the text of the log file is read as the events;
* `Store.exists_fileText_iff` : there is such a text if all events can be put into words;
* `Store.gap?_fileText_iff` : it can be put into bytes if all characters in the events can;
* `Files.find?_write` : a file is found where it has been written;
* `Journal.flushed` : the three ways in which a flush ends;
* `Journal.flush_read` : **after a flush the log file is read as the events**, entry by entry; a flush
  that fails leaves the files as they are, or empties the log file if the text has no bytes;
* `Journal.flush_halved` : half of a surrogate pair in a field does that.
-/

namespace SpacingClasses

open Value (Data Alike InOrder ordered named)

/-! ### Line ends -/

/-- A text without carriage returns is read from a file as it is. -/
theorem Text.normalizeLineEnds_eq_self {t : Text} (h : '\r' ∉ t) : normalizeLineEnds t = t := by
  induction t with
  | nil => rfl
  | cons c t ih =>
    rw [List.mem_cons, not_or] at h
    rw [normalizeLineEnds, ih h.2, if_neg (Ne.symm h.1)]
    rintro rest rfl
    exact absurd rfl h.1

/-! ### Encodings -/

namespace Encoding

variable {e : Encoding} {c : Char} {t : Text}

theorem gapFrom?_eq_none_iff {position : Nat} :
    e.gapFrom? position t = none ↔ ∀ c ∈ t, e.half? c = none := by
  induction t generalizing position with
  | nil => simp [gapFrom?]
  | cons c t ih =>
    rw [gapFrom?, List.forall_mem_cons]
    cases hc : e.half? c with
    | none => simpa using ih
    | some half => simp

/-- A text can be put into bytes if each of its characters can. -/
theorem gap?_eq_none_iff : e.gap? t = none ↔ ∀ c ∈ t, e.half? c = none := gapFrom?_eq_none_iff

/-- A character without bytes is beyond ASCII. -/
theorem wide_of_half (h : e.half? c ≠ none) : 128 ≤ c.toNat := by
  by_contra hlt
  exact h (e.ascii c (Nat.lt_of_not_le hlt))

end Encoding

/-! ### Events -/

/-- The fields of the event, if it has any, are data. -/
def Event.HoldsData (e : Event) : Prop := ∀ v, e.fields = some v → v.Data

/-- The event as rows under texts. -/
def Event.rows (e : Event) : List (Text × Value) :=
  ([("id", .text e.id), ("level", .text e.level.name), ("message", .text e.message)] :
    List (Text × Value)) ++ e.fields.toList.map fun v => (("fields" : Text), v)

theorem Event.toValue_eq (e : Event) : e.toValue = .dict (named e.rows) := by
  rw [toValue, rows]
  cases e.fields <;> rfl

theorem Event.nodup_rows (e : Event) : (e.rows.map (·.1)).Nodup := by
  have hnames : (["id", "level", "message", "fields"] : List Text).Nodup := by decide
  rw [rows]
  cases e.fields with
  | none => exact hnames.sublist (by simp)
  | some v => exact hnames

theorem Event.data_toValue {e : Event} (h : e.HoldsData) : e.toValue.Data := by
  rw [toValue_eq]
  refine .dict e.nodup_rows fun row hrow => ?_
  rw [rows, List.mem_append] at hrow
  rcases hrow with hrow | hrow
  · simp only [List.mem_cons, List.not_mem_nil, or_false] at hrow
    rcases hrow with rfl | rfl | rfl
    · exact .text _
    · exact .text _
    · exact .text _
  · obtain ⟨v, hv, rfl⟩ := List.mem_map.1 hrow
    exact h v (by simpa using hv)

/-- The fields of the event, if it has any, can be put into words. -/
def Event.Writable (e : Event) : Prop :=
  ∀ v, e.fields = some v → ∃ w, Json.write Json.canonicalLines 2 v = .ok w

theorem Event.HoldsData.writable {e : Event} (h : e.HoldsData) : e.Writable := by
  intro v hv
  obtain ⟨w, hw, -⟩ := Json.exists_write (f := Json.canonicalLines) rfl rfl (h v hv) 2
  exact ⟨w, hw⟩

/-- Only the fields can keep an event from being put into words. -/
theorem Event.exists_write_toValue_iff (e : Event) :
    (∃ w, Json.write Json.canonicalLines 1 e.toValue = .ok w) ↔ e.Writable := by
  rw [toValue_eq, Json.exists_write_dict_iff, rows, List.forall_mem_append]
  constructor
  · intro h v hv
    exact h.2 ("fields", v) (List.mem_map.2 ⟨v, by simpa using hv, rfl⟩)
  · intro h
    refine ⟨fun row hrow => ?_, List.forall_mem_map.2 fun v hv => h v (by simpa using hv)⟩
    simp only [List.mem_cons, List.not_mem_nil, or_false] at hrow
    rcases hrow with rfl | rfl | rfl
    · exact ⟨_, rfl⟩
    · exact ⟨_, rfl⟩
    · exact ⟨_, rfl⟩

/-- All characters in the texts of the event have bytes. -/
def Event.HasBytes (encoding : Encoding) (e : Event) : Prop :=
  ∀ c, e.toValue.Mentions c → encoding.half? c = none

/-- The events as they come back. -/
def Store.orderedEvents (s : Store) : List Value :=
  s.events.toList.map fun e => ordered e.toValue

theorem Store.dictionaries_orderedEvents (s : Store) :
    Log.dictionaries (.list s.orderedEvents) = s.orderedEvents := by
  rw [Log.dictionaries, orderedEvents, List.filter_eq_self]
  intro v hv
  obtain ⟨e, -, rfl⟩ := List.mem_map.1 hv
  rfl

/-- **The text of the log file is read as the events**, if their fields are data. -/
theorem Store.readBack_fileText {s : Store} (h : ∀ e ∈ s.events.toList, e.HoldsData) :
    ∃ t, s.fileText = .ok t ∧ Log.readBack t = .ok s.orderedEvents := by
  have hdata : Data (.list (s.events.toList.map Event.toValue)) :=
    .list (List.forall_mem_map.2 fun e he => e.data_toValue (h e he))
  obtain ⟨w, hw, hencodes⟩ := Json.exists_write (f := Json.canonicalLines) rfl rfl hdata 0
  have hvalue : ordered (.list (s.events.toList.map Event.toValue)) = .list s.orderedEvents := by
    rw [ordered, Value.orderedItems_eq_map, List.map_map]
    rfl
  have hread : Json.read (w ++ ['\n']) = .ok (.list s.orderedEvents) := by
    rw [← hvalue]
    exact hencodes.read_append (by simp [Json.isSpace])
  have hreturn : '\r' ∉ w ++ ['\n'] := by simp [hencodes.no_return]
  refine ⟨w ++ ['\n'], ?_, ?_⟩
  · rw [fileText, Json.pretty, hw]
    rfl
  · rw [Log.readBack, Text.normalizeLineEnds_eq_self hreturn, hread]
    exact congrArg Except.ok s.dictionaries_orderedEvents

/-- The text of the log file can be put into bytes if all characters in the events can. -/
theorem Store.gap?_fileText_iff {s : Store} {encoding : Encoding} {t : Text}
    (h : ∀ e ∈ s.events.toList, e.HoldsData) (ht : s.fileText = .ok t) :
    encoding.gap? t = none ↔ ∀ e ∈ s.events.toList, e.HasBytes encoding := by
  have hdata : Data (.list (s.events.toList.map Event.toValue)) :=
    .list (List.forall_mem_map.2 fun e he => e.data_toValue (h e he))
  obtain ⟨w, hw, ht⟩ := bind_eq_ok_iff.1 ht
  obtain rfl : w ++ ['\n'] = t := pure_eq_ok_iff.1 ht
  have hshows := Json.shows_of_write rfl rfl hdata hw
  have hend : encoding.half? '\n' = none := encoding.ascii _ (by decide)
  rw [Encoding.gap?_eq_none_iff, List.forall_mem_append, List.forall_mem_singleton]
  simp only [hend, and_true]
  constructor
  · intro hnone e he c hmentions
    by_contra hhalf
    refine hhalf (hnone c ((hshows c (Encoding.wide_of_half hhalf)).2 ?_))
    exact .item (List.mem_map_of_mem he) hmentions
  · intro hevents c hc
    by_contra hhalf
    have hmentions := (hshows c (Encoding.wide_of_half hhalf)).1 hc
    obtain ⟨v, hv, hmentions⟩ := Value.mentions_list_iff.1 hmentions
    obtain ⟨e, he, rfl⟩ := List.mem_map.1 hv
    exact hhalf (hevents e he c hmentions)

/-- There is a text for the log file if all events can be put into words. -/
theorem Store.exists_fileText_iff (s : Store) :
    (∃ t, s.fileText = .ok t) ↔ ∀ e ∈ s.events.toList, e.Writable := by
  rw [fileText, Json.pretty, exists_map_eq_ok_iff, Json.exists_write_list_iff,
    List.forall_mem_map]
  exact forall₂_congr fun e _ => e.exists_write_toValue_iff

/-! ### Files -/

/-- A file is found where it has been written. -/
theorem Files.find?_write (files : Files) (p : Path) (content : Text) :
    (files.write p content).find? p = .ok (some content) := by
  rw [find?, write, List.lookup_cons_self]

/-! ### Flushing -/

namespace Journal

variable {j : Journal} {root : Path}

/-- The path that the log of a project is written to. -/
def logPath (root : Path) : Path := (root.below Log.filePath).settle

/-- The directories for the log can be made, and all events can be put into words. -/
structure Ready (j : Journal) (root : Path) : Prop where
  prepared : j.files.prepare (root.below Log.filePath) = .ok ()
  writable : ∀ e ∈ j.store.events.toList, e.Writable

/-- The text of the events can be put into bytes, if there is one. -/
def Encodable (j : Journal) : Prop :=
  ∀ t, j.store.fileText = .ok t → j.encoding.gap? t = none

theorem encodable_iff {t : Text} (ht : j.store.fileText = .ok t) :
    j.Encodable ↔ j.encoding.gap? t = none := by
  refine ⟨fun hbytes => hbytes t ht, fun hgap t' ht' => ?_⟩
  obtain rfl := Except.ok.inj (ht.symm.trans ht')
  exact hgap

/-- How a flush that has a root ends, and what it leaves. -/
inductive Flushed (j : Journal) (root : Path) : Except Failure (Option Path) × Journal → Prop
  /-- It is not ready, and nothing is written. -/
  | barred {f} (h : ¬ j.Ready root) : Flushed j root (.error f, j)
  /-- The log file is opened, and the text has no bytes. -/
  | emptied {t gap} (hready : j.Ready root) (ht : j.store.fileText = .ok t)
      (hgap : j.encoding.gap? t = some gap) :
      Flushed j root
        (.error (.unencodable gap), { j with files := j.files.write (logPath root) [] })
  /-- The text of the events is in the log file. -/
  | kept {t} (hready : j.Ready root) (ht : j.store.fileText = .ok t)
      (hgap : j.encoding.gap? t = none) :
      Flushed j root
        (.ok (some (root.below Log.filePath)), { j with files := j.files.write (logPath root) t })

/-- What is to be written is the text of the events, once the directories are made. -/
theorem file_eq (files : Files) (store : Store) (p : Path) :
    Log.file files store p =
      ((files.prepare p).mapError fun failed => Failure.obstructed failed.1 failed.2.text) >>=
        fun _ => store.fileText >>= fun t => .ok (p.settle, t) := rfl

/-- **A flush that has a root** ends in one of three ways. -/
theorem flushed (hroot : j.root = some root) : Flushed j root j.flush := by
  have hpath : Log.path? j.root = some (root.below Log.filePath) := by
    rw [hroot]
    rfl
  rw [flush, hpath]
  simp only [file_eq]
  cases hprepare : j.files.prepare (root.below Log.filePath) with
  | error failed =>
    refine .barred fun hready => ?_
    rw [hready.prepared] at hprepare
    cases hprepare
  | ok _ =>
    cases ht : j.store.fileText with
    | error f =>
      refine .barred fun hready => ?_
      obtain ⟨t, ht'⟩ := j.store.exists_fileText_iff.2 hready.writable
      rw [ht] at ht'
      cases ht'
    | ok t =>
      have hready : j.Ready root := ⟨hprepare, j.store.exists_fileText_iff.1 ⟨t, ht⟩⟩
      simp only [Except.mapError, ok_bind, Files.save]
      cases hgap : j.encoding.gap? t with
      | some gap => exact .emptied hready ht hgap
      | none => exact .kept hready ht hgap

/-- A flush leaves the store as it is. -/
theorem flush_store (j : Journal) : j.flush.2.store = j.store := by
  cases hroot : j.root with
  | none =>
    rw [flush, hroot]
    rfl
  | some root =>
    have hflushed := flushed hroot
    generalize j.flush = ended at hflushed ⊢
    cases hflushed with
    | barred _ => rfl
    | emptied _ _ _ => rfl
    | kept _ _ _ => rfl

/-- What has been written to the log file is read from there. -/
theorem read_write (files : Files) (root : Path) (t : Text) :
    Log.read (files.write (logPath root) t) (some root) = Log.readBack t := by
  have hpath : Log.path? (some root) = some (root.below Log.filePath) := rfl
  rw [Log.read, hpath]
  simp only [logPath, Files.find?_write]

/-- What a flush with a root needs to succeed. -/
theorem flush_eq_ok_iff (hroot : j.root = some root) :
    (∃ p, j.flush.1 = .ok p) ↔ j.Ready root ∧ j.Encodable := by
  have hflushed := flushed hroot
  generalize j.flush = ended at hflushed
  cases hflushed with
  | barred hbarred => exact iff_of_false nofun fun h => hbarred h.1
  | emptied hready ht hgap =>
    rw [encodable_iff ht, hgap]
    exact iff_of_false nofun nofun
  | kept hready ht hgap => exact iff_of_true ⟨_, rfl⟩ ⟨hready, (encodable_iff ht).2 hgap⟩

/-- A flush that is not ready leaves everything as it is. -/
theorem flush_of_not_ready (hroot : j.root = some root) (h : ¬ j.Ready root) : j.flush.2 = j := by
  have hflushed := flushed hroot
  generalize j.flush = ended at hflushed ⊢
  cases hflushed with
  | barred _ => rfl
  | emptied hready _ _ => exact absurd hready h
  | kept hready _ _ => exact absurd hready h

/-- A flush without bytes for the text of the events leaves an empty log file. -/
theorem flush_of_not_encodable (hroot : j.root = some root) (hready : j.Ready root)
    (h : ¬ j.Encodable) :
    (∃ gap, j.flush.1 = .error (.unencodable gap)) ∧
      j.flush.2 = { j with files := j.files.write (logPath root) [] } := by
  have hflushed := flushed hroot
  generalize j.flush = ended at hflushed ⊢
  cases hflushed with
  | barred hbarred => exact absurd hready hbarred
  | emptied _ _ _ => exact ⟨⟨_, rfl⟩, rfl⟩
  | kept _ ht hgap => exact absurd ((encodable_iff ht).2 hgap) h

/-- A flush that succeeds leaves the text of the events in the log file. -/
theorem flush_of_ok {p : Option Path} {t : Text} (hroot : j.root = some root)
    (ht : j.store.fileText = .ok t) (hp : j.flush.1 = .ok p) :
    p = some (root.below Log.filePath) ∧
      j.flush.2 = { j with files := j.files.write (logPath root) t } := by
  have hflushed := flushed hroot
  generalize j.flush = ended at hflushed hp ⊢
  cases hflushed with
  | barred _ => cases hp
  | emptied _ _ _ => cases hp
  | kept _ ht' _ =>
    obtain rfl := Except.ok.inj (ht.symm.trans ht')
    exact ⟨(Except.ok.inj hp).symm, rfl⟩

/-- **After a flush the log file is read as the events**, whose entries then come in the order of
their keys, if their fields are data.  A flush succeeds if the directories can be made, the fields of
all events can be put into words and the text of all that into bytes.  If it is not for the bytes that
it fails, everything stays as it is; if it is, the log file is empty and no events are read from it.
No flush changes the store. -/
theorem flush_read (j : Journal) :
    (∀ root, j.root = some root →
      ((∃ p, j.flush.1 = .ok p) ↔ j.Ready root ∧ j.Encodable) ∧
      (¬ j.Ready root → j.flush.2 = j) ∧
      (j.Ready root → ¬ j.Encodable →
        (∃ gap, j.flush.1 = .error (.unencodable gap)) ∧
          j.flush.2 = { j with files := j.files.write (logPath root) [] } ∧
          Log.read j.flush.2.files (some root) = .ok []) ∧
      ((∀ e ∈ j.store.events.toList, e.HoldsData) →
        (∀ e ∈ j.store.events.toList, e.Writable) ∧
        (j.Encodable ↔ ∀ e ∈ j.store.events.toList, e.HasBytes j.encoding) ∧
        ∀ p, j.flush.1 = .ok p → p = some (root.below Log.filePath) ∧
          ∃ vs, Log.read j.flush.2.files (some root) = .ok vs ∧
            List.Forall₂ (fun e v => Alike e.toValue v ∧ InOrder v)
              j.store.events.toList vs)) ∧
    (j.root = none → j.flush = (.ok none, j)) ∧
    j.flush.2.store = j.store := by
  refine ⟨fun root hroot => ⟨flush_eq_ok_iff hroot, flush_of_not_ready hroot, ?_, fun hdata => ?_⟩,
    fun hroot => ?_, flush_store j⟩
  · intro hready hbytes
    obtain ⟨herror, hleft⟩ := flush_of_not_encodable hroot hready hbytes
    refine ⟨herror, hleft, ?_⟩
    rw [hleft]
    exact read_write j.files root []
  · obtain ⟨t, ht, hread⟩ := Store.readBack_fileText hdata
    refine ⟨fun e he => (hdata e he).writable, ?_, fun p hp => ?_⟩
    · rw [encodable_iff ht, Store.gap?_fileText_iff hdata ht]
    · obtain ⟨hpath, hleft⟩ := flush_of_ok hroot ht hp
      refine ⟨hpath, j.store.orderedEvents, ?_, ?_⟩
      · rw [hleft, read_write, hread]
      · rw [Store.orderedEvents, List.forall₂_map_right_iff, List.forall₂_same]
        exact fun e he => ⟨Value.alike_ordered _, (e.data_toValue (hdata e he)).inOrder_ordered⟩
  · rw [flush, hroot]
    rfl

/-! ### Three logs -/

/-- A log with nested fields out of order, over an older log file. -/
def nested : Journal where
  store := { floor := .debug, events := #[
    ⟨"log:0001", .warn, "a \"quoted\" line\r\n\u2028\x01", some (.dict (named [
      ("b", .list [.int (-12), .dict [], .list []]), ("a", .dict (named [
        ("é", .null), ("z", .bool true)]))]))⟩,
    ⟨"log:0002", .error, [], none⟩], count := 2 }
  root := some ⟨[], ["app"]⟩
  files := [(⟨[], ["app", ".tailmigrate", "logs", "logs.json"]⟩, "[]")]

/-- The same log with one more event, which JSON cannot write. -/
def unwritable : Journal :=
  { nested with
    store := { nested.store with
      events := nested.store.events.push ⟨"log:0003", .info, "m", some (.bytes [])⟩ } }

/-- An encoding in which one character stands for the first half of all. -/
def halfEncoding : Encoding where
  half? c := if c = '\ue000' then some 0xd800 else none
  ascii c hc := by
    rw [if_neg]
    rintro rfl
    exact absurd hc (by decide)

/-- A log with half of a surrogate pair in a field, over an older log file with one event. -/
def halved : Journal where
  store := { floor := .debug, events := #[
    ⟨"log:0001", .info, "x", some (.dict (named [("a", .text ['\ue000'])]))⟩], count := 1 }
  root := some ⟨[], ["app"]⟩
  files := [(⟨[], ["app", ".tailmigrate", "logs", "logs.json"]⟩, "[\x7b\"id\": \"log:0001\"\x7d]")]
  encoding := halfEncoding

theorem holdsData_nested : ∀ e ∈ nested.store.events.toList, e.HoldsData := by
  have hdict : Data (.dict (named [("é", .null), ("z", .bool true)])) :=
    .dict (by decide) (by simp [Data.null, Data.bool])
  have hlist : Data (.list [.int (-12), .dict (named []), .list []]) := by
    refine .list (List.forall_mem_cons.2 ⟨.int (by decide), List.forall_mem_cons.2 ⟨?_, ?_⟩⟩)
    · exact .dict (by decide) (by simp)
    · exact List.forall_mem_singleton.2 (.list (by simp))
  refine List.forall_mem_cons.2 ⟨?_, List.forall_mem_singleton.2 nofun⟩
  rintro v ⟨⟩
  exact .dict (by decide) (List.forall_mem_cons.2 ⟨hlist, List.forall_mem_singleton.2 hdict⟩)

theorem not_ready_unwritable : ¬ unwritable.Ready ⟨[], ["app"]⟩ := by
  intro h
  obtain ⟨w, hw⟩ :=
    h.writable ⟨"log:0003", .info, "m", some (.bytes [])⟩ (by simp [unwritable]) _ rfl
  cases hw

theorem holdsData_halved : ∀ e ∈ halved.store.events.toList, e.HoldsData := by
  refine List.forall_mem_singleton.2 ?_
  rintro v ⟨⟩
  exact .dict (by decide) (List.forall_mem_singleton.2 (.text _))

/-- The half is in the event, and so the event has no bytes. -/
theorem not_hasBytes_halved : ¬ ∀ e ∈ halved.store.events.toList, e.HasBytes halved.encoding := by
  intro h
  have hfield : Value.Mentions '\ue000' (.dict (named [("a", .text ['\ue000'])])) :=
    .value List.mem_cons_self (.text List.mem_cons_self)
  have hevent := List.forall_mem_singleton.1 h '\ue000'
    (.value (e := (.text "fields", .dict (named [("a", .text ['\ue000'])]))) (by simp) hfield)
  cases hevent

theorem not_encodable_halved : ¬ halved.Encodable := by
  obtain ⟨t, ht, -⟩ := Store.readBack_fileText holdsData_halved
  rw [encodable_iff ht, Store.gap?_fileText_iff holdsData_halved ht]
  exact not_hasBytes_halved

/-- The nested log is flushed over the older file and read from there; with the event that JSON
cannot write the flush fails, and the older file stays; with half of a surrogate pair in a field it
fails, and the older file is lost. -/
theorem flush_read_nested :
    (nested.flush.1 = .ok (some ⟨[], ["app", ".tailmigrate", "logs", "logs.json"]⟩) ∧
      ∃ vs, Log.read nested.flush.2.files (some ⟨[], ["app"]⟩) = .ok vs ∧
        List.Forall₂ (fun e v => Alike e.toValue v ∧ InOrder v) nested.store.events.toList vs) ∧
    ((∃ f, unwritable.flush.1 = .error f) ∧ unwritable.flush.2 = unwritable) ∧
    ((∃ gap, halved.flush.1 = .error (.unencodable gap)) ∧
      Log.read halved.flush.2.files (some ⟨[], ["app"]⟩) = .ok []) := by
  refine ⟨?_, ?_, ?_⟩
  · obtain ⟨hflush, -, -, hread⟩ := (flush_read nested).1 _ rfl
    obtain ⟨hwritable, hbytes, hread⟩ := hread holdsData_nested
    obtain ⟨p, hp⟩ := hflush.2 ⟨⟨rfl, hwritable⟩, hbytes.2 fun _ _ _ _ => rfl⟩
    obtain ⟨rfl, hvs⟩ := hread p hp
    exact ⟨hp, hvs⟩
  · obtain ⟨hflush, hbarred, -, -⟩ := (flush_read unwritable).1 _ rfl
    refine ⟨?_, hbarred not_ready_unwritable⟩
    cases h : unwritable.flush.1 with
    | error f => exact ⟨f, rfl⟩
    | ok p => exact absurd (hflush.1 ⟨p, h⟩).1 not_ready_unwritable
  · obtain ⟨-, -, hemptied, hread⟩ := (flush_read halved).1 _ rfl
    obtain ⟨hwritable, -⟩ := hread holdsData_halved
    obtain ⟨herror, -, hlost⟩ := hemptied ⟨rfl, hwritable⟩ not_encodable_halved
    exact ⟨herror, hlost⟩

/-- **A flush that fails may cost the log that was there**: half of a surrogate pair in a field is no
obstacle to the JSON, but the log file is empty by the time that it is found to have no bytes. -/
theorem flush_halved :
    (∃ gap, halved.flush.1 = .error (.unencodable gap)) ∧
      halved.files.find? (logPath ⟨[], ["app"]⟩) = .ok (some "[\x7b\"id\": \"log:0001\"\x7d]") ∧
      halved.flush.2.files.find? (logPath ⟨[], ["app"]⟩) = .ok (some []) := by
  have hready : halved.Ready ⟨[], ["app"]⟩ :=
    ⟨rfl, fun e he => (holdsData_halved e he).writable⟩
  obtain ⟨herror, hleft⟩ := flush_of_not_encodable rfl hready not_encodable_halved
  refine ⟨herror, by decide, ?_⟩
  rw [hleft]
  exact Files.find?_write _ _ _

end Journal

end SpacingClasses
