import SpacingClasses.Proofs.Command.Reply

/-!
# What runs leave

A run that fails leaves a complaint and nothing else; a run that succeeds complains of nothing, and
writes no file but the log of a batch that is to be kept.

* `Command.KeepsLog` : the run is a batch whose settings ask for its log;
* `Command.writes_of_reply` : no other reply writes a file;
* `Command.Leaves` : output, a complaint, or output and a log;
* `Command.run_leaves` : **what a run leaves that comes to an exit code**.
-/

namespace SpacingClasses

namespace Command

open SpacingClasses.Action (perform printed print)

/-- The run is a batch, for a project with this root, whose settings ask that its log be kept. -/
def KeepsLog (w : World) (word : Text) (arguments : List Text) (root : Path) : Prop :=
  canonicalName word = ("batch" : Text) ∧ ∃ path settings,
    batchPaths (splitJson arguments).2 = .ok (path, root) ∧ settingsAt w root = .ok settings ∧
      settings.persist = true

variable {w : World} {word : Text} {arguments : List Text} {r : Reply} {c : Completion}

theorem writes_of_listReply {shape : Text} {value : Value} {lines : List Text}
    (h : listReply shape value lines arguments = .ok r) : r.writes = [] := by
  cases arguments with
  | nil =>
    cases h
    rfl
  | cons _ _ => cases h

/-- The reply to a batch writes its log, if its settings ask for that. -/
theorem writes_of_batchReply (h : batchReply w arguments = .ok r) :
    r.writes = [] ∨ ∃ path root settings t, batchPaths arguments = .ok (path, root) ∧
      settingsAt w root = .ok settings ∧ settings.persist = true ∧
      r.writes = [((root.below Log.filePath).settle, t)] := by
  obtain ⟨path, root, settings, b, writes, hpaths, hsettings, hb, hwrites, rfl⟩ :=
    exists_of_batchReply h
  have hlog : Answers _ True True (logWrites w settings root b) :=
    answers_logWrites (readable_of_batchAt hb) fun _ _ _ => trivial
  rcases hlog.of_ok hwrites with hnone | ⟨hpersist, t, hfile⟩
  · exact .inl hnone
  · exact .inr ⟨path, root, settings, t, hpaths, hsettings, hpersist, hfile⟩

/-- **A reply writes no file** but the log of a batch that is to be kept. -/
theorem writes_of_reply (h : reply w word (splitJson arguments).2 = .ok r) :
    r.writes = [] ∨ ∃ root t, KeepsLog w word arguments root ∧
      r.writes = [((root.below Log.filePath).settle, t)] := by
  rw [reply] at h
  split_ifs at h with _ _ hbatch
  · obtain ⟨property, value, classes, rfl⟩ := exists_of_convertReply h
    exact .inl rfl
  · obtain ⟨value, suffix, rfl⟩ := exists_of_normalizeReply h
    exact .inl rfl
  · rcases writes_of_batchReply h with hnone | ⟨path, root, settings, t, hpaths, hsettings, hkept⟩
    · exact .inl hnone
    · exact .inr ⟨root, t, ⟨hbatch, path, settings, hpaths, hsettings, hkept.1⟩, hkept.2⟩
  · exact .inl (writes_of_listReply h)
  · exact .inl (writes_of_listReply h)

/-- What a run leaves that comes to an exit code.  Without arguments it prints how the program is
called.  Else, if it fails, it leaves a complaint alone; if it succeeds, it complains of nothing, and
the only file it may write is the log of a batch that is to be kept. -/
inductive Leaves (w : World) : List Text → Completion → Prop where
  | unasked : Leaves w [] { stdout := printed usage, code := 1 }
  | failed {word arguments complaint} (h : complaint ≠ []) :
      Leaves w (word :: arguments) { stdout := [], stderr := complaint, writes := [], code := 1 }
  | succeeded {word arguments out} :
      Leaves w (word :: arguments) { stdout := out, stderr := [], writes := [], code := 0 }
  | logged {word arguments root out t} (h : KeepsLog w word arguments root) :
      Leaves w (word :: arguments)
        { stdout := out, stderr := [], writes := [((root.below Log.filePath).settle, t)], code := 0 }

theorem printed_ne_nil (t : Text) : printed [t] ≠ [] := by
  simp [printed]

theorem run_nil (w : World) : run w [] = .ok { stdout := printed usage, code := 1 } := by
  have hprint : ∀ lines, perform (do print lines; return 1 : Action Nat) =
      (.ok 1, { stdout := printed lines }) := fun _ => rfl
  rw [run, execute, hprint]
  rfl

/-- **What a run leaves that comes to an exit code**: output, a complaint, or output and a log. -/
theorem run_leaves (h : run w arguments = .ok c) : Leaves w arguments c := by
  cases arguments with
  | nil =>
    rw [run_nil] at h
    cases h
    exact .unasked
  | cons word arguments =>
    rw [run, perform_execute] at h
    rcases ends_dispatch w word arguments with ⟨-, lines, hlines⟩ | hends
    · rw [hlines] at h
      cases h
      exact .succeeded
    · generalize perform (dispatch w word arguments) = ended at h hends
      cases hends with
      | @failed f _ =>
        -- of all failures only a report comes to an exit code
        cases f with
        | report report =>
          cases h
          exact .failed (printed_ne_nil _)
        | _ => cases h
      | @sent r t hreply _ _ =>
        cases h
        rcases writes_of_reply hreply with hnone | ⟨root, content, hkept, hfile⟩
        · rw [hnone]
          exact .succeeded
        · rw [hfile]
          exact .logged hkept

/-- A project with no props, whose settings ask for the log. -/
def logged : World where
  files := [(⟨[], ["a", "p.json"]⟩, "[]"),
    (⟨[], ["a", "tailmigrate.toml"]⟩, "[logging]\nlevel = \"error\"\npersist = true\n")]

/-- Its batch writes a log without events; a call in another way than a command takes is complained
of. -/
theorem run_leaves_logged :
    Leaves logged ["batch", "a/p.json"]
        { stdout := "className: \n", code := 0
          writes := [(⟨[], ["a", ".tailmigrate", "logs", "logs.json"]⟩, "[]\n")] } ∧
      Leaves logged ["scale", "x"]
        { stderr := "Usage: tailmigrate scale [--json]\n", code := 1 } := by
  constructor
  · apply run_leaves
    rfl
  · apply run_leaves
    rfl

end Command

end SpacingClasses
