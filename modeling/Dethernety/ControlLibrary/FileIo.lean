import Dethernety.ControlLibrary.ControlFile
import Dethernety.ControlLibrary.WalConvergence

/-!
# Reading and writing control files

Model of `file-io.ts` over a directory that the engine sees through four operations (`Disk`): load
and store the control file of an id, and journal and replay a rewrite of a temporary id. `walDisk`
is the directory of `wal-helper.ts` behind these operations, with the files as text. A store that
fails (a full disk) is left out; a load may fail.
-/

namespace ControlLibrary

/-- The control files of a model directory as the engine sees them. -/
structure Disk (S J : Type*) where
  /-- The control file `controls/<id>.json`, `none` for `ENOENT`, or the message of the I/O or parse
  error. -/
  load : S → String → Except String (Option (ControlFile J))
  /-- The atomic write of a control file under its own id. -/
  store : S → ControlFile J → S
  /-- `appendOperation` of a greenfield id rewrite, then `applyPendingRewrites`. -/
  rewriteId : S → String → String → S × Option Wal.WalError
  /-- A file that has been stored is loaded, and no other is affected. -/
  load_store : ∀ s file id,
    load (store s file) id = if file.id = id then .ok (some file) else load s id

/-- What reading or writing a control file throws. -/
inductive IoError
  | emptyId
  | invalidId (controlId : String)
  | loadFailed (message : String)
  deriving DecidableEq

/-- The text of the error; `stringify` is `JSON.stringify` on strings. -/
def IoError.message (stringify : String → String) : IoError → String
  | emptyId => "controlId must be a non-empty string"
  | invalidId controlId =>
    "controlId contains invalid characters (allowed: [A-Za-z0-9_-]): " ++ stringify controlId
  | loadFailed message => message

def assertSafeControlId (controlId : String) : Except IoError Unit :=
  if controlId = "" then .error .emptyId
  else if Wal.SafeControlId controlId.toList then .ok ()
  else .error (.invalidId controlId)

section

variable {S J : Type*} (disk : Disk S J)

def readControlFile (s : S) (controlId : String) : Except IoError (Option (ControlFile J)) :=
  match assertSafeControlId controlId with
  | .error e => .error e
  | .ok () =>
    match disk.load s controlId with
    | .error message => .error (.loadFailed message)
    | .ok file? => .ok file?

def writeControlFile (s : S) (file : ControlFile J) : Except IoError S :=
  match assertSafeControlId file.id with
  | .error e => .error e
  | .ok () => .ok (disk.store s file)

/-- Every file lies under its own id. -/
def Disk.Filed (s : S) : Prop :=
  ∀ id file, disk.load s id = .ok (some file) → file.id = id

variable {disk} {s s' : S} {id : String} {file : ControlFile J} {file? : Option (ControlFile J)}

lemma readControlFile_eq_ok_iff :
    readControlFile disk s id = .ok file? ↔
      assertSafeControlId id = .ok () ∧ disk.load s id = .ok file? := by
  unfold readControlFile
  cases assertSafeControlId id with
  | error e => simp
  | ok => cases disk.load s id with
    | error message | ok r => simp

/-- What is written is read back, and the other files stay. -/
theorem readControlFile_store (hsafe : assertSafeControlId file.id = .ok ()) :
    readControlFile disk (disk.store s file) id =
      if file.id = id then .ok (some file) else readControlFile disk s id := by
  unfold readControlFile
  rw [disk.load_store]
  split_ifs with h
  · rw [← h, hsafe]
  · rfl

lemma Disk.Filed.store (h : disk.Filed s) (file : ControlFile J) : disk.Filed (disk.store s file) := by
  intro id file' hload
  rw [disk.load_store] at hload
  split_ifs at hload with hid
  · obtain rfl : file = file' := by simpa using hload
    exact hid
  · exact h id file' hload

end

/-! ## The directory of the write-ahead log -/

/-- A directory that keeps the files as values. Its rewrite gives the file the new id; that is what
the replay of the journal does to a file that has the temporary id nowhere else. -/
def recordDisk (J : Type*) : Disk (Record String (ControlFile J)) J where
  load s id := .ok (s.get? id)
  store s file := s.set file.id file
  rewriteId s tempId serverId :=
    match s.get? tempId, s.get? serverId with
    | some _, some _ =>
      (s, some (.ambiguousState [] (Wal.greenfieldRewrite tempId.toList serverId.toList)))
    | some file, none => ((s.erase tempId).set serverId { file with id := serverId }, none)
    | none, _ => (s, none)
  load_store s file id := by
    rw [Record.get?_set]
    split_ifs <;> rfl

lemma filed_recordDisk_empty (J : Type*) : (recordDisk J).Filed ∅ := by
  intro id file h
  simp [recordDisk] at h

end ControlLibrary
