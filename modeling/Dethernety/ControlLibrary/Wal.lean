import Dethernety.Foundations.Replay
import Dethernety.Foundations.Substitution
import Dethernety.Foundations.Transition

/-!
# The write-ahead log of id rewrites

Model of `wal-helper.ts` and of the journal operations the engine builds. A model directory is a
map from relative paths to contents together with the journal. An operation is the list of its
atomic file steps in the order of the source (`applyGreenfieldRewrite`, `applyCloneAndSwap`); a
run performs the steps of all operations and then unlinks the journal, and a crash leaves what an
initial part of them has done.

Contents, ids and paths are lists of characters. The temporary files of the atomic writes, the
directory syncs and the serialisation of the journal are left out.
-/

open String

namespace ControlLibrary.Wal

open Substitution Replay

/-- Contents, ids and paths. -/
abbrev Text := List Char

/-- The files of a model directory by relative path; `none` is `ENOENT`. -/
abbrev Dir := Text → Option Text

/-- `atomicWriteWithFsync`. -/
def writeFile (d : Dir) (path content : Text) : Dir :=
  Function.update d path (some content)

/-- `fs.unlink`. -/
def unlink (d : Dir) (path : Text) : Dir :=
  Function.update d path none

/-! ## The journal -/

structure GreenfieldIdRewriteOp where
  tempId : Text
  serverId : Text
  /-- Files whose contents are rewritten. -/
  filePaths : List Text
  /-- `controlFileRename.from` -/
  fromPath : Text
  /-- `controlFileRename.to` -/
  toPath : Text
  deriving DecidableEq, Repr

structure CloneAndSwapOp where
  oldId : Text
  newId : Text
  /-- Files whose references are retargeted. -/
  filePaths : List Text
  controlFileWrite : Text
  /-- Carried in the journal so that a replay can create the file from scratch. -/
  controlFileContent : Text
  controlFileDelete : Text
  deriving DecidableEq, Repr

inductive PendingOperation
  | greenfieldIdRewrite (op : GreenfieldIdRewriteOp)
  | cloneAndSwap (op : CloneAndSwapOp)

namespace PendingOperation

/-- The id that the operation retires. -/
def oldId : PendingOperation → Text
  | greenfieldIdRewrite op => op.tempId
  | cloneAndSwap op => op.oldId

/-- The id that takes its place. -/
def newId : PendingOperation → Text
  | greenfieldIdRewrite op => op.serverId
  | cloneAndSwap op => op.newId

/-- The files whose contents the operation rewrites. -/
def filePaths : PendingOperation → List Text
  | greenfieldIdRewrite op => op.filePaths
  | cloneAndSwap op => op.filePaths

/-- The operation moves the control file rather than writing a new one. -/
def IsGreenfield : PendingOperation → Prop
  | greenfieldIdRewrite _ => True
  | cloneAndSwap _ => False

instance : DecidablePred IsGreenfield
  | greenfieldIdRewrite _ => isTrue trivial
  | cloneAndSwap _ => isFalse id

end PendingOperation

/-- The errors a replay stops with. -/
inductive WalError
  | emptyPath (fieldName : String)
  | nullByte (fieldName : String)
  | backslash (fieldName : String)
  | absolutePath (fieldName : String) (relPath : Text)
  | parentTraversal (fieldName : String) (relPath : Text)
  | ambiguousState (modelDir : Text) (op : GreenfieldIdRewriteOp)
  deriving DecidableEq

def WalError.message : WalError → String
  | emptyPath fieldName =>
    "WAL journal validation failed: " ++ fieldName ++ " must be a non-empty string"
  | nullByte fieldName => "WAL journal validation failed: " ++ fieldName ++ " contains a null byte"
  | backslash fieldName =>
    "WAL journal validation failed: " ++ fieldName ++ " contains a backslash (POSIX paths only)"
  | absolutePath fieldName relPath =>
    "WAL journal validation failed: " ++ fieldName ++
      " must be a relative path (got absolute: " ++ ofList relPath ++ ")"
  | parentTraversal fieldName relPath =>
    "WAL journal validation failed: " ++ fieldName ++
      " contains a parent-traversal segment (..): " ++ ofList relPath
  | ambiguousState modelDir op =>
    "WAL replay detected ambiguous state: both '" ++ ofList op.fromPath ++ "' " ++
      "and '" ++ ofList op.toPath ++ "' present in '" ++ ofList modelDir ++ "' " ++
      "(tempId=" ++ ofList op.tempId ++ ", serverId=" ++ ofList op.serverId ++
      "). " ++ "Manual reconciliation required — see /dethereal:sync repair-wal."

/-- Refuse journal-supplied paths that could leave the model directory. -/
def assertSafeRelPath (relPath : Text) (fieldName : String) : Except WalError Unit :=
  if relPath = [] then .error (.emptyPath fieldName)
  else if '\x00' ∈ relPath then .error (.nullByte fieldName)
  else if '\\' ∈ relPath then .error (.backslash fieldName)
  else if ['/'] <+: relPath then .error (.absolutePath fieldName relPath)
  else if ['.', '.'] ∈ split ['/'] relPath then .error (.parentTraversal fieldName relPath)
  else .ok ()

/-! ## Atomic steps -/

/-- The steps that an operation is made of. -/
inductive WalStep
  | assertSafeRelPath (relPath : Text) (fieldName : String)
  | replaceIdInFile (filePath oldId newId : Text)
  | renameControlFile (modelDir : Text) (op : GreenfieldIdRewriteOp)
  | writeIfAbsent (path content : Text)
  | unlinkIfPresent (path : Text)

/-- Replace every occurrence of `oldId` in a file. A missing file, or one that does not contain
the id, is left alone. -/
def replaceIdInFile (d : Dir) (filePath oldId newId : Text) : Dir :=
  match d filePath with
  | none => d
  | some content =>
    if oldId <:+: content then writeFile d filePath (substitute oldId newId content) else d

/-- The rename of Step 2. With both paths present the replay gives up. -/
def renameControlFile (modelDir : Text) (op : GreenfieldIdRewriteOp) (d : Dir) :
    Except WalError Dir :=
  match d op.fromPath, d op.toPath with
  | some _, some _ => .error (.ambiguousState modelDir op)
  | some content, none => .ok (writeFile (unlink d op.fromPath) op.toPath content)
  | none, _ => .ok d

/-- The effect of one step on the files, or the error that ends the run. -/
def exec : WalStep → Dir → Except WalError Dir
  | .assertSafeRelPath relPath fieldName, d =>
    (assertSafeRelPath relPath fieldName).map fun _ => d
  | .replaceIdInFile filePath oldId newId, d => .ok (replaceIdInFile d filePath oldId newId)
  | .renameControlFile modelDir op, d => renameControlFile modelDir op d
  | .writeIfAbsent path content, d =>
    .ok (if (d path).isSome then d else writeFile d path content)
  | .unlinkIfPresent path, d => .ok (if (d path).isSome then unlink d path else d)

def applyGreenfieldRewrite (modelDir : Text) (op : GreenfieldIdRewriteOp) : List WalStep :=
  op.filePaths.mapIdx (fun i p => .assertSafeRelPath p ("op.filePaths[" ++ toString i ++ "]")) ++
    [.assertSafeRelPath op.fromPath "op.controlFileRename.from",
      .assertSafeRelPath op.toPath "op.controlFileRename.to"] ++
    op.filePaths.map (.replaceIdInFile · op.tempId op.serverId) ++
    [.renameControlFile modelDir op]

def applyCloneAndSwap (op : CloneAndSwapOp) : List WalStep :=
  op.filePaths.mapIdx (fun i p => .assertSafeRelPath p ("op.filePaths[" ++ toString i ++ "]")) ++
    [.assertSafeRelPath op.controlFileWrite "op.controlFileWrite",
      .assertSafeRelPath op.controlFileDelete "op.controlFileDelete"] ++
    op.filePaths.map (.replaceIdInFile · op.oldId op.newId) ++
    [.writeIfAbsent op.controlFileWrite op.controlFileContent,
      .unlinkIfPresent op.controlFileDelete]

def PendingOperation.steps (modelDir : Text) : PendingOperation → List WalStep
  | greenfieldIdRewrite op => applyGreenfieldRewrite modelDir op
  | cloneAndSwap op => applyCloneAndSwap op

/-! ## Runs -/

/-- A model directory: its name, its files and the pending journal, if any. -/
structure ModelDir where
  path : Text
  files : Dir
  journal : Option (List PendingOperation)

/-- The file steps of a run over the whole journal. -/
def journalSteps (modelDir : Text) (operations : List PendingOperation) : List WalStep :=
  operations.flatMap (·.steps modelDir)

/-- Replay the journal: the directory a run leaves and the number of operations replayed, or the
error it throws. The journal is unlinked only when every operation has been applied. -/
def applyPendingRewrites (m : ModelDir) : ModelDir × Except WalError ℕ :=
  match m.journal with
  | none => (m, .ok 0)
  | some [] => (m, .ok 0)
  | some (op :: ops) =>
    match perform exec (journalSteps m.path (op :: ops)) m.files with
    | (files, none) => ({ m with files := files, journal := none }, .ok (op :: ops).length)
    | (files, some e) => ({ m with files := files }, .error e)

/-- What a run leaves when the process dies after its first `n` steps; the unlink of the journal
comes after all others. -/
def killedAfter (n : ℕ) (m : ModelDir) : ModelDir :=
  match m.journal with
  | none => m
  | some [] => m
  | some (op :: ops) =>
    if (journalSteps m.path (op :: ops)).length < n then (applyPendingRewrites m).1
    else { m with files := (perform exec ((journalSteps m.path (op :: ops)).take n) m.files).1 }

/-- One attempt to drain the journal. -/
inductive Attempt
  /-- The process dies after so many steps. -/
  | killed (n : ℕ)
  /-- The run returns or throws. -/
  | finished

/-- Attempts on a model directory, one after the other. -/
def replaySystem (m₀ : ModelDir) : TransitionSystem ModelDir Attempt where
  init m := m = m₀
  next
    | m, .killed n => some (killedAfter n m)
    | m, .finished => some (applyPendingRewrites m).1

/-! ## The operations the engine builds -/

/-- `CONTROL_ID_REGEX`, checked by `assertSafeControlId` before a control file is touched. -/
def SafeControlId (id : Text) : Prop :=
  id ≠ [] ∧ ∀ c ∈ id, c.isAlphanum ∨ c = '_' ∨ c = '-'

instance : DecidablePred SafeControlId := fun id =>
  decidable_of_iff (id ≠ [] ∧ id.all fun c => c.isAlphanum || c = '_' || c = '-')
    (by simp [SafeControlId, or_assoc])

def IsGreenfieldTempId (id : Text) : Prop :=
  "greenfield-".toList <+: id

instance : DecidablePred IsGreenfieldTempId := fun id =>
  inferInstanceAs (Decidable ("greenfield-".toList <+: id))

/-- A hexadecimal digit, in either case. -/
def IsHexDigit (c : Char) : Prop :=
  c.isDigit ∨ ('a' ≤ c ∧ c ≤ 'f') ∨ ('A' ≤ c ∧ c ≤ 'F')

instance : DecidablePred IsHexDigit := fun c =>
  inferInstanceAs (Decidable (c.isDigit ∨ ('a' ≤ c ∧ c ≤ 'f') ∨ ('A' ≤ c ∧ c ≤ 'F')))

/-- `UUID_RE`: five groups of 8, 4, 4, 4 and 12 hexadecimal digits. -/
def IsUuid (id : Text) : Prop :=
  (split ['-'] id).map List.length = [8, 4, 4, 4, 12] ∧ ∀ c ∈ id, c = '-' ∨ IsHexDigit c

instance : DecidablePred IsUuid := fun id =>
  decidable_of_iff ((split ['-'] id).map List.length = [8, 4, 4, 4, 12] ∧
    id.all fun c => c = '-' || IsHexDigit c) (by simp [IsUuid])

def controlFilePath (controlId : Text) : Text :=
  "controls/".toList ++ controlId ++ ".json".toList

lemma controlFilePath_eq (controlId : Text) :
    controlFilePath controlId = "controls/".toList ++ controlId ++ ".json".toList :=
  rfl

/-- The files that hold references to controls. -/
def modelFiles : List Text :=
  ["structure.json".toList, "dataflows.json".toList, "data-items.json".toList]

/-- The operation `pushGreenfieldControl` journals once `createControl` has returned an id. -/
def greenfieldRewrite (tempId serverId : Text) : GreenfieldIdRewriteOp where
  tempId := tempId
  serverId := serverId
  filePaths := modelFiles ++ [controlFilePath tempId]
  fromPath := controlFilePath tempId
  toPath := controlFilePath serverId

/-- A clone-and-swap of one control in some of the model's files. -/
def cloneAndSwap (oldId newId : Text) (filePaths : List Text) (content : Text) :
    CloneAndSwapOp where
  oldId := oldId
  newId := newId
  filePaths := filePaths
  controlFileWrite := controlFilePath newId
  controlFileContent := content
  controlFileDelete := controlFilePath oldId

/-- The shapes of journal operations. Ids have passed `assertSafeControlId` when the control file
was written or read. -/
def PendingOperation.EngineBuilt : PendingOperation → Prop
  | greenfieldIdRewrite op =>
    op = greenfieldRewrite op.tempId op.serverId ∧ SafeControlId op.tempId ∧
      IsGreenfieldTempId op.tempId
  | cloneAndSwap op =>
    op = Wal.cloneAndSwap op.oldId op.newId op.filePaths op.controlFileContent ∧
      SafeControlId op.oldId ∧ op.filePaths ⊆ modelFiles

instance : DecidablePred PendingOperation.EngineBuilt
  | .greenfieldIdRewrite op => inferInstanceAs (Decidable
      (op = greenfieldRewrite op.tempId op.serverId ∧ SafeControlId op.tempId ∧
        IsGreenfieldTempId op.tempId))
  | .cloneAndSwap op => inferInstanceAs (Decidable
      (op = Wal.cloneAndSwap op.oldId op.newId op.filePaths op.controlFileContent ∧
        SafeControlId op.oldId ∧ op.filePaths ⊆ modelFiles))

end ControlLibrary.Wal
