import Dethernety.ModuleInstall.Disk

/-!
# From a signed archive to an installed directory

`stage` verifies an archive and extracts it beside the modules, `swap` puts the result in place. Both have two
callers, the boot install and the artifact route of the daemon, so they are written over the file operations of a
monad: the boot runs them alone, the daemon between the steps of other requests. Every operation carries the step of
the source that it is, so that a caller can say which step fails.
-/

namespace ModuleInstall

/-- The identity that a packaged module carries in its payload root. -/
structure Stamp where
  name : String
  version : String
  builtFrom : Option String
  payloadDigest : String

def stampFilename : String := ".dethernety-module.json"

/-- What rests on the signature verifier, the hash function, the archive format and the JSON decoder. -/
structure Tools where
  /-- `VerifyBlob`, for an artifact, a bundle, and the identity and issuer of the certificate. -/
  verifyBlob : Bytes → Bytes → String → String → Bool
  /-- `sha256.Sum256`, in hexadecimal. -/
  sha256 : Bytes → String
  /-- `extract.TarGz`: the directories under `dethernety/` in an archive. -/
  unpack : Bytes → Option (Record String Tree)
  /-- `payloaddigest.Compute` -/
  compute : Tree → Option String
  decodeStamp : Bytes → Option Stamp

/-- The steps of the source that can fail. -/
inductive Step
  | clearStaging
  | extract
  | statPayload
  | compute
  | readStamp
  | readOnDisk
  | clearStale
  | lstatTarget
  | moveAside
  | renameIn
  | restore
  | clearBackup
  deriving DecidableEq

/-- The file operations, which answer whether they were done, or what they read. -/
structure Ops (m : Type → Type) where
  removeAll : Step → Path → m Bool
  extract : Step → Bytes → String → m Bool
  statDir : Step → Path → m Bool
  compute : Step → Path → m (Option String)
  readStamp : Step → Path → m (Option Stamp)
  lstat : Step → Path → m Lstat
  rename : Step → Path → Path → m Bool

/-- `extract.ValidateModuleKey`: `^[a-z0-9][a-z0-9-]{0,38}$` -/
def validateModuleKey (key : String) : Bool :=
  let lowerAlphanum (c : Char) : Bool := c.isLower || c.isDigit
  match key.toList with
  | [] => false
  | c :: rest => lowerAlphanum c && rest.length ≤ 38 && rest.all fun c => lowerAlphanum c || c = '-'

inductive StageError
  | invalidKey
  | notVerified
  | digestMismatch
  | clearing
  | extract
  | layout
  | computing
  | readingStamp
  | stampIntegrity
  deriving DecidableEq

inductive SwapResult (ε : Type)
  | refused (e : ε)
  | asideFailed
  | notInstalled (priorCopyKept : Bool)
  | installed

/-- What `Stage` checks before it writes anything. -/
def stageChecks (tools : Tools) (archive bundle : Bytes) (identity issuer expectedDigest key : String) :
    Except StageError Unit := do
  if !validateModuleKey key then throw .invalidKey
  if !tools.verifyBlob archive bundle identity issuer then throw .notVerified
  if "sha256:" ++ tools.sha256 archive ≠ expectedDigest then throw .digestMismatch

lemma stageChecks_eq_ok {tools : Tools} {archive bundle : Bytes} {identity issuer expectedDigest key : String}
    {u : Unit} (h : stageChecks tools archive bundle identity issuer expectedDigest key = .ok u) :
    validateModuleKey key = true ∧ tools.verifyBlob archive bundle identity issuer = true ∧
      "sha256:" ++ tools.sha256 archive = expectedDigest := by
  unfold stageChecks at h
  cases hkey : validateModuleKey key with
  | false =>
    rw [hkey] at h
    cases h
  | true =>
    cases hverify : tools.verifyBlob archive bundle identity issuer with
    | false =>
      rw [hkey, hverify] at h
      cases h
    | true =>
      refine ⟨rfl, rfl, by_contra fun hdigest => ?_⟩
      rw [hkey, hverify] at h
      simp only [Bool.not_true, Bool.false_eq_true, if_false, if_pos hdigest] at h
      cases h

variable {m : Type → Type} [Monad m] (ops : Ops m) (tools : Tools)

/-- What `Stage` checks of the payload that it extracted: the stamp in it is the one of its digest. -/
def checkPayload (key : String) : m (Except StageError Stamp) := do
  if !(← ops.statDir .statPayload (.staging key)) then return .error .layout
  let some computed ← ops.compute .compute (.staging key) | return .error .computing
  let some stamp ← ops.readStamp .readStamp (.staging key) | return .error .readingStamp
  if stamp.payloadDigest ≠ computed then return .error .stampIntegrity
  return .ok stamp

/-- `Stage`: the stamp of the payload that is extracted at `Path.staging key`. -/
def stage (archive bundle : Bytes) (identity issuer expectedDigest key : String) : m (Except StageError Stamp) := do
  match stageChecks tools archive bundle identity issuer expectedDigest key with
  | .error e => return .error e
  | .ok () =>
    if !(← ops.removeAll .clearStaging (.staging key)) then return .error .clearing
    if !(← ops.extract .extract archive key) then return .error .extract
    checkPayload ops key

/-- The second half of `Swap`: rename the payload in, and put back what was moved aside when that fails. -/
def renameIn {ε : Type} (target payloadRoot backup : Path) (movedAside : Bool) : m (SwapResult ε) := do
  if !(← ops.rename .renameIn payloadRoot target) then
    if movedAside then
      if !(← ops.rename .restore backup target) then return .notInstalled true
    return .notInstalled false
  let _ ← ops.removeAll .clearBackup backup
  return .installed

def swap {ε : Type} (target payloadRoot backup : Path) (mayReplace : Option (Path → m (Option ε))) :
    m (SwapResult ε) := do
  if let some ask := mayReplace then
    if let some e ← ask target then return .refused e
  let _ ← ops.removeAll .clearStale backup
  if (← ops.lstat .lstatTarget target).isFound then
    if !(← ops.rename .moveAside target backup) then return .asideFailed
    renameIn ops target payloadRoot backup true
  else
    renameIn ops target payloadRoot backup false

end ModuleInstall
