import Dethernety.ModuleInstall.Install

/-!
# The boot install

`installModules` fetches the signed index of a release and installs the modules that it names, one after the other.
What the fetches answer and which steps fail is given for each module of the list; a step that fails has no effect.
-/

namespace ModuleInstall

/-- `f.get`: the body and the status, or `none` for an error. -/
abbrev Fetched := Option (Bytes × ℕ)

structure IndexEntry where
  name : String
  version : String
  asset : String
  assetDigest : String

structure ModuleIndex where
  schema : String
  tag : String
  modules : List IndexEntry

def indexSchema : String := "dethernety.modules/1"

inductive Outcome
  | placed
  | skipped
  | failed
  deriving DecidableEq

structure ModuleOutcome where
  name : String
  version : String
  payloadDigest : String
  outcome : Outcome

inductive Status
  | ok
  | unreachable
  | noAssets
  | didNotVerify
  | partly
  | failed

structure ModulesState where
  status : Status
  expected : List ModuleOutcome

/-- What the outside answers while one module is installed. -/
structure Attempt where
  tarball : Fetched
  bundle : Fetched
  fails : Step → Bool

/-- What the outside answers in a boot install. -/
structure Boot where
  index : Fetched
  indexBundle : Fetched
  attempts : ℕ → Attempt
  sweepFails : Bool

/-- The file operations on a disk, with the steps that fail. -/
def diskOps (tools : Tools) (fails : Step → Bool) : Ops (StateM Disk) where
  removeAll step p := fun d => if fails step then (false, d) else (true, Record.erase d p)
  extract step archive key := fun d =>
    match if fails step then none else tools.unpack archive with
    | none => (false, d)
    | some dirs => (true, Record.put d (.staging key) ((dirs.get? key).map .dir))
  statDir step p := fun d => (!fails step && (d.tree? p).isSome, d)
  compute step p := fun d => (if fails step then none else (d.tree? p).bind tools.compute, d)
  readStamp step p := fun d => (if fails step then none else (d.file? p stampFilename).bind tools.decodeStamp, d)
  lstat step p := fun d => (if fails step then .failed else d.lstat p, d)
  rename step p q := fun d =>
    match if fails step then none else d.rename p q with
    | none => (false, d)
    | some d' => (true, d')

def releaseIdentity (platformVersion : String) : String :=
  "https://github.com/dether-net/dethernety-oss/.github/workflows/release.yml@refs/tags/v" ++ platformVersion

/-- `OIDCIssuerGitHubActions` -/
def oidcIssuerGitHubActions : String := "https://token.actions.githubusercontent.com"

variable (tools : Tools) (decodeIndex : Bytes → Option ModuleIndex) (platformVersion : String)

/-- What `fetchIndex` makes of one of the two files. -/
def fetchedIndexFile : Fetched → Except Status Bytes
  | none => .error .unreachable
  | some (body, status) =>
    if status = 404 then .error .noAssets else if status ≠ 200 then .error .unreachable else .ok body

def fetchIndex (boot : Boot) : Except Status ModuleIndex := do
  let index ← fetchedIndexFile boot.index
  let bundle ← fetchedIndexFile boot.indexBundle
  if !tools.verifyBlob index bundle (releaseIdentity platformVersion) oidcIssuerGitHubActions then
    throw .didNotVerify
  let some idx := decodeIndex index | throw .didNotVerify
  if idx.schema ≠ indexSchema then throw .didNotVerify
  if idx.tag ≠ "v" ++ platformVersion then throw .didNotVerify
  return idx

/-- The body of a fetch that was answered with it. -/
def fetchedAsset : Fetched → Option Bytes
  | some (body, status) => if status = 200 then some body else none
  | none => none

/-- The second half of `installOne`: put a staged payload in place, unless the directory there has its digest. -/
def placeStaged (e : IndexEntry) (attempt : Attempt) (stamp : Stamp) : StateM Disk (ModuleOutcome × Bool) := do
  let ops := diskOps tools attempt.fails
  let outcome : ModuleOutcome := ⟨e.name, e.version, stamp.payloadDigest, .failed⟩
  let onDisk ← ops.readStamp .readOnDisk (.moduleDir e.name)
  if onDisk.any (·.payloadDigest = stamp.payloadDigest) then return ({ outcome with outcome := .skipped }, false)
  -- the targets are the ones of this run's own index, so nobody is asked
  let mayReplace : Option (Path → StateM Disk (Option Empty)) := none
  match ← swap ops (.moduleDir e.name) (.staging e.name) (.backup e.name) mayReplace with
  | .installed => return ({ outcome with outcome := .placed }, false)
  | _ => return (outcome, false)

/-- `installOne`, with whether the failure is one of the signature. -/
def installOne (e : IndexEntry) (attempt : Attempt) : StateM Disk (ModuleOutcome × Bool) := do
  let failed : ModuleOutcome := ⟨e.name, e.version, "", .failed⟩
  if !validateModuleKey e.name then return (failed, false)
  let some tarball := fetchedAsset attempt.tarball | return (failed, false)
  let some bundle := fetchedAsset attempt.bundle | return (failed, false)
  match ← stage (diskOps tools attempt.fails) tools tarball bundle (releaseIdentity platformVersion)
    oidcIssuerGitHubActions e.assetDigest e.name with
  | .error error => return (failed, error = .notVerified)
  | .ok stamp => placeStaged tools e attempt stamp

/-- The loop of `installModules`. -/
def installEach : List (IndexEntry × Attempt) → StateM Disk (List (ModuleOutcome × Bool))
  | [] => return []
  | (e, attempt) :: rest => do
    let outcome ← installOne tools platformVersion e attempt
    return outcome :: (← installEach rest)

/-- The status that the outcomes add up to. -/
def installStatus (outcomes : List (ModuleOutcome × Bool)) : Status :=
  let anyFail := outcomes.any (·.1.outcome = .failed)
  if outcomes.any fun o => o.1.outcome = .failed && o.2 then .didNotVerify
  else if anyFail && !outcomes.any (·.1.outcome ≠ .failed) then .failed
  else if anyFail then .partly
  else .ok

/-- The modules of an index, each with what the outside answers for it. -/
def Boot.installs (boot : Boot) (idx : ModuleIndex) : List (IndexEntry × Attempt) :=
  idx.modules.zipIdx.map fun p => (p.1, boot.attempts p.2)

def installModules (boot : Boot) : StateM Disk ModulesState := do
  match fetchIndex tools decodeIndex platformVersion boot with
  | .error status => return ⟨status, []⟩
  | .ok idx =>
    let outcomes ← installEach tools platformVersion (boot.installs idx)
    -- the deferred sweep
    if !boot.sweepFails then modify Disk.removeTmp
    return ⟨installStatus outcomes, outcomes.map Prod.fst⟩

end ModuleInstall
