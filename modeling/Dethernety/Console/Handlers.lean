import Dethernety.Console.Calls

/-!
# The handlers of the console daemon

The routes that mint a session, change the mode file or change the modules directory, as scripts over the calls of
the daemon. Every route but the mint is behind the session check, and all but the connect are behind the admin gate
as well.
-/

namespace Console.Daemon

open ModuleInstall
open Script (require orThrow throwSome)

/-- Why a request is refused. -/
inductive Denied
  | sessionRequired
  | signInRequired
  | busy
  | notVerified
  | mintFailed
  | cannotEverCheck
  | notSignedIn
  | couldNotCheck
  | notAnAdmin
  | refusal (refusal : Refusal)
  | modulesBusy
  | notCloud
  | invalidKey
  | invalidPackage
  | invalidPin
  | invalidVersion
  | reserved
  | notOurs
  | contentMountInUse
  | artifactInUse
  | bootInstalled
  | notFound
  | noContentService
  | noSigner
  | unreachable
  | notServed (status : ℕ)
  | descriptor
  | kind
  | signatureFormat
  | signature
  | staging (e : StageError)
  | otherStamp
  | installedUnreadable
  | downgrade
  | foreignMarker
  | notMarked
  | notPlaced (priorCopyKept : Bool)
  | mountNotWritten
  | stubNotWritten
  | notRemoved

/-- What a route answers. -/
inductive Response
  | session (id : String)
  | connected
  /-- Whether the cloud modules were left in place, and which were removed, which not. -/
  | disconnected (leftInPlace : Bool) (removed failed : List String)
  | applied
  | current
  | mounted
  | unmounted
  | installed
  | removed

/-- What is asked: the session id of the request and the access token with it come first. -/
inductive Request
  | session (idToken : String)
  | cloudApply (session token : String) (recipe : Text) (redirectURI : String)
  | cloudDisable (session token : String)
  | cloudAllowlist (session token : String) (allowlist : String)
  | cloudKgUpdate (session token : String) (version : String)
  | mountModule (session token : String) (packageKey moduleKey pin : String)
  | unmountModule (session token : String) (key : String)
  | installArtifact (session token : String) (key version : String) (allowDowngrade : Bool)
  | removeArtifact (session token : String) (key : String)
  deriving DecidableEq

abbrev Handler (α : Type) := Script Answer Denied α

def ask (c : Call) : Handler (Answer c) :=
  Script.ask c

/-! ## Sessions -/

/-- In nanoseconds. -/
def minute : ℕ := 60 * 10 ^ 9

def cloudSessionTTL : ℕ := 60 * minute

def postureGraceTTL : ℕ := 15 * minute

/-- `mintWithIdentity`, where `none` is a session without a deadline. -/
def mintWithIdentity (ttl : Option ℕ) (sub : String) : Handler Response := do
  let id ← orThrow (← ask .randomID) .mintFailed
  match ttl with
  | none => ask (.record id ⟨none, sub⟩)
  | some ttl =>
    let now ← ask .now
    ask (.record id ⟨some (now + ttl), sub⟩)
  return .session id

def cloudSession (env : Platform) (idToken : String) : Handler Response := do
  require (idToken ≠ "") .signInRequired
  require (← ask .tryAcquire) .busy
  let check : Handler Response := do
    require (← ask (.registeredModules idToken)) .notVerified
    let authDisabled ← ask .config
    -- while the platform does not check identities, the subject of the token says nothing
    mintWithIdentity (some cloudSessionTTL) (if authDisabled = some false then env.identityFromJWT idToken else "")
  check.deferring (ask .release)

def session (env : Platform) (idToken : String) : Handler Response := do
  let file ← ask .readModeLayer
  if isCloudModeFile file then cloudSession env idToken else mintWithIdentity none ""

def requireSession (id : String) (next : Handler Response) : Handler Response := do
  require (← ask (.valid id)) .sessionRequired
  next

/-! ## The admin gate -/

/-- The fields of a value, split at white space. -/
def fields (s : String) : List Text :=
  (s.toList.splitOnP isSpace).filter (· ≠ [])

def canAskForEntitlements (vars : Vars) : Bool :=
  (fields (vars.value "OIDC_SCOPE")).any fun scope => "/content.access".toList.isSuffixOf scope

/-- `contentTargetFrom`, where an unusable value is empty; last whether the team is unusable. -/
def contentTargetFrom (checks : Checks) (vars : Vars) : String × String × Bool :=
  let base := vars.value "MODULE_CONTENT_BASE_URL"
  let team := vars.value "DEPLOYMENT_TEAM_ID"
  let malformed := team ≠ "" && !teamID team
  (if base ≠ "" && !checks.secureURL base then "" else base, if malformed then "" else team, malformed)

/-- The arms of `gate`: it returns where the source calls the handler. -/
def gateCheck (env : Platform) (recoveryPath : Bool) (token : String) : Handler PUnit := do
  let file ← ask .readModeLayer
  match cloudModeFile file with
  | none => return
  | some vars =>
    let (base, team, malformed) := contentTargetFrom env.checks vars
    if team = "" && !malformed then return
    else if !canAskForEntitlements vars || base = "" || malformed then
      require recoveryPath .cannotEverCheck
    else
      require (token ≠ "") .notSignedIn
      let admin ← orThrow (← ask (.resolveEntitlements base token team)) .couldNotCheck
      require admin .notAnAdmin

def gate (env : Platform) (recoveryPath : Bool) (token : String) (next : Handler Response) : Handler Response := do
  gateCheck env recoveryPath token
  next

/-! ## The mode layer -/

/-- Hold `modeLayerMu` for a script. -/
def withModeLayer {α : Type} (body : Handler α) : Handler α := do
  ask .lockModeLayer
  body.deferring (ask .unlockModeLayer)

def writeModeLayerLocked (vars : Vars) : Handler PUnit := do
  require (← ask (.writeModeLayerLocked vars)) (.refusal .notWritten)

def writeModeLayer (vars : Vars) : Handler PUnit :=
  withModeLayer (writeModeLayerLocked vars)

def refuse {α : Type} (r : Except Refusal α) : Handler α :=
  Script.lift (r.mapError .refusal)

/-! ## Markers -/

def mountMarkerName : String := ".dethernety-mount.json"

def mountMarkerSchema : String := "dethernety.byodt-mount/1"

def artifactMarkerName : String := ".dethernety-artifact-mount.json"

def artifactMarkerSchema : String := "dethernety.byodt-artifact/1"

def kgMarkerName : String := ".dethernety-kg-mount.json"

def kgMarkerSchema : String := "dethernety.byodt-kg-mount/1"

def kgModuleKey : String := "knowledge-graph"

section

variable (env : Platform)

/-- What `readArtifactMarker` makes of the file. -/
def parseArtifactMarker (content : Option Bytes) : Option ArtifactMarker :=
  (content.bind env.decodeArtifactMarker).filter (·.schema = artifactMarkerSchema)

/-- What `readKgMarker` makes of the file. -/
def parseKgMarker (content : Option Bytes) : Option KgMarker :=
  (content.bind env.decodeKgMarker).filter (·.schema = kgMarkerSchema)

def readArtifactMarker (dir : Path) : Handler (Option ArtifactMarker) := do
  return parseArtifactMarker env (← ask (.readFile dir artifactMarkerName))

def isArtifactMount (dir : Path) : Handler Bool := do
  return (← readArtifactMarker env dir).isSome

def isKgMount (dir : Path) : Handler Bool := do
  return (parseKgMarker env (← ask (.readFile dir kgMarkerName))).isSome

def hasOurMarker (dir : Path) : Handler Bool :=
  ask (.hasMarkerNamed dir mountMarkerName)

/-- The upper case of an ASCII letter. -/
def moduleFileName (key : String) : String :=
  String.ofList ((key.toList.splitOn '-').flatMap fun
    | [] => []
    | c :: rest => c.toUpper :: rest) ++ "Module.js"

def kgMounted : Handler Bool := do
  if ← isKgMount env (.moduleDir kgModuleKey) then
    ask (.stubPresent (.moduleDir kgModuleKey) (moduleFileName kgModuleKey))
  else return false

def undoMountDir (dir : Path) (created : Bool) : Handler PUnit :=
  if created then ask (.remove dir) else return

def writeMountFiles (dir : Path) (created : Bool) (markerName : String) (marker : Bytes) (stubName : String)
    (stub : Bytes) : Handler PUnit := do
  if ← ask (.writeFile dir markerName marker) then
    require (← ask (.writeFile dir stubName stub)) .stubNotWritten
  else
    undoMountDir dir created
    throw .mountNotWritten

def writeMount (dir : Path) (markerName : String) (marker : Bytes) (stubName : String) (stub : Bytes) :
    Handler PUnit := do
  match ← ask (.mkdir dir) with
  | .created => writeMountFiles dir true markerName marker stubName stub
  | .exists => writeMountFiles dir false markerName marker stubName stub
  | .failed => throw .mountNotWritten

/-! ## Connect and disconnect -/

/-- The ownership check of `mountKg`. -/
def refuseForeignKg (dir : Path) : Handler PUnit := do
  if (← ask (.stat dir)) = some true then
    require (← isKgMount env dir) .notOurs

def mountKg : Handler PUnit := do
  let dir := Path.moduleDir kgModuleKey
  refuseForeignKg env dir
  let now ← ask .now
  writeMount dir kgMarkerName (env.encodeKgMarker ⟨kgMarkerSchema, now⟩) (moduleFileName kgModuleKey) env.kgStub

def unmountKg : Handler PUnit := do
  let dir := Path.moduleDir kgModuleKey
  if (← ask (.stat dir)) = some true then
    require (← isKgMount env dir) .notOurs
    require (← ask (.removeAll dir)) .notRemoved

/-- `applyKgMount`, whose failures only change the answer. -/
def applyKgMount (vars : Vars) : Handler PUnit := do
  let mount := if vars.value "MODULE_KG_VERSION" = "" then unmountKg env else mountKg env
  let _ ← mount.attempt

def pinKnowledgeGraph (vars : Vars) : Handler Vars := do
  let base := vars.value "MODULE_KG_BASE_URL"
  if base = "" then return vars
  else return Console.pinKnowledgeGraph vars (← ask (.readKgListing base))

def cloudApply (session : String) (recipe : Text) (redirectURI : String) : Handler Response := do
  let file ← ask .readModeLayer
  let vars ← refuse (cloudApplyVars env.checks env.contentCacheDir recipe redirectURI file)
  let vars ← pinKnowledgeGraph vars
  writeModeLayer vars
  applyKgMount env vars
  ask (.keepOnly session postureGraceTTL)
  return .connected

/-- The marker names of a directory of `cloudMounts`. -/
def markersOf (dir : Path) : Handler (List String) := do
  let content ← ask (.hasMarkerNamed dir mountMarkerName)
  let artifact ← ask (.hasMarkerNamed dir artifactMarkerName)
  let kg ← ask (.hasMarkerNamed dir kgMarkerName)
  return (if content then [mountMarkerName] else []) ++ (if artifact then [artifactMarkerName] else []) ++
    (if kg then [kgMarkerName] else [])

/-- The entries of `cloudMounts`: the directories with exactly one marker. -/
def cloudMountsOf : List String → Handler (List String)
  | [] => return []
  | name :: names => do
    if (← ask (.lstat (.moduleDir name))) = .found true then
      let markers ← markersOf (.moduleDir name)
      let rest ← cloudMountsOf names
      return if markers.length = 1 then name :: rest else rest
    else cloudMountsOf names

def cloudMounts : Handler (List String) := do
  cloudMountsOf (← ask .readDir)

/-- `removeModuleTree`: whether the directory is gone from the modules. -/
def removeModuleTree (name : String) : Handler Bool := do
  let staged := Path.removing name (← ask .now)
  if ← ask (.rename (.moduleDir name) staged) then
    -- what is left of the staged copy is only reported
    let _ ← ask (.removeAll staged)
    return true
  else return false

/-- The loop of `removeCloudMounts`: the removed and the failed ones. -/
def removeEach : List String → Handler (List String × List String)
  | [] => return ([], [])
  | name :: names => do
    let gone ← removeModuleTree name
    let (removed, failed) ← removeEach names
    return if gone then (name :: removed, failed) else (removed, name :: failed)

def removeCloudMounts : Handler (List String × List String) := do
  removeEach (← cloudMounts)

/-- The teardown of `cloudDisable`: whether the modules were left in place, and the removed and the failed ones. -/
def teardown : Handler (Bool × List String × List String) := do
  if ← ask .tryLockModules then
    let swept ← removeCloudMounts
    ask .unlockModules
    return (false, swept)
  else return (true, [], [])

def cloudDisable (session : String) : Handler Response := do
  let (leftInPlace, removed, failed) ← teardown
  writeModeLayer pureOSSModeVars
  ask (.keepOnly session postureGraceTTL)
  return .disconnected leftInPlace removed failed

def cloudAllowlist (session allowlist : String) : Handler Response := do
  let sub ← ask (.identityOf session)
  withModeLayer do
    let file ← ask .readModeLayer
    let vars ← refuse (cloudAllowlistVars env.checks allowlist sub file)
    writeModeLayerLocked vars
  return .applied

/-- The critical section of `cloudKgUpdate`. -/
def kgUpdateLocked (version base : String) : Handler Response := do
  let file ← ask .readModeLayer
  let mounted ← kgMounted env
  match ← refuse (cloudKgUpdateVars version base mounted file) with
  | none => return .current
  | some vars =>
    writeModeLayerLocked vars
    return .applied

def cloudKgUpdate (version : String) : Handler Response := do
  let file ← ask .readModeLayer
  let mounted ← kgMounted env
  let base ← refuse (cloudKgUpdateBase env.checks version mounted file)
  let list ← ask (.readKgListing base)
  refuse (cloudKgUpdateListing version list)
  withModeLayer (kgUpdateLocked env version base)

/-! ## Modules -/

/-- Take `modulesOps` for a script, or be refused. -/
def withModulesOps {α : Type} (body : Handler α) : Handler α := do
  require (← ask .tryLockModules) .modulesBusy
  body.deferring (ask .unlockModules)

def packageKeyPattern (key : String) : Bool :=
  let lowerAlphanum (c : Char) : Bool := c.isLower || c.isDigit
  match key.toList with
  | [] => false
  | c :: rest => lowerAlphanum c && rest.length ≤ 63 && rest.all fun c => lowerAlphanum c || c = '-'

/-- The refusal of a directory that `mountModule` does not own, by what it is. -/
def describeForeign (dir : Path) : Handler PUnit := do
  if (← ask (.lstat dir)) = .found true then
    if ← isArtifactMount env dir then throw .artifactInUse
    else throw .notOurs
  else throw .notOurs

/-- The ownership check of `mountModule`. -/
def refuseForeignMount (dir : Path) : Handler PUnit := do
  if (← ask (.stat dir)) = some true then
    if ← hasOurMarker dir then return
    else describeForeign env dir

def mountModule (packageKey moduleKey pin : String) : Handler Response := do
  let file ← ask .readModeLayer
  require (isCloudModeFile file) .notCloud
  require (packageKeyPattern packageKey) .invalidPackage
  require (validateModuleKey moduleKey) .invalidKey
  require (moduleKey ≠ kgModuleKey) .reserved
  require (pinPattern pin) .invalidPin
  withModulesOps do
    let dir := Path.moduleDir moduleKey
    refuseForeignMount env dir
    let now ← ask .now
    writeMount dir mountMarkerName (env.encodeMountMarker ⟨mountMarkerSchema, packageKey, moduleKey, pin, now⟩)
      (moduleFileName moduleKey) (env.renderStub moduleKey pin)
    return .mounted

def unmountModule (key : String) : Handler Response := do
  let file ← ask .readModeLayer
  require (isCloudModeFile file) .notCloud
  require (validateModuleKey key) .invalidKey
  require (key ≠ kgModuleKey) .reserved
  withModulesOps do
    let dir := Path.moduleDir key
    require ((← ask (.stat dir)) = some true) .notFound
    if ← hasOurMarker dir then
      require (← ask (.removeAll dir)) .notRemoved
      return .unmounted
    else if ← isArtifactMount env dir then throw .artifactInUse
    else throw .notOurs

/-! ## Artifacts -/

def artifactBundleFormat : String := "sigstore-bundle/v0.3"

def artifactKindModule : String := "code-module"

/-- A number of at most nine digits without a leading zero. -/
def versionComponent (part : Text) : Option ℕ :=
  if part ≠ [] && part.length ≤ 9 && part.all Char.isDigit && (part = ['0'] || part.head? ≠ some '0') then
    some (part.foldl (fun n c => n * 10 + (c.toNat - '0'.toNat)) 0)
  else none

def versionComponents (v : String) : Option (List ℕ) :=
  let parts := v.toList.splitOn '.'
  if parts.length = 3 then parts.mapM versionComponent else none

def artifactVersionPattern (v : String) : Bool :=
  (versionComponents v).isSome

def compareVersion (a b : String) : Option Ordering := do
  return compareOfLessAndEq (← versionComponents a) (← versionComponents b)

def artifactIdentity (pre key version : String) : String :=
  pre ++ "@refs/tags/artifact/" ++ key ++ "/" ++ version

def refuseForeignDirectory (dir : Path) : Handler (Option Denied) := do
  match ← ask (.lstat dir) with
  | .notExist => return none
  | .failed => return some .notOurs
  | .found isDir =>
    if isDir then
      if ← isArtifactMount env dir then return none
      else if ← hasOurMarker dir then return some .contentMountInUse
      else return some .notOurs
    else return some .notOurs

def entitledOutcome : Fetched → Except Denied Bytes
  | none => .error .unreachable
  | some (body, status) => if status = 200 then .ok body else .error (.notServed status)

def cloudContentTarget (file : Option Text) : Option (String × String) :=
  (cloudModeFile file).map fun vars =>
    let (base, team, _) := contentTargetFrom env.checks vars
    (base, team)

/-- `cloudArtifactSigner`, empty when there is none that can be used. -/
def cloudArtifactSigner (file : Option Text) : String :=
  match cloudModeFile file with
  | none => ""
  | some vars =>
    let pre := vars.value "DEPLOYMENT_ARTIFACT_SIGNER"
    if pre ≠ "" && env.checks.artifactSignerPrefix pre then pre else ""

/-- The file operations of the installs, as calls. -/
def fileOps : Ops (Script Answer Denied) where
  removeAll _ p := ask (.removeAll p)
  extract _ archive key := ask (.extract archive key)
  statDir _ p := do return (← ask (.stat p)) = some true
  compute _ p := ask (.compute p)
  readStamp _ p := ask (.readStamp p)
  lstat _ p := ask (.lstat p)
  rename _ p q := ask (.rename p q)

def discardStaging (key : String) : Handler PUnit := do
  let _ ← ask (.removeAll (.staging key))

/-- What `stageArtifact` asks for before it fetches: the content service, the team and the signer. -/
def artifactTarget (key version token : String) : Handler (String × String × String) := do
  require (isCloudModeFile (← ask .readModeLayer)) .notCloud
  require (validateModuleKey key) .invalidKey
  require (key ≠ kgModuleKey) .reserved
  require (artifactVersionPattern version) .invalidVersion
  throwSome (← refuseForeignDirectory env (.moduleDir key))
  let (base, team) ← orThrow (cloudContentTarget env (← ask .readModeLayer)) .noContentService
  require (base ≠ "") .noContentService
  let pre := cloudArtifactSigner env (← ask .readModeLayer)
  require (pre ≠ "") .noSigner
  require (token ≠ "") .signInRequired
  return (base, team, pre)

/-- What `stageArtifact` fetches: the digest of the descriptor, the signature bundle and the archive. -/
def fetchArtifact (base team key version token : String) : Handler (String × Bytes × Bytes) := do
  let descPath := "/v1/artifacts/" ++ key ++ "/versions/" ++ version
  let body ← Script.lift (entitledOutcome (← ask (.entitledGet base descPath token team)))
  let desc ← orThrow (env.decodeDescriptor body) .descriptor
  require (desc.kind = artifactKindModule) .kind
  require (desc.signatureFormat = artifactBundleFormat) .signatureFormat
  let bundle ← orThrow (env.decodeBase64 desc.bundle) .signature
  let archive ← Script.lift (entitledOutcome (← ask (.entitledGet base (descPath ++ "/content") token team)))
  return (desc.digest, bundle, archive)

/-- `Stage`, and the check that the stamp is the one that was asked for. -/
def stageVerified (pre key version digest : String) (bundle archive : Bytes) : Handler Stamp := do
  let identity := artifactIdentity pre key version
  match ← stage fileOps env.tools archive bundle identity oidcIssuerGitHubActions digest key with
  | .error e =>
    discardStaging key
    throw (.staging e)
  | .ok stamp =>
    if stamp.name = key ∧ stamp.version = version then return stamp
    else
      discardStaging key
      throw .otherStamp

def stageArtifact (key version token : String) : Handler Stamp := do
  let (base, team, pre) ← artifactTarget env key version token
  let (digest, bundle, archive) ← fetchArtifact env base team key version token
  stageVerified env pre key version digest bundle archive

/-- The first check of `placeArtifact`. -/
def refuseDowngrade (key version : String) (allowDowngrade : Bool) : Handler PUnit := do
  match ← readArtifactMarker env (.moduleDir key) with
  | none => return
  | some installed =>
    match compareVersion version installed.version with
    | none => throw .installedUnreadable
    | some ordering => require (ordering ≠ .lt || allowDowngrade) .downgrade

def placeArtifact (key version : String) (allowDowngrade : Bool) : Handler PUnit := do
  refuseDowngrade env key version allowDowngrade
  require (!(← ask (.hasMarkerNamed (.staging key) mountMarkerName))) .foreignMarker
  require (!(← ask (.hasMarkerNamed (.staging key) kgMarkerName))) .foreignMarker
  let now ← ask .now
  let marker := env.encodeArtifactMarker ⟨artifactMarkerSchema, key, version, now⟩
  require (← ask (.writeFile (.staging key) artifactMarkerName marker)) .notMarked
  match ← swap fileOps (.moduleDir key) (.staging key) (.backup key) (some (refuseForeignDirectory env)) with
  | .refused e => throw e
  | .asideFailed => throw (.notPlaced false)
  | .notInstalled priorCopyKept => throw (.notPlaced priorCopyKept)
  | .installed => return

def installArtifact (token key version : String) (allowDowngrade : Bool) : Handler Response :=
  withModulesOps do
    let _ ← stageArtifact env key version token
    (placeArtifact env key version allowDowngrade).deferring (discardStaging key)
    return .installed

/-- The ownership check of `removeArtifact`. -/
def refuseRemoval (dir : Path) : Handler PUnit := do
  match ← ask (.lstat dir) with
  | .notExist => throw .notFound
  | .failed => throw .notOurs
  | .found isDir =>
    require isDir .notOurs
    if ← isArtifactMount env dir then return
    else
      require (!(← hasOurMarker dir)) .contentMountInUse
      require (!(← ask (.hasMarkerNamed dir stampFilename))) .bootInstalled
      throw .notOurs

def removeArtifact (key : String) : Handler Response := do
  let file ← ask .readModeLayer
  require (isCloudModeFile file) .notCloud
  require (validateModuleKey key) .invalidKey
  require (key ≠ kgModuleKey) .reserved
  withModulesOps do
    refuseRemoval env (.moduleDir key)
    require (← removeModuleTree key) .notRemoved
    return .removed

end

/-! ## The routes -/

/-- The handler of a request. -/
def routes (env : Platform) : Request → Handler Response
  | .session idToken => session env idToken
  | .cloudApply id _ recipe redirectURI => requireSession id (cloudApply env id recipe redirectURI)
  | .cloudDisable id token => requireSession id (gate env true token (cloudDisable id))
  | .cloudAllowlist id token allowlist => requireSession id (gate env false token (cloudAllowlist env id allowlist))
  | .cloudKgUpdate id token version => requireSession id (gate env false token (cloudKgUpdate env version))
  | .mountModule id token packageKey moduleKey pin =>
    requireSession id (gate env false token (mountModule env packageKey moduleKey pin))
  | .unmountModule id token key => requireSession id (gate env false token (unmountModule env key))
  | .installArtifact id token key version allowDowngrade =>
    requireSession id (gate env false token (installArtifact env token key version allowDowngrade))
  | .removeArtifact id token key => requireSession id (gate env false token (removeArtifact env key))

/-- The handlers over the world of the daemon. -/
def machine (env : Platform) : Threads.Machine Answer Denied Response Request Outside World where
  program := routes env
  exec i _ c o w := act env i o { w with clock := w.clock + o.elapsed } c

/-- What a daemon starts from: any mode file and any modules directory, without a session. -/
def Started (w : World) : Prop :=
  w.modeLayerMu = none ∧ w.modulesOps = none ∧ w.live = ∅ ∧ w.drawn = [] ∧ w.minting = 0

abbrev Pool := Threads.Pool Answer Denied Response Request World

/-- The console daemon. -/
def system (env : Platform) : TransitionSystem Pool (Threads.Event Request Outside) :=
  (machine env).system Started

end Console.Daemon
