import Dethernety.Console.CallFrames

/-!
# The calls of the handlers

Most of what the handlers do neither touches the mode layer nor the sessions: the admin gate, all that goes on in the
modules directory, and what is read before a write.
-/

namespace Console.Daemon

open ModuleInstall Script

/-- A call that leaves the mode layer, its lock and the sessions alone, but for a session past its deadline. -/
def Call.isQuiet : Call → Bool
  | .record _ _ | .keepOnly _ _ | .lockModeLayer | .unlockModeLayer | .writeModeLayerLocked _ => false
  | _ => true

/-- A script of such calls. -/
abbrev Quiet {α : Type} (script : Handler α) : Prop :=
  script.Every fun c => c.isQuiet = true

variable {env : Platform} {α β : Type}

variable {c : Call} {script : Handler α}

/-- The calls of the session check and of the gate. -/
def Call.isQuestion : Call → Bool
  | .valid _ | .readModeLayer | .resolveEntitlements _ _ _ => true
  | _ => false

lemma Call.isQuiet_of_isQuestion (h : c.isQuestion = true) : c.isQuiet = true := by
  cases c with
  | valid _ | readModeLayer | resolveEntitlements => rfl
  | _ => cases h

lemma question_gateCheck (recoveryPath : Bool) (token : String) :
    (gateCheck env recoveryPath token).Every fun c => c.isQuestion = true := by
  have hask : ∀ {c : Call}, c.isQuestion = true → (ask c).Every fun c => c.isQuestion = true := fun h => every_ask h
  refine .ask rfl fun file => ?_
  cases cloudModeFile file with
  | none => exact every_pure _
  | some vars =>
    refine every_ite (every_pure _) (every_ite (every_require _ _) ?_)
    refine .require <| .ask rfl fun answer => ?_
    exact (every_orThrow _ _).bind fun _ => every_require _ _

lemma quiet_gateCheck (recoveryPath : Bool) (token : String) : Quiet (gateCheck env recoveryPath token) :=
  (question_gateCheck recoveryPath token).mono fun _ => Call.isQuiet_of_isQuestion

def Call.isMint : Call → Bool
  | .readModeLayer | .tryAcquire | .registeredModules _ | .config | .randomID | .now | .record _ _ | .release => true
  | _ => false

lemma mint_ask (h : c.isMint = true) : (ask c).Every fun c => c.isMint = true := every_ask h

lemma mint_mintWithIdentity (ttl : Option ℕ) (sub : String) :
    (mintWithIdentity ttl sub).Every fun c => c.isMint = true := by
  refine (mint_ask rfl).bind fun _ => (every_orThrow _ _).bind fun id => ?_
  cases ttl with
  | none => exact (mint_ask rfl).bind fun _ => every_pure _
  | some ttl => exact (mint_ask rfl).bind fun _ => (mint_ask rfl).bind fun _ => every_pure _

lemma mint_session (idToken : String) : (session env idToken).Every fun c => c.isMint = true := by
  refine (mint_ask rfl).bind fun file => ?_
  split_ifs
  · refine .require <| (mint_ask rfl).bind fun _ => ?_
    refine .require <| Every.deferring ?_ (mint_ask rfl)
    refine (mint_ask rfl).bind fun _ => .require ?_
    exact (mint_ask rfl).bind fun _ => mint_mintWithIdentity _ _
  · exact mint_mintWithIdentity _ _

/-- A call on the modules directory that neither takes its lock nor lets it go, and renames nothing but what is to be
removed. -/
def Call.isWork : Call → Bool
  | .rename _ (.removing _ _) => true
  | .rename _ _ => false
  | .now => true
  | c => c.onModules

/-- A script of such calls. -/
abbrev Work {α : Type} (script : Handler α) : Prop :=
  script.Every fun c => c.isWork = true

lemma Call.isQuiet_of_isWork (h : c.isWork = true) : c.isQuiet = true := by
  cases c with
  | record _ _ | keepOnly _ _ | lockModeLayer | unlockModeLayer | writeModeLayerLocked => cases h
  | _ => rfl

lemma Work.quiet (h : Work script) : Quiet script :=
  h.mono fun _ => Call.isQuiet_of_isWork

def Call.isLook (c : Call) : Bool :=
  c.onModules && !c.changesModules

/-- A script of such calls. -/
abbrev Looks {α : Type} (script : Handler α) : Prop :=
  script.Every fun c => c.isLook = true

lemma Call.isWork_of_isLook (h : c.isLook = true) : c.isWork = true := by
  cases c with
  | readDir | stat _ | lstat _ | hasMarkerNamed _ _ | readFile _ _ | stubPresent _ _ | compute _ | readStamp => rfl
  | _ => cases h

lemma Looks.work (h : Looks script) : Work script :=
  h.mono fun _ => Call.isWork_of_isLook

def Call.isRead : Call → Bool
  | .readModeLayer | .entitledGet _ _ _ _ => true
  | c => c.isLook

/-- A script of such calls. -/
abbrev Reads {α : Type} (script : Handler α) : Prop :=
  script.Every fun c => c.isRead = true

lemma Looks.reads (h : Looks script) : Reads script := by
  refine h.mono fun c hc => ?_
  cases c with
  | readModeLayer | entitledGet => rfl
  | _ => exact hc

lemma Reads.quiet (h : Reads script) : Quiet script := by
  refine h.mono fun c hc => ?_
  cases c with
  | record _ _ | keepOnly _ _ | lockModeLayer | unlockModeLayer | writeModeLayerLocked => cases hc
  | _ => rfl

/-! ## Markers -/

variable (dir : Path)

lemma looks_readArtifactMarker : Looks (readArtifactMarker env dir) :=
  .ask rfl fun _ => every_pure _

lemma looks_isArtifactMount : Looks (isArtifactMount env dir) :=
  (looks_readArtifactMarker dir).bind fun _ => every_pure _

lemma work_isArtifactMount : Work (isArtifactMount env dir) := (looks_isArtifactMount dir).work

lemma looks_isKgMount : Looks (isKgMount env dir) :=
  .ask rfl fun _ => every_pure _

lemma work_isKgMount : Work (isKgMount env dir) := (looks_isKgMount dir).work

lemma work_hasOurMarker : Work (hasOurMarker dir) := every_ask rfl

lemma work_kgMounted : Work (kgMounted env) :=
  (work_isKgMount _).bind fun _ => every_ite (every_ask rfl) (every_pure _)

lemma quiet_kgMounted : Quiet (kgMounted env) := work_kgMounted.quiet

lemma work_writeMountFiles (created : Bool) (markerName : String) (marker : Bytes) (stubName : String)
    (stub : Bytes) : Work (writeMountFiles dir created markerName marker stubName stub) := by
  refine .ask rfl fun _ => every_ite (.ask rfl fun _ => every_require _ _) ?_
  exact Every.bind (every_ite (every_ask rfl) (every_pure _)) fun _ => every_throw _

lemma work_writeMount (markerName : String) (marker : Bytes) (stubName : String) (stub : Bytes) :
    Work (writeMount dir markerName marker stubName stub) := by
  refine .ask rfl fun answer => ?_
  cases answer with
  | created | «exists» => exact work_writeMountFiles ..
  | failed => exact every_throw _

/-! ## Connect and disconnect -/

lemma work_mountKg : Work (mountKg env) := by
  refine Every.bind (.ask rfl fun _ => ?_) fun _ => .ask rfl fun _ => work_writeMount ..
  exact every_ite ((work_isKgMount _).bind fun _ => every_require _ _) (every_pure _)

lemma work_unmountKg : Work (unmountKg env) := by
  refine .ask rfl fun _ => every_ite ((work_isKgMount _).bind fun _ => ?_) (every_pure _)
  exact .require <| .ask rfl fun _ => every_require _ _

lemma quiet_pinKnowledgeGraph (vars : Vars) : Quiet (pinKnowledgeGraph vars) :=
  every_ite (every_pure _) (.ask rfl fun _ => every_pure _)

lemma work_markersOf : Work (markersOf dir) :=
  .ask rfl fun _ => .ask rfl fun _ => .ask rfl fun _ => every_pure _

lemma work_cloudMountsOf (names : List String) : Work (cloudMountsOf names) := by
  induction names with
  | nil => exact every_pure _
  | cons _ _ ih =>
    refine .ask rfl fun _ => every_ite ?_ ih
    exact (work_markersOf _).bind fun _ => ih.bind fun _ => every_pure _

lemma work_removeModuleTree (name : String) : Work (removeModuleTree name) := by
  refine .ask rfl fun _ => .ask rfl fun _ => ?_
  exact every_ite (.ask rfl fun _ => every_pure _) (every_pure _)

lemma work_removeEach (names : List String) : Work (removeEach names) := by
  induction names with
  | nil => exact every_pure _
  | cons name names ih => exact (work_removeModuleTree name).bind fun _ => ih.bind fun _ => every_pure _

lemma work_removeCloudMounts : Work removeCloudMounts :=
  .bind (.ask rfl fun _ => work_cloudMountsOf _) fun _ => work_removeEach _

lemma quiet_teardown : Quiet teardown := by
  refine .ask rfl fun _ => every_ite ?_ (every_pure _)
  exact work_removeCloudMounts.quiet.bind fun _ => .ask rfl fun _ => every_pure _

/-! ## Modules -/

lemma quiet_withModulesOps {body : Handler α} (h : Quiet body) : Quiet (withModulesOps body) :=
  .ask rfl fun _ => .require <| h.deferring (every_ask rfl)

lemma work_refuseForeignMount : Work (refuseForeignMount env dir) := by
  refine .ask rfl fun _ => every_ite ?_ (every_pure _)
  refine (work_hasOurMarker dir).bind fun _ => every_ite (every_pure _) ?_
  refine .ask rfl fun _ => every_ite ?_ (every_throw _)
  exact (work_isArtifactMount dir).bind fun _ => every_ite (every_throw _) (every_throw _)

lemma work_mount (encode : ℕ → Bytes) (stubName : String) (stub : Bytes) :
    Work (do
      refuseForeignMount env dir
      let now ← ask .now
      writeMount dir mountMarkerName (encode now) stubName stub
      return Response.mounted) :=
  (work_refuseForeignMount dir).bind fun _ => .ask rfl fun _ => (work_writeMount ..).bind fun _ =>
    every_pure _

lemma quiet_mountModule (packageKey moduleKey pin : String) : Quiet (mountModule env packageKey moduleKey pin) := by
  refine .ask rfl fun _ => .require <| .require ?_
  refine .require <| .require <| .require ?_
  exact quiet_withModulesOps (work_mount ..).quiet

lemma work_unmount :
    Work (do
      require ((← ask (.stat dir)) = some true) .notFound
      if ← hasOurMarker dir then
        require (← ask (.removeAll dir)) .notRemoved
        return Response.unmounted
      else if ← isArtifactMount env dir then throw .artifactInUse
      else throw .notOurs) := by
  refine .ask rfl fun _ => .require <| (work_hasOurMarker _).bind fun _ => ?_
  refine every_ite (.ask rfl fun _ => .require <| every_pure _) ?_
  exact (work_isArtifactMount _).bind fun _ => every_ite (every_throw _) (every_throw _)

variable (key : String)

lemma quiet_unmountModule : Quiet (unmountModule env key) := by
  refine .ask rfl fun _ => .require <| .require ?_
  exact .require (quiet_withModulesOps (work_unmount _).quiet)

/-! ## Artifacts -/

lemma looks_refuseForeignDirectory : Looks (refuseForeignDirectory env dir) := by
  refine .ask rfl fun answer => ?_
  cases answer with
  | notExist | failed => exact every_pure _
  | found isDir =>
    refine every_ite ((looks_isArtifactMount dir).bind fun _ => every_ite (every_pure _) ?_) (every_pure _)
    exact .ask rfl fun _ => every_ite (every_pure _) (every_pure _)

lemma reads_artifactTarget (key version token : String) : Reads (artifactTarget env key version token) := by
  refine .ask rfl fun _ => .require <| .require ?_
  refine .require <| .require ?_
  refine (looks_refuseForeignDirectory _).reads.bind fun _ => (every_throwSome _).bind fun _ => ?_
  refine .ask rfl fun _ => (every_orThrow _ _).bind fun _ => .require ?_
  refine .ask rfl fun _ => .require <| .require ?_
  exact every_pure _

lemma reads_fetchArtifact (base team key version token : String) :
    Reads (fetchArtifact env base team key version token) := by
  refine .ask rfl fun _ => Every.bind trivial fun _ => (every_orThrow _ _).bind fun _ => ?_
  refine .require <| .require <| (every_orThrow _ _).bind fun _ => ?_
  exact .ask rfl fun _ => Every.bind trivial fun _ => every_pure _

lemma work_discardStaging : Work (discardStaging key) :=
  .ask rfl fun _ => every_pure _

lemma looks_checkPayload : Looks (checkPayload fileOps key) := by
  refine Every.bind (.ask rfl fun _ => every_pure _) fun b => every_ite (every_pure _) ?_
  refine .ask rfl fun computed => ?_
  cases computed with
  | none => exact every_pure _
  | some computed =>
    refine .ask rfl fun stamp => ?_
    cases stamp with
    | none => exact every_pure _
    | some stamp => exact every_ite (every_pure _) (every_pure _)

lemma quiet_stage (tools : Tools) (archive bundle : Bytes) (identity issuer expectedDigest key : String) :
    Quiet (stage fileOps tools archive bundle identity issuer expectedDigest key) := by
  unfold stage
  cases stageChecks tools archive bundle identity issuer expectedDigest key with
  | error e => exact every_pure _
  | ok u =>
    refine .ask rfl fun _ => every_ite (every_pure _) ?_
    exact .ask rfl fun _ => every_ite (every_pure _) (looks_checkPayload key).work.quiet

lemma quiet_renameIn (target payloadRoot backup : Path) (movedAside : Bool) :
    Quiet (renameIn fileOps target payloadRoot backup movedAside : Handler (SwapResult Denied)) := by
  refine .ask rfl fun _ => every_ite (every_ite ?_ (every_pure _)) ?_
  · exact .ask rfl fun _ => every_ite (every_pure _) (every_pure _)
  · exact .ask rfl fun _ => every_pure _

lemma quiet_swap (target payloadRoot backup : Path) (mayReplace : Path → Handler (Option Denied))
    (h : Quiet (mayReplace target)) : Quiet (swap fileOps target payloadRoot backup (some mayReplace)) := by
  refine h.bind fun refusal => ?_
  cases refusal with
  | some e => exact every_pure _
  | none =>
    refine .ask rfl fun _ => .ask rfl fun _ => every_ite ?_ (quiet_renameIn ..)
    exact .ask rfl fun _ => every_ite (every_pure _) (quiet_renameIn ..)

lemma quiet_stageVerified (pre key version digest : String) (bundle archive : Bytes) :
    Quiet (stageVerified env pre key version digest bundle archive) := by
  refine (quiet_stage ..).bind fun result => ?_
  cases result with
  | error e => exact (work_discardStaging key).quiet.bind fun _ => every_throw _
  | ok stamp => exact every_ite (every_pure _) ((work_discardStaging key).quiet.bind fun _ => every_throw _)

lemma looks_refuseDowngrade (key version : String) (allowDowngrade : Bool) :
    Looks (refuseDowngrade env key version allowDowngrade) := by
  refine (looks_readArtifactMarker _).bind fun marker => ?_
  cases marker with
  | none => exact every_pure _
  | some installed =>
    dsimp only
    cases compareVersion version installed.version with
    | none => exact every_throw _
    | some ordering => exact every_require _ _

lemma quiet_placeArtifact (key version : String) (allowDowngrade : Bool) :
    Quiet (placeArtifact env key version allowDowngrade) := by
  refine (looks_refuseDowngrade ..).work.quiet.bind fun _ => .ask rfl fun _ => .require ?_
  refine .ask rfl fun _ => .require <| .ask rfl fun _ => ?_
  refine .ask rfl fun _ => .require ?_
  refine (quiet_swap _ _ _ _ (looks_refuseForeignDirectory _).work.quiet).bind fun result => ?_
  cases result with
  | refused e | asideFailed | notInstalled priorCopyKept => exact every_throw _
  | installed => exact every_pure _

lemma quiet_installArtifact (token key version : String) (allowDowngrade : Bool) :
    Quiet (installArtifact env token key version allowDowngrade) := by
  refine quiet_withModulesOps (Every.bind ((reads_artifactTarget ..).quiet.bind fun target => ?_) fun _ => ?_)
  · exact (reads_fetchArtifact ..).quiet.bind fun _ => quiet_stageVerified ..
  · exact ((quiet_placeArtifact ..).deferring (work_discardStaging key).quiet).bind fun _ => every_pure _

lemma work_refuseRemoval : Work (refuseRemoval env dir) := by
  refine .ask rfl fun answer => ?_
  cases answer with
  | notExist | failed => exact every_throw _
  | found isDir =>
    refine .require <| (work_isArtifactMount dir).bind fun _ => every_ite (every_pure _) ?_
    refine (work_hasOurMarker dir).bind fun _ => .require <| .ask rfl fun _ => ?_
    exact .require <| every_throw _

lemma work_removal :
    Work (do
      refuseRemoval env (.moduleDir key)
      require (← removeModuleTree key) .notRemoved
      return Response.removed) :=
  (work_refuseRemoval _).bind fun _ => (work_removeModuleTree key).bind fun _ => (every_require _ _).bind fun _ =>
    every_pure _

lemma quiet_removeArtifact : Quiet (removeArtifact env key) := by
  refine .ask rfl fun _ => .require <| .require ?_
  exact .require <| quiet_withModulesOps (work_removal key).quiet

end Console.Daemon
