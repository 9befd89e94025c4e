import Mathlib.Data.List.Infix
import Dethernety.ControlLibrary.Platform

/-!
# Pushing a brownfield control

Model of `pushBrownfieldControl` (Step 0 to Step F).

Steps 0 to E read the file, the decision and the platform's answer and change nothing outside
memory; they are one function, `planPush`. Step F talks to the platform class by class (`stepF`),
and only a call that gets to its end writes the file and flushes the buffered audit entries.
What the environment contributes (the answer to the re-fetch, the answer to each mutation, the
clock, the operator's name) is collected in `Environment`.
-/

namespace ControlLibrary.Brownfield

/-! ## Decisions -/

inductive PerKeyDecision (J : Type*)
  | keep
  | acceptTheirs
  | merge (merged : Option (JsonValue J))
  deriving DecidableEq

/-- `BrownfieldDecision['sharedOwnership']` -/
inductive SharedOwnership
  | cancel
  | pushAnyway
  | cloneAndSwap
  | pushUnverified

/-- The operator's decision for one control. -/
structure BrownfieldDecision (J : Type*) where
  sharedOwnership : SharedOwnership
  /-- Decisions on conflicting keys under `<classIdx>.<attributeName>`. -/
  perKey : Record String (PerKeyDecision J)
  queryFailureReason : Option String
  queryAttempts : Option ℕ

/-- The arguments of a push besides the file. -/
structure PushRequest (J : Type*) where
  decision : BrownfieldDecision J
  /-- The caller's earlier fetch. -/
  freshPlatformAttrs : Record String (Attributes J)
  liveAssignedModelIds : List String
  thisModelId : String
  authnOperator : Option String

/-- How a mutation goes. -/
inductive Answer
  /-- The platform merges the payload, if there is an edge to the class. -/
  | merged
  /-- `success: false` -/
  | rejected (errorMessage : Option String)
  /-- The call throws, before or after the platform has merged the payload. -/
  | thrown (message : String) (applied : Bool)
  /-- The process dies, before or after the platform has merged the payload. -/
  | died (applied : Bool)

/-- What the environment contributes to one call. -/
structure Environment (J : Type*) where
  /-- The rows of the re-fetch in Step B, or the message of the error it throws. -/
  fetched : Except String (List (LiveRow J))
  /-- The answers to the mutations in order; the platform merges when the list runs out. -/
  answers : List Answer
  /-- The process dies when it is about to write the file. -/
  diesBeforeWrite : Bool
  /-- The platform's diagnosis when there is no edge. -/
  noEdge : String
  now : Timestamp
  /-- `getOperatorEmail` -/
  operator : String
  /-- Sorting the keys of the objects in a value. -/
  canonical : J → J

/-! ## Errors and results -/

inductive PushError
  | wrongLifecycle (id : String) (lifecycle : Lifecycle)
  | externalEditDetected (controlId classId : String)
  | fetchFailed (message : String)
  | blockedKeys (controlId classId : String) (keys : List String)
  | cloneAndSwapNotImplemented (controlId : String)
  | mutationFailed (controlId classId : String) (errorMessage : Option String)
  | mutationThrown (message : String)
  deriving DecidableEq

def lifecycleName : Lifecycle → String
  | .greenfield => "greenfield"
  | .partiallyPushed => "partially-pushed"
  | .brownfield => "brownfield"
  | .tombstoned => "tombstoned"

def PushError.message : PushError → String
  | wrongLifecycle id lifecycle =>
    "pushBrownfieldControl: file " ++ id ++ " has lifecycle '" ++ lifecycleName lifecycle ++
      "' (expected 'brownfield')."
  | externalEditDetected controlId classId =>
    "External edit detected on Control " ++ controlId ++ ", class " ++ classId ++ ". " ++
      "Run /dethereal:sync promote-external-edit " ++ controlId ++ " " ++ classId ++
      " to recover."
  | fetchFailed message => message
  | blockedKeys controlId classId keys =>
    "pushBrownfieldControl: Control " ++ controlId ++ " class " ++ classId ++ " has " ++
      toString keys.length ++ " 'absent-and-unknown' key(s) (" ++ String.intercalate ", " keys ++
      ") that would create platform schema drift. " ++
      "Fix the local file or update the ControlClass template; this push will not proceed."
  | cloneAndSwapNotImplemented controlId =>
    "Clone-and-swap is not implemented for Control " ++ controlId ++ ". " ++
      "Use cancel or push-anyway."
  | mutationFailed controlId classId errorMessage =>
    let cause := match errorMessage with
      | some text => if text = "" then "" else " Cause: " ++ text ++ "."
      | none => ""
    "pushBrownfieldControl: setInstantiationAttributes failed for control=" ++ controlId ++
      " class=" ++ classId ++ "." ++ cause ++ " State preserved for retry."
  | mutationThrown message => message

structure BrownfieldPushResult (J : Type*) where
  file : ControlFile J
  auditEntries : List (AuditLogEntry J)
  mutated : Bool
  usedStaleSnapshot : Option Bool
  deriving DecidableEq

/-- How a call ends. -/
inductive Outcome (J : Type*)
  | returned (result : BrownfieldPushResult J)
  | threw (error : PushError)
  | died
  deriving DecidableEq

variable {J : Type*} [DecidableEq J]

/-! ## Steps 0, A and B -/

/-- Step 0: nothing is pending and nothing differs. -/
def shortCircuits (file : ControlFile J) : Bool :=
  let anyPending := file.classes.any fun c => c.pendingEdit.isSome
  let anyDivergent := file.classes.any fun c =>
    match c.platformAttributes with
    | none => false
    | some platformAttributes => !shallowEqualAttrs c.attributes platformAttributes
  !anyPending && !anyDivergent

/-- Step A: the first entry that differs without a recorded edit. -/
def externalEdit? (file : ControlFile J) : Option (ControlFileClassEntry J) :=
  file.classes.find? isClassDrifted

/-- The error classes on which Step B falls back to the caller's snapshot. -/
def transientErrors : List String :=
  ["ServiceUnavailable", "SessionExpired", "ECONNREFUSED", "ETIMEDOUT", "ECONNRESET",
    "EHOSTUNREACH"]

/-- The case-insensitive test of the message. -/
def isTransient (message : String) : Bool :=
  transientErrors.any fun word => word.toLower.toList <:+: message.toLower.toList

/-- Step B: the attributes by class to compare with, and whether they are the caller's. -/
def fetchLive (env : Environment J) (req : PushRequest J) :
    Except PushError (Record String (Attributes J) × Bool) :=
  match env.fetched with
  | .ok rows => .ok (liveByClass rows, false)
  | .error message =>
    if isTransient message then .ok (req.freshPlatformAttrs, true)
    else .error (.fetchFailed message)

/-- `liveByClass.get(classId) ?? freshPlatformAttrs.get(classId) ?? {}` -/
def freshAttributes (live fresh : Record String (Attributes J)) (classId : String) : Attributes J :=
  ((live.get? classId).or (fresh.get? classId)).getD ∅

/-- Step B on one entry. -/
def refresh (live fresh : Record String (Attributes J)) (entry : ControlFileClassEntry J) :
    ControlFileClassEntry J :=
  if entry.pendingEdit.isSome then
    { entry with platformAttributes := some (freshAttributes live fresh entry.classId) }
  else entry

/-! ## Step C -/

def firstWrites (p : PendingEditBlock J) : List String :=
  p.firstWriteKeys.getD []

def changedKeys (p : PendingEditBlock J) : List String :=
  p.previousAttributes.keys ++ firstWrites p

/-- `entry.platformAttributes ?? {}` -/
def liveOf (entry : ControlFileClassEntry J) : Attributes J :=
  entry.platformAttributes.getD ∅

/-- What the loop over the changed keys of a class collects. -/
structure KeyScan (J : Type*) where
  outboundPayload : Payload J
  blockedKeys : List String
  conflictKeys : List String

/-- The body of the loop. -/
def scanKey (attributes platformAttrs : Attributes J) (p : PendingEditBlock J) (s : KeyScan J)
    (k : String) : KeyScan J :=
  let s := { s with outboundPayload := s.outboundPayload.set k (attributes.get? k) }
  if k ∈ firstWrites p then s
  else
    match platformAttrs.get? k with
    | none =>
      -- 'absent-and-unknown'
      { s with
        blockedKeys := s.blockedKeys ++ [k]
        outboundPayload := s.outboundPayload.erase k }
    | some serverCurrent =>
      -- already applied: an earlier attempt got this far
      if some serverCurrent = attributes.get? k then
        { s with outboundPayload := s.outboundPayload.erase k }
      else if p.previousAttributes.get? k ≠ some serverCurrent then
        { s with conflictKeys := s.conflictKeys ++ [k] }
      else s

/-- The loop over the changed keys of a class. -/
def scanKeys (attributes platformAttrs : Attributes J) (p : PendingEditBlock J) : KeyScan J :=
  (changedKeys p).foldl (scanKey attributes platformAttrs p) ⟨∅, [], []⟩

/-- The operator has typed back what was there before the edit. -/
def allRevertedToPrevious (attributes : Attributes J) (p : PendingEditBlock J) : Bool :=
  (changedKeys p).all (fun k => attributes.get? k = p.previousAttributes.get? k) &&
    changedKeys p ≠ []

structure ClassPushPlan (J : Type*) where
  outboundPayload : Payload J
  conflictKeys : List String

/-- What Step C finds for a class. -/
inductive Verdict (J : Type*)
  /-- Nothing is pending. -/
  | untouched
  /-- All edits were taken back. -/
  | reverted (p : PendingEditBlock J)
  /-- Keys that the platform does not have. -/
  | blocked (keys : List String)
  /-- There is something to push. -/
  | planned (plan : ClassPushPlan J)
  /-- The platform has every value already. -/
  | alreadyApplied

/-- Step C for one class, after the refresh. -/
def classify (entry : ControlFileClassEntry J) : Verdict J :=
  match entry.pendingEdit with
  | none => .untouched
  | some p =>
    let scan := scanKeys entry.attributes (liveOf entry) p
    if allRevertedToPrevious entry.attributes p then .reverted p
    else if scan.blockedKeys ≠ [] then .blocked scan.blockedKeys
    else if scan.outboundPayload.keys ≠ [] then
      .planned ⟨scan.outboundPayload, scan.conflictKeys⟩
    else if scan.conflictKeys = [] then .alreadyApplied
    else .untouched

/-- A class entry of the working copy, with the plan for it if there is one. -/
structure Slot (J P : Type*) where
  entry : ControlFileClassEntry J
  plan : Option P

/-- The arguments of `buildAuditEntry` that do not depend on the class. -/
def auditEntry (env : Environment J) (req : PushRequest J) (file : ControlFile J)
    (entry : ControlFileClassEntry J) (kind : AuditKind) (live : Option (List String))
    (intendedKeys : List String) (attributesPushed : Payload J) (previousAttributes : Attributes J)
    (firstWriteKeys : Option (List String)) (editedBy : Option PendingEditAuthor)
    (resolutions : List (ConflictResolution J)) : AuditLogEntry J where
  timestamp := env.now
  operator := env.operator
  authnOperator := req.authnOperator
  kind := kind
  controlId := file.id
  controlName := file.name
  classId := entry.classId
  className := entry.className.getD entry.classId
  modelId := req.thisModelId
  liveAssignedModelIds := live
  intendedKeys := intendedKeys
  attributesPushed := attributesPushed
  previousAttributes := previousAttributes
  firstWriteKeys := firstWriteKeys
  effective := computeEffective env.canonical kind resolutions
  editedBy := editedBy
  conflictResolutions := if resolutions = [] then none else some resolutions
  queryFailureReason := if kind = .forceUnverified then req.decision.queryFailureReason else none
  queryAttempts :=
    if kind = .forceUnverified then some (req.decision.queryAttempts.getD 1) else none

/-- What Step C leaves of a class: the slot, the buffered audit entry, and whether the class counts
for `revertedAny` or `alreadyAppliedAny`. -/
structure Classified (J : Type*) where
  slot : Slot J (ClassPushPlan J)
  audit : Option (AuditLogEntry J)
  settled : Bool

/-- Step C on one entry. -/
def classifyEntry (env : Environment J) (req : PushRequest J) (file : ControlFile J)
    (entry : ControlFileClassEntry J) : Except PushError (Classified J) :=
  match classify entry with
  | .untouched => .ok ⟨⟨entry, none⟩, none, false⟩
  | .reverted p =>
    let audit := auditEntry env req file entry .reverted (some req.liveAssignedModelIds)
      (changedKeys p) ∅ p.previousAttributes none (some p.editedBy) []
    .ok ⟨⟨{ entry with pendingEdit := none, localEditedAt := none }, none⟩, some audit, true⟩
  | .blocked keys => .error (.blockedKeys file.id entry.classId keys)
  | .planned plan => .ok ⟨⟨entry, some plan⟩, none, false⟩
  | .alreadyApplied =>
    let finished := { entry with
      platformAttributes := some (liveOf entry)
      pushedAt := some env.now
      pendingEdit := none }
    .ok ⟨⟨finished, none⟩, none, true⟩

/-- Step C. The first class with blocked keys ends the push. -/
def stepC (env : Environment J) (req : PushRequest J) (file : ControlFile J)
    (classes : List (ControlFileClassEntry J)) : Except PushError (List (Classified J)) :=
  classes.mapM (classifyEntry env req file)

/-! ## Step D -/

structure ResolvedPlan (J : Type*) where
  outboundPayload : Payload J
  conflictResolutions : List (ConflictResolution J)

/-- The state of the loop over the conflicting keys of a class. -/
structure Resolving (J : Type*) where
  outboundPayload : Payload J
  /-- `working.classes[plan.classIdx]` -/
  working : ControlFileClassEntry J
  conflictResolutions : List (ConflictResolution J)

def decisionKey (classIdx : ℕ) (k : String) : String :=
  toString classIdx ++ "." ++ k

/-- Accepting the server's value. The entry is rebuilt from `entry`, which was read before the
loop. -/
def acceptTheirs (entry : ControlFileClassEntry J) (k : String) (theirs : Option (JsonValue J)) :
    ControlFileClassEntry J :=
  { entry with
    attributes := entry.attributes.put k theirs
    pendingEdit := entry.pendingEdit.map fun p =>
      { p with previousAttributes := p.previousAttributes.put k theirs } }

/-- The body of the loop; `none` when a key has no decision. -/
def resolveKey (decision : BrownfieldDecision J) (classIdx : ℕ) (entry : ControlFileClassEntry J)
    (s : Resolving J) (k : String) : Option (Resolving J) :=
  let ours := entry.attributes.get? k
  let theirs := (liveOf entry).get? k
  match decision.perKey.get? (decisionKey classIdx k) with
  | none => none
  | some .keep =>
    some { s with
      conflictResolutions := s.conflictResolutions ++ [⟨k, ours, theirs, .ours, none⟩] }
  | some .acceptTheirs =>
    some {
      outboundPayload := s.outboundPayload.erase k
      working := acceptTheirs entry k theirs
      conflictResolutions := s.conflictResolutions ++ [⟨k, ours, theirs, .theirs, none⟩] }
  | some (.merge merged) =>
    some { s with
      outboundPayload := s.outboundPayload.set k merged
      conflictResolutions := s.conflictResolutions ++ [⟨k, ours, theirs, .merge, merged⟩] }

/-- The loop over the conflicting keys. `Except.error` holds the working entry at the key that has
no decision. -/
def resolveKeys (decision : BrownfieldDecision J) (classIdx : ℕ) (entry : ControlFileClassEntry J) :
    List String → Resolving J → Except (ControlFileClassEntry J) (Resolving J)
  | [], s => .ok s
  | k :: ks, s =>
    match resolveKey decision classIdx entry s k with
    | none => .error s.working
    | some s' => resolveKeys decision classIdx entry ks s'

/-- Step D for one class. -/
def resolveSlot (decision : BrownfieldDecision J) (classIdx : ℕ) (slot : Slot J (ClassPushPlan J)) :
    Except (ControlFileClassEntry J) (Slot J (ResolvedPlan J)) :=
  match slot.plan with
  | none => .ok ⟨slot.entry, none⟩
  | some plan =>
    match resolveKeys decision classIdx slot.entry plan.conflictKeys
        ⟨plan.outboundPayload, slot.entry, []⟩ with
    | .error working => .error working
    | .ok s =>
      if s.outboundPayload.keys ≠ [] then
        .ok ⟨s.working, some ⟨s.outboundPayload, s.conflictResolutions⟩⟩
      else .ok ⟨{ s.working with pendingEdit := none }, none⟩

/-- Step D. A conflicting key without a decision cancels the push; the error is then the working
copy of the classes. -/
def stepD (decision : BrownfieldDecision J) :
    ℕ → List (Slot J (ClassPushPlan J)) →
      Except (List (ControlFileClassEntry J)) (List (Slot J (ResolvedPlan J)))
  | _, [] => .ok []
  | classIdx, slot :: slots =>
    match resolveSlot decision classIdx slot with
    | .error working => .error (working :: slots.map Slot.entry)
    | .ok resolved =>
      match stepD decision (classIdx + 1) slots with
      | .error rest => .error (resolved.entry :: rest)
      | .ok rest => .ok (resolved :: rest)

/-! ## Step E -/

/-- What the shared-ownership check decides. -/
inductive Ownership
  | proceed (sharedAuditKind : Option AuditKind)
  | cancelled
  | cloneAndSwap

/-- Only this model uses the control. -/
def isAlone (req : PushRequest J) : Bool :=
  req.liveAssignedModelIds = [] || req.liveAssignedModelIds = [req.thisModelId]

def stepE (req : PushRequest J) : Ownership :=
  if isAlone req then .proceed none
  else
    match req.decision.sharedOwnership with
    | .cancel => .cancelled
    | .pushAnyway => .proceed (some .forceShared)
    | .pushUnverified => .proceed (some .forceUnverified)
    | .cloneAndSwap => .cloneAndSwap

/-! ## Steps 0 to E -/

/-- Where a call stands when Step F would begin. -/
inductive Plan (J : Type*)
  /-- It returns without touching file or platform. -/
  | unchanged (file : ControlFile J) (auditEntries : List (AuditLogEntry J))
  /-- It writes the file, flushes the audit entries and returns. -/
  | persist (file : ControlFile J) (auditEntries : List (AuditLogEntry J))
  /-- It goes on to mutate the platform. -/
  | mutate (slots : List (Slot J (ResolvedPlan J))) (auditEntries : List (AuditLogEntry J))
      (sharedAuditKind : Option AuditKind) (usedStaleSnapshot : Bool)

/-- Steps D and E, on the classes that Step C has left. -/
def planResolved (req : PushRequest J) (file : ControlFile J) (classified : List (Classified J))
    (usedStaleSnapshot : Bool) : Except PushError (Plan J) :=
  let audits := classified.filterMap Classified.audit
  let slots := classified.map Classified.slot
  if slots.all fun s => s.plan.isNone then
    let working := { file with classes := slots.map Slot.entry }
    if classified.any Classified.settled then .ok (.persist working audits)
    else .ok (.unchanged working audits)
  else
    match stepD req.decision 0 slots with
    | .error classes => .ok (.unchanged { file with classes := classes } audits)
    | .ok resolved =>
      let working := { file with classes := resolved.map Slot.entry }
      if resolved.all fun s => s.plan.isNone then .ok (.persist working audits)
      else
        match stepE req with
        | .cancelled => .ok (.unchanged working audits)
        | .cloneAndSwap => .error (.cloneAndSwapNotImplemented file.id)
        | .proceed kind => .ok (.mutate resolved audits kind usedStaleSnapshot)

/-- Steps 0 to E. -/
def planPush (env : Environment J) (req : PushRequest J) (file : ControlFile J) :
    Except PushError (Plan J) :=
  if file.lifecycle ≠ .brownfield then .error (.wrongLifecycle file.id file.lifecycle)
  else if shortCircuits file then .ok (.unchanged file [])
  else
    match externalEdit? file with
    | some entry => .error (.externalEditDetected file.id entry.classId)
    | none =>
      match fetchLive env req with
      | .error e => .error e
      | .ok (live, usedStaleSnapshot) =>
        match stepC env req file (file.classes.map (refresh live req.freshPlatformAttrs)) with
        | .error e => .error e
        | .ok classified => planResolved req file classified usedStaleSnapshot

/-! ## Step F -/

/-- A mutation that was sent. -/
structure Call (J : Type*) where
  classIdx : ℕ
  classId : String
  attributes : Payload J
  deriving DecidableEq

/-- The entry after its class has been pushed. -/
def finalise (env : Environment J) (entry : ControlFileClassEntry J) (payload : Payload J) :
    ControlFileClassEntry J :=
  { entry with
    platformAttributes := some (payload.keys.foldl
      (fun bag k => bag.put k (entry.attributes.get? k)) (liveOf entry))
    pushedAt := some env.now
    pendingEdit := none }

/-- The author named in the audit entry: `external` is kept only for the shape that
`promoteExternalEdit` writes. -/
def auditEditedBy (entry : ControlFileClassEntry J) : Option PendingEditAuthor :=
  entry.pendingEdit.map fun p =>
    if p.editedBy = .external then
      let hasFirstWriteSpoof := firstWrites p ≠ []
      let looksLikePromoteExternal := match entry.platformAttributes with
        | none => true
        | some platform => p.previousAttributes.keys.all fun k =>
          p.previousAttributes.get? k = platform.get? k
      if hasFirstWriteSpoof || !looksLikePromoteExternal then .operator else .external
    else p.editedBy

/-- The audit entry of one pushed class, if its kind asks for one. -/
def mutationAudit (env : Environment J) (req : PushRequest J) (file : ControlFile J)
    (sharedAuditKind : Option AuditKind) (entry : ControlFileClassEntry J) (plan : ResolvedPlan J) :
    Option (AuditLogEntry J) :=
  let fwKeysInPush := ((entry.pendingEdit.map firstWrites).getD []).filter
    (· ∈ plan.outboundPayload.keys)
  let kind := sharedAuditKind.or (if fwKeysInPush = [] then none else some .firstWrite)
  kind.map fun kind =>
    auditEntry env req file entry kind
      (if kind = .forceUnverified then none else some req.liveAssignedModelIds)
      ((entry.pendingEdit.map changedKeys).getD []) plan.outboundPayload
      ((entry.pendingEdit.map PendingEditBlock.previousAttributes).getD ∅)
      (if fwKeysInPush = [] then none else some fwKeysInPush) (auditEditedBy entry)
      plan.conflictResolutions

/-- What the loop of Step F leaves: the platform, the mutations sent, and the classes and audit
entries if it got through. -/
structure Mutation (J : Type*) where
  platform : Platform J
  calls : List (Call J)
  result : Except (Option PushError) (List (ControlFileClassEntry J) × List (AuditLogEntry J))

/-- The loop of Step F. In `result` an error `none` is the death of the process. -/
def stepF (env : Environment J) (req : PushRequest J) (file : ControlFile J)
    (sharedAuditKind : Option AuditKind) :
    ℕ → List (Slot J (ResolvedPlan J)) → List Answer → Platform J → Mutation J
  | _, [], _, platform => ⟨platform, [], .ok ([], [])⟩
  | classIdx, slot :: slots, answers, platform =>
    match slot.plan with
    | none =>
      let rest := stepF env req file sharedAuditKind (classIdx + 1) slots answers platform
      { rest with result := rest.result.map fun r => (slot.entry :: r.1, r.2) }
    | some plan =>
      let entry := slot.entry
      let call : Call J := ⟨classIdx, entry.classId, plan.outboundPayload⟩
      let merged := platform.setInstantiationAttributes entry.classId plan.outboundPayload
      match answers.headD .merged with
      | .rejected errorMessage =>
        ⟨platform, [call], .error (some (.mutationFailed file.id entry.classId errorMessage))⟩
      | .thrown message applied =>
        ⟨if applied then merged.getD platform else platform, [call],
          .error (some (.mutationThrown message))⟩
      | .died applied => ⟨if applied then merged.getD platform else platform, [call], .error none⟩
      | .merged =>
        match merged with
        | none =>
          ⟨platform, [call], .error (some (.mutationFailed file.id entry.classId (some env.noEdge)))⟩
        | some platform' =>
          let rest := stepF env req file sharedAuditKind (classIdx + 1) slots answers.tail platform'
          { platform := rest.platform
            calls := call :: rest.calls
            result := rest.result.map fun r =>
              (finalise env entry plan.outboundPayload :: r.1,
                (mutationAudit env req file sharedAuditKind entry plan).toList ++ r.2) }

/-! ## The call -/

/-- The platform's bags, the control file on disk and the audit log. -/
structure World (J : Type*) where
  platform : Platform J
  disk : ControlFile J
  audit : List (AuditLogEntry J)

/-- `writeControlFile` followed by `flushAudit`. -/
def World.persist (w : World J) (file : ControlFile J) (auditEntries : List (AuditLogEntry J)) :
    World J :=
  { w with disk := file, audit := w.audit ++ auditEntries }

/-- A call: the world it leaves, how it ended, the mutations it sent and whether it got as far as
writing the file. -/
structure Push (J : Type*) where
  world : World J
  outcome : Outcome J
  calls : List (Call J)
  wrote : Bool

/-- `platformState` after a push. -/
def bumpLastPushedAt (now : Timestamp) (state : Option ControlFilePlatformState) :
    ControlFilePlatformState :=
  { state.getD ⟨none, none, none, none⟩ with lastPushedAt := some now }

def pushBrownfieldControl (env : Environment J) (req : PushRequest J) (file : ControlFile J)
    (w : World J) : Push J :=
  match planPush env req file with
  | .error e => ⟨w, .threw e, [], false⟩
  | .ok (.unchanged working audits) => ⟨w, .returned ⟨working, audits, false, none⟩, [], false⟩
  | .ok (.persist working audits) =>
    if env.diesBeforeWrite then ⟨w, .died, [], false⟩
    else ⟨w.persist working audits, .returned ⟨working, audits, false, none⟩, [], true⟩
  | .ok (.mutate slots audits kind stale) =>
    let m := stepF env req file kind 0 slots env.answers w.platform
    let w' := { w with platform := m.platform }
    match m.result with
    | .error none => ⟨w', .died, m.calls, false⟩
    | .error (some e) => ⟨w', .threw e, m.calls, false⟩
    | .ok (classes, mutationAudits) =>
      let working := { file with
        classes := classes
        platformState := some (bumpLastPushedAt env.now file.platformState) }
      let auditEntries := audits ++ mutationAudits
      if env.diesBeforeWrite then ⟨w', .died, m.calls, false⟩
      else
        ⟨w'.persist working auditEntries, .returned ⟨working, auditEntries, true, some stale⟩,
          m.calls, true⟩

end ControlLibrary.Brownfield
