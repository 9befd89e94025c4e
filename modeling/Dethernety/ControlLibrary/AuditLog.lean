import Dethernety.ControlLibrary.ControlFile

/-!
# Audit log entries

Model of `audit-log-writer.ts`: the entries that a push buffers, and the derived `effective` field.
-/

namespace ControlLibrary

/-- A payload as it is assembled in memory: a key may carry `undefined`, which is not sent. -/
abbrev Payload (J : Type*) := Record String (Option (JsonValue J))

/-- `AuditLogEntry['kind']` -/
inductive AuditKind
  | forceShared
  | forceUnverified
  | reverted
  | firstWrite
  deriving DecidableEq

/-- What a conflict was settled for. -/
inductive Chosen
  | ours
  | theirs
  | merge
  deriving DecidableEq

/-- One conflict decision of Step D. -/
structure ConflictResolution (J : Type*) where
  key : String
  ours : Option (JsonValue J)
  theirs : Option (JsonValue J)
  chosen : Chosen
  merged : Option (JsonValue J)
  deriving DecidableEq

/-- The `effective` field. -/
inductive Effective
  | ours
  | theirs
  | novel
  deriving DecidableEq

structure AuditLogEntry (J : Type*) where
  timestamp : Timestamp
  operator : String
  authnOperator : Option String
  kind : AuditKind
  controlId : String
  controlName : String
  classId : String
  className : String
  modelId : String
  /-- `none` is the `null` of `force-unverified`. -/
  liveAssignedModelIds : Option (List String)
  intendedKeys : List String
  attributesPushed : Payload J
  previousAttributes : Attributes J
  firstWriteKeys : Option (List String)
  effective : Option Effective
  editedBy : Option PendingEditAuthor
  conflictResolutions : Option (List (ConflictResolution J))
  queryFailureReason : Option String
  queryAttempts : Option ℕ
  deriving DecidableEq

variable {J : Type*} [DecidableEq J]

/-- `shallowEqual`: equality after the keys of objects have been sorted by `canonical`. -/
def shallowEqual (canonical : J → J) : Option (JsonValue J) → Option (JsonValue J) → Bool
  | some (.value a), some (.value b) => canonical a = canonical b
  | a, b => a = b

/-- The loop of `computeEffective`: whether all resolutions follow the server, and whether one is
novel. -/
def effectiveFlags (canonical : J → J) : List (ConflictResolution J) → Bool × Bool
  | [] => (true, false)
  | r :: rest =>
    let (allTheirs, anyNovel) := effectiveFlags canonical rest
    match r.chosen with
    | .merge =>
      if !shallowEqual canonical r.merged r.ours && !shallowEqual canonical r.merged r.theirs then
        (false, true)
      else if shallowEqual canonical r.merged r.theirs then (allTheirs, anyNovel)
      else (false, anyNovel)
    | .ours => (false, anyNovel)
    | .theirs => (allTheirs, anyNovel)

def computeEffective (canonical : J → J) (kind : AuditKind)
    (conflictResolutions : List (ConflictResolution J)) : Option Effective :=
  match kind with
  | .forceUnverified => none
  | .reverted => none
  | .firstWrite => some .novel
  | .forceShared =>
    if conflictResolutions = [] then some .ours
    else
      match effectiveFlags canonical conflictResolutions with
      | (_, true) => some .novel
      | (true, false) => some .theirs
      | (false, false) => some .ours

end ControlLibrary
