import Mathlib.Data.Int.Basic
import Dethernety.Foundations.Transition

/-!
# The model-directory lock

Model of `lock-helper.ts`. Each `acquireLock` call is a sequence of atomic file-system steps
(`link`, `readFile`, `unlink`) and signal-zero probes on two fixed paths, the lock
`.dethereal/.control-library.lock` and the break claim `<lock>.breaking`. Any number of calls,
made by any number of processes, interleave; a process may crash between two steps.

* `Slot` is what a path holds and `Phase` where a call stands: one constructor for each step it
  still has to take.
* `advance` is the next atomic step of one call, in the order of the source, including the
  `finally` that removes the claim.
* `lockSystem` is the interleaving of all calls, of `releaseLock` and of crashes.

Private `tmp` files (unique by nonce) and the creation of the directory do not interact with
other calls and are left out, as are I/O errors other than `EEXIST` and `ENOENT`.
-/

namespace ControlLibrary.Lock

/-- The JSON document written to the lock and to the claim. -/
structure LockPayload where
  pid : ℤ
  acquiredAt : String
  /-- Per-acquisition random token, the ownership arbiter. -/
  nonce : String
  deriving DecidableEq, Repr

/-- What is found at a fixed path. Files are created by `link` with their payload in place, so
`corrupt` can only have been left there by something else. -/
inductive Slot
  | absent
  | corrupt
  | holds (payload : LockPayload)
  deriving DecidableEq

/-- `readHolder`: absent, unreadable and corrupt files all read as `undefined`. -/
def Slot.readHolder : Slot → Option LockPayload
  | .holds p => some p
  | .absent => none
  | .corrupt => none

/-- `placeOurPayload`: `link` succeeds only on a free path (`none` is `EEXIST`). -/
def Slot.placeOurPayload (slot : Slot) (payload : LockPayload) : Option Slot :=
  match slot with
  | .absent => some (.holds payload)
  | .corrupt => none
  | .holds _ => none

/-- Thrown when the lock, or the right to break it, is in other hands. -/
structure LockBusyError where
  modelDir : String
  holderPid : ℤ
  holderAcquiredAt : String
  deriving DecidableEq

def LockBusyError.message (e : LockBusyError) : String :=
  "Control-library lock held by PID " ++ toString e.holderPid ++
    " (acquired " ++ e.holderAcquiredAt ++ ") on " ++ e.modelDir ++
    ". A concurrent /dethereal:sync or other manage_controls " ++
    "action is in progress. Wait for it to finish or, if you believe it has " ++
    "crashed, manually delete .dethereal/.control-library.lock."

/-- `new LockBusyError(modelDir, h?.pid ?? -1, h?.acquiredAt ?? 'unknown')`. -/
def busyWith (modelDir : String) (h : Option LockPayload) : LockBusyError where
  modelDir := modelDir
  holderPid := (h.map LockPayload.pid).getD (-1)
  holderAcquiredAt := (h.map LockPayload.acquiredAt).getD "unknown"

/-- Where one `acquireLock` call, and later its handle, stands. A constructor names the next
atomic step; its arguments are the local variables that are still read. -/
inductive Phase
  /-- First attempt: link the lock. -/
  | start
  /-- `EEXIST`: read the holder. -/
  | inspect
  /-- Signal zero to the holder just read. -/
  | probe (holder : LockPayload)
  /-- The holder is dead or unreadable: link the break claim. -/
  | linkClaim (holder : Option LockPayload)
  /-- Another breaker has the claim: read the claimant. -/
  | readClaim (holder : Option LockPayload)
  /-- Signal zero to the claimant just read. -/
  | probeClaim (holder : Option LockPayload) (claimant : LockPayload)
  /-- The claim counts as abandoned: unlink it, then yield. -/
  | cleanClaim (holder : Option LockPayload)
  /-- Under the claim: read the lock again. -/
  | recheck (holder : Option LockPayload)
  /-- Under the claim: unlink the lock found stale. -/
  | unlinkStale
  /-- Under the claim: link our payload into the freed slot. -/
  | linkFreed
  /-- Under the claim: read the lock to confirm our nonce. -/
  | confirm
  /-- Under the claim: read who won the slot instead. -/
  | readRace
  /-- `finally`: unlink the claim, then throw `error` or return the handle. -/
  | unclaim (error : Option LockBusyError)
  /-- `acquireLock` returned a handle, not yet passed to `releaseLock`. -/
  | holding
  /-- `acquireLock` threw. -/
  | busy (error : LockBusyError)
  /-- `releaseLock`: read the lock. -/
  | releaseRead
  /-- `releaseLock`: our nonce is there, unlink the lock. -/
  | releaseUnlink
  /-- `releaseLock` returned. -/
  | released
  deriving DecidableEq

/-- The phases between a successful link of the break claim and the `finally`. -/
@[simp]
def Phase.HoldsClaim : Phase → Prop
  | .recheck _ | .unlinkStale | .linkFreed | .confirm | .readRace | .unclaim _ => True
  | _ => False

/-- The two paths, the phase of every call and the set of live processes. -/
structure State (ι : Type) where
  lock : Slot
  claim : Slot
  phase : ι → Phase
  alive : ℤ → Bool

/-- One event: call `c` takes its next step, the holder of handle `c` calls `releaseLock`, or a
process crashes. -/
inductive Event (ι : Type)
  | step (c : ι)
  | release (c : ι)
  | crash (pid : ℤ)

variable {ι : Type} [DecidableEq ι]

/-- Move call `c` to another phase. -/
def State.goto (s : State ι) (c : ι) (ph : Phase) : State ι :=
  { s with phase := Function.update s.phase c ph }

variable (modelDir : String) (payload : ι → LockPayload)

/-- The next atomic step of call `c`; `none` when the call has nothing left to do. -/
def advance (s : State ι) (c : ι) : Option (State ι) :=
  match s.phase c with
  | .start =>
    match s.lock.placeOurPayload (payload c) with
    | some lock => some ({ s with lock := lock }.goto c .holding)
    | none => some (s.goto c .inspect)
  | .inspect =>
    match s.lock.readHolder with
    | some holder => some (s.goto c (.probe holder))
    | none => some (s.goto c (.linkClaim none))
  | .probe holder =>
    if s.alive holder.pid then
      some (s.goto c (.busy (busyWith modelDir (some holder))))
    else
      some (s.goto c (.linkClaim (some holder)))
  | .linkClaim holder =>
    match s.claim.placeOurPayload (payload c) with
    | some claim => some ({ s with claim := claim }.goto c (.recheck holder))
    | none => some (s.goto c (.readClaim holder))
  | .readClaim holder =>
    match s.claim.readHolder with
    | some claimant => some (s.goto c (.probeClaim holder claimant))
    | none => some (s.goto c (.cleanClaim holder))
  | .probeClaim holder claimant =>
    if s.alive claimant.pid then
      some (s.goto c (.busy (busyWith modelDir (some claimant))))
    else
      some (s.goto c (.cleanClaim holder))
  | .cleanClaim holder =>
    some ({ s with claim := .absent }.goto c (.busy (busyWith modelDir holder)))
  | .recheck holder =>
    -- `current?.nonce !== holder?.nonce`
    if s.lock.readHolder.map LockPayload.nonce ≠ holder.map LockPayload.nonce then
      some (s.goto c (.unclaim (some (busyWith modelDir s.lock.readHolder))))
    else
      some (s.goto c .unlinkStale)
  | .unlinkStale => some ({ s with lock := .absent }.goto c .linkFreed)
  | .linkFreed =>
    match s.lock.placeOurPayload (payload c) with
    | some lock => some ({ s with lock := lock }.goto c .confirm)
    | none => some (s.goto c .readRace)
  | .confirm =>
    if s.lock.readHolder.map LockPayload.nonce = some (payload c).nonce then
      some (s.goto c (.unclaim none))
    else
      some (s.goto c .readRace)
  | .readRace => some (s.goto c (.unclaim (some (busyWith modelDir s.lock.readHolder))))
  | .unclaim none => some ({ s with claim := .absent }.goto c .holding)
  | .unclaim (some e) => some ({ s with claim := .absent }.goto c (.busy e))
  | .releaseRead =>
    -- Only a lock that still bears our nonce is removed; a corrupt one is left alone.
    if s.lock.readHolder.map LockPayload.nonce = some (payload c).nonce then
      some (s.goto c .releaseUnlink)
    else
      some (s.goto c .released)
  | .releaseUnlink => some ({ s with lock := .absent }.goto c .released)
  | .holding => none
  | .busy _ => none
  | .released => none

/-- `releaseLock` may be called on a handle that is held, and again on one already released. -/
def callRelease (s : State ι) (c : ι) : Option (State ι) :=
  match s.phase c with
  | .holding | .released => some (s.goto c .releaseRead)
  | _ => none

/-- The interleaving of all calls. A crashed process takes no further step and its id is never
reused. -/
def next (s : State ι) : Event ι → Option (State ι)
  | .step c => if s.alive (payload c).pid then advance modelDir payload s c else none
  | .release c => if s.alive (payload c).pid then callRelease s c else none
  | .crash pid => some { s with alive := Function.update s.alive pid false }

/-- The environment assumption of the protocol: no process crashes while one of its calls holds
the break claim. -/
def NoClaimantCrash (s : State ι) : Event ι → Prop
  | .crash pid => ∀ c, (payload c).pid = pid → ¬ (s.phase c).HoldsClaim
  | _ => True

end ControlLibrary.Lock
