import Dethernety.Console.CloudRoutes
import Dethernety.Foundations.Threads
import Dethernety.ModuleInstall.BootInstall

/-!
# What the console daemon acts on

The mode file, the modules directory, the live sessions and the two locks, with the calls that the handlers make on
them, one after the other: between two calls of a request any other request may run. A call that waits for a lock has
no effect until the lock is free. What the outside decides comes with each step: how much time passed, whether the
call fails, and what the services answer.
-/

namespace Console.Daemon

open ModuleInstall

/-- A live session: its deadline, when it has one, and the subject of the sign-in. -/
structure Session where
  expiresAt : Option ℕ
  sub : String
  deriving DecidableEq

/-- `expiresAt.IsZero() || !now.After(expiresAt)` -/
def Session.lives (s : Session) (now : ℕ) : Bool :=
  s.expiresAt.all (now ≤ ·)

structure World where
  file : Option Text
  /-- Who holds `modeLayerMu` and `modulesOps`. -/
  modeLayerMu : Option ℕ
  modulesOps : Option ℕ
  modules : Disk
  live : Record String Session
  /-- The session ids that were drawn so far. -/
  drawn : List String
  /-- The slots of `mintLimiter` that are taken. -/
  minting : ℕ
  /-- In nanoseconds. -/
  clock : ℕ

structure ArtifactMarker where
  schema : String
  artifactKey : String
  version : String
  installedAt : ℕ

structure KgMarker where
  schema : String
  mountedAt : ℕ

structure MountMarker where
  schema : String
  packageKey : String
  moduleKey : String
  pin : String
  mountedAt : ℕ

/-- What the console reads of an artifact's descriptor. -/
structure Descriptor where
  kind : String
  digest : String
  signatureFormat : String
  bundle : String

/-- What rests on code outside of the daemon: URL and Unicode checks, signatures, archives and hashes, and the JSON
and base64 formats. -/
structure Platform where
  checks : Checks
  tools : Tools
  contentCacheDir : String
  /-- The subject of `identityFromJWT`. -/
  identityFromJWT : String → String
  decodeArtifactMarker : Bytes → Option ArtifactMarker
  encodeArtifactMarker : ArtifactMarker → Bytes
  decodeKgMarker : Bytes → Option KgMarker
  encodeKgMarker : KgMarker → Bytes
  encodeMountMarker : MountMarker → Bytes
  decodeDescriptor : Bytes → Option Descriptor
  decodeBase64 : String → Option Bytes
  kgStub : Bytes
  renderStub : String → String → Bytes

inductive Call
  /-- `valid`, which drops a session past its deadline. -/
  | valid (session : String)
  | identityOf (session : String)
  | randomID
  | now
  /-- The end of `mintWithIdentity`. -/
  | record (id : String) (s : Session)
  | keepOnly (keep : String) (ttl : ℕ)
  | readModeLayer
  | lockModeLayer
  | unlockModeLayer
  | writeModeLayerLocked (vars : Vars)
  | tryAcquire
  | release
  | registeredModules (idToken : String)
  | config
  | readKgListing (base : String)
  | resolveEntitlements (base token team : String)
  | entitledGet (base path token team : String)
  | tryLockModules
  | unlockModules
  | readDir
  | stat (p : Path)
  | lstat (p : Path)
  | hasMarkerNamed (p : Path) (name : String)
  | readFile (p : Path) (name : String)
  | stubPresent (p : Path) (name : String)
  | mkdir (p : Path)
  | remove (p : Path)
  | writeFile (p : Path) (name : String) (content : Bytes)
  | removeAll (p : Path)
  | rename (p q : Path)
  | extract (archive : Bytes) (key : String)
  | compute (p : Path)
  | readStamp (p : Path)

/-- What `os.Mkdir` answers. -/
inductive Mkdir
  | created
  | exists
  | failed
  deriving DecidableEq

abbrev Answer : Call → Type
  | .valid _ => Bool
  | .identityOf _ => String
  | .randomID => Option String
  | .now => ℕ
  | .record _ _ => Unit
  | .keepOnly _ _ => Unit
  | .readModeLayer => Option Text
  | .lockModeLayer => Unit
  | .unlockModeLayer => Unit
  | .writeModeLayerLocked _ => Bool
  | .tryAcquire => Bool
  | .release => Unit
  | .registeredModules _ => Bool
  -- whether authentication is disabled
  | .config => Option Bool
  | .readKgListing _ => Option KgVersionList
  -- whether the caller is an administrator
  | .resolveEntitlements _ _ _ => Option Bool
  | .entitledGet _ _ _ _ => Fetched
  | .tryLockModules => Bool
  | .unlockModules => Unit
  | .readDir => List String
  | .stat _ => Option Bool
  | .lstat _ => Lstat
  | .hasMarkerNamed _ _ => Bool
  | .readFile _ _ => Option Bytes
  | .stubPresent _ _ => Bool
  | .mkdir _ => Mkdir
  | .remove _ => Unit
  | .writeFile _ _ _ => Bool
  | .removeAll _ => Bool
  | .rename _ _ => Bool
  | .extract _ _ => Bool
  | .compute _ => Option String
  | .readStamp _ => Option Stamp

/-- What the outside decides of one step. -/
structure Outside where
  elapsed : ℕ
  fails : Bool
  /-- What a write, a removal or an extraction that fails leaves behind. -/
  torn : Option Bytes
  kept : List String
  id : String
  /-- Whether the platform accepts the sign-in. -/
  signedIn : Bool
  authDisabled : Option Bool
  listing : Option KgVersionList
  admin : Option Bool
  fetched : Fetched

namespace World

def keepOnly (w : World) (keep : String) (ttl : ℕ) : World :=
  match w.live.get? keep with
  | none => { w with live := ∅ }
  | some s =>
    let deadline := w.clock + ttl
    { w with live := Record.set ∅ keep { s with expiresAt := some ((s.expiresAt.getD deadline).min deadline) } }

end World

/-- The effect of a call that changes or reads the modules directory. -/
def actFiles (env : Platform) (o : Outside) (d : Disk) : (c : Call) → Option (Answer c × Disk)
  | .readDir => some (if o.fails then [] else d.readDir, d)
  | .stat p => some (if o.fails then none else d.stat p, d)
  | .lstat p => some (if o.fails then .failed else d.lstat p, d)
  | .hasMarkerNamed p name => some (!o.fails && d.hasFile p name, d)
  | .readFile p name => some (if o.fails then none else d.file? p name, d)
  | .stubPresent p name => some (!o.fails && (d.file? p name).any (· ≠ []), d)
  | .mkdir p =>
    if o.fails then some (.failed, d)
    else match d.mkdir p with
      | none => some (.exists, d)
      | some d' => some (.created, d')
  | .remove p => some ((), if o.fails then d else d.remove p)
  | .writeFile p name content =>
    if o.fails then some (false, (o.torn.bind (d.writeFile p name)).getD d)
    else match d.writeFile p name content with
      | none => some (false, d)
      | some d' => some (true, d')
  | .removeAll p => some (!o.fails, if o.fails then d.removeSome p o.kept else d.erase p)
  | .rename p q =>
    match if o.fails then none else d.rename p q with
    | none => some (false, d)
    | some d' => some (true, d')
  | .extract archive key =>
    match env.tools.unpack archive with
    | none => some (false, d)
    | some dirs =>
      let payload := (dirs.get? key).map fun tree => if o.fails then tree.filterKeys (· ∈ o.kept) else tree
      some (!o.fails, d.put (.staging key) (payload.map .dir))
  | .compute p => some (if o.fails then none else (d.tree? p).bind env.tools.compute, d)
  | .readStamp p => some (if o.fails then none else (d.file? p stampFilename).bind env.tools.decodeStamp, d)
  | _ => none

def mintConcurrency : ℕ := 4

/-- The effect of a call. -/
def act (env : Platform) (i : ℕ) (o : Outside) (w : World) : (c : Call) → Option (Answer c × World)
  | .valid session =>
    match w.live.get? session with
    | none => some (false, w)
    | some s => some (if s.lives w.clock then (true, w) else (false, { w with live := w.live.erase session }))
  | .identityOf session => some (((w.live.get? session).map Session.sub).getD "", w)
  | .randomID =>
    if o.fails then some (none, w)
    -- 256 random bits are taken to be new
    else if o.id ∈ w.drawn then none
    else some (some o.id, { w with drawn := o.id :: w.drawn })
  | .now => some (w.clock, w)
  | .record id s => some ((), { w with live := w.live.set id s })
  | .keepOnly keep ttl => some ((), w.keepOnly keep ttl)
  | .readModeLayer => some (if o.fails then none else w.file, w)
  | .lockModeLayer => if w.modeLayerMu.isSome then none else some ((), { w with modeLayerMu := some i })
  | .unlockModeLayer => some ((), { w with modeLayerMu := none })
  | .writeModeLayerLocked vars =>
    match if o.fails then none else serialize vars with
    | none => some (false, w)
    | some text => some (true, { w with file := some text })
  | .tryAcquire =>
    some (if w.minting < mintConcurrency then (true, { w with minting := w.minting + 1 }) else (false, w))
  | .release => some ((), { w with minting := w.minting - 1 })
  | .registeredModules _ => some (o.signedIn, w)
  | .config => some (o.authDisabled, w)
  | .readKgListing _ => some (o.listing, w)
  | .resolveEntitlements base token _ => some (if base = "" ∨ token = "" then none else o.admin, w)
  | .entitledGet _ _ _ _ => some (o.fetched, w)
  | .tryLockModules =>
    some (if w.modulesOps.isSome then (false, w) else (true, { w with modulesOps := some i }))
  | .unlockModules => some ((), { w with modulesOps := none })
  | c => (actFiles env o w.modules c).map fun r => (r.1, { w with modules := r.2 })

end Console.Daemon
