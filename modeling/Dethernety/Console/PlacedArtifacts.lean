import Dethernety.Foundations.PartialFold
import Dethernety.Console.AccessList
import Dethernety.Console.Teardown

/-!
# The artifacts that are placed

Whatever the requests do between each other's steps, an install renames into the modules directory what it verified
for the key and the version that were asked for, marked, and puts an older version in the place of a newer one only
with leave, as long as it does not fail to read the marker of what is installed (`placed_of_reachable`). When that read
fails the version is not compared (`unreadMarker_downgraded`).
-/

open List Record Bool

namespace Console.Daemon

open Threads ModuleInstall Script

/-! ## What an install rests on -/

/-- The path of a version of an artifact at the content service. -/
def descriptorPath (key version : String) : String :=
  "/v1/artifacts/" ++ key ++ "/versions/" ++ version

/-- What an install read, fetched and unpacked. -/
structure Download where
  file : Option Text
  signer : String
  base : String
  team : String
  body : Bytes
  descriptor : Descriptor
  bundle : Bytes
  archive : Bytes
  dirs : Record String Tree
  payload : Tree
  stamp : Stamp

/-- The archive verified under the identity of the key and the version, has the digest of the descriptor, and holds a
payload whose stamp names them and whose digest is the one of the stamp. -/
structure Verified (env : Platform) (key version token : String) (past : List (Script.Event Answer)) (x : Download) :
    Prop where
  key_valid : validateModuleKey key = true
  version_valid : artifactVersionPattern version = true
  file : ⟨.readModeLayer, x.file⟩ ∈ past
  signer : x.signer = cloudArtifactSigner env x.file
  signer_ne : x.signer ≠ ""
  body : ⟨.entitledGet x.base (descriptorPath key version) token x.team, some (x.body, 200)⟩ ∈ past
  descriptor : env.decodeDescriptor x.body = some x.descriptor
  bundle : env.decodeBase64 x.descriptor.bundle = some x.bundle
  archive : ⟨.entitledGet x.base (descriptorPath key version ++ "/content") token x.team, some (x.archive, 200)⟩ ∈ past
  signature : env.tools.verifyBlob x.archive x.bundle (artifactIdentity x.signer key version)
    oidcIssuerGitHubActions = true
  digest : "sha256:" ++ env.tools.sha256 x.archive = x.descriptor.digest
  dirs : env.tools.unpack x.archive = some x.dirs
  payload : x.dirs.get? key = some x.payload
  stamp : (x.payload.get? stampFilename).join.bind env.tools.decodeStamp = some x.stamp
  name : x.stamp.name = key
  version : x.stamp.version = version
  recomputed : env.tools.compute x.payload = some x.stamp.payloadDigest

/-- The accepted artifact marker of a directory. -/
def installedMarker (env : Platform) (d : Disk) (p : Path) : Option ArtifactMarker :=
  match d.get? p with
  | some (.dir tree) => parseArtifactMarker env (tree.get? artifactMarkerName).join
  | _ => none

/-- A version is older than the one of a marker, and may not be. -/
def isDowngrade (version : String) (allowDowngrade : Bool) (installed : Option ArtifactMarker) : Bool :=
  installed.any fun marker => compareVersion version marker.version = some .lt && !allowDowngrade

def isStampRead : Script.Event Answer → Bool
  | ⟨.readStamp _, _⟩ => true
  | _ => false

/-- An install that has staged its payload does not get to see the marker of a newer version. -/
def overlooks (env : Platform) (st : LogStep) : Bool :=
  match st.request, st.event with
  | .installArtifact _ _ key version allowDowngrade, ⟨.readFile p name, content⟩ =>
    p = .moduleDir key && name = artifactMarkerName && st.past.getLast?.any isStampRead &&
      (parseArtifactMarker env content).isNone &&
      isDowngrade version allowDowngrade (installedMarker env st.before.modules p)
  | _, _ => false

/-! ## What is renamed into the modules directory -/

/-- The payload of an install, marked, where nothing is. -/
def Placed (env : Platform) (st : LogStep) (p : Path) (name : String) : Prop :=
  ∃ id token version allowDowngrade x time,
    st.request = .installArtifact id token name version allowDowngrade ∧ p = .staging name ∧
    Verified env name version token st.past x ∧
    st.before.modules.get? p = some (.dir (x.payload.set artifactMarkerName
      (some (env.encodeArtifactMarker ⟨artifactMarkerSchema, name, version, time⟩)))) ∧
    st.before.modules.get? (.moduleDir name) = none

/-- What the same request has moved aside. -/
def Restored (log : List LogStep) (st : LogStep) (p : Path) (name : String) : Prop :=
  p = .backup name ∧ ∃ st' ∈ log, st'.thread = st.thread ∧
    st'.event = ⟨.rename (.moduleDir name) (.backup name), true⟩ ∧
    st'.before.modules.get? (.moduleDir name) = st.before.modules.get? (.backup name)

/-- What is renamed into the modules directory was verified for what was asked, or is put back. -/
def PlacesVerified (env : Platform) (log : List LogStep) (st : LogStep) : Prop :=
  ∀ p name, st.event = ⟨.rename p (.moduleDir name), true⟩ → Placed env st p name ∨ Restored log st p name

/-- What is moved aside is for an install of the same key, and not newer unless it may be. -/
def MovesOlder (env : Platform) (st : LogStep) : Prop :=
  ∀ name q, st.event = ⟨.rename (.moduleDir name) (.backup q), true⟩ →
    ∃ id token version allowDowngrade, st.request = .installArtifact id token name version allowDowngrade ∧
      isDowngrade version allowDowngrade (installedMarker env st.before.modules (.moduleDir name)) = false

/-- The requests on modules, and the mint that they need. -/
def Request.isOnModules : Request → Bool
  | session _ | mountModule _ _ _ _ _ | unmountModule _ _ _ | installArtifact _ _ _ _ _ | removeArtifact _ _ _ => true
  | _ => false

def isUnlock : Call → Bool
  | .unlockModules => true
  | _ => false

/-- The modules directory changes, and its lock is let go, by the one who holds it. -/
def LockKept (st : LogStep) : Prop :=
  (st.call.changesModules || isUnlock st.call) = true → st.before.modulesOps = some st.thread

def placingContract (env : Platform) : Contract Answer Request World where
  interleaved := true
  serves := Request.isOnModules
  inv _ _ := True
  ok _ st := !overlooks env st
  good log st := LockKept st ∧ PlacesVerified env log st ∧ MovesOlder env st

variable {env : Platform} {i : ℕ} {req : Request} {o : Outside} {w w' : World} {c : Call} {a : Answer c}
  {past : List (Script.Event Answer)} {log : List LogStep} {st : LogStep}

/-! ## The lock -/

/-- What is known of the modules directory while the lock is held. -/
abbrev Fact := List (Script.Event Answer) → List LogStep → Disk → Prop

/-- A fact that no step of another request ends. -/
def Fact.Stays (F : Fact) : Prop :=
  ∀ past log d st, F past log d → F past (log ++ [st]) d

/-- A fact that no later step ends while the directory is as it is. -/
structure Fact.Lasts (F : Fact) : Prop where
  past : ∀ past log d e, F past log d → F (past ++ [e]) log d
  log : F.Stays

def Held (i : ℕ) (F : Fact) : Assertion Answer Request World :=
  fun past log w => w.modulesOps = some i ∧ F past log w.modules

variable {F : Fact}

lemma stable_held (hF : F.Stays) : (placingContract env).Stable (machine env).exec i (Held i F) := by
  intro past log st hs _ _ hne _ htakes _ hkept
  obtain ⟨o, hexec⟩ := htakes
  have hlocked := hkept.good.1
  obtain ⟨j, req, past', c, a, w, w'⟩ := st
  have hact : act env j o { w with clock := w.clock + o.elapsed } c = some (a, w') := hexec
  have hframe := act_frame hact
  have hheld : w.modulesOps = some i := hs.1
  -- another thread does not have the lock
  have hnot : (c.changesModules || isUnlock c) = false := by
    refine eq_false_iff.2 fun h => hne ?_
    exact (Option.some.inj ((hlocked h).symm.trans hheld))
  obtain ⟨hchanges, hunlock⟩ := or_eq_false_iff.1 hnot
  refine ⟨?_, ?_⟩
  · cases c with
    | tryLockModules =>
      simp only [act] at hact
      rw [if_pos (by rw [hheld]; rfl)] at hact
      cases hact
      exact hheld
    | unlockModules => cases hunlock
    | _ => exact (hframe.modulesOps rfl).trans hheld
  · show F past (log ++ [⟨j, req, past', c, a, w, w'⟩]) w'.modules
    rw [hframe.modules hchanges]
    exact hF _ _ _ _ hs.2

/-- How a script ends that holds the lock: it holds it still, and a value comes with a fact. -/
def Ends {α : Type} (i : ℕ) (G : α → Fact) (r : Except Denied α) : Assertion Answer Request World :=
  fun past log w => w.modulesOps = some i ∧ ∀ x, r = .ok x → G x past log w.modules

/-- A script that starts and ends with the lock held. -/
abbrev Places {α : Type} (env : Platform) (i : ℕ) (req : Request) (F : Fact) (script : Handler α) (G : α → Fact) :
  Prop :=
  (placingContract env).Triple (machine env).exec i req (Held i F) script (Ends i G)

/-- Nothing is known. -/
abbrev Anything : Fact :=
  fun _ _ _ => True

/-- A script that starts and ends with the lock held, whatever it gives. -/
abbrev Runs {α : Type} (env : Platform) (i : ℕ) (req : Request) (F : Fact) (script : Handler α) : Prop :=
  Places env i req F script fun _ => Anything

variable {α β : Type} {F : Fact} {G : α → Fact} {H : β → Fact}

variable {e : Denied} {d : Disk} {key version token : String} {p : Path} {f : α → Handler β}
  {P : List (Script.Event Answer) → Prop} {allowDowngrade : Bool} {script : Handler α}
  {past : List (Script.Event Answer)}

lemma ends_error {log : List LogStep} {w : World}
    (h : Held i F past log w) : Ends i G (.error e) past log w :=
  ⟨h.1, nofun⟩

lemma ends_ret {x : α} (h : ∀ past log d, F past log d → G x past log d) : Places env i req F (.ret (.ok x)) G := by
  refine .ret fun past log w _ hs => ⟨hs.1, fun y hy => ?_⟩
  cases hy
  exact h _ _ _ hs.2

variable {r : Except Denied α}

lemma runs_ret : Runs env i req F (.ret r) :=
  .ret fun _ _ _ _ hs => ⟨hs.1, fun _ _ => trivial⟩

lemma ends_throw : Places env i req F (.ret (.error e)) G :=
  .ret fun _ _ _ _ hs => ends_error hs

variable {first : Handler α}

lemma ends_bind {K : Assertion Answer Request World}
    (h : (placingContract env).Triple (machine env).exec i req K first (Ends i G))
    (hf : ∀ x, Places env i req (G x) (f x) H) :
    (placingContract env).Triple (machine env).exec i req K (first >>= f) (Ends i H) :=
  h.bind (fun x => (hf x).weaken fun _ _ _ _ hs => ⟨hs.1, hs.2 x rfl⟩) fun _ _ _ _ _ hs => ⟨hs.1, nofun⟩

lemma ends_require {b : Bool} {f : PUnit → Handler β} (h : b = true → Places env i req F (f ⟨⟩) H) :
    Places env i req F (require b e >>= f) H :=
  .require h fun _ _ _ _ hs => ends_error hs

lemma held_weaken {L : Fact} (h : Places env i req L script G)
    (hF : ∀ past log d, F past log d → L past log d) : Places env i req F script G :=
  h.weaken fun _ _ _ _ hs => ⟨hs.1, hF _ _ _ hs.2⟩

/-- A call that leaves the lock alone and renames nothing but what is to be removed. -/
def Call.placesNothing : Call → Bool
  | .rename _ (.removing _ _) => true
  | .rename _ _ => false
  | c => !c.isModulesLock

variable {c : Call}

lemma Call.placesNothing_of_isWork (h : c.isWork = true) : c.placesNothing = true := by
  cases c with
  | rename _ q =>
    cases q with
    | removing => rfl
    | _ => cases h
  | tryLockModules | unlockModules => cases h
  | _ => rfl

section

variable (hc : c.placesNothing = true)
include hc

lemma places_of_placesNothing {a : Answer c} {past : List (Script.Event Answer)} {w w' : World} :
    PlacesVerified env log ⟨i, req, past, c, a, w, w'⟩ ∧ MovesOlder env ⟨i, req, past, c, a, w, w'⟩ := by
  refine ⟨fun p name hevent => ?_, fun name q hevent => ?_⟩
  all_goals
    cases hevent
    cases hc

lemma held_step {a : Answer c} {past : List (Script.Event Answer)} {w w' : World}
    (hheld : w.modulesOps = some i) (hexec : (machine env).exec i req c o w = some (a, w')) :
    (placingContract env).Kept log ⟨i, req, past, c, a, w, w'⟩ ∧ w'.modulesOps = some i := by
  have hlock : c.isModulesLock = false := by
    cases c with
    | tryLockModules | unlockModules => cases hc
    | _ => rfl
  exact ⟨⟨trivial, fun _ => hheld, places_of_placesNothing hc⟩, ((exec_frame hexec).modulesOps hlock).trans hheld⟩

lemma held_ask {G : Answer c → Fact} (hF : F.Stays)
    (hstep : ∀ past log w o a w', F past log w.modules →
      act env i o { w with clock := w.clock + o.elapsed } c = some (a, w') →
      overlooks env ⟨i, req, past, c, a, w, w'⟩ = false →
        G a (past ++ [⟨c, a⟩]) (log ++ [⟨i, req, past, c, a, w, w'⟩]) w'.modules) : Places env i req F (ask c) G := by
  refine .ask (stable_held hF) fun past log w o a w' _ hs hexec hok => ?_
  obtain ⟨hkept, hheld⟩ := held_step hc hs.1 hexec
  refine ⟨hkept, hheld, fun a' ha' => ?_⟩
  cases ha'
  exact hstep past log w o a w' hs.2 (act_of_exec hexec) (not_eq_true' _ |>.mp hok)

end

lemma held_work (h : Work script) : Runs env i req Anything script := by
  refine .mono (.every (stable_held fun _ _ _ _ _ => trivial) (fun c hc past log w o a w' _ hs hexec _ => ?_) h)
    (fun _ _ _ _ hs => hs) fun _ _ _ _ _ hs => ⟨hs.1, fun _ _ => trivial⟩
  obtain ⟨hkept, hheld⟩ := held_step (Call.placesNothing_of_isWork hc) hs.1 hexec
  exact ⟨hkept, hheld, trivial⟩

/-! ## What is read under the lock -/

/-- An answer that a call can get while the modules directory is as it is. -/
def Tells (env : Platform) (d : Disk) (c : Call) (a : Answer c) : Prop :=
  ∃ i o w w', w.modules = d ∧ act env i o w c = some (a, w')

/-- What a script can return while the modules directory is as it is, with the events in which it does. -/
abbrev Finds {α : Type} (env : Platform) (d : Disk) (script : Handler α) (events : List (Script.Event Answer)) (x : α) :
    Prop :=
  script.Yields (Tells env d) events (.ok x)

lemma Call.unchanging_of_isRead (h : c.isRead = true) : c.changesModules = false := by
  cases c with
  | mkdir _ | remove _ | writeFile _ _ _ | removeAll _ | rename _ _ | extract => cases h
  | _ => rfl

/-- A script that only reads returns what it finds. -/
lemma held_reads (hF : F.Lasts) (h : Reads script) : Places env i req F script fun x past log d =>
    F past log d ∧ ∃ past' events, past = past' ++ events ∧ Finds env d script events x := by
  intro past log w hinv hs
  refine (Contract.Triple.yields (K := Held i fun past log d => F past log d ∧ d = w.modules) (A := Tells env w.modules)
    past (stable_held fun _ _ _ _ hs => ⟨hF.log _ _ _ _ hs.1, hs.2⟩)
    (fun c hc past log w' o a w'' _ hs hexec _ => ?_) h).mono (fun _ _ _ _ hs => hs)
    (fun r past' log' w' _ hs => ⟨hs.1.1, ?_⟩) past log w hinv ⟨rfl, hs.1, hs.2, rfl⟩
  · have hplaces : c.placesNothing = true := by
      cases c with
      | readModeLayer | entitledGet => rfl
      | _ => exact Call.placesNothing_of_isWork (Call.isWork_of_isLook hc)
    obtain ⟨hkept, hheld⟩ := held_step hplaces hs.1 hexec
    have hmodules : w''.modules = w'.modules := (exec_frame hexec).modules (Call.unchanging_of_isRead hc)
    refine ⟨hkept, ⟨hheld, ?_⟩, i, o, { w' with clock := w'.clock + o.elapsed }, w'', hs.2.2, hexec⟩
    rw [hmodules]
    exact ⟨hF.past _ _ _ _ (hF.log _ _ _ _ hs.2.1), hs.2.2⟩
  · rintro x rfl
    obtain ⟨events, hpast, hfinds⟩ := hs.2
    refine ⟨hs.1.2.1, past, events, hpast, ?_⟩
    rwa [hs.1.2.2]

lemma lstat_tells {a : Lstat} (h : Tells env d (.lstat p) a) :
    (a = .notExist → d.get? p = none) ∧ (a = .found true → ∃ tree, d.get? p = some (.dir tree)) := by
  obtain ⟨_, o, w, w', rfl, h⟩ := h
  cases h
  cases o.fails with
  | true => exact ⟨nofun, nofun⟩
  | false =>
    change (w.modules.lstat p = .notExist → _) ∧ (w.modules.lstat p = .found true → _)
    unfold Disk.lstat
    cases w.modules.get? p with
    | none => exact ⟨fun _ => rfl, nofun⟩
    | some entry =>
      refine ⟨nofun, fun h => ?_⟩
      cases entry with
      | dir tree => exact ⟨tree, rfl⟩
      | file | link => cases h

lemma readFile_tells {name : String} {a : Option Bytes} (h : Tells env d (.readFile p name) a) :
    a = none ∨ a = d.file? p name := by
  obtain ⟨_, o, w, w', rfl, h⟩ := h
  cases h
  exact ite_eq_or_eq ..

variable {tree : Tree} {events : List (Script.Event Answer)}

lemma file?_of_tree? (h : d.tree? p = some tree) (name : String) : d.file? p name = (tree.get? name).join := by
  unfold Disk.file?
  rw [h]
  rfl

/-- An artifact mount is known by its marker. -/
lemma marker_of_isArtifactMount (h : Finds env d (isArtifactMount env p) events true) (htree : d.tree? p = some tree) :
    (parseArtifactMarker env (tree.get? artifactMarkerName).join).isSome = true := by
  obtain ⟨content, _, hcontent, -, -, hsome⟩ := h
  replace hsome : (parseArtifactMarker env content).isSome = true := Except.ok.inj hsome
  rcases readFile_tells hcontent with rfl | rfl
  · cases hsome
  · rwa [file?_of_tree? htree] at hsome

lemma tree?_of_dir (h : d.get? p = some (.dir tree)) : d.tree? p = some tree :=
  Disk.tree?_of_dir (h : d.get? p = (some tree).map .dir)

lemma installedMarker_of_dir (h : d.get? p = some (.dir tree)) :
    installedMarker env d p = parseArtifactMarker env (tree.get? artifactMarkerName).join := by
  rw [installedMarker, h]

/-- What is not refused is not there, or an artifact mount. -/
lemma of_refuseForeignDirectory (h : Finds env d (refuseForeignDirectory env p) events none) : d.get? p = none ∨
    ∃ tree, d.get? p = some (.dir tree) ∧
      (parseArtifactMarker env (tree.get? artifactMarkerName).join).isSome = true := by
  obtain ⟨answer, _, hanswer, -, hrest⟩ := Yields.of_ask_bind h
  obtain ⟨hnone, hfound⟩ := lstat_tells hanswer
  cases answer with
  | notExist => exact .inl (hnone rfl)
  | failed => cases hrest.2
  | found isDir =>
    cases isDir with
    | false => cases hrest.2
    | true =>
      obtain ⟨tree, htree⟩ := hfound rfl
      obtain ⟨ours, _, _, -, hours, hforeign⟩ := Yields.of_bind hrest
      cases ours with
      | true => exact .inr ⟨tree, htree, marker_of_isArtifactMount hours (tree?_of_dir htree)⟩
      | false =>
        obtain ⟨mounted, _, -, -, hrefused⟩ := hforeign
        cases mounted <;> cases hrefused.2

/-! ## What is staged -/

lemma lasts_past (hP : ∀ past e, P past → P (past ++ [e])) : Fact.Lasts fun past _ _ => P past :=
  ⟨fun past _ _ e hs => hP past e hs, fun _ _ _ _ hs => hs⟩

lemma Fact.Lasts.and_disk (hF : F.Lasts) (P : Disk → Prop) :
    Fact.Lasts fun past log d => F past log d ∧ P d where
  past _ _ _ _ hs := ⟨hF.past _ _ _ _ hs.1, hs.2⟩
  log _ _ _ _ hs := ⟨hF.log _ _ _ _ hs.1, hs.2⟩

lemma places_mono {G G' : α → Fact} (h : Places env i req F script G)
    (hG : ∀ x past log d, G x past log d → G' x past log d) : Places env i req F script G' :=
  h.mono (fun _ _ _ _ hs => hs) fun _ _ _ _ _ hs => ⟨hs.1, fun x hx => hG _ _ _ _ (hs.2 x hx)⟩

/-- What the first checks of an install leave. -/
structure Targeted (env : Platform) (key version pre : String) (past : List (Script.Event Answer)) : Prop where
  key_valid : validateModuleKey key = true
  version_valid : artifactVersionPattern version = true
  signer : ∃ file, ⟨.readModeLayer, file⟩ ∈ past ∧ pre = cloudArtifactSigner env file
  signer_ne : pre ≠ ""

variable {key version : String} {past' : List (Script.Event Answer)}

lemma Targeted.mono {pre : String} (h : Targeted env key version pre past) (hsub : past ⊆ past') :
    Targeted env key version pre past' := by
  obtain ⟨file, hfile, hsigner⟩ := h.signer
  exact { h with signer := ⟨file, hsub hfile, hsigner⟩ }

lemma held_question (hc : c.placesNothing = true) (hread : c.changesModules = false) (hF : F.Lasts) :
    Places env i req F (ask c) fun _ => F := by
  refine held_ask hc hF.log fun past log w o a w' hs hact _ => ?_
  rw [(act_frame hact).modules hread]
  exact hF.past _ _ _ _ (hF.log _ _ _ _ hs)

lemma of_artifactTarget {target : String × String × String}
    (h : Finds env d (artifactTarget env key version token) events target) :
    Targeted env key version target.2.2 events := by
  obtain ⟨_, _, -, hfirst, h⟩ := Yields.of_ask_bind h
  obtain ⟨hkey, h⟩ := Yields.of_require (Yields.of_require h).2
  obtain ⟨hversion, h⟩ := Yields.of_require (Yields.of_require h).2
  obtain ⟨_, _, _, hrefuse, -, h⟩ := Yields.of_bind h
  obtain ⟨_, _, -, htarget, h⟩ := Yields.of_ask_bind (Yields.of_throwSome h)
  obtain ⟨⟨_, _⟩, -, h⟩ := Yields.of_orThrow h
  obtain ⟨file, _, -, hsigner, h⟩ := Yields.of_ask_bind (Yields.of_require h).2
  obtain ⟨hne, h⟩ := Yields.of_require h
  obtain ⟨-, h⟩ := (Yields.of_require h).2
  cases h
  exact ⟨hkey, hversion, ⟨file, by simp [hfirst, hrefuse, htarget, hsigner], rfl⟩, of_decide_eq_true hne⟩

/-- What an install has fetched. -/
structure Delivered (env : Platform) (key version token base team digest : String) (bundle archive : Bytes)
    (past : List (Script.Event Answer)) : Prop where
  descriptor : ∃ body desc, ⟨.entitledGet base (descriptorPath key version) token team, some (body, 200)⟩ ∈ past ∧
    env.decodeDescriptor body = some desc ∧ desc.digest = digest ∧ env.decodeBase64 desc.bundle = some bundle
  archive : ⟨.entitledGet base (descriptorPath key version ++ "/content") token team, some (archive, 200)⟩ ∈ past

variable {archive : Bytes} {base team : String}

lemma Delivered.mono {digest : String} {bundle : Bytes}
    (h : Delivered env key version token base team digest bundle archive past) (hsub : past ⊆ past') :
    Delivered env key version token base team digest bundle archive past' := by
  obtain ⟨body, desc, hbody, hdesc⟩ := h.descriptor
  exact ⟨⟨body, desc, hsub hbody, hdesc⟩, hsub h.archive⟩

lemma entitledOutcome_eq_ok {fetched : Fetched} {body : Bytes} (h : entitledOutcome fetched = .ok body) :
    fetched = some (body, 200) := by
  unfold entitledOutcome at h
  split at h
  · cases h
  · split_ifs at h with hstatus
    cases h
    rw [hstatus]

lemma of_fetchArtifact {x : String × Bytes × Bytes}
    (h : Finds env d (fetchArtifact env base team key version token) events x) :
    Delivered env key version token base team x.1 x.2.1 x.2.2 events := by
  obtain ⟨_, _, -, hfirst, h⟩ := Yields.of_ask_bind h
  obtain ⟨body, hbody, h⟩ := Yields.of_lift h
  obtain ⟨desc, hdesc, h⟩ := Yields.of_orThrow h
  obtain ⟨bundle, hbundle, h⟩ := Yields.of_orThrow (Yields.of_require (Yields.of_require h).2).2
  obtain ⟨_, _, -, hsecond, h⟩ := Yields.of_ask_bind h
  obtain ⟨archive, harchive, -, h⟩ := Yields.of_lift h
  cases h
  cases entitledOutcome_eq_ok hbody
  cases entitledOutcome_eq_ok harchive
  rw [hfirst, hsecond]
  exact ⟨⟨body, desc, .head _, hdesc, rfl, hbundle⟩, .tail _ (.head _)⟩

/-- What is extracted for a key is the payload of an archive. -/
def Extracted (env : Platform) (archive : Bytes) (key : String) (d : Disk) : Prop :=
  ∃ dirs, env.tools.unpack archive = some dirs ∧ d.get? (.staging key) = (dirs.get? key).map .dir

/-- The staged payload of an archive has a stamp with its digest. -/
def Stamped (env : Platform) (archive : Bytes) (key : String) (stamp : Stamp) (d : Disk) : Prop :=
  ∃ dirs payload, env.tools.unpack archive = some dirs ∧ dirs.get? key = some payload ∧
    d.get? (.staging key) = some (.dir payload) ∧
    (payload.get? stampFilename).join.bind env.tools.decodeStamp = some stamp ∧
    env.tools.compute payload = some stamp.payloadDigest

/-- What is read of the staged payload is what is stamped. -/
lemma stamped_of_extracted {computed : String} {stamp : Stamp}
    (h : Extracted env archive key d) (hcompute : (d.tree? (.staging key)).bind env.tools.compute = some computed)
    (hstamp : (d.file? (.staging key) stampFilename).bind env.tools.decodeStamp = some stamp)
    (hdigest : stamp.payloadDigest = computed) : Stamped env archive key stamp d := by
  obtain ⟨dirs, hdirs, hget⟩ := h
  rw [Disk.tree?_of_dir hget] at hcompute
  obtain ⟨payload, hpayload, hcompute⟩ := Option.bind_eq_some_iff.1 hcompute
  rw [Disk.file?_of_dir hget, hpayload] at hstamp
  refine ⟨dirs, payload, hdirs, hpayload, ?_, hstamp, ?_⟩
  · rw [hget, hpayload]
    rfl
  · rw [hcompute, hdigest]

lemma compute_tells {a : Option String} (h : Tells env d (.compute p) a) :
    a = none ∨ a = (d.tree? p).bind env.tools.compute := by
  obtain ⟨_, o, w, w', rfl, h⟩ := h
  cases h
  exact ite_eq_or_eq ..

lemma readStamp_tells {a : Option Stamp} (h : Tells env d (.readStamp p) a) :
    a = none ∨ a = (d.file? p stampFilename).bind env.tools.decodeStamp := by
  obtain ⟨_, o, w, w', rfl, h⟩ := h
  cases h
  exact ite_eq_or_eq ..

/-- A stamp that is accepted has the digest of its payload, and is read last. -/
lemma of_checkPayload {stamp : Stamp} (hextracted : Extracted env archive key d)
    (h : Finds env d (checkPayload fileOps key) events (.ok stamp)) :
    Stamped env archive key stamp d ∧ (past ++ events).getLast?.any isStampRead = true := by
  obtain ⟨isDir, _, _, hfirst, -, h⟩ := Yields.of_bind h
  cases isDir with
  | false => cases h.2
  | true =>
    obtain ⟨computed, _, hcomputed, hsecond, h⟩ := h
    cases computed with
    | none => cases h.2
    | some computed =>
      obtain ⟨stamp', _, hstamp, hthird, h⟩ := h
      cases stamp' with
      | none => cases h.2
      | some stamp' =>
        change Script.Yields _ (if stamp'.payloadDigest ≠ computed then _ else _) _ _ at h
        split_ifs at h with hdigest
        · cases h.2
        · obtain ⟨hlast, h⟩ := h
          cases h
          refine ⟨stamped_of_extracted hextracted ?_ ?_ (not_not.1 hdigest), ?_⟩
          · exact ((compute_tells hcomputed).resolve_left nofun).symm
          · exact ((readStamp_tells hstamp).resolve_left nofun).symm
          · simp [hfirst, hsecond, hthird, hlast, isStampRead]

/-- A call that changes the modules directory, of which what it leaves is known. -/
lemma held_change {R : Answer c → Disk → Prop} (hc : c.placesNothing = true)
    (hP : ∀ past e, P past → P (past ++ [e])) (hleft : ∀ (o : Outside) (w : World) (a : Answer c) (w' : World),
      act env i o { w with clock := w.clock + o.elapsed } c = some (a, w') → R a w'.modules) :
    Places env i req (fun past _ _ => P past) (ask c) (fun a past _ d => P past ∧ R a d) :=
  held_ask hc (lasts_past hP).log fun _ _ w o a w' hs hact _ => ⟨hP _ _ hs, hleft o w a w' hact⟩

lemma extracted_of_act (archive : Bytes) (key : String) (o : Outside) (w : World) (a : Answer (.extract archive key))
    (w' : World) (h : act env i o { w with clock := w.clock + o.elapsed } (.extract archive key) = some (a, w')) :
    a = true → Extracted env archive key w'.modules := by
  rintro rfl
  obtain ⟨d, hd, rfl⟩ := act_files h rfl
  simp only [actFiles] at hd
  split at hd
  · cases hd
  · rename_i dirs hdirs
    obtain ⟨hfails, hput⟩ := Prod.mk.inj (Option.some.inj hd)
    refine ⟨dirs, hdirs, ?_⟩
    rw [← hput, get?_put, if_pos rfl]
    simp only [not_eq_true'] at hfails
    rw [hfails]
    simp

lemma stage_triple (hP : ∀ past e, P past → P (past ++ [e]))
    (archive bundle : Bytes) (identity issuer expectedDigest key : String) :
    Places env i req (fun past _ _ => P past)
      (stage fileOps env.tools archive bundle identity issuer expectedDigest key) fun r past _ d => P past ∧
        ∀ stamp, r = .ok stamp →
        (env.tools.verifyBlob archive bundle identity issuer = true ∧
          "sha256:" ++ env.tools.sha256 archive = expectedDigest ∧ Stamped env archive key stamp d) ∧
        past.getLast?.any isStampRead = true := by
  unfold stage
  cases hchecks : stageChecks env.tools archive bundle identity issuer expectedDigest key with
  | error e => exact ends_ret fun _ _ _ hs => ⟨hs, nofun⟩
  | ok u =>
    obtain ⟨-, hverify, hdigest⟩ := stageChecks_eq_ok hchecks
    have hlasts := lasts_past hP
    refine ends_bind (held_change (R := fun _ _ => True) rfl hP fun _ _ _ _ _ => trivial) fun cleared => ?_
    cases cleared with
    | false => exact ends_ret fun _ _ _ hs => ⟨hs.1, nofun⟩
    | true =>
      refine held_weaken (L := fun past _ _ => P past) ?_ fun _ _ _ hs => hs.1
      refine ends_bind (held_change (R := fun a d => a = true → Extracted env archive key d) rfl hP
        (extracted_of_act archive key)) fun extracted => ?_
      cases extracted with
      | false => exact ends_ret fun _ _ _ hs => ⟨hs.1, nofun⟩
      | true =>
        refine held_weaken (L := fun past _ d => P past ∧ Extracted env archive key d) ?_
          fun _ _ _ hs => ⟨hs.1, hs.2 rfl⟩
        refine places_mono (held_reads (hlasts.and_disk _) (looks_checkPayload key).reads) fun r past _ d hs => ?_
        obtain ⟨⟨hpast, hextracted⟩, past', events, rfl, hfinds⟩ := hs
        refine ⟨hpast, ?_⟩
        rintro stamp rfl
        exact (of_checkPayload hextracted hfinds).imp_left fun hstamped => ⟨hverify, hdigest, hstamped⟩

/-- What an install knows when it has staged a payload. -/
def Staged (env : Platform) (key version token : String) (payload : Tree) (past : List (Script.Event Answer)) : Prop :=
  ∃ x : Download, x.payload = payload ∧ Verified env key version token past x

lemma Staged.append {payload : Tree} (h : Staged env key version token payload past)
    (e : Script.Event Answer) : Staged env key version token payload (past ++ [e]) := by
  obtain ⟨x, hx, hverified⟩ := h
  exact ⟨x, hx, { hverified with
    file := mem_append_left _ hverified.file
    body := mem_append_left _ hverified.body
    archive := mem_append_left _ hverified.archive }⟩

/-- An install, as it is asked for. -/
structure Install where
  id : String
  token : String
  key : String
  version : String
  allowDowngrade : Bool

namespace Install

def request (x : Install) : Request :=
  .installArtifact x.id x.token x.key x.version x.allowDowngrade

/-- A verified payload is staged, with what is done to it. -/
def StagedAs (x : Install) (env : Platform) (done : Tree → Tree) : Fact :=
  fun past _ d => ∃ payload, Staged env x.key x.version x.token payload past ∧
    d.get? (.staging x.key) = some (.dir (done payload))

/-- A verified payload is staged as it is, and its stamp was read last. -/
def JustStaged (x : Install) (env : Platform) : Fact :=
  fun past log d => x.StagedAs env (fun payload => payload) past log d ∧ past.getLast?.any isStampRead = true

end Install

variable {x : Install} {done : Tree → Tree}

lemma Install.StagedAs.append (h : x.StagedAs env done past log d) (e : Script.Event Answer)
    (log' : List LogStep) : x.StagedAs env done (past ++ [e]) log' d := by
  obtain ⟨payload, hstaged, hget⟩ := h
  exact ⟨payload, hstaged.append e, hget⟩

lemma discarded_triple (key : String) : Places env i req F (do discardStaging key; throw e) G :=
  held_weaken (ends_bind (held_work (work_discardStaging key)) fun _ => ends_throw) fun _ _ _ _ => trivial

/-- The payload that is staged was verified for the key and the version. -/
lemma stageVerified_triple (base team pre digest : String) (bundle archive : Bytes) :
    Places env i req (fun past _ _ => Targeted env x.key x.version pre past ∧
        Delivered env x.key x.version x.token base team digest bundle archive past)
      (stageVerified env pre x.key x.version digest bundle archive) fun _ => x.JustStaged env := by
  refine ends_bind (stage_triple (fun past e h => ⟨h.1.mono (subset_append_left _ _),
    h.2.mono (subset_append_left _ _)⟩) _ _ _ _ _ _) fun result => ?_
  cases result with
  | error e => exact discarded_triple x.key
  | ok stamp =>
    show (placingContract env).Triple _ i req _ (if stamp.name = x.key ∧ stamp.version = x.version then _ else _) _
    split_ifs with hnames
    · refine ends_ret fun past _ d hs => ?_
      obtain ⟨⟨hverify, hdigest, dirs, payload, hdirs, hpayload, hget, hstamp, hcompute⟩, hlast⟩ := hs.2 stamp rfl
      obtain ⟨file, hfile, hsigner⟩ := hs.1.1.signer
      obtain ⟨body, desc, hbody, hdesc, rfl, hbundle⟩ := hs.1.2.descriptor
      let y : Download := ⟨file, pre, base, team, body, desc, bundle, archive, dirs, payload, stamp⟩
      refine ⟨⟨payload, ⟨y, rfl, ?_⟩, hget⟩, hlast⟩
      exact ⟨hs.1.1.key_valid, hs.1.1.version_valid, hfile, hsigner, hs.1.1.signer_ne, hbody, hdesc, hbundle,
        hs.1.2.archive, hverify, hdigest.symm ▸ rfl, hdirs, hpayload, hstamp, hnames.1, hnames.2, hcompute⟩
    · exact discarded_triple x.key

/-! ## What is placed -/

/-- A payload is staged, and what is installed is not newer unless it may be. -/
structure Install.Ready (x : Install) (env : Platform) (done : Tree → Tree) (past : List (Script.Event Answer))
    (log : List LogStep) (d : Disk) : Prop where
  staged : x.StagedAs env done past log d
  notNewer : isDowngrade x.version x.allowDowngrade (installedMarker env d (.moduleDir x.key)) = false

lemma Install.Ready.lasts : Fact.Lasts (x.Ready env done) where
  past _ _ _ e hs := ⟨hs.staged.append e _, hs.notNewer⟩
  log _ _ _ _ hs := ⟨hs.staged, hs.notNewer⟩

lemma exists_dir_of_installedMarker {marker : ArtifactMarker}
    (h : installedMarker env d p = some marker) : ∃ tree, d.get? p = some (.dir tree) := by
  unfold installedMarker at h
  split at h
  · exact ⟨_, by assumption⟩
  · cases h

/-- The marker of what is installed, as an install reads it before it compares the versions. -/
lemma readInstalled_triple :
    Places env i x.request (x.JustStaged env) (readArtifactMarker env (.moduleDir x.key)) fun r past log d =>
      x.StagedAs env (fun payload => payload) past log d ∧
      (r = none → isDowngrade x.version x.allowDowngrade (installedMarker env d (.moduleDir x.key)) = false) ∧
      ∀ marker, r = some marker → ∀ installed, installedMarker env d (.moduleDir x.key) = some installed →
        installed = marker := by
  refine ends_bind (G := fun content past log d => x.StagedAs env (fun payload => payload) past log d ∧
    (parseArtifactMarker env content = none →
      isDowngrade x.version x.allowDowngrade (installedMarker env d (.moduleDir x.key)) = false) ∧
    (content = none ∨ content = d.file? (.moduleDir x.key) artifactMarkerName)) ?_ fun content => ?_
  · refine held_ask rfl (fun _ _ _ _ hs => hs) fun past log w o a w' hs hact hoverlooks => ?_
    have hmodules : w'.modules = w.modules := (act_frame hact).modules rfl
    rw [hmodules]
    refine ⟨hs.1.append _ _, fun hnone => ?_, ?_⟩
    · simpa [overlooks, Install.request, Step.event, hs.2, hnone] using hoverlooks
    · cases hact
      cases o.fails with
      | true => exact .inl rfl
      | false => exact .inr rfl
  · refine ends_ret fun past _ d hs => ⟨hs.1, hs.2.1, fun marker hmarker installed hinstalled => ?_⟩
    obtain ⟨tree, htree⟩ := exists_dir_of_installedMarker hinstalled
    rcases hs.2.2 with rfl | rfl
    · cases hmarker
    · rw [file?_of_tree? (tree?_of_dir htree)] at hmarker
      rw [installedMarker_of_dir htree] at hinstalled
      exact Option.some.inj (hinstalled.symm.trans hmarker)

/-- An install that goes on has compared the versions. -/
lemma refuseDowngrade_triple :
    Places env i x.request (x.JustStaged env) (refuseDowngrade env x.key x.version x.allowDowngrade)
      fun _ => x.Ready env fun payload => payload := by
  refine ends_bind readInstalled_triple fun marker => ?_
  cases marker with
  | none => exact ends_ret fun _ _ _ hs => ⟨hs.1, hs.2.1 rfl⟩
  | some marker =>
    dsimp only
    cases hcompare : compareVersion x.version marker.version with
    | none => exact ends_throw
    | some ordering =>
      show (placingContract env).Triple _ i _ _ (require _ _) _
      cases hallowed : (decide (ordering ≠ .lt) || x.allowDowngrade) with
      | false => exact ends_throw
      | true =>
        refine ends_ret fun past _ d hs => ⟨hs.1, ?_⟩
        cases hinstalled : installedMarker env d (.moduleDir x.key) with
        | none => rfl
        | some installed =>
          cases hs.2.2 marker rfl installed hinstalled
          simp only [isDowngrade, Option.any_some, hcompare]
          cases ordering with
          | lt => simpa using hallowed
          | eq | gt => rfl

/-- A payload with the marker of an artifact. -/
def Install.marked (x : Install) (env : Platform) (time : ℕ) (payload : Tree) : Tree :=
  payload.set artifactMarkerName (some (env.encodeArtifactMarker ⟨artifactMarkerSchema, x.key, x.version, time⟩))

variable {d d' : Disk}

lemma installedMarker_congr (h : d'.get? p = d.get? p) :
    installedMarker env d' p = installedMarker env d p := by
  unfold installedMarker
  rw [h]

lemma writeFile_of_dir {tree : Tree} {name : String} {content : Bytes}
    (h : d.get? p = some (.dir tree)) (hwrite : d.writeFile p name content = some d') :
    d' = d.set p (.dir (tree.set name (some content))) := by
  have hfollow : d.follow p = some p := by
    unfold Disk.follow Disk.maxLinks Disk.followLinks
    rw [h]
  unfold Disk.writeFile at hwrite
  simp only [hfollow, h, Option.bind_eq_bind, Option.bind_some] at hwrite
  split_ifs at hwrite
  · cases hwrite
  · exact (Option.some.inj hwrite).symm

lemma Install.Ready.mark {time : ℕ} (h : x.Ready env (fun payload => payload) past log d)
    (hwrite : d.writeFile (.staging x.key) artifactMarkerName
      (env.encodeArtifactMarker ⟨artifactMarkerSchema, x.key, x.version, time⟩) = some d') :
    x.Ready env (x.marked env time) past log d' := by
  obtain ⟨payload, hstaged, hget⟩ := h.staged
  cases writeFile_of_dir hget hwrite
  refine ⟨⟨payload, hstaged, ?_⟩, ?_⟩
  · rw [get?_set, if_pos rfl]
    rfl
  · rw [installedMarker_congr (d := d) (by rw [get?_set, if_neg nofun])]
    exact h.notNewer

/-- A staged payload that is marked is ready with its marker. -/
lemma mark_triple (time : ℕ) :
    Places env i req (x.Ready env fun payload => payload) (ask (.writeFile (.staging x.key) artifactMarkerName
        (env.encodeArtifactMarker ⟨artifactMarkerSchema, x.key, x.version, time⟩)))
      fun written past log d => written = true → x.Ready env (x.marked env time) past log d := by
  refine held_ask rfl Install.Ready.lasts.log fun past log w o a w' hs hact _ hwritten => ?_
  obtain ⟨d, hd, rfl⟩ := act_files hact rfl
  simp only [actFiles] at hd
  split_ifs at hd
  · cases hd
    cases hwritten
  · split at hd
    · cases hd
      cases hwritten
    · rename_i d' hwrite
      cases hd
      exact Install.Ready.lasts.past past _ _ _ (Install.Ready.lasts.log _ _ _ _ (hs.mark hwrite))

/-- What an install may replace: nothing, or a directory with an accepted marker. -/
def Replaceable (env : Platform) (key : String) (d : Disk) : Prop :=
  d.get? (.moduleDir key) = none ∨ (installedMarker env d (.moduleDir key)).isSome = true

lemma get?_of_removeAll {p q : Path} {a : Answer (.removeAll p)} (hq : p ≠ q)
    (h : act env i o w (.removeAll p) = some (a, w')) : w'.modules.get? q = w.modules.get? q := by
  obtain ⟨d, hd, rfl⟩ := act_files h rfl
  cases hd
  split_ifs
  · unfold Disk.removeSome
    split
    · rw [get?_set, if_neg hq]
    · rfl
  · rw [get?_erase, if_neg hq]

/-- What was at the target of an install is in its backup. -/
def MovedAside (i : ℕ) (key : String) (log : List LogStep) (d : Disk) : Prop :=
  ∃ st ∈ log, st.thread = i ∧ st.event = ⟨.rename (.moduleDir key) (.backup key), true⟩ ∧
    st.before.modules.get? (.moduleDir key) = d.get? (.backup key)

lemma held_rename {p q : Path} {G : Bool → Fact} (hF : F.Stays)
    (hgood : ∀ past log w, F past log w.modules → ∀ d, w.modules.rename p q = some d → ∀ w',
      PlacesVerified env log ⟨i, req, past, .rename p q, true, w, w'⟩ ∧
        MovesOlder env ⟨i, req, past, .rename p q, true, w, w'⟩)
    (hdone : ∀ past log w, F past log w.modules → ∀ d, w.modules.rename p q = some d → ∀ w',
      G true (past ++ [⟨.rename p q, true⟩]) (log ++ [⟨i, req, past, .rename p q, true, w, w'⟩]) d)
    (hfailed : ∀ past log d, F past log d → ∀ e st, G false (past ++ [e]) (log ++ [st]) d) :
    Places env i req F (ask (.rename p q)) G := by
  refine .ask (stable_held hF) fun past log w o a w' _ hs hexec _ => ?_
  have hheld : w'.modulesOps = some i := ((exec_frame hexec).modulesOps rfl).trans hs.1
  obtain ⟨d, hd, hw'⟩ := act_files (act_of_exec hexec) rfl
  simp only [actFiles] at hd
  split at hd
  · cases hd
    subst hw'
    refine ⟨⟨trivial, fun _ => hs.1, fun _ _ ha => (by cases ha), fun _ _ ha => (by cases ha)⟩, hheld, fun a ha => ?_⟩
    cases ha
    exact hfailed _ _ _ hs.2 _ _
  · rename_i d' hrename
    cases hd
    have hrename : w.modules.rename p q = some d := by
      split_ifs at hrename
      exact hrename
    obtain ⟨hplaces, hmoves⟩ := hgood past log w hs.2 d hrename w'
    refine ⟨⟨trivial, fun _ => hs.1, hplaces, hmoves⟩, hheld, fun a ha => ?_⟩
    cases ha
    rw [hw']
    exact hdone _ _ _ hs.2 _ hrename _

section

variable {time : ℕ}

/-- What is moved aside for an install leaves its place, and is found again in the backup. -/
lemma moveAside_triple :
    Places env i x.request (x.Ready env (x.marked env time)) (ask (.rename (.moduleDir x.key) (.backup x.key)))
      fun done past log d => done = true → x.StagedAs env (x.marked env time) past log d ∧
        d.get? (.moduleDir x.key) = none ∧ MovedAside i x.key log d := by
  refine held_rename Install.Ready.lasts.log
    (fun past log w hs d _ w' => ⟨fun p name hevent => ?_, fun name q hevent => ?_⟩)
    (fun past log w hs d hrename w' _ => ?_) fun _ _ _ _ _ _ => nofun
  · cases hevent
  · cases hevent
    exact ⟨x.id, x.token, x.version, x.allowDowngrade, rfl, hs.notNewer⟩
  · obtain ⟨entry, hentry, -, hget⟩ := Disk.get?_rename hrename
    obtain ⟨payload, hstaged, hpayload⟩ := hs.staged
    refine ⟨⟨payload, hstaged.append _, ?_⟩, ?_, _, mem_append_right _ (mem_singleton_self _), rfl, rfl, ?_⟩
    · rw [hget, if_neg nofun, if_neg nofun, hpayload]
    · rw [hget, if_neg nofun, if_pos rfl]
    · rw [hget, if_pos rfl, hentry]

/-- The payload takes its place when nothing is there. -/
lemma placed_of_stagedAs {w w' : World} (hstaged : x.StagedAs env (x.marked env time) past log w.modules)
    (hnone : w.modules.get? (.moduleDir x.key) = none) :
    PlacesVerified env log ⟨i, x.request, past, .rename (.staging x.key) (.moduleDir x.key), true, w, w'⟩ ∧
      MovesOlder env ⟨i, x.request, past, .rename (.staging x.key) (.moduleDir x.key), true, w, w'⟩ := by
  refine ⟨fun p name hevent => ?_, fun name q hevent => ?_⟩
  · cases hevent
    obtain ⟨payload, ⟨y, rfl, hverified⟩, hget⟩ := hstaged
    exact .inl ⟨x.id, x.token, x.version, x.allowDowngrade, y, time, rfl, rfl, hverified, hget, hnone⟩
  · cases hevent

lemma MovedAside.append {log : List LogStep} {d : Disk} (h : MovedAside i key log d) (st : LogStep) :
    MovedAside i key (log ++ [st]) d := by
  obtain ⟨st', hst', hmoved⟩ := h
  exact ⟨st', mem_append_left _ hst', hmoved⟩

lemma restore_triple :
    Runs env i req (fun _ log d => MovedAside i key log d) (ask (.rename (.backup key) (.moduleDir key))) := by
  refine held_rename (fun _ _ _ st hs => hs.append st) (fun past log w hs d _ w' => ⟨fun p name hevent => ?_,
    fun name q hevent => ?_⟩) (fun _ _ _ _ _ _ _ => trivial) fun _ _ _ _ _ _ => trivial
  · cases hevent
    obtain ⟨st', hst', hthread, hmoved, hentry⟩ := hs
    exact .inr ⟨rfl, st', hst', hthread, hmoved, hentry⟩
  · cases hevent

lemma clearBackup_triple {F : Fact} {r : SwapResult Denied} :
    Runs env i req F (do let _ ← ask (.removeAll (.backup key)); return r : Handler (SwapResult Denied)) :=
  held_weaken (ends_bind (held_work (every_ask rfl)) fun _ => runs_ret) fun _ _ _ _ => trivial

/-- A payload that cannot take its place lets what was moved aside come back. -/
lemma renameIn_triple_of_moved :
    Runs env i x.request (fun past log d => x.StagedAs env (x.marked env time) past log d ∧
        d.get? (.moduleDir x.key) = none ∧ MovedAside i x.key log d)
      (renameIn fileOps (.moduleDir x.key) (.staging x.key) (.backup x.key) true : Handler (SwapResult Denied)) := by
  have hrename : Places env i x.request (fun past log d => x.StagedAs env (x.marked env time) past log d ∧
        d.get? (.moduleDir x.key) = none ∧ MovedAside i x.key log d)
      (ask (.rename (.staging x.key) (.moduleDir x.key)))
      fun done _ log d => done = false → MovedAside i x.key log d :=
    held_rename (fun _ _ _ st hs => ⟨hs.1, hs.2.1, hs.2.2.append st⟩)
      (fun _ _ _ hs _ _ _ => placed_of_stagedAs hs.1 hs.2.1) (fun _ _ _ _ _ _ _ => nofun)
      fun _ _ _ hs _ st _ => hs.2.2.append st
  refine ends_bind hrename fun done => ?_
  cases done with
  | true => exact clearBackup_triple
  | false =>
    refine held_weaken (L := fun _ log d => MovedAside i x.key log d) ?_ fun _ _ _ hs => hs rfl
    refine ends_bind restore_triple fun restored => ?_
    cases restored with
    | true | false => exact runs_ret

lemma not_replaces_of_installedMarker {d : Disk} {p : Path} {tree : Tree}
    (h : (installedMarker env d p).isSome = true) : (d.get? p).all (Entry.dir tree).replaces = false := by
  obtain ⟨marker, hmarker⟩ := Option.isSome_iff_exists.1 h
  obtain ⟨installed, hinstalled⟩ := exists_dir_of_installedMarker hmarker
  rw [hinstalled]
  rfl

/-- A payload is ready with its marker, and what is installed may be replaced. -/
def Install.Places (x : Install) (env : Platform) (time : ℕ) : Fact :=
  fun past log d => x.Ready env (x.marked env time) past log d ∧ Replaceable env x.key d

/-- A payload takes the place of nothing. -/
lemma renameIn_triple_of_ready : Runs env i x.request (x.Places env time)
    (renameIn fileOps (.moduleDir x.key) (.staging x.key) (.backup x.key) false : Handler (SwapResult Denied)) := by
  have hrename : Runs env i x.request (x.Places env time) (ask (.rename (.staging x.key) (.moduleDir x.key))) := by
    refine held_rename (Install.Ready.lasts.and_disk _).log
      (fun past log w hs d hrename w' => placed_of_stagedAs hs.1.staged ?_)
      (fun _ _ _ _ _ _ _ => trivial) fun _ _ _ _ _ _ => trivial
    refine hs.2.resolve_right fun hmarker => ?_
    obtain ⟨payload, -, hpayload⟩ := hs.1.staged
    obtain ⟨entry, hentry, hreplaces, -⟩ := Disk.get?_rename hrename
    cases hpayload.symm.trans hentry
    rw [not_replaces_of_installedMarker hmarker] at hreplaces
    cases hreplaces
  refine ends_bind hrename fun done => ?_
  cases done with
  | true => exact clearBackup_triple
  | false => exact runs_ret

lemma swap_triple : Runs env i x.request (x.Ready env (x.marked env time))
    (swap fileOps (.moduleDir x.key) (.staging x.key) (.backup x.key) (some (refuseForeignDirectory env))) := by
  refine ends_bind (held_reads Install.Ready.lasts (looks_refuseForeignDirectory _).reads) fun refusal => ?_
  cases refusal with
  | some e => exact runs_ret
  | none =>
    have hclear : Places env i x.request (x.Places env time) (ask (.removeAll (.backup x.key)))
        fun _ => x.Places env time := by
      refine held_ask rfl (Install.Ready.lasts.and_disk _).log fun past log w o a w' hs hact _ => ?_
      have htarget := get?_of_removeAll (p := .backup x.key) (q := .moduleDir x.key) nofun hact
      have hstaging := get?_of_removeAll (p := .backup x.key) (q := .staging x.key) nofun hact
      obtain ⟨payload, hstaged, hpayload⟩ := hs.1.staged
      refine ⟨⟨⟨payload, hstaged.append _, hstaging.trans hpayload⟩, ?_⟩, ?_⟩
      · rw [installedMarker_congr htarget]
        exact hs.1.notNewer
      · rw [Replaceable, htarget, installedMarker_congr htarget]
        exact hs.2
    refine held_weaken (L := x.Places env time) ?_ fun _ _ _ ⟨hready, _, _, _, hfinds⟩ => ⟨hready, ?_⟩
    swap
    · refine (of_refuseForeignDirectory hfinds).imp_right fun ⟨tree, htree, hmarker⟩ => ?_
      rwa [installedMarker_of_dir htree]
    refine ends_bind hclear fun _ =>
      ends_bind (held_question rfl rfl (Install.Ready.lasts.and_disk (Replaceable env x.key))) fun answer => ?_
    split_ifs
    · refine held_weaken (ends_bind moveAside_triple fun done => ?_) fun _ _ _ hs => hs.1
      cases done with
      | true => exact held_weaken renameIn_triple_of_moved fun _ _ _ hs => hs rfl
      | false => exact runs_ret
    · exact renameIn_triple_of_ready

end

/-! ## The requests -/

lemma placeArtifact_triple :
    Runs env i x.request (x.JustStaged env) (placeArtifact env x.key x.version x.allowDowngrade) := by
  have hready : Fact.Lasts (x.Ready env fun payload => payload) := Install.Ready.lasts
  refine ends_bind refuseDowngrade_triple fun _ => ends_bind (held_question rfl rfl hready) fun _ => ?_
  refine ends_require fun _ => ends_bind (held_question rfl rfl hready) fun _ => ends_require fun _ => ?_
  refine ends_bind (held_question rfl rfl hready) fun time => ?_
  refine ends_bind (mark_triple time) fun written => ends_require fun hwritten => ?_
  refine held_weaken (ends_bind swap_triple fun result => ?_) fun _ _ _ hs => hs hwritten
  cases result with
  | refused e | asideFailed | notInstalled => exact ends_throw
  | installed => exact runs_ret

lemma deferredDiscard_triple (key : String) :
    (placingContract env).Triple (machine env).exec i req (Held i Anything) (discardStaging key)
      fun r past log w => r = .ok ⟨⟩ ∧ Held i Anything past log w := by
  refine Contract.Triple.bind (R := fun r past log w => (∃ a, r = .ok a) ∧ Held i Anything past log w) ?_
    (fun _ => .ret fun _ _ _ _ hs => ⟨rfl, hs.2⟩) fun _ _ _ _ _ hs => absurd hs.1 nofun
  refine .ask (stable_held fun _ _ _ _ _ => trivial) fun past log w o a w' _ hs hexec _ => ?_
  obtain ⟨hkept, hheld⟩ := held_step rfl hs.1 hexec
  exact ⟨hkept, ⟨a, rfl⟩, hheld, trivial⟩

lemma installLocked_triple : Runs env i x.request Anything (do
    let _ ← stageArtifact env x.key x.version x.token
    (placeArtifact env x.key x.version x.allowDowngrade).deferring (discardStaging x.key)
    return Response.installed) := by
  refine ends_bind (G := fun _ => x.JustStaged env) ?_ fun _ => ?_
  · have hanything : Fact.Lasts Anything := ⟨fun _ _ _ _ _ => trivial, fun _ _ _ _ _ => trivial⟩
    refine ends_bind (held_reads hanything (reads_artifactTarget ..)) fun target => ?_
    refine held_weaken (L := fun past _ _ => Targeted env x.key x.version target.2.2 past) ?_ fun _ _ _ hs => ?_
    · refine ends_bind (held_reads (lasts_past fun past e hs => hs.mono (subset_append_left _ _))
        (reads_fetchArtifact ..)) fun fetched => ?_
      obtain ⟨digest, bundle, archive⟩ := fetched
      refine held_weaken (stageVerified_triple target.1 target.2.1 target.2.2 digest bundle archive) fun _ _ _ hs => ?_
      obtain ⟨htargeted, _, _, rfl, hfinds⟩ := hs
      exact ⟨htargeted, (of_fetchArtifact hfinds).mono (subset_append_right _ _)⟩
    · obtain ⟨-, _, _, rfl, hfinds⟩ := hs
      exact (of_artifactTarget hfinds).mono (subset_append_right _ _)
  · refine ends_bind (G := fun _ => Anything) ?_ fun _ => runs_ret
    refine Contract.Triple.deferring placeArtifact_triple fun r => ?_
    refine (deferredDiscard_triple x.key).mono (fun _ _ _ _ hs => ⟨hs.1, trivial⟩) fun r' _ _ _ _ hs => ?_
    exact ⟨hs.1, hs.2.1, fun _ _ => trivial⟩

/-- A script that keeps to the contract from any point on. -/
abbrev Keeps {α : Type} (env : Platform) (i : ℕ) (req : Request) (script : Handler α) : Prop :=
  (placingContract env).Triple (machine env).exec i req (fun _ _ _ => True) script fun _ _ _ _ => True

lemma stable_true : (placingContract env).Stable (machine env).exec i fun _ _ _ => True :=
  Contract.stable_past fun _ => True

/-- A call that has nothing to do with the modules directory. -/
def Call.isApart (c : Call) : Bool :=
  !c.changesModules && !c.isModulesLock

lemma kept_of_isApart (hc : c.isApart = true) {a : Answer c} {w w' : World} :
    (placingContract env).Kept log ⟨i, req, past, c, a, w, w'⟩ := by
  obtain ⟨hchanges, hlock⟩ := and_eq_true_iff.1 hc
  refine ⟨trivial, fun h => ?_, ?_⟩
  · cases c with
    | unlockModules => cases hlock
    | mkdir _ | remove _ | writeFile _ _ _ | removeAll _ | rename _ _ | extract => cases hchanges
    | _ => cases h
  · apply places_of_placesNothing
    cases c with
    | rename => cases hchanges
    | tryLockModules | unlockModules => cases hlock
    | _ => rfl

lemma keeps_of_isApart (h : script.Every fun c => c.isApart = true) : Keeps env i req script :=
  .mono (.every stable_true (fun _ hc _ _ _ _ _ _ _ _ _ _ => ⟨kept_of_isApart hc, trivial⟩) h) (fun _ _ _ _ hs => hs)
    fun _ _ _ _ _ _ => trivial

lemma keeps_bind (h : Keeps env i req first)
    (hf : ∀ x, Keeps env i req (f x)) : Keeps env i req (first >>= f) :=
  h.bind hf fun _ _ _ _ _ _ => trivial

lemma keeps_require {b : Bool} {f : PUnit → Handler β} (h : Keeps env i req (f ⟨⟩)) :
    Keeps env i req (require b e >>= f) :=
  .require (fun _ => h) fun _ _ _ _ _ => trivial

lemma keeps_withModulesOps {body : Handler α}
    (h : Runs env i req Anything body) : Keeps env i req (withModulesOps body) := by
  refine Contract.Triple.bind (R := fun r past log w => r = .ok true → Held i Anything past log w) ?_
    (fun locked => .require (fun hlocked => ?_) fun _ _ _ _ _ => trivial) fun _ _ _ _ _ _ => trivial
  · refine .ask stable_true fun past log w o a w' _ _ hexec _ =>
      ⟨⟨trivial, fun ha => (by cases ha), fun _ _ ha => (by cases ha), fun _ _ ha => (by cases ha)⟩, fun ha => ?_⟩
    cases ha
    have hact := act_of_exec hexec
    simp only [act] at hact
    split_ifs at hact <;> cases hact
    exact ⟨rfl, trivial⟩
  · refine Contract.Triple.weaken ?_ fun _ _ _ _ hs => hs (by rw [hlocked])
    refine Contract.Triple.deferring h fun r => .ask ?_ fun past log w o a w' _ hs _ _ => ?_
    · intro past log st hs hinv hinter hne hserves htakes hok hkept
      have hheld := stable_held (F := Anything) (fun _ _ _ _ _ => trivial) past log st ⟨hs.1, trivial⟩ hinv
        hinter hne hserves htakes hok hkept
      exact ⟨hheld.1, fun _ _ => trivial⟩
    · exact ⟨⟨trivial, fun _ => hs.1, fun _ _ ha => (by cases ha), fun _ _ ha => (by cases ha)⟩, rfl, trivial⟩

lemma Call.isApart_of_isQuestion (h : c.isQuestion = true) : c.isApart = true := by
  cases c with
  | valid _ | readModeLayer | resolveEntitlements => rfl
  | _ => cases h

lemma Call.isApart_of_isMint (h : c.isMint = true) : c.isApart = true := by
  cases c with
  | readModeLayer | tryAcquire | registeredModules _ | config | randomID | now | record _ _ | release => rfl
  | _ => cases h

lemma keeps_gated {next : Handler Response} (id token : String) (h : Keeps env i req next) :
    Keeps env i req (requireSession id (gate env false token next)) := by
  refine keeps_bind (keeps_of_isApart (every_ask rfl)) fun valid => keeps_require ?_
  exact keeps_bind (keeps_of_isApart ((question_gateCheck false token).mono fun _ => Call.isApart_of_isQuestion))
    fun _ => h

lemma keeps_readModeLayer : Keeps env i req (ask .readModeLayer) :=
  keeps_of_isApart (every_ask rfl)

lemma keeps_routes (hreq : req.isOnModules = true) : Keeps env i req ((machine env).program req) := by
  cases req with
  | session idToken => exact keeps_of_isApart ((mint_session idToken).mono fun _ => Call.isApart_of_isMint)
  | mountModule id token =>
    refine keeps_gated id token (keeps_bind keeps_readModeLayer fun file => keeps_require ?_)
    refine keeps_require (keeps_require (keeps_require (keeps_require ?_)))
    exact keeps_withModulesOps (held_work (work_mount ..))
  | unmountModule id token key =>
    refine keeps_gated id token (keeps_bind keeps_readModeLayer fun file => keeps_require ?_)
    exact keeps_require (keeps_require (keeps_withModulesOps (held_work (work_unmount _))))
  | installArtifact id token key version allowDowngrade =>
    exact keeps_gated id token (keeps_withModulesOps
      (installLocked_triple (x := ⟨id, token, key, version, allowDowngrade⟩)))
  | removeArtifact id token key =>
    refine keeps_gated id token (keeps_bind keeps_readModeLayer fun file => keeps_require ?_)
    exact keeps_require (keeps_require (keeps_withModulesOps (held_work (work_removal key))))
  | cloudApply _ _ _ _ | cloudDisable _ _ | cloudAllowlist _ _ _ | cloudKgUpdate => cases hreq

/-! ## The identity of an artifact -/

lemma append_slash_inj {l l' v v' : List Char} (hv : '/' ∉ v) (hv' : '/' ∉ v') (h : l ++ '/' :: v = l' ++ '/' :: v') :
    l = l' ∧ v = v' := by
  rcases append_eq_append_iff.1 h with ⟨m, rfl, hm⟩ | ⟨m, rfl, hm⟩
  · cases m with
    | nil => exact ⟨(append_nil l).symm, (List.cons.inj hm).2⟩
    | cons c m =>
      cases hm
      exact absurd (mem_append_right m (.head _)) hv
  · cases m with
    | nil => exact ⟨append_nil l', (List.cons.inj hm).2.symm⟩
    | cons c m =>
      cases hm
      exact absurd (mem_append_right m (.head _)) hv'

lemma slash_not_mem_of_validateModuleKey (h : validateModuleKey key = true) : '/' ∉ key.toList := by
  intro hmem
  unfold validateModuleKey at h
  split at h
  · rename_i hkey
    rw [hkey] at hmem
    cases hmem
  · rename_i c rest hkey
    rw [hkey] at hmem
    simp only [and_eq_true, all_eq_true] at h
    rcases mem_cons.1 hmem with rfl | hmem
    · exact absurd h.1.1 (by decide)
    · exact absurd (h.2 _ hmem) (by decide)

lemma slash_not_mem_of_artifactVersionPattern (h : artifactVersionPattern version = true) :
    '/' ∉ version.toList := by
  intro hmem
  obtain ⟨piece, hpiece, hslash⟩ := Console.exists_mem_splitOn.2 ⟨hmem, (by decide : '/' ≠ '.')⟩
  unfold artifactVersionPattern versionComponents at h
  simp only at h
  split_ifs at h with hlength
  · have hcomponent := isSome_of_mapM h piece hpiece
    unfold versionComponent at hcomponent
    split_ifs at hcomponent with hdigits
    · simp only [and_eq_true, all_eq_true] at hdigits
      exact absurd (hdigits.1.2 _ hslash) (by decide)
    · cases hcomponent
  · cases h

/-- A certificate of one artifact at one version is not that of another. -/
lemma artifactIdentity_injective {pre pre' key' version' : String} (hkey : validateModuleKey key = true)
    (hkey' : validateModuleKey key' = true) (hversion : artifactVersionPattern version = true)
    (hversion' : artifactVersionPattern version' = true)
    (h : artifactIdentity pre key version = artifactIdentity pre' key' version') :
    pre = pre' ∧ key = key' ∧ version = version' := by
  have hsplit : ∀ p k v, (artifactIdentity p k v).toList =
      (p.toList ++ "@refs/tags/artifact".toList ++ '/' :: k.toList) ++ '/' :: v.toList := by
    simp [artifactIdentity]
  have hlist := congrArg String.toList h
  rw [hsplit, hsplit] at hlist
  obtain ⟨hhead, hversions⟩ := append_slash_inj (slash_not_mem_of_artifactVersionPattern hversion)
    (slash_not_mem_of_artifactVersionPattern hversion') hlist
  obtain ⟨hpre, hkeys⟩ := append_slash_inj (slash_not_mem_of_validateModuleKey hkey)
    (slash_not_mem_of_validateModuleKey hkey') hhead
  exact ⟨String.toList_inj.1 (append_left_injective _ hpre), String.toList_inj.1 hkeys,
    String.toList_inj.1 hversions⟩

/-- Accepted prefixes, keys and versions with one identity are the same. -/
def DistinctIdentities : Prop :=
  ∀ pre pre' key key' version version', validateModuleKey key = true → validateModuleKey key' = true →
    artifactVersionPattern version = true → artifactVersionPattern version' = true →
      artifactIdentity pre key version = artifactIdentity pre' key' version' →
        pre = pre' ∧ key = key' ∧ version = version'

/-- Every rename into the modules directory places a verified artifact, or puts back what was moved aside for one, and
what is moved aside is not newer unless it may be. -/
def InstallsVerified (env : Platform) (log : List LogStep) : Prop :=
  ∀ before st after, log = before ++ st :: after → PlacesVerified env before st ∧ MovesOlder env st

/-- In every run in which the installs get to see the markers of newer versions, what is installed is what was asked for
and verified. -/
theorem placed_of_reachable {p : Pool} (h : (system env).Reachable
    (fun p e => (machine env).allows Request.isOnModules (fun _ st => !overlooks env st) p e = true) p) :
    InstallsVerified env p.log ∧ DistinctIdentities := by
  have hholds : (placingContract env).Holds (machine env) (fun _ _ _ _ _ _ => True) p := by
    refine .of_reachable rfl (fun _ _ _ => stable_true) (fun _ _ => trivial) ?_ h
    exact fun i req w _ hserves => keeps_routes hserves [] [] w trivial trivial
  refine ⟨fun before st after hlog => (hholds.good before st after hlog).2, ?_⟩
  exact fun pre pre' key key' version version' => artifactIdentity_injective

def sampleSigner : String := "https://github.com/acme/publish/.github/workflows/release.yml"

/-- The two versions of the sample artifact, each known by one byte. -/
def sampleVersion : Bytes → String
  | [2] => "2.0.0"
  | _ => "1.0.0"

/-- A platform with the markers, descriptors, archives and signatures of the two versions. -/
def installPlatform : Platform :=
  { samplePlatform with
    checks := { sampleChecks with artifactSignerPrefix := fun s => "https://".toList.isPrefixOf s.toList }
    tools :=
      { verifyBlob := fun archive _ identity issuer =>
          identity = artifactIdentity sampleSigner "module" (sampleVersion archive) && issuer = oidcIssuerGitHubActions
        sha256 := fun archive => sampleVersion archive
        unpack := fun archive =>
          some (Record.set ∅ "module"
            (Record.set (Record.set ∅ stampFilename (some archive)) "Module.js" (some archive)))
        compute := fun tree => (tree.get? "Module.js").join.map sampleVersion
        decodeStamp := fun content => some ⟨"module", sampleVersion content, none, sampleVersion content⟩ }
    decodeArtifactMarker := fun content => some ⟨artifactMarkerSchema, "module", sampleVersion content, 0⟩
    encodeArtifactMarker := fun marker => if marker.version = "2.0.0" then [2] else [1]
    decodeDescriptor := fun body =>
      some ⟨artifactKindModule, "sha256:" ++ sampleVersion body, artifactBundleFormat, ""⟩
    decodeBase64 := fun _ => some [] }

def sampleInstallFile : Text :=
  lines [("DEPLOYMENT_ARTIFACT_SIGNER", sampleSigner), ("MODULE_CONTENT_BASE_URL", "https://content.example"),
    ("OIDC_SHARED_POOL", "true")]

/-- A daemon with a version of the artifact installed. -/
def installedPool (installed : Bytes) : Pool :=
  ⟨{ sampleWorld with
      file := some sampleInstallFile
      modules := Record.set ∅ (.moduleDir "module") (.dir (Record.set ∅ artifactMarkerName (some installed))) }, ∅, []⟩

lemma started_installedPool (installed : Bytes) : (system installPlatform).init (installedPool installed) :=
  ⟨⟨rfl, rfl, rfl, rfl, rfl⟩, rfl, rfl⟩

/-- What the outside does while a version is installed. -/
def sampleFetch (archive : Bytes) (fails : Bool) : Outside :=
  { sampleOutside "a" with signedIn := true, fetched := some (archive, 200), fails := fails }

/-- A sign-in and an install, of which one step may fail. -/
def installRun (archive : Bytes) (early late : ℕ) (fails : Bool) : List (Threads.Event Request Outside) :=
  [.spawn 0 (.session "id")] ++ List.replicate 8 (.step 0 (sampleFetch archive false)) ++
    [.spawn 1 (.installArtifact "a" "token" "module" (sampleVersion archive) false)] ++
    List.replicate early (.step 1 (sampleFetch archive false)) ++ [.step 1 (sampleFetch archive fails)] ++
    List.replicate late (.step 1 (sampleFetch archive false))

/-- Whether a step puts the staged payload in place. -/
def placesSample : Script.Event Answer → Bool
  | ⟨.rename (.staging name) (.moduleDir name'), done⟩ => name = "module" && name' = "module" && done
  | _ => false

/-- Whether a step moves aside what is installed. -/
def movesSample : Script.Event Answer → Bool
  | ⟨.rename (.moduleDir name) (.backup name'), done⟩ => name = "module" && name' = "module" && done
  | _ => false

variable {e : Script.Event Answer}

lemma eq_of_placesSample (h : placesSample e = true) :
    e = ⟨.rename (.staging "module") (.moduleDir "module"), true⟩ := by
  unfold placesSample at h
  split at h
  · simp only [and_eq_true, decide_eq_true_eq] at h
    obtain ⟨⟨rfl, rfl⟩, rfl⟩ := h
    rfl
  · cases h

lemma eq_of_movesSample (h : movesSample e = true) :
    e = ⟨.rename (.moduleDir "module") (.backup "module"), true⟩ := by
  unfold movesSample at h
  split at h
  · simp only [and_eq_true, decide_eq_true_eq] at h
    obtain ⟨⟨rfl, rfl⟩, rfl⟩ := h
    rfl
  · cases h

/-- A newer version is placed over an older one. -/
theorem upgrade_placed : ∃ (p : Pool) (st : LogStep) (before : List LogStep), (system installPlatform).Reachable
    (fun p e =>
      (machine installPlatform).allows Request.isOnModules (fun _ st => !overlooks installPlatform st) p e = true) p ∧
    st ∈ p.log ∧ st.event = ⟨.rename (.staging "module") (.moduleDir "module"), true⟩ ∧
    (Placed installPlatform st (.staging "module") "module" ∨
      Restored before st (.staging "module") "module") ∧ DistinctIdentities := by
  have hrun : ((system installPlatform).run
      ((machine installPlatform).allows Request.isOnModules fun _ st => !overlooks installPlatform st)
      (installedPool [1]) (installRun [2] 0 28 false)).any (·.log.any fun st => placesSample st.event) = true := by
    decide +kernel
  obtain ⟨p, hreach, hplaces⟩ := TransitionSystem.exists_reachable hrun (started_installedPool [1]) fun _ _ hok => hok
  obtain ⟨st, hst, hplaces⟩ := any_eq_true.1 hplaces
  have hevent := eq_of_placesSample hplaces
  obtain ⟨before, after, hlog⟩ := append_of_mem hst
  obtain ⟨hverified, hidentities⟩ := placed_of_reachable hreach
  exact ⟨p, st, before, hreach, hst, hevent, (hverified before st after hlog).1 _ _ hevent, hidentities⟩

/-- An older version is placed over a newer one when the marker of the newer one could not be read. -/
theorem unreadMarker_downgraded :
    ∃ p : Pool, (system installPlatform).Reachable (fun p e =>
        (machine installPlatform).allows Request.isOnModules (fun _ _ => true) p e = true) p ∧
      ¬ (InstallsVerified installPlatform p.log ∧ DistinctIdentities) := by
  have hrun : ((system installPlatform).run
      ((machine installPlatform).allows Request.isOnModules fun _ _ => true)
      (installedPool [2]) (installRun [1] 15 13 true)).any (·.log.any fun st => movesSample st.event &&
        decide (st.request = .installArtifact "a" "token" "module" "1.0.0" false) &&
        isDowngrade "1.0.0" false (installedMarker installPlatform st.before.modules (.moduleDir "module"))) =
      true := by decide +kernel
  obtain ⟨p, hreach, hmoves⟩ := TransitionSystem.exists_reachable hrun (started_installedPool [2]) fun _ _ hok => hok
  obtain ⟨st, hst, hmoves⟩ := any_eq_true.1 hmoves
  obtain ⟨hmoves, hdowngrade⟩ := and_eq_true_iff.1 hmoves
  obtain ⟨hmoves, hrequest⟩ := and_eq_true_iff.1 hmoves
  obtain ⟨before, after, hlog⟩ := append_of_mem hst
  refine ⟨p, hreach, fun hverified => ?_⟩
  obtain ⟨id, token, version, allowDowngrade, hrequest', hnot⟩ :=
    (hverified.1 before st after hlog).2 _ _ (eq_of_movesSample hmoves)
  cases (of_decide_eq_true hrequest).symm.trans hrequest'
  exact absurd (hdowngrade.symm.trans hnot) nofun

end Console.Daemon
