import Dethernety.Foundations.Text
import Dethernety.Foundations.Transition
import Dethernety.RemoteModule.ModuleDocument

/-!
# Registration of remote modules

Processes of remote modules that share one cache directory. A module registers from the cached entry of its pin, from
the content service, or from the newest cached entry of its key, and once registered it answers `getMetadata` at once
and takes its own pin in the background. A thread, the registration or a refresh, runs up to the next answer that it
waits for; the callers that wait for a registration are answered in the turn that ends it.

The vectors and class types that `adopt` builds are left out, but for what makes it throw; so are log lines, error
texts, and the temp files of a write.
-/

namespace RemoteModule

structure CachedModule where
  moduleKey : String
  pin : String
  fetchedAt : ℕ
  document : JsonTree
  embeddings : List JsonTree
  deriving DecidableEq

/-- `document.module` -/
def moduleOf (document : JsonTree) : JsonTree :=
  (document.get? "module").getD .null

def CachedModule.module (entry : CachedModule) : JsonTree :=
  moduleOf entry.document

/-! ## What is checked of a document -/

/-- The document passes the two guards of `fetchAndCache`: it has a class, and a name. -/
def acceptsDocument (document : JsonTree) : Bool :=
  countClasses (moduleOf document) ≠ 0 &&
    match (moduleOf document).get? "name" with
    | some (.string name) => !name.toList.all isEcmaSpace
    | some (.unpaired _) => true
    | _ => false

/-- `document.embeddings?.models ?? []`, `none` where it has no `map`. -/
def modelsOf (document : JsonTree) : Option (List JsonTree) :=
  match document.get? "embeddings" with
  | none => some []
  | some .null => some []
  | some embeddings =>
    match embeddings.get? "models" with
    | none => some []
    | some .null => some []
    | some models => models.items?

/-- `loadVectors` goes through the answer for a model: it has a model name, and embeddings to iterate that are not
`null`. The characters of a string have no class. -/
def responseLoads (response : JsonTree) : Bool :=
  (response.get? "model").any JsonTree.isString &&
    match response.get? "embeddings" with
    | some (.array items) => .null ∉ items
    | some embeddings => embeddings.isString
    | none => false

/-- The keys of `OPERATED_ARRAYS` -/
def operatedArrays : List String :=
  ["componentClasses", "securityBoundaryClasses"]

/-- `loadClassTypes` does not throw for a class of a module with a name. For a class without an id it derives one from
the two names, which `uuidv5` encodes as UTF-8; `encodeURIComponent` throws for an unpaired surrogate. -/
def classTypeLoads (moduleName : Option JsonTree) (cls : JsonTree) : Bool :=
  match cls.get? "name" with
  | none => true
  | some name =>
    !name.isString || (cls.get? "id").any JsonTree.truthy ||
      !(moduleName.any JsonTree.isUnpaired || name.isUnpaired)

/-- `loadVectors` and `loadClassTypes` do not throw. -/
def CachedModule.loads (entry : CachedModule) : Bool :=
  entry.embeddings.all responseLoads &&
    operatedArrays.all fun key => (classesOf entry.module key).all (classTypeLoads (entry.module.get? "name"))

/-- The entry as it is read from its file. -/
def CachedModule.reread (entry : CachedModule) : CachedModule :=
  { entry with
    document := entry.document.reread
    embeddings := entry.embeddings.map JsonTree.reread }

/-! ## The cache directory -/

/-- `safeName`, which replaces each UTF-16 code unit. -/
def safeName (value : String) : String :=
  String.ofList (value.toList.flatMap fun c =>
    if c.isAlphanum ∨ c = '_' ∨ c = '-' then [c] else if c.toNat < 0x10000 then ['_'] else ['_', '_'])

/-- The files of the cache directory, by the directory of the module and the name of the pin. -/
structure Directory where
  entries : Record (String × String) CachedModule
  hashes : Record (String × String) JsonTree

/-- `fileFor` and `policyHashesFileFor` -/
def fileFor (moduleKey pin : String) : String × String :=
  (safeName moduleKey, safeName pin)

/-- `MetadataCache.get`, after the memo. -/
def Directory.get (dir : Directory) (moduleKey pin : String) : Option CachedModule :=
  (dir.entries.get? (fileFor moduleKey pin)).filter fun entry =>
    countClasses entry.module ≠ 0 && entry.moduleKey = moduleKey && entry.pin = pin

/-- `MetadataCache.newestFor` -/
def Directory.newestFor (dir : Directory) (moduleKey : String) : Option CachedModule :=
  (dir.entries.entries.filter fun e => e.1.1 = safeName moduleKey).foldl
    (fun newest e =>
      if countClasses e.2.module ≠ 0 ∧ e.2.moduleKey = moduleKey ∧ newest.all (·.fetchedAt < e.2.fetchedAt) then
        some e.2
      else newest)
    none

/-- `MetadataCache.put`, but for the memo. -/
def Directory.put (dir : Directory) (entry : CachedModule) : Directory :=
  { dir with entries := dir.entries.set (fileFor entry.moduleKey entry.pin) entry.reread }

/-- `putPolicyHashes`: a file that is there is kept. -/
def Directory.putPolicyHashes (dir : Directory) (moduleKey pin : String) (body : JsonTree) : Directory :=
  match dir.hashes.get? (fileFor moduleKey pin) with
  | some _ => dir
  | none => { dir with hashes := dir.hashes.set (fileFor moduleKey pin) body }

def Directory.dropPolicyHashes (dir : Directory) (moduleKey pin : String) : Directory :=
  { dir with hashes := dir.hashes.erase (fileFor moduleKey pin) }

/-! ## One module -/

/-- `RemoteModuleConfig` -/
structure Config where
  moduleKey : String
  pin : String

inductive Thread
  | registration
  | refresh (n : ℕ)
  deriving DecidableEq

/-- What a thread waits for. -/
inductive Awaits
  /-- `pinPortalOrigin`; a refresh of a module at its pin ends with it. -/
  | origin (only : Bool)
  | document
  /-- The policy hashes for the cached entry. -/
  | hashes (entry : CachedModule)
  /-- The embeddings of the models and the policy hashes of a document, in any order. -/
  | parts (document : JsonTree) (models : ℕ) (embeddings : Option (List JsonTree)) (hashes : Option (Option Hashes))

/-- What a call of `getMetadata` got: the entry and the metadata, or an error. -/
structure Answer where
  call : ℕ
  result : Option (CachedModule × JsonTree)

structure Process where
  config : Config
  /-- The portal origin is pinned. -/
  portalOrigin : Bool
  registered : Option CachedModule
  registeredHashes : Option Hashes
  served : Option (CachedModule × JsonTree)
  /-- The entry that the cache holds in memory for the pin. -/
  memo : Option CachedModule
  /-- The calls that wait for the registration. -/
  waiting : List ℕ
  lastFailure : Option ℕ
  lastRefreshAt : Option ℕ
  refreshCount : ℕ
  threads : Record Thread Awaits
  answers : List Answer
  /-- The bodies of policy hashes that were read or answered. -/
  bodies : List JsonTree

/-- A module after its construction. -/
def Process.start (config : Config) : Process :=
  ⟨config, false, none, none, none, none, [], none, none, 0, ∅, [], []⟩

def withinRefreshInterval (now startedAt : ℕ) : Bool :=
  startedAt ≤ now && now - startedAt < 60000

namespace Process

variable (p : Process)

def getPolicyHash (classId : String) : Option String :=
  if p.registered.map CachedModule.pin = some p.config.pin then p.registeredHashes.bind fun h => h.get? classId
  else none

/-- `adopt`, `none` if it throws. -/
def adopt (entry : CachedModule) (hashes : Option Hashes) : Option Process :=
  if entry.loads then
    some { p with
      registered := some entry
      registeredHashes := if entry.pin = p.config.pin then hashes else none
      served := none }
  else none

def metadataFor (entry : CachedModule) : JsonTree :=
  let hashes := if p.registered = some entry ∧ entry.pin = p.config.pin then p.registeredHashes else none
  match p.served with
  | some (served, module) => if served = entry then module else withPolicyHashes entry.module hashes
  | none => withPolicyHashes entry.module hashes

def servedMetadata (entry : CachedModule) (calls : List ℕ) : Process :=
  { p with
    served := some (entry, p.metadataFor entry)
    answers := p.answers ++ calls.map fun call => ⟨call, some (entry, p.metadataFor entry)⟩ }

def goto (t : Thread) (awaits : Awaits) : Process :=
  { p with threads := p.threads.set t awaits }

def refreshInBackground (entry : CachedModule) (now : ℕ) : Process :=
  if entry.pin = p.config.pin ∧ p.portalOrigin = true then p
  else if p.lastRefreshAt.any (withinRefreshInterval now) then p
  else
    { p.goto (.refresh p.refreshCount) (.origin (entry.pin = p.config.pin)) with
      lastRefreshAt := some now
      refreshCount := p.refreshCount + 1 }

/-- A call waits for the registration, which it starts if none goes on. -/
def wait (call : ℕ) : Process :=
  let p := { p with waiting := p.waiting ++ [call] }
  match p.threads.get? .registration with
  | some _ => p
  | none => p.goto .registration (.origin false)

def getMetadata (call now : ℕ) : Process :=
  match p.registered with
  | some entry => (p.refreshInBackground entry now).servedMetadata entry [call]
  | none =>
    if p.lastFailure.any (withinRefreshInterval now) then { p with answers := p.answers ++ [⟨call, none⟩] }
    else p.wait call

/-- A registration that failed. -/
def reject (now : ℕ) : Process :=
  { p with
    threads := p.threads.erase .registration
    lastFailure := some now
    answers := p.answers ++ p.waiting.map fun call => ⟨call, none⟩
    waiting := [] }

/-- A thread ends with an entry to adopt. -/
def finish (t : Thread) (entry : CachedModule) (hashes : Option Hashes) (now : ℕ) : Process :=
  match t with
  | .registration =>
    match p.adopt entry hashes with
    | some p =>
      { p.servedMetadata entry p.waiting with
        threads := p.threads.erase .registration
        waiting := [] }
    | none => p.reject now
  | .refresh n => { (p.adopt entry hashes).getD p with threads := p.threads.erase (.refresh n) }

/-- A thread could not get the entry of its pin. -/
def fail (dir : Directory) (t : Thread) (now : ℕ) : Process :=
  match t with
  | .registration =>
    match dir.newestFor p.config.moduleKey with
    | some entry => p.finish .registration entry none now
    | none => p.reject now
  | .refresh n => { p with threads := p.threads.erase (.refresh n) }

/-- `MetadataCache.get` for the pin. -/
def cached (dir : Directory) : Option CachedModule :=
  match p.memo with
  | some entry => some entry
  | none => dir.get p.config.moduleKey p.config.pin

def registrationAtPin (dir : Directory) (t : Thread) (now : ℕ) : Process × Directory :=
  match p.cached dir with
  | none => (p.goto t .document, dir)
  | some entry =>
    let p := { p with memo := some entry }
    match dir.hashes.get? (fileFor p.config.moduleKey p.config.pin) with
    | none => (p.goto t (.hashes entry), dir)
    | some .null => (p.goto t (.hashes entry), dir)
    | some stored =>
      let p := { p with bodies := p.bodies ++ [stored] }
      match parsePolicyHashes stored p.config.moduleKey p.config.pin (servedClassIds entry.module) with
      | some hashes => (p.finish t entry (some hashes) now, dir)
      | none => (p.goto t (.hashes entry), dir.dropPolicyHashes p.config.moduleKey p.config.pin)

/-- A thread goes on after `pinPortalOrigin`. -/
def onOrigin (dir : Directory) (t : Thread) (only pinned : Bool) (now : ℕ) : Process × Directory :=
  let p := { p with portalOrigin := p.portalOrigin || pinned }
  if only then ({ p with threads := p.threads.erase t }, dir) else p.registrationAtPin dir t now

/-- `fetchAndCache` with the answer for the document. -/
def onDocument (dir : Directory) (t : Thread) (answer : Option JsonTree) (now : ℕ) : Process :=
  match answer with
  | none => p.fail dir t now
  | some document =>
    if acceptsDocument document then
      match modelsOf document with
      | none => p.fail dir t now
      | some models => p.goto t (.parts document models.length none none)
    else p.fail dir t now

/-- The end of `fetchAndCache`: the entry is persisted and adopted. -/
def onFetched (dir : Directory) (t : Thread) (document : JsonTree) (embeddings : List JsonTree) (hashes : Option Hashes)
    (written : Bool) (now : ℕ) : Process × Directory :=
  let entry : CachedModule := ⟨p.config.moduleKey, p.config.pin, now, document, embeddings⟩
  if written then ({ p with memo := some entry }.finish t entry hashes now, dir.put entry)
  else (p.finish t entry hashes now, dir)

/-- `fetchPolicyHashes` with its answer. -/
def onHashes (dir : Directory) (module : JsonTree) (answer : Option JsonTree) (written : Bool) :
    Option Hashes × Process × Directory :=
  match answer with
  | none => (none, p, dir)
  | some body =>
    let p := { p with bodies := p.bodies ++ [body] }
    match parsePolicyHashes body p.config.moduleKey p.config.pin (servedClassIds module) with
    | none => (none, p, dir)
    | some hashes =>
      (some hashes, p,
        if written then
          dir.putPolicyHashes p.config.moduleKey p.config.pin
            (policyHashesBody p.config.moduleKey p.config.pin hashes)
        else dir)

end Process

inductive ProcessEvent
  | getMetadata (call now : ℕ)
  /-- `pinPortalOrigin` is over. -/
  | origin (t : Thread) (pinned : Bool) (now : ℕ)
  /-- An answer that is `none` is a failure. -/
  | document (t : Thread) (answer : Option JsonTree) (now : ℕ)
  | embeddings (t : Thread) (answer : Option (List JsonTree)) (written : Bool) (now : ℕ)
  | policyHashes (t : Thread) (answer : Option JsonTree) (hashesWritten entryWritten : Bool) (now : ℕ)

def Process.next (p : Process) (dir : Directory) : ProcessEvent → Option (Process × Directory)
  | .getMetadata call now => some (p.getMetadata call now, dir)
  | .origin t pinned now =>
    match p.threads.get? t with
    | some (.origin only) => some (p.onOrigin dir t only pinned now)
    | _ => none
  | .document t answer now =>
    match p.threads.get? t with
    | some .document => some (p.onDocument dir t answer now, dir)
    | _ => none
  | .embeddings t answer written now =>
    match p.threads.get? t with
    | some (.parts document models none hashes) =>
      match answer with
      | none => some (p.fail dir t now, dir)
      | some embeddings =>
        -- one answer for each model
        if embeddings.length = models then
          match hashes with
          | some hashes => some (p.onFetched dir t document embeddings hashes written now)
          | none => some (p.goto t (.parts document models (some embeddings) none), dir)
        else none
    | _ => none
  | .policyHashes t answer hashesWritten entryWritten now =>
    match p.threads.get? t with
    | some (.hashes entry) =>
      let r := p.onHashes dir entry.module answer hashesWritten
      some (r.2.1.finish t entry r.1 now, r.2.2)
    | some (.parts document models embeddings none) =>
      let r := p.onHashes dir (moduleOf document) answer hashesWritten
      match embeddings with
      | some embeddings => some (r.2.1.onFetched r.2.2 t document embeddings r.1 entryWritten now)
      | none => some (r.2.1.goto t (.parts document models none (some r.1)), r.2.2)
    | _ => none

def ProcessEvent.thread? : ProcessEvent → Option Thread
  | .getMetadata _ _ => none
  | .origin t _ _ => some t
  | .document t _ _ => some t
  | .embeddings t _ _ _ => some t
  | .policyHashes t _ _ _ _ => some t

/-! ## What a step of a thread can do -/

/-- What a step may learn: of the portal origin, an entry in the memory of the cache, and a body. -/
def Learned (p p' : Process) : Prop :=
  ∃ portalOrigin memo bodies, p' = { p with portalOrigin, memo, bodies }

/-- A step of a thread ends in one of these. -/
inductive Moves (p : Process) (t : Thread) : Process → Prop
  | goto {p' a} : Learned p p' → Moves p t (p'.goto t a)
  | erase {p'} : Learned p p' → Moves p t { p' with threads := p'.threads.erase t }
  | finish {p' entry hashes now} : Learned p p' → Moves p t (p'.finish t entry hashes now)
  | fail {dir now} : Moves p t (p.fail dir t now)

section

variable {p p' : Process} {dir : Directory} {t : Thread} {now : ℕ}

lemma Learned.registrationAtPin (h : Learned p p') : Moves p t (p'.registrationAtPin dir t now).1 := by
  obtain ⟨_, _, _, rfl⟩ := h
  unfold Process.registrationAtPin
  split
  · exact .goto ⟨_, _, _, rfl⟩
  · dsimp only
    split
    · exact .goto ⟨_, _, _, rfl⟩
    · exact .goto ⟨_, _, _, rfl⟩
    · split
      · exact .finish ⟨_, _, _, rfl⟩
      · exact .goto ⟨_, _, _, rfl⟩

lemma Learned.onFetched {document : JsonTree} {embeddings : List JsonTree} {hashes : Option Hashes} {written : Bool}
    (h : Learned p p') : Moves p t (p'.onFetched dir t document embeddings hashes written now).1 := by
  obtain ⟨_, _, _, rfl⟩ := h
  unfold Process.onFetched
  split_ifs
  all_goals exact .finish ⟨_, _, _, rfl⟩

lemma moves_onDocument {answer : Option JsonTree} : Moves p t (p.onDocument dir t answer now) := by
  unfold Process.onDocument
  cases answer with
  | none => exact .fail
  | some document =>
    dsimp only
    split_ifs
    · cases modelsOf document with
      | none => exact .fail
      | some models => exact .goto ⟨_, _, _, rfl⟩
    · exact .fail

lemma learned_onHashes {module : JsonTree} {answer : Option JsonTree} {written : Bool} :
    Learned p (p.onHashes dir module answer written).2.1 := by
  unfold Process.onHashes
  cases answer with
  | none => exact ⟨_, _, _, rfl⟩
  | some body =>
    dsimp only
    split <;> exact ⟨_, _, _, rfl⟩

theorem moves_of_next {event : ProcessEvent} {r : Process × Directory} (ht : event.thread? = some t)
    (hnext : p.next dir event = some r) : Moves p t r.1 := by
  cases event with
  | getMetadata => cases ht
  | origin t =>
    cases ht
    simp only [Process.next] at hnext
    split at hnext <;> cases hnext
    unfold Process.onOrigin
    split_ifs
    · exact .erase ⟨_, _, _, rfl⟩
    · exact Learned.registrationAtPin ⟨_, _, _, rfl⟩
  | document t =>
    cases ht
    simp only [Process.next] at hnext
    split at hnext <;> cases hnext
    exact moves_onDocument
  | embeddings t answer =>
    cases ht
    simp only [Process.next] at hnext
    split at hnext
    · rename_i document models hashes ha
      cases answer with
      | none =>
        cases hnext
        exact .fail
      | some embeddings =>
        dsimp only at hnext
        split_ifs at hnext
        cases hashes with
        | some hashes =>
          cases hnext
          exact Learned.onFetched ⟨_, _, _, rfl⟩
        | none =>
          cases hnext
          exact .goto ⟨_, _, _, rfl⟩
    · cases hnext
  | policyHashes t =>
    cases ht
    simp only [Process.next] at hnext
    split at hnext
    · cases hnext
      exact .finish learned_onHashes
    · rename_i document models embeddings ha
      cases embeddings with
      | some embeddings =>
        cases hnext
        exact learned_onHashes.onFetched
      | none =>
        cases hnext
        exact .goto learned_onHashes
    · cases hnext

end

/-! ## The modules of a deployment -/

structure Deployment where
  directory : Directory
  processes : Record ℕ Process

inductive DeploymentEvent
  | start (n : ℕ) (config : Config)
  | process (n : ℕ) (event : ProcessEvent)
  /-- A file of policy hashes comes from elsewhere. -/
  | hashesFile (file : String × String) (body : JsonTree)

def Deployment.next (d : Deployment) : DeploymentEvent → Option Deployment
  | .start n config =>
    if n ∈ d.processes.keys then none else some { d with processes := d.processes.set n (.start config) }
  | .process n event =>
    (d.processes.get? n).bind fun p =>
      (p.next d.directory event).map fun r => ⟨r.2, d.processes.set n r.1⟩
  | .hashesFile file body =>
    some { d with directory := { d.directory with hashes := d.directory.hashes.set file body } }

/-- A deployment with its modules, from an empty cache directory on. -/
def deployment : TransitionSystem Deployment DeploymentEvent where
  init d := d = ⟨⟨∅, ∅⟩, ∅⟩
  next := Deployment.next

/-- What a process starts with, and keeps in every step of its own, holds of every process of a deployment. -/
theorem process_invariant {P : Process → Prop} {ok : Deployment → DeploymentEvent → Prop}
    (hstart : ∀ config, P (.start config))
    (hstep : ∀ p dir event r, P p → Process.next p dir event = some r → P r.1) {d : Deployment}
    (h : deployment.Reachable ok d) {n : ℕ} {p : Process} (hp : d.processes.get? n = some p) : P p := by
  suffices hall : ∀ n p, d.processes.get? n = some p → P p from hall n p hp
  refine h.invariant (P := fun d => ∀ n p, d.processes.get? n = some p → P p) (fun d hd => ?_)
    fun d event d' hd _ hnext n p hp => ?_
  · have hinitial : d = ⟨⟨∅, ∅⟩, ∅⟩ := hd
    rw [hinitial]
    intro n p hp
    cases hp
  · cases event with
    | start m config =>
      simp only [deployment, Deployment.next] at hnext
      split_ifs at hnext
      cases hnext
      rw [Record.get?_set] at hp
      split_ifs at hp
      · cases hp
        exact hstart config
      · exact hd n p hp
    | process m event =>
      obtain ⟨q, hq, hnext⟩ := Option.bind_eq_some_iff.1 hnext
      obtain ⟨r, hr, hd'⟩ := Option.map_eq_some_iff.1 hnext
      cases hd'
      rw [Record.get?_set] at hp
      split_ifs at hp
      · cases hp
        exact hstep q d.directory event r (hd m q hq) hr
      · exact hd n p hp
    | hashesFile =>
      cases hnext
      exact hd n p hp

end RemoteModule
