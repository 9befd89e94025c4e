import Dethernety.Foundations.Transition
import Dethernety.Console.ModeLayer

/-!
# The routes that write the mode layer

Connect, disconnect, the allowlist apply and the knowledge-graph update of one console daemon, as requests that
run side by side. A request runs up to the next point where another one can come between: an outbound read, the
wait for `modeLayerMu`, and the write that ends the critical section. The environment decides how an outbound
read ends, whether the module of the knowledge graph is mounted, and whether a write lands.
-/

namespace Console

/-! ## The version listing -/

/-- `kgVersionInfo`, with the raw JSON of the recall, empty when there is none. -/
structure KgVersionInfo where
  id : String
  recalled : String

structure KgVersionList where
  latest : String
  versions : List KgVersionInfo

/-- `sha256:` and 64 lowercase hexadecimal digits. -/
def pinPattern (s : String) : Bool :=
  let digits := s.toList.drop 7
  s.toList.take 7 = "sha256:".toList && digits.length = 64 &&
    digits.all fun c => ('0' ≤ c && c ≤ '9') || ('a' ≤ c && c ≤ 'f')

namespace KgVersionList

def recalled (list : KgVersionList) (id : String) : Bool :=
  (list.versions.find? (·.id = id)).any fun v => v.recalled ≠ "" && v.recalled ≠ "null"

def usableLatest (list : KgVersionList) : String :=
  if !pinPattern list.latest || list.recalled list.latest then "" else list.latest

end KgVersionList

/-! ## What the routes compute -/

inductive Refusal
  | alreadyCloud
  | redirect
  | recipe (e : RecipeError)
  | vars (e : RecipeRefusal)
  | notCloud
  | invalidVersion
  | kgNotConfigured
  | kgHalfState
  | kgNoPin
  | unreachable
  | noUsableVersion
  | latestChanged
  | disconnected
  | configurationChanged
  | emptyAllowlist
  | tooManyEntries
  | notPrintable
  | unknownSubject
  | selfExcluded
  | missing (names : List String)
  | notWritten

section

variable (checks : Checks)

/-- The checks of `cloudApply`, up to the outbound read: the variables to write. -/
def cloudApplyVars (contentCacheDir : String) (recipe : Text) (redirectURI : String) (file : Option Text) :
    Except Refusal Vars := do
  if isCloudModeFile file then throw .alreadyCloud
  let redirect := String.ofList (trimSpace redirectURI.toList)
  if !checks.secureURL redirect then throw .redirect
  let recipe ← (parseRecipe recipe).mapError .recipe
  (cloudModeVars checks recipe redirect contentCacheDir).mapError .vars

/-- `pinKnowledgeGraph` after the outbound read; `none` is a listing that could not be read. -/
def pinKnowledgeGraph (vars : Vars) (list : Option KgVersionList) : Vars :=
  match (list.map KgVersionList.usableLatest).filter (· ≠ "") with
  | some version => vars.set "MODULE_KG_VERSION" version
  | none => vars.erase "MODULE_KG_BASE_URL"

def parseAllowlist (raw : String) : List String :=
  ((((raw.toList.splitOnP fun c => c = ',' || isSpace c).filter (· ≠ [])).map String.ofList).dedup).insertionSort
    (· ≤ ·)

def maxAllowlistEntries : ℕ := 512

/-- The critical section of `cloudAllowlist`, up to the write. -/
def cloudAllowlistVars (allowlist sub : String) (file : Option Text) : Except Refusal Vars := do
  let some vars := cloudModeFile file | throw .notCloud
  let entries := parseAllowlist allowlist
  if entries = [] then throw .emptyAllowlist
  if entries.length > maxAllowlistEntries then throw .tooManyEntries
  if entries.any (·.toList.any (!checks.isPrint ·)) then throw .notPrintable
  if sub = "" then throw .unknownSubject
  if sub ∉ entries then throw .selfExcluded
  let vars : Vars := vars.set "DEPLOYMENT_ALLOWLIST" (",".intercalate entries)
  if missingRequiredVars vars ≠ [] then throw (.missing (missingRequiredVars vars))
  return vars

def kgBaseFrom (vars : Vars) : String :=
  let base := vars.value "MODULE_KG_BASE_URL"
  if base = "" || !checks.secureURL base then "" else base

/-- The checks of `cloudKgUpdate`, up to the outbound read: the base URL to read from. -/
def cloudKgUpdateBase (version : String) (mounted : Bool) (file : Option Text) : Except Refusal String := do
  let some vars := cloudModeFile file | throw .notCloud
  if !pinPattern version then throw .invalidVersion
  let base := kgBaseFrom checks vars
  if base = "" then throw .kgNotConfigured
  if !mounted then throw .kgHalfState
  if vars.value "MODULE_KG_VERSION" = "" then throw .kgNoPin
  return base

def cloudKgUpdateListing (version : String) (list : Option KgVersionList) : Except Refusal Unit := do
  let some list := list | throw .unreachable
  if list.usableLatest = "" then throw .noUsableVersion
  if version ≠ list.usableLatest then throw .latestChanged

/-- The critical section of `cloudKgUpdate`, up to the write; no variables when the version is pinned already. -/
def cloudKgUpdateVars (version base : String) (mounted : Bool) (file : Option Text) :
    Except Refusal (Option Vars) := do
  let some vars := cloudModeFile file | throw .disconnected
  if vars.value "MODULE_KG_BASE_URL" ≠ base then throw .configurationChanged
  if !mounted then throw .kgHalfState
  if vars.value "MODULE_KG_VERSION" = "" then throw .kgNoPin
  if vars.value "MODULE_KG_VERSION" = version then return none
  let vars : Vars := vars.set "MODULE_KG_VERSION" version
  if missingRequiredVars vars ≠ [] then throw (.missing (missingRequiredVars vars))
  return some vars

end

/-! ## Requests side by side -/

/-- What a write is for. A connect has the number of writes that there were when it looked at the file. -/
inductive Route
  | connect (since : ℕ)
  | disconnect
  | allowlist
  | kgUpdate (version base : String)
  deriving DecidableEq

/-- Where a request is. -/
inductive Phase
  /-- A connect reads the version listing. -/
  | dialling (vars : Vars) (since : ℕ)
  | connecting (vars : Vars) (since : ℕ)
  | disconnecting
  | applying (allowlist sub : String)
  /-- An update reads the version listing. -/
  | listing (version base : String)
  | updating (version base : String)
  /-- The lock is held, and these variables are written next. -/
  | writing (route : Route) (vars : Vars)
  | refused (refusal : Refusal)
  | done

structure Write where
  route : Route
  before : Option Text
  after : Text

structure State where
  file : Option Text
  /-- The request that holds `modeLayerMu`. -/
  lock : Option ℕ
  phases : Record ℕ Phase
  /-- The writes so far, and the listings that were read with the base URL each was read from. -/
  log : List Write
  reads : List (String × KgVersionList)

inductive Event
  | cloudApply (i : ℕ) (recipe : Text) (redirectURI : String)
  | cloudDisable (i : ℕ)
  | cloudAllowlist (i : ℕ) (allowlist sub : String)
  | cloudKgUpdate (i : ℕ) (version : String) (mounted : Bool)
  | listing (i : ℕ) (list : Option KgVersionList)
  | acquire (i : ℕ) (mounted : Bool)
  | write (i : ℕ) (lands : Bool)

namespace State

variable (s : State)

def goto (i : ℕ) (phase : Phase) : State :=
  { s with phases := s.phases.set i phase }

/-- A refusal ends the request. -/
def answer {α : Type} (i : ℕ) (result : Except Refusal α) (phase : α → Phase) : State :=
  match result with
  | .error e => s.goto i (.refused e)
  | .ok a => s.goto i (phase a)

/-- Take the lock, to write next. -/
def hold (i : ℕ) (route : Route) (vars : Vars) : State :=
  { s.goto i (.writing route vars) with lock := some i }

/-- Go over what was computed under the lock; a request without anything to write lets go of it. -/
def enter (i : ℕ) (route : Route) (result : Except Refusal (Option Vars)) : State :=
  match result with
  | .error e => s.goto i (.refused e)
  | .ok none => s.goto i .done
  | .ok (some vars) => s.hold i route vars

def writeModeLayerLocked (i : ℕ) (route : Route) (vars : Vars) (lands : Bool) : State :=
  match if lands then serialize vars else none with
  | none => { s.goto i (.refused .notWritten) with lock := none }
  | some text =>
    { s.goto i .done with
      file := some text
      lock := none
      log := s.log ++ [⟨route, s.file, text⟩] }

end State

/-- The outbound read of a request ends. -/
def onListing (s : State) (i : ℕ) (list : Option KgVersionList) : Option State :=
  match s.phases.get? i with
  | some (.dialling vars since) =>
    let base := vars.value "MODULE_KG_BASE_URL"
    some { s.goto i (.connecting (pinKnowledgeGraph vars list) since) with
      reads := s.reads ++ (list.map (base, ·)).toList }
  | some (.listing version base) =>
    some { s.answer i (cloudKgUpdateListing version list) fun _ => .updating version base with
      reads := s.reads ++ (list.map (base, ·)).toList }
  | _ => none

/-- A request takes the lock and does what its route does under it before the write. -/
def onAcquire (checks : Checks) (s : State) (i : ℕ) (mounted : Bool) : Option State :=
  match s.phases.get? i with
  | some (.connecting vars since) => some (s.hold i (.connect since) vars)
  | some .disconnecting => some (s.hold i .disconnect pureOSSModeVars)
  | some (.applying allowlist sub) =>
    some (s.enter i .allowlist ((cloudAllowlistVars checks allowlist sub s.file).map some))
  | some (.updating version base) =>
    some (s.enter i (.kgUpdate version base) (cloudKgUpdateVars version base mounted s.file))
  | _ => none

def next (checks : Checks) (contentCacheDir : String) (s : State) : Event → Option State
  | .cloudApply i recipe redirectURI =>
    if i ∈ s.phases.keys then none
    else some (s.answer i (cloudApplyVars checks contentCacheDir recipe redirectURI s.file) fun vars =>
      if vars.value "MODULE_KG_BASE_URL" = "" then .connecting vars s.log.length else .dialling vars s.log.length)
  | .cloudDisable i => if i ∈ s.phases.keys then none else some (s.goto i .disconnecting)
  | .cloudAllowlist i allowlist sub =>
    if i ∈ s.phases.keys then none else some (s.goto i (.applying allowlist sub))
  | .cloudKgUpdate i version mounted =>
    if i ∈ s.phases.keys then none
    else some (s.answer i (cloudKgUpdateBase checks version mounted s.file) fun base => .listing version base)
  | .listing i list => onListing s i list
  | .acquire i mounted => if s.lock = none then onAcquire checks s i mounted else none
  | .write i lands =>
    match s.phases.get? i with
    | some (.writing route vars) => some (s.writeModeLayerLocked i route vars lands)
    | _ => none

/-- The daemon, from any mode file on. -/
def daemon (checks : Checks) (contentCacheDir : String) : TransitionSystem State Event where
  init s := s.lock = none ∧ s.phases = ∅ ∧ s.log = [] ∧ s.reads = []
  next := next checks contentCacheDir

end Console
