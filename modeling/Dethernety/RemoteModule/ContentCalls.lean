import Dethernety.Foundations.Transition
import Dethernety.RemoteModule.ResponseCache

/-!
# Calls of a remote module, side by side

`getClassTemplate`, `getClassGuide`, `getExposures` and `getCountermeasures` of any callers on one module. A call
runs up to the next point where it waits: for the content service, for the graph, or for its own inner call. What
comes then, and when, is an event. The operation fields that the platform adds to what is served are left out.

The state also has what happened so far: whether a call has observed a recall of the pin, and which tokens the
service answered with success.
-/

namespace RemoteModule

/-- Why a request to the content service fails. -/
inductive WireError
  | notEntitled (denial : String)
  | recalled
  | unavailable
  | other (message : String)
  deriving DecidableEq

/-- What the service answers for a template: the text that is cached, and the keys of the schema's `properties`. -/
structure Template where
  text : String
  properties : List String

inductive FindingKind
  | exposures
  | countermeasures

def EvalResult.half {Finding : Type} (result : EvalResult Finding) : FindingKind → List Finding
  | .exposures => result.exposures
  | .countermeasures => result.countermeasures

inductive FallbackReason
  | noCredential
  | denied (denial : String)
  | unavailable
  deriving DecidableEq

/-- How a call ends. -/
inductive Outcome (Finding : Type)
  | served (kind : Kind) (text : String)
  | evaluated (findings : List Finding)
  | fallback (kind : Kind) (reason : FallbackReason)
  | thrown (error : WireError)
  deriving DecidableEq

/-- An evaluation that goes on: whose it is, and whether it started after a recall was observed. -/
structure Evaluation where
  half : FindingKind
  classId : String
  token : String
  late : Bool

/-- Where a call is; `late` is set for a call that started, `sentLate` for a request that was sent, after a recall
was observed. -/
inductive Phase (Value Finding : Type)
  | fetching (kind : Kind) (classId token : String) (late : Bool)
  | readingAttributes (evaluation : Evaluation)
  | fetchingSchema (evaluation : Evaluation) (raw : Record String Value) (sentLate : Bool)
  | stripping (evaluation : Evaluation) (raw : Record String Value) (schema : List String)
  | evaluating (evaluation : Evaluation) (attributesHash : String) (sentLate : Bool)
  | done (outcome : Outcome Finding) (late : Bool)

/-- What a module is constructed with, and its two hashes. -/
structure Settings (Value : Type) where
  pin : String
  callerHash : String → String
  attributesHash : Record String Value → String

/-- A success that the service answered. -/
structure Confirmation where
  token : String
  classId : String
  time : ℕ

structure State (Value Finding : Type) where
  cache : ResponseCache Finding
  phases : Record ℕ (Phase Value Finding)
  recalled : Bool
  confirmations : List Confirmation

inductive Event (Value Finding : Type)
  | content (i : ℕ) (kind : Kind) (classId : String) (token : Option String) (now : ℕ)
  | evaluate (i : ℕ) (half : FindingKind) (classId : String) (token : Option String)
  /-- The attributes of the element, `none` if there is no element. -/
  | attributes (i : ℕ) (raw : Option (Record String Value))
  /-- An evaluation goes on with its schema. -/
  | resume (i : ℕ)
  | template (i : ℕ) (answer : Except WireError Template) (now : ℕ)
  | guide (i : ℕ) (answer : Except WireError String) (now : ℕ)
  | evaluation (i : ℕ) (answer : Except WireError (EvalResult Finding))

variable {Value Finding : Type}

def withoutReservedAttributes (attributes : Record String Value) : Record String Value :=
  attributes.filterKeys fun key => !"dethernety_".toList.isPrefixOf key.toList

def stripToSchema (attributes : Record String Value) (schema : List String) : Record String Value :=
  attributes.filterKeys fun key => key ∈ schema

/-! ## Steps -/

section

variable (settings : Settings Value) (s : State Value Finding)

/-- How a call ended, and whether it started after a recall was observed. -/
def State.outcome? (i : ℕ) : Option (Outcome Finding × Bool) :=
  match s.phases.get? i with
  | some (.done outcome late) => some (outcome, late)
  | _ => none

def State.goto (i : ℕ) (phase : Phase Value Finding) : State Value Finding :=
  { s with phases := s.phases.set i phase }

/-- A recall removes what is cached of the pin. -/
def State.observe (error : WireError) : State Value Finding :=
  if error = .recalled then { s with cache := s.cache.evictPin settings.pin, recalled := true } else s

/-- `serveContent` before its request. -/
def serveContent (i : ℕ) (kind : Kind) (classId : String) (token : Option String) (now : ℕ) : State Value Finding :=
  match token with
  | none => s.goto i (.done (.fallback kind .noCredential) s.recalled)
  | some token =>
    let entitled := s.cache.isEntitled (settings.callerHash token) classId settings.pin now
    let s := { s with cache := s.cache.dropExpired (settings.callerHash token) classId settings.pin now }
    match if entitled then s.cache.getContent kind classId settings.pin else none with
    | some cached => s.goto i (.done (.served kind cached) s.recalled)
    | none => s.goto i (.fetching kind classId token s.recalled)

/-- `serveContent` after the answer to its request. -/
def onContent (i : ℕ) (kind : Kind) (classId token : String) (late : Bool) (answer : Except WireError String)
    (now : ℕ) : State Value Finding :=
  match answer with
  | .ok text =>
    let cache := s.cache.putContent kind classId settings.pin text
    { s.goto i (.done (.served kind text) late) with
      cache := cache.rememberEntitled (settings.callerHash token) classId settings.pin now
      confirmations := s.confirmations ++ [⟨token, classId, now⟩] }
  | .error (.notEntitled denial) => s.goto i (.done (.fallback kind (.denied denial)) late)
  | .error .unavailable => s.goto i (.done (.fallback kind .unavailable) late)
  | .error e => (s.observe settings e).goto i (.done (.thrown e) late)

/-- `evaluate` with the attributes of the element, up to the request of `schemaFor`. -/
def onAttributes (i : ℕ) (evaluation : Evaluation) (raw : Option (Record String Value)) : State Value Finding :=
  match raw with
  | none => s.goto i (.done (.thrown .unavailable) evaluation.late)
  | some raw =>
    match s.cache.getSchema evaluation.classId settings.pin with
    | some schema => s.goto i (.stripping evaluation raw schema)
    | none => s.goto i (.fetchingSchema evaluation raw s.recalled)

/-- `schemaFor` after the answer to its request. -/
def onSchema (i : ℕ) (evaluation : Evaluation) (raw : Record String Value) (answer : Except WireError Template) :
    State Value Finding :=
  match answer with
  | .ok template =>
    { s.goto i (.stripping evaluation raw template.properties) with
      cache := s.cache.putSchema evaluation.classId settings.pin template.properties }
  | .error e => (s.observe settings e).goto i (.done (.thrown e) evaluation.late)

/-- `evaluate` with the schema, up to its request. -/
def onResume (i : ℕ) (evaluation : Evaluation) (raw : Record String Value) (schema : List String) :
    State Value Finding :=
  let hash := settings.attributesHash (stripToSchema (withoutReservedAttributes raw) schema)
  match s.cache.getEval evaluation.classId settings.pin hash with
  | some cached => s.goto i (.done (.evaluated (cached.half evaluation.half)) evaluation.late)
  | none => s.goto i (.evaluating evaluation hash s.recalled)

/-- `evaluate` after the answer to its request. -/
def onEvaluation (i : ℕ) (evaluation : Evaluation) (hash : String) (answer : Except WireError (EvalResult Finding)) :
    State Value Finding :=
  match answer with
  | .ok result =>
    { s.goto i (.done (.evaluated (result.half evaluation.half)) evaluation.late) with
      cache := s.cache.putEval evaluation.classId settings.pin hash result }
  | .error e => (s.observe settings e).goto i (.done (.thrown e) evaluation.late)

def next : Event Value Finding → Option (State Value Finding)
  | .content i kind classId token now =>
    if i ∈ s.phases.keys then none else some (serveContent settings s i kind classId token now)
  | .evaluate i half classId token =>
    if i ∈ s.phases.keys then none
    else
      match token with
      | none => some (s.goto i (.done (.thrown .unavailable) s.recalled))
      | some token => some (s.goto i (.readingAttributes ⟨half, classId, token, s.recalled⟩))
  | .attributes i raw =>
    match s.phases.get? i with
    | some (.readingAttributes evaluation) => some (onAttributes settings s i evaluation raw)
    | _ => none
  | .resume i =>
    match s.phases.get? i with
    | some (.stripping evaluation raw schema) => some (onResume settings s i evaluation raw schema)
    | _ => none
  | .template i answer now =>
    match s.phases.get? i with
    | some (.fetching .template classId token late) =>
      some (onContent settings s i .template classId token late (answer.map Template.text) now)
    | some (.fetchingSchema evaluation raw _) => some (onSchema settings s i evaluation raw answer)
    | _ => none
  | .guide i answer now =>
    match s.phases.get? i with
    | some (.fetching .guide classId token late) =>
      some (onContent settings s i .guide classId token late answer now)
    | _ => none
  | .evaluation i answer =>
    match s.phases.get? i with
    | some (.evaluating evaluation hash _) => some (onEvaluation settings s i evaluation hash answer)
    | _ => none

end

lemma phase_of_outcome? {s : State Value Finding} {i : ℕ} {outcome : Outcome Finding} {late : Bool}
    (h : s.outcome? i = some (outcome, late)) : s.phases.get? i = some (.done outcome late) := by
  unfold State.outcome? at h
  split at h <;> cases h
  rename_i hphase
  exact hphase

def initial : State Value Finding := ⟨.empty, ∅, false, []⟩

def remoteModule (settings : Settings Value) : TransitionSystem (State Value Finding) (Event Value Finding) where
  init s := s = initial
  next := next settings

end RemoteModule
