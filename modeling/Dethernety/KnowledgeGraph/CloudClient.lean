import Dethernety.Foundations.JsonText
import Dethernety.Foundations.Transition
import Dethernety.RemoteModule.ResponseCache

/-!
# The knowledge-graph client

Queries of any callers on one `CloudKgClient`, side by side. The distinct keys of a query are split into chunks, each
chunk is answered from the cache of its caller or by a request, and the answers are merged into a map that has every
key from the start. A query runs up to the next point where it waits; what comes then, and when, is an event.

A row is mapped by a parameter, which fails on one that lacks a required field. The registry is read once for each
query; that the read is shared, `capability`, and the ids of requests are left out.
-/

namespace KnowledgeGraph

open RemoteModule (capFifo entitlementTtlMs)

inductive QueryName
  | rulesByClassId
  | threatsByRuleId
  | threatsByTechniqueId

def QueryName.text : QueryName → String
  | .rulesByClassId => "rulesByClassId"
  | .threatsByRuleId => "threatsByRuleId"
  | .threatsByTechniqueId => "threatsByTechniqueId"

def parameterName : QueryName → String
  | .rulesByClassId => "classIds"
  | .threatsByRuleId => "ruleRefs"
  | .threatsByTechniqueId => "techniqueIds"

inductive RuleKind
  | exposure
  | countermeasure

def RuleKind.text : RuleKind → String
  | .exposure => "exposure"
  | .countermeasure => "countermeasure"

structure RuleRef where
  classId : String
  ruleId : String

/-- A call of one of the three queries. -/
inductive Request
  | rulesByClassId (classIds : List String) (kind : Option RuleKind)
  | threatsByRuleId (refs : List RuleRef)
  | threatsByTechniqueId (techniqueIds : List String)

def Request.name : Request → QueryName
  | .rulesByClassId _ _ => .rulesByClassId
  | .threatsByRuleId _ => .threatsByRuleId
  | .threatsByTechniqueId _ => .threatsByTechniqueId

def Request.kind : Request → Option RuleKind
  | .rulesByClassId _ kind => kind
  | _ => none

/-! ## Keys -/

def kgRefKey (ref : RuleRef) : String :=
  ref.classId ++ "\x1F" ++ ref.ruleId

def distinct : List String → List String
  | [] => []
  | key :: keys => key :: (distinct keys).filter (· ≠ key)

/-- The keys as they are asked for, with their repeats. -/
def Request.allKeys : Request → List String
  | .rulesByClassId classIds _ => classIds
  | .threatsByRuleId refs => refs.map kgRefKey
  | .threatsByTechniqueId techniqueIds => techniqueIds

/-- The keys of `distinct` or `distinctRefs`. -/
def Request.keys (request : Request) : List String :=
  distinct request.allKeys

def seededMap {T : Type} (keys : List String) : Record String (List T) :=
  keys.foldl (fun out key => out.set key []) ∅

/-- The loop of `chunked`. -/
def slices (size : ℕ) : ℕ → List String → List (List String)
  | 0, _ => []
  | _, [] => []
  | n + 1, key :: keys => (key :: keys).take size :: slices size n ((key :: keys).drop size)

def chunked (keys : List String) (size : ℕ) : List (List String) :=
  if keys.length ≤ size then [keys] else slices size keys.length keys

def publishedMaxItems : ℕ := 100

/-- `maxItems`, from what is read of the registry. -/
def maxItems (published : Option ℕ) : ℕ :=
  match published with
  | some bound => if 0 < bound then bound else publishedMaxItems
  | none => publishedMaxItems

/-! ## Cached answers -/

structure Parameters where
  query : QueryName
  keys : List String
  kind : Option RuleKind

def stableStringify (parameters : Parameters) : List Char :=
  '{' :: (JsonText.quote (parameterName parameters.query) ++ ':' :: (JsonText.quoteList parameters.keys ++
    match parameters.kind with
    | some kind => ',' :: (JsonText.quote "kind" ++ ':' :: (JsonText.quote kind.text ++ ['}']))
    | none => ['}']))

/-- What a client is constructed with, its hashes, and `toRule` and `toThreat`. -/
structure Settings (Match Row : Type) where
  version : String
  callerHash : String → String
  sha256 : List Char → String
  toRow : QueryName → Match → Option Row

abbrev CacheKey := String × String × String × String

def kgKey {Match Row : Type} (settings : Settings Match Row) (token : String) (parameters : Parameters) : CacheKey :=
  (settings.callerHash token, parameters.query.text, settings.version, settings.sha256 (stableStringify parameters))

/-- A cached answer; `token` is that of the request. -/
structure KgAnswer (Match : Type) where
  results : List (String × List Match)
  expiresAt : ℕ
  token : String

/-! ## Queries -/

/-- Why a request fails. -/
inductive Failure
  | notEntitled
  | other

inductive KgError
  | noToken
  | request (failure : Failure)
  | truncated
  | incomplete
  /-- A row lacks a required field. -/
  | malformedRow

/-- What the service answers; `results` is `none` if it is no list, and an entry is `none` if it has no key or no list
of matches. -/
structure Body (Match : Type) where
  truncated : Bool
  results : Option (List (Option (String × List Match)))

inductive Phase (Row : Type)
  | awaitingBound
  | asking (bound : ℕ) (chunks : List (List String)) (out : Record String (List Row))
  | awaitingAnswer (bound : ℕ) (chunk : List String) (chunks : List (List String)) (out : Record String (List Row))
  | answered (out : Record String (List Row))
  | thrown (error : KgError)

structure Call (Row : Type) where
  request : Request
  token : String
  phase : Phase Row

/-- A request that was sent, and the bound that its query had read. -/
structure Sent where
  token : String
  parameters : Parameters
  bound : ℕ

structure State (Match Row : Type) where
  kgAnswers : Record CacheKey (KgAnswer Match)
  calls : Record ℕ (Call Row)
  sent : List Sent
  /-- The token of a query that used an answer, and that of the request for it. -/
  used : List (String × String)

inductive Event (Match : Type)
  /-- A missing token is empty. -/
  | query (i : ℕ) (request : Request) (token : String)
  /-- `maxItems` has read the registry, or could not. -/
  | bound (i : ℕ) (published : Option ℕ)
  /-- The next round of the loop of `answer`. -/
  | goOn (i : ℕ) (now : ℕ)
  | answer (i : ℕ) (answer : Except Failure (Body Match)) (now : ℕ)

variable {Match Row : Type}

/-- `isCompleteAnswer`, with the entries that it has read. -/
def completeAnswer (results : Option (List (Option (String × List Match)))) (asked : List String) :
    Option (List (String × List Match)) :=
  (results.bind fun entries => entries.mapM id).filter fun entries => asked.all fun key => key ∈ entries.map Prod.fst

/-- The inner loop of `answer`: an entry for a key that was not asked for is dropped. -/
def merge (toRow : Match → Option Row) (out : Record String (List Row)) :
    List (String × List Match) → Option (Record String (List Row))
  | [] => some out
  | (key, found) :: results =>
    match out.get? key with
    | none => merge toRow out results
    | some rows =>
      match found.mapM toRow with
      | none => none
      | some more => merge toRow (out.set key (rows ++ more)) results

section

variable (settings : Settings Match Row) (s : State Match Row)

def State.goto (i : ℕ) (call : Call Row) (phase : Phase Row) : State Match Row :=
  { s with calls := s.calls.set i { call with phase := phase } }

/-- The parameters of a request for a chunk. -/
def Call.parameters (call : Call Row) (chunk : List String) : Parameters :=
  ⟨call.request.name, chunk, call.request.kind⟩

/-- A query up to where it reads the registry. -/
def start (i : ℕ) (request : Request) (token : String) : State Match Row :=
  let call : Call Row := ⟨request, token, .awaitingBound⟩
  if request.keys = [] then s.goto i call (.answered ∅)
  else if token = "" then s.goto i call (.thrown .noToken)
  else s.goto i call .awaitingBound

/-- The rows of an answer are merged into the map. -/
def use (i : ℕ) (call : Call Row) (bound : ℕ) (chunks : List (List String)) (out : Record String (List Row))
    (results : List (String × List Match)) (token : String) : State Match Row :=
  let s := { s with used := s.used ++ [(call.token, token)] }
  match merge (settings.toRow call.request.name) out results with
  | none => s.goto i call (.thrown .malformedRow)
  | some out => s.goto i call (.asking bound chunks out)

/-- A chunk, from the cache or by a request (`getKgQuery`). -/
def ask (i : ℕ) (call : Call Row) (bound : ℕ) (chunk : List String) (chunks : List (List String))
    (out : Record String (List Row)) (now : ℕ) : State Match Row :=
  let key := kgKey settings call.token (call.parameters chunk)
  let send := fun s : State Match Row =>
    { s.goto i call (.awaitingAnswer bound chunk chunks out) with
      sent := s.sent ++ [⟨call.token, call.parameters chunk, bound⟩] }
  match s.kgAnswers.get? key with
  | none => send s
  | some cached =>
    if cached.expiresAt ≤ now then send { s with kgAnswers := s.kgAnswers.erase key }
    else use settings s i call bound chunks out cached.results cached.token

def putKgQuery (token : String) (parameters : Parameters) (results : List (String × List Match)) (now : ℕ) :
    State Match Row :=
  { s with
    kgAnswers := capFifo (s.kgAnswers.set (kgKey settings token parameters) ⟨results, now + entitlementTtlMs, token⟩) }

def evictCaller (token : String) : State Match Row :=
  { s with kgAnswers := s.kgAnswers.filterKeys fun key => key.1 ≠ settings.callerHash token }

/-- `results` with the answer to its request. -/
def onAnswer (i : ℕ) (call : Call Row) (bound : ℕ) (chunk : List String) (chunks : List (List String))
    (out : Record String (List Row)) (answer : Except Failure (Body Match)) (now : ℕ) : State Match Row :=
  match answer with
  | .error .notEntitled => (evictCaller settings s call.token).goto i call (.thrown (.request .notEntitled))
  | .error .other => s.goto i call (.thrown (.request .other))
  | .ok body =>
    if body.truncated then s.goto i call (.thrown .truncated)
    else
      match completeAnswer body.results chunk with
      | none => s.goto i call (.thrown .incomplete)
      | some results =>
        use settings (putKgQuery settings s call.token (call.parameters chunk) results now) i call bound chunks out
          results
          call.token

def next : Event Match → Option (State Match Row)
  | .query i request token => if i ∈ s.calls.keys then none else some (start s i request token)
  | .bound i published =>
    match s.calls.get? i with
    | some ⟨request, token, .awaitingBound⟩ =>
      some (s.goto i ⟨request, token, .awaitingBound⟩
        (.asking (maxItems published) (chunked request.keys (maxItems published)) (seededMap request.keys)))
    | _ => none
  | .goOn i now =>
    match s.calls.get? i with
    | some ⟨request, token, .asking _ [] out⟩ => some (s.goto i ⟨request, token, .awaitingBound⟩ (.answered out))
    | some ⟨request, token, .asking bound (chunk :: chunks) out⟩ =>
      some (ask settings s i ⟨request, token, .awaitingBound⟩ bound chunk chunks out now)
    | _ => none
  | .answer i answer now =>
    match s.calls.get? i with
    | some ⟨request, token, .awaitingAnswer bound chunk chunks out⟩ =>
      some (onAnswer settings s i ⟨request, token, .awaitingBound⟩ bound chunk chunks out answer now)
    | _ => none

end

def cloudClient (settings : Settings Match Row) : TransitionSystem (State Match Row) (Event Match) where
  init s := s = ⟨∅, ∅, [], []⟩
  next := next settings

end KnowledgeGraph
