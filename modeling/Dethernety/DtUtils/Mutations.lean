import Dethernety.Foundations.JsonScan
import Dethernety.Foundations.Transition

/-!
# Mutations of one client

`performMutation` of `dt-utils.ts` with the deduplication of requests and the mutex under it, the network, and a
server that executes the requests in the order in which they were sent. A call with a deduplication key joins the
request under its key; a call that does not join one makes a request, which waits on the mutex for the request before
it with the same action and variables.

A request is sent in a microtask of its own, and microtasks run in the order in which they were queued. The promises of
an answered request settle one after the other: its tail on the mutex, what `finally` does to the mutex, and what
`finally` does to the entry of the deduplicator are events of their own. The metadata of the deduplicator, which only
the log reads, is left out, and so is the text of an error.
-/

namespace DtUtils

/-- The variables of a mutation as JSON. -/
structure Variables where
  fields : List (String × JsonTree)
  numeric : JsonText.numericFields fields = true

/-- `JSON.stringify(variables)`, which is what is sent. -/
def Variables.text (vars : Variables) : String :=
  String.ofList (JsonText.stringify (.object vars.fields))

/-- The arguments of `performMutation`. -/
structure MutationArgs (M : Type*) where
  mutation : M
  vars : Variables
  dataPath : String
  action : String
  /-- `false` is read like an absent key. -/
  deduplicationKey : Option String

namespace MutationArgs

variable {M : Type*} (args : MutationArgs M)

def mutexKey : String :=
  args.action ++ "-" ++ args.vars.text

/-- The key under which the call is deduplicated, if it is. -/
def dedupKey : Option String :=
  match args.deduplicationKey with
  | some key => if key = "" then none else some (key ++ "::" ++ args.mutexKey)
  | none => none

end MutationArgs

/-- A request as `executeActualMutation` makes it. -/
structure Request (M : Type*) where
  id : ℕ
  mutation : M
  vars : String
  dataPath : String
  deriving DecidableEq

/-- A call that has been made, with the request whose promise it awaits. -/
structure PerformedCall (M : Type*) where
  args : MutationArgs M
  request : ℕ
  /-- The number of calls made before. -/
  number : ℕ

/-- A client with what it has sent and what the server has done; `D` is the data of an answer. -/
structure Client (M D : Type*) where
  /-- The request whose tail is stored under a key. -/
  mutex : Record String ℕ
  /-- The request whose promise is stored under a key. -/
  requestDeduplicator : Record String ℕ
  created : ℕ
  /-- Requests that wait on the mutex, each with the request before it. -/
  waiting : List (ℕ × Request M)
  /-- Requests that a microtask is queued for. -/
  microtasks : List (Request M)
  /-- Requests that have been sent and that the server has not come to. -/
  inbox : List (Request M)
  /-- Requests that wait for their answer, with whether the server has done them. -/
  executed : List (Request M × Bool)
  /-- Requests whose promise has settled, with the value at the path unless it is rejected. -/
  settled : List (Request M × Option D)
  /-- Requests whose tail has settled. -/
  released : List ℕ
  /-- What the server has done, the latest first. -/
  applied : List (Request M)
  /-- The calls, the latest first. -/
  calls : List (PerformedCall M)

namespace Client

variable {M D : Type*} (s : Client M D)

/-- The request that a call joins. -/
def joined (args : MutationArgs M) : Option ℕ :=
  args.dedupKey.bind s.requestDeduplicator.get?

/-- The call awaits the promise of a request. -/
def await (args : MutationArgs M) (request : ℕ) : Client M D :=
  { s with calls := ⟨args, request, s.calls.length⟩ :: s.calls }

/-- `exec` of `performMutation` with `withMutex`, until the request waits or has its microtask. -/
def exec (args : MutationArgs M) : Client M D :=
  let request : Request M := ⟨s.created, args.mutation, args.vars.text, args.dataPath⟩
  let made :=
    { s.await args s.created with created := s.created + 1, mutex := s.mutex.set args.mutexKey s.created }
  match s.mutex.get? args.mutexKey with
  | none => { made with microtasks := s.microtasks ++ [request] }
  | some prev =>
    if prev ∈ s.released then { made with microtasks := s.microtasks ++ [request] }
    else { made with waiting := s.waiting ++ [(prev, request)] }

/-- `performMutation` until it awaits the promise. -/
def performMutation (args : MutationArgs M) : Client M D :=
  match s.joined args with
  | some request => s.await args request
  | none =>
    match args.dedupKey with
    | some key => { s.exec args with requestDeduplicator := s.requestDeduplicator.set key s.created }
    | none => s.exec args

end Client

inductive ClientEvent (M D : Type*)
  | call (args : MutationArgs M)
  /-- The next microtask sends its request. -/
  | send
  /-- The server comes to the next request, and does it or not. -/
  | execute (ok : Bool)
  /-- The answer to a request: the value at its path, or none for an error or a missing value. -/
  | answer (request : Request M) (ok : Bool) (data : Option D)
  /-- The tail of an answered request settles. -/
  | settleTail (request : ℕ)
  /-- `finally` of `withMutex`: the entry goes if the tail is still the stored one. -/
  | leaveMutex (key : String)
  /-- `finally` of `withDeduplication` -/
  | leaveDeduplicator (key : String)
  /-- The time to live of the stored promise is over. -/
  | expire (key : String)

namespace Client

variable {M D : Type*} [DecidableEq M]

/-- One event. -/
def next (s : Client M D) : ClientEvent M D → Option (Client M D)
  | .call args => some (s.performMutation args)
  | .send =>
    match s.microtasks with
    | [] => none
    | request :: microtasks => some { s with microtasks := microtasks, inbox := s.inbox ++ [request] }
  | .execute ok =>
    match s.inbox with
    | [] => none
    | request :: inbox =>
      some { s with
        inbox := inbox
        executed := (request, ok) :: s.executed
        applied := if ok then request :: s.applied else s.applied }
  | .answer request ok data =>
    if (request, ok) ∈ s.executed ∧ (data.isSome → ok) then
      some { s with
        executed := s.executed.erase (request, ok)
        settled := (request, data) :: s.settled }
    else none
  | .settleTail request =>
    if request ∈ s.settled.map (·.1.id) ∧ request ∉ s.released then
      some { s with
        released := request :: s.released
        waiting := s.waiting.filter (·.1 ≠ request)
        microtasks := s.microtasks ++ (s.waiting.filter (·.1 = request)).map Prod.snd }
    else none
  | .leaveMutex key =>
    match s.mutex.get? key with
    | some request => if request ∈ s.released then some { s with mutex := s.mutex.erase key } else none
    | none => none
  | .leaveDeduplicator key =>
    match s.requestDeduplicator.get? key with
    | some request =>
      if request ∈ s.settled.map (·.1.id) then
        some { s with requestDeduplicator := s.requestDeduplicator.erase key }
      else none
    | none => none
  | .expire key =>
    match s.requestDeduplicator.get? key with
    | some _ => some { s with requestDeduplicator := s.requestDeduplicator.erase key }
    | none => none

/-- A client that has made no call. -/
def initial : Client M D where
  mutex := ∅
  requestDeduplicator := ∅
  created := 0
  waiting := []
  microtasks := []
  inbox := []
  executed := []
  settled := []
  released := []
  applied := []
  calls := []

/-- One client and its server. -/
def system : TransitionSystem (Client M D) (ClientEvent M D) where
  init s := s = initial
  next := next

end Client

end DtUtils
