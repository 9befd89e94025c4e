import Mathlib.Tactic.SplitIfs
import Mathlib.Data.List.Basic
import Dethernety.Foundations.Transition

/-!
# Exclusion and batching of saves

Model of `runExclusive`, `setAttributesWithBatching`, `processBatch`, `cleanupStaleBatches` and the
resolver of `set-instantiation-attributes.service.ts`. Within one process the code between two awaits is
one step; timers, retries and settlements come in any order.

A call is a call of the resolver (a save) or of another operation that takes the element (a binding
change, a re-evaluation). The ids of the records are given by the events: nothing rests on their being
different. Whether entries of a queue are older than the threshold is given by the event of the cleanup.
-/

open List Function Option

namespace Exclusion

structure SetAttributesResult where
  success : Bool
  staleFlippedCount : Option ℕ
  unresolvedReferences : Option (List String)
  errorCode : Option String
  error : Option String
  deriving DecidableEq

/-- How a promise settles; an error carries its type, if it is structured, and its message. -/
inductive Outcome
  | result (result : SetAttributesResult)
  | error (type : Option String) (message : String)
  deriving DecidableEq

/-- What the resolver returns. -/
structure Envelope where
  success : Bool
  staleFlippedCount : Option ℕ
  unresolvedReferences : Option (List String)
  errorCode : Option String
  errorMessage : Option String

/-- The end of the resolver, after the exclusive operation or in its `catch`. -/
def envelope (safeErrorMessage : String → String) : Outcome → Envelope
  | .result r =>
    { success := r.success
      staleFlippedCount := r.staleFlippedCount
      unresolvedReferences := r.unresolvedReferences
      errorCode := if r.success then none else some (r.errorCode.getD "UNKNOWN_ERROR")
      errorMessage := if r.success then none else r.error }
  | .error type message =>
    { success := false
      staleFlippedCount := none
      unresolvedReferences := none
      errorCode := some (type.getD "UNKNOWN_ERROR")
      errorMessage := some (if type.isSome then message else safeErrorMessage message) }

/-- Where a call stands. -/
inductive Phase (Op : Type)
  | idle
  /-- The interval that polls for the record is set. -/
  | waiting
  /-- Its record was set and its operation runs. -/
  | running (op : Op)
  /-- The promise of its operation is settled, and the `finally` is still to run. -/
  | settled (op : Op) (outcome : Outcome)
  | returned (outcome : Outcome)
  deriving DecidableEq

/-- The id of the record that a call holds. -/
def Phase.op {Op : Type} : Phase Op → Option Op
  | running op => some op
  | settled op _ => some op
  | _ => none

/-- The operation of the call runs. -/
def Phase.isRunning {Op : Type} : Phase Op → Bool
  | running _ => true
  | _ => false

/-- The call has its answer, which its `finally` will return or has returned. -/
def Phase.answer {Op : Type} : Phase Op → Option Outcome
  | settled _ outcome => some outcome
  | returned outcome => some outcome
  | _ => none

/-- The calls of a process, and what they are about. -/
structure Calls (ι Element Request : Type) where
  element : ι → Element
  /-- A call of the resolver; the other calls run an operation of their own. -/
  isSave : ι → Bool
  /-- The class and the attributes of a save. -/
  request : ι → Request
  /-- `config.batchEnabled` -/
  batchEnabled : Bool

/-- An execution of `setAttributes`. -/
structure Execution (ι Request : Type) where
  /-- The call whose entry was the latest of the batch. -/
  call : ι
  request : Request
  result : SetAttributesResult

structure State (ι Element Request Op : Type) where
  phase : ι → Phase Op
  /-- `concurrentOperations`, each with its `operationId` -/
  concurrentOperations : Element → Option Op
  /-- `batchQueue` -/
  batchQueue : Element → List ι
  /-- The armed timers of `batchTimeouts`. -/
  batchTimeouts : Element → Bool
  /-- The entries of the batch whose latest request `setAttributes` is executing. -/
  executing : ι → Option (List ι)
  /-- The executions that have ended. -/
  executed : List (Execution ι Request)

inductive Event (ι Element Op : Type)
  /-- A call of `runExclusive`, with the `operationId` it draws. -/
  | call (c : ι) (op : Op)
  /-- The interval of a waiting call fires. -/
  | poll (c : ι) (op : Op)
  /-- The timer of a queue fires. -/
  | timer (el : Element)
  /-- The execution for the latest entry of a batch settles. -/
  | execution (c : ι) (outcome : Outcome)
  /-- The operation of a call other than a save settles. -/
  | operation (c : ι) (outcome : Outcome)
  /-- `cleanupStaleBatches` comes to a queue. -/
  | cleanup (el : Element) (stale : ι → Bool)
  /-- The `finally` of `runExclusive`. -/
  | release (c : ι)

section

variable {ι Element Request Op : Type} [DecidableEq ι] [DecidableEq Element] [DecidableEq Op]

namespace State

variable (calls : Calls ι Element Request) (s : State ι Element Request Op)

/-- `setAttributesWithBatching`: the entry is pushed and the timer is set anew. -/
def enqueue (c : ι) : State ι Element Request Op :=
  { s with
    batchQueue := update s.batchQueue (calls.element c) (s.batchQueue (calls.element c) ++ [c])
    batchTimeouts := update s.batchTimeouts (calls.element c) true }

/-- `setAttributes` starts for the latest entry of a batch. -/
def execute (c : ι) (entries : List ι) : State ι Element Request Op :=
  { s with executing := update s.executing c (some entries) }

/-- The record of a call is set, and its operation runs up to its first await. -/
def enter (c : ι) (op : Op) : State ι Element Request Op :=
  let held : State ι Element Request Op :=
    { s with
      phase := update s.phase c (.running op)
      concurrentOperations := update s.concurrentOperations (calls.element c) (some op) }
  if calls.isSave c then
    if calls.batchEnabled then held.enqueue calls c else held.execute c [c]
  else held

/-- The head of `runExclusive`: take the element, or wait for it. -/
def take (c : ι) (op : Op) : State ι Element Request Op :=
  match s.concurrentOperations (calls.element c) with
  | none => s.enter calls c op
  | some _ => { s with phase := update s.phase c .waiting }

/-- `entry.resolve(result)` or `entry.reject(error)` for each of the entries; a promise that is settled
stays as it is. -/
def settle (entries : List ι) (outcome : Outcome) : State ι Element Request Op :=
  { s with
    phase := fun d =>
      match s.phase d with
      | .running op => if d ∈ entries then .settled op outcome else .running op
      | phase => phase }

def processBatch (el : Element) : State ι Element Request Op :=
  let fired : State ι Element Request Op :=
    { s with batchTimeouts := update s.batchTimeouts el false }
  match (s.batchQueue el).getLast? with
  | none => fired
  | some latest =>
    { fired with batchQueue := update s.batchQueue el [] }.execute latest (s.batchQueue el)

/-- An execution has ended: `processBatch` after its await. -/
def endExecution (c : ι) (entries : List ι) (outcome : Outcome) : State ι Element Request Op :=
  let settled := s.settle entries outcome
  { settled with
    executing := update s.executing c none
    executed := match outcome with
      | .result result => s.executed ++ [⟨c, calls.request c, result⟩]
      | .error _ _ => s.executed }

/-- `cleanupStaleBatches` for one queue. -/
def cleanup (el : Element) (stale : ι → Bool) : State ι Element Request Op :=
  let entries := s.batchQueue el
  let staleEntries := entries.filter stale
  if staleEntries = [] then s
  else
    let freshEntries := entries.filter fun d => !stale d
    let rejected := s.settle staleEntries (.error none "Batch operation timed out")
    { rejected with
      batchQueue := update s.batchQueue el freshEntries
      batchTimeouts :=
        if freshEntries = [] then update s.batchTimeouts el false else s.batchTimeouts }

/-- The `finally` of `runExclusive`: the record is removed if it bears the call's own id. -/
def release (c : ι) (op : Op) (outcome : Outcome) : State ι Element Request Op :=
  { s with
    phase := update s.phase c (.returned outcome)
    concurrentOperations :=
      if s.concurrentOperations (calls.element c) = some op then
        update s.concurrentOperations (calls.element c) none
      else s.concurrentOperations }

end State

open State

variable (calls : Calls ι Element Request)

/-- The effect of an event. -/
def next (s : State ι Element Request Op) : Event ι Element Op → Option (State ι Element Request Op)
  | .call c op => if s.phase c = .idle then some (s.take calls c op) else none
  | .poll c op =>
    if s.phase c = .waiting then
      some (if (s.concurrentOperations (calls.element c)).isSome then s else s.take calls c op)
    else none
  | .timer el => if s.batchTimeouts el then some (s.processBatch el) else none
  | .execution c outcome => (s.executing c).map fun entries => s.endExecution calls c entries outcome
  | .operation c outcome =>
    match s.phase c with
    | .running _ => if calls.isSave c then none else some (s.settle [c] outcome)
    | _ => none
  | .cleanup el stale => some (s.cleanup el stale)
  | .release c =>
    match s.phase c with
    | .settled op outcome => some (s.release calls c op outcome)
    | _ => none

/-- The service after its construction. -/
def State.initial : State ι Element Request Op where
  phase _ := .idle
  concurrentOperations _ := none
  batchQueue _ := []
  batchTimeouts _ := false
  executing _ := none
  executed := []

/-- The calls of one process, before its shutdown, in any order of steps. -/
def system : TransitionSystem (State ι Element Request Op) (Event ι Element Op) where
  init s := s = .initial
  next := next calls

/-- Every state that some run reaches. -/
def Reached (s : State ι Element Request Op) : Prop :=
  (system calls).Reachable (fun _ _ => True) s

end

section

variable {ι Element Request Op : Type} {calls : Calls ι Element Request}
  {s s' : State ι Element Request Op} {c d : ι} {op : Op} {outcome : Outcome}
  {entries : List ι}

/-- What holds of every state: a call that holds a record is the only one of its element, and an entry of
a queue or of a batch belongs to such a call. -/
structure Inv (calls : Calls ι Element Request) (s : State ι Element Request Op) : Prop where
  /-- A call's record is in place from its start to its release. -/
  held : ∀ c op, (s.phase c).op = some op → s.concurrentOperations (calls.element c) = some op
  one_holder : ∀ c d, (s.phase c).op ≠ none → (s.phase d).op ≠ none →
    calls.element c = calls.element d → c = d
  queued : ∀ el, ∀ d ∈ s.batchQueue el,
    calls.element d = el ∧ calls.isSave d = true ∧ (s.phase d).isRunning = true
  /-- A batch that is executed has the entries of one call, which is not in the queue any more. -/
  executing : ∀ c entries, s.executing c = some entries → (s.phase c).isRunning = true ∧
    calls.isSave c = true ∧ c ∉ s.batchQueue (calls.element c) ∧ ∀ d ∈ entries, d = c
  /-- An answer of a save is that of an execution of its own request. -/
  answered : ∀ c r, calls.isSave c = true → (s.phase c).answer = some (.result r) →
    ⟨c, calls.request c, r⟩ ∈ s.executed

lemma inv_initial : Inv calls (.initial : State ι Element Request Op) where
  held c op h := by cases h
  one_holder c d h _ := absurd rfl h
  queued el d h := absurd h not_mem_nil
  executing c entries h := by cases h
  answered c r _ h := by cases h

lemma op_ne_none_of_isRunning {phase : Phase Op} (h : phase.isRunning = true) : phase.op ≠ none := by
  cases phase with
  | running op => exact some_ne_none op
  | _ => cases h

lemma Inv.eq_of_mem_queue (h : Inv calls s) (hc : (s.phase c).op ≠ none)
    (hd : d ∈ s.batchQueue (calls.element c)) : d = c := by
  obtain ⟨helement, -, hrunning⟩ := h.queued _ d hd
  exact h.one_holder d c (op_ne_none_of_isRunning hrunning) hc helement

lemma Inv.shrinkQueue (h : Inv calls s) {queue : Element → List ι} {timeouts : Element → Bool}
    (hsub : ∀ el, queue el ⊆ s.batchQueue el) :
    Inv calls { s with batchQueue := queue, batchTimeouts := timeouts } where
  held := h.held
  one_holder := h.one_holder
  queued el d hd := h.queued el d (hsub el hd)
  executing d entries hd := by
    obtain ⟨hrunning, hsave, hnotMem, hentries⟩ := h.executing d entries hd
    exact ⟨hrunning, hsave, fun hmem => hnotMem (hsub _ hmem), hentries⟩
  answered := h.answered

section

variable [DecidableEq ι]

/-- Settling ends a save, and changes none. -/
@[simp]
lemma op_settle (s : State ι Element Request Op) (entries : List ι) (outcome : Outcome) (d : ι) :
    ((s.settle entries outcome).phase d).op = (s.phase d).op := by
  show (match s.phase d with
    | .running op => if d ∈ entries then Phase.settled op outcome else .running op
    | phase => phase).op = (s.phase d).op
  cases s.phase d with
  | running op => split_ifs <;> rfl
  | _ => rfl

lemma phase_settle_of_notMem (h : d ∉ entries) : (s.settle entries outcome).phase d = s.phase d := by
  show (match s.phase d with
    | .running op => if d ∈ entries then Phase.settled op outcome else .running op
    | phase => phase) = s.phase d
  cases s.phase d with
  | running op => exact if_neg h
  | _ => rfl

lemma answer_settle {answer : Outcome} (h : ((s.settle entries outcome).phase d).answer = some answer) :
    (s.phase d).answer = some answer ∨ (d ∈ entries ∧ outcome = answer) := by
  replace h : (match s.phase d with
    | .running op => if d ∈ entries then Phase.settled op outcome else .running op
    | phase => phase).answer = some answer := h
  cases hphase : s.phase d with
  | running op =>
    rw [hphase] at h
    split_ifs at h with hd
    · exact .inr ⟨hd, Option.some.inj h⟩
    · cases h
  | idle | waiting | settled op o | returned o => exact .inl (by rw [hphase] at h; exact h)

end

variable [DecidableEq ι]

/-- Entries of a call that is in no execution are settled and leave their queue. -/
lemma Inv.settle (h : Inv calls s) (hexecuting : ∀ d ∈ entries, s.executing d = none)
    (hqueue : ∀ el, ∀ d ∈ s.batchQueue el, d ∉ entries)
    (hanswer : ∀ d ∈ entries, calls.isSave d = true → ∀ r, outcome = .result r →
      ⟨d, calls.request d, r⟩ ∈ s.executed) : Inv calls (s.settle entries outcome) := by
  refine ⟨fun d op hd => ?_, fun d e hd he => ?_, fun el d hd => ?_, fun d entries' hd => ?_,
    fun d r hsave hd => ?_⟩
  · rw [op_settle] at hd
    exact h.held d op hd
  · rw [op_settle] at hd he
    exact h.one_holder d e hd he
  · obtain ⟨helement, hsave, hrunning⟩ := h.queued el d hd
    rw [phase_settle_of_notMem (hqueue el d hd)]
    exact ⟨helement, hsave, hrunning⟩
  · obtain ⟨hrunning, hrest⟩ := h.executing d entries' hd
    have hnotMem : d ∉ entries := by
      intro hmem
      have hnone : s.executing d = some entries' := hd
      rw [hexecuting d hmem] at hnone
      cases hnone
    rw [phase_settle_of_notMem hnotMem]
    exact ⟨hrunning, hrest⟩
  · rcases answer_settle hd with hd' | ⟨hmem, houtcome⟩
    · exact h.answered d r hsave hd'
    · exact hanswer d hmem hsave r houtcome

lemma Inv.wait (h : Inv calls s) (hc : (s.phase c).op = none) :
    Inv calls { s with phase := update s.phase c .waiting } := by
  have hop : ∀ d, (update s.phase c .waiting d).op = (s.phase d).op := by
    intro d
    by_cases hdc : d = c
    · rw [hdc, update_self, hc]
      rfl
    · rw [update_of_ne hdc]
  have hrunning : ∀ d, (s.phase d).isRunning = true →
      (update s.phase c .waiting d).isRunning = true := by
    intro d hd
    by_cases hdc : d = c
    · rw [hdc] at hd
      exact absurd hc (op_ne_none_of_isRunning hd)
    · rw [update_of_ne hdc]
      exact hd
  refine ⟨fun d op hd => h.held d op (by rwa [← hop d]), fun d e hd he => ?_, fun el d hd => ?_,
    fun d entries hd => ?_, fun d r hsave hd => ?_⟩
  · exact h.one_holder d e (by rwa [← hop d]) (by rwa [← hop e])
  · obtain ⟨helement, hsave, hd'⟩ := h.queued el d hd
    exact ⟨helement, hsave, hrunning d hd'⟩
  · obtain ⟨hd', hrest⟩ := h.executing d entries hd
    exact ⟨hrunning d hd', hrest⟩
  · replace hd : (update s.phase c .waiting d).answer = some (.result r) := hd
    by_cases hdc : d = c
    · rw [hdc, update_self] at hd
      cases hd
    · rw [update_of_ne hdc] at hd
      exact h.answered d r hsave hd

lemma Inv.endExecution (h : Inv calls s) (hexecuting : s.executing c = some entries) :
    Inv calls (s.endExecution calls c entries outcome) := by
  obtain ⟨-, -, hnotMem, hentries⟩ := h.executing c entries hexecuting
  -- the state with the execution taken off and logged
  have hlogged : Inv calls { s with
      executing := update s.executing c none
      executed := match outcome with
        | .result result => s.executed ++ [⟨c, calls.request c, result⟩]
        | .error _ _ => s.executed } := by
    refine ⟨h.held, h.one_holder, h.queued, fun d entries' hd => ?_, fun d r hsave hd => ?_⟩
    · replace hd : update s.executing c none d = some entries' := hd
      by_cases hdc : d = c
      · rw [hdc, update_self] at hd
        cases hd
      · rw [update_of_ne hdc] at hd
        exact h.executing d entries' hd
    · have hmem := h.answered d r hsave hd
      cases outcome with
      | result result => exact mem_append_left _ hmem
      | error => exact hmem
  refine hlogged.settle (fun d hd => ?_) (fun el d hd hmem => ?_) (fun d hd _ r houtcome => ?_)
  · show update s.executing c none d = none
    rw [hentries d hd, update_self]
  · obtain rfl := hentries d hmem
    obtain ⟨rfl, -, -⟩ := h.queued el d hd
    exact hnotMem hd
  · rw [hentries d hd, houtcome]
    exact mem_append_right _ (mem_singleton_self _)

lemma Inv.execute (h : Inv calls s) (hrunning : (s.phase c).isRunning = true) (hsave : calls.isSave c = true)
    (hnotMem : c ∉ s.batchQueue (calls.element c)) (hentries : ∀ d ∈ entries, d = c) :
    Inv calls (s.execute c entries) :=
  { h with
    executing := fun d entries' hd => by
      replace hd : update s.executing c (some entries) d = some entries' := hd
      by_cases hdc : d = c
      · rw [hdc, update_self] at hd
        cases hd
        subst hdc
        exact ⟨hrunning, hsave, hnotMem, hentries⟩
      · rw [update_of_ne hdc] at hd
        exact h.executing d entries' hd }

variable [DecidableEq Element]

omit [DecidableEq ι] in
lemma Inv.enqueue (h : Inv calls s) (hrunning : (s.phase c).isRunning = true) (hsave : calls.isSave c = true)
    (hexecuting : ∀ d, calls.element d = calls.element c → s.executing d = none) : Inv calls (s.enqueue calls c) :=
  { h with
    queued := fun el d hd => by
      replace hd : d ∈ update s.batchQueue (calls.element c) (s.batchQueue (calls.element c) ++ [c]) el := hd
      by_cases hel : el = calls.element c
      · rw [hel, update_self] at hd
        subst hel
        obtain hd | hd := mem_append.1 hd
        · exact h.queued _ d hd
        · cases mem_singleton.1 hd
          exact ⟨rfl, hsave, hrunning⟩
      · rw [update_of_ne hel] at hd
        exact h.queued el d hd
    executing := fun d entries' hd => by
      obtain ⟨hrunning, hsave, hnotMem, hentries⟩ := h.executing d entries' hd
      refine ⟨hrunning, hsave, ?_, hentries⟩
      show d ∉ update s.batchQueue _ _ (calls.element d)
      rwa [update_of_ne fun helement => ?_]
      cases (hexecuting d helement).symm.trans hd }

lemma Inv.enter (h : Inv calls s) (hfree : s.concurrentOperations (calls.element c) = none) :
    Inv calls (s.enter calls c op) := by
  have hother : ∀ d, (s.phase d).op ≠ none → calls.element d ≠ calls.element c := by
    intro d hd helement
    obtain ⟨op', hop'⟩ := ne_none_iff_exists'.1 hd
    have hrecord := h.held d op' hop'
    rw [helement, hfree] at hrecord
    cases hrecord
  have hqueue : ∀ d, d ∉ s.batchQueue (calls.element c) := by
    intro d hd
    obtain ⟨helement, -, hrunning⟩ := h.queued _ d hd
    exact hother d (op_ne_none_of_isRunning hrunning) helement
  have hexecuting : ∀ d, calls.element d = calls.element c → s.executing d = none := by
    intro d helement
    by_contra hd
    obtain ⟨entries, hentries⟩ := ne_none_iff_exists'.1 hd
    exact hother d (op_ne_none_of_isRunning (h.executing d entries hentries).1) helement
  have hne : ∀ d, (s.phase d).op ≠ none → d ≠ c := fun d hd hdc => hother d hd (by rw [hdc])
  -- the record is set and the operation runs
  have hheld : Inv calls { s with
      phase := update s.phase c (.running op)
      concurrentOperations := update s.concurrentOperations (calls.element c) (some op) } := by
    refine ⟨fun d op' hd => ?_, fun d e hd he helement => ?_, fun el d hd => ?_, fun d entries hd => ?_,
      fun d r hsave hd => ?_⟩
    · by_cases hdc : d = c
      · subst hdc
        simpa [Phase.op] using hd
      · simp only [update_of_ne hdc] at hd
        have hop := h.held d op' hd
        rwa [← update_of_ne (hother d (by rw [hd]; simp)) (some op) s.concurrentOperations] at hop
    · by_cases hdc : d = c
      · by_cases hec : e = c
        · rw [hdc, hec]
        · simp only [update_of_ne hec] at he
          exact absurd (by rw [← helement, hdc]) (hother e he)
      · simp only [update_of_ne hdc] at hd
        by_cases hec : e = c
        · exact absurd (by rw [helement, hec]) (hother d hd)
        · simp only [update_of_ne hec] at he
          exact h.one_holder d e hd he helement
    · obtain ⟨helement, hsave, hrunning⟩ := h.queued el d hd
      exact ⟨helement, hsave, by simpa only [update_of_ne (hne d (op_ne_none_of_isRunning hrunning))]⟩
    · obtain ⟨hrunning, hrest⟩ := h.executing d entries hd
      exact ⟨by simpa only [update_of_ne (hne d (op_ne_none_of_isRunning hrunning))], hrest⟩
    · by_cases hdc : d = c
      · subst hdc
        simp [Phase.answer] at hd
      · simp only [update_of_ne hdc] at hd
        exact h.answered d r hsave hd
  have hrunning : (update s.phase c (.running op) c).isRunning = true := by
    rw [update_self]
    rfl
  rw [State.enter]
  split_ifs with hsave hbatch
  · exact hheld.enqueue hrunning hsave hexecuting
  · exact hheld.execute hrunning hsave (hqueue c) fun d hd => mem_singleton.1 hd
  · exact hheld

lemma Inv.take (h : Inv calls s) (hc : (s.phase c).op = none) : Inv calls (s.take calls c op) := by
  rw [State.take]
  split
  next hfree => exact h.enter hfree
  next => exact h.wait hc

lemma Inv.processBatch (h : Inv calls s) (el : Element) : Inv calls (s.processBatch el) := by
  rw [State.processBatch]
  split
  next => exact h.shrinkQueue fun _ => List.Subset.refl _
  next latest hlatest =>
    have hmem : latest ∈ s.batchQueue el := mem_of_getLast? hlatest
    obtain ⟨rfl, hsave, hrunning⟩ := h.queued el latest hmem
    have hentries : ∀ d ∈ s.batchQueue (calls.element latest), d = latest := fun d hd =>
      h.eq_of_mem_queue (op_ne_none_of_isRunning hrunning) hd
    have hshrunk : Inv calls { s with
        batchQueue := update s.batchQueue (calls.element latest) []
        batchTimeouts := update s.batchTimeouts (calls.element latest) false } := by
      refine h.shrinkQueue fun el => ?_
      by_cases hel : el = calls.element latest
      · rw [hel, update_self]
        exact nil_subset _
      · rw [update_of_ne hel]
        exact List.Subset.refl _
    refine hshrunk.execute hrunning hsave ?_ hentries
    show latest ∉ update s.batchQueue (calls.element latest) [] (calls.element latest)
    rw [update_self]
    exact not_mem_nil

lemma Inv.cleanup (h : Inv calls s) (el : Element) (stale : ι → Bool) : Inv calls (s.cleanup el stale) := by
  rw [State.cleanup]
  split_ifs with hstale
  · exact h
  · -- all entries of the queue are of one call, so none is left if one was stale
    have hshrunk : ∀ timeouts, Inv calls { s with
        batchQueue := update s.batchQueue el ((s.batchQueue el).filter fun d => !stale d)
        batchTimeouts := timeouts } := by
      intro timeouts
      refine h.shrinkQueue fun el' => ?_
      by_cases hel : el' = el
      · rw [hel, update_self]
        exact filter_subset_self _
      · rw [update_of_ne hel]
        exact List.Subset.refl _
    refine (hshrunk _).settle (fun d hd => ?_) (fun el' d hd hmem => ?_)
      (fun d _ _ r houtcome => ?_)
    · obtain ⟨hdq, -⟩ := mem_filter.1 hd
      obtain ⟨rfl, -, -⟩ := h.queued el d hdq
      by_contra hsome
      obtain ⟨entries', hentries'⟩ := ne_none_iff_exists'.1 hsome
      exact (h.executing d entries' hentries').2.2.1 hdq
    · obtain ⟨hdq, hdstale⟩ := mem_filter.1 hmem
      obtain ⟨rfl, -, -⟩ := h.queued el d hdq
      replace hd : d ∈ update s.batchQueue (calls.element d)
        ((s.batchQueue (calls.element d)).filter fun d => !stale d) el' := hd
      by_cases hel : el' = calls.element d
      · rw [hel, update_self] at hd
        have hfresh := (mem_filter.1 hd).2
        rw [hdstale] at hfresh
        cases hfresh
      · rw [update_of_ne hel] at hd
        exact hel (h.queued el' d hd).1.symm
    · cases houtcome

variable [DecidableEq Op]

lemma Inv.release (h : Inv calls s) (hc : s.phase c = .settled op outcome) :
    Inv calls (s.release calls c op outcome) := by
  have hne : ∀ d, ((s.release calls c op outcome).phase d).op ≠ none →
      d ≠ c ∧ (s.release calls c op outcome).phase d = s.phase d := by
    intro d hd
    have hdc : d ≠ c := by
      rintro rfl
      apply hd
      show (update s.phase d (.returned outcome) d).op = none
      rw [update_self]
      rfl
    exact ⟨hdc, update_of_ne hdc _ _⟩
  have hcop : (s.phase c).op ≠ none := by
    rw [hc]
    exact some_ne_none op
  have hrunning : ∀ d, (s.phase d).isRunning = true →
      (s.release calls c op outcome).phase d = s.phase d := by
    intro d hd
    have hdc : d ≠ c := by
      rintro rfl
      rw [hc] at hd
      cases hd
    exact update_of_ne hdc _ _
  refine ⟨fun d op' hd => ?_, fun d e hd he helement => ?_, fun el d hd => ?_, fun d entries hd => ?_,
    fun d r hsave hd => ?_⟩
  · obtain ⟨hdc, hphase⟩ := hne d (by rw [hd]; exact some_ne_none op')
    rw [hphase] at hd
    have hrecord := h.held d op' hd
    -- another call with a record has another element
    have helement : calls.element d ≠ calls.element c := fun helement =>
      hdc (h.one_holder d c (by rw [hd]; exact some_ne_none op') hcop helement)
    show (if _ then update s.concurrentOperations (calls.element c) none
      else s.concurrentOperations) (calls.element d) = some op'
    split_ifs
    · rw [update_of_ne helement]
      exact hrecord
    · exact hrecord
  · obtain ⟨-, hd'⟩ := hne d hd
    obtain ⟨-, he'⟩ := hne e he
    rw [hd'] at hd
    rw [he'] at he
    exact h.one_holder d e hd he helement
  · obtain ⟨helement, hsave, hd'⟩ := h.queued el d hd
    rw [hrunning d hd']
    exact ⟨helement, hsave, hd'⟩
  · obtain ⟨hd', hrest⟩ := h.executing d entries hd
    rw [hrunning d hd']
    exact ⟨hd', hrest⟩
  · replace hd : (update s.phase c (.returned outcome) d).answer = some (.result r) := hd
    by_cases hdc : d = c
    · rw [hdc, update_self] at hd
      have hanswer : (s.phase c).answer = some (.result r) := by
        rw [hc]
        exact hd
      rw [hdc] at hsave ⊢
      exact h.answered c r hsave hanswer
    · rw [update_of_ne hdc] at hd
      exact h.answered d r hsave hd

lemma inv_next {e : Event ι Element Op} (h : Inv calls s) (hnext : next calls s e = some s') : Inv calls s' := by
  cases e with
  | call c op =>
    rw [next] at hnext
    split_ifs at hnext with hphase
    cases hnext
    exact h.take (by rw [hphase]; rfl)
  | poll c op =>
    rw [next] at hnext
    split_ifs at hnext with hphase hrecord
    · cases hnext
      exact h
    · cases hnext
      exact h.take (by rw [hphase]; rfl)
  | timer el =>
    rw [next] at hnext
    split_ifs at hnext
    cases hnext
    exact h.processBatch el
  | execution c outcome =>
    obtain ⟨entries, hentries, rfl⟩ := map_eq_some_iff.1 hnext
    exact h.endExecution hentries
  | operation c outcome =>
    rw [next] at hnext
    split at hnext
    next op _ =>
      split_ifs at hnext with hsave
      cases hnext
      refine h.settle (fun d hd => ?_) (fun el d hd hmem => ?_) (fun d hd hsave' => ?_)
      · by_contra hsome
        obtain ⟨entries', hentries'⟩ := ne_none_iff_exists'.1 hsome
        rw [mem_singleton.1 hd] at hentries'
        exact hsave (h.executing c entries' hentries').2.1
      · rw [mem_singleton.1 hmem] at hd
        exact hsave (h.queued el c hd).2.1
      · rw [mem_singleton.1 hd] at hsave'
        exact absurd hsave' hsave
    next => cases hnext
  | cleanup el stale =>
    cases hnext
    exact h.cleanup el stale
  | release c =>
    rw [next] at hnext
    split at hnext
    next op outcome hphase =>
      cases hnext
      exact h.release hphase
    next => cases hnext

lemma inv_of_reached (h : Reached calls s) : Inv calls s :=
  TransitionSystem.Reachable.invariant (P := Inv calls)
    (fun s (hs : s = .initial) => by rw [hs]; exact inv_initial)
    (fun _ _ _ hinv _ hnext => inv_next hinv hnext) h

lemma op_next {e : Event ι Element Op} (hc : (s.phase c).op = some op) (he : e ≠ .release c)
    (hnext : next calls s e = some s') : (s'.phase c).op = some op := by
  have hne : ∀ {d}, (s.phase d).op = none → c ≠ d := by
    rintro d hd rfl
    cases hc.symm.trans hd
  -- a call that takes the element, or waits for it, is another one
  have htake : ∀ {d op'}, (s.phase d).op = none → ((s.take calls d op').phase c).op = some op := by
    intro d op' hd
    have hcd : c ≠ d := hne hd
    rw [State.take]
    split
    next =>
      rw [State.enter]
      split_ifs <;> exact (congrArg Phase.op (update_of_ne hcd _ _)).trans hc
    next => exact (congrArg Phase.op (update_of_ne hcd _ _)).trans hc
  cases e with
  | call d op' =>
    rw [next] at hnext
    split_ifs at hnext with hphase
    cases hnext
    exact htake (by rw [hphase]; rfl)
  | poll d op' =>
    rw [next] at hnext
    split_ifs at hnext with hphase hrecord
    · cases hnext
      exact hc
    · cases hnext
      exact htake (by rw [hphase]; rfl)
  | timer el =>
    rw [next] at hnext
    split_ifs at hnext
    cases hnext
    rw [State.processBatch]
    split <;> exact hc
  | execution d outcome =>
    obtain ⟨entries, -, rfl⟩ := map_eq_some_iff.1 hnext
    exact (op_settle s entries outcome c).trans hc
  | operation d outcome =>
    rw [next] at hnext
    split at hnext
    next =>
      split_ifs at hnext
      cases hnext
      exact (op_settle s [d] outcome c).trans hc
    next => cases hnext
  | cleanup =>
    cases hnext
    rw [State.cleanup]
    split_ifs
    · exact hc
    · exact (op_settle s _ _ c).trans hc
  | release d =>
    rw [next] at hnext
    split at hnext
    next =>
      cases hnext
      have hcd : c ≠ d := fun hcd => he (by rw [hcd])
      exact (congrArg Phase.op (update_of_ne hcd _ _)).trans hc
    next => cases hnext

/-- What callers rely on in a state. -/
structure KeepsSaves (calls : Calls ι Element Request) (safeErrorMessage : String → String)
    (s : State ι Element Request Op) : Prop where
  /-- At most one operation of an element is between its start and its release. -/
  one_operation : ∀ c d, (s.phase c).op ≠ none → (s.phase d).op ≠ none →
    calls.element c = calls.element d → c = d
  /-- `setAttributes` is executed for a batch only within the operation of its latest entry. -/
  execution_within : ∀ c entries, s.executing c = some entries → (s.phase c).isRunning = true
  /-- A save that returns success had its own request executed, and returns the result of that. -/
  own_result : ∀ c outcome, calls.isSave c = true → s.phase c = .returned outcome →
    (envelope safeErrorMessage outcome).success = true →
    ∃ r, ⟨c, calls.request c, r⟩ ∈ s.executed ∧
      envelope safeErrorMessage outcome = envelope safeErrorMessage (.result r)
  /-- The record of a call is removed or replaced by no step but the call's own release. -/
  record_kept : ∀ c op e s', (s.phase c).op = some op → next calls s e = some s' →
    e ≠ .release c → s'.concurrentOperations (calls.element c) = some op

/-- In every run of a process, with calls on any elements and steps in any order, no save that is
acknowledged is dropped. -/
theorem keepsSaves_of_reached (safeErrorMessage : String → String) (h : Reached calls s) :
    KeepsSaves calls safeErrorMessage s := by
  have hinv := inv_of_reached h
  refine ⟨hinv.one_holder, fun c entries hc => (hinv.executing c entries hc).1,
    fun c outcome hsave hc hsuccess => ?_, fun c op e s' hc hnext he => ?_⟩
  · cases outcome with
    | result r =>
      have hanswer : (s.phase c).answer = some (.result r) := by
        rw [hc]
        rfl
      exact ⟨r, hinv.answered c r hsave hanswer, rfl⟩
    | error => cases hsuccess
  · exact (inv_next hinv hnext).held c op (op_next hc he hnext)

end

/-- Two saves of one element for different classes, and a binding change of it between them. -/
def sampleCalls : Calls (Fin 3) String (String × List (String × String)) where
  element _ := "web"
  isSave c := c ≠ 1
  request c := if c = 0 then ("class-a", [("tls", "1.3")]) else ("class-b", [("auth", "mtls")])
  batchEnabled := true

def sampleResult : SetAttributesResult where
  success := true
  staleFlippedCount := some 0
  unresolvedReferences := none
  errorCode := none
  error := none

/-- The second save and the binding change wait for the first save; all draw the same id. -/
def sampleEvents : List (Event (Fin 3) String ℕ) :=
  [.call 0 7, .call 1 7, .call 2 7, .timer "web", .poll 2 7, .execution 0 (.result sampleResult),
    .release 0, .poll 2 7, .poll 1 7, .timer "web", .cleanup "web" (fun _ => true),
    .execution 2 (.result { sampleResult with staleFlippedCount := some 2 }), .release 2, .poll 1 7]

def sampleState : State (Fin 3) String (String × List (String × String)) ℕ :=
  ((system sampleCalls).run (fun _ _ => true) .initial sampleEvents).getD .initial

theorem sampleState_keepsSaves :
    sampleState.phase 2 = .returned (.result { sampleResult with staleFlippedCount := some 2 }) ∧
      sampleState.phase 1 = .running 7 ∧ KeepsSaves sampleCalls id sampleState := by
  have hsome : ((system sampleCalls).run (fun _ _ => true) .initial sampleEvents).isSome = true := by
    decide
  have hrun : (system sampleCalls).run (fun _ _ => true) .initial sampleEvents = some sampleState := by
    obtain ⟨s, hs⟩ := isSome_iff_exists.1 hsome
    rw [sampleState, hs]
    rfl
  have hreached : Reached sampleCalls sampleState :=
    TransitionSystem.reachable_of_run (fun _ _ _ => trivial) (.init rfl) hrun
  exact ⟨by decide, by decide, keepsSaves_of_reached id hreached⟩

end Exclusion
