import Mathlib.Logic.Function.Basic
import Mathlib.Tactic.SplitIfs
import Dethernety.Foundations.Run

/-!
# Requests for a re-evaluation

Model of `request` and `sweep` of `finding-reevaluation.service.ts`. Each call that finds no sweep
running starts a loop (an asynchronous function) whose promise later calls are given; a loop sweeps until
no call came meanwhile. Between two awaits of a loop any number of calls and steps of other loops may
come, so a step is what a loop does from one await to the next.

Opening the session stands outside the `try` of `sweep` and closing it in its `finally`: whatever the body
of the `try` throws is caught and logged, while a session that fails to open or to close ends the loop.
-/

open Option TransitionSystem

namespace Reevaluation

/-- Where a loop stands. -/
inductive Phase
  | notStarted
  /-- In the `try` of `sweep`, with its session open. -/
  | sweeping
  /-- In the `finally`: `session.close()` is awaited. -/
  | closing
  /-- The promise of `sweep` is settled, and the loop is still to go on after its await. -/
  | swept (failed : Bool)
  | resolved
  | rejected
  deriving DecidableEq

/-- A loop that has started and has not settled. -/
def Phase.active : Phase → Bool
  | sweeping => true
  | closing => true
  | swept _ => true
  | _ => false

/-- A sweep runs: from its call up to the settlement of its promise. -/
def Phase.runsSweep : Phase → Bool
  | sweeping => true
  | closing => true
  | _ => false

/-- The fields of `FindingReevaluationService`, and the loops it has started. -/
structure State where
  /-- The promise of a loop. -/
  running : Option ℕ
  again : Bool
  stopping : Bool
  /-- The number of loops started so far. -/
  started : ℕ
  loop : ℕ → Phase

inductive Event
  /-- A call of `request`; `opens` tells whether a session can be opened at that moment. -/
  | request (opens : Bool)
  /-- The body of the `try` ends, by a `return` or by an error that is logged. -/
  | body (i : ℕ) (threw : Bool)
  /-- `session.close()` settles. -/
  | close (i : ℕ) (ok : Bool)
  /-- A loop goes on after the sweep that it awaited. -/
  | resume (i : ℕ) (opens : Bool)
  /-- `onModuleDestroy` -/
  | shutdown
  deriving DecidableEq

def Event.loop : Event → Option ℕ
  | body i _ => some i
  | close i _ => some i
  | resume i _ => some i
  | _ => none

namespace State

def goto (s : State) (i : ℕ) (phase : Phase) : State :=
  { s with loop := Function.update s.loop i phase }

/-- The head of the loop: `this.again = false`, and the part of `sweep` before its first await. -/
def startSweep (s : State) (i : ℕ) (opens : Bool) : State :=
  { s.goto i (if opens then .sweeping else .swept true) with again := false }

/-- `finally { this.running = null }` -/
def leave (s : State) (i : ℕ) (phase : Phase) : State :=
  { s.goto i phase with running := none }

def request (s : State) (opens : Bool) : State :=
  if s.stopping then s
  else
    match s.running with
    | some _ => { s with again := true }
    | none => { s.startSweep s.started opens with running := some s.started, started := s.started + 1 }

/-- The loop after its await: `while (this.again && !this.stopping)`. -/
def resume (s : State) (i : ℕ) (opens : Bool) : Bool → State
  | true => s.leave i .rejected
  | false => if s.again && !s.stopping then s.startSweep i opens else s.leave i .resolved

end State

open State

/-- The effect of an event. -/
def next (s : State) : Event → Option State
  | .request opens => some (s.request opens)
  | .body i _ => if s.loop i = .sweeping then some (s.goto i .closing) else none
  | .close i ok => if s.loop i = .closing then some (s.goto i (.swept !ok)) else none
  | .resume i opens =>
    match s.loop i with
    | .swept failed => some (s.resume i opens failed)
    | _ => none
  | .shutdown => some { s with stopping := true }

/-- The service after its construction. -/
def State.initial : State where
  running := none
  again := false
  stopping := false
  started := 0
  loop _ := .notStarted

/-- The service under calls and steps in any order. -/
def system : TransitionSystem State Event where
  init s := s = .initial
  next := next

/-- The event starts a sweep: `sweep` is called. -/
def starts (s : State) : Event → Bool
  | .request _ => !s.stopping && s.running.isNone
  | .resume i _ => s.loop i = .swept false && s.again && !s.stopping
  | _ => false

/-- The session of a sweep opens and closes. -/
def SessionHolds (s : State) : Event → Prop
  | .request opens => s.stopping = true ∨ s.running.isSome = true ∨ opens = true
  | .resume i opens => starts s (.resume i opens) = true → opens = true
  | .close _ ok => ok = true
  | _ => True

lemma State.request_of_running {s : State} {i : ℕ} (hstopping : s.stopping = false)
    (hi : s.running = some i) (opens : Bool) : s.request opens = { s with again := true } := by
  rw [State.request, if_neg (by rw [hstopping]; decide), hi]

/-- What callers rely on, in a run. -/
structure Coalesced (r : system.Run) : Prop where
  /-- At most one sweep runs at a time. -/
  one_sweep : ∀ n i j, ((r.state n).loop i).runsSweep = true → ((r.state n).loop j).runsSweep = true → i = j
  /-- The promise of no call is rejected. -/
  not_rejected : ∀ n i, (r.state n).loop i ≠ .rejected
  /-- A call is followed by a sweep that starts after it, unless the service is shut down first. -/
  followed : ∀ n opens, r.event n = some (.request opens) → (r.state n).stopping = false →
    ∃ m, n ≤ m ∧ ∃ e, r.event m = some e ∧ (starts (r.state m) e = true ∨ e = .shutdown)

/-- Every await of a loop settles. -/
def Fair (r : system.Run) : Prop :=
  ∀ n i, ((r.state n).loop i).active = true → ∃ m, n ≤ m ∧ ∃ e, r.event m = some e ∧ e.loop = some i

/-! ## What a step does -/

section

variable {s s' : State} {e : Event} {i j : ℕ} {phase : Phase}

@[simp]
lemma goto_loop_self : (s.goto i phase).loop i = phase := by
  simp [goto]

lemma goto_loop_of_ne (h : j ≠ i) : (s.goto i phase).loop j = s.loop j := by
  simp [goto, h]

/-- The loop whose promise is held, if any, is the only one that has not settled, and calls wait only
for it or for a loop that failed. -/
structure Inv (s : State) : Prop where
  active_running : ∀ i, (s.loop i).active = true → s.running = some i
  running_active : ∀ i, s.running = some i → (s.loop i).active = true
  fresh : ∀ i, s.started ≤ i → s.loop i = .notStarted

lemma inv_initial : Inv .initial where
  active_running i h := by cases h
  running_active i h := by cases h
  fresh i _ := rfl

lemma Inv.goto (h : Inv s) (hi : s.running = some i) (hphase : phase.active = true) :
    Inv (s.goto i phase) where
  active_running j hj := by
    by_cases hji : j = i
    · rw [hji]
      exact hi
    · rw [goto_loop_of_ne hji] at hj
      exact h.active_running j hj
  running_active j hj := by
    obtain rfl : i = j := Option.some.inj (hi.symm.trans hj)
    rw [goto_loop_self]
    exact hphase
  fresh j hj := by
    have hji : j ≠ i := by
      rintro rfl
      have hactive := h.running_active j hi
      rw [h.fresh j hj] at hactive
      cases hactive
    rw [goto_loop_of_ne hji]
    exact h.fresh j hj

lemma Inv.leave (h : Inv s) (hi : s.running = some i) (hphase : phase.active = false) :
    Inv (s.leave i phase) where
  active_running j hj := by
    by_cases hji : j = i
    · rw [hji, State.leave] at hj
      rw [goto_loop_self, hphase] at hj
      cases hj
    · rw [State.leave] at hj
      rw [goto_loop_of_ne hji] at hj
      have hrunning := h.active_running j hj
      exact absurd (Option.some.inj (hrunning.symm.trans hi)) hji
  running_active j hj := by cases hj
  fresh j hj := by
    have hji : j ≠ i := by
      rintro rfl
      have hactive := h.running_active j hi
      rw [h.fresh j hj] at hactive
      cases hactive
    show (s.goto i phase).loop j = .notStarted
    rw [goto_loop_of_ne hji]
    exact h.fresh j hj

lemma Inv.request (h : Inv s) (opens : Bool) : Inv (s.request opens) := by
  unfold State.request
  split_ifs with hstopping
  · exact h
  · split
    next _ => exact ⟨h.active_running, h.running_active, h.fresh⟩
    next hrunning =>
      -- a new loop, with the promise that is held from now on
      have hphase : ((if opens then Phase.sweeping else .swept true) : Phase).active = true := by
        cases opens <;> rfl
      refine ⟨fun j hj => ?_, fun j hj => ?_, fun j hj => ?_⟩
      · by_cases hjs : j = s.started
        · rw [hjs]
        · have hother : (s.loop j).active = true := by
            rw [← goto_loop_of_ne hjs]
            exact hj
          rw [h.active_running j hother] at hrunning
          cases hrunning
      · obtain rfl : s.started = j := Option.some.inj hj
        show ((s.goto s.started _).loop s.started).active = true
        rw [goto_loop_self]
        exact hphase
      · have hjs : j ≠ s.started := Nat.ne_of_gt (Nat.lt_of_succ_le hj)
        show (s.goto s.started _).loop j = .notStarted
        rw [goto_loop_of_ne hjs]
        exact h.fresh j (Nat.le_of_succ_le hj)

lemma Inv.startSweep (h : Inv s) (hi : s.running = some i) (opens : Bool) : Inv (s.startSweep i opens) := by
  have hphase : ((if opens then Phase.sweeping else .swept true) : Phase).active = true := by
    cases opens <;> rfl
  have hgoto := h.goto hi hphase
  exact ⟨hgoto.active_running, hgoto.running_active, hgoto.fresh⟩

lemma inv_next (h : Inv s) (hnext : next s e = some s') : Inv s' := by
  cases e with
  | request opens =>
    cases hnext
    exact h.request opens
  | body i threw | close i ok =>
    rw [next] at hnext
    split_ifs at hnext with hphase
    cases hnext
    exact h.goto (h.active_running i (by rw [hphase]; rfl)) rfl
  | resume i opens =>
    rw [next] at hnext
    split at hnext
    next failed hphase =>
      cases hnext
      have hi := h.active_running i (by rw [hphase]; rfl)
      cases failed with
      | true => exact h.leave hi rfl
      | false =>
        rw [State.resume]
        split_ifs
        · exact h.startSweep hi opens
        · exact h.leave hi rfl
    next => cases hnext
  | shutdown =>
    cases hnext
    exact ⟨h.active_running, h.running_active, h.fresh⟩

lemma inv_run (r : system.Run) (n : ℕ) : Inv (r.state n) :=
  (r.reachable n).invariant (P := Inv) (fun s (hs : s = .initial) => by rw [hs]; exact inv_initial)
    (fun _ _ _ h _ hnext => inv_next h hnext)

lemma loop_next_eq (hinv : Inv s) (hnext : next s e = some s') (hactive : (s.loop i).active = true)
    (hloop : e.loop ≠ some i) : s'.loop i = s.loop i := by
  have hgoto : ∀ {j phase}, some j ≠ some i → (s.goto j phase).loop i = s.loop i := fun h =>
    goto_loop_of_ne fun hij => h (congrArg some hij.symm)
  cases e with
  | request opens =>
    cases hnext
    unfold State.request
    split_ifs
    · rfl
    · split
      next => rfl
      next hrunning =>
        rw [hinv.active_running i hactive] at hrunning
        cases hrunning
  | body j threw | close j ok =>
    rw [next] at hnext
    split_ifs at hnext
    cases hnext
    exact hgoto hloop
  | resume j opens =>
    rw [next] at hnext
    split at hnext
    next failed hphase =>
      cases hnext
      cases failed with
      | true => exact hgoto hloop
      | false =>
        rw [State.resume]
        split_ifs
        all_goals exact hgoto hloop
    next => cases hnext
  | shutdown =>
    cases hnext
    rfl

lemma failed_next (hinv : Inv s) (hi : s.loop i = .swept true) (hnext : next s e = some s') :
    (e.loop = some i → s'.loop i = .rejected) ∧ (e.loop ≠ some i → s'.loop i = .swept true) := by
  constructor
  · intro hloop
    cases e with
    | body j threw | close j ok =>
      obtain rfl : j = i := Option.some.inj hloop
      rw [next, if_neg (by rw [hi]; decide)] at hnext
      cases hnext
    | resume j opens =>
      obtain rfl : j = i := Option.some.inj hloop
      simp only [next, hi] at hnext
      cases hnext
      exact goto_loop_self
    | request opens | shutdown => cases hloop
  · intro hloop
    rw [loop_next_eq hinv hnext (by rw [hi]; rfl) hloop, hi]

lemma exists_failed_of_not_sessionHolds (hnext : next s e = some s')
    (h : ¬ SessionHolds s e) : ∃ i, s'.loop i = .swept true := by
  cases e with
  | request opens =>
    cases hnext
    simp only [SessionHolds, not_or, Bool.not_eq_true] at h
    obtain ⟨hstopping, hrunning, rfl⟩ := h
    refine ⟨s.started, ?_⟩
    rw [isSome_eq_false_iff, isNone_iff_eq_none] at hrunning
    rw [State.request, if_neg (by rw [hstopping]; decide), hrunning]
    exact goto_loop_self
  | body j threw => exact absurd trivial h
  | close j ok =>
    rw [next] at hnext
    split_ifs at hnext with hphase
    cases hnext
    refine ⟨j, ?_⟩
    rw [goto_loop_self, Bool.eq_false_iff.2 h]
    rfl
  | resume j opens =>
    simp only [SessionHolds, Classical.not_imp, Bool.not_eq_true] at h
    obtain ⟨hstarts, rfl⟩ := h
    simp only [starts, Bool.and_eq_true, decide_eq_true_eq] at hstarts
    obtain ⟨⟨hphase, hagain⟩, hstopping⟩ := hstarts
    simp only [next, hphase] at hnext
    cases hnext
    refine ⟨j, ?_⟩
    rw [State.resume, if_pos (Bool.and_eq_true_iff.2 ⟨hagain, hstopping⟩)]
    exact goto_loop_self
  | shutdown => exact absurd trivial h

/-- No sweep has failed. -/
def Clean (s : State) : Prop :=
  ∀ i, s.loop i ≠ .swept true ∧ s.loop i ≠ .rejected

lemma Clean.goto (h : Clean s) (hphase : phase ≠ .swept true ∧ phase ≠ .rejected) : Clean (s.goto i phase) := by
  intro j
  by_cases hji : j = i
  · rw [hji, goto_loop_self]
    exact hphase
  · rw [goto_loop_of_ne hji]
    exact h j

lemma clean_next (h : Clean s) (hok : SessionHolds s e) (hnext : next s e = some s') : Clean s' := by
  cases e with
  | request opens =>
    cases hnext
    unfold State.request
    split_ifs with hstopping
    · exact h
    · split
      next => exact h
      next hrunning =>
        rcases hok with hstop | hsome | hopens
        · exact absurd hstop hstopping
        · rw [hrunning] at hsome
          cases hsome
        · rw [hopens]
          exact h.goto ⟨by decide, by decide⟩
  | body j threw =>
    rw [next] at hnext
    split_ifs at hnext
    cases hnext
    exact h.goto ⟨by decide, by decide⟩
  | close j ok =>
    rw [next] at hnext
    split_ifs at hnext
    cases hnext
    have hok' : ok = true := hok
    rw [hok']
    exact h.goto ⟨by decide, by decide⟩
  | resume j opens =>
    rw [next] at hnext
    split at hnext
    next failed hphase =>
      cases hnext
      cases failed with
      | true => exact absurd hphase (h j).1
      | false =>
        rw [State.resume]
        split_ifs with hagain
        · have hopens : opens = true := hok (by
            rw [starts, hphase, Bool.and_assoc, hagain]
            rfl)
          rw [hopens]
          exact h.goto ⟨by decide, by decide⟩
        · exact h.goto ⟨by decide, by decide⟩
    next => cases hnext
  | shutdown =>
    cases hnext
    exact h

/-- A call waits for a further sweep of the loop that runs. -/
structure Waiting (s : State) : Prop where
  again : s.again = true
  running : s.running.isSome = true
  stopping : s.stopping = false

/-- The steps that a phase is away from the head of the loop. -/
def Phase.rank : Phase → ℕ
  | sweeping => 3
  | closing => 2
  | swept _ => 1
  | _ => 0

/-- The rank of the loop that runs. -/
def rank (s : State) : ℕ :=
  match s.running with
  | some i => (s.loop i).rank
  | none => 0

lemma rank_eq (h : s.running = some i) : rank s = (s.loop i).rank := by
  rw [rank, h]

lemma waiting_next (hinv : Inv s) (hclean : Clean s) (h : Waiting s) (hnext : next s e = some s') :
    (starts s e = true ∨ e = .shutdown) ∨ (Waiting s' ∧ rank s' ≤ rank s ∧ (e.loop ≠ none → rank s' < rank s)) := by
  cases e with
  | request opens =>
    right
    cases hnext
    obtain ⟨i, hi⟩ := isSome_iff_exists.1 h.running
    rw [s.request_of_running h.stopping hi opens]
    exact ⟨⟨rfl, h.running, h.stopping⟩, Nat.le_refl _, fun hloop => absurd rfl hloop⟩
  | body j threw =>
    right
    rw [next] at hnext
    split_ifs at hnext with hphase
    cases hnext
    have hj : s.running = some j := hinv.active_running j (by rw [hphase]; rfl)
    have hrank : rank (s.goto j .closing) < rank s := by
      rw [rank_eq hj, rank_eq (s := s.goto j .closing) hj, goto_loop_self, hphase]
      decide
    exact ⟨⟨h.again, h.running, h.stopping⟩, Nat.le_of_lt hrank, fun _ => hrank⟩
  | close j ok =>
    right
    rw [next] at hnext
    split_ifs at hnext with hphase
    cases hnext
    have hj : s.running = some j := hinv.active_running j (by rw [hphase]; rfl)
    have hrank : rank (s.goto j (.swept !ok)) < rank s := by
      rw [rank_eq hj, rank_eq (s := s.goto j (.swept !ok)) hj, goto_loop_self, hphase]
      show 1 < 2
      decide
    exact ⟨⟨h.again, h.running, h.stopping⟩, Nat.le_of_lt hrank, fun _ => hrank⟩
  | resume j opens =>
    left
    left
    rw [next] at hnext
    split at hnext
    next failed hphase =>
      cases failed with
      | true => exact absurd hphase (hclean j).1
      | false =>
        rw [starts, hphase, h.again, h.stopping]
        rfl
    next => cases hnext
  | shutdown => exact .inl (.inr rfl)

end

/-! ## Runs -/

section

variable {r : system.Run}

lemma clean_run (h : r.Meets SessionHolds) (n : ℕ) : Clean (r.state n) :=
  (h.reachable n).invariant (P := Clean)
    (fun s (hs : s = .initial) i => by rw [hs]; exact ⟨Phase.noConfusion, Phase.noConfusion⟩)
    (fun _ _ _ hclean hok hnext => clean_next hclean hok hnext)

lemma followed_of_waiting (hfair : Fair r) (h : r.Meets SessionHolds) {n : ℕ} (hn : Waiting (r.state n)) :
    ∃ m, n ≤ m ∧ ∃ e, r.event m = some e ∧ (starts (r.state m) e = true ∨ e = .shutdown) := by
  refine Run.eventually rank (fun k hk => ?_) (fun k hk => ?_) hn
  · cases hevent : r.event k with
    | none =>
      right
      rw [Run.state_succ_of_none hevent]
      exact ⟨hk, Nat.le_refl _⟩
    | some e =>
      rcases waiting_next (inv_run r k) (clean_run h k) hk (Run.next_eq hevent) with
        hstarts | ⟨hwaiting, hrank, -⟩
      · exact .inl ⟨e, rfl, hstarts⟩
      · exact .inr ⟨hwaiting, hrank⟩
  · obtain ⟨i, hi⟩ := isSome_iff_exists.1 hk.running
    obtain ⟨m, hkm, e, hevent, hloop⟩ := hfair k i ((inv_run r k).running_active i hi)
    refine ⟨m, hkm, fun hm => ?_⟩
    rcases waiting_next (inv_run r m) (clean_run h m) hm (Run.next_eq hevent) with
      hstarts | ⟨-, -, hrank⟩
    · exact .inl ⟨e, hevent, hstarts⟩
    · exact .inr (hrank (by rw [hloop]; exact some_ne_none i))

lemma exists_rejected (hfair : Fair r) {n i : ℕ} (hi : (r.state n).loop i = .swept true) :
    ∃ m, (r.state m).loop i = .rejected := by
  have hsettles : ∃ m, n ≤ m ∧ (r.state (m + 1)).loop i = .rejected := by
    refine Run.eventually (P := fun s : State => s.loop i = .swept true) (fun _ => 0)
      (fun k hk => ?_) (fun k hk => ?_) hi
    · cases hevent : r.event k with
      | none =>
        right
        rw [Run.state_succ_of_none hevent]
        exact ⟨hk, Nat.le_refl _⟩
      | some e =>
        obtain ⟨hown, hother⟩ := failed_next (inv_run r k) hk (Run.next_eq hevent)
        by_cases hloop : e.loop = some i
        · exact .inl (hown hloop)
        · exact .inr ⟨hother hloop, Nat.le_refl _⟩
    · obtain ⟨m, hkm, e, hevent, hloop⟩ := hfair k i (by rw [hk]; rfl)
      refine ⟨m, hkm, fun hm => .inl ?_⟩
      exact (failed_next (inv_run r m) hm (Run.next_eq hevent)).1 hloop
  obtain ⟨m, -, hm⟩ := hsettles
  exact ⟨m + 1, hm⟩

lemma one_sweep (r : system.Run) (n i j : ℕ) (hi : ((r.state n).loop i).runsSweep = true)
    (hj : ((r.state n).loop j).runsSweep = true) : i = j := by
  have hactive : ∀ {phase : Phase}, phase.runsSweep = true → phase.active = true := by
    intro phase h
    cases phase with
    | sweeping | closing => rfl
    | _ => cases h
  have hrunning := (inv_run r n).active_running i (hactive hi)
  exact Option.some.inj (hrunning.symm.trans ((inv_run r n).active_running j (hactive hj)))

/-- In every run whose awaits settle, callers can rely on `request` exactly if each sweep's session
opens and closes. -/
theorem requests_coalesced_iff (r : system.Run) (hfair : Fair r) :
    Coalesced r ↔ r.Meets SessionHolds := by
  constructor
  · intro hcoalesced n e hevent
    by_contra hfails
    obtain ⟨i, hi⟩ := exists_failed_of_not_sessionHolds (Run.next_eq hevent) hfails
    obtain ⟨m, hm⟩ := exists_rejected hfair hi
    exact hcoalesced.not_rejected m i hm
  · intro h
    refine ⟨one_sweep r, fun n i => (clean_run h n i).2, fun n opens hevent hstopping => ?_⟩
    cases hrunning : (r.state n).running with
    | none =>
      -- the call itself starts the sweep
      refine ⟨n, Nat.le_refl n, _, hevent, .inl ?_⟩
      rw [starts, hstopping, hrunning]
      rfl
    | some i =>
      have hnext := Run.next_eq hevent
      have hstate : { r.state n with again := true } = r.state (n + 1) := by
        rw [← (r.state n).request_of_running hstopping hrunning opens]
        exact Option.some.inj hnext
      have hwaiting : Waiting (r.state (n + 1)) := by
        rw [← hstate]
        exact ⟨rfl, by rw [hrunning]; rfl, hstopping⟩
      obtain ⟨m, hm, hfollowed⟩ := followed_of_waiting hfair h hwaiting
      exact ⟨m, Nat.le_of_succ_le hm, hfollowed⟩

end

/-- Two calls, the second while the sweep of the first runs; `ok` tells whether the session of the
first sweep closes. -/
def twoCalls (ok : Bool) : List Event :=
  [.request true, .request true, .body 0 false, .close 0 ok, .resume 0 true] ++
    if ok then [.body 0 false, .close 0 true, .resume 0 true] else []

def twoCallsRun (ok : Bool) : system.Run :=
  .ofSchedule system .initial (twoCalls ok) rfl (by cases ok <;> rfl)

lemma twoCallsRun_fair (ok : Bool) : Fair (twoCallsRun ok) := by
  intro n i hactive
  have hrunning := (inv_run (twoCallsRun ok) n).active_running i hactive
  -- no loop runs before the first event or after the last one
  have hlength : n < (twoCalls ok).length := by
    by_contra hn
    have hstate : (twoCallsRun ok).state n = (twoCallsRun ok).state (twoCalls ok).length :=
      Run.ofSchedule_state_of_le (Nat.le_of_not_lt hn)
    have hend : ((twoCallsRun ok).state (twoCalls ok).length).running = none := by
      cases ok <;> decide
    rw [hstate, hend] at hrunning
    cases hrunning
  have hloop : ∀ n, n < (twoCalls ok).length → ((twoCallsRun ok).state n).running ≠ none →
      ((twoCallsRun ok).state n).running = some 0 ∧ ∃ m, m < (twoCalls ok).length ∧ n ≤ m ∧
        ((twoCallsRun ok).event m).bind Event.loop = some 0 := by
    cases ok <;> decide +kernel
  obtain ⟨hzero, m, -, hnm, hevent⟩ := hloop n hlength (by rw [hrunning]; exact some_ne_none i)
  obtain rfl : i = 0 := Option.some.inj (hrunning.symm.trans hzero)
  obtain ⟨e, he, heloop⟩ := bind_eq_some_iff.1 hevent
  exact ⟨m, hnm, e, he, heloop⟩

/-- Where the sessions hold, the second call has a sweep of its own. -/
theorem twoCallsRun_coalesced :
    (twoCallsRun true).Meets SessionHolds ∧ Coalesced (twoCallsRun true) := by
  have hmeets : (twoCallsRun true).Meets SessionHolds := by
    have hevents : ∀ e ∈ twoCalls true,
        e = .request true ∨ e = .body 0 false ∨ e = .close 0 true ∨ e = .resume 0 true := by
      decide
    intro n e hevent
    rcases hevents e (List.mem_of_getElem? hevent) with rfl | rfl | rfl | rfl
    · exact .inr (.inr rfl)
    · trivial
    · rfl
    · exact fun _ => rfl
  exact ⟨hmeets, (requests_coalesced_iff _ (twoCallsRun_fair true)).2 hmeets⟩

/-- A session that fails to close rejects the promise of both calls, and no sweep follows the second. -/
theorem twoCallsRun_not_coalesced :
    ¬ Coalesced (twoCallsRun false) ∧ ((twoCallsRun false).state 5).loop 0 = .rejected ∧
      ∀ m, 1 ≤ m → ∀ e, (twoCallsRun false).event m = some e →
        starts ((twoCallsRun false).state m) e = false ∧ e ≠ .shutdown := by
  have hrejected : ((twoCallsRun false).state 5).loop 0 = .rejected := by decide
  refine ⟨fun h => h.not_rejected 5 0 hrejected, hrejected, fun m hm e hevent => ?_⟩
  have hlt : m < 5 := (List.getElem?_eq_some_iff.1 hevent).1
  have hnone : ∀ m, m < 5 → 1 ≤ m → ∀ e ∈ (twoCallsRun false).event m,
      starts ((twoCallsRun false).state m) e = false ∧ e ≠ .shutdown := by
    decide +kernel
  exact hnone m hlt hm e hevent

end Reevaluation
