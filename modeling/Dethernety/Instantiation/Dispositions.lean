import Mathlib.Logic.Function.Basic
import Mathlib.Tactic.SplitIfs
import Dethernety.Foundations.Run

/-!
# Dispositions of one finding

The transactions of `_applyDisposition` and `_clearDisposition` on one finding, side by side. The database isolates them
as read committed: a read sees the committed finding, or what its own transaction wrote, and a write waits for the lock
on the finding, which is held to the end of the transaction. The driver runs a transaction from its start again when the
database rolls it back for a conflict. An affirm reads the kind under the lock that its first write took.
-/

open Function TransitionSystem

namespace Dispositions

inductive DispositionKind
  | notApplicable
  | falsePositive
  | compensatingControl
  | riskAccepted
  | waived
  | superseded
  | affirmed
  deriving DecidableEq

/-- The properties of a finding that the statements set, and all others. -/
structure Finding (Rest : Type) where
  dispositionKind : Option DispositionKind
  dispositionReason : Option String
  dispositionedBy : Option String
  dispositionedAt : Option String
  dispositionStale : Option Bool
  dispositionLockRev : Option ℕ
  rest : Rest

inductive Mutation
  | dispose (kind : DispositionKind) (reason actor now : String)
  | clear

/-- `DispositionRefused` -/
inductive Refusal
  | superseded
  | notFound

/-- Where a transaction is, with the finding as it has written it; `written none` has met no finding. -/
inductive Phase (Rest : Type)
  | idle
  | begun
  | locked (f : Finding Rest)
  | guarded (f : Finding Rest)
  | written (f : Option (Finding Rest))
  | committed
  | refused (refusal : Refusal)
  | failed

def Phase.isOpen {Rest : Type} : Phase Rest → Bool
  | .begun | .locked _ | .guarded _ | .written _ => true
  | _ => false

variable {ι Rest : Type} [DecidableEq ι]

/-- The committed finding, and the transaction that holds its lock. -/
structure State (ι Rest : Type) where
  finding : Option (Finding Rest)
  holder : Option ι
  phase : ι → Phase Rest

inductive Event (ι : Type)
  | start (i : ι)
  /-- The next statement, with what the transaction does with its answer. -/
  | statement (i : ι)
  | commit (i : ι)
  | conflict (i : ι)
  | fail (i : ι)

def Event.transaction : Event ι → ι
  | .start i | .statement i | .commit i | .conflict i | .fail i => i

/-- The statement that takes the lock. -/
def Finding.lock (f : Finding Rest) : Finding Rest :=
  { f with dispositionLockRev := some (f.dispositionLockRev.getD 0 + 1) }

/-- The statement that writes the disposition. -/
def Finding.write (f : Finding Rest) : Mutation → Finding Rest
  | .dispose kind reason actor now => ⟨kind, reason, actor, now, some false, f.dispositionLockRev, f.rest⟩
  | .clear => ⟨none, none, none, none, none, f.dispositionLockRev, f.rest⟩

def Mutation.affirms : Mutation → Bool
  | .dispose .affirmed _ _ _ => true
  | _ => false

namespace State

variable (s : State ι Rest) (i : ι)

def goto (phase : Phase Rest) : State ι Rest :=
  { s with phase := update s.phase i phase }

/-- The end of a transaction, which frees the lock. -/
def release (phase : Phase Rest) : State ι Rest :=
  { s.goto i phase with holder := if s.holder = some i then none else s.holder }

/-- The first write of a transaction, once the lock is free. -/
def take (phase : Phase Rest) : Option (State ι Rest) :=
  if s.holder = none then some { s.goto i phase with holder := some i } else none

def statement (m : Mutation) : Option (State ι Rest) :=
  match s.phase i with
  | .begun =>
    match s.finding, m.affirms with
    | none, true => some (s.release i (.refused .notFound))
    | none, false => some (s.goto i (.written none))
    | some f, true => s.take i (.locked f.lock)
    | some f, false => s.take i (.written (some (f.write m)))
  | .locked f =>
    if f.dispositionKind = some .superseded then some (s.release i (.refused .superseded))
    else some (s.goto i (.guarded f))
  | .guarded f => some (s.goto i (.written (some (f.write m))))
  | _ => none

/-- The event of a transaction with its mutation. -/
def next (mutations : ι → Mutation) : Event ι → Option (State ι Rest)
  | .start i => match s.phase i with
    | .idle => some (s.goto i .begun)
    | _ => none
  | .statement i => s.statement i (mutations i)
  | .commit i => match s.phase i with
    | .written f => some { s.release i .committed with finding := f.or s.finding }
    | _ => none
  | .conflict i => if (s.phase i).isOpen then some (s.release i .begun) else none
  | .fail i => if (s.phase i).isOpen then some (s.release i .failed) else none

def dispositionKind : Option DispositionKind :=
  s.finding.bind Finding.dispositionKind

end State

/-- The transactions with the given mutations, none of which has started. -/
def system (Rest : Type) (mutations : ι → Mutation) : TransitionSystem (State ι Rest) (Event ι) where
  init s := s.holder = none ∧ ∀ i, s.phase i = .idle
  next s := s.next mutations

/-! ## The lock -/

variable {mutations : ι → Mutation} {s s' : State ι Rest} {e : Event ι} {i : ι}

/-- What is known of the committed kind in a phase, and that the lock is held. -/
def Phase.Knows (held : Prop) (kind : Option DispositionKind) : Phase Rest → Prop
  | .locked f => held ∧ f.dispositionKind = kind
  | .guarded _ => held ∧ kind ≠ some .superseded
  | .written (some f) => held ∧ (f.dispositionKind = some .affirmed → kind ≠ some .superseded)
  | _ => True

def Guarded (s : State ι Rest) : Prop :=
  ∀ i, (s.phase i).Knows (s.holder = some i) s.dispositionKind

lemma Phase.Knows.mono {held held' : Prop} {kind kind' : Option DispositionKind} {p : Phase Rest}
    (h : p.Knows held kind) (hheld : held → held' ∧ kind' = kind) : p.Knows held' kind' := by
  unfold Phase.Knows at *
  split at h
  · exact ⟨(hheld h.1).1, h.2.trans (hheld h.1).2.symm⟩
  · exact ⟨(hheld h.1).1, (hheld h.1).2 ▸ h.2⟩
  · exact ⟨(hheld h.1).1, (hheld h.1).2 ▸ h.2⟩
  · trivial

lemma Guarded.step {p : Phase Rest} (h : Guarded s) (hphase : s'.phase = update s.phase i p)
    (hfinding : s'.finding = s.finding ∨ s.holder = some i)
    (hholder : s'.holder = s.holder ∨ s.holder = none ∨ s.holder = some i)
    (hown : p.Knows (s'.holder = some i) s'.dispositionKind) : Guarded s' := by
  intro j
  rw [hphase]
  by_cases hj : j = i
  · rwa [hj, update_self]
  · rw [update_of_ne hj]
    refine (h j).mono fun hheld => ?_
    rw [hheld] at hfinding hholder
    simp only [reduceCtorEq, Option.some.injEq, hj, or_false] at hfinding hholder
    exact ⟨hholder, by rw [State.dispositionKind, hfinding]; rfl⟩

lemma holder_release (s : State ι Rest) (i : ι) (p : Phase Rest) :
    (s.release i p).holder = s.holder ∨ s.holder = none ∨ s.holder = some i := by
  unfold State.release
  by_cases h : s.holder = some i <;> simp [h]

lemma Guarded.take {p : Phase Rest} (h : Guarded s) (htake : s.take i p = some s')
    (hown : p.Knows True s.dispositionKind) : Guarded s' := by
  unfold State.take at htake
  split_ifs at htake with hfree
  cases htake
  exact h.step (i := i) rfl (.inl rfl) (.inr (.inl hfree)) (hown.mono fun _ => ⟨rfl, rfl⟩)

lemma Guarded.statement {m : Mutation} (h : Guarded s) (hnext : s.statement i m = some s') : Guarded s' := by
  have hi := h i
  unfold State.statement at hnext
  split at hnext
  · split at hnext
    · cases hnext
      exact h.step rfl (.inl rfl) (holder_release ..) trivial
    · cases hnext
      exact h.step rfl (.inl rfl) (.inl rfl) trivial
    · rename_i f hfinding _
      exact h.take hnext ⟨trivial, by rw [State.dispositionKind, hfinding]; rfl⟩
    · rename_i f hfinding haffirms
      refine h.take hnext ⟨trivial, fun haffirmed => ?_⟩
      cases m <;> cases haffirmed
      cases haffirms
  · rename_i f hphase
    rw [hphase] at hi
    split_ifs at hnext with hkind
    · cases hnext
      exact h.step rfl (.inl rfl) (holder_release ..) trivial
    · cases hnext
      exact h.step rfl (.inl rfl) (.inl rfl) ⟨hi.1, fun hsuperseded => hkind (hi.2.trans hsuperseded)⟩
  · rename_i f hphase
    rw [hphase] at hi
    cases hnext
    exact h.step rfl (.inl rfl) (.inl rfl) ⟨hi.1, fun _ => hi.2⟩
  · cases hnext

lemma Guarded.next (h : Guarded s) (hnext : s.next mutations e = some s') : Guarded s' := by
  cases e <;> simp only [State.next] at hnext
  case statement => exact h.statement hnext
  case start =>
    split at hnext <;> cases hnext
    exact h.step rfl (.inl rfl) (.inl rfl) trivial
  case commit i =>
    split at hnext <;> cases hnext
    rename_i f hphase
    refine h.step rfl ?_ (holder_release s i .committed) trivial
    -- a transaction that has written something holds the lock
    cases f with
    | none => exact .inl rfl
    | some f =>
      have hi := h i
      rw [hphase] at hi
      exact .inr hi.1
  all_goals
    split_ifs at hnext
    cases hnext
    exact h.step rfl (.inl rfl) (holder_release ..) trivial

/-- Only a commit changes the finding, and a transaction that has ended makes no step. -/
lemma next_cases (hnext : s.next mutations e = some s') :
    (s'.finding = s.finding ∨ ∃ f, s.phase e.transaction = .written (some f) ∧ s'.finding = some f ∧
      s'.phase e.transaction = .committed) ∧
      (s.phase e.transaction ≠ .committed ∧ ∀ refusal, s.phase e.transaction ≠ .refused refusal) ∧
        ∃ p, s'.phase = update s.phase e.transaction p := by
  cases e <;> simp only [State.next, State.statement, State.take] at hnext
  case commit i =>
    split at hnext <;> cases hnext
    rename_i f hphase
    refine ⟨?_, by simp [Event.transaction, hphase], _, rfl⟩
    cases f with
    | none => exact .inl rfl
    | some f => exact .inr ⟨f, hphase, rfl, update_self ..⟩
  all_goals
    repeat' split at hnext
    all_goals cases hnext
    all_goals refine ⟨.inl rfl, ⟨fun h => ?_, fun _ h => ?_⟩, _, rfl⟩ <;> simp_all [Event.transaction, Phase.isOpen]

variable (r : (system Rest mutations).Run)

lemma guarded_run (n : ℕ) : Guarded (r.state n) :=
  (r.reachable n).invariant (fun s hs i => by rw [hs.2 i]; trivial) fun _ _ _ h _ hnext => h.next hnext

lemma phase_run {n m : ℕ} (hnm : n ≤ m)
    (hended : (r.state n).phase i = .committed ∨ ∃ refusal, (r.state n).phase i = .refused refusal) :
    (r.state m).phase i = (r.state n).phase i := by
  induction m, hnm using Nat.le_induction with
  | base => rfl
  | succ m _ ih =>
    cases hevent : r.event m with
    | none => rw [Run.state_succ_of_none hevent, ih]
    | some e =>
      obtain ⟨-, ⟨hcommitted, hrefused⟩, p, hp⟩ := next_cases (Run.next_eq hevent)
      rw [hp, update_of_ne, ih]
      rintro rfl
      rw [ih] at hcommitted hrefused
      exact hended.elim hcommitted fun ⟨refusal, h⟩ => hrefused refusal h

/-- In every run no step makes a superseded finding affirmed, and no step of a transaction that comes to be refused
changes the finding. -/
theorem never_affirmed_directly (r : (system Rest mutations).Run) :
    (∀ n, ¬ ((r.state n).dispositionKind = some .superseded ∧ (r.state (n + 1)).dispositionKind = some .affirmed)) ∧
      ∀ i refusal n m e, ¬ ((r.state n).phase i = .refused refusal ∧ r.event m = some e ∧ e.transaction = i ∧
        (r.state (m + 1)).finding ≠ (r.state m).finding) := by
  constructor
  · rintro n ⟨hsuperseded, haffirmed⟩
    cases hevent : r.event n with
    | none =>
      rw [Run.state_succ_of_none hevent, hsuperseded] at haffirmed
      cases haffirmed
    | some e =>
      obtain ⟨hsame | ⟨f, hphase, hfinding, -⟩, -⟩ := next_cases (Run.next_eq hevent)
      · rw [State.dispositionKind, hsame] at haffirmed
        cases haffirmed.symm.trans hsuperseded
      · have hknows := guarded_run r n e.transaction
        rw [hphase] at hknows
        rw [State.dispositionKind, hfinding] at haffirmed
        exact hknows.2 haffirmed hsuperseded
  · rintro i refusal n m e ⟨hrefused, hevent, rfl, hne⟩
    obtain ⟨hsame | ⟨f, hphase, -, hcommitted⟩, -⟩ := next_cases (Run.next_eq hevent)
    · exact hne hsame
    · rcases Nat.lt_or_ge m n with hlt | hge
      · rw [phase_run r hlt (.inl hcommitted), hcommitted] at hrefused
        cases hrefused
      · rw [phase_run r hge (.inr ⟨_, hrefused⟩), hrefused] at hphase
        cases hphase

end Dispositions
