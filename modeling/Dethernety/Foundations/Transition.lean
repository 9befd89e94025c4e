import Mathlib.Logic.Basic

/-!
# Guarded transition systems

A system is a set of initial states together with a partial step function: `next s a` is
`some s'` when event `a` is enabled in `s`. Nondeterminism (which process moves, where a fault
strikes) is carried by the event. A run may in addition be required to satisfy a *guard*
`ok s a` at each of its steps; assumptions on the environment and conditions on the branches a
run takes are stated that way.

The invariant rule is `Reachable.invariant`; concrete schedules are evaluated by `run` and
turned into reachability by `reachable_of_run`. `attempt` runs a schedule that need not fit a state.
-/

/-- A transition system with states `σ` and events `α`. -/
structure TransitionSystem (σ α : Type*) where
  /-- The states a run may start from. -/
  init : σ → Prop
  /-- The effect of an event, if it is enabled. -/
  next : σ → α → Option σ

namespace TransitionSystem

variable {σ α : Type*} {S : TransitionSystem σ α} {ok : σ → α → Prop}

/-- States reached by runs each of whose steps meets `ok`. -/
inductive Reachable (S : TransitionSystem σ α) (ok : σ → α → Prop) : σ → Prop
  | init {s : σ} : S.init s → Reachable S ok s
  | step {s s' : σ} {a : α} : Reachable S ok s → ok s a → S.next s a = some s' → Reachable S ok s'

/-- A predicate that holds initially and is kept by every guarded step holds in every
reachable state. -/
theorem Reachable.invariant {P : σ → Prop} (hinit : ∀ s, S.init s → P s)
    (hstep : ∀ s a s', P s → ok s a → S.next s a = some s' → P s') {s : σ} (h : S.Reachable ok s) : P s := by
  induction h with
  | init h0 => exact hinit _ h0
  | step _ hok hnext ih => exact hstep _ _ _ ih hok hnext

/-- Execute a schedule, checking the executable guard `g` at each step; `none` if an event is not
enabled, or not allowed, when its turn comes. -/
def run (S : TransitionSystem σ α) (g : σ → α → Bool) : σ → List α → Option σ
  | s, [] => some s
  | s, a :: as =>
    if g s a then
      match S.next s a with
      | none => none
      | some s' => run S g s' as
    else none

/-- The end state of a schedule whose executable guard implies `ok` is reachable. -/
theorem reachable_of_run {g : σ → α → Bool} (hg : ∀ s a, g s a = true → ok s a) {as : List α}
    {s s' : σ} (hs : S.Reachable ok s) (hrun : S.run g s as = some s') : S.Reachable ok s' := by
  induction as generalizing s with
  | nil =>
    obtain rfl : s = s' := by simpa [run] using hrun
    exact hs
  | cons a as ih =>
    rw [run] at hrun
    split at hrun
    · rename_i hga
      cases hnext : S.next s a with
      | none => simp [hnext] at hrun
      | some t =>
        rw [hnext] at hrun
        exact ih (hs.step (hg s a hga) hnext) hrun
    · cases hrun

/-- What a schedule comes to is reachable. -/
theorem exists_reachable {g : σ → α → Bool} {as : List α} {s : σ} {f : σ → Bool}
    (hrun : (S.run g s as).any f = true) (hs : S.init s) (hg : ∀ s a, g s a = true → ok s a) :
    ∃ s', S.Reachable ok s' ∧ f s' = true := by
  obtain ⟨s', hrun, hf⟩ := (Option.any_eq_true _ _).1 hrun
  exact ⟨s', reachable_of_run hg (.init hs) hrun, hf⟩

/-- A schedule that a guard allows has the same end under a weaker one. -/
theorem run_mono {g g' : σ → α → Bool} (hg : ∀ s a, g s a = true → g' s a = true) {as : List α}
    {s s' : σ} (hrun : S.run g s as = some s') : S.run g' s as = some s' := by
  induction as generalizing s with
  | nil => exact hrun
  | cons a as ih =>
    rw [run] at hrun ⊢
    split at hrun
    · rename_i hga
      rw [if_pos (hg s a hga)]
      cases hnext : S.next s a with
      | none => simp [hnext] at hrun
      | some t =>
        rw [hnext] at hrun
        exact ih hrun
    · cases hrun

/-- Execute a schedule in which an event that is not enabled when its turn comes is passed over. -/
def attempt (S : TransitionSystem σ α) (s : σ) (as : List α) : σ :=
  as.foldl (fun s a => (S.next s a).getD s) s

lemma attempt_append (s : σ) (as bs : List α) : S.attempt s (as ++ bs) = S.attempt (S.attempt s as) bs :=
  List.foldl_append

/-- What a schedule leads to is reachable. -/
theorem reachable_attempt {s : σ} (hs : S.Reachable (fun _ _ => True) s) (as : List α) :
    S.Reachable (fun _ _ => True) (S.attempt s as) := by
  induction as generalizing s with
  | nil => exact hs
  | cons a _ ih =>
    have hnext : S.Reachable (fun _ _ => True) ((S.next s a).getD s) := by
      cases hstep : S.next s a with
      | none => exact hs
      | some t => exact hs.step trivial hstep
    exact ih hnext

end TransitionSystem
