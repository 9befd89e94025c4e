import Mathlib.Data.Nat.Init
import Dethernety.Foundations.Transition

/-!
# Infinite runs

A run of a transition system as a sequence of states with the events between them; at a moment without
an event nothing changes, so a schedule that ends is a run as well (`Run.ofSchedule`). Invariants are
transported from `Reachable`, and `Run.eventually` is the rule for what must happen: a rank that no step
raises and that some later step lowers.
-/

open List

namespace TransitionSystem

variable {σ α : Type*} {S : TransitionSystem σ α} {ok : σ → α → Prop}

/-- What a moment of a run does: an event of the system, or nothing. -/
def Moment (S : TransitionSystem σ α) (s : σ) (a : Option α) (s' : σ) : Prop :=
  match a with
  | none => s' = s
  | some a => S.next s a = some s'

structure Run (S : TransitionSystem σ α) where
  state : ℕ → σ
  event : ℕ → Option α
  start : S.init (state 0)
  moment : ∀ n, S.Moment (state n) (event n) (state (n + 1))

namespace Run

variable (r : S.Run)

/-- Each event of the run meets `ok`. -/
def Meets (ok : σ → α → Prop) : Prop :=
  ∀ n a, r.event n = some a → ok (r.state n) a

variable {r}

lemma next_eq {n : ℕ} {a : α} (h : r.event n = some a) : S.next (r.state n) a = some (r.state (n + 1)) := by
  have hmoment := r.moment n
  rwa [h] at hmoment

lemma state_succ_of_none {n : ℕ} (h : r.event n = none) : r.state (n + 1) = r.state n := by
  have hmoment := r.moment n
  rwa [h] at hmoment

/-- The states of a run that meets `ok` are reachable. -/
lemma Meets.reachable (h : r.Meets ok) (n : ℕ) : S.Reachable ok (r.state n) := by
  induction n with
  | zero => exact .init r.start
  | succ n ih =>
    cases hevent : r.event n with
    | none =>
      rw [state_succ_of_none hevent]
      exact ih
    | some a => exact ih.step (h n a hevent) (next_eq hevent)

/-- The states of any run are reachable. -/
lemma reachable (r : S.Run) (n : ℕ) : S.Reachable (fun _ _ => True) (r.state n) :=
  Meets.reachable (r := r) (fun _ _ _ => trivial) n

/-- From a state with `P`, the moment `Q` comes: each moment before it keeps `P` and does not raise the
rank, and a later one lowers it. -/
theorem eventually {P : σ → Prop} {Q : ℕ → Prop} (rank : σ → ℕ) (hkeep : ∀ n, P (r.state n) → Q n ∨
      (P (r.state (n + 1)) ∧ rank (r.state (n + 1)) ≤ rank (r.state n))) (hlower : ∀ n, P (r.state n) → ∃ m, n ≤ m ∧
      (P (r.state m) → Q m ∨ rank (r.state (m + 1)) < rank (r.state m)))
    {n : ℕ} (hn : P (r.state n)) : ∃ m, n ≤ m ∧ Q m := by
  induction hrank : rank (r.state n) using Nat.strong_induction_on generalizing n with
  | _ k ih =>
    obtain ⟨m, hnm, hm⟩ := hlower n hn
    -- up to the moment that lowers the rank, either `Q` came or `P` was kept
    have hreach : ∀ d, (∃ l, n ≤ l ∧ l < n + d ∧ Q l) ∨
        (P (r.state (n + d)) ∧ rank (r.state (n + d)) ≤ k) := by
      intro d
      induction d with
      | zero => exact .inr ⟨hn, Nat.le_of_eq hrank⟩
      | succ d ihd =>
        rcases ihd with ⟨l, hnl, hl, hQ⟩ | ⟨hP, hle⟩
        · exact .inl ⟨l, hnl, Nat.lt_succ_of_lt hl, hQ⟩
        · rcases hkeep _ hP with hQ | ⟨hP', hle'⟩
          · exact .inl ⟨n + d, Nat.le_add_right _ _, Nat.lt_succ_self _, hQ⟩
          · exact .inr ⟨hP', Nat.le_trans hle' hle⟩
    rcases hreach (m - n) with ⟨l, hnl, -, hQ⟩ | ⟨hP, hle⟩
    · exact ⟨l, hnl, hQ⟩
    · rw [Nat.add_sub_cancel' hnm] at hP hle
      rcases hm hP with hQ | hlt
      · exact ⟨m, hnm, hQ⟩
      · rcases hkeep m hP with hQ | ⟨hP', -⟩
        · exact ⟨m, hnm, hQ⟩
        · obtain ⟨l, hml, hQ⟩ := ih _ (Nat.lt_of_lt_of_le hlt hle) hP' rfl
          exact ⟨l, Nat.le_trans hnm (Nat.le_of_succ_le hml), hQ⟩

end Run

/-- The state after the events of a schedule that are enabled one after the other. -/
def exec (S : TransitionSystem σ α) : σ → List α → Option σ
  | s, [] => some s
  | s, a :: as => (S.next s a).bind fun s' => S.exec s' as

lemma exec_append (s : σ) (as as' : List α) : S.exec s (as ++ as') = (S.exec s as).bind fun s' => S.exec s' as' := by
  induction as generalizing s with
  | nil => rfl
  | cons a as ih =>
    rw [cons_append, exec, exec]
    cases S.next s a with
    | none => rfl
    | some s' => exact ih s'

/-- A schedule, after which nothing happens, as a run. -/
def Run.ofSchedule (S : TransitionSystem σ α) (s : σ) (as : List α) (hs : S.init s)
    (h : (S.exec s as).isSome) : S.Run where
  state n := (S.exec s (as.take n)).getD s
  event n := as[n]?
  start := hs
  moment n := by
    cases hn : as[n]? with
    | none =>
      have hlength : as.length ≤ n := getElem?_eq_none_iff.1 hn
      show (S.exec s (as.take (n + 1))).getD s = (S.exec s (as.take n)).getD s
      rw [take_of_length_le hlength, take_of_length_le (Nat.le_succ_of_le hlength)]
    | some a =>
      show S.next _ a = some _
      have htake : as.take (n + 1) = as.take n ++ [a] := by
        rw [take_add_one, hn]
        rfl
      -- the schedule is enabled up to its end
      have hsplit := exec_append (S := S) s (as.take (n + 1)) (as.drop (n + 1))
      rw [take_append_drop] at hsplit
      have hsome : (S.exec s (as.take (n + 1))).isSome := by
        rw [hsplit] at h
        cases hexec : S.exec s (as.take (n + 1)) with
        | none =>
          rw [hexec] at h
          cases h
        | some => rfl
      rw [htake, exec_append] at hsome ⊢
      cases hexec : S.exec s (as.take n) with
      | none =>
        rw [hexec] at hsome
        cases hsome
      | some s' =>
        rw [hexec] at hsome
        cases hnext : S.next s' a with
        | none =>
          simp only [Option.bind_some, exec, hnext, Option.bind_none] at hsome
          cases hsome
        | some s'' =>
          simp only [Option.bind_some, exec, hnext, Option.getD_some]

/-- Where the schedule has ended, its last state stays. -/
theorem Run.ofSchedule_state_of_le {s : σ} {as : List α} {hs : S.init s} {h : (S.exec s as).isSome}
    {n : ℕ} (hn : as.length ≤ n) :
    (Run.ofSchedule S s as hs h).state n = (Run.ofSchedule S s as hs h).state as.length := by
  show (S.exec s (as.take n)).getD s = (S.exec s (as.take as.length)).getD s
  rw [take_of_length_le hn, take_length]

end TransitionSystem
