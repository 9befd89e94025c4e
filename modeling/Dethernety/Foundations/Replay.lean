import Mathlib.Data.List.Infix

/-!
# Replaying a list of steps after crashes

A recovery log is a list of steps, each with its own test for "already done", that is performed
again from the start after every crash. This file says when that converges: if after every
initial part of an uninterrupted run each step of that part has nothing left to do, then a run
that starts where an earlier one was cut passes over the finished steps and goes on from there
(`Checkpoint.perform_take`).
-/

open List

namespace Replay

variable {ι σ ε : Type*}

/-- Perform the steps in order. A step that fails stops the run and leaves the state before it. -/
def perform (exec : ι → σ → Except ε σ) : List ι → σ → σ × Option ε
  | [], d => (d, none)
  | f :: fs, d =>
    match exec f d with
    | .ok d' => perform exec fs d'
    | .error e => (d, some e)

/-- The step has nothing left to do. -/
def Settled (exec : ι → σ → Except ε σ) (f : ι) (d : σ) : Prop :=
  exec f d = .ok d

/-- The steps `done` lead from `d₀` to `d`, and none of them has anything left to do there. -/
structure Checkpoint (exec : ι → σ → Except ε σ) (d₀ : σ) (done : List ι) (d : σ) : Prop where
  /-- The uninterrupted run of `done` ends in `d`. -/
  reached : perform exec done d₀ = (d, none)
  /-- Repeating a step of `done` changes nothing. -/
  settled : ∀ f ∈ done, Settled exec f d

/-- Every initial part of the steps leads to a checkpoint. -/
def Replayable (exec : ι → σ → Except ε σ) (steps : List ι) (d₀ : σ) : Prop :=
  ∀ done, done <+: steps → ∃ d, Checkpoint exec d₀ done d

variable {exec : ι → σ → Except ε σ} {d₀ d d' : σ} {done steps : List ι} {f : ι}

lemma perform_append (h : perform exec done d = (d', none)) (rest : List ι) :
    perform exec (done ++ rest) d = perform exec rest d' := by
  induction done generalizing d with
  | nil =>
    cases h
    rfl
  | cons f done ih =>
    cases hf : exec f d with
    | ok e =>
      simp only [perform, hf, cons_append] at h ⊢
      exact ih h
    | error e => simp [perform, hf] at h

/-- What every step keeps, a run keeps, wherever it stops. -/
theorem perform_induction {P : σ → Prop} (hd : P d)
    (step : ∀ f ∈ steps, ∀ d d', exec f d = .ok d' → P d → P d') : P (perform exec steps d).1 := by
  induction steps generalizing d with
  | nil => exact hd
  | cons f steps ih =>
    cases hf : exec f d with
    | error e =>
      simp only [perform, hf]
      exact hd
    | ok d' =>
      simp only [perform, hf]
      refine ih (step f (.head _) d d' hf hd) ?_
      exact fun g hg => step g (.tail _ hg)

lemma perform_concat (h : perform exec done d = (d', none)) {d'' : σ} (hf : exec f d' = .ok d'') :
    perform exec (done ++ [f]) d = (d'', none) := by
  simp [perform_append h, perform, hf]

lemma perform_of_settled (h : ∀ f ∈ done, Settled exec f d) : perform exec done d = (d, none) := by
  induction done with
  | nil => rfl
  | cons f done ih =>
    have hf : exec f d = .ok d := h f (.head _)
    simp only [perform, hf]
    exact ih fun g hg => h g (.tail _ hg)

/-- A run from a checkpoint, cut after `n` steps, does not fail and ends in a checkpoint again;
if it is not cut it has performed every step. -/
theorem Checkpoint.perform_take (hd : Checkpoint exec d₀ done d)
    (hsteps : Replayable exec steps d₀) (hdone : done <+: steps) (n : ℕ) :
    ∃ done' d', done' <+: steps ∧ Checkpoint exec d₀ done' d' ∧
      perform exec (steps.take n) d = (d', none) ∧ (steps.length ≤ n → done' = steps) := by
  rcases List.prefix_or_prefix_of_prefix hdone (List.take_prefix n steps) with h | h
  · -- the run gets past what was done before: both runs meet after `done`
    obtain ⟨rest, hrest⟩ := h
    obtain ⟨d', hd'⟩ := hsteps _ (List.take_prefix n steps)
    refine ⟨steps.take n, d', List.take_prefix n steps, hd', ?_, take_of_length_le⟩
    have hfull : perform exec (done ++ rest) d₀ = (d', none) := by rw [hrest]; exact hd'.reached
    rw [← hrest, perform_append (perform_of_settled hd.settled), ← perform_append hd.reached, hfull]
  · -- the run is cut inside what was done before
    refine ⟨done, d, hdone, hd, perform_of_settled fun g hg => hd.settled g (h.subset hg), ?_⟩
    intro hn
    rw [take_of_length_le hn] at h
    exact hdone.eq_of_length_le h.length_le

/-- The invariant rule. It is enough that the next step succeeds, has nothing left to do
afterwards and does not undo an earlier one. -/
theorem checkpoint_of_step {I : List ι → σ → Prop} (init : I [] d₀)
    (step : ∀ done f, done ++ [f] <+: steps → ∀ d, Checkpoint exec d₀ done d → I done d →
      ∃ d', exec f d = .ok d' ∧ Settled exec f d' ∧ (∀ g ∈ done, Settled exec g d') ∧ I (done ++ [f]) d')
    (done : List ι) (hdone : done <+: steps) : ∃ d, Checkpoint exec d₀ done d ∧ I done d := by
  induction done using List.reverseRecOn with
  | nil => exact ⟨d₀, ⟨rfl, by simp⟩, init⟩
  | append_singleton done f ih =>
    obtain ⟨d, hd, hI⟩ := ih ((prefix_append done [f]).trans hdone)
    obtain ⟨d', hf, hself, hothers, hI'⟩ := step done f hdone d hd hI
    refine ⟨d', ⟨perform_concat hd.reached hf, ?_⟩, hI'⟩
    intro g hg
    rcases mem_append.mp hg with hg | hg
    · exact hothers g hg
    · rw [mem_singleton.mp hg]
      exact hself

end Replay
