import Dethernety.Foundations.Distance
import Dethernety.Foundations.Search

/-!
# The layers of a breadth-first search

A breadth-first search visits nodes in the order of their distance from the start: its queue holds the
rest of one layer and, behind it, a part of the next one. `Layers.fresh` is what a search with
predecessors rests on, a node that is first seen from `x` is one farther than `x`.
-/

open List

namespace Search

open Distance

variable {α : Type*}

/-- The distance of a node from the start of a search. -/
noncomputable abbrev depth (succ : α → List α) (S : List α) (x : α) : ℕ∞ :=
  distance (fun a b => b ∈ succ a) {s | s ∈ S} x

/-- The queue of a search as two layers, of which the first is at distance `k`. -/
structure Layers (succ : α → List α) (S : List α) (f : Frontier α) (k : ℕ) (near far : List α) :
    Prop where
  queue_eq : f.queue = near ++ far
  near_eq : ∀ x ∈ near, depth succ S x = k
  far_eq : ∀ x ∈ far, depth succ S x = (k + 1 : ℕ)
  seen : ∀ x, depth succ S x ≤ k → x ∈ f.seen

variable {succ : α → List α} {S done near far : List α} {f : Frontier α} {k : ℕ} {x y : α}

lemma depth_of_mem (hx : x ∈ S) : depth succ S x = (0 : ℕ) :=
  le_antisymm (distance_le_zero_iff.2 hx) (by simp)

lemma Layers.initial : Layers succ S (.start S) 0 S [] where
  queue_eq := (append_nil S).symm
  near_eq _ hx := depth_of_mem hx
  far_eq _ hx := absurd hx not_mem_nil
  seen x hx := by
    have hmem : x ∈ {s | s ∈ S} := distance_le_zero_iff.1 hx
    exact hmem

/-- When a layer is done, all of the next one has been seen. -/
lemma Layers.advance (hl : Layers succ S f k [] far) (h : Invariant succ S done f) :
    Layers succ S f (k + 1) far [] where
  queue_eq := by rw [hl.queue_eq, append_nil, nil_append]
  near_eq := hl.far_eq
  far_eq _ hx := absurd hx not_mem_nil
  seen x hx := by
    rcases distance_le_succ_iff.1 hx with hx | ⟨a, e, ha⟩
    · exact h.start x hx
    · -- the node before it was visited, for what is queued is farther
      have hseen := hl.seen a ha
      rw [h.seen_eq, hl.queue_eq, nil_append] at hseen
      rcases mem_append.1 hseen with hdone | hfar
      · exact h.closed a hdone x e
      · have hle : ((k + 1 : ℕ) : ℕ∞) ≤ (k : ℕ) := hl.far_eq a hfar ▸ ha
        have hlt := Nat.cast_le.1 hle
        omega

/-- The next node of the queue begins a layer or goes on with it. -/
theorem Layers.exists_head (hl : Layers succ S f k near far) (h : Invariant succ S done f)
    {rest : List α} (hq : f.queue = x :: rest) :
    ∃ k' near' far', Layers succ S f k' (x :: near') far' ∧ rest = near' ++ far' := by
  have hcons : ∀ {k' near' far'}, Layers succ S f k' near' far' → near' ≠ [] →
      ∃ k' near' far', Layers succ S f k' (x :: near') far' ∧ rest = near' ++ far' := by
    intro k' near' far' hl' hne
    cases near' with
    | nil => exact absurd rfl hne
    | cons y near' =>
      have hqueue := hl'.queue_eq
      rw [hq, cons_append] at hqueue
      obtain ⟨rfl, hrest⟩ := List.cons.inj hqueue
      exact ⟨k', near', far', hl', hrest⟩
  by_cases hnear : near = []
  · subst hnear
    refine hcons (hl.advance h) ?_
    rintro rfl
    have hempty := hl.queue_eq
    cases hq.symm.trans hempty
  · exact hcons hl hnear

/-- A node that is first seen from `x` is one farther. -/
theorem Layers.fresh (hl : Layers succ S f k (x :: near) far) (e : y ∈ succ x) (hy : y ∉ f.seen) :
    depth succ S y = (k + 1 : ℕ) := by
  refine eq_natCast_succ_iff.2 ⟨distance_le_succ_iff.2 (.inr ⟨x, e, ?_⟩), fun hle => hy (hl.seen y hle)⟩
  exact (hl.near_eq x (.head _)).le

variable [DecidableEq α]

/-- A round of the search keeps the layers. -/
theorem Layers.step (hl : Layers succ S f k (x :: near) far) :
    ∃ far', Layers succ S (Frontier.scan ⟨f.seen, near ++ far⟩ (succ x)) k near far' := by
  obtain ⟨new, hscan, -, hmem⟩ := Frontier.scan_spec ⟨f.seen, near ++ far⟩ (succ x)
  refine ⟨far ++ new, ?_⟩
  rw [hscan]
  refine ⟨append_assoc _ _ _, fun y hy => hl.near_eq y (.tail _ hy), fun y hy => ?_, fun y hy => ?_⟩
  · rcases mem_append.1 hy with hy | hy
    · exact hl.far_eq y hy
    · exact hl.fresh ((hmem y).1 hy).1 ((hmem y).1 hy).2
  · exact mem_append_left _ (hl.seen y hy)

end Search
