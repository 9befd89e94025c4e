import Mathlib.Data.ENat.Lattice

/-!
# Distance from a set

The length of a shortest directed walk from a set of sources, over an arbitrary relation. It is `⊤`
where there is no walk. `distance_le_succ_iff` is the recursion that a staged computation follows.
-/

open Nat

namespace Distance

variable {α : Type*} {E E' : α → α → Prop} {S : Set α}

/-- A walk with `n` edges that starts in `S`. -/
inductive WalkFrom (E : α → α → Prop) (S : Set α) : ℕ → α → Prop
  | source {a : α} (h : a ∈ S) : WalkFrom E S 0 a
  | step {n : ℕ} {a b : α} (h : WalkFrom E S n a) (e : E a b) : WalkFrom E S (n + 1) b

/-- The length of a shortest walk from `S`. -/
noncomputable def distance (E : α → α → Prop) (S : Set α) (b : α) : ℕ∞ :=
  ⨅ (n : ℕ) (_ : WalkFrom E S n b), (n : ℕ∞)

lemma distance_le_of_walk {n : ℕ} {b : α} (h : WalkFrom E S n b) : distance E S b ≤ n :=
  iInf₂_le n h

lemma distance_le_iff {n : ℕ} {b : α} : distance E S b ≤ n ↔ ∃ m ≤ n, WalkFrom E S m b := by
  constructor
  · intro h
    by_contra hnone
    -- every walk is longer than `n`
    have hlong : ((n + 1 : ℕ) : ℕ∞) ≤ distance E S b := by
      refine le_iInf₂ fun m hm => ?_
      refine Nat.cast_le.2 (Nat.lt_of_not_le fun hle => hnone ⟨m, hle, hm⟩)
    exact absurd (Nat.cast_le.1 (hlong.trans h)) (Nat.not_succ_le_self n)
  · rintro ⟨m, hle, hm⟩
    exact (distance_le_of_walk hm).trans (Nat.cast_le.2 hle)

lemma distance_le_zero_iff {b : α} : distance E S b ≤ (0 : ℕ) ↔ b ∈ S := by
  rw [distance_le_iff]
  constructor
  · rintro ⟨m, hle, hm⟩
    cases hm with
    | source h => exact h
    | step => exact absurd hle (not_succ_le_zero _)
  · exact fun h => ⟨0, le_refl 0, .source h⟩

/-- One more edge. -/
theorem distance_le_succ_iff {n : ℕ} {b : α} :
    distance E S b ≤ (n + 1 : ℕ) ↔ b ∈ S ∨ ∃ a, E a b ∧ distance E S a ≤ n := by
  rw [distance_le_iff]
  constructor
  · rintro ⟨m, hle, hm⟩
    cases hm with
    | source h => exact .inl h
    | step h e => exact .inr ⟨_, e, distance_le_iff.2 ⟨_, le_of_succ_le_succ hle, h⟩⟩
  · rintro (h | ⟨a, e, ha⟩)
    · exact ⟨0, zero_le _, .source h⟩
    · obtain ⟨m, hle, hm⟩ := distance_le_iff.1 ha
      exact ⟨m + 1, succ_le_succ hle, .step hm e⟩

/-- More edges make nothing farther. -/
theorem distance_mono (h : ∀ a b, E a b → E' a b) (b : α) : distance E' S b ≤ distance E S b := by
  refine le_iInf₂ fun n hn => distance_le_of_walk ?_
  induction hn with
  | source hs => exact .source hs
  | step _ e ih => exact .step ih (h _ _ e)

lemma eq_natCast_succ_iff {x : ℕ∞} {n : ℕ} : x = (n + 1 : ℕ) ↔ x ≤ (n + 1 : ℕ) ∧ ¬ x ≤ (n : ℕ) := by
  cases x with
  | top =>
    exact iff_of_false (ENat.top_ne_natCast _) fun h => ENat.natCast_ne_top _ (top_le_iff.1 h.1)
  | coe m =>
    simp only [Nat.cast_inj, Nat.cast_le]
    omega

lemma natCast_succ_le_iff {x : ℕ∞} {n : ℕ} : (n + 1 : ℕ) ≤ x ↔ ¬ x ≤ (n : ℕ) := by
  cases x with
  | top => simp
  | coe m =>
    simp only [cast_le]
    omega

end Distance
