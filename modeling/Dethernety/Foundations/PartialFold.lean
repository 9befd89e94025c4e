import Mathlib.Data.List.Basic

/-!
# Folds of partial steps

A loop that may stop with an error is a fold of a partial step. What holds of the state before the
loop and is kept by a step, as a statement about the elements that the loop has gone over, holds of
the state after the loop and all its elements. The rules give each step the elements around it.
-/

namespace List

variable {S A : Type*} {s s' : S} {l : List A} {P : List A → S → Prop}

/-- The invariant rule of a loop that ran to its end. -/
theorem foldlM_induction {f : S → A → Option S} (h : l.foldlM f s = some s') (init : P [] s)
    (step : ∀ done a rest s s', l = done ++ a :: rest → f s a = some s' → P done s → P (done ++ [a]) s') : P l s' := by
  suffices hsuffix : ∀ rest done s, l = done ++ rest → rest.foldlM f s = some s' → P done s → P l s' from
    hsuffix l [] s rfl h init
  intro rest
  induction rest with
  | nil =>
    intro done s hl h hP
    obtain rfl : s = s' := Option.some.inj h
    rwa [hl, append_nil]
  | cons a rest ih =>
    intro done s hl h hP
    rw [foldlM_cons] at h
    obtain ⟨t, ht, hrest⟩ := Option.bind_eq_some_iff.1 h
    refine ih (done ++ [a]) t ?_ hrest (step done a rest s t hl ht hP)
    rw [hl, append_assoc, singleton_append]

/-- The invariant rule of a loop whose steps are total. -/
theorem foldl_induction {f : S → A → S} (init : P [] s)
    (step : ∀ done a rest s, l = done ++ a :: rest → P done s → P (done ++ [a]) (f s a)) : P l (l.foldl f s) := by
  suffices hsuffix : ∀ rest done s, l = done ++ rest → P done s → P l (rest.foldl f s) from
    hsuffix l [] s rfl init
  intro rest
  induction rest with
  | nil =>
    intro done s hl hP
    rwa [hl, append_nil]
  | cons a rest ih =>
    intro done s hl hP
    refine ih (done ++ [a]) (f s a) ?_ (step done a rest s hl hP)
    rw [hl, append_assoc, singleton_append]

/-- A map of partial steps that has a result had one at every element. -/
theorem isSome_of_mapM {B : Type*} {f : A → Option B} (h : (l.mapM f).isSome = true) :
    ∀ a ∈ l, (f a).isSome = true := by
  induction l with
  | nil => exact fun _ => nofun
  | cons a l ih =>
    rw [mapM_cons] at h
    obtain ⟨r, hr⟩ := Option.isSome_iff_exists.1 h
    obtain ⟨b, hb, hrest⟩ := Option.bind_eq_some_iff.1 hr
    obtain ⟨bs, hbs, -⟩ := Option.bind_eq_some_iff.1 hrest
    intro a' ha'
    rcases mem_cons.1 ha' with rfl | ha'
    · rw [hb]
      rfl
    · exact ih (by rw [hbs]; rfl) a' ha'

end List
