import Mathlib.Data.List.Infix

/-!
# Substitution of a sublist by splitting and joining

`split old l` cuts `l` at the leftmost non-overlapping occurrences of `old`, and
`substitute old new l` joins the pieces with `new`, as `text.split(old).join(new)` does on
strings. Everything is stated for lists over a type with decidable equality.

* The equations `split_append` and `split_cons` and the induction rule `split_induction` follow
  the scan from left to right; the other facts are proved through them.
* `SeamFree x new pieces` says that `x` cannot be read across an edge of an inserted `new`. Then
  `x` occurs in the joined text only where it occurs in `new` or in one of the pieces
  (`SeamFree.infix_intercalate`).
-/

open List

namespace Substitution

variable {α : Type*} [DecidableEq α]

/-- The scan behind `split`: `skip` elements still belong to the last occurrence found. -/
def splitFrom (old : List α) : ℕ → List α → List (List α)
  | _, [] => [[]]
  | skip + 1, _ :: l => splitFrom old skip l
  | 0, a :: l =>
    if old <+: a :: l then [] :: splitFrom old (old.length - 1) l
    else (splitFrom old 0 l).modifyHead (a :: ·)

/-- The pieces of `l` between the leftmost non-overlapping occurrences of `old`. An empty `old`
separates the elements. -/
def split (old l : List α) : List (List α) :=
  if old = [] then l.map ([·]) else splitFrom old 0 l

/-- Replace every occurrence of `old` by `new`, by splitting and joining. -/
def substitute (old new l : List α) : List α :=
  new.intercalate (split old l)

/-! ## The scan -/

section

variable {old new l r : List α} {a : α}

lemma splitFrom_eq_drop (old : List α) (skip : ℕ) (l : List α) :
    splitFrom old skip l = splitFrom old 0 (l.drop skip) := by
  induction skip generalizing l with
  | zero => simp
  | succ skip ih =>
    cases l with
    | nil => simp [splitFrom]
    | cons a l => simpa [splitFrom] using ih l

section

variable (hold : old ≠ [])
include hold

@[simp]
lemma split_nil : split old [] = [[]] := by
  simp [split, splitFrom, hold]

/-- An occurrence at the front closes an empty piece. -/
theorem split_append : split old (old ++ r) = [] :: split old r := by
  obtain ⟨b, t, rfl⟩ := exists_cons_of_ne_nil hold
  have hinitial : b :: t <+: b :: (t ++ r) := prefix_append (b :: t) r
  simp only [split, hold, if_false, cons_append, splitFrom]
  rw [if_pos hinitial, splitFrom_eq_drop]
  simp

/-- An element at which no occurrence starts joins the first piece. -/
theorem split_cons (h : ¬ old <+: a :: l) :
    split old (a :: l) = (split old l).modifyHead (a :: ·) := by
  simp [split, hold, splitFrom, h]

/-- Induction along the scan. -/
theorem split_induction {P : List α → Prop} (nil : P []) (hit : ∀ r, P r → P (old ++ r))
    (miss : ∀ a l, ¬ old <+: a :: l → P l → P (a :: l)) (l : List α) : P l := by
  induction hn : l.length using Nat.strong_induction_on generalizing l with
  | _ n ih =>
    cases l with
    | nil => exact nil
    | cons a l =>
      by_cases h : old <+: a :: l
      · obtain ⟨r, hr⟩ := h
        rw [← hr]
        have hpos : 0 < old.length := length_pos_of_ne_nil hold
        have hlen : r.length < n := by
          have := congrArg List.length hr
          simp only [length_append] at this
          omega
        exact hit r (ih r.length hlen r rfl)
      · exact miss a l h (ih l.length (by simp at hn; omega) l rfl)

lemma split_ne_nil (l : List α) : split old l ≠ [] := by
  induction l using split_induction hold with
  | nil => simp [hold]
  | hit r => simp [split_append hold]
  | miss a l h ih => simpa [split_cons hold h] using ih

/-- The first piece and the rest. -/
lemma exists_split_eq_cons (l : List α) : ∃ p ps, split old l = p :: ps :=
  exists_cons_of_ne_nil (split_ne_nil hold l)

end

omit [DecidableEq α] in
lemma intercalate_modifyHead_cons (sep : List α) (a : α) {ps : List (List α)} (h : ps ≠ []) :
    sep.intercalate (ps.modifyHead (a :: ·)) = a :: sep.intercalate ps := by
  obtain ⟨p, ps, rfl⟩ := exists_cons_of_ne_nil h
  cases ps <;> simp [List.intercalate]

omit [DecidableEq α] in
lemma intercalate_nil_cons (sep : List α) {ps : List (List α)} (h : ps ≠ []) :
    sep.intercalate ([] :: ps) = sep ++ sep.intercalate ps := by
  obtain ⟨p, ps, rfl⟩ := exists_cons_of_ne_nil h
  simp [List.intercalate]

/-! ## Equations of `substitute` -/

variable (hold : old ≠ [])
include hold

@[simp]
lemma substitute_nil : substitute old new [] = [] := by
  simp [substitute, hold, List.intercalate]

lemma substitute_append : substitute old new (old ++ r) = new ++ substitute old new r := by
  rw [substitute, split_append hold, intercalate_nil_cons _ (split_ne_nil hold r), substitute]

lemma substitute_cons (h : ¬ old <+: a :: l) :
    substitute old new (a :: l) = a :: substitute old new l := by
  rw [substitute, split_cons hold h, intercalate_modifyHead_cons _ _ (split_ne_nil hold l),
    substitute]

/-- A list without an occurrence of `old` is one piece. -/
lemma split_eq_singleton (h : ¬ old <:+: l) : split old l = [l] := by
  induction l with
  | nil => exact split_nil hold
  | cons a l ih =>
    rw [infix_cons_iff, not_or] at h
    rw [split_cons hold h.1, ih h.2]
    rfl

lemma substitute_eq_self (h : ¬ old <:+: l) : substitute old new l = l := by
  simp [substitute, split_eq_singleton hold h, List.intercalate]

/-! ## The pieces -/

/-- The first piece starts the list. -/
lemma prefix_of_split_eq_cons {p : List α} {ps : List (List α)}
    (h : split old l = p :: ps) : p <+: l := by
  induction l using split_induction hold generalizing p ps with
  | nil =>
    rw [split_nil hold] at h
    cases h
    exact prefix_rfl
  | hit r =>
    rw [split_append hold] at h
    cases h
    exact List.nil_prefix
  | miss a l hmiss ih =>
    obtain ⟨q, qs, hq⟩ := exists_split_eq_cons hold l
    rw [split_cons hold hmiss, hq] at h
    cases h
    exact cons_prefix_cons.mpr ⟨rfl, ih hq⟩

/-- Every piece is a sublist of consecutive elements. -/
lemma infix_of_mem_split {p : List α} (h : p ∈ split old l) : p <:+: l := by
  induction l using split_induction hold with
  | nil => simp [hold] at h; simp [h]
  | hit r ih =>
    rw [split_append hold, mem_cons] at h
    rcases h with rfl | h
    · exact List.nil_infix
    · exact infix_append_of_infix_right (ih h)
  | miss a l hmiss ih =>
    obtain ⟨q, qs, hq⟩ := exists_split_eq_cons hold l
    rw [split_cons hold hmiss, hq] at h
    rcases mem_cons.mp h with rfl | h
    · exact (cons_prefix_cons.mpr ⟨rfl, prefix_of_split_eq_cons hold hq⟩).isInfix
    · exact infix_cons (ih (by rw [hq]; exact .tail _ h))

/-- No piece contains the list it was cut at. -/
lemma not_infix_of_mem_split {p : List α} (h : p ∈ split old l) : ¬ old <:+: p := by
  induction l using split_induction hold generalizing p with
  | nil => simp [hold] at h; simp [h, hold]
  | hit r ih =>
    rw [split_append hold, mem_cons] at h
    rcases h with rfl | h
    · simp [hold]
    · exact ih h
  | miss a l hmiss ih =>
    obtain ⟨q, qs, hq⟩ := exists_split_eq_cons hold l
    rw [split_cons hold hmiss, hq] at h
    rw [hq] at ih
    rcases mem_cons.mp h with rfl | h
    · rw [infix_cons_iff, not_or]
      have hle : a :: q <+: a :: l :=
        cons_prefix_cons.mpr ⟨rfl, prefix_of_split_eq_cons hold hq⟩
      exact ⟨fun hpre => hmiss (hpre.trans hle), ih (.head _)⟩
    · exact ih (.tail _ h)

end

/-! ## Seams -/

section

variable {x new old l r : List α}

/-- `x` starts inside `l` and ends inside `r` when `r` follows `l`. -/
def Straddles (x l r : List α) : Prop :=
  ∃ i < x.length, 0 < i ∧ x.take i <:+ l ∧ x.drop i <+: r

instance (x l r : List α) : Decidable (Straddles x l r) :=
  inferInstanceAs (Decidable (∃ i < x.length, 0 < i ∧ x.take i <:+ l ∧ x.drop i <+: r))

/-- `x` is not read across an edge of an inserted `new`: it neither starts in a piece and runs
over into the `new` that follows it, nor starts in a `new` and runs over into what follows. -/
def SeamFree (x new : List α) : List (List α) → Prop
  | [] => True
  | [_] => True
  | p :: q :: ps =>
    ¬ Straddles x p (new ++ new.intercalate (q :: ps)) ∧
      ¬ Straddles x new (new.intercalate (q :: ps)) ∧ SeamFree x new (q :: ps)

instance SeamFree.decidable (x new : List α) : (ps : List (List α)) → Decidable (SeamFree x new ps)
  | [] => isTrue trivial
  | [_] => isTrue trivial
  | p :: q :: ps =>
    haveI := SeamFree.decidable x new (q :: ps)
    inferInstanceAs (Decidable (¬ Straddles x p (new ++ new.intercalate (q :: ps)) ∧
      ¬ Straddles x new (new.intercalate (q :: ps)) ∧ SeamFree x new (q :: ps)))

omit [DecidableEq α] in
/-- An occurrence in a concatenation lies in one part or straddles the cut. -/
lemma infix_append_cases (h : x <:+: l ++ r) : x <:+: l ∨ x <:+: r ∨ Straddles x l r := by
  rcases infix_append_iff_ne_nil.mp h with h | h | ⟨p, q, hp, hq, rfl, hpl, hqr⟩
  · exact .inl h
  · exact .inr (.inl h)
  · refine .inr (.inr ⟨p.length, ?_, length_pos_of_ne_nil hp, ?_, ?_⟩)
    · have := length_pos_of_ne_nil hq
      simp only [length_append]
      omega
    · simpa using hpl
    · simpa using hqr

omit [DecidableEq α] in
/-- Without seams, an occurrence in the joined text is one in `new` or in a piece. -/
theorem SeamFree.infix_intercalate {ps : List (List α)} (hfree : SeamFree x new ps)
    (h : x <:+: new.intercalate ps) : x <:+: new ∨ ∃ p ∈ ps, x <:+: p := by
  induction ps with
  | nil =>
    rw [List.intercalate, intersperse_nil, flatten_nil, infix_nil] at h
    exact .inl (h ▸ List.nil_infix)
  | cons p ps ih =>
    cases ps with
    | nil => exact .inr ⟨p, by simp, by simpa [List.intercalate] using h⟩
    | cons q ps =>
      obtain ⟨hleft, hright, hrest⟩ := hfree
      have hjoin : new.intercalate (p :: q :: ps) = p ++ (new ++ new.intercalate (q :: ps)) := by
        simp [List.intercalate]
      rcases infix_append_cases h with h | h | h
      · exact .inr ⟨p, by simp, h⟩
      · rcases infix_append_cases h with h | h | h
        · exact .inl h
        · rcases ih hrest h with h | ⟨t, ht, hxt⟩
          · exact .inl h
          · exact .inr ⟨t, .tail _ ht, hxt⟩
        · exact absurd h hright
      · exact absurd h hleft

/-- Without seams, substitution creates no occurrence of a list that `new` does not contain. -/
theorem infix_of_infix_substitute (hold : old ≠ []) (hfree : SeamFree x new (split old l))
    (hnew : ¬ x <:+: new) (h : x <:+: substitute old new l) : x <:+: l := by
  rcases hfree.infix_intercalate h with h | ⟨p, hp, hxp⟩
  · exact absurd h hnew
  · exact hxp.trans (infix_of_mem_split hold hp)

/-- Without seams, substitution removes every occurrence of `old`. -/
theorem not_infix_substitute (hold : old ≠ []) (hfree : SeamFree old new (split old l))
    (hnew : ¬ old <:+: new) : ¬ old <:+: substitute old new l := by
  intro h
  rcases hfree.infix_intercalate h with h | ⟨p, hp, hxp⟩
  · exact hnew h
  · exact not_infix_of_mem_split hold hp hxp

end

/-! ## Elements that do not occur in `old` -/

variable {old new l r : List α} {c : α}

variable (hold : old ≠ [])
include hold

/-- An element foreign to `old` separates the substitution. -/
theorem substitute_append_cons (hc : c ∉ old) :
    substitute old new (l ++ c :: r) = substitute old new l ++ c :: substitute old new r := by
  induction l using split_induction hold with
  | nil =>
    have hmiss : ¬ old <+: c :: r := by
      intro hpre
      obtain ⟨b, t, rfl⟩ := exists_cons_of_ne_nil hold
      obtain ⟨rfl, -⟩ := cons_prefix_cons.mp hpre
      exact hc (.head _)
    simp [substitute_cons hold hmiss, hold]
  | hit l ih => rw [append_assoc, substitute_append hold, substitute_append hold, ih, append_assoc]
  | miss a l hmiss ih =>
    have hmiss' : ¬ old <+: a :: (l ++ c :: r) := by
      intro hpre
      rcases List.prefix_or_prefix_of_prefix hpre (prefix_append (a :: l) (c :: r)) with
        h | ⟨t, rfl⟩
      · exact hmiss h
      · rcases t with - | ⟨b, t⟩
        · exact hmiss (by simp)
        · rw [← cons_append, prefix_append_right_inj] at hpre
          obtain ⟨rfl, -⟩ := cons_prefix_cons.mp hpre
          exact hc (by simp)
    rw [cons_append, substitute_cons hold hmiss', substitute_cons hold hmiss, ih, cons_append]

/-- Substitution brings in the elements of `new` only. -/
theorem mem_substitute (h : c ∈ substitute old new l) : c ∈ new ∨ c ∈ l := by
  induction l using split_induction hold with
  | nil => simp [hold] at h
  | hit l ih =>
    rw [substitute_append hold, mem_append] at h
    rcases h with h | h
    · exact .inl h
    · exact (ih h).imp_right (mem_append_right _)
  | miss a l hmiss ih =>
    rw [substitute_cons hold hmiss, mem_cons] at h
    rcases h with rfl | h
    · exact .inr (.head _)
    · exact (ih h).imp_right (mem_cons_of_mem _)

/-- Substitution is empty only on the empty list. -/
lemma substitute_eq_nil_iff (hnew : new ≠ []) : substitute old new l = [] ↔ l = [] := by
  induction l using split_induction hold with
  | nil => simp [hold]
  | hit l => simp [substitute_append hold, hold, hnew]
  | miss a l hmiss => simp [substitute_cons hold hmiss]

lemma substitute_self : substitute old new old = new := by
  have h : substitute old new (old ++ []) = new ++ substitute old new [] := substitute_append hold
  simpa [hold] using h

/-- A replacement makes room for `new`. -/
lemma length_le_length_substitute (h : old <:+: l) :
    new.length ≤ (substitute old new l).length := by
  induction l using split_induction hold with
  | nil => exact absurd (infix_nil.mp h) hold
  | hit l =>
    rw [substitute_append hold, length_append]
    omega
  | miss a l hmiss ih =>
    have hle := ih ((infix_cons_iff.mp h).resolve_left hmiss)
    rw [substitute_cons hold hmiss, length_cons]
    omega

/-- Only `old` itself is turned into `new`. -/
theorem eq_of_substitute_eq (hnew : new ≠ []) (h : old <:+: l)
    (heq : substitute old new l = new) : l = old := by
  induction l using split_induction hold with
  | nil => exact absurd (infix_nil.mp h) hold
  | hit l =>
    rw [substitute_append hold, append_right_eq_self, substitute_eq_nil_iff hold hnew] at heq
    rw [heq, append_nil]
  | miss a l hmiss =>
    have hle : new.length ≤ (substitute old new l).length :=
      length_le_length_substitute hold ((infix_cons_iff.mp h).resolve_left hmiss)
    have hlen := congrArg List.length heq
    rw [substitute_cons hold hmiss, length_cons] at hlen
    omega

/-- Elements that `new` does not have get fewer with every replacement. -/
lemma count_substitute_le (hcnew : c ∉ new) : (substitute old new l).count c ≤ l.count c := by
  induction l using split_induction hold with
  | nil => simp [hold]
  | hit l ih =>
    rw [substitute_append hold, count_append, count_append, count_eq_zero_of_not_mem hcnew]
    omega
  | miss a l hmiss ih =>
    rw [substitute_cons hold hmiss, count_cons, count_cons]
    omega

lemma count_substitute_lt (hcnew : c ∉ new) (hcold : c ∈ old)
    (h : old <:+: l) : (substitute old new l).count c < l.count c := by
  induction l using split_induction hold with
  | nil => exact absurd (infix_nil.mp h) hold
  | hit l =>
    have hle : (substitute old new l).count c ≤ l.count c := count_substitute_le hold hcnew
    have hpos : 0 < old.count c := count_pos_iff.mpr hcold
    rw [substitute_append hold, count_append, count_append, count_eq_zero_of_not_mem hcnew]
    omega
  | miss a l hmiss ih =>
    have hlt := ih ((infix_cons_iff.mp h).resolve_left hmiss)
    rw [substitute_cons hold hmiss, count_cons, count_cons]
    omega

end Substitution
