import Dethernety.Foundations.Record

/-!
# Counting the values of a record

How many values of a record have a property, and what setting and erasing a key does to that number.
-/

open List

namespace Record

variable {K V : Type*}

/-- The number of keys whose value has a property. -/
def countValues (r : Record K V) (p : V → Bool) : ℕ :=
  r.entries.countP fun e => p e.2

@[simp]
lemma countValues_empty (p : V → Bool) : (∅ : Record K V).countValues p = 0 :=
  rfl

variable [DecidableEq K]

lemma lookup_eq_none_of_notMem {l : List (K × V)} {k : K} (h : k ∉ l.map Prod.fst) : lookup k l = none := by
  rw [← Option.not_isSome_iff_eq_none, lookup_isSome_iff]
  exact h

/-- Setting a key trades its old value for the new one. -/
theorem countValues_set (r : Record K V) (k : K) (v : V) (p : V → Bool) :
    (r.set k v).countValues p + (if (r.get? k).any p then 1 else 0) =
      r.countValues p + if p v then 1 else 0 := by
  obtain ⟨l, hl⟩ := r
  show (insertEntry k v l).countP _ + (if (lookup k l).any p then 1 else 0) = l.countP _ + _
  clear hl
  induction l with
  | nil => simp [insertEntry, lookup, countP_singleton]
  | cons e l ih =>
    rw [insertEntry, lookup]
    by_cases hk : e.1 = k
    · rw [if_pos hk, if_pos hk, countP_cons, countP_cons, Option.any_some]
      exact Nat.add_right_comm _ _ _
    · rw [if_neg hk, if_neg hk, countP_cons, countP_cons, Nat.add_right_comm, ih]
      exact Nat.add_right_comm _ _ _

/-- Erasing a key takes its value away. -/
lemma countValues_erase (r : Record K V) (k : K) (p : V → Bool) :
    (r.erase k).countValues p + (if (r.get? k).any p then 1 else 0) = r.countValues p := by
  obtain ⟨l, hl⟩ := r
  show (l.filter fun e => e.1 ≠ k).countP _ + (if (lookup k l).any p then 1 else 0) = l.countP _
  induction l with
  | nil => rfl
  | cons e l ih =>
    obtain ⟨hnew, hl⟩ := nodup_cons.1 hl
    rw [lookup]
    by_cases hk : e.1 = k
    · -- the key does not occur again
      have hrest := ih hl
      rw [lookup_eq_none_of_notMem (hk ▸ hnew)] at hrest
      rw [if_pos hk, filter_cons_of_neg (by simpa using hk), countP_cons, Option.any_some, ← hrest]
      rfl
    · rw [if_neg hk, filter_cons_of_pos (by simpa using hk), countP_cons, countP_cons,
        Nat.add_right_comm, ih hl]

lemma countValues_pos {r : Record K V} {k : K} {v : V} (h : r.get? k = some v) {p : V → Bool} (hp : p v = true) :
    0 < r.countValues p :=
  countP_pos_iff.2 ⟨(k, v), mem_entries_iff.2 h, hp⟩

lemma exists_of_countValues_pos {r : Record K V} {p : V → Bool} (h : 0 < r.countValues p) :
    ∃ k v, r.get? k = some v ∧ p v = true := by
  obtain ⟨⟨k, v⟩, hmem, hp⟩ := countP_pos_iff.1 h
  exact ⟨k, v, mem_entries_iff.1 hmem, hp⟩

lemma one_lt_countValues {r : Record K V} {k k' : K} {v v' : V} (h : r.get? k = some v) (h' : r.get? k' = some v')
    (hne : k ≠ k') {p : V → Bool} (hp : p v = true) (hp' : p v' = true) : 1 < r.countValues p := by
  have herase := r.countValues_erase k p
  rw [h, Option.any_some, if_pos hp] at herase
  have hother : (r.erase k).get? k' = some v' := by
    rw [get?_erase, if_neg hne, h']
  have hpos := countValues_pos hother hp'
  omega

lemma entries_filter_key (r : Record K V) (k : K) :
    (r.entries.filter fun e => e.1 = k) = ((r.get? k).map fun v => (k, v)).toList := by
  obtain ⟨l, hl⟩ := r
  show (l.filter fun e => e.1 = k) = ((lookup k l).map _).toList
  induction l with
  | nil => rfl
  | cons e l ih =>
    obtain ⟨hnew, hl⟩ := nodup_cons.1 hl
    by_cases hk : e.1 = k
    · -- the key does not occur again
      have hrest := ih hl
      rw [lookup_eq_none_of_notMem (hk ▸ hnew)] at hrest
      rw [filter_cons_of_pos (by simpa using hk), hrest, lookup, if_pos hk, ← hk]
      rfl
    · rw [filter_cons_of_neg (by simpa using hk), ih hl, lookup, if_neg hk]

/-- What the entries of a record yield, as far as it carries one key. -/
theorem flatMap_entries_filter {A : Type*} (r : Record K V) {g : K × V → List A} {key : A → K}
    (hg : ∀ e, ∀ a ∈ g e, key a = e.1) (k : K) :
    ((r.entries.flatMap g).filter fun a => key a = k) = ((r.get? k).map fun v => g (k, v)).getD [] := by
  have hfilter : ∀ l : List (K × V),
      ((l.flatMap g).filter fun a => key a = k) = (l.filter fun e => e.1 = k).flatMap g := by
    intro l
    induction l with
    | nil => rfl
    | cons e l ih =>
      rw [flatMap_cons, filter_append, ih]
      by_cases hk : e.1 = k
      · have hall : ((g e).filter fun a => key a = k) = g e :=
          filter_eq_self.2 fun a ha => by simpa using (hg e a ha).trans hk
        rw [hall, filter_cons_of_pos (by simpa using hk), flatMap_cons]
      · have hnone : ((g e).filter fun a => key a = k) = [] :=
          filter_eq_nil_iff.2 fun a ha => by simpa [hg e a ha] using hk
        rw [hnone, filter_cons_of_neg (by simpa using hk), nil_append]
  rw [hfilter, entries_filter_key]
  cases r.get? k with
  | none => rfl
  | some v => simp

end Record
