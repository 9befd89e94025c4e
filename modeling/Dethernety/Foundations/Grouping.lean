import Mathlib.Data.List.Dedup
import Mathlib.Tactic.SplitIfs
import Dethernety.Foundations.Record

/-!
# Grouping into records

A loop that gathers items under their keys gives each key a value made from the item and from the value that the key
has already. What such a loop leaves under a key depends only on the items of the key: a property that every item
gives or takes over is decided by them (`exists_foldl_update`), and one that no item breaks is kept
(`forall_foldl_update`). A set with insertion order is a record without values.
-/

open List

namespace Record

variable {α K V : Type*} [DecidableEq K]

/-- Give a key a value made from the one that it has. -/
def update (r : Record K V) (k : K) (f : Option V → V) : Record K V :=
  r.set k (f (r.get? k))

section

variable {r : Record K V} {k k' : K} {f : Option V → V} {m : V → Prop}

lemma get?_update : (r.update k f).get? k' = if k = k' then some (f (r.get? k)) else r.get? k' :=
  get?_set _ _ _ _

/-- What holds under a key after an update. -/
lemma exists_update : (∃ w, (r.update k f).get? k' = some w ∧ m w) ↔
    (k = k' ∧ m (f (r.get? k))) ∨ (k ≠ k' ∧ ∃ w, r.get? k' = some w ∧ m w) := by
  rw [get?_update]
  split_ifs with h
  all_goals simp [h]

/-- What holds under a key of a record in a record, which an update makes when it is not there. -/
theorem exists_update_getD {v : Option (Record K V)} {n : Prop} (h : ∀ o, m (f o) ↔ n ∨ ∃ w, o = some w ∧ m w) :
    (∃ w, ((v.getD ∅).update k f).get? k' = some w ∧ m w) ↔
      (k = k' ∧ n) ∨ ∃ r, v = some r ∧ ∃ w, r.get? k' = some w ∧ m w := by
  have hold : ∀ x : K, (∃ w, (v.getD ∅).get? x = some w ∧ m w) ↔ ∃ r, v = some r ∧ ∃ w, r.get? x = some w ∧ m w := by
    cases v with
    | none | some r => simp
  rw [exists_update, h, ← hold k']
  constructor
  · rintro (⟨rfl, hn | hw⟩ | ⟨-, hw⟩)
    · exact .inl ⟨rfl, hn⟩
    all_goals exact .inr hw
  · rintro (⟨rfl, hn⟩ | hw)
    · exact .inl ⟨rfl, .inl hn⟩
    · by_cases hk : k = k'
      · subst hk
        exact .inl ⟨rfl, .inr hw⟩
      · exact .inr ⟨hk, hw⟩

end

section

variable {key : α → K} {f : α → Option V → V} {m : V → Prop} {n : α → Prop} {k : K}

/-- A property that a value gets from an item or takes over: some item of the key gives it, or it was there. -/
theorem exists_foldl_update (h : ∀ a v, m (f a v) ↔ n a ∨ ∃ w, v = some w ∧ m w) (l : List α) (r : Record K V) :
    (∃ w, (l.foldl (fun r a => update r (key a) (f a)) r).get? k = some w ∧ m w) ↔
      (∃ a ∈ l, key a = k ∧ n a) ∨ ∃ w, r.get? k = some w ∧ m w := by
  induction l generalizing r with
  | nil =>
    refine (or_iff_right ?_).symm
    rintro ⟨a, ha, -⟩
    exact not_mem_nil ha
  | cons a l ih =>
    rw [foldl_cons, ih, exists_update, h]
    constructor
    · rintro (⟨b, hb, hn⟩ | ⟨rfl, hn | hw⟩ | ⟨-, hw⟩)
      · exact .inl ⟨b, mem_cons_of_mem a hb, hn⟩
      · exact .inl ⟨a, .head _, rfl, hn⟩
      all_goals exact .inr hw
    · rintro (⟨b, hb, hkey, hn⟩ | hw)
      · rcases mem_cons.1 hb with rfl | hb
        · exact .inr (.inl ⟨hkey, .inl hn⟩)
        · exact .inl ⟨b, hb, hkey, hn⟩
      · by_cases hkey : key a = k
        · subst hkey
          exact .inr (.inl ⟨rfl, .inr hw⟩)
        · exact .inr (.inr ⟨hkey, hw⟩)

lemma exists_foldl_update_empty (h : ∀ a v, m (f a v) ↔ n a ∨ ∃ w, v = some w ∧ m w) (l : List α) :
    (∃ w, (l.foldl (fun r a => update r (key a) (f a)) (∅ : Record K V)).get? k = some w ∧ m w) ↔
      ∃ a ∈ l, key a = k ∧ n a := by
  rw [exists_foldl_update h, or_iff_left]
  rintro ⟨w, hw, -⟩
  cases hw

/-- A property that no item of the key breaks. -/
theorem forall_foldl_update {l : List α}
    (h : ∀ a ∈ l, key a = k → ∀ v, (∀ w, v = some w → m w) → m (f a v)) {r : Record K V}
    (hr : ∀ w, r.get? k = some w → m w) :
    ∀ w, (l.foldl (fun r a => update r (key a) (f a)) r).get? k = some w → m w := by
  induction l generalizing r with
  | nil => exact hr
  | cons a l ih =>
    refine ih (fun b hb => h b (mem_cons_of_mem a hb)) fun w hw => ?_
    rw [get?_update] at hw
    split_ifs at hw with hkey
    · cases hw
      subst hkey
      exact h a (.head _) rfl _ hr
    · exact hr w hw

lemma mem_keys_foldl_update {l : List α} :
    k ∈ (l.foldl (fun r a => update r (key a) (f a)) (∅ : Record K V)).keys ↔ k ∈ l.map key := by
  rw [mem_keys_iff, Option.isSome_iff_exists, mem_map]
  have h : (∃ w, (l.foldl (fun r a => update r (key a) (f a)) (∅ : Record K V)).get? k = some w ∧ True) ↔
      ∃ a ∈ l, key a = k ∧ True := exists_foldl_update_empty (fun _ v => by simp) l
  simpa using h

end

/-- A set that remembers the order in which its members came. -/
abbrev Members (K : Type*) := Record K Unit

namespace Members

variable {s : Members K} {k : K} {l : List K}

def add (s : Members K) (k : K) : Members K :=
  s.set k ()

def addAll (s : Members K) (l : List K) : Members K :=
  l.foldl add s

omit [DecidableEq K] in
def size (s : Members K) : ℕ :=
  s.entries.length

lemma mem_add {k' : K} : k ∈ (s.add k').keys ↔ k = k' ∨ k ∈ s.keys :=
  mem_keys_set

lemma mem_addAll : k ∈ (s.addAll l).keys ↔ k ∈ l ∨ k ∈ s.keys := by
  have h : k ∈ (l.foldl (fun r a => r.set (id a) ()) s).keys ↔ k ∈ l.map id ∨ k ∈ s.keys := mem_keys_foldl_set
  rwa [map_id] at h

lemma size_add_ne_zero (s : Members K) (k : K) : (s.add k).size ≠ 0 := by
  intro h
  have hmem : k ∈ (s.add k).keys := mem_add.2 (.inl rfl)
  rw [keys, eq_nil_of_length_eq_zero h] at hmem
  exact not_mem_nil hmem

/-- A set has as many members as a list has distinct elements that it has the same of. -/
theorem size_eq_dedup (h : ∀ x, x ∈ s.keys ↔ x ∈ l) : s.size = l.dedup.length := by
  have hperm : s.keys.Perm l.dedup :=
    (perm_ext_iff_of_nodup s.nodup (nodup_dedup l)).2 fun x => (h x).trans mem_dedup.symm
  rw [← hperm.length_eq]
  exact (length_map _).symm

end Members

end Record
