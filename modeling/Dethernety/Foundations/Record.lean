import Mathlib.Data.List.Perm.Subperm

/-!
# Insertion-ordered records

A record is a finite map that remembers the order in which its keys were first set, as an object
of a scripting language does: setting a key that is there replaces the value in place, a new key
goes to the end. Facts are stated through `get?`, and two records with the same `get?` are equal up
to the order of their keys (`SameEntries`).
-/

/-- A finite map from `K` to `V` in insertion order. -/
structure Record (K V : Type*) where
  /-- The entries in the order of their keys. -/
  entries : List (K × V)
  /-- A key occurs once. -/
  nodup_keys : (entries.map Prod.fst).Nodup

open List

namespace Record

variable {K V : Type*} [DecidableEq K]

/-- The value of the first entry for `k`. -/
def lookup (k : K) : List (K × V) → Option V
  | [] => none
  | (k', v) :: l => if k' = k then some v else lookup k l

/-- Replace the entry for `k` in place, or append it. -/
def insertEntry (k : K) (v : V) : List (K × V) → List (K × V)
  | [] => [(k, v)]
  | (k', v') :: l => if k' = k then (k, v) :: l else (k', v') :: insertEntry k v l

section

variable {l : List (K × V)} {k k' : K} {v : V}

lemma lookup_isSome_iff : (lookup k l).isSome ↔ k ∈ l.map Prod.fst := by
  induction l with
  | nil => simp [lookup]
  | cons e l ih =>
    by_cases h : e.1 = k
    · simp [lookup, h]
    · simp only [lookup, h, if_false, ih, map_cons, mem_cons]
      constructor
      · exact .inr
      · rintro (rfl | hk)
        · exact absurd rfl h
        · exact hk

lemma lookup_eq_none (h : k ∉ l.map Prod.fst) : lookup k l = none := by
  rwa [← Option.not_isSome_iff_eq_none, lookup_isSome_iff]

lemma lookup_insertEntry (k : K) (v : V) (l : List (K × V)) (k' : K) :
    lookup k' (insertEntry k v l) = if k = k' then some v else lookup k' l := by
  induction l with
  | nil => simp [insertEntry, lookup]
  | cons e l ih =>
    by_cases h : e.1 = k
    · by_cases hk : k = k'
      all_goals simp [insertEntry, lookup, h, hk]
    · by_cases he : e.1 = k'
      · have hk : k ≠ k' := fun hk => h (he.trans hk.symm)
        simp [insertEntry, lookup, he, hk, hk.symm]
      · simp [insertEntry, lookup, h, he, ih]

lemma lookup_filter_ne (k : K) (l : List (K × V)) (k' : K) :
    lookup k' (l.filter fun e => e.1 ≠ k) = if k = k' then none else lookup k' l := by
  induction l with
  | nil => simp [lookup]
  | cons e l ih =>
    by_cases he : e.1 = k
    · by_cases hk : k = k'
      all_goals simpa [filter_cons, he, hk, lookup] using ih
    · by_cases hk : e.1 = k'
      · have hne : k ≠ k' := fun h => he (hk.trans h.symm)
        simp [lookup, hk, hne, hne.symm]
      · simpa [filter_cons, he, hk, lookup] using ih

lemma lookup_filter_keys (p : K → Bool) (l : List (K × V)) (k : K) :
    lookup k (l.filter fun e => p e.1) = if p k then lookup k l else none := by
  induction l with
  | nil => simp [lookup]
  | cons e l ih =>
    by_cases he : e.1 = k
    · by_cases hp : p k
      · simp [he, hp, lookup]
      · simpa [filter_cons, he, hp, lookup] using ih
    · by_cases hp : p e.1
      all_goals simpa [filter_cons, he, hp, lookup] using ih

lemma mem_keys_insertEntry : k' ∈ (insertEntry k v l).map Prod.fst ↔ k' = k ∨ k' ∈ l.map Prod.fst := by
  rw [← lookup_isSome_iff, lookup_insertEntry, ← lookup_isSome_iff]
  by_cases h : k = k'
  · simp [h]
  · simp [h, Ne.symm h]

lemma nodup_insertEntry (h : (l.map Prod.fst).Nodup) : ((insertEntry k v l).map Prod.fst).Nodup := by
  induction l with
  | nil => simp [insertEntry]
  | cons e l ih =>
    obtain ⟨he, hl⟩ := nodup_cons.mp h
    by_cases hk : e.1 = k
    · simpa [insertEntry, hk] using h
    · simp only [insertEntry, hk, if_false, map_cons, nodup_cons]
      refine ⟨?_, ih hl⟩
      rw [mem_keys_insertEntry]
      rintro (rfl | hmem)
      · exact hk rfl
      · exact he hmem

end

/-- No entries. -/
def empty : Record K V where
  entries := []
  nodup_keys := List.nodup_nil

instance : EmptyCollection (Record K V) :=
  ⟨empty⟩

instance : Inhabited (Record K V) :=
  ⟨empty⟩

instance [DecidableEq V] : DecidableEq (Record K V) := fun r s =>
  decidable_of_iff (r.entries = s.entries) (by cases r; cases s; simp)

/-- The value of a key, if it is there. -/
def get? (r : Record K V) (k : K) : Option V :=
  lookup k r.entries

def keys (r : Record K V) : List K :=
  r.entries.map Prod.fst

/-- `r[k] = v` -/
def set (r : Record K V) (k : K) (v : V) : Record K V where
  entries := insertEntry k v r.entries
  nodup_keys := nodup_insertEntry r.nodup_keys

/-- `delete r[k]` -/
def erase (r : Record K V) (k : K) : Record K V where
  entries := r.entries.filter fun e => e.1 ≠ k
  nodup_keys := (List.filter_sublist.map Prod.fst).nodup r.nodup_keys

/-- The entries whose keys satisfy `p`. -/
def filterKeys (r : Record K V) (p : K → Bool) : Record K V where
  entries := r.entries.filter fun e => p e.1
  nodup_keys := (List.filter_sublist.map Prod.fst).nodup r.nodup_keys

/-- Assign an optional value, where `none` removes the key. -/
def put (r : Record K V) (k : K) : Option V → Record K V
  | some v => r.set k v
  | none => r.erase k

/-- The record of a list of entries; later entries win. -/
def ofList (l : List (K × V)) : Record K V :=
  l.foldl (fun r e => r.set e.1 e.2) ∅

/-- The same keys with the same values, in any order. -/
def SameEntries (r s : Record K V) : Prop :=
  ∀ k, r.get? k = s.get? k

variable {r s : Record K V} {k k' : K} {v : V}

@[simp]
lemma get?_empty (k : K) : (∅ : Record K V).get? k = none :=
  rfl

omit [DecidableEq K] in
@[simp]
lemma keys_empty : (∅ : Record K V).keys = [] :=
  rfl

omit [DecidableEq K] in
lemma nodup (r : Record K V) : r.keys.Nodup :=
  r.nodup_keys

lemma mem_keys_iff : k ∈ r.keys ↔ (r.get? k).isSome :=
  lookup_isSome_iff.symm

lemma notMem_keys_iff : k ∉ r.keys ↔ r.get? k = none := by
  rw [mem_keys_iff, Option.not_isSome_iff_eq_none]

lemma mem_keys_of_get? (h : r.get? k = some v) : k ∈ r.keys :=
  mem_keys_iff.mpr (by simp [h])

lemma mem_keys_set : k' ∈ (r.set k v).keys ↔ k' = k ∨ k' ∈ r.keys :=
  mem_keys_insertEntry

/-- A new key goes to the end. -/
lemma entries_set_of_notMem (h : k ∉ r.keys) : (r.set k v).entries = r.entries ++ [(k, v)] := by
  obtain ⟨l, hl⟩ := r
  show insertEntry k v l = l ++ [(k, v)]
  replace h : k ∉ l.map Prod.fst := h
  clear hl
  induction l with
  | nil => rfl
  | cons e l ih =>
    have hne : e.1 ≠ k := fun he => h (by rw [map_cons, he]; exact .head _)
    rw [insertEntry, if_neg hne, ih fun hk => h (.tail _ hk), cons_append]

/-- A key that is there stays in its place. -/
theorem keys_set_of_mem (h : k ∈ r.keys) : (r.set k v).keys = r.keys := by
  obtain ⟨l, hl⟩ := r
  show (insertEntry k v l).map Prod.fst = l.map Prod.fst
  replace h : k ∈ l.map Prod.fst := h
  clear hl
  induction l with
  | nil => cases h
  | cons e l ih =>
    rw [insertEntry]
    split_ifs with hk
    · rw [map_cons, map_cons, hk]
    · rw [map_cons, map_cons, ih ((mem_cons.1 h).resolve_left (Ne.symm hk))]

lemma get?_set (r : Record K V) (k : K) (v : V) (k' : K) :
    (r.set k v).get? k' = if k = k' then some v else r.get? k' :=
  lookup_insertEntry k v r.entries k'

/-- Setting a key to what it has changes nothing. -/
lemma set_eq_self (h : r.get? k = some v) : r.set k v = r := by
  obtain ⟨l, hl⟩ := r
  have hentries : insertEntry k v l = l := by
    replace h : lookup k l = some v := h
    clear hl
    induction l with
    | nil => exact absurd h.symm (Option.some_ne_none v)
    | cons e l ih =>
      rw [lookup] at h
      rw [insertEntry]
      split_ifs at h ⊢ with hk
      · rw [← hk, ← Option.some.inj h]
      · rw [ih h]
  simp only [set, hentries]

lemma get?_erase (r : Record K V) (k k' : K) :
    (r.erase k).get? k' = if k = k' then none else r.get? k' :=
  lookup_filter_ne k r.entries k'

/-- Erasing a list of keys one after the other. -/
theorem get?_foldl_erase {α : Type*} (key : α → K) (l : List α) (r : Record K V) (k : K) :
    (l.foldl (fun r a => r.erase (key a)) r).get? k = if k ∈ l.map key then none else r.get? k := by
  induction l generalizing r with
  | nil => rfl
  | cons a l ih =>
    rw [foldl_cons, ih, get?_erase, map_cons]
    by_cases hk : key a = k
    · simp [hk]
    · simp [hk, Ne.symm hk]

lemma get?_filterKeys (r : Record K V) (p : K → Bool) (k : K) :
    (r.filterKeys p).get? k = if p k then r.get? k else none :=
  lookup_filter_keys p r.entries k

omit [DecidableEq K] in
lemma keys_filterKeys (r : Record K V) (p : K → Bool) : (r.filterKeys p).keys = r.keys.filter p := by
  unfold keys filterKeys
  rw [filter_map]
  rfl

lemma get?_put (r : Record K V) (k : K) (v : Option V) (k' : K) :
    (r.put k v).get? k' = if k = k' then v else r.get? k' := by
  cases v with
  | none => exact get?_erase r k k'
  | some v => exact get?_set r k v k'

/-- Setting a list of distinct keys one after the other. -/
theorem get?_foldl_set {l : List (K × V)} (h : (l.map Prod.fst).Nodup) (r : Record K V) (k : K) :
    (l.foldl (fun r e => r.set e.1 e.2) r).get? k = (lookup k l).or (r.get? k) := by
  induction l generalizing r with
  | nil => simp [lookup]
  | cons e l ih =>
    obtain ⟨he, hl⟩ := nodup_cons.mp h
    rw [foldl_cons, ih hl, get?_set]
    by_cases hk : e.1 = k
    · -- the key does not occur again
      have hrest := lookup_eq_none (hk ▸ he)
      simp [lookup, hk, hrest]
    · simp [lookup, hk]

/-- Putting optional values at a list of distinct keys one after the other. -/
theorem get?_foldl_put {W : Type*} {f : W → Option V} {l : List (K × W)}
    (h : (l.map Prod.fst).Nodup) (r : Record K V) (k : K) :
    (l.foldl (fun r e => r.put e.1 (f e.2)) r).get? k = ((lookup k l).map f).getD (r.get? k) := by
  induction l generalizing r with
  | nil => rfl
  | cons e l ih =>
    obtain ⟨he, hl⟩ := nodup_cons.mp h
    rw [foldl_cons, ih hl, get?_put, lookup]
    by_cases hk : e.1 = k
    · -- the key does not occur again
      have hrest := lookup_eq_none (hk ▸ he)
      rw [hrest, if_pos hk, if_pos hk]
      rfl
    · rw [if_neg hk, if_neg hk]

/-- Elements with distinct keys put their entries, if they have one, into a record. -/
theorem get?_foldl_entries {α : Type*} {key : α → K} {entry : α → Option V} {l : List α}
    (h : (l.map key).Nodup) (r : Record K V) {x : α} (hx : x ∈ l) (hr : r.get? (key x) = none) :
    (l.foldl (fun r x => (entry x).elim r (r.set (key x))) r).get? (key x) = entry x := by
  -- what the elements after `x` do not touch
  have hrest : ∀ (m : List α) (r : Record K V) (k : K), k ∉ m.map key →
      (m.foldl (fun r x => (entry x).elim r (r.set (key x))) r).get? k = r.get? k := by
    intro m
    induction m with
    | nil => exact fun _ _ _ => rfl
    | cons y m ihm =>
      intro r k hk
      obtain ⟨hne, hk⟩ := not_or.1 (fun hor => hk (mem_cons.2 hor))
      rw [foldl_cons, ihm _ k hk]
      cases entry y with
      | none => rfl
      | some v => exact (get?_set r (key y) v k).trans (if_neg (Ne.symm hne))
  induction l generalizing r with
  | nil => cases hx
  | cons y l ih =>
    obtain ⟨hy, hl⟩ := nodup_cons.1 h
    rw [foldl_cons]
    obtain rfl | hmem := mem_cons.1 hx
    · rw [hrest l _ _ hy]
      cases entry x with
      | none => exact hr
      | some v => exact (get?_set r (key x) v (key x)).trans (if_pos rfl)
    · refine ih hl _ hmem ?_
      have hne : key y ≠ key x := fun heq => hy (heq ▸ mem_map_of_mem hmem)
      cases entry y with
      | none => exact hr
      | some v => exact (get?_set r (key y) v (key x)).trans ((if_neg hne).trans hr)

section

variable {α : Type*} {key : α → K} {val : α → V}

/-- Setting the keys of a list leaves the others alone. -/
lemma get?_foldl_set_of_notMem {l : List α} {k : K} (hk : k ∉ l.map key) (r : Record K V) :
    (l.foldl (fun r a => r.set (key a) (val a)) r).get? k = r.get? k := by
  induction l generalizing r with
  | nil => rfl
  | cons a l ih =>
    obtain ⟨hne, hk⟩ := not_or.1 (fun hor => hk (mem_cons.2 hor))
    rw [foldl_cons, ih hk, get?_set, if_neg (Ne.symm hne)]

/-- Setting the keys of a list adds them. -/
lemma mem_keys_foldl_set {l : List α} {k : K} {r : Record K V} :
    k ∈ (l.foldl (fun r a => r.set (key a) (val a)) r).keys ↔ k ∈ l.map key ∨ k ∈ r.keys := by
  induction l generalizing r with
  | nil => simp
  | cons a l ih =>
    rw [foldl_cons, ih, mem_keys_set, map_cons, mem_cons, ← or_assoc, or_comm (a := k ∈ _)]

/-- A key that is set once has the value that it was set to. -/
theorem get?_foldl_set_of_count {l : List α} {a : α} (ha : a ∈ l)
    (hcount : (l.map key).count (key a) = 1) (r : Record K V) :
    (l.foldl (fun r a => r.set (key a) (val a)) r).get? (key a) = some (val a) := by
  induction l generalizing r with
  | nil => cases ha
  | cons b l ih =>
    rw [map_cons, count_cons] at hcount
    rw [foldl_cons]
    obtain rfl | hmem := mem_cons.1 ha
    · rw [beq_self_eq_true, if_pos rfl] at hcount
      have hrest : key a ∉ l.map key := count_eq_zero.1 (Nat.succ.inj hcount)
      rw [get?_foldl_set_of_notMem hrest, get?_set, if_pos rfl]
    · have hpos : 0 < (l.map key).count (key a) :=
        count_pos_iff.2 (mem_map_of_mem hmem)
      have hone : (l.map key).count (key a) = 1 := by omega
      exact ih hmem hone _

end

lemma SameEntries.keys_perm (h : r.SameEntries s) : r.keys.Perm s.keys := by
  rw [perm_ext_iff_of_nodup r.nodup s.nodup]
  intro k
  rw [mem_keys_iff, mem_keys_iff, h k]

/-- The entries are the keys with their values. -/
lemma mem_entries_iff : (k, v) ∈ r.entries ↔ r.get? k = some v := by
  obtain ⟨l, hl⟩ := r
  show (k, v) ∈ l ↔ lookup k l = some v
  induction l with
  | nil => simp [lookup]
  | cons e l ih =>
    obtain ⟨he, hl⟩ := nodup_cons.1 hl
    rw [mem_cons, lookup, ih hl]
    split_ifs with hk
    · -- the key does not occur again
      have hrest := lookup_eq_none (hk ▸ he)
      rw [hrest, ← hk, Option.some_inj]
      constructor
      · rintro (h | h)
        · exact congrArg Prod.snd h.symm
        · cases h
      · exact fun h => .inl (Prod.ext rfl h.symm)
    · exact or_iff_right fun h => hk (congrArg Prod.fst h.symm)

lemma perm_set (r : Record K V) (k : K) (v : V) : (r.set k v).entries.Perm ((k, v) :: (r.erase k).entries) := by
  have hne : ∀ e e' : K × V, e.1 ≠ e'.1 → e ≠ e' := fun _ _ h heq => h (congrArg _ heq)
  have hnew : (k, v) ∉ (r.erase k).entries := by simp [mem_entries_iff, get?_erase]
  refine (perm_ext_iff_of_nodup (List.Pairwise.of_map _ hne (r.set k v).nodup_keys)
    (nodup_cons.2 ⟨hnew, List.Pairwise.of_map _ hne (r.erase k).nodup_keys⟩)).2 fun ⟨k', v'⟩ => ?_
  rw [mem_cons, mem_entries_iff, mem_entries_iff, get?_set, get?_erase, Prod.mk.injEq]
  grind

/-- The entry of a key and the others. -/
theorem perm_erase (h : r.get? k = some v) : r.entries.Perm ((k, v) :: (r.erase k).entries) := by
  have hset := r.perm_set k v
  rwa [set_eq_self h] at hset

lemma mem_keys_ofList {l : List (K × V)} : k ∈ (ofList l).keys ↔ k ∈ l.map Prod.fst := by
  rw [ofList, mem_keys_foldl_set, keys_empty]
  exact or_iff_left not_mem_nil

lemma mem_of_get?_ofList {l : List (K × V)} (h : (ofList l).get? k = some v) : (k, v) ∈ l := by
  -- over any record, an entry is a new one or an old one
  have hrec : ∀ (l : List (K × V)) (r : Record K V),
      (l.foldl (fun r e => r.set e.1 e.2) r).get? k = some v → (k, v) ∈ l ∨ r.get? k = some v := by
    intro l
    induction l with
    | nil => exact fun r h => .inr h
    | cons e l ih =>
      intro r h
      obtain hmem | hget := ih _ h
      · exact .inl (.tail _ hmem)
      · rw [get?_set] at hget
        split_ifs at hget with hk
        · cases hget
          subst hk
          exact .inl (.head _)
        · exact .inr hget
  obtain hmem | hget := hrec l ∅ h
  · exact hmem
  · cases hget

/-- A list without a repeated key is the list of entries of its record. -/
theorem entries_ofList {l : List (K × V)} (h : (l.map Prod.fst).Nodup) : (ofList l).entries = l := by
  have hrec : ∀ (l : List (K × V)) (r : Record K V), (r.keys ++ l.map Prod.fst).Nodup →
      (l.foldl (fun r e => r.set e.1 e.2) r).entries = r.entries ++ l := by
    intro l
    induction l with
    | nil => exact fun r _ => (append_nil _).symm
    | cons e l ih =>
      intro r hnodup
      have hnew : e.1 ∉ r.keys := fun hmem =>
        (nodup_append.1 hnodup).2.2 _ hmem _ (.head _) rfl
      have hset : (r.set e.1 e.2).keys = r.keys ++ [e.1] := by
        rw [keys, entries_set_of_notMem hnew, map_append]
        rfl
      rw [foldl_cons, ih (r.set e.1 e.2) ?_, entries_set_of_notMem hnew, append_assoc]
      · rfl
      · rw [hset, append_assoc]
        exact hnodup
  exact hrec l ∅ h

/-- The record of a list with its values mapped. -/
theorem get?_ofList_map {W : Type*} (g : V → W) (l : List (K × V)) (k : K) :
    (ofList (l.map fun e => (e.1, g e.2))).get? k = ((ofList l).get? k).map g := by
  have hrec : ∀ (l : List (K × V)) (r : Record K V) (s : Record K W),
      (∀ k, s.get? k = (r.get? k).map g) →
      ((l.map fun e => (e.1, g e.2)).foldl (fun s e => s.set e.1 e.2) s).get? k =
        ((l.foldl (fun r e => r.set e.1 e.2) r).get? k).map g := by
    intro l
    induction l with
    | nil => exact fun r s h => h k
    | cons e _ ih =>
      intro r s h
      refine ih _ _ fun k => ?_
      rw [get?_set, get?_set, h k]
      split_ifs
      all_goals rfl
  exact hrec l ∅ ∅ fun _ => rfl

omit [DecidableEq K] in
/-- Change the values, with a look at their keys. -/
def mapValues {W : Type*} (r : Record K V) (f : K → V → W) : Record K W where
  entries := r.entries.map fun e => (e.1, f e.1 e.2)
  nodup_keys := by
    rw [List.map_map]
    exact r.nodup_keys

lemma get?_mapValues {W : Type*} (r : Record K V) (f : K → V → W) (k : K) :
    (r.mapValues f).get? k = (r.get? k).map (f k) := by
  obtain ⟨l, hl⟩ := r
  show lookup k (l.map fun e => (e.1, f e.1 e.2)) = (lookup k l).map (f k)
  clear hl
  induction l with
  | nil => rfl
  | cons e l ih =>
    rw [map_cons, lookup, lookup, ih]
    split_ifs with hk
    · rw [← hk]
      rfl
    · rfl

/-- Records with the same keys in one order and the same values are one. -/
theorem eq_of_get? (hkeys : r.keys = s.keys) (hget : ∀ k ∈ r.keys, r.get? k = s.get? k) : r = s := by
  obtain ⟨l, hl⟩ := r
  obtain ⟨l', hl'⟩ := s
  replace hkeys : l.map Prod.fst = l'.map Prod.fst := hkeys
  replace hget : ∀ k ∈ l.map Prod.fst, lookup k l = lookup k l' := hget
  have hentries : l = l' := by
    clear hl'
    induction l generalizing l' with
    | nil => exact (map_eq_nil_iff.1 hkeys.symm).symm
    | cons e l ih =>
      obtain _ | ⟨e', l'⟩ := l'
      · cases hkeys
      · obtain ⟨hne, hl⟩ := nodup_cons.1 hl
        obtain ⟨hfst, hkeys⟩ := List.cons.inj hkeys
        have hhead := hget e.1 (.head _)
        rw [lookup, if_pos rfl, lookup, if_pos hfst.symm] at hhead
        rw [ih hl l' hkeys fun k hk => ?_, Prod.ext hfst (Option.some.inj hhead)]
        -- the key of the first entry is not among the others
        have hk' : e.1 ≠ k := fun heq => hne (heq ▸ hk)
        have htail := hget k (.tail _ hk)
        rwa [lookup, if_neg hk', lookup, if_neg (hfst ▸ hk')] at htail
  subst hentries
  rfl

/-- A record is empty when it has no keys. -/
theorem keys_eq_nil_iff : r.keys = [] ↔ ∀ k, r.get? k = none := by
  rw [eq_nil_iff_forall_not_mem]
  exact forall_congr' fun k => notMem_keys_iff

omit [DecidableEq K] in
/-- Same number of keys and one contained in the other: the same keys. -/
theorem keys_subset_of_length_eq (hlen : r.keys.length = s.keys.length) (hsub : r.keys ⊆ s.keys) : s.keys ⊆ r.keys :=
  ((subperm_of_subset r.nodup hsub).perm_of_length_le (Nat.le_of_eq hlen.symm)).symm.subset

end Record
