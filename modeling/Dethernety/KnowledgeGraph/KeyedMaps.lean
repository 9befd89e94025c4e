import Dethernety.KnowledgeGraph.CloudClient
import Mathlib.Data.List.Nodup

/-!
# Keys, chunks and keyed maps

What the helpers of a query do: `distinct` keeps the first occurrence of each key (`isFirstRequestOrder_distinct`),
the chunks of `chunked` are the keys again and none is empty or too long, a map that is seeded and merged with answers
for disjoint sets of keys has their rows (`Filled.merge`), and a cache key tells callers and parameters apart
(`kgKey_inj`).
-/

open List Record

namespace KnowledgeGraph

/-! ## Distinct keys -/

/-- The distinct members of `l`, in the order of their first occurrences. -/
structure IsFirstRequestOrder (keys l : List String) : Prop where
  nodup : keys.Nodup
  mem_iff : ∀ key, key ∈ keys ↔ key ∈ l
  ordered : keys.Pairwise fun a b => l.idxOf a < l.idxOf b

lemma mem_distinct {l : List String} {key : String} : key ∈ distinct l ↔ key ∈ l := by
  induction l with
  | nil => exact Iff.rfl
  | cons a l ih =>
    rw [distinct, mem_cons, mem_cons, mem_filter, ih, decide_eq_true_eq]
    constructor
    · rintro (hkey | ⟨hkey, -⟩)
      · exact .inl hkey
      · exact .inr hkey
    · intro hkey
      by_cases ha : key = a
      · exact .inl ha
      · exact .inr ⟨hkey.resolve_left ha, ha⟩

lemma nodup_distinct (l : List String) : (distinct l).Nodup := by
  induction l with
  | nil => exact nodup_nil
  | cons a l ih =>
    rw [distinct, nodup_cons]
    refine ⟨fun hmem => ?_, ih.filter _⟩
    exact of_decide_eq_true (mem_filter.1 hmem).2 rfl

lemma ordered_distinct (l : List String) : (distinct l).Pairwise fun a b => l.idxOf a < l.idxOf b := by
  induction l with
  | nil => exact List.Pairwise.nil
  | cons key l ih =>
    have hidx : ∀ a, a ≠ key → (key :: l).idxOf a = l.idxOf a + 1 := fun a ha => idxOf_cons_ne l ha.symm
    rw [distinct, pairwise_cons]
    refine ⟨fun b hb => ?_, (ih.filter _).imp_of_mem fun {a b} ha hb hab => ?_⟩
    · rw [idxOf_cons_self, hidx b (of_decide_eq_true (mem_filter.1 hb).2)]
      omega
    · rw [hidx a (of_decide_eq_true (mem_filter.1 ha).2), hidx b (of_decide_eq_true (mem_filter.1 hb).2)]
      omega

lemma isFirstRequestOrder_distinct (l : List String) : IsFirstRequestOrder (distinct l) l :=
  ⟨nodup_distinct l, fun _ => mem_distinct, ordered_distinct l⟩

/-! ## Chunks -/

lemma maxItems_pos (published : Option ℕ) : 0 < maxItems published := by
  unfold maxItems publishedMaxItems
  cases published with
  | none => exact Nat.succ_pos _
  | some bound =>
    dsimp only
    split_ifs with h
    · exact h
    · exact Nat.succ_pos _

lemma flatten_slices {size : ℕ} (hsize : 0 < size) {n : ℕ} {keys : List String} (hn : keys.length ≤ n) :
    (slices size n keys).flatten = keys := by
  induction n generalizing keys with
  | zero => rw [length_eq_zero_iff.1 (Nat.le_zero.1 hn), slices, flatten_nil]
  | succ n ih =>
    cases keys with
    | nil => rfl
    | cons =>
      rw [slices, flatten_cons, ih, take_append_drop]
      rw [length_drop]
      omega

lemma of_mem_slices {size : ℕ} (hsize : 0 < size) {n : ℕ} {keys chunk : List String}
    (h : chunk ∈ slices size n keys) : chunk ≠ [] ∧ chunk.length ≤ size := by
  induction n generalizing keys with
  | zero => exact absurd h not_mem_nil
  | succ n ih =>
    cases keys with
    | nil => exact absurd h not_mem_nil
    | cons =>
      rw [slices, mem_cons] at h
      rcases h with rfl | h
      · refine ⟨fun hnil => ?_, length_take_le _ _⟩
        rw [take_eq_nil_iff] at hnil
        rcases hnil with hzero | hnil
        · omega
        · cases hnil
      · exact ih h

lemma flatten_chunked {size : ℕ} (hsize : 0 < size) (keys : List String) : (chunked keys size).flatten = keys := by
  unfold chunked
  split_ifs
  · exact flatten_singleton
  · exact flatten_slices hsize le_rfl

lemma of_mem_chunked {size : ℕ} (hsize : 0 < size) {keys chunk : List String} (hkeys : keys ≠ [])
    (h : chunk ∈ chunked keys size) : chunk ≠ [] ∧ chunk.length ≤ size := by
  unfold chunked at h
  split_ifs at h with hlength
  · rw [mem_singleton.1 h]
    exact ⟨hkeys, hlength⟩
  · exact of_mem_slices hsize h

/-- There are no more chunks than keys. -/
theorem length_le_of_flatten {chunks : List (List String)} (h : ∀ chunk ∈ chunks, chunk ≠ []) :
    chunks.length ≤ chunks.flatten.length := by
  induction chunks with
  | nil => exact le_rfl
  | cons _ _ ih =>
    obtain ⟨hchunk, hchunks⟩ := forall_mem_cons.1 h
    have hpos := length_pos_of_ne_nil hchunk
    have hrest := ih hchunks
    rw [flatten_cons, length_append, length_cons]
    omega

/-! ## Keyed maps -/

section

variable {Match Row : Type} {expected : String → Option (List Row)} {keys done : List String}
  {out : Record String (List Row)}

/-- The map has the keys in their order, those of `done` with the rows that are expected and the others with none. -/
structure Filled (expected : String → Option (List Row)) (keys done : List String)
    (out : Record String (List Row)) : Prop where
  keys_eq : out.keys = keys
  get?_eq : ∀ key ∈ keys, out.get? key = if key ∈ done then expected key else some []

lemma entries_seededMap {T : Type} (hkeys : keys.Nodup) :
    (seededMap keys : Record String (List T)).entries = keys.map fun key => (key, []) := by
  have hlist : (seededMap keys : Record String (List T)) = .ofList (keys.map fun key => (key, [])) := by
    unfold seededMap Record.ofList
    rw [foldl_map]
  rw [hlist, entries_ofList]
  rw [map_map, show Prod.fst ∘ (fun key : String => (key, ([] : List T))) = id from rfl, map_id]
  exact hkeys

lemma Filled.seeded (hkeys : keys.Nodup) : Filled expected keys [] (seededMap keys) where
  keys_eq := by
    rw [Record.keys, entries_seededMap hkeys, map_map]
    exact map_id _
  get?_eq key hkey := by
    rw [if_neg not_mem_nil, ← mem_entries_iff, entries_seededMap hkeys]
    exact mem_map_of_mem hkey

lemma Filled.congr {done' : List String} (h : Filled expected keys done out) (hdone : ∀ key, key ∈ done ↔ key ∈ done') :
    Filled expected keys done' out where
  keys_eq := h.keys_eq
  get?_eq key hkey := by
    rw [h.get?_eq key hkey]
    exact if_congr (hdone key) rfl rfl

lemma Filled.set {key : String} {rows : List Row} (h : Filled expected keys done out) (hkey : key ∈ keys)
    (hrows : expected key = some rows) : Filled expected keys (done ++ [key]) (out.set key rows) where
  keys_eq := by
    rw [keys_set_of_mem (h.keys_eq ▸ hkey), h.keys_eq]
  get?_eq other hother := by
    rw [get?_set]
    by_cases hne : key = other
    · rw [if_pos hne, if_pos (mem_append_right _ (mem_singleton.2 hne.symm)), ← hne, hrows]
    · rw [if_neg hne, h.get?_eq other hother]
      refine if_congr ?_ rfl rfl
      rw [mem_append, mem_singleton]
      exact (or_iff_left (Ne.symm hne)).symm

/-- The rows of an answer that has each of its keys once, none of them before. -/
theorem Filled.merge {toRow : Match → Option Row} {results : List (String × List Match)}
    {out' : Record String (List Row)} (h : Filled expected keys done out) (hmerge : merge toRow out results = some out')
    (hnodup : (done ++ results.map Prod.fst).Nodup)
    (hresults : ∀ r ∈ results, r.1 ∈ keys ∧ r.2.mapM toRow = expected r.1) :
    Filled expected keys (done ++ results.map Prod.fst) out' := by
  induction results generalizing done out with
  | nil =>
    rw [KnowledgeGraph.merge, Option.some.injEq] at hmerge
    rw [← hmerge, map_nil, append_nil]
    exact h
  | cons r results ih =>
    obtain ⟨key, found⟩ := r
    obtain ⟨⟨hkey, hfound⟩, hrest⟩ := forall_mem_cons.1 hresults
    -- the key was not answered before, so its rows are these alone
    have hnew : key ∉ done := fun hmem =>
      (nodup_append.1 hnodup).2.2 key hmem key (.head _) rfl
    rw [KnowledgeGraph.merge, h.get?_eq key hkey, if_neg hnew] at hmerge
    cases hrows : found.mapM toRow with
    | none =>
      rw [hrows] at hmerge
      cases hmerge
    | some rows =>
      rw [hrows] at hmerge hfound
      have hsplit : done ++ ((key, found) :: results).map Prod.fst = (done ++ [key]) ++ results.map Prod.fst := by
        rw [map_cons, append_assoc]
        rfl
      rw [hsplit] at hnodup ⊢
      exact ih (h.set hkey hfound.symm) hmerge hnodup hrest

/-- A merge fails on the rows of a key. -/
theorem exists_of_merge_none {toRow : Match → Option Row} {results : List (String × List Match)}
    (hmerge : merge toRow out results = none) : ∃ r ∈ results, r.2.mapM toRow = none := by
  induction results generalizing out with
  | nil => cases hmerge
  | cons r results ih =>
    obtain ⟨key, found⟩ := r
    rw [KnowledgeGraph.merge] at hmerge
    split at hmerge
    · obtain ⟨r, hmem, hr⟩ := ih hmerge
      exact ⟨r, .tail _ hmem, hr⟩
    · split at hmerge
      · rename_i hrows
        exact ⟨(key, found), .head _, hrows⟩
      · obtain ⟨r, hmem, hr⟩ := ih hmerge
        exact ⟨r, .tail _ hmem, hr⟩

lemma Filled.entries (h : Filled expected keys keys out) : ∀ key rows, (key, rows) ∈ out.entries →
    expected key = some rows := by
  intro key rows hmem
  have hget := mem_entries_iff.1 hmem
  have hkey : key ∈ keys := h.keys_eq ▸ mem_keys_of_get? hget
  rwa [h.get?_eq key hkey, if_pos hkey] at hget

end

/-! ## Cache keys -/

lemma QueryName.text_inj {q q' : QueryName} (h : q.text = q'.text) : q = q' := by
  cases q <;> cases q' <;> first | rfl | exact absurd h (by decide)

lemma RuleKind.text_inj {k k' : RuleKind} (h : k.text = k'.text) : k = k' := by
  cases k <;> cases k' <;> first | rfl | exact absurd h (by decide)

lemma stableStringify_inj {p p' : Parameters} (hquery : p.query = p'.query)
    (h : stableStringify p = stableStringify p') : p = p' := by
  obtain ⟨query, keys, kind⟩ := p
  obtain ⟨query', keys', kind'⟩ := p'
  obtain rfl : query = query' := hquery
  obtain ⟨-, hrest⟩ := JsonText.quote_append_inj (List.cons.inj h).2
  obtain ⟨rfl, htail⟩ := JsonText.quoteList_append_inj (List.cons.inj hrest).2
  cases kind with
  | none =>
    cases kind' with
    | none => rfl
    | some kind' => exact absurd (List.cons.inj htail).1 (by decide)
  | some kind =>
    cases kind' with
    | none => exact absurd (List.cons.inj htail).1 (by decide)
    | some kind' =>
      obtain ⟨-, hkind⟩ := JsonText.quote_append_inj (List.cons.inj htail).2
      obtain ⟨htext, -⟩ := JsonText.quote_append_inj (List.cons.inj hkind).2
      rw [RuleKind.text_inj htext]

lemma kgKey_inj {Match Row : Type} {settings : Settings Match Row} {token token' : String} {p p' : Parameters}
    (hcaller : Function.Injective settings.callerHash) (hsha : Function.Injective settings.sha256)
    (h : kgKey settings token p = kgKey settings token' p') : token = token' ∧ p = p' := by
  obtain ⟨htoken, hrest⟩ := Prod.mk.inj h
  obtain ⟨hquery, hrest⟩ := Prod.mk.inj hrest
  obtain ⟨-, htext⟩ := Prod.mk.inj hrest
  exact ⟨hcaller htoken, stableStringify_inj (QueryName.text_inj hquery) (hsha htext)⟩

end KnowledgeGraph
