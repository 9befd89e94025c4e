import Mathlib.Data.List.Pairwise
import Dethernety.Foundations.PartialFold
import Dethernety.ClassIdentity.Redirects

/-!
# The survivors of a migration

The buckets are related to the nodes of the graph, the groups of a run to the buckets of the graph that the
run started from. A run merges true duplicates only, for all failures of transactions, exactly if the keys of
the buckets tell the classes apart; what it says of survivors, links and unknown edges holds for all graphs.
-/

open List Record

namespace ClassIdentity

variable {V : Type} {g g' : Graph V} {label : ClassLabel} {k : String} {c d m x : ℕ} {t : String}

/-- The module owns the class, actively or not. -/
def Owns (g : Graph V) (m c : ℕ) : Prop :=
  (g.nodes.get? m).map Node.kind = some .module ∧ ∃ t ∈ MODULE_EDGE_TYPES, g.HasEdge m t c

/-- A module has the class. -/
def ActivelyBound (g : Graph V) (c : ℕ) : Prop :=
  ∃ m, (g.nodes.get? m).map Node.kind = some .module ∧ g.HasEdge m "HAS_CLASS" c

/-- The same name, and the same single owning module or no owner at all. -/
def TrueDuplicates (g : Graph V) (c d : ℕ) : Prop :=
  (g.nodes.get? c).map Node.name = (g.nodes.get? d).map Node.name ∧
    ((∃ m, (∀ m', Owns g m' c ↔ m' = m) ∧ ∀ m', Owns g m' d ↔ m' = m) ∨
      ((∀ m, ¬ Owns g m c) ∧ ∀ m, ¬ Owns g m d))

/-- A class node of the label that goes into the bucket of the key. -/
def InBucket (g : Graph V) (label : ClassLabel) (k : String) (x : ℕ) : Prop :=
  ∃ name, g.nodes.get? x = some ⟨.classNode label, name⟩ ∧ (Graph.owners g x).length ≤ 1 ∧
    bucketKey (Graph.owners g x) name = k

/-- Class nodes of one label in one bucket are true duplicates. -/
def KeysFaithful (g : Graph V) : Prop :=
  ∀ label k c d, c ≠ d → InBucket g label k c → InBucket g label k d → TrueDuplicates g c d

lemma TrueDuplicates.trans_symm (hc : TrueDuplicates g c x) (hd : TrueDuplicates g d x) : TrueDuplicates g c d := by
  refine ⟨hc.1.trans hd.1.symm, ?_⟩
  rcases hc.2 with ⟨m, hcm, hxm⟩ | ⟨hcnone, hxnone⟩
  · rcases hd.2 with ⟨m', hdm, hxm'⟩ | ⟨-, hxnone⟩
    · obtain rfl : m = m' := (hxm' m).1 ((hxm m).2 rfl)
      exact .inl ⟨m, hcm, hdm⟩
    · exact absurd ((hxm m).2 rfl) (hxnone m)
  · rcases hd.2 with ⟨m', -, hxm'⟩ | ⟨hdnone, -⟩
    · exact absurd ((hxm' m').2 rfl) (hxnone m')
    · exact .inr ⟨hcnone, hdnone⟩

lemma TrueDuplicates.symm (h : TrueDuplicates g c d) : TrueDuplicates g d c :=
  ⟨h.1.symm, h.2.imp (fun ⟨m, hc, hd⟩ => ⟨m, hd, hc⟩) And.symm⟩

section

variable {f : ℕ → ℕ} {gone : List ℕ}

lemma mem_bindings {name : Option String} : (name, t) ∈ Graph.bindings g c ↔
    ∃ m, g.nodes.get? m = some ⟨.module, name⟩ ∧ t ∈ MODULE_EDGE_TYPES ∧ g.HasEdge m t c := by
  rw [Graph.bindings, mem_filterMap]
  constructor
  · rintro ⟨e, he, hbinding⟩
    split at hbinding
    · rename_i name' hnode
      split_ifs at hbinding with hends
      cases hbinding
      exact ⟨e.2.source, hnode, hends.2, e, he, rfl, rfl, hends.1⟩
    · cases hbinding
  · rintro ⟨m, hnode, ht, e, he, rfl, rfl, rfl⟩
    refine ⟨e, he, ?_⟩
    rw [hnode]
    exact if_pos ⟨rfl, ht⟩

lemma activelyBound_iff : Graph.activelyBound g c = true ↔ ActivelyBound g c := by
  rw [Graph.activelyBound, any_eq_true]
  constructor
  · rintro ⟨⟨name, t⟩, hmem, ht⟩
    obtain ⟨m, hnode, -, hedge⟩ := mem_bindings.1 hmem
    obtain rfl : t = "HAS_CLASS" := of_decide_eq_true ht
    exact ⟨m, by rw [hnode]; rfl, hedge⟩
  · rintro ⟨m, hkind, hedge⟩
    obtain ⟨⟨kind, name⟩, hnode, rfl⟩ := Option.map_eq_some_iff.1 hkind
    exact ⟨(name, "HAS_CLASS"), mem_bindings.2 ⟨m, hnode, by decide, hedge⟩, decide_eq_true rfl⟩

variable (h : Moves g g' f gone)
include h

lemma Moves.module_node {name : Option String}
    (hgone : ∀ x ∈ gone, ∃ label, Graph.IsClass g label x) :
    g'.nodes.get? m = some ⟨.module, name⟩ ↔ g.nodes.get? m = some ⟨.module, name⟩ := by
  refine ⟨h.node, fun hnode => ?_⟩
  rw [h.nodes_of_notMem fun hmem => ?_, hnode]
  obtain ⟨label, hclass⟩ := hgone m hmem
  rw [Graph.IsClass, hnode] at hclass
  cases hclass

lemma Moves.mem_bindings (hgone : ∀ x ∈ gone, ∃ label, Graph.IsClass g label x)
    (hc : c ∉ gone) {b : Option String × String} : b ∈ Graph.bindings g' c ↔ b ∈ Graph.bindings g c := by
  obtain ⟨name, t⟩ := b
  rw [ClassIdentity.mem_bindings, ClassIdentity.mem_bindings]
  refine exists_congr fun m => ?_
  rw [h.module_node hgone]
  refine and_congr_right fun hnode => and_congr_right fun ht => ?_
  refine h.bindings m t ht c (fun hmem => ?_) hc
  obtain ⟨label, hclass⟩ := hgone m hmem
  rw [Graph.IsClass, hnode] at hclass
  cases hclass

lemma Moves.activelyBound (hgone : ∀ x ∈ gone, ∃ label, Graph.IsClass g label x)
    (hc : c ∉ gone) : Graph.activelyBound g' c = Graph.activelyBound g c := by
  rw [Bool.eq_iff_iff, Graph.activelyBound, Graph.activelyBound, any_eq_true, any_eq_true]
  exact exists_congr fun b => and_congr_left fun _ => h.mem_bindings hgone hc

lemma Moves.owners_perm (hgone : ∀ x ∈ gone, ∃ label, Graph.IsClass g label x)
    (hc : c ∉ gone) : (Graph.owners g' c).Perm (Graph.owners g c) := by
  refine (perm_ext_iff_of_nodup (nodup_dedup _) (nodup_dedup _)).2 fun o => ?_
  rw [mem_dedup, mem_dedup, mem_filterMap, mem_filterMap]
  exact exists_congr fun b => and_congr_left fun _ => h.mem_bindings hgone hc

lemma Moves.inBucket (hgone : ∀ x ∈ gone, ∃ label, Graph.IsClass g label x)
    (hx : x ∉ gone) : InBucket g' label k x ↔ InBucket g label k x := by
  have hperm := h.owners_perm hgone hx
  rw [InBucket, InBucket, h.nodes_of_notMem hx, hperm.length_eq]
  refine exists_congr fun name => and_congr_right fun _ => and_congr_right fun hlength => ?_
  have howners : Graph.owners g' x = Graph.owners g x := by
    cases hlist : Graph.owners g x with
    | nil =>
      rw [hlist] at hperm
      exact hperm.eq_nil
    | cons o rest =>
      rw [hlist, length_cons] at hlength
      have hrest : rest = [] := length_eq_zero_iff.1 (by omega)
      rw [hlist, hrest] at hperm
      rw [hrest]
      exact hperm.eq_singleton
  rw [howners]

end

section

variable {rows : List ClassNodeRow} {r : ClassNodeRow} {group group' : DuplicateGroup}

/-- The rows that a bucket may hold. -/
def eligible (rows : List ClassNodeRow) (k : String) : List ClassNodeRow :=
  (rows.filter fun row => row.owners.length ≤ 1).filter fun row => row.key = k

lemma get?_buckets (rows : List ClassNodeRow) (k : String) : (buckets rows).get? k =
    if eligible rows k = [] then none else some (eligible rows k) := by
  refine foldl_induction (P := fun (done : List ClassNodeRow)
      (buckets : Record String (List ClassNodeRow)) => buckets.get? k =
        if done.filter (fun row => row.key = k) = [] then none
        else some (done.filter fun row => row.key = k)) rfl ?_
  intro done row rest buckets _ ih
  rw [get?_set, filter_append]
  by_cases hk : row.key = k
  · have hlast : [row].filter (fun row => row.key = k) = [row] :=
      filter_cons_of_pos (decide_eq_true hk)
    rw [if_pos hk, hk, ih, hlast, if_neg (append_ne_nil_of_right_ne_nil _ (cons_ne_nil row []))]
    split_ifs with hempty
    · rw [hempty]
      rfl
    · rfl
  · rw [if_neg hk, ih, filter_cons_of_neg (by simpa using hk), filter_nil, append_nil]

lemma mem_rows : r ∈ Graph.rows g label ↔ ∃ x name, g.nodes.get? x = some ⟨.classNode label, name⟩ ∧
    r = Graph.classNodeRow g x name := by
  rw [Graph.rows, mem_filterMap]
  constructor
  · rintro ⟨⟨x, kind, name⟩, hmem, hrow⟩
    split_ifs at hrow with hkind
    cases hrow
    obtain rfl : kind = .classNode label := hkind
    exact ⟨x, name, mem_entries_iff.1 hmem, rfl⟩
  · rintro ⟨x, name, hnode, rfl⟩
    exact ⟨(x, ⟨.classNode label, name⟩), mem_entries_iff.2 hnode, if_pos rfl⟩

lemma pairwise_rows : (Graph.rows g label).Pairwise (·.internalId ≠ ·.internalId) := by
  rw [Graph.rows, pairwise_filterMap]
  apply (pairwise_map.1 g.nodes.nodup_keys).imp
  intro e e' hne r hr r' hr'
  split_ifs at hr hr'
  rw [← Option.some.inj hr, ← Option.some.inj hr']
  exact hne

lemma mem_eligible : r ∈ eligible (Graph.rows g label) k ↔
    r ∈ Graph.rows g label ∧ r.owners.length ≤ 1 ∧ r.key = k := by
  rw [eligible, mem_filter, mem_filter, decide_eq_true_eq, decide_eq_true_eq, and_assoc]

lemma inBucket_iff : InBucket g label k x ↔ ∃ r ∈ eligible (Graph.rows g label) k, r.internalId = x := by
  constructor
  · rintro ⟨name, hnode, hlength, hkey⟩
    exact ⟨Graph.classNodeRow g x name, mem_eligible.2 ⟨mem_rows.2 ⟨x, name, hnode, rfl⟩, hlength, hkey⟩, rfl⟩
  · rintro ⟨r, hr, rfl⟩
    obtain ⟨hrow, hlength, hkey⟩ := mem_eligible.1 hr
    obtain ⟨x, name, hnode, rfl⟩ := mem_rows.1 hrow
    exact ⟨name, hnode, hlength, hkey⟩

/-- A group of the bucket of a key: the survivor and the other nodes. -/
structure GroupOf (g : Graph V) (label : ClassLabel) (k : String) (group : DuplicateGroup) : Prop where
  canonical : InBucket g label k group.canonicalInternalId
  nonCanonical : ∀ x, x ∈ group.nonCanonicalInternalIds ↔
    x ≠ group.canonicalInternalId ∧ InBucket g label k x
  nodup : group.nonCanonicalInternalIds.Nodup
  bound : ∀ x ∈ group.nonCanonicalInternalIds, Graph.activelyBound g x = true →
    Graph.activelyBound g group.canonicalInternalId = true

/-- The survivor is one of the rows, and is bound if one of them is. -/
lemma duplicateGroup_eq_some (h : duplicateGroup rows = some group) : ∃ canonical ∈ rows,
    group.canonicalInternalId = canonical.internalId ∧
      group.nonCanonicalInternalIds = ((rows.insertionSort (·.internalId ≤ ·.internalId)).filter
        (· ≠ canonical)).map (·.internalId) ∧ ∀ r ∈ rows, r.activelyBound = true → canonical.activelyBound = true := by
  rw [duplicateGroup] at h
  split_ifs at h
  obtain ⟨canonical, hcanonical, rfl⟩ := Option.map_eq_some_iff.1 h
  have hsorted : ∀ r, r ∈ rows.insertionSort (·.internalId ≤ ·.internalId) ↔ r ∈ rows := fun r =>
    mem_insertionSort _
  cases hfind : (rows.insertionSort (·.internalId ≤ ·.internalId)).find? (·.activelyBound) with
  | some bound =>
    rw [hfind] at hcanonical
    obtain rfl := Option.some.inj hcanonical
    exact ⟨bound, (hsorted bound).1 (mem_of_find?_eq_some hfind), rfl, rfl, fun _ _ _ =>
      find?_some hfind⟩
  | none =>
    rw [hfind, Option.none_or] at hcanonical
    refine ⟨canonical, (hsorted canonical).1 (mem_of_mem_head? hcanonical), rfl, rfl,
      fun r hr hbound => ?_⟩
    exact absurd hbound (find?_eq_none.1 hfind r ((hsorted r).2 hr))

lemma groupOf_duplicateGroup (h : duplicateGroup (eligible (Graph.rows g label) k) = some group) :
    GroupOf g label k group := by
  obtain ⟨canonical, hmem, hcanon, hncs, hbound⟩ := duplicateGroup_eq_some h
  have hpair : (eligible (Graph.rows g label) k).Pairwise (·.internalId ≠ ·.internalId) :=
    (pairwise_rows.filter _).filter _
  have hinj : ∀ r ∈ eligible (Graph.rows g label) k, ∀ r' ∈ eligible (Graph.rows g label) k,
      r.internalId = r'.internalId → r = r' := by
    intro r hr r' hr' hid
    have hsymm : Std.Symm (fun r r' : ClassNodeRow => r.internalId ≠ r'.internalId) := ⟨fun _ _ => Ne.symm⟩
    by_contra hne
    exact hpair.forall hr hr' hne hid
  have hbindings : ∀ r ∈ eligible (Graph.rows g label) k,
      Graph.activelyBound g r.internalId = r.activelyBound := by
    intro r hr
    obtain ⟨x, name, -, rfl⟩ := mem_rows.1 (mem_eligible.1 hr).1
    rfl
  have hmemncs : ∀ x, x ∈ group.nonCanonicalInternalIds ↔
      ∃ r ∈ eligible (Graph.rows g label) k, r ≠ canonical ∧ r.internalId = x := by
    intro x
    rw [hncs]
    simp only [mem_map, mem_filter, mem_insertionSort, decide_eq_true_eq, and_assoc]
  refine ⟨?_, fun x => ?_, ?_, fun x hx hactive => ?_⟩
  · rw [hcanon]
    exact inBucket_iff.2 ⟨canonical, hmem, rfl⟩
  · rw [hmemncs, inBucket_iff, hcanon]
    constructor
    · rintro ⟨r, hr, hne, rfl⟩
      exact ⟨fun hid => hne (hinj r hr canonical hmem hid), r, hr, rfl⟩
    · rintro ⟨hne, r, hr, rfl⟩
      exact ⟨r, hr, fun heq => hne (by rw [heq]), rfl⟩
  · rw [hncs]
    apply (filter_sublist.map _).nodup
    rw [((perm_insertionSort _ _).map _).nodup_iff]
    exact pairwise_map.2 hpair
  · obtain ⟨r, hr, -, rfl⟩ := (hmemncs x).1 hx
    rw [hbindings r hr] at hactive
    rw [hcanon, hbindings canonical hmem]
    exact hbound r hr hactive

lemma groupOf_of_mem (h : group ∈ findDuplicateGroups g label) : ∃ k, GroupOf g label k group := by
  obtain ⟨⟨k, rows⟩, hmem, hgroup⟩ := mem_filterMap.1 h
  have hrows := mem_entries_iff.1 hmem
  rw [get?_buckets] at hrows
  split_ifs at hrows
  cases hrows
  exact ⟨k, groupOf_duplicateGroup hgroup⟩

lemma exists_group (hne : c ≠ d) (hc : InBucket g label k c) (hd : InBucket g label k d) :
    ∃ group ∈ findDuplicateGroups g label, GroupOf g label k group := by
  obtain ⟨r, hr, rfl⟩ := inBucket_iff.1 hc
  obtain ⟨r', hr', rfl⟩ := inBucket_iff.1 hd
  have hlength : 2 ≤ (eligible (Graph.rows g label) k).length := by
    match hlist : eligible (Graph.rows g label) k with
    | [] =>
      rw [hlist] at hr
      cases hr
    | [a] =>
      rw [hlist, mem_singleton] at hr hr'
      exact absurd (by rw [hr, hr']) hne
    | _ :: _ :: rest => exact Nat.le_add_left 2 rest.length
  have hsome : (duplicateGroup (eligible (Graph.rows g label) k)).isSome := by
    rw [duplicateGroup, if_neg (Nat.not_lt.2 hlength), Option.isSome_map, Option.isSome_or,
      Bool.or_eq_true]
    right
    rw [isSome_head?]
    exact ne_nil_of_mem (a := r) ((mem_insertionSort _).2 hr)
  obtain ⟨group, hgroup⟩ := Option.isSome_iff_exists.1 hsome
  refine ⟨group, mem_filterMap.2 ⟨(k, eligible (Graph.rows g label) k), ?_, hgroup⟩,
    groupOf_duplicateGroup hgroup⟩
  rw [mem_entries_iff, get?_buckets, if_neg (ne_nil_of_mem hr)]

end

section

variable {groups : List DuplicateGroup} {group group' : DuplicateGroup}
  {fails : ClassLabel → DuplicateGroup → Bool} {run : Run V}

/-- The survivor and the other nodes. -/
def DuplicateGroup.members (group : DuplicateGroup) : List ℕ :=
  group.canonicalInternalId :: group.nonCanonicalInternalIds

/-- The groups have no node in common. -/
def Apart (groups : List DuplicateGroup) : Prop :=
  groups.Pairwise fun group group' => ∀ x ∈ group.members, x ∉ group'.members

/-- Where the groups send a node, one after the other. -/
def survivor : List DuplicateGroup → ℕ → ℕ
  | [], x => x
  | group :: groups, x => survivor groups (group.send x)

/-- The nodes that the groups may delete. -/
def goneOf (groups : List DuplicateGroup) : List ℕ :=
  groups.flatMap (·.nonCanonicalInternalIds)

lemma survivor_append (groups groups' : List DuplicateGroup) (x : ℕ) :
    survivor (groups ++ groups') x = survivor groups' (survivor groups x) := by
  induction groups generalizing x with
  | nil => rfl
  | cons group _ ih => exact ih (group.send x)

lemma survivor_of_notMem (h : x ∉ goneOf groups) : survivor groups x = x := by
  induction groups with
  | nil => rfl
  | cons _ _ ih =>
    rw [goneOf, flatMap_cons, mem_append, not_or] at h
    rw [survivor, DuplicateGroup.send, if_neg h.1]
    exact ih h.2

lemma survivor_of_mem (hapart : Apart groups) (hgroup : group ∈ groups)
    (hx : x ∈ group.nonCanonicalInternalIds) : survivor groups x = group.canonicalInternalId := by
  induction groups with
  | nil => cases hgroup
  | cons _ _ ih =>
    obtain ⟨hfirst, hapart⟩ := pairwise_cons.1 hapart
    rw [survivor, DuplicateGroup.send]
    rcases mem_cons.1 hgroup with rfl | hgroup
    · rw [if_pos hx]
      refine survivor_of_notMem fun hgone => ?_
      obtain ⟨other, hother, hmem⟩ := mem_flatMap.1 hgone
      exact hfirst other hother _ mem_cons_self (mem_cons_of_mem _ hmem)
    · rw [if_neg fun hmem => hfirst group hgroup x (mem_cons_of_mem _ hmem) (mem_cons_of_mem _ hx)]
      exact ih hapart hgroup

lemma canonical_notMem_goneOf (hapart : Apart groups) (hgroup : group ∈ groups)
    (hne : group.canonicalInternalId ∉ group.nonCanonicalInternalIds) : group.canonicalInternalId ∉ goneOf groups := by
  intro hgone
  obtain ⟨other, hother, hmem⟩ := mem_flatMap.1 hgone
  have hsymm : Std.Symm (fun group group' : DuplicateGroup => ∀ x ∈ group.members, x ∉ group'.members) :=
    ⟨fun _ _ h x hx hx' => h x hx' hx⟩
  by_cases heq : group = other
  · rw [← heq] at hmem
    exact hne hmem
  · exact hapart.forall hgroup hother heq _ (.head _) (.tail _ hmem)

lemma GroupOf.ne (h : GroupOf g label k group) :
    group.canonicalInternalId ∉ group.nonCanonicalInternalIds := fun hmem =>
  ((h.nonCanonical _).1 hmem).1 rfl

lemma InBucket.isClass (h : InBucket g label k x) : Graph.IsClass g label x := by
  obtain ⟨name, hnode, -⟩ := h
  exact Option.map_eq_some_iff.2 ⟨_, hnode, rfl⟩

lemma InBucket.unique {label' : ClassLabel} {k' : String} (h : InBucket g label k x)
    (h' : InBucket g label' k' x) : label = label' ∧ k = k' := by
  obtain ⟨name, hnode, -, rfl⟩ := h
  obtain ⟨name', hnode', -, rfl⟩ := h'
  obtain ⟨hlabel, rfl⟩ := Node.mk.inj (Option.some.inj (hnode.symm.trans hnode'))
  exact ⟨Kind.classNode.inj hlabel, rfl⟩

lemma GroupOf.inBucket (h : GroupOf g label k group) (hx : x ∈ group.members) : InBucket g label k x := by
  rcases mem_cons.1 hx with rfl | hx
  · exact h.canonical
  · exact ((h.nonCanonical x).1 hx).2

lemma GroupOf.wellFormed (h : GroupOf g label k group) : group.WellFormed g label where
  canonical := h.canonical.isClass
  nonCanonical _ hnc := (h.inBucket (.tail _ hnc)).isClass
  ne := h.ne
  nodup := h.nodup

lemma apart_findDuplicateGroups : Apart (findDuplicateGroups g label) := by
  rw [Apart, findDuplicateGroups, pairwise_filterMap]
  refine ((pairwise_map.1 (buckets (Graph.rows g label)).nodup_keys).imp_of_mem ?_)
  rintro ⟨k, rows⟩ ⟨k', rows'⟩ hmem hmem' hne group hgroup group' hgroup' x hx hx'
  rw [mem_entries_iff, get?_buckets] at hmem hmem'
  split_ifs at hmem hmem'
  cases hmem
  cases hmem'
  exact hne (((groupOf_duplicateGroup hgroup).inBucket hx).unique
    ((groupOf_duplicateGroup hgroup').inBucket hx')).2

/-- The groups of a label, one after the other. -/
lemma foldl_groups (fails : ClassLabel → DuplicateGroup → Bool) (run : Run V)
    (hwf : ∀ group ∈ groups, group.WellFormed run.graph label) (hapart : Apart groups) :
    (groups.foldl (fun run group => if fails label group then run
        else ⟨mergeGroup label run.graph group, run.merged ++ [group]⟩) run).merged =
      run.merged ++ groups.filter (fun group => !fails label group) ∧
    Moves run.graph (groups.foldl (fun run group => if fails label group then run
        else ⟨mergeGroup label run.graph group, run.merged ++ [group]⟩) run).graph
      (survivor (groups.filter fun group => !fails label group))
      (goneOf (groups.filter fun group => !fails label group)) := by
  induction groups generalizing run with
  | nil => exact ⟨(append_nil _).symm, Moves.refl run.graph⟩
  | cons group groups ih =>
    obtain ⟨hfirst, hapart⟩ := pairwise_cons.1 hapart
    rw [foldl_cons]
    cases hfails : fails label group with
    | true =>
      rw [if_pos rfl, filter_cons_of_neg (by simp [hfails])]
      exact ih run (fun group' hgroup' => hwf group' (mem_cons_of_mem group hgroup')) hapart
    | false =>
      have hmoves := moves_mergeGroup (hwf group (.head _))
      -- the nodes of the later groups are still there
      have hlater : ∀ group' ∈ groups, group'.WellFormed (mergeGroup label run.graph group) label := by
        intro group' hgroup'
        have hwf' := hwf group' (mem_cons_of_mem group hgroup')
        have hkept : ∀ x ∈ group'.members, x ∉ group.nonCanonicalInternalIds := fun x hx hmem =>
          hfirst group' hgroup' x (.tail _ hmem) hx
        exact
          { hwf' with
            canonical := (hmoves.isClass_of_notMem (hkept _ (.head _))).2 hwf'.canonical
            nonCanonical := fun nc hnc =>
              (hmoves.isClass_of_notMem (hkept nc (.tail _ hnc))).2 (hwf'.nonCanonical nc hnc) }
      rw [if_neg Bool.false_ne_true, filter_cons_of_pos (by simp [hfails])]
      obtain ⟨hmerged, hrest⟩ := ih ⟨mergeGroup label run.graph group, run.merged ++ [group]⟩ hlater hapart
      refine ⟨?_, hmoves.trans hrest⟩
      rw [hmerged, append_assoc]
      rfl

/-- What a run has done after the labels of `done`, with the groups described in the first graph. -/
structure RunInv (g : Graph V) (done : List ClassLabel) (run : Run V) : Prop where
  moves : Moves g run.graph (survivor run.merged) (goneOf run.merged)
  groups : ∀ group ∈ run.merged, ∃ label ∈ done, ∃ k, GroupOf g label k group
  apart : Apart run.merged

variable {done : List ClassLabel}

section

variable (h : RunInv g done run)
include h

lemma RunInv.goneClass (hx : x ∈ goneOf run.merged) : ∃ label ∈ done, Graph.IsClass g label x := by
  obtain ⟨group, hgroup, hmem⟩ := mem_flatMap.1 hx
  obtain ⟨label, hlabel, k, hof⟩ := h.groups group hgroup
  exact ⟨label, hlabel, (hof.inBucket (.tail _ hmem)).isClass⟩

lemma RunInv.notMem_gone (hlabel : label ∉ done)
    (hx : Graph.IsClass g label x) : x ∉ goneOf run.merged := by
  intro hgone
  obtain ⟨label', hlabel', hclass⟩ := h.goneClass hgone
  rw [Graph.IsClass, hx] at hclass
  exact hlabel (Kind.classNode.inj (Option.some.inj hclass) ▸ hlabel')

lemma RunInv.inBucket_iff (hlabel : label ∉ done) :
    InBucket run.graph label k x ↔ InBucket g label k x := by
  have hgone : ∀ x ∈ goneOf run.merged, ∃ label, Graph.IsClass g label x := fun x hx =>
    (h.goneClass hx).imp fun label hl => hl.2
  constructor
  · intro hx
    exact (h.moves.inBucket hgone (h.notMem_gone hlabel (h.moves.isClass hx.isClass))).1 hx
  · intro hx
    exact (h.moves.inBucket hgone (h.notMem_gone hlabel hx.isClass)).2 hx

lemma RunInv.groupOf (hlabel : label ∉ done)
    (hgroup : GroupOf run.graph label k group) : GroupOf g label k group := by
  have hgone : ∀ x ∈ goneOf run.merged, ∃ label, Graph.IsClass g label x := fun x hx =>
    (h.goneClass hx).imp fun label hl => hl.2
  have hactive : ∀ x ∈ group.members, Graph.activelyBound run.graph x = Graph.activelyBound g x := by
    intro x hx
    refine h.moves.activelyBound hgone (h.notMem_gone hlabel ?_)
    exact h.moves.isClass (hgroup.inBucket hx).isClass
  refine ⟨(h.inBucket_iff hlabel).1 hgroup.canonical, fun x => ?_, hgroup.nodup, fun x hx hbound => ?_⟩
  · rw [hgroup.nonCanonical, h.inBucket_iff hlabel]
  · rw [← hactive _ (.head _)]
    rw [← hactive x (.tail _ hx)] at hbound
    exact hgroup.bound x hx hbound

lemma runInv_dedupLabel (hlabel : label ∉ done) :
    RunInv g (done ++ [label]) (dedupLabel fails run label) ∧ (dedupLabel fails run label).merged =
        run.merged ++ (findDuplicateGroups run.graph label).filter (fun group => !fails label group) := by
  have hwf : ∀ group ∈ findDuplicateGroups run.graph label, group.WellFormed run.graph label :=
    fun group hgroup => (groupOf_of_mem hgroup).elim fun _ hof => hof.wellFormed
  obtain ⟨hmerged, hmoves⟩ := foldl_groups fails run hwf apart_findDuplicateGroups
  refine ⟨⟨?_, fun group hgroup => ?_, ?_⟩, hmerged⟩
  · rw [dedupLabel, hmerged, goneOf, flatMap_append]
    refine (h.moves.trans hmoves).congr fun x => ?_
    rw [survivor_append]
    rfl
  · rw [dedupLabel, hmerged] at hgroup
    rcases mem_append.1 hgroup with hgroup | hgroup
    · obtain ⟨label', hlabel', hof⟩ := h.groups group hgroup
      exact ⟨label', mem_append_left _ hlabel', hof⟩
    · obtain ⟨k, hof⟩ := groupOf_of_mem (mem_filter.1 hgroup).1
      exact ⟨label, mem_append_right _ (mem_singleton_self label), k, h.groupOf hlabel hof⟩
  · rw [dedupLabel, hmerged]
    refine pairwise_append.2 ⟨h.apart, apart_findDuplicateGroups.filter _, ?_⟩
    intro group hgroup group' hgroup' x hx hx'
    -- groups of different labels
    obtain ⟨label', hlabel', k, hof⟩ := h.groups group hgroup
    obtain ⟨k', hof'⟩ := groupOf_of_mem (mem_filter.1 hgroup').1
    have hbucket := (h.groupOf hlabel hof').inBucket hx'
    exact hlabel (((hof.inBucket hx).unique hbucket).1 ▸ hlabel')

end

/-- The passes over the labels; where no transaction fails, the nodes of a bucket have been merged. -/
lemma runInv_foldl (fails : ClassLabel → DuplicateGroup → Bool) (g : Graph V) :
    RunInv g PLATFORM_CLASS_LABELS (PLATFORM_CLASS_LABELS.foldl (dedupLabel fails) ⟨g, []⟩) ∧
      ((∀ label group, fails label group = false) → ∀ label ∈ PLATFORM_CLASS_LABELS, ∀ k c d, c ≠ d →
        InBucket g label k c → InBucket g label k d →
        ∃ group ∈ (PLATFORM_CLASS_LABELS.foldl (dedupLabel fails) ⟨g, []⟩).merged, GroupOf g label k group) := by
  refine foldl_induction (P := fun (done : List ClassLabel) (run : Run V) => RunInv g done run ∧
    ((∀ label group, fails label group = false) → ∀ label ∈ done, ∀ k c d, c ≠ d →
      InBucket g label k c → InBucket g label k d → ∃ group ∈ run.merged, GroupOf g label k group)) ?_ ?_
  · refine ⟨⟨Moves.refl g, fun group hgroup => ?_, List.Pairwise.nil⟩, fun _ label hlabel => ?_⟩
    · cases hgroup
    · cases hlabel
  · intro done label rest run hl ih
    have hlabel : label ∉ done := by
      have hnodup : (done ++ label :: rest).Nodup := hl ▸ (by decide)
      exact fun hmem => (nodup_append.1 hnodup).2.2 label hmem label (.head _) rfl
    obtain ⟨hinv, hmerged⟩ := runInv_dedupLabel ih.1 hlabel
    refine ⟨hinv, fun hfails label' hlabel' k c d hne hc hd => ?_⟩
    rw [hmerged]
    rcases mem_append.1 hlabel' with hlabel' | hlabel'
    · obtain ⟨group, hgroup, hof⟩ := ih.2 hfails label' hlabel' k c d hne hc hd
      exact ⟨group, mem_append_left _ hgroup, hof⟩
    · obtain rfl := mem_singleton.1 hlabel'
      obtain ⟨group, hgroup, hof⟩ := exists_group hne ((ih.1.inBucket_iff hlabel).2 hc)
        ((ih.1.inBucket_iff hlabel).2 hd)
      refine ⟨group, mem_append_right _ (mem_filter.2 ⟨hgroup, ?_⟩), ih.1.groupOf hlabel hof⟩
      rw [hfails]
      rfl

/-- A run merges true duplicates only, and loses no binding, link or unknown edge. -/
structure Exact (g : Graph V) (run : Run V) : Prop where
  duplicates : ∀ group ∈ run.merged, ∀ nc ∈ group.nonCanonicalInternalIds,
    TrueDuplicates g nc group.canonicalInternalId
  bound : ∀ group ∈ run.merged, ∀ x ∈ group.members, ActivelyBound g x →
    ActivelyBound run.graph group.canonicalInternalId
  links : ∀ group ∈ run.merged, ∀ nc ∈ group.nonCanonicalInternalIds, ∀ s, ∀ t ∈ REDIRECT_EDGE_TYPES,
    g.HasEdge s t nc → run.graph.HasEdge s t group.canonicalInternalId
  /-- Only nodes that have been merged are deleted, none with an edge of an unknown type. -/
  deleted : ∀ x, (g.nodes.get? x).isSome → run.graph.nodes.get? x = none →
    (∃ group ∈ run.merged, x ∈ group.nonCanonicalInternalIds) ∧
      ∀ s t y, g.HasEdge s t y → s = x ∨ y = x → t ∈ REDIRECT_EDGE_TYPES ∨ t ∈ MODULE_EDGE_TYPES

lemma mem_PLATFORM_CLASS_LABELS (label : ClassLabel) : label ∈ PLATFORM_CLASS_LABELS := by
  cases label <;> decide

lemma exact_of_runInv (hinv : RunInv g done run) (h : KeysFaithful g) :
    Exact g ⟨dedupAnalysisInstanceEdges run.graph, run.merged⟩ := by
  have hgone : ∀ x ∈ goneOf run.merged, ∃ label, Graph.IsClass g label x := fun x hx =>
    (hinv.goneClass hx).imp fun label hl => hl.2
  have hmoves := hinv.moves.trans moves_dedupAnalysisInstanceEdges
  rw [append_nil] at hmoves
  refine
    { duplicates := fun group hgroup nc hnc => ?_
      bound := fun group hgroup x hx hbound => ?_
      links := fun group hgroup nc hnc s t ht hedge => ?_
      deleted := fun x hsome hnone => ⟨?_, hmoves.guard x hsome hnone⟩ }
  · obtain ⟨label, -, k, hof⟩ := hinv.groups group hgroup
    obtain ⟨hne, hbucket⟩ := (hof.nonCanonical nc).1 hnc
    exact h label k nc _ hne hbucket hof.canonical
  · obtain ⟨label, -, k, hof⟩ := hinv.groups group hgroup
    have hstays := canonical_notMem_goneOf hinv.apart hgroup hof.ne
    rw [← activelyBound_iff]
    apply (hmoves.activelyBound hgone hstays).trans
    rw [← activelyBound_iff] at hbound
    rcases mem_cons.1 hx with rfl | hx
    · exact hbound
    · exact hof.bound x hx hbound
  · have hlink := hmoves.links s t ht nc hedge
    rwa [Function.comp_apply, survivor_of_mem hinv.apart hgroup hnc] at hlink
  · rcases hmoves.nodes x with heq | ⟨-, hmem⟩
    · have hnone' : g.nodes.get? x = none := heq.symm.trans hnone
      rw [hnone'] at hsome
      cases hsome
    · obtain ⟨group, hgroup, hx⟩ := mem_flatMap.1 hmem
      exact ⟨group, hgroup, hx⟩

lemma GroupOf.trueDuplicates (hof : GroupOf g label k group)
    (h : ∀ nc ∈ group.nonCanonicalInternalIds, TrueDuplicates g nc group.canonicalInternalId)
    (hne : c ≠ d) (hc : InBucket g label k c) (hd : InBucket g label k d) : TrueDuplicates g c d := by
  have hsurvivor : ∀ x, InBucket g label k x → x ≠ group.canonicalInternalId →
      TrueDuplicates g x group.canonicalInternalId := fun x hx hxne =>
    h x ((hof.nonCanonical x).2 ⟨hxne, hx⟩)
  by_cases hcanon : c = group.canonicalInternalId
  · rw [hcanon] at hne ⊢
    exact (hsurvivor d hd (Ne.symm hne)).symm
  · by_cases hdcanon : d = group.canonicalInternalId
    · rw [hdcanon]
      exact hsurvivor c hc hcanon
    · exact (hsurvivor c hc hcanon).trans_symm (hsurvivor d hd hdcanon)

/-- Whichever transactions fail, a run from the graph is exact, if and only if class nodes of one label
with one bucket key are true duplicates. -/
theorem exact_applyRun_iff (g : Graph V) : (∀ fails, Exact g (applyRun fails g)) ↔ KeysFaithful g := by
  have hrun : ∀ fails, ∃ run, applyRun fails g = ⟨dedupAnalysisInstanceEdges run.graph, run.merged⟩ ∧
      RunInv g PLATFORM_CLASS_LABELS run ∧ ((∀ label group, fails label group = false) →
        ∀ label ∈ PLATFORM_CLASS_LABELS, ∀ k c d, c ≠ d → InBucket g label k c → InBucket g label k d →
        ∃ group ∈ run.merged, GroupOf g label k group) := fun fails =>
    ⟨_, rfl, runInv_foldl fails g⟩
  constructor
  · intro h label k c d hne hc hd
    have hexact := h fun _ _ => false
    obtain ⟨run, happly, -, hmerged⟩ := hrun fun _ _ => false
    rw [happly] at hexact
    obtain ⟨group, hgroup, hof⟩ := hmerged (fun _ _ => rfl) label (mem_PLATFORM_CLASS_LABELS label) k c d
      hne hc hd
    exact hof.trueDuplicates (hexact.duplicates group hgroup) hne hc hd
  · intro h fails
    obtain ⟨run, happly, hinv, -⟩ := hrun fails
    rw [happly]
    exact exact_of_runInv hinv h

end

/-- A module with the name of the bucket of the unowned classes, a class that it owns, and an unowned class
of the same name. -/
def sentinelGraph : Graph String where
  nodes := .ofList [(1, ⟨.module, some "<unbound>"⟩), (2, ⟨.classNode .componentClass, some "Web server"⟩),
    (3, ⟨.classNode .componentClass, some "Web server"⟩), (4, ⟨.other, some "shop"⟩)]
  edges := .ofList [(1, ⟨1, "HAS_CLASS", 2, ∅⟩), (2, ⟨4, "IS_INSTANCE_OF", 3, ∅⟩)]

/-- The run merges the two classes, of which one has an owner. -/
theorem sentinelGraph_not_exact :
    (applyRun (fun _ _ => false) sentinelGraph).merged = [⟨some "Web server", some "<unbound>", 2, [3]⟩] ∧
      ¬ Exact sentinelGraph (applyRun (fun _ _ => false) sentinelGraph) := by
  have hmerged : (applyRun (fun _ _ => false) sentinelGraph).merged =
      [⟨some "Web server", some "<unbound>", 2, [3]⟩] := by
    decide +kernel
  refine ⟨hmerged, fun h => ?_⟩
  have howns : Owns sentinelGraph 1 2 :=
    ⟨by decide +kernel, "HAS_CLASS", by decide, (1, ⟨1, "HAS_CLASS", 2, ∅⟩), by decide +kernel, rfl, rfl, rfl⟩
  have hnone : ¬ Owns sentinelGraph 1 3 := by
    rintro ⟨-, t, -, e, he, hsource, -, htarget⟩
    have hedges : ∀ e ∈ sentinelGraph.edgeList, ¬ (e.2.source = 1 ∧ e.2.target = 3) := by
      decide +kernel
    exact hedges e he ⟨hsource, htarget⟩
  have hdup : TrueDuplicates sentinelGraph 3 2 :=
    h.duplicates ⟨some "Web server", some "<unbound>", 2, [3]⟩ (by rw [hmerged]; exact .head _) 3
      (.head _)
  rcases hdup.2 with ⟨m, h3, h2⟩ | ⟨-, h2⟩
  · exact hnone ((h2 1).1 howns ▸ (h3 m).2 rfl)
  · exact h2 1 howns

end ClassIdentity
