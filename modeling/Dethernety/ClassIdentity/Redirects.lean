import Dethernety.ClassIdentity.Migration

/-!
# What a merge does to the graph

The statements of a merge are followed from the redirect of one edge to the merge of a group. `Moves` is what
they all have in common: links go along a map of nodes, edges of unknown types stay, and only the nodes of a
list may be gone.
-/

open List PropertyGraph

namespace ClassIdentity

variable {V : Type} {g g' g'' : Graph V} {label : ClassLabel} {nc canon : ℕ}

/-- The edge of a row is still there, with any properties. -/
def Stands (g : Graph V) (r : ℕ × PropertyGraph.Edge String (Record String V)) : Prop :=
  ∃ data, (r.1, { r.2 with data := data }) ∈ g.edgeList

/-- The graph has changed by merges: links go along `f`, edges of unknown types stay, and only nodes of
`gone` may be deleted, without an edge of an unknown type. -/
structure Moves (g g' : Graph V) (f : ℕ → ℕ) (gone : List ℕ) : Prop where
  links : ∀ s, ∀ t ∈ REDIRECT_EDGE_TYPES, ∀ x, g.HasEdge s t x → g'.HasEdge s t (f x)
  unknown : ∀ s t x, t ∉ REDIRECT_EDGE_TYPES → t ∉ MODULE_EDGE_TYPES → g.HasEdge s t x → g'.HasEdge s t x
  /-- The bindings of the nodes that are still there. -/
  bindings : ∀ m, ∀ t ∈ MODULE_EDGE_TYPES, ∀ c, m ∉ gone → c ∉ gone →
    (g'.HasEdge m t c ↔ g.HasEdge m t c)
  nodes : ∀ id, g'.nodes.get? id = g.nodes.get? id ∨ (g'.nodes.get? id = none ∧ id ∈ gone)
  guard : ∀ id, (g.nodes.get? id).isSome → g'.nodes.get? id = none → ∀ s t x, g.HasEdge s t x →
    s = id ∨ x = id → t ∈ REDIRECT_EDGE_TYPES ∨ t ∈ MODULE_EDGE_TYPES

/-- The links of the types have gone from a node to another, and nothing else has changed. -/
structure Redirected (g g' : Graph V) (types : List String) (nc canon : ℕ) : Prop where
  nodes : g'.nodes = g.nodes
  moved : ∀ s, ∀ t ∈ types, g.HasEdge s t nc → g'.HasEdge s t canon
  other : ∀ s t x, g.HasEdge s t x → x ≠ nc ∨ t ∉ types → g'.HasEdge s t x
  only : ∀ s t x, g'.HasEdge s t x → g.HasEdge s t x ∨ t ∈ types

section

variable {relType : String} {r r' : ℕ × PropertyGraph.Edge String (Record String V)} {s x : ℕ} {t : String}

lemma Stands.ends (h : Stands g r) {e : ℕ × PropertyGraph.Edge String (Record String V)}
    (he : e ∈ g.edgeList) (hid : e.1 = r.1) :
    e.2.source = r.2.source ∧ e.2.type = r.2.type ∧ e.2.target = r.2.target := by
  obtain ⟨data, hdata⟩ := h
  have hedge : (r.1, e.2) ∈ g.edgeList := hid ▸ he
  rw [edge_unique hedge hdata]
  exact ⟨rfl, rfl, rfl⟩

lemma Stands.mergeEdge (h : Stands g r) (s : ℕ) (t : String) (x : ℕ)
    (f : Record String V → Record String V) : Stands (g.mergeEdge s t x ∅ f) r := by
  obtain ⟨data, hdata⟩ := h
  obtain ⟨data', hdata'⟩ := exists_mem_mergeEdge (s := s) (t := x) (f := f) hdata
  exact ⟨data', hdata'⟩

lemma hasEdge_redirectEdge (hr : Stands g r) (h : (g.mergeEdge r.2.source relType canon ∅
      (setAll r.2.data)).HasEdge s t x) (hends : s ≠ r.2.source ∨ t ≠ r.2.type ∨ x ≠ r.2.target) :
    (redirectEdge relType canon g r).HasEdge s t x := by
  obtain ⟨e, he, rfl, rfl, rfl⟩ := h
  refine ⟨e, mem_deleteEdges.2 ⟨he, decide_eq_false fun hid => ?_⟩, rfl, rfl, rfl⟩
  obtain ⟨hsource, htype, htarget⟩ := (hr.mergeEdge _ _ _ _).ends he hid
  rcases hends with hends | hends | hends
  · exact hends hsource
  · exact hends htype
  · exact hends htarget

lemma Stands.redirectEdge (h : Stands g r') (hne : r'.1 ≠ r.1) : Stands (redirectEdge relType canon g r) r' := by
  obtain ⟨data, hdata⟩ := h.mergeEdge r.2.source relType canon (setAll r.2.data)
  exact ⟨data, mem_deleteEdges.2 ⟨hdata, decide_eq_false hne⟩⟩

/-- The rows of a redirect, one after the other. -/
lemma foldl_redirectEdge (hne : nc ≠ canon) {l : List (ℕ × PropertyGraph.Edge String (Record String V))}
    (hnodup : (l.map Prod.fst).Nodup) (hl : ∀ r ∈ l, r.2.type = relType ∧ r.2.target = nc)
    (hstands : ∀ r ∈ l, Stands g r) :
    (l.foldl (redirectEdge relType canon) g).nodes = g.nodes ∧
      (∀ r ∈ l, (l.foldl (redirectEdge relType canon) g).HasEdge r.2.source relType canon) ∧
      (∀ s t x, g.HasEdge s t x → x ≠ nc ∨ t ≠ relType → (l.foldl (redirectEdge relType canon) g).HasEdge s t x) ∧
      ∀ s t x, (l.foldl (redirectEdge relType canon) g).HasEdge s t x → g.HasEdge s t x ∨ t = relType := by
  induction l generalizing g with
  | nil => exact ⟨rfl, fun r hr => absurd hr not_mem_nil, fun _ _ _ h _ => h, fun _ _ _ h => .inl h⟩
  | cons r l ih =>
    obtain ⟨hid, hnodup⟩ := nodup_cons.1 hnodup
    have hr := hstands r (.head _)
    obtain ⟨htype, htarget⟩ := hl r (.head _)
    obtain ⟨hnodes, hmoved, hother, honly⟩ := ih (g := redirectEdge relType canon g r) hnodup
      (fun r' hr' => hl r' (mem_cons_of_mem r hr')) fun r' hr' =>
        (hstands r' (mem_cons_of_mem r hr')).redirectEdge fun heq =>
          hid (heq ▸ mem_map_of_mem hr')
    have hmerged : (redirectEdge relType canon g r).HasEdge r.2.source relType canon :=
      hasEdge_redirectEdge hr (hasEdge_mergeEdge.2 (.inl ⟨rfl, rfl, rfl⟩))
        (.inr (.inr (by rw [htarget]; exact hne.symm)))
    rw [foldl_cons]
    refine ⟨hnodes.trans nodes_mergeEdge, ?_, fun s t x h hends => ?_, fun s t x h => ?_⟩
    · intro r' hr'
      rcases mem_cons.1 hr' with rfl | hr'
      · exact hother _ _ _ hmerged (.inl hne.symm)
      · exact hmoved r' hr'
    · refine hother s t x ?_ hends
      apply hasEdge_redirectEdge hr (hasEdge_mergeEdge.2 (.inr h))
      rw [htype, htarget]
      exact .inr hends.symm
    · rcases honly s t x h with h | h
      · rcases hasEdge_mergeEdge.1 h.of_deleteEdges with ⟨-, htype', -⟩ | h
        · exact .inr htype'.symm
        · exact .inl h
      · exact .inr h

lemma redirected_redirect (hne : nc ≠ canon) (hnc : Graph.IsClass g label nc)
    (hcanon : Graph.IsClass g label canon) (relType : String) :
    Redirected g (redirect label nc canon g relType) [relType] nc canon := by
  have hrows : ∀ r ∈ g.edgeList.filter (fun r => r.2.type = relType ∧ r.2.target = nc),
      r ∈ g.edgeList ∧ r.2.type = relType ∧ r.2.target = nc := fun r hr => by
    obtain ⟨hmem, hends⟩ := mem_filter.1 hr
    exact ⟨hmem, of_decide_eq_true hends⟩
  obtain ⟨hnodes, hmoved, hother, honly⟩ := foldl_redirectEdge (g := g) hne
    ((filter_sublist.map Prod.fst).nodup g.edges.nodup_keys) (fun r hr => (hrows r hr).2)
    fun r hr => ⟨r.2.data, (hrows r hr).1⟩
  rw [redirect, if_pos ⟨hnc, hcanon⟩]
  refine ⟨hnodes, fun s t ht h => ?_, fun s t x h hends => ?_, fun s t x h => ?_⟩
  · obtain rfl := mem_singleton.1 ht
    obtain ⟨e, he, rfl, rfl, rfl⟩ := h
    exact hmoved e (mem_filter.2 ⟨he, decide_eq_true ⟨rfl, rfl⟩⟩)
  · exact hother s t x h (hends.imp_right fun ht heq => ht (mem_singleton.2 heq))
  · exact (honly s t x h).imp_right mem_singleton.2

lemma redirected_foldl (hne : nc ≠ canon) (hnc : Graph.IsClass g label nc)
    (hcanon : Graph.IsClass g label canon) (types : List String) :
    Redirected g (types.foldl (redirect label nc canon) g) types nc canon := by
  induction types generalizing g with
  | nil =>
    exact ⟨rfl, fun _ t ht => absurd ht not_mem_nil, fun _ _ _ h _ => h, fun _ _ _ h => .inl h⟩
  | cons relType types ih =>
    have hfirst := redirected_redirect hne hnc hcanon relType
    have hclass : ∀ id, Graph.IsClass g label id →
        Graph.IsClass (redirect label nc canon g relType) label id := by
      intro id hid
      rw [Graph.IsClass, hfirst.nodes]
      exact hid
    have hrest := ih (hclass nc hnc) (hclass canon hcanon)
    rw [foldl_cons]
    refine ⟨hrest.nodes.trans hfirst.nodes, fun s t ht h => ?_, fun s t x h hends => ?_, fun s t x h => ?_⟩
    · by_cases hmoved : t = relType
      · exact hrest.other s t canon (hfirst.moved s t (mem_singleton.2 hmoved) h) (.inl hne.symm)
      · apply hrest.moved s t ((mem_cons.1 ht).resolve_left hmoved)
        exact hfirst.other s t nc h (.inr fun hmem => hmoved (mem_singleton.1 hmem))
    · refine hrest.other s t x (hfirst.other s t x h (hends.imp_right fun ht hmem => ht ?_))
        (hends.imp_right fun ht hmem => ht (mem_cons_of_mem relType hmem))
      rw [mem_singleton.1 hmem]
      exact .head _
    · rcases hrest.only s t x h with h | ht
      · exact (hfirst.only s t x h).imp_right fun ht => by
          rw [mem_singleton.1 ht]
          exact .head _
      · exact .inr (mem_cons_of_mem relType ht)

end

section

variable {f f' : ℕ → ℕ} {gone gone' : List ℕ} {id : ℕ}

lemma redirected_notMem_module : ∀ t ∈ REDIRECT_EDGE_TYPES, t ∉ MODULE_EDGE_TYPES := by
  decide

lemma Moves.refl (g : Graph V) : Moves g g (fun x => x) [] where
  links _ _ _ _ h := h
  unknown _ _ _ _ _ h := h
  bindings _ _ _ _ _ _ := Iff.rfl
  nodes _ := .inl rfl
  guard _ hsome hnone := by
    rw [hnone] at hsome
    cases hsome

section

variable (h : Moves g g' f gone)
include h

lemma Moves.nodes_of_notMem (hid : id ∉ gone) : g'.nodes.get? id = g.nodes.get? id :=
  (h.nodes id).resolve_right fun hgone => hid hgone.2

lemma Moves.node {n : Node} (hn : g'.nodes.get? id = some n) : g.nodes.get? id = some n := by
  rcases h.nodes id with heq | ⟨hnone, -⟩
  · rw [← heq]
    exact hn
  · cases hnone.symm.trans hn

lemma Moves.isClass (hid : Graph.IsClass g' label id) : Graph.IsClass g label id := by
  obtain ⟨n, hn, hkind⟩ := Option.map_eq_some_iff.1 hid
  exact Option.map_eq_some_iff.2 ⟨n, h.node hn, hkind⟩

lemma Moves.isClass_of_notMem (hid : id ∉ gone) :
    Graph.IsClass g' label id ↔ Graph.IsClass g label id := by
  rw [Graph.IsClass, Graph.IsClass, h.nodes_of_notMem hid]

lemma Moves.trans (h' : Moves g' g'' f' gone') : Moves g g'' (f' ∘ f) (gone ++ gone') where
  links s t ht x hx := h'.links s t ht (f x) (h.links s t ht x hx)
  unknown s t x hr hm hx := h'.unknown s t x hr hm (h.unknown s t x hr hm hx)
  bindings m t ht c hm hc := by
    rw [mem_append, not_or] at hm hc
    exact (h'.bindings m t ht c hm.2 hc.2).trans (h.bindings m t ht c hm.1 hc.1)
  nodes id := by
    rcases h'.nodes id with heq' | ⟨hnone, hmem⟩
    · rcases h.nodes id with heq | ⟨hnone, hmem⟩
      · exact .inl (heq'.trans heq)
      · exact .inr ⟨heq'.trans hnone, mem_append_left _ hmem⟩
    · exact .inr ⟨hnone, mem_append_right _ hmem⟩
  guard id hsome hnone s t x hx hends := by
    cases hmid : g'.nodes.get? id with
    | none => exact h.guard id hsome hmid s t x hx hends
    | some n =>
      -- an edge of an unknown type is still there when the node is deleted
      by_contra hunknown
      rw [not_or] at hunknown
      have hx' := h.unknown s t x hunknown.1 hunknown.2 hx
      exact not_or.2 hunknown (h'.guard id (by rw [hmid]; rfl) hnone s t x hx' hends)

lemma Moves.congr (hf : ∀ x, f x = f' x) : Moves g g' f' gone := by
  rw [← funext hf]
  exact h

end

/-- A node with no edge that blocks it has no edges but those of modules. -/
lemma mem_module_of_leftover (hid : Graph.IsClass g label nc) (h : leftover g label nc = []) {s x : ℕ}
    {t : String} (hedge : g.HasEdge s t x) (hends : s = nc ∨ x = nc) : t ∈ MODULE_EDGE_TYPES := by
  obtain ⟨e, he, rfl, rfl, rfl⟩ := hedge
  rw [leftover, if_pos hid, map_eq_nil_iff, filter_eq_nil_iff] at h
  by_contra htype
  exact h e he (decide_eq_true ⟨hends, htype⟩)

lemma moves_mergeNode (hne : nc ≠ canon) (hnc : Graph.IsClass g label nc)
    (hcanon : Graph.IsClass g label canon) :
    Moves g (mergeNode label canon g nc) (fun x => if x = nc then canon else x) [nc] := by
  have hred := redirected_foldl hne hnc hcanon REDIRECT_EDGE_TYPES
  set red := REDIRECT_EDGE_TYPES.foldl (redirect label nc canon) g with hset
  have hlinks : ∀ s, ∀ t ∈ REDIRECT_EDGE_TYPES, ∀ x, g.HasEdge s t x →
      red.HasEdge s t (if x = nc then canon else x) := by
    intro s t ht x h
    split_ifs with hx
    · exact hred.moved s t ht (hx ▸ h)
    · exact hred.other s t x h (.inl hx)
  have hbindings : ∀ m, ∀ t ∈ MODULE_EDGE_TYPES, ∀ c, red.HasEdge m t c ↔ g.HasEdge m t c := by
    intro m t ht c
    have htype : t ∉ REDIRECT_EDGE_TYPES := fun hmem => redirected_notMem_module t hmem ht
    exact ⟨fun h => (hred.only m t c h).resolve_right htype, fun h => hred.other m t c h (.inr htype)⟩
  have hclass : Graph.IsClass red label nc := by
    rw [Graph.IsClass, hred.nodes]
    exact hnc
  rw [mergeNode]
  split_ifs with hleft
  · -- the node stays, because of its other edges
    exact
      { links := hlinks
        unknown := fun s t x hr _ h => hred.other s t x h (.inr hr)
        bindings := fun m t ht c _ _ => hbindings m t ht c
        nodes := fun id => .inl (by rw [hred.nodes])
        guard := fun id hsome hnone => by
          rw [hred.nodes] at hnone
          rw [hnone] at hsome
          cases hsome }
  · rw [not_not] at hleft
    have hblocked : ∀ s t x, red.HasEdge s t x → t ∉ MODULE_EDGE_TYPES → s ≠ nc ∧ x ≠ nc := by
      intro s t x h ht
      exact not_or.1 fun hends => ht (mem_module_of_leftover hclass hleft h hends)
    have hkeep : ∀ s t x, red.HasEdge s t x → s ≠ nc → x ≠ nc →
        (red.detachDelete fun id => id = nc ∧ Graph.IsClass red label id).HasEdge s t x := by
      intro s t x h hs hx
      exact hasEdge_detachDelete.2
        ⟨h, decide_eq_false fun hor => hs hor.1, decide_eq_false fun hor => hx hor.1⟩
    refine
      { links := fun s t ht x h => ?_
        unknown := fun s t x hr hm h => ?_
        bindings := fun m t ht c hm hc => ?_
        nodes := fun id => ?_
        guard := fun id hsome hnone s t x h hends => ?_ }
    · have hmod := redirected_notMem_module t ht
      obtain ⟨hs, hx⟩ := hblocked s t _ (hlinks s t ht x h) hmod
      exact hkeep s t _ (hlinks s t ht x h) hs hx
    · have hred' := hred.other s t x h (.inr hr)
      obtain ⟨hs, hx⟩ := hblocked s t x hred' hm
      exact hkeep s t x hred' hs hx
    · rw [← hbindings m t ht c]
      rw [mem_singleton] at hm hc
      exact ⟨fun h => (hasEdge_detachDelete.1 h).1, fun h => hkeep m t c h hm hc⟩
    · rw [get?_nodes_detachDelete, hred.nodes]
      split_ifs with hid
      · exact .inr ⟨rfl, mem_singleton.2 (of_decide_eq_true hid).1⟩
      · exact .inl rfl
    · rw [get?_nodes_detachDelete, hred.nodes] at hnone
      split_ifs at hnone with hid
      · obtain ⟨rfl, -⟩ := of_decide_eq_true hid
        by_cases hr : t ∈ REDIRECT_EDGE_TYPES
        · exact .inl hr
        · exact .inr (mem_module_of_leftover hclass hleft (hred.other s t x h (.inr hr)) hends)
      · rw [hnone] at hsome
        cases hsome

def DuplicateGroup.send (group : DuplicateGroup) (x : ℕ) : ℕ :=
  if x ∈ group.nonCanonicalInternalIds then group.canonicalInternalId else x

/-- A group of distinct class nodes of the label. -/
structure DuplicateGroup.WellFormed (group : DuplicateGroup) (g : Graph V) (label : ClassLabel) : Prop where
  canonical : Graph.IsClass g label group.canonicalInternalId
  nonCanonical : ∀ nc ∈ group.nonCanonicalInternalIds, Graph.IsClass g label nc
  ne : group.canonicalInternalId ∉ group.nonCanonicalInternalIds
  nodup : group.nonCanonicalInternalIds.Nodup

lemma moves_foldl_mergeNode {ncs : List ℕ} (hcanon : Graph.IsClass g label canon)
    (hncs : ∀ nc ∈ ncs, Graph.IsClass g label nc) (hne : canon ∉ ncs) (hnodup : ncs.Nodup) :
    Moves g (ncs.foldl (mergeNode label canon) g) (fun x => if x ∈ ncs then canon else x) ncs := by
  induction ncs generalizing g with
  | nil => exact (Moves.refl g).congr fun x => (if_neg not_mem_nil).symm
  | cons nc ncs ih =>
    obtain ⟨hnc, hnodup⟩ := nodup_cons.1 hnodup
    rw [mem_cons, not_or] at hne
    have hfirst := moves_mergeNode (Ne.symm hne.1) (hncs nc (.head _)) hcanon
    have hrest := ih (g := mergeNode label canon g nc)
      ((hfirst.isClass_of_notMem fun hmem => hne.1 (mem_singleton.1 hmem)).2 hcanon)
      (fun nc' hnc' => (hfirst.isClass_of_notMem fun hmem => hnc (mem_singleton.1 hmem ▸ hnc')).2
        (hncs nc' (mem_cons_of_mem nc hnc'))) hne.2 hnodup
    refine (hfirst.trans hrest).congr fun x => ?_
    -- a node that has been sent to the survivor stays there
    by_cases hx : x = nc
    · simp [hx, hne.2]
    · simp [hx]

lemma moves_mergeGroup {group : DuplicateGroup} (h : group.WellFormed g label) :
    Moves g (mergeGroup label g group) group.send group.nonCanonicalInternalIds :=
  moves_foldl_mergeNode h.canonical h.nonCanonical h.ne h.nodup

end

/-- The ids of the instance edges of a pair, low to high. -/
def idsOf (g : Graph V) (pair : ℕ × ℕ) : List ℕ :=
  (((instanceEdges g).filter fun r => (r.2.source, r.2.target) = pair).map Prod.fst).insertionSort (· ≤ ·)

variable {pair pair' : ℕ × ℕ} {id : ℕ}

lemma mem_idsOf : id ∈ idsOf g pair ↔
    ∃ e, (id, e) ∈ g.edgeList ∧ e.type = "IS_INSTANCE_OF" ∧ (e.source, e.target) = pair ∧
      (id, e) ∈ instanceEdges g := by
  rw [idsOf, mem_insertionSort, mem_map]
  constructor
  · rintro ⟨⟨i, e⟩, he, rfl⟩
    obtain ⟨hmem, hpair⟩ := mem_filter.1 he
    obtain ⟨hedge, htype⟩ := mem_filter.1 hmem
    exact ⟨e, hedge, (of_decide_eq_true htype).1, of_decide_eq_true hpair, hmem⟩
  · rintro ⟨e, -, -, hpair, hmem⟩
    exact ⟨(id, e), mem_filter.2 ⟨hmem, decide_eq_true hpair⟩, rfl⟩

lemma nodup_idsOf : (idsOf g pair).Nodup := by
  apply (perm_insertionSort _ _).nodup_iff.2
  exact ((filter_sublist.trans filter_sublist).map Prod.fst).nodup g.edges.nodup_keys

lemma pair_unique (h : id ∈ idsOf g pair) (h' : id ∈ idsOf g pair') : pair = pair' := by
  obtain ⟨e, he, -, rfl, -⟩ := mem_idsOf.1 h
  obtain ⟨e', he', -, rfl, -⟩ := mem_idsOf.1 h'
  rw [edge_unique he he']

lemma exists_pair {ids : List ℕ} (h : ids ∈ duplicateInstanceEdges g) : ∃ pair, ids = idsOf g pair := by
  obtain ⟨pair, -, rfl⟩ := mem_map.1 (mem_filter.1 h).1
  exact ⟨pair, rfl⟩

lemma mem_foldl_deleteEdges {dups : List (List ℕ)} {e : ℕ × PropertyGraph.Edge String (Record String V)} :
    e ∈ (dups.foldl (fun (g : Graph V) ids =>
        g.deleteEdges fun r => r.2.type = "IS_INSTANCE_OF" ∧ r.1 ∈ ids.tail) g).edgeList ↔
      e ∈ g.edgeList ∧ ∀ ids ∈ dups, ¬ (e.2.type = "IS_INSTANCE_OF" ∧ e.1 ∈ ids.tail) := by
  induction dups generalizing g with
  | nil => simp
  | cons _ _ ih =>
    rw [foldl_cons, ih, mem_deleteEdges, decide_eq_false_iff_not, forall_mem_cons, and_assoc]

lemma nodes_foldl_deleteEdges (dups : List (List ℕ)) : (dups.foldl (fun (g : Graph V) ids =>
    g.deleteEdges fun r => r.2.type = "IS_INSTANCE_OF" ∧ r.1 ∈ ids.tail) g).nodes = g.nodes := by
  induction dups generalizing g with
  | nil => rfl
  | cons _ _ ih => exact ih

/-- Of the parallel edges between an analysis and its class one stays. -/
theorem moves_dedupAnalysisInstanceEdges : Moves g (dedupAnalysisInstanceEdges g) (fun x => x) [] := by
  have hkept : ∀ e ∈ g.edgeList, e.2.type ≠ "IS_INSTANCE_OF" →
      e ∈ (dedupAnalysisInstanceEdges g).edgeList := fun e he htype =>
    mem_foldl_deleteEdges.2 ⟨he, fun _ _ hremoved => htype hremoved.1⟩
  have hother : ∀ s t x, t ≠ "IS_INSTANCE_OF" → g.HasEdge s t x →
      (dedupAnalysisInstanceEdges g).HasEdge s t x := by
    rintro s t x htype ⟨e, he, rfl, rfl, rfl⟩
    exact ⟨e, hkept e he htype, rfl, rfl, rfl⟩
  refine
    { links := ?_
      unknown := fun s t x hr _ h => hother s t x (fun heq => hr (by rw [heq]; decide)) h
      bindings := fun m t ht c _ _ => ⟨?_, hother m t c fun heq => ?_⟩
      nodes := fun id => .inl (by rw [dedupAnalysisInstanceEdges, nodes_foldl_deleteEdges])
      guard := fun id hsome hnone => ?_ }
  · rintro s t - x ⟨e, he, rfl, rfl, rfl⟩
    by_cases hremoved : ∃ ids ∈ duplicateInstanceEdges g, e.2.type = "IS_INSTANCE_OF" ∧ e.1 ∈ ids.tail
    · -- the first edge of its pair has the same ends
      obtain ⟨ids, hids, htype, htail⟩ := hremoved
      obtain ⟨pair, rfl⟩ := exists_pair hids
      cases hcons : idsOf g pair with
      | nil =>
        rw [hcons] at htail
        cases htail
      | cons first rest =>
        rw [hcons] at htail
        have hnodup : (first :: rest).Nodup := hcons ▸ nodup_idsOf
        have hmem : e.1 ∈ idsOf g pair := hcons ▸ mem_cons_of_mem first htail
        have hfirst : first ∈ idsOf g pair := hcons ▸ (.head _)
        obtain ⟨e', he', -, hpair, -⟩ := mem_idsOf.1 hmem
        obtain ⟨e'', he'', htype'', hpair'', -⟩ := mem_idsOf.1 hfirst
        obtain rfl := edge_unique he he'
        obtain ⟨hsource, htarget⟩ := Prod.mk.inj (hpair''.trans hpair.symm)
        refine ⟨(first, e''), mem_foldl_deleteEdges.2 ⟨he'', fun ids' hids' hremoved => ?_⟩, hsource,
          htype''.trans htype.symm, htarget⟩
        obtain ⟨pair', rfl⟩ := exists_pair hids'
        obtain rfl := pair_unique hfirst (mem_of_mem_tail hremoved.2)
        rw [hcons] at hremoved
        exact (nodup_cons.1 hnodup).1 hremoved.2
    · exact ⟨e, mem_foldl_deleteEdges.2 ⟨he, fun ids hids h => hremoved ⟨ids, hids, h⟩⟩, rfl, rfl, rfl⟩
  · rintro ⟨e, he, rfl, rfl, rfl⟩
    exact ⟨e, (mem_foldl_deleteEdges.1 he).1, rfl, rfl, rfl⟩
  · rw [heq] at ht
    exact absurd ht (by decide)
  · rw [dedupAnalysisInstanceEdges, nodes_foldl_deleteEdges] at hnone
    rw [hnone] at hsome
    cases hsome

end ClassIdentity
