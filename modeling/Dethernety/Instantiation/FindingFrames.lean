import Mathlib.Data.List.ProdSigma
import Dethernety.Instantiation.FindingNames

/-!
# What the writer's statements keep

`Wrote g g' names`: the writer went through findings with these names on the way from `g` to `g'`. It changes
nothing that the patterns read of the nodes there were, each of the names has a finding in the end, and new nodes
are findings with one of the names. `Keeps g g'`: what is not a finding of the scope, and its links, stays.
-/

open List Record Option PropertyGraph

namespace Findings

open ModelDirectory (Json)

variable {engine : Engine} {s : FindingScope} {g g' g'' : Graph} {e : ℕ} {names names' : List (Option Value)}

/-! ## Relations -/

lemma relation_notMem_linkTypes (kind : FindingKind) : kind.relation ∉ kind.linkTypes := by
  cases kind <;> decide

lemma classRelations_notMem_linkTypes (kind : FindingKind) : ∀ r ∈ CLASS_RELATIONS, r ∉ kind.linkTypes := by
  cases kind <;> decide

/-- What the patterns read of a node: its label and its key, its name and whether the platform wrote it. -/
def Node.face (n : Node) : (String × Option String) × Option Value × Bool :=
  ((n.label, n.key), n.name, n.IsSystem)

lemma label_of_face {n n' : Node} (h : n'.face = n.face) : n'.label = n.label :=
  congrArg (fun face => face.1.1) h

/-- The nodes and the relations there were read the same, and new nodes are findings of the scope. -/
structure Extends (s : FindingScope) (g g' : Graph) : Prop where
  face : ∀ e ∈ g.nodes.keys, (g'.nodes.get? e).map Node.face = (g.nodes.get? e).map Node.face
  edge : ∀ a t b, t ∉ s.kind.linkTypes → a ∈ g.nodes.keys → b ∈ g.nodes.keys →
    (g'.HasEdge a t b ↔ g.HasEdge a t b)
  new : ∀ e ∈ g'.nodes.keys, e ∉ g.nodes.keys → IsSystemFinding g' s e

lemma Extends.exists_node (h : Extends s g g') {n : Node} (hn : g.nodes.get? e = some n) :
    ∃ n', g'.nodes.get? e = some n' ∧ n'.face = n.face := by
  have hface := h.face e (mem_keys_of_get? hn)
  rw [hn] at hface
  exact map_eq_some_iff.1 hface

lemma Extends.mem_keys (h : Extends s g g') (he : e ∈ g.nodes.keys) : e ∈ g'.nodes.keys := by
  obtain ⟨n, hn⟩ := isSome_iff_exists.1 (mem_keys_iff.1 he)
  obtain ⟨n', hn', -⟩ := h.exists_node hn
  exact mem_keys_of_get? hn'

lemma Extends.nameOf_eq (h : Extends s g g') (he : e ∈ g.nodes.keys) : nameOf g' e = nameOf g e := by
  obtain ⟨n, hn⟩ := isSome_iff_exists.1 (mem_keys_iff.1 he)
  obtain ⟨n', hn', hface⟩ := h.exists_node hn
  unfold nameOf
  rw [hn, hn']
  exact congrArg (fun face => face.2.1) hface

lemma BothExist.classId_mem (h : BothExist s g) : s.classId ∈ g.nodes.keys := by
  obtain ⟨-, n, hn, -⟩ := h
  exact mem_keys_of_get? hn

lemma Extends.bothExist (h : Extends s g g') (hboth : BothExist s g) : BothExist s g' := by
  obtain ⟨helement, n, hn, hlabel⟩ := hboth
  obtain ⟨n', hn', hface⟩ := h.exists_node hn
  refine ⟨h.mem_keys helement, n', hn', ?_⟩
  rw [label_of_face hface]
  exact hlabel

lemma Extends.exists_node_iff (h : Extends s g g') (he : e ∈ g.nodes.keys) {P : String → Bool → Prop} :
    (∃ n ∈ g'.nodes.get? e, P n.label n.IsSystem) ↔ ∃ n ∈ g.nodes.get? e, P n.label n.IsSystem := by
  obtain ⟨n, hn⟩ := isSome_iff_exists.1 (mem_keys_iff.1 he)
  obtain ⟨n', hn', hface⟩ := h.exists_node hn
  have hlabel := label_of_face hface
  have hsystem : decide n'.IsSystem = decide n.IsSystem := congrArg (fun face => face.2.2) hface
  rw [hn, hn']
  constructor
  · rintro ⟨m, hm, hP⟩
    cases hm
    exact ⟨n, rfl, by rw [← hlabel, ← hsystem]; exact hP⟩
  · rintro ⟨m, hm, hP⟩
    cases hm
    exact ⟨n', rfl, by rw [hlabel, hsystem]; exact hP⟩

lemma Extends.inScope_iff (h : Extends s g g') (hboth : BothExist s g) (he : e ∈ g.nodes.keys) :
    InScope g' s e ↔ InScope g s e := by
  have hnode := h.exists_node_iff he (P := fun _ system => system = true)
  simp only [decide_eq_true_eq] at hnode
  unfold InScope
  rw [h.edge _ _ _ (relation_notMem_linkTypes s.kind) hboth.1 he, hnode]
  refine and_congr_right fun _ => and_congr_left fun _ => exists_congr fun r => and_congr_right fun hr => ?_
  exact h.edge _ _ _ (classRelations_notMem_linkTypes s.kind r hr) he hboth.classId_mem

lemma Extends.isSystemFinding_iff (h : Extends s g g') (hboth : BothExist s g) (he : e ∈ g.nodes.keys) :
    IsSystemFinding g' s e ↔ IsSystemFinding g s e := by
  have hnode := h.exists_node_iff he (P := fun label system => label = s.kind.label ∧ system = true)
  simp only [decide_eq_true_eq] at hnode
  unfold IsSystemFinding
  rw [h.edge _ _ _ (relation_notMem_linkTypes s.kind) hboth.1 he, hnode,
    h.edge _ _ _ (classRelations_notMem_linkTypes s.kind _ (classRelation_mem s.kind)) he hboth.classId_mem]

lemma IsSystemFinding.mem_keys (h : IsSystemFinding g s e) : e ∈ g.nodes.keys := by
  obtain ⟨-, -, n, hn, -⟩ := h
  exact mem_keys_of_get? hn

lemma Extends.trans (h : Extends s g g') (h' : Extends s g' g'') (hboth : BothExist s g) : Extends s g g'' where
  face e he := (h'.face e (h.mem_keys he)).trans (h.face e he)
  edge a t b ht ha hb := (h'.edge a t b ht (h.mem_keys ha) (h.mem_keys hb)).trans (h.edge a t b ht ha hb)
  new e he hnew := by
    by_cases hmiddle : e ∈ g'.nodes.keys
    · exact (h'.isSystemFinding_iff (h.bothExist hboth) hmiddle).2 (h.new e hmiddle hnew)
    · exact h'.new e he hmiddle

/-- The writer went through findings with these names. -/
structure Wrote (s : FindingScope) (g g' : Graph) (names : List (Option Value)) : Prop extends Extends s g g' where
  newName : ∀ e ∈ g'.nodes.keys, e ∉ g.nodes.keys → nameOf g' e ∈ names
  present : ∀ name ∈ names, ∃ e, IsSystemFinding g' s e ∧ nameOf g' e = name
  /-- When every name has its finding already, nothing is created. -/
  settled : (∀ name ∈ names, name.isSome ∧ ∃ e, IsSystemFinding g s e ∧ nameOf g e = name) →
    ∀ e ∈ g'.nodes.keys, e ∈ g.nodes.keys

lemma Wrote.trans (h : Wrote s g g' names) (h' : Wrote s g' g'' names') (hboth : BothExist s g) :
    Wrote s g g'' (names ++ names') where
  toExtends := h.toExtends.trans h'.toExtends hboth
  newName e he hnew := by
    by_cases hmiddle : e ∈ g'.nodes.keys
    · rw [h'.nameOf_eq hmiddle]
      exact mem_append_left _ (h.newName e hmiddle hnew)
    · exact mem_append_right _ (h'.newName e he hmiddle)
  present name hname := by
    rcases mem_append.1 hname with hname | hname
    · obtain ⟨e, hfinding, heq⟩ := h.present name hname
      exact ⟨e, (h'.isSystemFinding_iff (h.bothExist hboth) hfinding.mem_keys).2 hfinding,
        (h'.nameOf_eq hfinding.mem_keys).trans heq⟩
    · exact h'.present name hname
  settled hsettled e he := by
    refine h.settled (fun name hname => hsettled name (mem_append_left _ hname)) e
      (h'.settled (fun name hname => ?_) e he)
    obtain ⟨hsome, x, hfinding, heq⟩ := hsettled name (mem_append_right _ hname)
    exact ⟨hsome, x, (h.isSystemFinding_iff hboth hfinding.mem_keys).2 hfinding,
      (h.nameOf_eq hfinding.mem_keys).trans heq⟩

lemma wrote_nil (hface : ∀ e, (g'.nodes.get? e).map Node.face = (g.nodes.get? e).map Node.face)
    (hedge : ∀ a t b, t ∉ s.kind.linkTypes → (g'.HasEdge a t b ↔ g.HasEdge a t b)) : Wrote s g g' [] := by
  have hkeys : ∀ e ∈ g'.nodes.keys, e ∈ g.nodes.keys := fun e he => by
    rwa [mem_keys_iff, ← isSome_map (f := Node.face), hface, isSome_map, ← mem_keys_iff] at he
  exact
    { face := fun e _ => hface e
      edge := fun a t b ht _ _ => hedge a t b ht
      new := fun e he hnew => absurd (hkeys e he) hnew
      newName := fun e he hnew => absurd (hkeys e he) hnew
      present := fun name hname => absurd hname not_mem_nil
      settled := fun _ => hkeys }

/-- What is not a finding of the scope stays, with the links that do not start at one and lead to a reference
node. -/
structure Keeps (s : FindingScope) (g g' : Graph) : Prop where
  node : ∀ x n, g.nodes.get? x = some n → ¬ InScope g s x → g'.nodes.get? x = some n
  edge : ∀ r ∈ g.edgeList, r.2.source ∈ g.nodes.keys →
    ¬ InScope g s r.2.source ∨ (∃ n ∈ g.nodes.get? r.2.target, n.label ∉ REFERENCE_LABELS) → r ∈ g'.edgeList

lemma Keeps.refl (s : FindingScope) (g : Graph) : Keeps s g g :=
  ⟨fun _ _ hn _ => hn, fun _ hr _ _ => hr⟩

lemma Keeps.trans (h : Keeps s g g') (h' : Keeps s g' g'') (hext : Extends s g g') (hboth : BothExist s g) :
    Keeps s g g'' where
  node x n hn hscope := by
    have hx := mem_keys_of_get? hn
    exact h'.node x n (h.node x n hn hscope) fun hscope' => hscope ((hext.inScope_iff hboth hx).1 hscope')
  edge r hr hsource hfree := by
    refine h'.edge r (h.edge r hr hsource hfree) (hext.mem_keys hsource) ?_
    refine hfree.imp (fun hscope hscope' => hscope ((hext.inScope_iff hboth hsource).1 hscope')) ?_
    rintro ⟨n, hn, hlabel⟩
    obtain ⟨n', hn', hface⟩ := hext.exists_node hn
    refine ⟨n', hn', ?_⟩
    rw [label_of_face hface]
    exact hlabel

/-! ## The statements on links -/

section

variable {name : Json} {link : PlannedLink} {x : ℕ}

lemma mem_targetNodes {target : Target} (h : x ∈ targetNodes g target) :
    ∃ n, g.nodes.get? x = some n ∧ n.label = target.pair.label ∧ n.key = some target.value := by
  obtain ⟨e, he, rfl⟩ := mem_map.1 h
  obtain ⟨hmem, hnode⟩ := mem_filter.1 he
  exact ⟨e.2, mem_entries_iff.1 hmem, of_decide_eq_true hnode⟩

lemma label_mem_REFERENCE_LABELS (pair : ReferencePair) : pair.label ∈ REFERENCE_LABELS := by
  cases pair <;> decide

lemma wrote_linkToExternalObject (hlink : link.relationName ∈ s.kind.linkTypes) :
    Wrote s g (linkToExternalObject engine s name g link) [] := by
  refine wrote_nil (fun e => ?_) fun a t b ht => ?_
  · unfold linkToExternalObject
    rw [nodes_foldl_mergeEdge]
  · unfold linkToExternalObject
    rw [hasEdge_foldl_mergeEdge]
    exact ⟨fun h => h.elim (fun h => absurd (h.1 ▸ hlink) ht) id, .inr⟩

lemma keeps_linkToExternalObject : Keeps s g (linkToExternalObject engine s name g link) where
  node x n hn _ := by
    unfold linkToExternalObject
    rw [nodes_foldl_mergeEdge]
    exact hn
  edge r hr _ hfree := by
    refine mem_foldl_mergeEdge_of_ne g hr fun hends => ?_
    obtain ⟨horigin, htarget⟩ := pair_mem_product.1 hends.2
    rcases hfree with hscope | ⟨n, hn, hlabel⟩
    · exact hscope (of_decide_eq_true (mem_filter.1 horigin).2).1
    · obtain ⟨n', hn', hlabel', -⟩ := mem_targetNodes htarget
      cases hn.symm.trans hn'
      exact hlabel (hlabel' ▸ label_mem_REFERENCE_LABELS _)

lemma mem_findingLinks {id : ℕ} {key : String} : (id, key) ∈ findingLinks s g e ↔
    ∃ r, (id, r) ∈ g.edgeList ∧ r.source = e ∧ r.type ∈ s.kind.linkTypes ∧ graphLinkKey g r = some key := by
  unfold findingLinks
  rw [mem_filterMap]
  constructor
  · rintro ⟨r, hr, hkey⟩
    split_ifs at hkey with hends
    obtain ⟨key', hkey', heq⟩ := map_eq_some_iff.1 hkey
    cases heq
    exact ⟨r.2, hr, hends.1, hends.2, hkey'⟩
  · rintro ⟨r, hr, hsource, htype, hkey⟩
    exact ⟨(id, r), hr, by rw [if_pos ⟨hsource, htype⟩, hkey]; rfl⟩

lemma label_of_targetKey {n : Node} {key : String} (h : targetKey n = some key) : n.label ∈ REFERENCE_LABELS := by
  obtain ⟨pair, hpair, -⟩ := bind_eq_some_iff.1 h
  have hlabel : pair.label = n.label := by simpa using find?_some hpair
  exact hlabel ▸ label_mem_REFERENCE_LABELS pair

lemma exists_of_mem_doomed {keep : List String} {id : ℕ} (h : id ∈ doomed engine s g keep e) :
    ∃ key, (id, key) ∈ findingLinks s g e := by
  obtain ⟨key, -, hid⟩ := mem_flatMap.1 h
  have hcollected : id ∈ collected s g e key := by
    split_ifs at hid
    · exact mem_of_mem_tail hid
    · exact hid
  obtain ⟨l, hl, hid⟩ := mem_flatten.1 hcollected
  obtain rfl := eq_of_mem_replicate hl
  obtain ⟨p, hp, rfl⟩ := mem_map.1 hid
  exact ⟨p.2, (mem_filter.1 hp).1⟩

variable {paramNames : List Json} {keep : List String}

lemma link_of_pruned {r : ℕ × PropertyGraph.Edge String Properties} (hr : r ∈ g.edgeList)
    (hpruned : r.1 ∈ (namedFindings engine s g paramNames).flatMap (doomed engine s g keep)) :
    InScope g s r.2.source ∧ r.2.type ∈ s.kind.linkTypes ∧
      ∃ n ∈ g.nodes.get? r.2.target, n.label ∈ REFERENCE_LABELS := by
  obtain ⟨e, he, hid⟩ := mem_flatMap.1 hpruned
  obtain ⟨key, hkey⟩ := exists_of_mem_doomed hid
  obtain ⟨r', hr', hsource, htype, hkey⟩ := mem_findingLinks.1 hkey
  obtain rfl : r.2 = r' := edge_unique hr hr'
  obtain ⟨key', hkey', -⟩ := map_eq_some_iff.1 hkey
  obtain ⟨n, hn, hkey'⟩ := bind_eq_some_iff.1 hkey'
  exact ⟨hsource ▸ (of_decide_eq_true (mem_filter.1 he).2).1, htype, n, hn, label_of_targetKey hkey'⟩

lemma wrote_pruneLinks : Wrote s g (pruneLinks engine s g paramNames keep) [] := by
  refine wrote_nil (fun e => rfl) fun a t b ht => ⟨PropertyGraph.HasEdge.of_deleteEdges, ?_⟩
  rintro ⟨r, hr, rfl, rfl, rfl⟩
  exact ⟨r, mem_deleteEdges.2 ⟨hr, decide_eq_false fun hpruned =>
    ht (link_of_pruned hr hpruned).2.1⟩, rfl, rfl, rfl⟩

lemma keeps_pruneLinks : Keeps s g (pruneLinks engine s g paramNames keep) where
  node x n hn _ := hn
  edge r hr _ hfree := by
    refine mem_deleteEdges.2 ⟨hr, decide_eq_false fun hpruned => ?_⟩
    obtain ⟨hscope, -, n, hn, hlabel⟩ := link_of_pruned hr hpruned
    rcases hfree with hfree | ⟨n', hn', hfree⟩
    · exact hfree hscope
    · cases hn'.symm.trans hn
      exact hfree hlabel

lemma face_set {n : Node} {k : String} {v : Value} (hname : k ≠ "name") (hcreatedBy : k ≠ "createdBy") :
    Node.face { n with properties := n.properties.set k v } = n.face := by
  refine Prod.ext rfl (Prod.ext ?_ (decide_eq_decide.2 ?_))
  · exact (get?_set _ _ _ _).trans (if_neg hname)
  · unfold Node.IsSystem
    rw [get?_set, if_neg hcreatedBy]

lemma wrote_flagStale {changed : List ℕ} : Wrote s g (flagStale s g changed) [] := by
  refine wrote_nil (fun e => ?_) fun a t b _ => Iff.rfl
  unfold flagStale
  rw [get?_nodes_updateNodes, Option.map_map]
  refine congrArg (Option.map · (g.nodes.get? e)) (funext fun n => ?_)
  rw [Function.comp_apply]
  split_ifs
  · exact face_set (by decide) (by decide)
  · rfl

lemma keeps_flagStale {changed : List ℕ} : Keeps s g (flagStale s g changed) where
  node x n hn hscope := by
    unfold flagStale
    rw [get?_nodes_updateNodes, hn, map_some, if_neg]
    exact fun h => hscope (of_decide_eq_true h).2.1
  edge r hr _ _ := hr

end

/-! ## The upsert -/

variable {name : Option Value} {f : StorableFinding} {unresolved : Option Value}

lemma get?_setAttributes (attributes : Record String (Option Value)) (p : Properties) (k : String) :
    (setAttributes attributes p).get? k = (attributes.get? k).getD (p.get? k) := by
  refine (get?_foldl_put (f := id) attributes.nodup_keys p k).trans ?_
  rw [Option.map_id]
  rfl

/-- The `SET` clauses change nothing that the patterns read of a finding that they match. -/
lemma face_updateFinding {n : Node} (hname : n.name = f.attributeName) (hsystem : n.IsSystem) :
    (updateFinding f.attributes unresolved n).face = n.face := by
  refine Prod.ext rfl (Prod.ext ?_ (decide_eq_decide.2 ?_))
  · have hwritten : (updateFinding f.attributes unresolved n).name = (f.attributes.get? "name").getD n.name := by
      unfold updateFinding Node.name
      rw [get?_put, if_neg (by decide), get?_set, if_neg (by decide), get?_setAttributes]
    refine hwritten.trans (show _ = n.name from ?_)
    rw [hname]
    unfold StorableFinding.attributeName
    cases f.attributes.get? "name" with
    | none | some o => rfl
  · refine iff_of_true (.inl ?_) hsystem
    unfold updateFinding
    rw [get?_put, if_neg (by decide), get?_set, if_pos rfl]

/-- The `SET` clauses of the upsert. -/
lemma wrote_updateNodes : Wrote s g
    (g.updateNodes (fun e => Matches s g f.attributeName e) (updateFinding f.attributes unresolved)) [] := by
  refine wrote_nil (fun e => ?_) fun a t b _ => Iff.rfl
  rw [get?_nodes_updateNodes, Option.map_map]
  cases hn : g.nodes.get? e with
  | none => rfl
  | some n =>
    refine congrArg some ?_
    rw [Function.comp_apply]
    split_ifs with hmatches
    · obtain ⟨-, hname, -, -, m, hm, -, hsystem⟩ := of_decide_eq_true hmatches
      cases hn.symm.trans hm
      refine face_updateFinding ?_ hsystem
      unfold nameOf at hname
      rwa [hn] at hname
    · rfl

lemma keeps_updateNodes : Keeps s g
    (g.updateNodes (fun e => Matches s g f.attributeName e) (updateFinding f.attributes unresolved)) where
  node x n hn hscope := by
    rw [get?_nodes_updateNodes, hn, map_some, if_neg]
    exact fun h => hscope (of_decide_eq_true h).2.2.inScope
  edge r hr _ _ := hr

lemma get?_nodes_createFinding (s : FindingScope) (g : Graph) (name : Option Value) (e : ℕ) :
    ∃ n : Node, n.label = s.kind.label ∧ n.name = name ∧ n.IsSystem ∧
      (createFinding s g name).nodes.get? e = if g.freshNode = e then some n else g.nodes.get? e := by
  refine ⟨_, rfl, ?_, ?_, get?_nodes_addNode e⟩
  · unfold Node.name
    rw [get?_set, if_neg (by decide), get?_put, if_pos rfl]
  · unfold Node.IsSystem
    rw [get?_set, if_pos rfl]
    exact .inl rfl

lemma hasEdge_createFinding {a b : ℕ} {t : String} : (createFinding s g name).HasEdge a t b ↔
    (g.freshNode = a ∧ s.kind.classRelation = t ∧ s.classId = b) ∨
      (s.componentId = a ∧ s.kind.relation = t ∧ g.freshNode = b) ∨ g.HasEdge a t b := by
  unfold createFinding
  rw [hasEdge_addEdge, hasEdge_addEdge]
  rfl

lemma wrote_ensureFinding : Wrote s g (ensureFinding s g name) [name] := by
  unfold ensureFinding
  split_ifs with hmatch
  · obtain ⟨e, _, -, hname, hfinding⟩ := hmatch
    have hnil : Wrote s g g [] := wrote_nil (fun _ => rfl) fun _ _ _ _ => Iff.rfl
    refine { hnil with
      newName := fun e he hnew => absurd he hnew
      present := fun name' hname' => ?_
      settled := fun _ e he => he }
    exact ⟨e, hfinding, hname.trans (mem_singleton.1 hname').symm⟩
  · have hnode := get?_nodes_createFinding s g name
    have hnew : ∀ e ∈ (createFinding s g name).nodes.keys, e ∉ g.nodes.keys → g.freshNode = e := by
      intro e he hnotMem
      obtain ⟨n, -, -, -, hn⟩ := hnode e
      by_contra hne
      rw [if_neg hne] at hn
      exact hnotMem (mem_keys_iff.2 (hn ▸ mem_keys_iff.1 he))
    have hfinding : IsSystemFinding (createFinding s g name) s g.freshNode := by
      obtain ⟨n, hlabel, -, hsystem, hn⟩ := hnode g.freshNode
      rw [if_pos rfl] at hn
      exact ⟨hasEdge_createFinding.2 (.inr (.inl ⟨rfl, rfl, rfl⟩)),
        hasEdge_createFinding.2 (.inl ⟨rfl, rfl, rfl⟩), n, hn, hlabel, hsystem⟩
    have hname : nameOf (createFinding s g name) g.freshNode = name := by
      obtain ⟨n, -, hname, -, hn⟩ := hnode g.freshNode
      rw [if_pos rfl] at hn
      unfold nameOf
      rw [hn]
      exact hname
    have hold : ∀ e ∈ g.nodes.keys, g.freshNode ≠ e := fun e he heq =>
      g.freshNode_notMem_keys (heq ▸ he)
    exact
      { face := fun e he => by
          obtain ⟨n, -, -, -, hn⟩ := hnode e
          rw [hn, if_neg (hold e he)]
        edge := fun a t b _ ha hb => by
          rw [hasEdge_createFinding]
          exact ⟨fun h => h.elim (fun h => absurd h.1 (hold a ha)) fun h =>
            h.elim (fun h => absurd h.2.2 (hold b hb)) id, fun h => .inr (.inr h)⟩
        new := fun e he hnotMem => hnew e he hnotMem ▸ hfinding
        newName := fun e he hnotMem => by
          rw [← hnew e he hnotMem, hname]
          exact mem_singleton_self name
        present := fun name' hname' => ⟨g.freshNode, hfinding, hname.trans (mem_singleton.1 hname').symm⟩
        settled := fun hsettled => by
          obtain ⟨hsome, e, hfinding, hname⟩ := hsettled name (mem_singleton_self name)
          exact absurd ⟨e, hfinding.mem_keys, hsome, hname, hfinding⟩ hmatch }

lemma keeps_ensureFinding : Keeps s g (ensureFinding s g name) := by
  unfold ensureFinding
  split_ifs
  · exact Keeps.refl s g
  · refine ⟨fun x n hn _ => ?_, fun r hr _ _ => ?_⟩
    · obtain ⟨n', -, -, -, hn'⟩ := get?_nodes_createFinding s g name x
      rw [hn', if_neg fun heq : g.freshNode = x => g.freshNode_notMem_keys (heq ▸ mem_keys_of_get? hn)]
      exact hn
    · exact mem_addEdge.2 (.inr (mem_addEdge.2 (.inr hr)))

lemma wrote_upsertFinding (hboth : BothExist s g) : Wrote s g (upsertFinding s g f unresolved) [f.attributeName] := by
  unfold upsertFinding
  rw [if_pos hboth]
  exact wrote_ensureFinding.trans wrote_updateNodes hboth

lemma keeps_upsertFinding (hboth : BothExist s g) : Keeps s g (upsertFinding s g f unresolved) := by
  unfold upsertFinding
  rw [if_pos hboth]
  exact keeps_ensureFinding.trans keeps_updateNodes wrote_ensureFinding.toExtends hboth

end Findings
