import Dethernety.Foundations.Record

/-!
# Property graphs

A directed multigraph with data on nodes and edges, both under ids. Several edges of one type may run
between two nodes; `HasEdge` asks for any of them. The operations are those of a graph database: adding a
node or an edge, `MERGE` of an edge, deleting edges, and deleting nodes together with their edges.
-/

/-- An edge with its type and its data. -/
structure PropertyGraph.Edge (T D : Type*) where
  source : ℕ
  type : T
  target : ℕ
  data : D
  deriving DecidableEq

/-- Nodes and edges under their ids. -/
structure PropertyGraph (N T D : Type*) where
  nodes : Record ℕ N
  edges : Record ℕ (PropertyGraph.Edge T D)

open List Record

namespace PropertyGraph

variable {N T D : Type*} {g : PropertyGraph N T D}

lemma foldr_max_succ_notMem (l : List ℕ) : l.foldr max 0 + 1 ∉ l := by
  have hle : ∀ k ∈ l, k ≤ l.foldr max 0 := by
    induction l with
    | nil => exact fun k hk => absurd hk not_mem_nil
    | cons a l ih =>
      intro k hk
      rw [foldr_cons]
      rcases mem_cons.1 hk with rfl | hk
      · exact Nat.le_max_left _ _
      · exact Nat.le_trans (ih k hk) (Nat.le_max_right _ _)
  exact fun hmem => Nat.not_succ_le_self _ (hle _ hmem)

/-- An id that no key of a record has. -/
def freshId {V : Type*} (r : Record ℕ V) : ℕ :=
  r.keys.foldr max 0 + 1

lemma freshId_notMem {V : Type*} (r : Record ℕ V) : freshId r ∉ r.keys :=
  foldr_max_succ_notMem r.keys

/-- The edges, with their ids. -/
def edgeList (g : PropertyGraph N T D) : List (ℕ × Edge T D) :=
  g.edges.entries

/-- There is an edge of a type from a node to another. -/
def HasEdge (g : PropertyGraph N T D) (source : ℕ) (type : T) (target : ℕ) : Prop :=
  ∃ e ∈ g.edgeList, e.2.source = source ∧ e.2.type = type ∧ e.2.target = target

instance [DecidableEq T] (source : ℕ) (type : T) (target : ℕ) :
    Decidable (g.HasEdge source type target) :=
  List.decidableBEx _ _

lemma edge_unique {id : ℕ} {e e' : Edge T D} (h : (id, e) ∈ g.edgeList) (h' : (id, e') ∈ g.edgeList) : e = e' :=
  Option.some.inj ((mem_entries_iff.1 h).symm.trans (mem_entries_iff.1 h'))

def addEdge (g : PropertyGraph N T D) (e : Edge T D) : PropertyGraph N T D :=
  { g with edges := g.edges.set (freshId g.edges) e }

/-- Change the data of the edges that satisfy `p`. -/
def updateEdges (g : PropertyGraph N T D) (p : Edge T D → Bool) (f : D → D) : PropertyGraph N T D :=
  { g with
    edges :=
      { entries := g.edgeList.map fun e => (e.1, if p e.2 then { e.2 with data := f e.2.data } else e.2)
        nodup_keys := by
          rw [List.map_map]
          exact g.edges.nodup_keys } }

/-- Delete the edges that satisfy `p`. -/
def deleteEdges (g : PropertyGraph N T D) (p : ℕ × Edge T D → Bool) : PropertyGraph N T D :=
  { g with
    edges :=
      { entries := g.edgeList.filter fun e => !p e
        nodup_keys := (List.filter_sublist.map Prod.fst).nodup g.edges.nodup_keys } }

/-- Delete the nodes with ids that satisfy `p`, and the edges that they have. -/
def detachDelete (g : PropertyGraph N T D) (p : ℕ → Bool) : PropertyGraph N T D :=
  { g.deleteEdges fun e => p e.2.source || p e.2.target with nodes := g.nodes.filterKeys fun id => !p id }

/-- The ids of the nodes and of the ends of the edges. -/
def ids (g : PropertyGraph N T D) : List ℕ :=
  g.nodes.keys ++ g.edgeList.flatMap fun e => [e.2.source, e.2.target]

/-- An id that neither a node nor an end of an edge has. -/
def freshNode (g : PropertyGraph N T D) : ℕ :=
  g.ids.foldr max 0 + 1

/-- A new node, under an id of its own. -/
def addNode (g : PropertyGraph N T D) (n : N) : PropertyGraph N T D :=
  { g with nodes := g.nodes.set g.freshNode n }

/-- Change the nodes with ids that satisfy `p`. -/
def updateNodes (g : PropertyGraph N T D) (p : ℕ → Bool) (f : N → N) : PropertyGraph N T D :=
  { g with nodes := g.nodes.mapValues fun id n => if p id then f n else n }

section

variable {e x : ℕ × Edge T D} {s s' t t' : ℕ} {type type' : T}

lemma mem_addEdge {a : Edge T D} : x ∈ (g.addEdge a).edgeList ↔ x = (freshId g.edges, a) ∨ x ∈ g.edgeList := by
  rw [edgeList, addEdge, entries_set_of_notMem (freshId_notMem g.edges), mem_append,
    mem_singleton, or_comm]
  rfl

lemma hasEdge_addEdge {a : Edge T D} : (g.addEdge a).HasEdge s type t ↔
    (a.source = s ∧ a.type = type ∧ a.target = t) ∨ g.HasEdge s type t := by
  simp only [HasEdge, mem_addEdge, or_and_right, exists_or, exists_eq_left]

lemma mem_deleteEdges {p : ℕ × Edge T D → Bool} : x ∈ (g.deleteEdges p).edgeList ↔ x ∈ g.edgeList ∧ p x = false := by
  rw [edgeList, deleteEdges, mem_filter, Bool.not_eq_true']

lemma HasEdge.of_deleteEdges {p : ℕ × Edge T D → Bool} (h : (g.deleteEdges p).HasEdge s type t) :
    g.HasEdge s type t := by
  obtain ⟨e, he, hends⟩ := h
  exact ⟨e, (mem_deleteEdges.1 he).1, hends⟩

lemma hasEdge_updateEdges {p : Edge T D → Bool} {f : D → D} :
    (g.updateEdges p f).HasEdge s type t ↔ g.HasEdge s type t := by
  have hends : ∀ e : Edge T D, ((if p e then { e with data := f e.data } else e).source = s ∧
      (if p e then { e with data := f e.data } else e).type = type ∧
      (if p e then { e with data := f e.data } else e).target = t) ↔
      (e.source = s ∧ e.type = type ∧ e.target = t) := by
    intro e
    split_ifs <;> exact Iff.rfl
  constructor
  · rintro ⟨x, hx, hxends⟩
    obtain ⟨e, he, rfl⟩ := mem_map.1 hx
    exact ⟨e, he, (hends e.2).1 hxends⟩
  · rintro ⟨e, he, heends⟩
    exact ⟨_, mem_map_of_mem he, (hends e.2).2 heends⟩

lemma mem_detachDelete {p : ℕ → Bool} : x ∈ (g.detachDelete p).edgeList ↔
    x ∈ g.edgeList ∧ p x.2.source = false ∧ p x.2.target = false := by
  rw [← Bool.or_eq_false_iff]
  exact mem_deleteEdges

lemma hasEdge_detachDelete {p : ℕ → Bool} : (g.detachDelete p).HasEdge s type t ↔
    g.HasEdge s type t ∧ p s = false ∧ p t = false := by
  simp only [HasEdge, mem_detachDelete]
  constructor
  · rintro ⟨e, ⟨he, hs, ht⟩, rfl, rfl, rfl⟩
    exact ⟨⟨e, he, rfl, rfl, rfl⟩, hs, ht⟩
  · rintro ⟨⟨e, he, rfl, rfl, rfl⟩, hs, ht⟩
    exact ⟨e, ⟨he, hs, ht⟩, rfl, rfl, rfl⟩

lemma get?_nodes_detachDelete {p : ℕ → Bool} (id : ℕ) :
    (g.detachDelete p).nodes.get? id = if p id then none else g.nodes.get? id := by
  refine (get?_filterKeys g.nodes (fun id => !p id) id).trans ?_
  cases p id <;> rfl

lemma freshNode_notMem (g : PropertyGraph N T D) : g.freshNode ∉ g.ids :=
  foldr_max_succ_notMem g.ids

lemma freshNode_notMem_keys (g : PropertyGraph N T D) : g.freshNode ∉ g.nodes.keys :=
  fun h => g.freshNode_notMem (mem_append_left _ h)

lemma get?_nodes_addNode {n : N} (id : ℕ) :
    (g.addNode n).nodes.get? id = if g.freshNode = id then some n else g.nodes.get? id :=
  get?_set _ _ _ _

lemma get?_nodes_updateNodes {p : ℕ → Bool} {f : N → N} (id : ℕ) :
    (g.updateNodes p f).nodes.get? id = (g.nodes.get? id).map fun n => if p id then f n else n :=
  get?_mapValues _ _ _

end

variable [DecidableEq T] {s s' t t' : ℕ} {type type' : T} {empty : D} {f : D → D}

/-- `MERGE (s)-[r:type]->(t)` and a change of the data of the edges that it matches or creates. -/
def mergeEdge (g : PropertyGraph N T D) (s : ℕ) (type : T) (t : ℕ) (empty : D) (f : D → D) :
    PropertyGraph N T D :=
  if g.HasEdge s type t then
    g.updateEdges (fun e => e.source = s ∧ e.type = type ∧ e.target = t) f
  else g.addEdge ⟨s, type, t, f empty⟩

lemma hasEdge_mergeEdge : (g.mergeEdge s type t empty f).HasEdge s' type' t' ↔
    (s = s' ∧ type = type' ∧ t = t') ∨ g.HasEdge s' type' t' := by
  rw [mergeEdge]
  split_ifs with h
  · rw [hasEdge_updateEdges, iff_or_self]
    rintro ⟨rfl, rfl, rfl⟩
    exact h
  · exact hasEdge_addEdge

/-- A merge gives or keeps to each edge its id and its ends. -/
theorem exists_mem_mergeEdge {x : ℕ × Edge T D} (h : x ∈ g.edgeList) :
    ∃ data, (x.1, { x.2 with data := data }) ∈ (g.mergeEdge s type t empty f).edgeList := by
  rw [mergeEdge]
  split_ifs
  · by_cases hx : x.2.source = s ∧ x.2.type = type ∧ x.2.target = t
    · exact ⟨f x.2.data, mem_map.2 ⟨x, h, by rw [if_pos (decide_eq_true hx)]⟩⟩
    · exact ⟨x.2.data, mem_map.2 ⟨x, h, by rw [if_neg (by simpa using hx)]⟩⟩
  · exact ⟨x.2.data, mem_addEdge.2 (.inr h)⟩

/-- An edge with other ends or another type is left alone. -/
lemma mem_mergeEdge_of_ne {x : ℕ × Edge T D} (h : x ∈ g.edgeList)
    (hne : ¬ (x.2.source = s ∧ x.2.type = type ∧ x.2.target = t)) : x ∈ (g.mergeEdge s type t empty f).edgeList := by
  rw [mergeEdge]
  split_ifs
  · exact mem_map.2 ⟨x, h, by rw [if_neg (by simpa using hne)]⟩
  · exact mem_addEdge.2 (.inr h)

@[simp]
lemma nodes_mergeEdge : (g.mergeEdge s type t empty f).nodes = g.nodes := by
  rw [mergeEdge]
  split_ifs <;> rfl

/-! A merge for each pair of a list. -/

variable {l : List (ℕ × ℕ)}

@[simp]
lemma nodes_foldl_mergeEdge (g : PropertyGraph N T D) :
    (l.foldl (fun g p => g.mergeEdge p.1 type p.2 empty f) g).nodes = g.nodes := by
  induction l generalizing g with
  | nil => rfl
  | cons p l ih => exact (ih _).trans nodes_mergeEdge

lemma hasEdge_foldl_mergeEdge (g : PropertyGraph N T D) :
    (l.foldl (fun g p => g.mergeEdge p.1 type p.2 empty f) g).HasEdge s' type' t' ↔
      (type = type' ∧ (s', t') ∈ l) ∨ g.HasEdge s' type' t' := by
  induction l generalizing g with
  | nil => exact ⟨.inr, fun h => h.elim (fun h => absurd h.2 not_mem_nil) id⟩
  | cons p l ih =>
    rw [foldl_cons, ih, hasEdge_mergeEdge, mem_cons, Prod.ext_iff]
    constructor
    · rintro (⟨htype, hl⟩ | ⟨rfl, htype, rfl⟩ | h)
      · exact .inl ⟨htype, .inr hl⟩
      · exact .inl ⟨htype, .inl ⟨rfl, rfl⟩⟩
      · exact .inr h
    · rintro (⟨htype, ⟨hs, ht⟩ | hl⟩ | h)
      · exact .inr (.inl ⟨hs.symm, htype, ht.symm⟩)
      · exact .inl ⟨htype, hl⟩
      · exact .inr (.inr h)

lemma mem_foldl_mergeEdge_of_ne {x : ℕ × Edge T D} (g : PropertyGraph N T D) (h : x ∈ g.edgeList)
    (hne : ¬ (x.2.type = type ∧ (x.2.source, x.2.target) ∈ l)) :
    x ∈ (l.foldl (fun g p => g.mergeEdge p.1 type p.2 empty f) g).edgeList := by
  induction l generalizing g with
  | nil => exact h
  | cons p l ih =>
    refine ih _ (mem_mergeEdge_of_ne h fun hends => hne ⟨hends.2.1, ?_⟩) fun hends =>
      hne ⟨hends.1, mem_cons_of_mem p hends.2⟩
    rw [hends.1, hends.2.2]
    exact .head _

end PropertyGraph
