import Mathlib.Data.List.Induction
import Dethernety.Foundations.Growth
import Dethernety.Zoning.Inheritance

/-!
# The graph adapter of the threat report

Model of `zoning-adapter.ts`. The adapter makes one object for each boundary of a flat graph and
pushes each object into the list of its parent or of a synthetic root. The objects refer to each other,
so they are a tree only if no chain of parents is cyclic. An object refers to others by key here, and
`toStructure` reads the objects as a tree.
-/

open List Record Nat
open Option (bind_some map_some some some_ne_none)

namespace Zoning

def zoningRootId : String := "__zoning_root__"

def maxNestDepth : ℕ := 50

structure ZoningGraphBoundary where
  id : String
  /-- Ids are UUIDs. -/
  id_ne_empty : id ≠ ""
  id_ne_root : id ≠ zoningRootId
  parentBoundaryId : Option String
  zone : Option Zone

structure ZoningGraphComponent where
  id : String
  id_ne_root : id ≠ zoningRootId
  boundaryId : Option String
  crownJewel : Bool

structure ZoningGraphFlow where
  sourceId : Option String
  targetId : Option String

structure ZoningGraphDataNode where
  id : String
  sensitivity : Option String
  regulatoryFlags : List String
  handledBy : List String

structure ZoningGraphInput where
  boundaries : List ZoningGraphBoundary
  components : List ZoningGraphComponent
  flows : List ZoningGraphFlow
  dataNodes : List ZoningGraphDataNode

section

/-- Push to the list of a key, with a new list where there is none (`setDefault`). -/
def pushTo {α : Type} (r : Record String (List α)) (k : String) (a : α) : Record String (List α) :=
  r.set k ((r.get? k).getD [] ++ [a])

variable (graph : ZoningGraphInput)

def boundaryById : Record String ZoningGraphBoundary :=
  .ofList (graph.boundaries.map fun b => (b.id, b))

/-- The data items of the components and of the boundaries that handle them. -/
structure HandledItems where
  byComponent : Record String (List String)
  byBoundary : Record String (List String)

/-- The inversion of `handledBy`. -/
def handledItems : HandledItems :=
  graph.dataNodes.foldl (fun h d => d.handledBy.foldl (fun h handlerId =>
    if handlerId ∈ graph.components.map ZoningGraphComponent.id then
      { h with byComponent := pushTo h.byComponent handlerId d.id }
    else if handlerId ∈ graph.boundaries.map ZoningGraphBoundary.id then
      { h with byBoundary := pushTo h.byBoundary handlerId d.id }
    else h) h) ⟨∅, ∅⟩

/-- A component as the engine reads it. -/
def structureComponent (c : ZoningGraphComponent) : ComponentData where
  id := c.id
  crownJewel := some c.crownJewel
  dataItemIds := (handledItems graph).byComponent.get? c.id

def componentsByBoundary : Record String (List ComponentData) :=
  graph.components.foldl (fun r c =>
    match c.boundaryId with
    | none => r
    | some boundaryId => pushTo r boundaryId (structureComponent graph c)) ∅

/-- The object of a boundary; `boundaries` has the objects that were pushed to it. -/
structure Shell where
  data : BoundaryData
  components : List ComponentData
  boundaries : List String

/-- The object of a boundary before it is linked. -/
def shellOf (b : ZoningGraphBoundary) : Shell where
  data := {
    id := b.id
    id_ne_empty := b.id_ne_empty
    zone := b.zone
    parentBoundary := none
    dataItemIds := (handledItems graph).byBoundary.get? b.id }
  components := ((componentsByBoundary graph).get? b.id).getD []
  boundaries := []

/-- `shellById` before the boundaries are linked. -/
def shellById : Record String Shell :=
  graph.boundaries.foldl (fun r b => r.set b.id (shellOf graph b)) ∅

/-- `boundaryById.get(id)?.parentBoundaryId ?? null` -/
def parentIdOf (id : String) : Option String :=
  ((boundaryById graph).get? id).bind ZoningGraphBoundary.parentBoundaryId

/-- The loop of `chainIsAcyclicAndBounded` with `n` ancestors left. -/
def chainLoop : ℕ → Option String → List String → Bool
  | _, none, _ => true
  | 0, some _, _ => false
  | n + 1, some cur, seen =>
    if cur ∈ seen then false else chainLoop n (parentIdOf graph cur) (cur :: seen)

def chainIsAcyclicAndBounded (startId : String) : Bool :=
  chainLoop graph maxNestDepth (parentIdOf graph startId) [startId]

/-- The objects while the boundaries are linked. -/
structure Linked where
  shells : Record String Shell
  topLevel : List String

/-- Link one boundary under its parent or under the root. -/
def link (l : Linked) (b : ZoningGraphBoundary) : Linked :=
  match b.parentBoundaryId.bind fun parentId => (l.shells.get? parentId).map (parentId, ·) with
  | some (parentId, parent) =>
    if chainIsAcyclicAndBounded graph b.id then
      { l with
        shells := l.shells.set parentId { parent with boundaries := parent.boundaries ++ [b.id] } }
    else { l with topLevel := l.topLevel ++ [b.id] }
  | none => { l with topLevel := l.topLevel ++ [b.id] }

def linked : Linked :=
  graph.boundaries.foldl (link graph) ⟨shellById graph, []⟩

def zoningRoot : BoundaryData where
  id := zoningRootId
  id_ne_empty := by decide
  zone := none
  parentBoundary := none
  dataItemIds := none

/-- The data of an object; `none` is the root. -/
def objectLabel (l : Linked) : Option String → BoundaryData
  | none => zoningRoot
  | some id => ((l.shells.get? id).map Shell.data).getD zoningRoot

def objectChildren (l : Linked) : Option String → List (Option String)
  | none => l.topLevel.map some
  | some id => ((l.shells.get? id).map fun s => s.boundaries.map some).getD []

/-- The components of an object; the root has none. -/
def objectLeaves (l : Linked) : Option String → Option (List ComponentData)
  | none => none
  | some id => (l.shells.get? id).map Shell.components

/-- The objects of `graphToZoningStructure` as a tree, or `none` where `fuel` levels are not enough. -/
def toStructure (fuel : ℕ) : Option ModelStructure :=
  Nesting.unfold (objectLabel (linked graph)) (objectChildren (linked graph))
    (objectLeaves (linked graph)) fuel none

/-- The data flows of `graphToZoningStructure`. -/
def zoningFlows : List DataFlow :=
  graph.flows.filterMap fun f =>
    match f.sourceId, f.targetId with
    | some source, some target => some ⟨source, target⟩
    | _, _ => none

/-- The data items of `graphToZoningStructure`. -/
def zoningItems : List DataItem :=
  graph.dataNodes.map fun d =>
    ⟨d.id, d.sensitivity.map String.toLower, some d.regulatoryFlags⟩

def effectiveZones (structure' : ModelStructure) : Record String EffectiveZone :=
  let ctx := buildZoningContext structure' (zoningFlows graph) (zoningItems graph)
  ctx.boundariesById.keys.foldl (fun r id =>
    if id = zoningRootId then r
    else r.set id (resolveEffectiveZone id ctx.boundariesById ctx.defaultBoundaryId)) ∅

end

section

variable {graph : ZoningGraphInput}

/-- The ids of all boundaries and components. -/
def graphIds (graph : ZoningGraphInput) : List String :=
  graph.boundaries.map ZoningGraphBoundary.id ++ graph.components.map ZoningGraphComponent.id

lemma nodup_boundaries (hids : (graphIds graph).Nodup) : (graph.boundaries.map ZoningGraphBoundary.id).Nodup :=
  (nodup_append.1 hids).1

variable {b : ZoningGraphBoundary}

lemma get?_boundaryById (hids : (graphIds graph).Nodup)
    (hb : b ∈ graph.boundaries) : (boundaryById graph).get? b.id = some b := by
  rw [boundaryById, Record.ofList, foldl_map]
  exact get?_foldl_set_of_count hb
    (count_eq_one_of_mem (nodup_boundaries hids) (mem_map_of_mem hb)) ∅

lemma parentIdOf_eq (hids : (graphIds graph).Nodup)
    (hb : b ∈ graph.boundaries) : parentIdOf graph b.id = b.parentBoundaryId := by
  rw [parentIdOf, get?_boundaryById hids hb]
  rfl

lemma get?_shellById (hids : (graphIds graph).Nodup)
    (hb : b ∈ graph.boundaries) : (shellById graph).get? b.id = some (shellOf graph b) :=
  get?_foldl_set_of_count hb (count_eq_one_of_mem (nodup_boundaries hids) (mem_map_of_mem hb)) ∅

lemma isSome_get?_shellById {id : String} :
    ((shellById graph).get? id).isSome ↔ id ∈ graph.boundaries.map ZoningGraphBoundary.id := by
  rw [← mem_keys_iff, shellById, mem_keys_foldl_set, keys_empty]
  simp

/-- The parent that a boundary is linked under, if it is not the root. -/
def nestedUnder (graph : ZoningGraphInput) (b : ZoningGraphBoundary) : Option String :=
  b.parentBoundaryId.filter fun parentId =>
    parentId ∈ graph.boundaries.map ZoningGraphBoundary.id ∧ chainIsAcyclicAndBounded graph b.id

lemma link_cases {st : Linked} (b : ZoningGraphBoundary) (hsome : ∀ id, (st.shells.get? id).isSome ↔
      id ∈ graph.boundaries.map ZoningGraphBoundary.id) :
    (nestedUnder graph b = none ∧ link graph st b = { st with topLevel := st.topLevel ++ [b.id] }) ∨
    ∃ parentId parent, nestedUnder graph b = some parentId ∧ st.shells.get? parentId = some parent ∧
      link graph st b = { st with
        shells := st.shells.set parentId { parent with boundaries := parent.boundaries ++ [b.id] } } := by
  unfold link nestedUnder
  cases hparent : b.parentBoundaryId with
  | none => exact .inl ⟨rfl, rfl⟩
  | some parentId =>
    simp only [bind_some, Option.filter_some, ← hsome]
    cases hget : st.shells.get? parentId with
    | none => exact .inl ⟨rfl, rfl⟩
    | some parent =>
      by_cases hchain : chainIsAcyclicAndBounded graph b.id = true
      · exact .inr ⟨parentId, parent, by simp [hchain], hget, by simp [hchain]⟩
      · exact .inl ⟨by simp [hchain], by simp [hchain]⟩

lemma foldl_link (l : List ZoningGraphBoundary) :
    let st := l.foldl (link graph) ⟨shellById graph, []⟩
    st.topLevel = (l.filter fun b => nestedUnder graph b = none).map ZoningGraphBoundary.id ∧
      ∀ id, st.shells.get? id = ((shellById graph).get? id).map fun shell =>
        { shell with boundaries := shell.boundaries ++
            (l.filter fun b => nestedUnder graph b = some id).map ZoningGraphBoundary.id } := by
  induction l using List.reverseRecOn with
  | nil =>
    refine ⟨rfl, fun id => ?_⟩
    simp
  | append_singleton l b ih =>
    obtain ⟨htop, hshells⟩ := ih
    simp only [foldl_append, foldl_cons, foldl_nil, filter_append, map_append]
    -- whether the parent is there does not change on the way
    have hsome : ∀ id, ((l.foldl (link graph) ⟨shellById graph, []⟩).shells.get? id).isSome ↔
        id ∈ graph.boundaries.map ZoningGraphBoundary.id := by
      intro id
      rw [hshells id, Option.isSome_map, isSome_get?_shellById]
    obtain ⟨hnested, hlink⟩ | ⟨parentId, parent, hnested, hget, hlink⟩ := link_cases b hsome
    · rw [hlink]
      refine ⟨?_, fun id => ?_⟩
      · simp [hnested, htop]
      · simp [hnested, hshells id]
    · rw [hlink]
      refine ⟨?_, fun id => ?_⟩
      · simp [hnested, htop]
      · rw [get?_set]
        split_ifs with hid
        · subst hid
          rw [hshells parentId] at hget
          obtain ⟨shell, hshell, rfl⟩ := Option.map_eq_some_iff.1 hget
          simp [hshell, hnested]
        · simp [hshells id, hnested, hid]

lemma mem_of_nestedUnder {id : String}
    (h : nestedUnder graph b = some id) : id ∈ graph.boundaries.map ZoningGraphBoundary.id := by
  have hfilter := (Option.filter_eq_some_iff.1 h).2
  simp only [decide_eq_true_eq] at hfilter
  exact hfilter.1

lemma get?_linked (hids : (graphIds graph).Nodup)
    (hb : b ∈ graph.boundaries) : (linked graph).shells.get? b.id = some { shellOf graph b with
      boundaries := (graph.boundaries.filter fun b' => nestedUnder graph b' = some b.id).map
        ZoningGraphBoundary.id } := by
  rw [linked, (foldl_link graph.boundaries).2 b.id, get?_shellById hids hb]
  rfl

lemma objectChildren_eq (hids : (graphIds graph).Nodup) (k : Option String) :
    objectChildren (linked graph) k = (graph.boundaries.filter fun b => nestedUnder graph b = k).map
      (some ∘ ZoningGraphBoundary.id) := by
  cases k with
  | none =>
    show (linked graph).topLevel.map some = _
    rw [linked, (foldl_link graph.boundaries).1, map_map]
  | some id =>
    rw [objectChildren]
    by_cases hid : id ∈ graph.boundaries.map ZoningGraphBoundary.id
    · obtain ⟨b, hb, rfl⟩ := mem_map.1 hid
      rw [get?_linked hids hb]
      exact map_map
    · have hmissing : (linked graph).shells.get? id = none := by
        rw [linked, (foldl_link graph.boundaries).2 id,
          Option.not_isSome_iff_eq_none.1 fun h => hid (isSome_get?_shellById.1 h)]
        rfl
      have hnone : graph.boundaries.filter (fun b => nestedUnder graph b = some id) = [] :=
        filter_eq_nil_iff.2 fun b _ h => hid (mem_of_nestedUnder (of_decide_eq_true h))
      rw [hmissing, hnone]
      rfl

lemma objectLabel_eq (hids : (graphIds graph).Nodup) (hb : b ∈ graph.boundaries) :
    objectLabel (linked graph) (some b.id) = (shellOf graph b).data := by
  rw [objectLabel, get?_linked hids hb]
  rfl

lemma get?_pushTo {α : Type} (r : Record String (List α)) (k : String) (a : α) (id : String) :
    ((pushTo r k a).get? id).getD [] = (r.get? id).getD [] ++ if k = id then [a] else [] := by
  rw [pushTo, get?_set]
  split_ifs with h
  · rw [h]
    rfl
  · exact (append_nil _).symm

lemma get?_componentsByBoundary (id : String) : ((componentsByBoundary graph).get? id).getD [] =
    (graph.components.filter fun c => c.boundaryId = some id).map (structureComponent graph) := by
  have hwalk : ∀ l : List ZoningGraphComponent, ((l.foldl (fun r c =>
      match c.boundaryId with
      | none => r
      | some boundaryId => pushTo r boundaryId (structureComponent graph c))
      (∅ : Record String (List ComponentData))).get? id).getD [] =
      (l.filter fun c => c.boundaryId = some id).map (structureComponent graph) := by
    intro l
    induction l using List.reverseRecOn with
    | nil => rfl
    | append_singleton l c ih =>
      rw [foldl_append, foldl_cons, foldl_nil, filter_append, map_append]
      cases hc : c.boundaryId with
      | none => simp [ih, hc]
      | some boundaryId =>
        simp only [get?_pushTo, ih]
        by_cases hid : boundaryId = id
        all_goals simp [hc, hid]
  exact hwalk graph.components

lemma objectLeaves_eq (hids : (graphIds graph).Nodup)
    (hb : b ∈ graph.boundaries) : objectLeaves (linked graph) (some b.id) =
      some ((graph.components.filter fun c => c.boundaryId = some b.id).map (structureComponent graph)) := by
  rw [objectLeaves, get?_linked hids hb, ← get?_componentsByBoundary]
  rfl

end

section

variable {graph : ZoningGraphInput}

/-- The ids that are met from `cur` on by following the parents, to the end. -/
inductive ChainFrom (graph : ZoningGraphInput) : Option String → List String → Prop
  | done : ChainFrom graph none []
  | step {id : String} {l : List String} (h : ChainFrom graph (parentIdOf graph id) l) :
    ChainFrom graph (some id) (id :: l)

lemma chainLoop_iff {n : ℕ} {cur : Option String} {seen : List String} :
    chainLoop graph n cur seen = true ↔
      ∃ l, ChainFrom graph cur l ∧ l.Nodup ∧ (∀ id ∈ l, id ∉ seen) ∧ l.length ≤ n := by
  induction n generalizing cur seen with
  | zero =>
    cases cur with
    | none => exact iff_of_true rfl ⟨[], .done, nodup_nil, by simp, Nat.le_refl 0⟩
    | some id =>
      refine iff_of_false Bool.false_ne_true ?_
      rintro ⟨l, hl, -, -, hlength⟩
      cases hl
      exact absurd hlength (Nat.not_succ_le_zero _)
  | succ n ih =>
    cases cur with
    | none => exact iff_of_true rfl ⟨[], .done, nodup_nil, by simp, Nat.zero_le _⟩
    | some id =>
      rw [chainLoop]
      split_ifs with hseen
      · refine iff_of_false not_false ?_
        rintro ⟨l, hl, -, hfresh, -⟩
        cases hl
        exact hfresh id (.head _) hseen
      · rw [ih]
        constructor
        · rintro ⟨l, hl, hnodup, hfresh, hlength⟩
          refine ⟨id :: l, .step hl, nodup_cons.2 ⟨?_, hnodup⟩, ?_, Nat.succ_le_succ hlength⟩
          · exact fun hid => hfresh id hid (.head _)
          · intro x hx
            obtain rfl | hx := mem_cons.1 hx
            · exact hseen
            · exact fun h => hfresh x hx (.tail _ h)
        · rintro ⟨l, hl, hnodup, hfresh, hlength⟩
          cases hl with
          | step hl =>
            obtain ⟨hid, hnodup⟩ := nodup_cons.1 hnodup
            refine ⟨_, hl, hnodup, fun x hx h => ?_, Nat.le_of_succ_le_succ hlength⟩
            obtain rfl | h := mem_cons.1 h
            · exact hid hx
            · exact hfresh x (.tail _ hx) h

/-- The ancestors of a boundary are finitely many, distinct, other than itself and at most 50. -/
def AcyclicAndBounded (graph : ZoningGraphInput) (id : String) : Prop :=
  ∃ l, ChainFrom graph (parentIdOf graph id) l ∧ (id :: l).Nodup ∧ l.length ≤ 50

lemma chainIsAcyclicAndBounded_iff {id : String} :
    chainIsAcyclicAndBounded graph id = true ↔ AcyclicAndBounded graph id := by
  rw [chainIsAcyclicAndBounded, chainLoop_iff]
  refine exists_congr fun l => and_congr_right fun _ => ?_
  rw [nodup_cons]
  constructor
  · rintro ⟨hnodup, hfresh, hlength⟩
    exact ⟨⟨fun hid => hfresh id hid (mem_singleton_self _), hnodup⟩, hlength⟩
  · rintro ⟨⟨hid, hnodup⟩, hlength⟩
    refine ⟨hnodup, fun x hx h => hid ?_, hlength⟩
    rw [← mem_singleton.1 h]
    exact hx

lemma nestedUnder_eq_some_iff {b : ZoningGraphBoundary} {id : String} :
    nestedUnder graph b = some id ↔ b.parentBoundaryId = some id ∧
      id ∈ graph.boundaries.map ZoningGraphBoundary.id ∧ AcyclicAndBounded graph b.id := by
  rw [nestedUnder, Option.filter_eq_some_iff, decide_eq_true_eq, chainIsAcyclicAndBounded_iff]

lemma mem_objectChildren (hids : (graphIds graph).Nodup) {k c : Option String} :
    c ∈ objectChildren (linked graph) k ↔
      ∃ b ∈ graph.boundaries, nestedUnder graph b = k ∧ c = some b.id := by
  rw [objectChildren_eq hids]
  simp only [mem_map, mem_filter, decide_eq_true_eq, Function.comp_apply, and_assoc]
  exact exists_congr fun b => and_congr_right fun _ => and_congr_right fun _ => eq_comm

lemma exists_upTo_of_chainFrom (hids : (graphIds graph).Nodup) {l : List String} :
    ∀ {b : ZoningGraphBoundary}, b ∈ graph.boundaries → ChainFrom graph (parentIdOf graph b.id) l →
      ∃ u, Nesting.UpTo (objectChildren (linked graph)) none (some b.id) u ∧ u.length ≤ l.length + 1 := by
  induction l with
  | nil =>
    intro b hb hl
    have hparent : b.parentBoundaryId = none := by
      rw [← parentIdOf_eq hids hb]
      generalize parentIdOf graph b.id = o at hl
      cases hl
      rfl
    have hnested : nestedUnder graph b = none := by
      rw [nestedUnder, hparent]
      rfl
    exact ⟨[none], .step ((mem_objectChildren hids).2 ⟨b, hb, hnested, rfl⟩) .top, Nat.le_refl _⟩
  | cons id l ih =>
    intro b hb hl
    cases hnested : nestedUnder graph b with
    | none =>
      exact ⟨[none], .step ((mem_objectChildren hids).2 ⟨b, hb, hnested, rfl⟩) .top,
        Nat.succ_le_succ (Nat.zero_le _)⟩
    | some parentId =>
      obtain ⟨hparent, hmem, -⟩ := nestedUnder_eq_some_iff.1 hnested
      obtain ⟨parent, hparentMem, rfl⟩ := mem_map.1 hmem
      rw [parentIdOf_eq hids hb, hparent] at hl
      cases hl with
      | step hl =>
        obtain ⟨u, hu, hlength⟩ := ih hparentMem hl
        exact ⟨some parent.id :: u, .step ((mem_objectChildren hids).2 ⟨b, hb, hnested, rfl⟩) hu,
          Nat.succ_le_succ hlength⟩

lemma exists_upTo (hids : (graphIds graph).Nodup) {b : ZoningGraphBoundary} (hb : b ∈ graph.boundaries) :
    ∃ u, Nesting.UpTo (objectChildren (linked graph)) none (some b.id) u ∧ u.length ≤ 51 := by
  cases hnested : nestedUnder graph b with
  | none =>
    exact ⟨[none], .step ((mem_objectChildren hids).2 ⟨b, hb, hnested, rfl⟩) .top, by decide⟩
  | some parentId =>
    obtain ⟨-, -, l, hl, -, hlength⟩ := nestedUnder_eq_some_iff.1 hnested
    obtain ⟨u, hu, hulength⟩ := exists_upTo_of_chainFrom hids hb hl
    exact ⟨u, hu, by omega⟩

def objectUp (graph : ZoningGraphInput) (k : Option String) : Option (Option String) :=
  k.bind fun id => ((boundaryById graph).get? id).map (nestedUnder graph)

lemma rooted_objects (hids : (graphIds graph).Nodup) :
    Nesting.Rooted (objectChildren (linked graph)) (objectUp graph) none 51 := by
  have hup : ∀ k, ∀ c ∈ objectChildren (linked graph) k, objectUp graph c = some k := by
    intro k c hc
    obtain ⟨b, hb, hnested, rfl⟩ := (mem_objectChildren hids).1 hc
    rw [objectUp, bind_some, get?_boundaryById hids hb, map_some, hnested]
  have hreached : ∀ k, objectChildren (linked graph) k ≠ [] →
      ∃ l, Nesting.UpTo (objectChildren (linked graph)) none k l := by
    intro k hk
    obtain ⟨c, hc⟩ := exists_mem_of_ne_nil _ hk
    obtain ⟨b, _, hnested, -⟩ := (mem_objectChildren hids).1 hc
    cases k with
    | none => exact ⟨[], .top⟩
    | some id =>
      obtain ⟨parent, hparent, rfl⟩ := mem_map.1 (mem_of_nestedUnder hnested)
      obtain ⟨u, hu, -⟩ := exists_upTo hids hparent
      exact ⟨u, hu⟩
  have hnodup : ∀ k, (objectChildren (linked graph) k).Nodup := by
    intro k
    rw [objectChildren_eq hids, ← map_map]
    refine List.Nodup.map (fun _ _ h => some.inj h) ?_
    exact (filter_sublist.map ZoningGraphBoundary.id).nodup (nodup_boundaries hids)
  refine ⟨hup, rfl, hnodup, hreached, fun k l hl => ?_⟩
  cases hl with
  | top => exact zero_le _
  | step hx hrest =>
    obtain ⟨b, hb, -, rfl⟩ := (mem_objectChildren hids).1 hx
    obtain ⟨u, hu, hlength⟩ := exists_upTo hids hb
    rw [Nesting.UpTo.unique hup rfl (.step hx hrest) hu]
    exact hlength

end

section

variable {graph : ZoningGraphInput}

def zoningTree (graph : ZoningGraphInput) : ModelStructure :=
  Nesting.grow (objectLabel (linked graph)) (objectChildren (linked graph))
    (objectLeaves (linked graph)) 51 none

section

variable (hids : (graphIds graph).Nodup)
include hids

lemma toStructure_eq {fuel : ℕ} (hfuel : 51 < fuel) :
    toStructure graph fuel = some (zoningTree graph) :=
  (rooted_objects hids).unfold_eq hfuel

/-- The keys of the tree: the root and every boundary, once. -/
lemma growKeys_perm :
    (Nesting.growKeys (objectChildren (linked graph)) 51 none).Perm
      (none :: graph.boundaries.map (some ∘ ZoningGraphBoundary.id)) := by
  have hnodup : (none :: graph.boundaries.map (some ∘ ZoningGraphBoundary.id)).Nodup := by
    refine nodup_cons.2 ⟨by simp, ?_⟩
    rw [← map_map]
    exact (nodup_boundaries hids).map fun _ _ h => some.inj h
  refine (perm_ext_iff_of_nodup ((rooted_objects hids).nodup_growKeys 51) hnodup).2 fun k => ?_
  rw [(rooted_objects hids).mem_growKeys, mem_cons, mem_map]
  constructor
  · rintro ⟨l, hl⟩
    cases hl with
    | top => exact .inl rfl
    | step hx =>
      obtain ⟨b, hb, -, rfl⟩ := (mem_objectChildren hids).1 hx
      exact .inr ⟨b, hb, rfl⟩
  · rintro (rfl | ⟨b, hb, rfl⟩)
    · exact ⟨[], .top⟩
    · obtain ⟨u, hu, -⟩ := exists_upTo hids hb
      exact ⟨u, hu⟩

/-- The elements of the tree: the root, and every boundary with its components. -/
lemma elements_perm :
    (zoningTree graph).elements.Perm (.inl zoningRoot :: graph.boundaries.flatMap fun b =>
      .inl (shellOf graph b).data :: (graph.components.filter fun c => c.boundaryId = some b.id).map
        (.inr ∘ structureComponent graph)) := by
  rw [zoningTree, Nesting.elements_grow]
  refine ((growKeys_perm hids).flatMap_right _).trans ?_
  rw [flatMap_cons, flatMap_map]
  refine List.Perm.cons _ (List.Perm.of_eq (flatMap_congr fun b hb => ?_))
  rw [Function.comp_apply, objectLabel_eq hids hb, objectLeaves_eq hids hb, Option.getD_some,
    map_map]

lemma nodup_ids_zoningTree : (ids (zoningTree graph)).Nodup := by
  refine ((elements_perm hids).map elementId).nodup_iff.2 ?_
  obtain ⟨hboundaries, hcomponents, hdisjoint⟩ := nodup_append.1 hids
  have hsame : ∀ b : ZoningGraphBoundary,
      (Sum.inl (shellOf graph b).data :: (graph.components.filter fun c =>
        c.boundaryId = some b.id).map (Sum.inr ∘ structureComponent graph)).map elementId =
      b.id :: (graph.components.filter fun c => c.boundaryId = some b.id).map
        ZoningGraphComponent.id := by
    intro b
    rw [map_cons, map_map]
    rfl
  rw [map_cons, map_flatMap]
  simp only [hsame]
  refine nodup_cons.2 ⟨fun hroot => ?_, nodup_flatMap.2 ⟨fun b hb => ?_, ?_⟩⟩
  · obtain ⟨b, -, hroot⟩ := mem_flatMap.1 hroot
    obtain hroot | hroot := mem_cons.1 hroot
    · exact b.id_ne_root hroot.symm
    · obtain ⟨c, -, hc⟩ := mem_map.1 hroot
      exact c.id_ne_root hc
  · refine nodup_cons.2 ⟨fun hmem => ?_, ?_⟩
    · obtain ⟨c, hc, hid⟩ := mem_map.1 hmem
      exact hdisjoint b.id (mem_map_of_mem hb) c.id (mem_map_of_mem (mem_filter.1 hc).1) hid.symm
    · exact (filter_sublist.map ZoningGraphComponent.id).nodup hcomponents
  · refine (pairwise_map.1 hboundaries).imp_of_mem ?_
    intro b b' hb hb' hne x hx hx'
    obtain rfl | hx := mem_cons.1 hx
    · obtain hx' | hx' := mem_cons.1 hx'
      · exact hne hx'
      · obtain ⟨c, hc, hid⟩ := mem_map.1 hx'
        exact hdisjoint b.id (mem_map_of_mem hb) c.id (mem_map_of_mem (mem_filter.1 hc).1) hid.symm
    · obtain ⟨c, hc, rfl⟩ := mem_map.1 hx
      obtain ⟨hcmem, hboundary⟩ := mem_filter.1 hc
      obtain hx' | hx' := mem_cons.1 hx'
      · exact hdisjoint b'.id (mem_map_of_mem hb') c.id (mem_map_of_mem hcmem) hx'.symm
      · -- a component is in one boundary
        obtain ⟨c', hc', hid⟩ := mem_map.1 hx'
        obtain ⟨hcmem', hboundary'⟩ := mem_filter.1 hc'
        obtain rfl := inj_on_of_nodup_map hcomponents hcmem' hcmem hid
        have heq := (of_decide_eq_true hboundary).symm.trans (of_decide_eq_true hboundary')
        exact hne (some.inj heq)

end

variable {b : ZoningGraphBoundary}

variable (hids : (graphIds graph).Nodup)
include hids

lemma mem_chains_zoningTree (hb : b ∈ graph.boundaries) {u : List (Option String)}
    (hu : Nesting.UpTo (objectChildren (linked graph)) none (some b.id) u) :
    ((shellOf graph b).data, u.map (objectLabel (linked graph))) ∈ (zoningTree graph).chains [] := by
  have hchain : (objectLabel (linked graph) (some b.id), u.map (objectLabel (linked graph)) ++ []) ∈
      (zoningTree graph).chains [] :=
    Nesting.chains_grow hu ((rooted_objects hids).length_le _ _ hu) []
  rwa [objectLabel_eq hids hb, append_nil] at hchain

lemma mem_links_zoningTree (hb : b ∈ graph.boundaries) :
    (objectLabel (linked graph) (nestedUnder graph b), .inl (shellOf graph b).data) ∈ (zoningTree graph).links := by
  obtain ⟨u, hu, -⟩ := exists_upTo hids hb
  have hchain := mem_chains_zoningTree hids hb hu
  cases hu with
  | step hx hrest =>
    obtain ⟨b', hb', hnested, heq⟩ := (mem_objectChildren hids).1 hx
    obtain rfl := inj_on_of_nodup_map (nodup_boundaries hids) hb' hb (some.inj heq).symm
    obtain hroot | ⟨a, rest, henclosing, hlink, -⟩ := Nesting.chains_cases hchain
    · exact absurd (congrArg Prod.snd hroot) (cons_ne_nil _ _)
    · cases henclosing
      rw [hnested]
      exact hlink

lemma id_eq_of_mem_links (hb : b ∈ graph.boundaries) {a : BoundaryData}
    (h : (a, .inl (shellOf graph b).data) ∈ (zoningTree graph).links) :
    a.id = (objectLabel (linked graph) (nestedUnder graph b)).id := by
  have hparent := parentOf_of_mem_links (nodup_ids_zoningTree hids) h
  have hparent' := parentOf_of_mem_links (nodup_ids_zoningTree hids) (mem_links_zoningTree hids hb)
  exact some.inj (hparent.symm.trans hparent')

lemma mem_links_iff {b p : ZoningGraphBoundary}
    (hb : b ∈ graph.boundaries) (hp : p ∈ graph.boundaries) :
    ((shellOf graph p).data, .inl (shellOf graph b).data) ∈ (zoningTree graph).links ↔
      b.parentBoundaryId = some p.id ∧ AcyclicAndBounded graph b.id := by
  constructor
  · intro h
    have hid : p.id = _ := id_eq_of_mem_links hids hb h
    cases hnested : nestedUnder graph b with
    | none =>
      rw [hnested] at hid
      exact absurd hid p.id_ne_root
    | some parentId =>
      obtain ⟨hparent, hmem, hchain⟩ := nestedUnder_eq_some_iff.1 hnested
      obtain ⟨parent, hparentMem, rfl⟩ := mem_map.1 hmem
      rw [hnested, objectLabel_eq hids hparentMem] at hid
      rw [hparent, show p.id = parent.id from hid]
      exact ⟨rfl, hchain⟩
  · rintro ⟨hparent, hchain⟩
    have hnested : nestedUnder graph b = some p.id :=
      nestedUnder_eq_some_iff.2 ⟨hparent, mem_map_of_mem hp, hchain⟩
    have hlink := mem_links_zoningTree hids hb
    rwa [hnested, objectLabel_eq hids hp] at hlink

lemma mem_links_root_iff (hb : b ∈ graph.boundaries) :
    (zoningRoot, .inl (shellOf graph b).data) ∈ (zoningTree graph).links ↔
      ¬ ∃ p ∈ graph.boundaries, b.parentBoundaryId = some p.id ∧ AcyclicAndBounded graph b.id := by
  cases hnested : nestedUnder graph b with
  | none =>
    have hlink := mem_links_zoningTree hids hb
    rw [hnested] at hlink
    refine iff_of_true hlink ?_
    rintro ⟨p, hp, hparent, hchain⟩
    rw [nestedUnder_eq_some_iff.2 ⟨hparent, mem_map_of_mem hp, hchain⟩] at hnested
    cases hnested
  | some parentId =>
    obtain ⟨hparent, hmem, hchain⟩ := nestedUnder_eq_some_iff.1 hnested
    obtain ⟨parent, hparentMem, rfl⟩ := mem_map.1 hmem
    refine iff_of_false (fun h => ?_) (not_not.2 ⟨parent, hparentMem, hparent, hchain⟩)
    have hid := id_eq_of_mem_links hids hb h
    rw [hnested, objectLabel_eq hids hparentMem] at hid
    exact parent.id_ne_root hid.symm

/-- The containers of the tree: the root and every boundary, once. -/
lemma nodes_perm : (zoningTree graph).nodes.Perm
    (zoningRoot :: graph.boundaries.map fun b => (shellOf graph b).data) := by
  refine ((elements_perm hids).filterMap Sum.getLeft?).trans (List.Perm.of_eq ?_)
  rw [filterMap_cons]
  refine congrArg (zoningRoot :: ·) ?_
  induction graph.boundaries with
  | nil => rfl
  | cons b l ih =>
    rw [flatMap_cons, filterMap_append, ih, map_cons, filterMap_cons, filterMap_map]
    simp

lemma nodup_leaves : (zoningTree graph).leaves.Nodup := by
  have helements : (zoningTree graph).elements.Nodup :=
    List.Nodup.of_map elementId (nodup_ids_zoningTree hids)
  refine helements.filterMap fun e e' c hc hc' => ?_
  rw [Sum.getRight?_eq_some_iff.1 hc, Sum.getRight?_eq_some_iff.1 hc']

end

section

variable {graph : ZoningGraphInput}

/-- `l` are the boundaries around `b` by its parent ids, to a boundary without a parent id. -/
inductive ResolvedChain (graph : ZoningGraphInput) :
    ZoningGraphBoundary → List ZoningGraphBoundary → Prop
  | top {b : ZoningGraphBoundary} (h : b.parentBoundaryId = none) : ResolvedChain graph b []
  | step {b p : ZoningGraphBoundary} {l : List ZoningGraphBoundary} (hp : p ∈ graph.boundaries)
      (h : b.parentBoundaryId = some p.id) (hl : ResolvedChain graph p l) :
      ResolvedChain graph b (p :: l)

/-- The zone of the first boundary of a list that declares one. -/
def nearestZone (l : List ZoningGraphBoundary) : Option Zone :=
  l.findSome? ZoningGraphBoundary.zone

variable {b : ZoningGraphBoundary} {l : List ZoningGraphBoundary} {cur : Option String}

lemma chainFrom_of_resolvedChain (hids : (graphIds graph).Nodup) (hb : b ∈ graph.boundaries)
    (h : ResolvedChain graph b l) :
    ChainFrom graph (parentIdOf graph b.id) (l.map ZoningGraphBoundary.id) := by
  induction h with
  | top hparent =>
    rw [parentIdOf_eq hids hb, hparent]
    exact .done
  | step hp hparent _ ih =>
    rw [parentIdOf_eq hids hb, hparent]
    exact .step (ih hp)

lemma ChainFrom.unique {l l' : List String} (h : ChainFrom graph cur l) (h' : ChainFrom graph cur l') : l = l' := by
  induction h generalizing l' with
  | done =>
    cases h'
    rfl
  | step _ ih =>
    cases h' with
    | step h' => rw [ih h']

lemma ChainFrom.suffix {l : List String} (h : ChainFrom graph cur l) {id : String} (hid : id ∈ l) :
    ∃ l', ChainFrom graph (some id) (id :: l') ∧ l'.length < l.length := by
  induction h with
  | done => cases hid
  | @step x l h ih =>
    obtain rfl | hid := mem_cons.1 hid
    · exact ⟨l, .step h, lt_succ_self _⟩
    · obtain ⟨l', hl', hlength⟩ := ih hid
      exact ⟨l', hl', lt_succ_of_lt hlength⟩

lemma ChainFrom.nodup {l : List String} (h : ChainFrom graph cur l) : l.Nodup := by
  induction h with
  | done => exact nodup_nil
  | @step x l h ih =>
    refine nodup_cons.2 ⟨fun hx => ?_, ih⟩
    obtain ⟨l', hl', hlength⟩ := h.suffix hx
    have heq := ChainFrom.unique (.step h) hl'
    rw [(List.cons.inj heq).2] at hlength
    exact Nat.lt_irrefl _ hlength

lemma upTo_of_resolvedChain (hids : (graphIds graph).Nodup) (hb : b ∈ graph.boundaries) (h : ResolvedChain graph b l)
    (hlength : l.length ≤ 50) : Nesting.UpTo (objectChildren (linked graph)) none (some b.id)
      (l.map (some ∘ ZoningGraphBoundary.id) ++ [none]) := by
  have hchain := chainFrom_of_resolvedChain hids hb h
  induction h with
  | @top b hparent =>
    have hnested : nestedUnder graph b = none := by
      rw [nestedUnder, hparent]
      rfl
    exact .step ((mem_objectChildren hids).2 ⟨b, hb, hnested, rfl⟩) .top
  | @step b p l hp hparent hl ih =>
    have hbounded : AcyclicAndBounded graph b.id :=
      ⟨_, hchain, (ChainFrom.step hchain).nodup, by rw [length_map]; exact hlength⟩
    have hnested := nestedUnder_eq_some_iff.2 ⟨hparent, mem_map_of_mem hp, hbounded⟩
    exact .step ((mem_objectChildren hids).2 ⟨b, hb, hnested, rfl⟩)
      (ih hp (le_of_succ_le hlength) (chainFrom_of_resolvedChain hids hp hl))

lemma zone_of_nearest (boundaryId : String) (l : List BoundaryData) :
    (nearest boundaryId l).map EffectiveZone.zone = l.findSome? BoundaryData.zone := by
  induction l with
  | nil => rfl
  | cons a l ih =>
    rw [nearest, findSome?_cons, findSome?_cons]
    cases a.zone with
    | none => exact ih
    | some zone =>
      simp only [map_some, found]
      split_ifs
      all_goals rfl

/-- The effective zone is that of the nearest declaring boundary among the first 50. -/
lemma zone_resolveEffectiveZone (hids : (graphIds graph).Nodup) (flows : List DataFlow) (dataItems : List DataItem)
    (hb : b ∈ graph.boundaries) (h : ResolvedChain graph b l) (hlength : l.length ≤ 50) :
    (resolveEffectiveZone b.id
        (buildZoningContext (zoningTree graph) flows dataItems).boundariesById (zoningTree graph).data.id).zone =
      (nearestZone ((b :: l).take 50)).getD .internal := by
  have hmem : ∀ p ∈ l, p ∈ graph.boundaries := by
    clear hlength
    induction h with
    | top => exact fun p hp => absurd hp not_mem_nil
    | step hp _ _ ih =>
      intro q hq
      obtain rfl | hq := mem_cons.1 hq
      · exact hp
      · exact ih hp q hq
  have hchain := mem_chains_zoningTree hids hb (upTo_of_resolvedChain hids hb h hlength)
  have hlabels : (l.map (some ∘ ZoningGraphBoundary.id) ++ [none]).map (objectLabel (linked graph)) =
      l.map (fun p => (shellOf graph p).data) ++ [zoningRoot] := by
    rw [map_append, map_map]
    refine congrArg (· ++ [zoningRoot]) (map_congr_left fun p hp => ?_)
    exact objectLabel_eq hids (hmem p hp)
  rw [hlabels] at hchain
  have hdetour : detour (zoningTree graph) ((shellOf graph b).data ::
      (l.map (fun p => (shellOf graph p).data) ++ [zoningRoot])) = [] := by
    have hfind : ((zoningTree graph).chains []).find?
        (fun p => some p.1.id = (zoningTree graph).data.parentBoundary) = none :=
      find?_eq_none.2 fun p _ hp => by cases of_decide_eq_true hp
    rw [detour, hfind]
  have hresolve := resolveEffectiveZone_eq_nearest flows dataItems (nodup_ids_zoningTree hids) hchain
  rw [hdetour, take_nil] at hresolve
  -- the root declares no zone
  have hroot : ∀ n, ([zoningRoot].take n).findSome? BoundaryData.zone = none := by
    intro n
    cases n with
    | zero => rfl
    | succ n => simp [zoningRoot]
  have hzones : (((shellOf graph b).data :: (l.map (fun p => (shellOf graph p).data) ++
      [zoningRoot])).take maxDepth).findSome? BoundaryData.zone = nearestZone ((b :: l).take 50) := by
    rw [← cons_append, ← map_cons (f := fun p => (shellOf graph p).data),
      take_append, findSome?_append, hroot, Option.or_none, ← map_take,
      findSome?_map]
    rfl
  have hzone := zone_of_nearest (shellOf graph b).data.id (((shellOf graph b).data ::
    (l.map (fun p => (shellOf graph p).data) ++ [zoningRoot])).take maxDepth)
  rw [hzones] at hzone
  rw [show b.id = (shellOf graph b).data.id from rfl, hresolve, ← hzone]
  cases nearest (shellOf graph b).data.id (((shellOf graph b).data ::
      (l.map (fun p => (shellOf graph p).data) ++ [zoningRoot])).take maxDepth) with
  | none | some e => rfl

lemma get?_effectiveZones (hids : (graphIds graph).Nodup)
    (hb : b ∈ graph.boundaries) : (effectiveZones graph (zoningTree graph)).get? b.id = some (resolveEffectiveZone b.id
        (buildZoningContext (zoningTree graph) (zoningFlows graph) (zoningItems graph)).boundariesById
        (zoningTree graph).data.id) := by
  have hwalk : ∀ {α : Type} (f : String → α) (l : List String) (r : Record String α),
      b.id ∈ l ∨ r.get? b.id = some (f b.id) →
      (l.foldl (fun r id => if id = zoningRootId then r else r.set id (f id)) r).get? b.id =
        some (f b.id) := by
    intro α f l
    induction l with
    | nil =>
      rintro r (hmem | hget)
      · cases hmem
      · exact hget
    | cons id l ih =>
      intro r h
      refine ih _ ?_
      beta_reduce
      by_cases hid : b.id = id
      · subst hid
        rw [if_neg b.id_ne_root, get?_set, if_pos rfl]
        exact .inr rfl
      · refine (h.imp_left fun hmem => (mem_cons.1 hmem).resolve_left hid).imp_right fun hget => ?_
        split_ifs
        · exact hget
        · rw [get?_set, if_neg (Ne.symm hid)]
          exact hget
  refine hwalk _ _ ∅ (.inl ?_)
  rw [mem_keys_iff]
  have hnode : (shellOf graph b).data ∈ (zoningTree graph).nodes := by
    rw [Nesting.mem_nodes, (elements_perm hids).mem_iff]
    exact .tail _ (mem_flatMap.2 ⟨b, hb, .head _⟩)
  rw [show b.id = (shellOf graph b).data.id from rfl,
    get?_boundariesById (nodup_ids_zoningTree hids) hnode]
  rfl

/-- The adapter keeps the model. Its objects are a finite tree with every boundary once and every
component once in its boundary; a boundary is in its parent exactly when that is there and the chain of
parents is acyclic and within 50, and in the root otherwise. The effective zone of a boundary whose
parents are all there is the nearest declared one, unless that is the 50th ancestor's. -/
theorem graphToZoningStructure_keeps_model (graph : ZoningGraphInput)
    (hids : (graphIds graph).Nodup) :
    ∃ t : ModelStructure, (∀ fuel, 51 < fuel → toStructure graph fuel = some t) ∧
      t.data = zoningRoot ∧
      t.nodes.Perm (zoningRoot :: graph.boundaries.map fun b => (shellOf graph b).data) ∧
      (∀ c ∈ graph.components, ∀ b ∈ graph.boundaries, c.boundaryId = some b.id →
        t.leaves.count (structureComponent graph c) = 1 ∧
          ((shellOf graph b).data, .inr (structureComponent graph c)) ∈ t.links) ∧
      (∀ b ∈ graph.boundaries, ∀ p ∈ graph.boundaries,
        (((shellOf graph p).data, .inl (shellOf graph b).data) ∈ t.links ↔
          b.parentBoundaryId = some p.id ∧ AcyclicAndBounded graph b.id)) ∧
      (∀ b ∈ graph.boundaries,
        ((zoningRoot, .inl (shellOf graph b).data) ∈ t.links ↔
          ¬ ∃ p ∈ graph.boundaries, b.parentBoundaryId = some p.id ∧
            AcyclicAndBounded graph b.id)) ∧
      ∀ b ∈ graph.boundaries, ∀ l, ResolvedChain graph b l → l.length ≤ 50 →
        ∃ e, (effectiveZones graph t).get? b.id = some e ∧
          ∀ z, nearestZone (b :: l) = some z →
            (e.zone = z ↔ (∃ a ∈ (b :: l).take 50, a.zone ≠ none) ∨ z = .internal) := by
  refine ⟨zoningTree graph, fun fuel hfuel => toStructure_eq hids hfuel, rfl, ?_, ?_,
    fun b hb p hp => mem_links_iff hids hb hp, fun b hb => mem_links_root_iff hids hb, ?_⟩
  · exact nodes_perm hids
  · intro c hc b hb hboundary
    have hleaf : structureComponent graph c ∈ (zoningTree graph).leaves := by
      rw [Nesting.mem_leaves, (elements_perm hids).mem_iff]
      refine .tail _ (mem_flatMap.2 ⟨b, hb, mem_cons_of_mem _ ?_⟩)
      exact mem_map_of_mem (mem_filter.2 ⟨hc, decide_eq_true hboundary⟩)
    refine ⟨count_eq_one_of_mem (nodup_leaves hids) hleaf, ?_⟩
    refine Nesting.leaf_mem_links_grow.2 ⟨some b.id, ?_, objectLabel_eq hids hb, ?_⟩
    · rw [(growKeys_perm hids).mem_iff]
      exact mem_cons_of_mem _ (mem_map_of_mem hb)
    · rw [objectLeaves_eq hids hb]
      exact mem_map_of_mem (mem_filter.2 ⟨hc, decide_eq_true hboundary⟩)
  · intro b hb l hl hlength
    refine ⟨_, get?_effectiveZones hids hb, fun z hz => ?_⟩
    rw [zone_resolveEffectiveZone hids _ _ hb hl hlength]
    cases hfirst : nearestZone ((b :: l).take 50) with
    | some z' =>
      -- the nearest of the first 50 is the nearest of all
      have hsame : nearestZone (b :: l) = some z' := by
        rw [nearestZone, ← take_append_drop 50 (b :: l), findSome?_append,
          show ((b :: l).take 50).findSome? ZoningGraphBoundary.zone = some z' from hfirst]
        rfl
      obtain ⟨a, ha, hzone⟩ := exists_of_findSome?_eq_some hfirst
      refine iff_of_true (some.inj (hsame.symm.trans hz)) (.inl ⟨a, ha, ?_⟩)
      rw [hzone]
      exact some_ne_none _
    | none =>
      have hnone : ¬ ∃ a ∈ (b :: l).take 50, a.zone ≠ none :=
        fun ⟨a, ha, hne⟩ => hne (findSome?_eq_none_iff.1 hfirst a ha)
      rw [or_iff_right hnone, Option.getD_none]
      exact eq_comm

end

/-- A boundary in the next one, up to the 50th, which is public. -/
def rung (n : ℕ) : ZoningGraphBoundary where
  id := toString n ++ "th rung"
  id_ne_empty h := by
    have hlength : (toString n).length + 7 = 0 := by
      rw [show 7 = "th rung".length by decide, ← String.length_append, h]
      rfl
    omega
  id_ne_root h := by
    have hlast := congrArg (fun s => s.toList.getLast?) h
    simp [String.toList_append, zoningRootId] at hlast
  parentBoundaryId := if n < 50 then some (toString (n + 1) ++ "th rung") else none
  zone := if n = 50 then some .publicZone else none

/-- 51 boundaries, one in the other. -/
def ladder : ZoningGraphInput where
  boundaries := (List.range 51).map rung
  components := []
  flows := []
  dataNodes := []

lemma resolvedChain_ladder {n : ℕ} (hn : n ≤ 50) :
    ResolvedChain ladder (rung n) ((List.range' (n + 1) (50 - n)).map rung) := by
  induction hk : 50 - n generalizing n with
  | zero =>
    have hlast : ¬ n < 50 := by omega
    exact .top (if_neg hlast)
  | succ k ih =>
    have hlt : n < 50 := by omega
    rw [range'_succ, map_cons]
    refine .step (mem_map_of_mem (mem_range.2 (by omega))) (if_pos hlt) ?_
    exact ih (by omega) (by omega)

/-- The zone of the 50th ancestor is not inherited. -/
theorem ladder_zone_lost :
    ∃ l, ResolvedChain ladder (rung 0) l ∧ l.length = 50 ∧
      nearestZone (rung 0 :: l) = some .publicZone ∧
      ∃ t, (∀ fuel, 51 < fuel → toStructure ladder fuel = some t) ∧
        ((effectiveZones ladder t).get? (rung 0).id).map EffectiveZone.zone = some .internal := by
  have hids : (graphIds ladder).Nodup := by decide +kernel
  have hmem : rung 0 ∈ ladder.boundaries := mem_map_of_mem (mem_range.2 (by decide))
  have hchain := resolvedChain_ladder (zero_le 50)
  refine ⟨_, hchain, by decide, by decide +kernel, zoningTree ladder,
    fun fuel hfuel => toStructure_eq hids hfuel, ?_⟩
  rw [get?_effectiveZones hids hmem, map_some,
    zone_resolveEffectiveZone hids _ _ hmem hchain (by decide)]
  decide +kernel

/-- A boundary of a vendor. -/
def supplier : ZoningGraphBoundary :=
  ⟨"supplier", by decide, by decide, none, some .vendor⟩

/-- A boundary in that of the vendor. -/
def annex : ZoningGraphBoundary :=
  ⟨"annex", by decide, by decide, some "supplier", none⟩

theorem annex_keeps_model :
    ∃ t : ModelStructure, (∀ fuel, 51 < fuel →
        toStructure ⟨[supplier, annex], [], [], []⟩ fuel = some t) ∧
      t.nodes.length = 3 ∧ ∃ e, (effectiveZones ⟨[supplier, annex], [], [], []⟩ t).get? annex.id =
        some e ∧ e.zone = .vendor := by
  have hids : (graphIds ⟨[supplier, annex], [], [], []⟩).Nodup := by decide +kernel
  obtain ⟨t, hfinite, -, hnodes, -, -, -, hzones⟩ :=
    graphToZoningStructure_keeps_model ⟨[supplier, annex], [], [], []⟩ hids
  have hchain : ResolvedChain ⟨[supplier, annex], [], [], []⟩ annex [supplier] :=
    .step (.head _) rfl (.top rfl)
  obtain ⟨e, hget, hzone⟩ := hzones annex (.tail _ (.head _)) _ hchain (by decide)
  exact ⟨t, hfinite, hnodes.length_eq, e, hget,
    (hzone .vendor (by decide)).2 (.inl ⟨supplier, .tail _ (.head _), some_ne_none _⟩)⟩

end Zoning
