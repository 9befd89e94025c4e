import Mathlib.Data.List.Nodup
import Dethernety.Foundations.Nesting
import Dethernety.Foundations.Record

/-!
# The zoning context

Model of `flattenStructure` of `structure.schema.ts` and of the context builder of
`zone-determination.ts`: the projection of data flows to boundaries, the join of high-value assets and
the normalised map of boundaries.

A set of the source is the list of its members in insertion order, a map is a `Record`.
-/

open List Record

namespace Zoning

inductive Zone
  | restricted
  | internal
  | exposed
  | publicZone
  | untrusted
  | vendor
  deriving DecidableEq

structure BoundaryData where
  id : String
  /-- Ids are UUIDs. -/
  id_ne_empty : id ≠ ""
  zone : Option Zone
  /-- `parentBoundary?.id` as the file has it. -/
  parentBoundary : Option String
  dataItemIds : Option (List String)
  deriving DecidableEq

structure ComponentData where
  id : String
  crownJewel : Option Bool
  dataItemIds : Option (List String)
  deriving DecidableEq

/-- `ModelStructure`: the default boundary with all that is in it. -/
abbrev ModelStructure := Nesting BoundaryData ComponentData

/-- `DataFlow`: the ids of its two ends. -/
structure DataFlow where
  source : String
  target : String

structure DataItem where
  id : String
  sensitivity : Option String
  regulatoryFlags : Option (List String)

/-- `Set.prototype.add` -/
def addTo (s : List String) (x : String) : List String :=
  if x ∈ s then s else s ++ [x]

lemma mem_addTo {s : List String} {x y : String} : y ∈ addTo s x ↔ y ∈ s ∨ y = x := by
  unfold addTo
  split_ifs with h
  · refine ⟨.inl, ?_⟩
    rintro (hy | rfl)
    · exact hy
    · exact h
  · rw [mem_append, mem_singleton]

/-- `FlattenedStructure`; a boundary without a parent is mapped to `none`. -/
structure FlattenedStructure where
  boundaries : List BoundaryData
  components : List ComponentData
  parentMap : Record String (Option String)

def flattenStructure (structure' : ModelStructure) : FlattenedStructure :=
  structure'.foldWithin
    (fun s parent b =>
      { s with boundaries := s.boundaries ++ [b]
               parentMap := s.parentMap.set b.id (parent.map BoundaryData.id) })
    (fun s b c =>
      { s with components := s.components ++ [c]
               parentMap := s.parentMap.set c.id (some b.id) })
    ⟨[], [], ∅⟩ none

/-- `parentMap.get(id)`, where `null` and `undefined` are the same. -/
def FlattenedStructure.parentOf (flat : FlattenedStructure) (id : String) : Option String :=
  (flat.parentMap.get? id).join

structure Adjacency where
  into : Record String (List String)
  outOf : Record String (List String)

/-- Add a kept edge: each side's set is created where it is missing. -/
def Adjacency.addEdge (a : Adjacency) (src tgt : String) : Adjacency where
  outOf := a.outOf.set src (addTo ((a.outOf.get? src).getD []) tgt)
  into := a.into.set tgt (addTo ((a.into.get? tgt).getD []) src)

/-- The boundaries that a data flow goes between, where its edge is kept. -/
def boundaryEdge (flat : FlattenedStructure) (rootId : String) (flow : DataFlow) :
    Option (String × String) :=
  match flat.parentOf flow.source, flat.parentOf flow.target with
  | some srcB, some tgtB =>
    if srcB = tgtB then none
    else if srcB = rootId ∨ tgtB = rootId then none
    else some (srcB, tgtB)
  | _, _ => none

def buildBoundaryAdjacency (structure' : ModelStructure) (flows : List DataFlow) : Adjacency :=
  let flat := flattenStructure structure'
  let rootId := structure'.data.id
  flows.foldl (fun a flow =>
    match boundaryEdge flat rootId flow with
    | some (src, tgt) => a.addEdge src tgt
    | none => a) ⟨∅, ∅⟩

/-- The two sets of `collectAssetBoundaries`. -/
structure AssetBoundaries where
  assetIds : List String
  directAssetIds : List String

/-- The loop of `markWithAncestors`, which stops at a boundary that it has seen. -/
def markWithAncestors (flat : FlattenedStructure) (rootId : String) (fuel : ℕ) (seen : List String)
    (cur : Option String) (assetIds : List String) : List String :=
  match fuel, cur with
  | fuel + 1, some id =>
    if id ≠ rootId ∧ id ∉ seen then
      markWithAncestors flat rootId fuel (id :: seen) (flat.parentOf id) (addTo assetIds id)
    else assetIds
  | _, _ => assetIds

def markDirect (rootId : String) (boundaryId : Option String) (directAssetIds : List String) :
    List String :=
  match boundaryId with
  | some id => if id ≠ rootId then addTo directAssetIds id else directAssetIds
  | none => directAssetIds

def AssetBoundaries.mark (flat : FlattenedStructure) (rootId : String) (s : AssetBoundaries)
    (boundaryId : Option String) : AssetBoundaries where
  -- a walk up the parent map meets each key at most once
  assetIds := markWithAncestors flat rootId (flat.parentMap.keys.length + 1) [] boundaryId s.assetIds
  directAssetIds := markDirect rootId boundaryId s.directAssetIds

/-- A data item of restricted sensitivity or with a regulatory flag. -/
def DataItem.isAsset (d : DataItem) : Bool :=
  d.sensitivity = some "restricted" ∨ 0 < (d.regulatoryFlags.getD []).length

/-- The ids of the high-value data items. -/
def assetItemIds (dataItems : List DataItem) : List String :=
  (dataItems.filter DataItem.isAsset).map DataItem.id

def refsAsset (assetItemIds : List String) (ids : Option (List String)) : Bool :=
  (ids.getD []).any (· ∈ assetItemIds)

def collectAssetBoundaries (structure' : ModelStructure) (dataItems : List DataItem) :
    AssetBoundaries :=
  let flat := flattenStructure structure'
  let rootId := structure'.data.id
  let mark := AssetBoundaries.mark flat rootId
  let jewels := flat.components.foldl
    (fun s c => if c.crownJewel = some true then mark s (flat.parentOf c.id) else s) ⟨[], []⟩
  let items := assetItemIds dataItems
  if items.length > 0 then
    let held := flat.components.foldl
      (fun s c => if refsAsset items c.dataItemIds then mark s (flat.parentOf c.id) else s) jewels
    flat.boundaries.foldl
      (fun s b => if refsAsset items b.dataItemIds then mark s (some b.id) else s) held
  else jewels

structure ZoningContext where
  boundariesById : Record String BoundaryData
  defaultBoundaryId : String
  adjacency : Adjacency
  assetIds : List String
  directAssetIds : List String
  externalIds : List String
  vendorIds : List String

/-- An entry of `boundariesById`: the parent reference of the file gives way to the nesting. -/
def normalized (flat : FlattenedStructure) (b : BoundaryData) : BoundaryData :=
  match flat.parentOf b.id with
  | none => b
  | some parentId => { b with parentBoundary := some parentId }

def buildZoningContext (structure' : ModelStructure) (flows : List DataFlow)
    (dataItems : List DataItem) : ZoningContext :=
  let flat := flattenStructure structure'
  let defaultBoundaryId := structure'.data.id
  let assets := collectAssetBoundaries structure' dataItems
  { boundariesById := .ofList (flat.boundaries.map fun b => (b.id, normalized flat b))
    defaultBoundaryId
    adjacency := buildBoundaryAdjacency structure' flows
    assetIds := assets.assetIds
    directAssetIds := assets.directAssetIds
    externalIds := flat.boundaries.foldl
      (fun s b => if b.id ≠ defaultBoundaryId ∧ b.zone = some .untrusted then addTo s b.id else s) []
    vendorIds := flat.boundaries.foldl
      (fun s b => if b.id ≠ defaultBoundaryId ∧ b.zone = some .vendor then addTo s b.id else s) [] }

section

variable {s : ModelStructure}

/-- The id of a boundary or a component. -/
def elementId : BoundaryData ⊕ ComponentData → String :=
  Sum.elim BoundaryData.id ComponentData.id

/-- The ids of all boundaries and components. -/
def ids (s : ModelStructure) : List String :=
  s.elements.map elementId

lemma flattenStructure_eq (s : ModelStructure) :
    flattenStructure s = s.links.foldl (fun s l => l.2.elim
      (fun b => { s with
        boundaries := s.boundaries ++ [b]
        parentMap := s.parentMap.set b.id (some l.1.id) })
      (fun c => { s with
        components := s.components ++ [c]
        parentMap := s.parentMap.set c.id (some l.1.id) }))
      ⟨[s.data], [], (∅ : Record String (Option String)).set s.data.id none⟩ :=
  Nesting.foldWithin_eq_foldl _ _ _ _ s

lemma flattenStructure_fields (s : ModelStructure) :
    (flattenStructure s).boundaries = s.nodes ∧ (flattenStructure s).components = s.leaves ∧
      (flattenStructure s).parentMap = s.links.foldl (fun r l => r.set (elementId l.2) (some l.1.id))
        ((∅ : Record String (Option String)).set s.data.id none) := by
  -- the walk over any list of links, from any state
  have hwalk : ∀ (l : List (BoundaryData × (BoundaryData ⊕ ComponentData)))
      (flat : FlattenedStructure),
      let flat' := l.foldl (fun s l => l.2.elim
        (fun b => { s with
          boundaries := s.boundaries ++ [b]
          parentMap := s.parentMap.set b.id (some l.1.id) })
        (fun c => { s with
          components := s.components ++ [c]
          parentMap := s.parentMap.set c.id (some l.1.id) })) flat
      flat'.boundaries = flat.boundaries ++ (l.map Prod.snd).filterMap Sum.getLeft? ∧
        flat'.components = flat.components ++ (l.map Prod.snd).filterMap Sum.getRight? ∧
        flat'.parentMap = l.foldl (fun r l => r.set (elementId l.2) (some l.1.id)) flat.parentMap := by
    intro l
    induction l with
    | nil => exact fun flat => ⟨(append_nil _).symm, (append_nil _).symm, rfl⟩
    | cons link l ih =>
      intro flat
      obtain ⟨parent, element⟩ := link
      cases element with
      | inl b =>
        obtain ⟨hboundaries, hcomponents, hparents⟩ := ih { flat with
          boundaries := flat.boundaries ++ [b]
          parentMap := flat.parentMap.set b.id (some parent.id) }
        refine ⟨hboundaries.trans ?_, hcomponents, hparents⟩
        simp
      | inr c =>
        obtain ⟨hboundaries, hcomponents, hparents⟩ := ih { flat with
          components := flat.components ++ [c]
          parentMap := flat.parentMap.set c.id (some parent.id) }
        refine ⟨hboundaries, hcomponents.trans ?_, hparents⟩
        simp
  rw [flattenStructure_eq]
  obtain ⟨hboundaries, hcomponents, hparents⟩ := hwalk s.links
    ⟨[s.data], [], (∅ : Record String (Option String)).set s.data.id none⟩
  refine ⟨hboundaries.trans ?_, hcomponents.trans ?_, hparents⟩
  · rw [Nesting.nodes, Nesting.elements_eq_cons_links]
    rfl
  · rw [Nesting.leaves, Nesting.elements_eq_cons_links]
    rfl

lemma ids_eq_cons_links (s : ModelStructure) : ids s = s.data.id :: s.links.map (fun l => elementId l.2) := by
  rw [ids, Nesting.elements_eq_cons_links, map_cons, map_map]
  rfl

lemma parentOf_of_mem_links (hids : (ids s).Nodup) {b : BoundaryData}
    {e : BoundaryData ⊕ ComponentData} (h : (b, e) ∈ s.links) :
    (flattenStructure s).parentOf (elementId e) = some b.id := by
  rw [ids_eq_cons_links] at hids
  have hcount : (s.links.map (fun l => elementId l.2)).count (elementId e) = 1 :=
    count_eq_one_of_mem (nodup_cons.1 hids).2
      (mem_map_of_mem (f := fun l : BoundaryData × _ => elementId l.2) h)
  have hget : (flattenStructure s).parentMap.get? (elementId e) = some (some b.id) := by
    rw [(flattenStructure_fields s).2.2]
    exact get?_foldl_set_of_count h hcount _
  rw [FlattenedStructure.parentOf, hget]
  rfl

lemma parentOf_root (hids : (ids s).Nodup) : (flattenStructure s).parentOf s.data.id = none := by
  rw [ids_eq_cons_links] at hids
  rw [FlattenedStructure.parentOf, (flattenStructure_fields s).2.2,
    get?_foldl_set_of_notMem (nodup_cons.1 hids).1, get?_set, if_pos rfl]
  rfl

lemma exists_link_of_parentOf (hids : (ids s).Nodup) {id parent : String}
    (h : (flattenStructure s).parentOf id = some parent) :
    ∃ b e, (b, e) ∈ s.links ∧ elementId e = id ∧ b.id = parent := by
  by_cases hmem : id ∈ s.links.map (fun l => elementId l.2)
  · obtain ⟨⟨b, e⟩, hlink, rfl⟩ := mem_map.1 hmem
    refine ⟨b, e, hlink, rfl, ?_⟩
    rw [parentOf_of_mem_links hids hlink] at h
    exact Option.some.inj h
  · rw [FlattenedStructure.parentOf, (flattenStructure_fields s).2.2,
      get?_foldl_set_of_notMem hmem, get?_set] at h
    split_ifs at h
    all_goals cases h

end

lemma mem_addEdge {a : Adjacency} {src tgt x y : String} :
    (x ∈ ((a.addEdge src tgt).into.get? y).getD [] ↔
      x ∈ (a.into.get? y).getD [] ∨ (x = src ∧ y = tgt)) ∧ (y ∈ ((a.addEdge src tgt).outOf.get? x).getD [] ↔
      y ∈ (a.outOf.get? x).getD [] ∨ (x = src ∧ y = tgt)) := by
  unfold Adjacency.addEdge
  simp only [get?_set]
  constructor
  · by_cases h : tgt = y
    · subst h
      simp only [if_true, Option.getD_some, mem_addTo, and_true]
    · simp only [h, if_false, Ne.symm h, and_false, or_false]
  · by_cases h : src = x
    · subst h
      simp only [if_true, Option.getD_some, mem_addTo, true_and]
    · simp only [h, if_false, Ne.symm h, false_and, or_false]

/-- The two maps of the adjacency have the edges of the data flows. -/
theorem mem_buildBoundaryAdjacency (s : ModelStructure) (flows : List DataFlow) (x y : String) :
    (x ∈ ((buildBoundaryAdjacency s flows).into.get? y).getD [] ↔
      ∃ flow ∈ flows, boundaryEdge (flattenStructure s) s.data.id flow = some (x, y)) ∧
    (y ∈ ((buildBoundaryAdjacency s flows).outOf.get? x).getD [] ↔
      ∃ flow ∈ flows, boundaryEdge (flattenStructure s) s.data.id flow = some (x, y)) := by
  -- the edges that a list of flows adds to those that are there
  have hwalk : ∀ (l : List DataFlow) (a : Adjacency),
      let a' := l.foldl (fun a flow =>
        match boundaryEdge (flattenStructure s) s.data.id flow with
        | some (src, tgt) => a.addEdge src tgt
        | none => a) a
      (x ∈ (a'.into.get? y).getD [] ↔ x ∈ (a.into.get? y).getD [] ∨
        ∃ flow ∈ l, boundaryEdge (flattenStructure s) s.data.id flow = some (x, y)) ∧
      (y ∈ (a'.outOf.get? x).getD [] ↔ y ∈ (a.outOf.get? x).getD [] ∨
        ∃ flow ∈ l, boundaryEdge (flattenStructure s) s.data.id flow = some (x, y)) := by
    intro l
    induction l with
    | nil => simp
    | cons flow l ih =>
      intro a
      simp only [foldl_cons, exists_mem_cons_iff]
      cases hedge : boundaryEdge (flattenStructure s) s.data.id flow with
      | none => simpa using ih a
      | some e =>
        obtain ⟨src, tgt⟩ := e
        have hstep := ih (a.addEdge src tgt)
        simp only [mem_addEdge, or_assoc] at hstep
        have heq : (some (src, tgt) = some (x, y)) ↔ (x = src ∧ y = tgt) := by
          simp [eq_comm]
        rw [heq]
        exact hstep
  have h := hwalk flows ⟨∅, ∅⟩
  simp only [get?_empty, Option.getD_none, not_mem_nil, false_or] at h
  exact h

variable {s : ModelStructure} {dataItems : List DataItem}

/-- A data item of high value among the ids. -/
def RefersToAsset (dataItems : List DataItem) (ids : Option (List String)) : Prop :=
  ∃ d ∈ dataItems, d.isAsset = true ∧ d.id ∈ ids.getD []

/-- The boundary has a crown jewel in it, or a data item of high value at itself or at a component in
it. -/
def HoldsAsset (s : ModelStructure) (dataItems : List DataItem) (b : BoundaryData) : Prop :=
  (∃ c, (b, .inr c) ∈ s.links ∧
    (c.crownJewel = some true ∨ RefersToAsset dataItems c.dataItemIds)) ∨
  RefersToAsset dataItems b.dataItemIds

lemma not_refersToAsset {dataItems : List DataItem} (h : ¬ (assetItemIds dataItems).length > 0)
    (ids : Option (List String)) : ¬ RefersToAsset dataItems ids := by
  rintro ⟨d, hd, hasset, -⟩
  exact h (length_pos_of_mem (mem_map_of_mem (mem_filter.2 ⟨hd, hasset⟩)))

lemma refsAsset_iff {ids : Option (List String)} :
    refsAsset (assetItemIds dataItems) ids = true ↔ RefersToAsset dataItems ids := by
  unfold refsAsset assetItemIds RefersToAsset
  simp only [any_eq_true, decide_eq_true_eq, mem_map, mem_filter]
  constructor
  · rintro ⟨x, hx, d, ⟨hd, hasset⟩, rfl⟩
    exact ⟨d, hd, hasset, hx⟩
  · rintro ⟨d, hd, hasset, hx⟩
    exact ⟨d.id, hx, d, ⟨hd, hasset⟩, rfl⟩

lemma mem_markDirect {rootId x : String} {boundaryId : Option String} {l : List String} :
    x ∈ markDirect rootId boundaryId l ↔ x ∈ l ∨ (boundaryId = some x ∧ x ≠ rootId) := by
  cases boundaryId with
  | none => simp [markDirect]
  | some id =>
    simp only [markDirect, Option.some.injEq]
    split_ifs with h
    · rw [mem_addTo]
      constructor
      · rintro (hx | rfl)
        · exact .inl hx
        · exact .inr ⟨rfl, h⟩
      · rintro (hx | ⟨rfl, -⟩)
        · exact .inl hx
        · exact .inr rfl
    · refine ⟨.inl, ?_⟩
      rintro (hx | ⟨rfl, hne⟩)
      · exact hx
      · exact absurd hne h

/-- One of the three loops of `collectAssetBoundaries`. -/
lemma mem_directAssetIds_foldl {α : Type} {flat : FlattenedStructure} {rootId x : String}
    {holder : α → Option String} {p : α → Prop} [DecidablePred p] (l : List α)
    (t : AssetBoundaries) :
    x ∈ (l.foldl (fun t a => if p a then t.mark flat rootId (holder a) else t) t).directAssetIds ↔
      x ∈ t.directAssetIds ∨ ∃ a ∈ l, p a ∧ holder a = some x ∧ x ≠ rootId := by
  induction l generalizing t with
  | nil => simp
  | cons a l ih =>
    rw [foldl_cons, ih, exists_mem_cons_iff]
    by_cases h : p a
    · rw [if_pos h]
      simp only [h, true_and, AssetBoundaries.mark, mem_markDirect, or_assoc]
    · rw [if_neg h]
      simp only [h, false_and, false_or]

/-- The boundaries that `collectAssetBoundaries` marks as direct holders. -/
theorem mem_directAssetIds (hids : (ids s).Nodup) {b : BoundaryData} (hb : b ∈ s.nodes) (hroot : b.id ≠ s.data.id) :
    b.id ∈ (collectAssetBoundaries s dataItems).directAssetIds ↔ HoldsAsset s dataItems b := by
  obtain ⟨hboundaries, hcomponents, -⟩ := flattenStructure_fields s
  -- distinct ids tell the holder of a component
  have hsame : ∀ {b' : BoundaryData}, b' ∈ s.nodes → b'.id = b.id → b' = b := by
    intro b' hb' heq
    have hinj := inj_on_of_nodup_map hids (Nesting.mem_nodes.1 hb') (Nesting.mem_nodes.1 hb) heq
    exact Sum.inl.inj hinj
  have hholder : ∀ {c : ComponentData}, c ∈ s.leaves →
      ((flattenStructure s).parentOf c.id = some b.id ↔ (b, .inr c) ∈ s.links) := by
    intro c hc
    constructor
    · intro hparent
      obtain ⟨b', e, hlink, heid, hbid⟩ := exists_link_of_parentOf hids hparent
      have hemem : e ∈ s.elements := by
        rw [Nesting.elements_eq_cons_links]
        exact .tail _ (mem_map_of_mem (f := Prod.snd) hlink)
      obtain rfl : e = .inr c :=
        inj_on_of_nodup_map hids hemem (Nesting.mem_leaves.1 hc) heid
      obtain rfl := hsame (Nesting.mem_nodes.2 (Nesting.mem_elements_of_mem_links hlink)) hbid
      exact hlink
    · exact fun hlink => parentOf_of_mem_links hids hlink
  have hleaf : ∀ {c : ComponentData}, (b, .inr c) ∈ s.links → c ∈ s.leaves := by
    intro c hlink
    rw [Nesting.mem_leaves, Nesting.elements_eq_cons_links]
    exact .tail _ (mem_map_of_mem (f := Prod.snd) hlink)
  have hjewels : ∀ (t : AssetBoundaries), t.directAssetIds = [] →
      (b.id ∈ ((flattenStructure s).components.foldl (fun t c => if c.crownJewel = some true
        then t.mark (flattenStructure s) s.data.id ((flattenStructure s).parentOf c.id) else t)
        t).directAssetIds ↔ ∃ c, (b, .inr c) ∈ s.links ∧ c.crownJewel = some true) := by
    intro t ht
    rw [mem_directAssetIds_foldl, ht, hcomponents]
    simp only [not_mem_nil, false_or]
    constructor
    · rintro ⟨c, hc, hjewel, hparent, -⟩
      exact ⟨c, (hholder hc).1 hparent, hjewel⟩
    · rintro ⟨c, hlink, hjewel⟩
      exact ⟨c, hleaf hlink, hjewel, (hholder (hleaf hlink)).2 hlink, hroot⟩
  unfold collectAssetBoundaries
  extract_lets flat rootId mark jewels items held
  by_cases hitems : items.length > 0
  · rw [if_pos hitems, mem_directAssetIds_foldl, mem_directAssetIds_foldl, hjewels ⟨[], []⟩ rfl,
      hboundaries, hcomponents]
    simp only [refsAsset_iff, items]
    constructor
    · rintro ((⟨c, hlink, hjewel⟩ | ⟨c, hc, hrefs, hparent, -⟩) | ⟨b', hb', hrefs, heq, -⟩)
      · exact .inl ⟨c, hlink, .inl hjewel⟩
      · exact .inl ⟨c, (hholder hc).1 hparent, .inr hrefs⟩
      · obtain rfl := hsame hb' (Option.some.inj heq)
        exact .inr hrefs
    · rintro (⟨c, hlink, hjewel | hrefs⟩ | hrefs)
      · exact .inl (.inl ⟨c, hlink, hjewel⟩)
      · exact .inl (.inr ⟨c, hleaf hlink, hrefs, (hholder (hleaf hlink)).2 hlink, hroot⟩)
      · exact .inr ⟨b, hb, hrefs, rfl, hroot⟩
  · -- there is no data item of high value to refer to
    rw [if_neg hitems, hjewels ⟨[], []⟩ rfl]
    simp only [HoldsAsset, not_refersToAsset hitems, or_false]

end Zoning
