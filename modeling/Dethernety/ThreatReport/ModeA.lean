import Dethernety.ThreatReport.ShortestRoutes

/-!
# Mode A: the reachability of the crown jewels

`modeAReachability` of `reachability.js` from a choice of origins. A jewel is reachable exactly when a walk
of flows leads to it, with a shortest one to show (`modeA_reports_routes`); what lies on the ways to the
jewels is joined to their names, so that jewels of one name share it (`twins_shareName`).
-/

open List

namespace ThreatReport

open Search

/-- `worstBandOf` of `reachability.js`: the worst band over elements, with the number of live findings. -/
structure WorstOnRoute where
  band : Option Band
  liveCount : ℕ

/-- A round of `worstBandOf`; a rank is `none` before the first band. -/
def worstStep (byId : Record String LedgerElement) (s : WorstOnRoute) (id : String) : WorstOnRoute :=
  let p := postureOf (byId.get? id)
  { liveCount := s.liveCount + p.liveCount
    band := match p.worstBand with
      | none => s.band
      | some band => if s.band.all fun worst => bandRank band > bandRank worst then some band else s.band }

def worstBandOfIds (ids : List String) (byId : Record String LedgerElement) : WorstOnRoute :=
  ids.foldl (worstStep byId) ⟨none, 0⟩

/-- `riskAcceptedOf`: the accepted risks, and the stale ones among them. -/
def riskAcceptedOf (ids : List String) (byId : Record String LedgerElement) : ℕ × ℕ :=
  let accepted := (ids.flatMap fun id => ((byId.get? id).map LedgerElement.findings).getD []).filter
    fun f => f.dispositionKind = some .riskAccepted
  (accepted.length, (accepted.filter LedgerFinding.dispositionStale).length)

inductive OriginSpec
  | external
  | node (id : String)

def externalEntityType : String := "external_entity"

/-- `externalEntryIds`; no letter outside of ASCII is lower-cased to one of the type's. -/
def externalEntryIds (mg : ModelGraph) : List String :=
  (mg.components.filter fun c => (c.type.getD "").toLower = externalEntityType).map ModelGraphComponent.id

/-- A `Set` of ids, in the order of their first occurrences. -/
def idSet (ids : List String) : List String :=
  ids.eraseDups

/-- `originIds`, `originKind` and `originLabel` -/
def originsOf (mg : ModelGraph) : OriginSpec → List String × String × String
  | .node id =>
    if id ≠ "" then
      ([id], "node", match (componentById mg).get? id with
        | some c => "assuming " ++ c.name ++ " is breached"
        | none => "assuming the selected node is breached")
    else (idSet (externalEntryIds mg), "external", "from external entry")
  | .external => (idSet (externalEntryIds mg), "external", "from external entry")

section

/-- An entry of the view's `jewels`. -/
structure JewelView where
  jewelId : String
  jewelName : String
  reachable : Bool
  isOrigin : Bool
  minHops : Option ℕ
  crossingCount : ℕ
  worstOnRoute : WorstOnRoute
  riskAccepted : ℕ
  staleRiskAccepted : ℕ
  shortestNodes : List String
  shortestEdges : List String

/-- What `modeAReachability` returns. -/
structure ModeAView where
  originKind : String
  originLabel : String
  originIds : List String
  jewelCount : ℕ
  reachableCount : ℕ
  unreachableCount : ℕ
  hasCrownJewels : Bool
  hasOrigin : Bool
  jewels : List JewelView
  routeElementToJewels : Record String (List String)
  entryPointIds : List String
  crownJewelIds : List String

def addRouteElement (jewelName : String) (m : Record String (List String)) (id : String) :
    Record String (List String) :=
  let names := (m.get? id).getD []
  m.set id (if jewelName ∈ names then names else names ++ [jewelName])

variable (mg : ModelGraph) (ledger : List LedgerElement)
variable (localeCompare : String → String → Ordering)

def crownJewels : List ModelGraphComponent :=
  mg.components.filter ModelGraphComponent.crownJewel

/-- `onRouteComps` and `onRouteFlows` -/
def onRouteOf (proj : Projection) (originIds : List String) (jewelId : String) : List String :=
  let fwd := closure proj.forward originIds
  let bwd := closure proj.backward [jewelId]
  (mg.components.filter fun c => c.id ∈ fwd ∧ c.id ∈ bwd).map ModelGraphComponent.id ++
    (mg.flows.filter fun f => (flowEnds f).any fun e => e.1 ∈ fwd ∧ e.2 ∈ bwd).map ModelGraphFlow.id

/-- The ids of `elementIds`, of a jewel that is reachable and no origin. -/
def routeElementsOf (proj : Projection) (originIds : List String) (j : ModelGraphComponent) : List String :=
  if (bfsShortest proj.forward originIds j.id).reachable && !originIds.contains j.id then
    onRouteOf mg proj originIds j.id
  else []

def jewelViewOf (proj : Projection) (originIds : List String) (j : ModelGraphComponent) : JewelView :=
  let sp := bfsShortest proj.forward originIds j.id
  let elementIds := routeElementsOf mg proj originIds j
  let onRoute := sp.reachable && !originIds.contains j.id
  let risk := riskAcceptedOf elementIds (ledgerById ledger)
  { jewelId := j.id
    jewelName := j.name
    reachable := sp.reachable
    isOrigin := originIds.contains j.id
    minHops := if sp.reachable then sp.hops else none
    crossingCount := if onRoute then
        (sp.nodes.zip sp.nodes.tail).foldl (fun n e => n + (crossingsForHop mg e.1 e.2).length) 0
      else 0
    worstOnRoute := worstBandOfIds elementIds (ledgerById ledger)
    riskAccepted := risk.1
    staleRiskAccepted := risk.2
    shortestNodes := sp.nodes
    shortestEdges := sp.edges }

/-- The order of the jewels; two jewels without a route compare as `NaN`, which is 0 to the sort. -/
def compareJewels (a b : JewelView) : Ordering :=
  if a.reachable ≠ b.reachable then (if a.reachable then .lt else .gt)
  else
    let rank (v : JewelView) : ℕ := (v.worstOnRoute.band.map fun band => bandRank band + 1).getD 0
    (compare (rank b) (rank a)).then (match a.minHops, b.minHops with
      | none, none => .eq
      | x, y => (compareIndex x y).then (localeCompare a.jewelName b.jewelName))

/-- `modeAReachability` -/
def modeAReachability (originSpec : OriginSpec) : ModeAView :=
  let proj := buildProjection mg
  let (originIds, originKind, originLabel) := originsOf mg originSpec
  let jewels := crownJewels mg
  let jewelsView := sortBy (compareJewels localeCompare) (jewels.map (jewelViewOf mg ledger proj originIds))
  let reachableCount := (jewelsView.filter JewelView.reachable).length
  { originKind := originKind
    originLabel := originLabel
    originIds := originIds
    jewelCount := jewels.length
    reachableCount := reachableCount
    unreachableCount := jewels.length - reachableCount
    hasCrownJewels := jewels.length > 0
    hasOrigin := originIds.length > 0
    jewels := jewelsView
    routeElementToJewels := jewels.foldl (fun m j =>
      (routeElementsOf mg proj originIds j).foldl (addRouteElement j.name) m) ∅
    entryPointIds := externalEntryIds mg
    crownJewelIds := jewels.map ModelGraphComponent.id }

end

section

variable {mg : ModelGraph} {S : List String} {a b c x : String} {nodes edges : List String}

/-- An element lies on some way from the origins to a jewel that is none of them. -/
def OnWay (mg : ModelGraph) (S : List String) (jewelId element : String) : Prop :=
  jewelId ∉ S ∧ ∃ o ∈ S, ∃ nodes edges, FlowRoute mg o nodes edges jewelId ∧ (element ∈ nodes ∨ element ∈ edges)

lemma FlowRoute.append {nodes' edges' : List String} (h : FlowRoute mg a nodes edges b)
    (h' : FlowRoute mg b nodes' edges' c) : FlowRoute mg a (nodes ++ nodes'.tail) (edges ++ edges') c := by
  induction h' with
  | nil => simpa using h
  | @concat _ _ _ _ f h' hf hends ih =>
    obtain ⟨l, hl, -⟩ := h'.exists_cons
    rw [hl, cons_append, tail_cons, ← append_assoc, ← append_assoc]
    rw [hl, tail_cons] at ih
    exact ih.concat hf hends

/-- What is on a route is reached on it, and leads on to its end. -/
lemma FlowRoute.split (h : FlowRoute mg a nodes edges b) :
    (∀ x ∈ nodes, Relation.ReflTransGen (FlowsTo mg) a x ∧ Relation.ReflTransGen (FlowsTo mg) x b) ∧
      ∀ x ∈ edges, ∃ f ∈ mg.flows, f.id = x ∧ ∃ u v, hopEnds mg f = some (u, v) ∧
        Relation.ReflTransGen (FlowsTo mg) a u ∧ Relation.ReflTransGen (FlowsTo mg) v b := by
  induction h with
  | nil =>
    refine ⟨fun x hx => ?_, fun _ => nofun⟩
    obtain rfl := mem_singleton.1 hx
    exact ⟨.refl, .refl⟩
  | @concat b c _ _ f h hf hends ih =>
    have hstep : FlowsTo mg b c := flowsTo_iff.2 ⟨f, hf, hends⟩
    have hreach : Relation.ReflTransGen (FlowsTo mg) a b := exists_flowRoute_iff.1 ⟨_, _, h⟩
    refine ⟨fun x hx => ?_, fun x hx => ?_⟩
    · rcases mem_append.1 hx with hx | hx
      · exact ⟨(ih.1 x hx).1, (ih.1 x hx).2.tail hstep⟩
      · obtain rfl := mem_singleton.1 hx
        exact ⟨hreach.tail hstep, .refl⟩
    · rcases mem_append.1 hx with hx | hx
      · obtain ⟨f', hf', hid, u, v, hends', hu, hv⟩ := ih.2 x hx
        exact ⟨f', hf', hid, u, v, hends', hu, hv.tail hstep⟩
      · obtain rfl := mem_singleton.1 hx
        exact ⟨f, hf, rfl, b, c, hends, hreach, .refl⟩

lemma FlowRoute.source_mem (h : FlowRoute mg a nodes edges b) (hb : b ∈ mg.components.map ModelGraphComponent.id) :
    a ∈ mg.components.map ModelGraphComponent.id := by
  induction h with
  | nil => exact hb
  | concat _ _ hends ih => exact ih (hopEnds_eq_some_iff.1 hends).2.2.1

lemma mem_closure_origins_iff (hS : S.Nodup) :
    x ∈ closure (buildProjection mg).forward S ↔ ∃ o ∈ S, Relation.ReflTransGen (FlowsTo mg) o x := by
  rw [closure, mem_search_iff hS start_subset successors_subset (Nat.le_refl _), flowsTo_eq]

lemma mem_closure_jewel_iff :
    x ∈ closure (buildProjection mg).backward [b] ↔ Relation.ReflTransGen (FlowsTo mg) x b := by
  rw [mem_closure_backward_iff, exists_route_iff]

lemma mem_components_of_reach (h : Relation.ReflTransGen (FlowsTo mg) a b)
    (hb : b ∈ mg.components.map ModelGraphComponent.id) : a ∈ mg.components.map ModelGraphComponent.id := by
  obtain ⟨nodes, edges, hroute⟩ := exists_flowRoute_iff.2 h
  exact hroute.source_mem hb

lemma mem_components_of_reached (h : Relation.ReflTransGen (FlowsTo mg) a b)
    (ha : a ∈ mg.components.map ModelGraphComponent.id) : b ∈ mg.components.map ModelGraphComponent.id := by
  cases h with
  | refl => exact ha
  | tail _ e =>
    obtain ⟨f, -, hends⟩ := flowsTo_iff.1 e
    exact (hopEnds_eq_some_iff.1 hends).2.2.2

lemma mem_onRouteOf_iff (hS : S.Nodup) (hcomp : ∀ o ∈ S, o ∈ mg.components.map ModelGraphComponent.id)
    (hb : b ∈ mg.components.map ModelGraphComponent.id) :
    x ∈ onRouteOf mg (buildProjection mg) S b ↔
      ∃ o ∈ S, ∃ nodes edges, FlowRoute mg o nodes edges b ∧ (x ∈ nodes ∨ x ∈ edges) := by
  simp only [onRouteOf, mem_append, mem_map, mem_filter, decide_eq_true_eq, mem_closure_origins_iff hS,
    mem_closure_jewel_iff]
  constructor
  · rintro (⟨c, ⟨_, ⟨o, ho, hoc⟩, hcb⟩, rfl⟩ | ⟨f, ⟨hf, hends⟩, rfl⟩)
    · obtain ⟨nodes, edges, hroute⟩ := exists_flowRoute_iff.2 hoc
      obtain ⟨nodes', edges', hroute'⟩ := exists_flowRoute_iff.2 hcb
      refine ⟨o, ho, _, _, hroute.append hroute', .inl (mem_append_left _ ?_)⟩
      exact mem_reverse.1 hroute.route.reverse.head_mem
    · obtain ⟨⟨u, v⟩, hends, hseen⟩ := (Option.any_eq_true _ _).1 hends
      simp only [decide_eq_true_eq, mem_closure_origins_iff hS, mem_closure_jewel_iff] at hseen
      obtain ⟨⟨o, ho, hou⟩, hvb⟩ := hseen
      -- both ends are components
      have hhop : hopEnds mg f = some (u, v) := by
        refine Option.filter_eq_some_iff.2 ⟨hends, Bool.and_eq_true_iff.2 ⟨?_, ?_⟩⟩
        · exact isSome_componentById_iff.2 (mem_components_of_reached hou (hcomp o ho))
        · exact isSome_componentById_iff.2 (mem_components_of_reach hvb hb)
      obtain ⟨nodes, edges, hroute⟩ := exists_flowRoute_iff.2 hou
      obtain ⟨nodes', edges', hroute'⟩ := exists_flowRoute_iff.2 hvb
      refine ⟨o, ho, _, _, (hroute.concat hf hhop).append hroute', .inr (mem_append_left _ ?_)⟩
      exact mem_append_right _ (mem_singleton_self _)
  · rintro ⟨o, ho, nodes, edges, hroute, hx | hx⟩
    · obtain ⟨hox, hxb⟩ := hroute.split.1 x hx
      obtain ⟨c, hc, rfl⟩ := mem_map.1 (mem_components_of_reach hxb hb)
      exact .inl ⟨c, ⟨hc, ⟨o, ho, hox⟩, hxb⟩, rfl⟩
    · obtain ⟨f, hf, rfl, u, v, hends, hou, hvb⟩ := hroute.split.2 x hx
      refine .inr ⟨f, ⟨hf, (Option.any_eq_true _ _).2 ⟨(u, v), (Option.filter_eq_some_iff.1 hends).1, ?_⟩⟩, rfl⟩
      simp only [decide_eq_true_eq, mem_closure_origins_iff hS, mem_closure_jewel_iff]
      exact ⟨⟨o, ho, hou⟩, hvb⟩

lemma mem_routeElementsOf_iff {j : ModelGraphComponent} (hS : S.Nodup)
    (hcomp : (∀ o ∈ S, o ∈ mg.components.map ModelGraphComponent.id) ∨ ∃ o, S = [o])
    (hj : j ∈ mg.components) : x ∈ routeElementsOf mg (buildProjection mg) S j ↔ OnWay mg S j.id x := by
  have hjewel : j.id ∈ mg.components.map ModelGraphComponent.id := mem_map_of_mem hj
  unfold routeElementsOf OnWay
  rcases bfsShortest_eq mg hS j.id with ⟨nodes, edges, hfound, hshortest⟩ | ⟨hfound, hnone⟩
  · -- an origin from which a component is reached is one
    have hcomp : ∀ o ∈ S, o ∈ mg.components.map ModelGraphComponent.id := by
      refine hcomp.elim id fun ⟨o, ho⟩ o' ho' => ?_
      obtain ⟨o'', ho'', hroute⟩ := hshortest.route
      rw [ho] at ho' ho''
      obtain rfl := mem_singleton.1 ho'
      obtain rfl := mem_singleton.1 ho''
      exact hroute.source_mem hjewel
    rw [hfound]
    split_ifs with horigin
    · rw [mem_onRouteOf_iff hS hcomp hjewel]
      have hnot : j.id ∉ S := by simpa using horigin
      exact ⟨fun h => ⟨hnot, h⟩, fun h => h.2⟩
    · refine iff_of_false not_mem_nil fun h => horigin ?_
      simpa using h.1
  · rw [hfound]
    refine iff_of_false not_mem_nil ?_
    rintro ⟨-, o, ho, nodes, edges, hroute, -⟩
    exact hnone o ho (exists_flowRoute_iff.1 ⟨_, _, hroute⟩)

end

lemma mem_addRouteElement {m : Record String (List String)} {jewelName name id x : String} :
    name ∈ ((addRouteElement jewelName m id).get? x).getD [] ↔
      name ∈ (m.get? x).getD [] ∨ (x = id ∧ name = jewelName) := by
  unfold addRouteElement
  rw [Record.get?_set]
  split_ifs with hid hname
  · subst hid
    exact ⟨.inl, fun h => h.elim (fun h => h) fun h => h.2 ▸ hname⟩
  · subst hid
    simp
  · exact ⟨.inl, fun h => h.elim (fun h => h) fun h => absurd h.1.symm hid⟩

lemma mem_foldl_addRouteElement {jewelName name x : String} (ids : List String) (m : Record String (List String)) :
    name ∈ ((ids.foldl (addRouteElement jewelName) m).get? x).getD [] ↔
      name ∈ (m.get? x).getD [] ∨ (x ∈ ids ∧ name = jewelName) := by
  induction ids generalizing m with
  | nil => simp
  | cons _ _ ih =>
    rw [foldl_cons, ih, mem_addRouteElement, mem_cons, or_assoc, or_and_right]

/-- The names that an element is joined to are those of the jewels that it is on the way to. -/
lemma mem_foldl_jewels (name x : String) (f : ModelGraphComponent → List String) (jewels : List ModelGraphComponent)
    (m : Record String (List String)) :
    name ∈ ((jewels.foldl (fun m j => (f j).foldl (addRouteElement j.name) m) m).get? x).getD [] ↔
      name ∈ (m.get? x).getD [] ∨ ∃ j ∈ jewels, x ∈ f j ∧ name = j.name := by
  induction jewels generalizing m with
  | nil => simp
  | cons j jewels ih =>
    rw [foldl_cons, ih, mem_foldl_addRouteElement, exists_mem_cons_iff, or_assoc]

lemma nodup_eraseDups : ∀ l : List String, l.eraseDups.Nodup
  | [] => nodup_nil
  | a :: l => by
    rw [eraseDups_cons, nodup_cons]
    refine ⟨fun h => ?_, nodup_eraseDups _⟩
    have hne := (mem_filter.1 (mem_eraseDups.1 h)).2
    simp at hne
  termination_by l => l.length
  decreasing_by exact Nat.lt_succ_of_le (length_filter_le _ _)

variable {mg : ModelGraph} {spec : OriginSpec}

lemma originsOf_cases (mg : ModelGraph) (spec : OriginSpec) :
    (originsOf mg spec).1.Nodup ∧ ((∀ o ∈ (originsOf mg spec).1, o ∈ mg.components.map ModelGraphComponent.id) ∨
      ∃ o, (originsOf mg spec).1 = [o]) := by
  have hexternal : ∀ o ∈ idSet (externalEntryIds mg), o ∈ mg.components.map ModelGraphComponent.id := by
    intro o ho
    obtain ⟨c, hc, rfl⟩ := mem_map.1 (mem_eraseDups.1 ho)
    exact mem_map_of_mem (mem_of_mem_filter hc)
  cases spec with
  | external => exact ⟨nodup_eraseDups _, .inl hexternal⟩
  | node id =>
    unfold originsOf
    by_cases hid : id ≠ ""
    · simp only [if_pos hid]
      exact ⟨nodup_singleton id, .inr ⟨id, rfl⟩⟩
    · simp only [if_neg hid]
      exact ⟨nodup_eraseDups _, .inl hexternal⟩

def originComponents (mg : ModelGraph) (spec : OriginSpec) : List String :=
  (originsOf mg spec).1.filter fun o => o ∈ mg.components.map ModelGraphComponent.id

/-- What is reported of the jewels is what the flows are. -/
structure ReportsRoutes (mg : ModelGraph) (spec : OriginSpec) (view : ModeAView) : Prop where
  jewels : (view.jewels.map fun v => (v.jewelId, v.jewelName)).Perm ((crownJewels mg).map fun j => (j.id, j.name))
  reachable_iff : ∀ v ∈ view.jewels, v.reachable = true ↔
    ∃ o ∈ originComponents mg spec, ∃ nodes edges, FlowRoute mg o nodes edges v.jewelId
  shortest : ∀ v ∈ view.jewels, v.reachable = true → v.minHops = some v.shortestEdges.length ∧
    IsShortest mg (originComponents mg spec) v.shortestNodes v.shortestEdges v.jewelId
  mapped_iff : ∀ element name, name ∈ (view.routeElementToJewels.get? element).getD [] ↔
    ∃ j ∈ crownJewels mg, j.name = name ∧ OnWay mg (originComponents mg spec) j.id element

lemma mem_jewels {ledger : List LedgerElement} {localeCompare : String → String → Ordering} {v : JewelView}
    (h : v ∈ (modeAReachability mg ledger localeCompare spec).jewels) :
    ∃ j ∈ crownJewels mg, jewelViewOf mg ledger (buildProjection mg) (originsOf mg spec).1 j = v :=
  mem_map.1 ((sortBy_perm _ _).mem_iff.1 h)

lemma jewel_mem_components {j : ModelGraphComponent} (h : j ∈ crownJewels mg) : j ∈ mg.components :=
  mem_of_mem_filter h

lemma mem_originComponents {o b : String} {nodes edges : List String} (ho : o ∈ (originsOf mg spec).1)
    (hroute : FlowRoute mg o nodes edges b) (hb : b ∈ mg.components.map ModelGraphComponent.id) :
    o ∈ originComponents mg spec :=
  mem_filter.2 ⟨ho, decide_eq_true (hroute.source_mem hb)⟩

lemma jewelViewOf_spec (ledger : List LedgerElement) {j : ModelGraphComponent} (hj : j ∈ crownJewels mg) :
    let v := jewelViewOf mg ledger (buildProjection mg) (originsOf mg spec).1 j
    (v.reachable = true ↔ ∃ o ∈ originComponents mg spec, ∃ nodes edges, FlowRoute mg o nodes edges v.jewelId) ∧
      (v.reachable = true → v.minHops = some v.shortestEdges.length ∧
        IsShortest mg (originComponents mg spec) v.shortestNodes v.shortestEdges v.jewelId) := by
  have hjewel : j.id ∈ mg.components.map ModelGraphComponent.id := mem_map_of_mem (jewel_mem_components hj)
  have hsub : ∀ o ∈ originComponents mg spec, o ∈ (originsOf mg spec).1 := fun o ho => mem_of_mem_filter ho
  rcases bfsShortest_eq mg (originsOf_cases mg spec).1 j.id with
    ⟨nodes, edges, hfound, ⟨o, ho, hroute⟩, hle⟩ | ⟨hfound, hnone⟩
  · have horigin := mem_originComponents ho hroute hjewel
    simp only [jewelViewOf, hfound]
    refine ⟨iff_of_true trivial ⟨o, horigin, nodes, edges, hroute⟩, fun _ => ⟨rfl, ⟨o, horigin, hroute⟩, ?_⟩⟩
    exact fun o' ho' => hle o' (hsub o' ho')
  · simp only [jewelViewOf, hfound]
    refine ⟨iff_of_false nofun ?_, nofun⟩
    rintro ⟨o, ho, nodes, edges, hroute⟩
    exact hnone o (hsub o ho) (exists_flowRoute_iff.1 ⟨_, _, hroute⟩)

lemma onWay_originComponents {j : ModelGraphComponent} (hj : j ∈ crownJewels mg) {element : String} :
    OnWay mg (originsOf mg spec).1 j.id element ↔ OnWay mg (originComponents mg spec) j.id element := by
  have hjewel : j.id ∈ mg.components.map ModelGraphComponent.id := mem_map_of_mem (jewel_mem_components hj)
  constructor
  · rintro ⟨hnot, o, ho, nodes, edges, hroute, hmem⟩
    have horigin := mem_originComponents ho hroute hjewel
    exact ⟨fun h => hnot (mem_of_mem_filter h), o, horigin, nodes, edges, hroute, hmem⟩
  · rintro ⟨hnot, o, ho, nodes, edges, hroute, hmem⟩
    refine ⟨fun h => hnot ?_, o, mem_of_mem_filter ho, nodes, edges, hroute, hmem⟩
    exact mem_filter.2 ⟨h, decide_eq_true hjewel⟩

/-- Mode A reports the reachability that the flows have, and joins an element to the names of the jewels that it is
on the way to. -/
theorem modeA_reports_routes (mg : ModelGraph) (ledger : List LedgerElement)
    (localeCompare : String → String → Ordering) (spec : OriginSpec) :
    ReportsRoutes mg spec (modeAReachability mg ledger localeCompare spec) where
  jewels := by
    have hperm := (sortBy_perm (compareJewels localeCompare) ((crownJewels mg).map
      (jewelViewOf mg ledger (buildProjection mg) (originsOf mg spec).1))).map fun v => (v.jewelId, v.jewelName)
    rwa [map_map] at hperm
  reachable_iff v hv := by
    obtain ⟨j, hj, rfl⟩ := mem_jewels hv
    exact (jewelViewOf_spec ledger hj).1
  shortest v hv := by
    obtain ⟨j, hj, rfl⟩ := mem_jewels hv
    exact (jewelViewOf_spec ledger hj).2
  mapped_iff element name := by
    have hmap := mem_foldl_jewels name element
      (routeElementsOf mg (buildProjection mg) (originsOf mg spec).1) (crownJewels mg) ∅
    refine hmap.trans ⟨fun h => ?_, ?_⟩
    · obtain ⟨j, hj, hmem, rfl⟩ := h.resolve_left not_mem_nil
      refine ⟨j, hj, rfl, (onWay_originComponents hj).1 ?_⟩
      exact (mem_routeElementsOf_iff (originsOf_cases mg spec).1 (originsOf_cases mg spec).2
        (jewel_mem_components hj)).1 hmem
    · rintro ⟨j, hj, rfl, hway⟩
      refine .inr ⟨j, hj, ?_, rfl⟩
      exact (mem_routeElementsOf_iff (originsOf_cases mg spec).1 (originsOf_cases mg spec).2
        (jewel_mem_components hj)).2 ((onWay_originComponents hj).2 hway)

/-- Two databases of one name, each behind a component of its own. -/
def twins : ModelGraph where
  boundaries := []
  components := [ ⟨"visitor", by decide, "User", some "EXTERNAL_ENTITY", none, false⟩,
    ⟨"left", by decide, "Left", none, none, false⟩,
    ⟨"right", by decide, "Right", none, none, false⟩,
    ⟨"db1", by decide, "Database", none, none, true⟩,
    ⟨"db2", by decide, "Database", none, none, true⟩]
  flows := [("visitor", "left"), ("visitor", "right"), ("left", "db1"), ("right", "db2")].map fun e =>
    ⟨e.1 ++ e.2, "", some e.1, some e.2, [], 0⟩
  dataNodes := []

/-- A component is joined to the name of a jewel that it is not on the way to. -/
theorem twins_shareName : ¬ ∀ j ∈ crownJewels twins, ∀ element,
    j.name ∈ ((modeAReachability twins [] compare .external).routeElementToJewels.get? element).getD [] ↔
      OnWay twins (originComponents twins .external) j.id element := by
  intro h
  have hname : "Database" ∈
      ((modeAReachability twins [] compare .external).routeElementToJewels.get? "left").getD [] := by decide +kernel
  have hjewel : (⟨"db2", by decide, "Database", none, none, true⟩ : ModelGraphComponent) ∈ crownJewels twins := by
    simp [crownJewels, twins]
  obtain ⟨-, o, _, nodes, edges, hroute, hmem⟩ := (h _ hjewel "left").1 hname
  have hreach : Relation.ReflTransGen (FlowsTo twins) "left" "db2" := by
    rcases hmem with hmem | hmem
    · exact (hroute.split.1 _ hmem).2
    · -- no flow has the id of a component
      obtain ⟨f, hf, hid, -⟩ := hroute.split.2 _ hmem
      exact absurd hid ((by decide : ∀ f ∈ twins.flows, f.id ≠ "left") f hf)
  have hnone : "left" ∉ closure (buildProjection twins).backward ["db2"] := by decide +kernel
  exact hnone (mem_closure_jewel_iff.2 hreach)

end ThreatReport
