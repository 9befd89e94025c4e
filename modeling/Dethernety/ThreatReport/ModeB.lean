import Dethernety.ThreatReport.RouteEnumeration

/-!
# Mode B: the routes between two components

Model of `annotateRoute` and `modeBRoutes` of `reachability.js`. The routes are kept as the search comes to
them, at most `maxRoutes` of them, and only these are sorted by their hops. So a shortest route comes first
exactly if the search comes to one among the first `maxRoutes` (`modeB_first_iff`).
-/

open List

namespace ThreatReport

open SimpleRoutes

section

/-- An entry of a route's `nodes`. -/
structure RouteNode where
  id : String
  name : String
  type : Option String
  crownJewel : Bool
  liveCount : ℕ
  worstBand : Option Band
  hasControl : Bool
  dataHandled : List HandledData

/-- An entry of a route's `hops`. -/
structure RouteHop where
  flowId : String
  flowName : String
  sourceId : String
  targetId : String
  sensitivities : List Sensitivity
  maxSensitivity : Option Sensitivity
  sensitivityLabel : String
  unclassifiedInMotion : Bool
  liveCount : ℕ
  worstBand : Option Band
  hasControl : Bool
  /-- The ids and names of the boundaries. -/
  crossings : List (String × String × MembraneDirection)

structure AnnotatedRoute where
  nodes : List RouteNode
  hops : List RouteHop
  hopCount : ℕ
  crossingCount : ℕ

/-- What `modeBRoutes` returns. -/
structure ModeBView where
  routes : List AnnotatedRoute
  displayed : ℕ
  total : Option ℕ
  capped : Bool
  ceilingHit : Bool
  originId : String
  targetId : String

variable (mg : ModelGraph) (ledger : List LedgerElement)
variable (localeCompare : String → String → Ordering)

def flowById : Record String ModelGraphFlow :=
  .ofList (mg.flows.map fun f => (f.id, f))

/-- The entry of a component of a route. -/
def routeNodeOf (id : String) : RouteNode :=
  let c := (componentById mg).get? id
  let element := (ledgerById ledger).get? id
  let p := postureOf element
  { id := id
    name := ((c.map ModelGraphComponent.name).or (element.map LedgerElement.name)).getD "(not in snapshot)"
    type := c.bind ModelGraphComponent.type
    crownJewel := (c.map ModelGraphComponent.crownJewel).getD false
    liveCount := p.liveCount
    worstBand := p.worstBand
    hasControl := p.hasControl
    dataHandled := dataHandledByNode mg localeCompare id }

/-- The entry of a flow of a route, with the components before and after it. -/
def routeHopOf (flowId srcId dstId : String) : RouteHop :=
  let f := (flowById mg).get? flowId
  let sensitivities := (f.map ModelGraphFlow.sensitivities).getD []
  let top := maxSensitivity sensitivities
  let p := postureOf ((ledgerById ledger).get? flowId)
  { flowId := flowId
    flowName := (f.map ModelGraphFlow.name).getD ""
    sourceId := srcId
    targetId := dstId
    sensitivities := sensitivities
    maxSensitivity := top
    sensitivityLabel := sensitivityLabel top
    unclassifiedInMotion := top.isNone && decide ((f.map ModelGraphFlow.dataItemCount).getD 0 > 0)
    liveCount := p.liveCount
    worstBand := p.worstBand
    hasControl := p.hasControl
    crossings := crossingsForHop mg srcId dstId }

/-- `annotateRoute`; a route of an enumeration has one component more than flows. -/
def annotateRoute (route : FoundRoute) : AnnotatedRoute :=
  let hops := route.edges.zipIdx.map fun e =>
    routeHopOf mg ledger e.1 (route.nodes.getD e.2 "") (route.nodes.getD (e.2 + 1) "")
  { nodes := route.nodes.map (routeNodeOf mg ledger localeCompare)
    hops := hops
    hopCount := route.edges.length
    crossingCount := (hops.map fun hop => hop.crossings.length).sum }

/-- The names by which routes of one length are sorted. -/
def namesOf (route : AnnotatedRoute) : String :=
  ">".intercalate (route.nodes.map RouteNode.name)

/-- The comparator of `modeBRoutes` -/
def byHops : AnnotatedRoute → AnnotatedRoute → Ordering :=
  compareLex (compareOn AnnotatedRoute.hopCount) fun a b => localeCompare (namesOf a) (namesOf b)

/-- `modeBRoutes` -/
def modeBRoutes (originId targetId : String) (opts : RouteOptions) : ModeBView :=
  let found := enumerateRoutes opts (buildProjection mg).forward targetId originId
  { routes := sortBy (byHops localeCompare) (found.routes.map (annotateRoute mg ledger localeCompare))
    displayed := found.displayed
    total := found.total
    capped := found.capped
    ceilingHit := found.ceilingHit
    originId := originId
    targetId := targetId }

end

section

variable (mg : ModelGraph)

/-- How many routes the search comes to before it comes to a shortest one. -/
def routesBeforeShortest (maxHops : ℕ) (originId targetId : String) : ℕ :=
  let routes := routesTo (hops mg) targetId maxHops originId [originId]
  routes.findIdx fun es => routes.all fun es' => es.length ≤ es'.length

variable {mg} {a b : String} {d : ℕ}

lemma FlowRoute.leads {nodes edges : List String} (h : FlowRoute mg a nodes edges b) :
    ∃ es, Leads (hopsOf (hops mg)) Hop.node a es b ∧ es.length = edges.length := by
  induction h with
  | nil => exact ⟨[], rfl, rfl⟩
  | @concat b c _ _ f _ hf hends ih =>
    obtain ⟨es, hleads, hlength⟩ := ih
    obtain ⟨e, he, rfl⟩ : ∃ e ∈ hopsOf (hops mg) b, e.node = c :=
      mem_map.1 (mem_successors_forward.2 (flowsTo_iff.2 ⟨f, hf, hends⟩))
    refine ⟨es ++ [e], leads_concat_iff.2 ⟨b, hleads, he, rfl⟩, ?_⟩
    rw [length_append, length_append, hlength]
    rfl

lemma exists_flowRoute_of_leads {es : List Hop} (h : Leads (hopsOf (hops mg)) Hop.node a es b) :
    ∃ nodes edges, FlowRoute mg a nodes edges b ∧ edges.length = es.length := by
  induction es using List.reverseRecOn generalizing b with
  | nil =>
    obtain rfl : a = b := h
    exact ⟨[a], [], .nil a, rfl⟩
  | append_singleton es e ih =>
    obtain ⟨c, hleads, he, rfl⟩ := leads_concat_iff.1 h
    obtain ⟨nodes, edges, hroute, hlength⟩ := ih hleads
    obtain ⟨f, hf, hends, -⟩ := isHop_of_mem he
    refine ⟨_, _, hroute.concat hf hends, ?_⟩
    rw [length_append, length_append, hlength]
    rfl

lemma shortest_listed {maxHops : ℕ} (hshortest : (bfsShortest (hops mg) [a] b).hops = some d)
    (hle : d ≤ maxHops) : (∀ es ∈ routesTo (hops mg) b maxHops a [a], d ≤ es.length) ∧
      ∃ es ∈ routesTo (hops mg) b maxHops a [a], es.length = d := by
  obtain ⟨nodes, edges, hbfs, ⟨o, ho, hroute⟩, hmin⟩ | ⟨hbfs, -⟩ := bfsShortest_eq mg (nodup_singleton a) b
  · rw [hbfs] at hshortest
    cases hshortest
    obtain rfl := mem_singleton.1 ho
    have hlower : ∀ es ∈ routesTo (hops mg) b maxHops o [o], edges.length ≤ es.length := by
      intro es hes
      obtain ⟨nodes', edges', hroute', hlength⟩ := exists_flowRoute_of_leads (mem_routesTo_iff.1 hes).1.leads
      rw [← hlength]
      exact hmin o (mem_singleton_self o) nodes' edges' hroute'
    refine ⟨hlower, ?_⟩
    obtain ⟨es, hleads, hlength⟩ := hroute.leads
    obtain ⟨es', hsimple, hsub⟩ := hleads.exists_isSimple
    have hshort := hsub.length_le
    have hes' := mem_routesTo_iff.2 ⟨hsimple, Nat.le_trans hshort (hlength.trans_le hle)⟩
    exact ⟨es', hes', Nat.le_antisymm (by omega) (hlower es' hes')⟩
  · rw [hbfs] at hshortest
    cases hshortest

end

section

variable (mg : ModelGraph) (ledger : List LedgerElement)
variable (localeCompare : String → String → Ordering) [Std.TransCmp localeCompare]

instance : Std.TransCmp (byHops localeCompare) := by
  have hnames : Std.TransCmp fun a b : AnnotatedRoute => localeCompare (namesOf a) (namesOf b) :=
    transCmp_comap namesOf
  exact inferInstanceAs (Std.TransCmp (compareLex (compareOn AnnotatedRoute.hopCount) _))

lemma hopCount_le_of_head? {l : List AnnotatedRoute} {r : AnnotatedRoute}
    (h : (sortBy (byHops localeCompare) l).head? = some r) : ∀ r' ∈ l, r.hopCount ≤ r'.hopCount := by
  intro r' hr'
  obtain ⟨rest, hrest⟩ := head?_eq_some_iff.1 h
  have hsorted : (sortBy (byHops localeCompare) l).Pairwise _ := pairwise_sortBy l
  rw [hrest] at hsorted
  have hmem : r' ∈ r :: rest := by
    rw [← hrest]
    exact (sortBy_perm _ l).mem_iff.2 hr'
  obtain rfl | hmem := mem_cons.1 hmem
  · exact Nat.le_refl _
  · have hcmp := (pairwise_cons.1 hsorted).1 r' hmem
    rw [byHops, compareLex, Ordering.isLE_then_iff_and] at hcmp
    exact Nat.isLE_compare.1 hcmp.1

omit [Std.TransCmp localeCompare] in
lemma mem_modeBRoutes_iff {opts : RouteOptions} {a b : String}
    (ha : a ∈ mg.components.map ModelGraphComponent.id) (hb : b ∈ mg.components.map ModelGraphComponent.id)
    (hne : a ≠ b) (hhit : (modeBRoutes mg ledger localeCompare a b opts).ceilingHit = false) :
    ∃ found : List AnnotatedRoute,
      (modeBRoutes mg ledger localeCompare a b opts).routes = sortBy (byHops localeCompare) found ∧
        ∀ n, (∃ r ∈ found, r.hopCount = n) ↔
          ∃ es ∈ (routesTo (hops mg) b opts.hops a [a]).take opts.routes, es.length = n := by
  obtain ⟨l, -, hroutes, hall⟩ := enumerateRoutes_spec opts (hops mg) (id_ne_empty ha) (id_ne_empty hb) hne
  obtain ⟨rfl, -⟩ := hall hhit
  refine ⟨_, rfl, fun n => ?_⟩
  rw [hroutes, listedRoutes, ← map_take, map_map]
  have hcount : ∀ es : List Hop,
      (annotateRoute mg ledger localeCompare ((DfsState.start a).routeOf es)).hopCount = es.length := by
    intro es
    show ([] ++ es.map Hop.flowId).length = es.length
    rw [nil_append, length_map]
  constructor
  · rintro ⟨r, hr, rfl⟩
    obtain ⟨es, hes, rfl⟩ := mem_map.1 hr
    exact ⟨es, hes, (hcount es).symm⟩
  · rintro ⟨es, hes, rfl⟩
    exact ⟨_, mem_map_of_mem hes, hcount es⟩

lemma exists_mem_take_iff {l : List (List Hop)} {d n : ℕ} (hlower : ∀ es ∈ l, d ≤ es.length)
    (hd : ∃ es ∈ l, es.length = d) : (∃ es ∈ l.take n, es.length = d) ↔
      (l.findIdx fun es => l.all fun es' => es.length ≤ es'.length) < n := by
  have hshortest : ∀ es ∈ l, (l.all fun es' => es.length ≤ es'.length) = true ↔ es.length = d := by
    intro es hes
    rw [all_eq_true]
    constructor
    · intro h
      obtain ⟨es', hes', rfl⟩ := hd
      exact Nat.le_antisymm (of_decide_eq_true (h es' hes')) (hlower es hes)
    · rintro rfl es' hes'
      exact decide_eq_true (hlower es' hes')
  constructor
  · rintro ⟨es, hes, hlength⟩
    obtain ⟨i, hi, rfl⟩ := mem_iff_getElem.1 hes
    rw [length_take, Nat.lt_min] at hi
    rw [getElem_take] at hlength
    by_contra hlt
    have hnot := not_of_lt_findIdx (Nat.lt_of_lt_of_le hi.1 (Nat.le_of_not_lt hlt))
    rw [(hshortest _ (getElem_mem hi.2)).2 hlength] at hnot
    exact Bool.false_ne_true hnot.symm
  · intro hlt
    obtain ⟨es, hes, hlength⟩ := hd
    have hfound : (l.findIdx fun es => l.all fun es' => es.length ≤ es'.length) < l.length :=
      findIdx_lt_length_of_exists ⟨es, hes, (hshortest es hes).2 hlength⟩
    have hp := findIdx_getElem (w := hfound)
    refine ⟨_, mem_take_iff_getElem.2 ⟨_, Nat.lt_min.2 ⟨hlt, hfound⟩, rfl⟩, ?_⟩
    exact (hshortest _ (getElem_mem hfound)).1 hp

/-- Mode B shows a shortest route first exactly if the search comes to one among the routes that it keeps. -/
theorem modeB_first_iff {opts : RouteOptions} {a b : String} {d : ℕ}
    (ha : a ∈ mg.components.map ModelGraphComponent.id) (hb : b ∈ mg.components.map ModelGraphComponent.id)
    (hne : a ≠ b) (hshortest : (bfsShortest (hops mg) [a] b).hops = some d) (hle : d ≤ opts.hops)
    (hany : (modeBRoutes mg ledger localeCompare a b opts).routes ≠ [])
    (hhit : (modeBRoutes mg ledger localeCompare a b opts).ceilingHit = false) :
    (∀ r, (modeBRoutes mg ledger localeCompare a b opts).routes.head? = some r → r.hopCount = d) ↔
      routesBeforeShortest mg opts.hops a b < opts.routes := by
  obtain ⟨hlower, hexists⟩ := shortest_listed hshortest hle
  obtain ⟨found, hroutes, hfound⟩ := mem_modeBRoutes_iff mg ledger localeCompare ha hb hne hhit
  rw [routesBeforeShortest, ← exists_mem_take_iff hlower hexists, ← hfound]
  obtain ⟨r, hr⟩ := Option.isSome_iff_exists.1 (isSome_head?.2 hany)
  have hmem : r ∈ found := by
    rw [← (sortBy_perm (byHops localeCompare) found).mem_iff, ← hroutes]
    exact mem_of_mem_head? hr
  constructor
  · exact fun h => ⟨r, hmem, h r hr⟩
  · rintro ⟨r', hr', hlength⟩ r₁ hr₁
    cases hr.symm.trans hr₁
    rw [hroutes] at hr
    have hle' := hopCount_le_of_head? localeCompare hr r' hr'
    obtain ⟨es, hes, hcount⟩ := (hfound r.hopCount).1 ⟨r, hmem, rfl⟩
    have hge := hlower es (mem_of_mem_take hes)
    omega

end

theorem modeB_parallelModel :
    ∃ r, (modeBRoutes parallelModel [] compare "a" "b" {}).routes.head? = some r ∧ r.hopCount = 1 := by
  have hany : (modeBRoutes parallelModel [] compare "a" "b" {}).routes ≠ [] := by
    rw [modeBRoutes, ne_eq, sortBy_eq_nil_iff, map_eq_nil_iff]
    decide +kernel
  obtain ⟨r, hr⟩ := Option.isSome_iff_exists.1 (isSome_head?.2 hany)
  have hfirst := (modeB_first_iff parallelModel [] compare (d := 1) (by decide) (by decide) (by decide)
    (by decide +kernel) (by decide) hany (by decide +kernel)).2 (by decide +kernel)
  exact ⟨r, hr, hfirst r hr⟩

/-- One flow leads from `a` to `b`, after 26 flows from `a` to `c`, which has a flow to `b`. -/
def detourModel : ModelGraph where
  boundaries := []
  components := parallelModel.components
  flows := (List.range 26).map (fun i => sampleFlow ("f" ++ toString i) "a" "c") ++
    [sampleFlow "out" "c" "b", sampleFlow "direct" "a" "b"]
  dataNodes := []

/-- The routes that are kept are all detours. -/
theorem modeB_detourModel : (bfsShortest (hops detourModel) ["a"] "b").hops = some 1 ∧
    (modeBRoutes detourModel [] compare "a" "b" {}).ceilingHit = false ∧
      ∃ r, (modeBRoutes detourModel [] compare "a" "b" {}).routes.head? = some r ∧ r.hopCount = 2 := by
  have hhit : (modeBRoutes detourModel [] compare "a" "b" {}).ceilingHit = false := by decide +kernel
  have hkept : ∀ es ∈ (routesTo (hops detourModel) "b" 6 "a" ["a"]).take 25, es.length = 2 := by decide +kernel
  have hany : (modeBRoutes detourModel [] compare "a" "b" {}).routes ≠ [] := by
    rw [modeBRoutes, ne_eq, sortBy_eq_nil_iff, map_eq_nil_iff]
    decide +kernel
  obtain ⟨found, hroutes, hfound⟩ :=
    mem_modeBRoutes_iff detourModel [] compare (a := "a") (b := "b") (by decide) (by decide) (by decide) hhit
  obtain ⟨r, hr⟩ := Option.isSome_iff_exists.1 (isSome_head?.2 hany)
  have hmem : r ∈ found := by
    rw [← (sortBy_perm (byHops compare) found).mem_iff, ← hroutes]
    exact mem_of_mem_head? hr
  obtain ⟨es, hes, hlength⟩ := (hfound r.hopCount).1 ⟨r, hmem, rfl⟩
  exact ⟨by decide +kernel, hhit, r, hr, hlength.symm.trans (hkept es hes)⟩

end ThreatReport
