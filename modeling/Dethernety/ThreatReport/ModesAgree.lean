import Dethernety.ThreatReport.ModeA
import Dethernety.ThreatReport.ModeB

/-!
# The two modes side by side

Mode B has a route to a crown jewel exactly if mode A reports one that is short enough (`modeB_iff_modeA`), and more
flows neither hide a jewel from mode A nor make its shortest route longer (`modeA_moreFlows`). The choke points are
what all routes of an enumeration pass (`chokePoint_iff_listed`).
-/

open List

namespace ThreatReport

open Search SimpleRoutes

variable {mg mg' : ModelGraph} {ledger ledger' : List LedgerElement}
  {localeCompare localeCompare' : String → String → Ordering} {j : ModelGraphComponent} {a : String}

section

variable {opts : RouteOptions} (ha : a ∈ mg.components.map ModelGraphComponent.id) (hroutes : 0 < opts.routes)
include ha hroutes

lemma modeBRoutes_ne_nil_iff {b : String} (hb : b ∈ mg.components.map ModelGraphComponent.id) (hne : a ≠ b)
    (hhit : (modeBRoutes mg ledger localeCompare a b opts).ceilingHit = false) :
    (modeBRoutes mg ledger localeCompare a b opts).routes ≠ [] ↔ ∃ es, es ∈ routesTo (hops mg) b opts.hops a [a] := by
  obtain ⟨found, hfound, hlisted⟩ := mem_modeBRoutes_iff mg ledger localeCompare ha hb hne hhit
  rw [hfound, Ne, sortBy_eq_nil_iff]
  constructor
  · intro hne'
    obtain ⟨r, hr⟩ := exists_mem_of_ne_nil _ hne'
    obtain ⟨es, hes, -⟩ := (hlisted _).1 ⟨r, hr, rfl⟩
    exact ⟨es, mem_of_mem_take hes⟩
  · rintro ⟨es, hes⟩
    obtain ⟨es', hes'⟩ := exists_mem_of_ne_nil _ fun hnil =>
      (take_eq_nil_iff.1 hnil).elim hroutes.ne' (ne_nil_of_mem hes)
    obtain ⟨r, hr, -⟩ := (hlisted _).2 ⟨es', hes', rfl⟩
    exact ne_nil_of_mem hr

/-- Unless the search is cut off, mode B lists a route from a component to a jewel exactly if mode A, from that
component, reports the jewel with no more hops than a route may have. -/
theorem modeB_iff_modeA (hj : j ∈ crownJewels mg) (hne : a ≠ j.id)
    (hhit : (modeBRoutes mg ledger localeCompare a j.id opts).ceilingHit = false) :
    (modeBRoutes mg ledger localeCompare a j.id opts).routes ≠ [] ↔
      ∃ v ∈ (modeAReachability mg ledger localeCompare (.node a)).jewels, v.jewelId = j.id ∧ v.reachable = true ∧
        ∃ d ∈ v.minHops, d ≤ opts.hops := by
  have horigins : (originsOf mg (.node a)).1 = [a] := by simp [originsOf, id_ne_empty ha]
  rw [modeBRoutes_ne_nil_iff ha hroutes (mem_map_of_mem (jewel_mem_components hj)) hne hhit]
  constructor
  · rintro ⟨es, hes⟩
    obtain ⟨hsimple, hle⟩ := mem_routesTo_iff.1 hes
    obtain ⟨nodes, edges, hroute, hlength⟩ := exists_flowRoute_of_leads hsimple.leads
    obtain ⟨hreachable, hshortest⟩ := @jewelViewOf_spec mg (.node a) ledger j hj
    have horigin : a ∈ originComponents mg (.node a) :=
      mem_filter.2 ⟨horigins ▸ mem_singleton_self a, decide_eq_true ha⟩
    have hreached := hreachable.2 ⟨a, horigin, nodes, edges, hroute⟩
    obtain ⟨hhops, hmin⟩ := hshortest hreached
    refine ⟨_, (sortBy_perm _ _).mem_iff.2 (mem_map_of_mem hj), rfl, hreached, _, hhops, ?_⟩
    exact (hmin.le a horigin nodes edges hroute).trans (hlength.trans_le hle)
  · rintro ⟨v, hv, hid, hreached, d, hd, hle⟩
    obtain ⟨j', -, rfl⟩ := mem_jewels hv
    rw [horigins] at hreached hd
    have hbfs : (bfsShortest (hops mg) [a] j.id).hops = some d := by
      rw [← hid]
      exact (if_pos hreached).symm.trans (Option.mem_def.1 hd)
    obtain ⟨-, es, hes, -⟩ := shortest_listed hbfs hle
    exact ⟨es, hes⟩

end

theorem modeB_iff_modeA_twins : (modeBRoutes twins [] compare "left" "db1" {}).routes ≠ [] ↔
    ∃ v ∈ (modeAReachability twins [] compare (.node "left")).jewels, v.jewelId = "db1" ∧ v.reachable = true ∧
      ∃ d ∈ v.minHops, d ≤ 6 :=
  modeB_iff_modeA (j := ⟨"db1", by decide, "Database", none, none, true⟩) (by decide) (by decide)
    (by simp [crownJewels, twins]) (by decide) (by decide +kernel)

lemma FlowRoute.mono {b : String} {nodes edges : List String} (hcomponents : mg'.components = mg.components)
    (hflows : mg.flows ⊆ mg'.flows) (h : FlowRoute mg a nodes edges b) : FlowRoute mg' a nodes edges b := by
  induction h with
  | nil => exact .nil _
  | concat _ hf hends ih =>
    refine ih.concat (hflows hf) ?_
    rw [hopEnds, componentById, hcomponents]
    exact hends

/-- With more flows between the same components, a jewel that mode A reports as reachable stays reachable, with no
more hops. -/
theorem modeA_moreFlows {spec : OriginSpec} {v : JewelView} (hcomponents : mg'.components = mg.components)
    (hflows : mg.flows ⊆ mg'.flows) (hv : v ∈ (modeAReachability mg ledger localeCompare spec).jewels)
    (hreached : v.reachable = true) :
    ∃ v' ∈ (modeAReachability mg' ledger' localeCompare' spec).jewels, v'.jewelId = v.jewelId ∧
      v'.reachable = true ∧ ∃ d ∈ v.minHops, ∃ d' ∈ v'.minHops, d' ≤ d := by
  obtain ⟨j, hj, rfl⟩ := mem_jewels hv
  have hj' : j ∈ crownJewels mg' := by rwa [crownJewels, hcomponents]
  have horigins : originComponents mg' spec = originComponents mg spec := by
    simp only [originComponents, originsOf, externalEntryIds, componentById, hcomponents]
  obtain ⟨hhops, ⟨o, ho, hroute⟩, -⟩ := (@jewelViewOf_spec mg spec ledger j hj).2 hreached
  obtain ⟨hreachable', hshortest'⟩ := @jewelViewOf_spec mg' spec ledger' j hj'
  have hroute' := hroute.mono hcomponents hflows
  rw [← horigins] at ho
  have hreached' := hreachable'.2 ⟨o, ho, _, _, hroute'⟩
  obtain ⟨hhops', hmin⟩ := hshortest' hreached'
  exact ⟨_, (sortBy_perm _ _).mem_iff.2 (mem_map_of_mem hj'), rfl, hreached', _, hhops, _, hhops',
    hmin.le o ho _ _ hroute'⟩

/-- The twins, with a flow past the component in front of one. -/
def bypassed : ModelGraph :=
  { twins with flows := ⟨"bypass", "", some "visitor", some "db1", [], 0⟩ :: twins.flows }

theorem modeA_moreFlows_bypassed : ∃ v ∈ (modeAReachability bypassed [] compare .external).jewels,
    v.jewelId = "db1" ∧ v.reachable = true := by
  have hjewel : (⟨"db1", by decide, "Database", none, none, true⟩ : ModelGraphComponent) ∈ crownJewels twins := by
    simp [crownJewels, twins]
  obtain ⟨v, hv, hid, hreached, -⟩ := @modeA_moreFlows twins bypassed [] [] compare compare .external _ rfl
    (subset_cons_self _ _) ((sortBy_perm _ _).mem_iff.2 (mem_map_of_mem hjewel)) (by decide +kernel)
  exact ⟨v, hv, hid, hreached⟩

section

variable {b s t v : String} {es : List Hop} {r : List String}

lemma route_of_leads (h : Leads (hopsOf (hops mg)) Hop.node a es b) :
    Route (FlowsTo mg) a (nodesOf Hop.node a es) b := by
  induction es generalizing a with
  | nil =>
    obtain rfl : a = b := h
    exact .nil a
  | cons e es ih => exact .cons (mem_successors_forward.1 (mem_map_of_mem h.1)) (ih h.2)

lemma exists_isSimple_of_route (h : Route (FlowsTo mg) a r b) :
    ∃ es, IsSimple (hopsOf (hops mg)) Hop.node a es b ∧ nodesOf Hop.node a es ⊆ r := by
  obtain ⟨es, hleads, rfl⟩ : ∃ es, Leads (hopsOf (hops mg)) Hop.node a es b ∧ nodesOf Hop.node a es = r := by
    induction h with
    | nil => exact ⟨[], rfl, rfl⟩
    | cons e _ ih =>
      obtain ⟨es, hes, rfl⟩ := ih
      obtain ⟨hop, hhop, rfl⟩ := mem_map.1 (mem_successors_forward.2 e)
      exact ⟨hop :: es, ⟨hhop, hes⟩, rfl⟩
  obtain ⟨es', hsimple, hsub⟩ := hleads.exists_isSimple
  exact ⟨es', hsimple, cons_subset_cons a (map_subset _ hsub.subset)⟩

variable (hs : s ∈ mg.components.map ModelGraphComponent.id) (ht : t ∈ mg.components.map ModelGraphComponent.id)
  (hne : s ≠ t)
include hs

lemma length_lt_of_isSimple (h : IsSimple (hopsOf (hops mg)) Hop.node s es t) : es.length < mg.components.length := by
  have hsub : nodesOf Hop.node s es ⊆ mg.components.map ModelGraphComponent.id := by
    refine cons_subset.2 ⟨hs, fun x hx => ?_⟩
    obtain ⟨e, he, rfl⟩ := mem_map.1 hx
    obtain ⟨y, hy⟩ := h.leads.exists_mem_out he
    obtain ⟨f, -, hends, -⟩ := isHop_of_mem hy
    exact (hopEnds_eq_some_iff.1 hends).2.2.2
  simpa [nodesOf] using (h.nodup.subperm hsub).length_le

include ht hne

lemma mem_chokePoints_iff : v ∈ (chokePoints mg ledger localeCompare s t).chokePoints.map ChokePoint.id ↔
    Dominates (FlowsTo mg) s t v := by
  have hnone : ¬ (((componentById mg).get? s).isNone || ((componentById mg).get? t).isNone) = true := by
    rw [← isSome_componentById_iff] at hs ht
    simp [Option.isNone_eq_false_iff.2 hs, Option.isNone_eq_false_iff.2 ht]
  simp only [chokePoints, if_neg hnone, if_neg hne]
  split_ifs with hclosure hdirect
  · refine iff_of_false not_mem_nil fun h => ?_
    have hv := h.mem_route [s, t] (.cons (mem_successors_forward.1 hdirect) (.nil t))
    simp [h.ne_source, h.ne_target] at hv
  · rw [← mem_chokeIdsOf_iff hne (mem_closure_forward_iff.1 hclosure), map_map]
    exact iff_of_eq (congrArg (v ∈ ·) (map_id _))
  · exact iff_of_false not_mem_nil fun h => hclosure (mem_closure_forward_iff.2 h.reachable)

/-- Every listed route passes the choke points, and if all routes are listed, what they all pass is a choke point. -/
theorem chokePoint_iff_listed {opts : RouteOptions} {found : RouteEnumeration} {chokes : List String}
    (hfound : enumerateRoutes opts (hops mg) t s = found)
    (hchokes : (chokePoints mg ledger localeCompare s t).chokePoints.map ChokePoint.id = chokes) :
    (v ∈ chokes → ∀ r ∈ found.routes, v ∈ r.nodes) ∧
      (found.ceilingHit = false → found.routes.length < opts.routes → mg.components.length ≤ opts.hops + 1 →
        (v ∈ chokes ↔ v ≠ s ∧ v ≠ t ∧ found.routes ≠ [] ∧ ∀ r ∈ found.routes, v ∈ r.nodes)) := by
  obtain ⟨l, hpre, hroutes, hall⟩ := enumerateRoutes_spec opts (hops mg) (id_ne_empty hs) (id_ne_empty ht) hne
  rw [hfound] at hroutes hall
  rw [← hchokes, mem_chokePoints_iff hs ht hne]
  have hwalk : ∀ r ∈ found.routes, Route (FlowsTo mg) s r.nodes t := by
    intro r hr
    rw [hroutes] at hr
    obtain ⟨es, hes, rfl⟩ := mem_map.1 (hpre.subset (mem_of_mem_take hr))
    exact route_of_leads (mem_routesTo_iff.1 hes).1.leads
  have hpass : Dominates (FlowsTo mg) s t v → ∀ r ∈ found.routes, v ∈ r.nodes :=
    fun hv r hr => hv.mem_route _ (hwalk r hr)
  refine ⟨hpass, fun hhit hcap hhops => ?_⟩
  obtain ⟨rfl, -⟩ := hall hhit
  have hlisted : ∀ es, IsSimple (hopsOf (hops mg)) Hop.node s es t →
      (DfsState.start s).routeOf es ∈ found.routes := by
    intro es hes
    have hle := length_lt_of_isSimple hs hes
    rw [hroutes, length_take] at hcap
    rw [hroutes, take_of_length_le (by omega)]
    exact mem_map_of_mem (mem_routesTo_iff.2 ⟨hes, by omega⟩)
  constructor
  · intro hv
    obtain ⟨r, hr⟩ := hv.reachable
    obtain ⟨es, hes, -⟩ := exists_isSimple_of_route hr
    exact ⟨hv.ne_source, hv.ne_target, ne_nil_of_mem (hlisted es hes), hpass hv⟩
  · rintro ⟨hvs, hvt, hany, hv⟩
    refine ⟨hvs, hvt, ?_, fun r hr => ?_⟩
    · obtain ⟨r, hr⟩ := exists_mem_of_ne_nil _ hany
      exact ⟨_, hwalk r hr⟩
    · -- a route without its detours is listed
      obtain ⟨es, hes, hsub⟩ := exists_isSimple_of_route hr
      exact hsub (hv _ (hlisted es hes))

end

theorem chokePoint_iff_listed_pipeline :
    "broker" ∈ (chokePoints pipeline [] compare "edge" "vault").chokePoints.map ChokePoint.id :=
  ((chokePoint_iff_listed (by decide) (by decide) (by decide)
    (rfl : enumerateRoutes {} (hops pipeline) "vault" "edge" = _) rfl).2 (by decide +kernel) (by decide +kernel)
      (by decide)).2 (by decide +kernel)

end ThreatReport
