import Mathlib.Data.Set.Card
import Dethernety.Foundations.SimpleRoutes
import Dethernety.ThreatReport.ShortestRoutes

/-!
# Enumerating flow routes

Model of `enumerateRoutes` of `reachability.js`. The search keeps its route in two stacks and a set that it
restores after every hop, so what it comes to, in this order, are the simple routes of at most `maxHops`
hops (`dfs_spec`). Without a ceiling it counts them all and keeps the first `maxRoutes`
(`enumerateRoutes_exact`).
-/

open List Bool Nat

namespace ThreatReport

open SimpleRoutes

section

/-- `opts`; a bound that is not given has its default. -/
structure RouteOptions where
  maxHops : Option ℕ := none
  maxRoutes : Option ℕ := none
  hardCeiling : Option ℕ := none
  stepCeiling : Option ℕ := none

namespace RouteOptions

variable (opts : RouteOptions)

/-- `DEFAULT_MAX_HOPS` -/
def hops : ℕ :=
  opts.maxHops.getD 6

/-- `DEFAULT_MAX_ROUTES` -/
def routes : ℕ :=
  opts.maxRoutes.getD 25

/-- `HARD_TOTAL_CEILING` -/
def ceiling : ℕ :=
  opts.hardCeiling.getD 2000

/-- `STEP_CEILING` -/
def steps : ℕ :=
  opts.stepCeiling.getD 100000

end RouteOptions

/-- A route of `routes`: the ids of its components and of its flows. -/
structure FoundRoute where
  nodes : List String
  edges : List String
  deriving DecidableEq

/-- The variables of `enumerateRoutes`. -/
structure DfsState where
  routes : List FoundRoute
  total : ℕ
  ceilingHit : Bool
  steps : ℕ
  visited : List String
  nodes : List String
  edges : List String

/-- What `enumerateRoutes` returns. -/
structure RouteEnumeration where
  routes : List FoundRoute
  displayed : ℕ
  total : Option ℕ
  capped : Bool
  ceilingHit : Bool

variable (opts : RouteOptions) (forward : Adjacency) (targetId : String)

/-- The target was reached. -/
def arrive (s : DfsState) : DfsState :=
  { s with
    total := s.total + 1
    routes := if s.routes.length < opts.routes then s.routes ++ [⟨s.nodes, s.edges⟩] else s.routes
    ceilingHit := s.ceilingHit || decide (s.total + 1 ≥ opts.ceiling) }

/-- `++steps` -/
def DfsState.charge (s : DfsState) : DfsState :=
  { s with steps := s.steps + 1 }

/-- What precedes the call for the component of a hop. -/
def DfsState.push (s : DfsState) (e : Hop) : DfsState :=
  { s with visited := s.visited ++ [e.node], nodes := s.nodes ++ [e.node], edges := s.edges ++ [e.flowId] }

/-- What follows it. -/
def DfsState.pop (s : DfsState) (e : Hop) : DfsState :=
  { s with visited := s.visited.erase e.node, nodes := s.nodes.dropLast, edges := s.edges.dropLast }

/-- The loop of `dfs` over the hops of a component, where `dfs` goes on from the next one. -/
def dfsHops (dfs : String → DfsState → DfsState) : List Hop → DfsState → DfsState
  | [], s => s
  | e :: hops, s =>
    let s := s.charge
    if s.steps > opts.steps then { s with ceilingHit := true }
    else if e.node ∈ s.visited then dfsHops dfs hops s
    else
      let s := (dfs e.node (s.push e)).pop e
      if s.ceilingHit then s else dfsHops dfs hops s

/-- `dfs`; the depth cap bounds the number of calls within each other. -/
def dfs : ℕ → String → DfsState → DfsState
  | left, cur, s =>
    if s.ceilingHit then s
    else if cur = targetId then arrive opts s
    else if s.nodes.length - 1 ≥ opts.hops then s
    else
      match left with
      | 0 => s
      | left + 1 => dfsHops opts (dfs left) (hopsOf forward cur) s

/-- The state before the first call. -/
def DfsState.start (originId : String) : DfsState where
  routes := []
  total := 0
  ceilingHit := false
  steps := 0
  visited := [originId]
  nodes := [originId]
  edges := []

def enumerateRoutes (originId : String) : RouteEnumeration :=
  if originId = "" ∨ targetId = "" ∨ originId = targetId then ⟨[], 0, some 0, false, false⟩
  else
    let s := dfs opts forward targetId opts.hops originId (.start originId)
    { routes := s.routes
      displayed := s.routes.length
      total := if s.ceilingHit then none else some s.total
      capped := s.ceilingHit || decide (s.routes.length < s.total)
      ceilingHit := s.ceilingHit }

end

section

variable {opts : RouteOptions} {forward : Adjacency} {targetId : String} {s s' s'' : DfsState}
  {found found' : List (List Hop)}

/-- The simple routes to the target of at most `left` hops that keep away from what was visited. -/
abbrev routesTo (forward : Adjacency) (targetId : String) : ℕ → String → List String → List (List Hop) :=
  simpleRoutes (hopsOf forward) Hop.node targetId

/-- The simple routes through one of the hops of a component. -/
abbrev routesThrough (forward : Adjacency) (targetId : String) (left : ℕ) (visited : List String)
    (l : List Hop) : List (List Hop) :=
  l.flatMap fun e =>
    if e.node ∈ visited then []
    else (routesTo forward targetId left e.node (visited ++ [e.node])).map (e :: ·)

/-- The route of the stacks, gone on along hops. -/
def DfsState.routeOf (s : DfsState) (es : List Hop) : FoundRoute where
  nodes := s.nodes ++ es.map Hop.node
  edges := s.edges ++ es.map Hop.flowId

/-- The search has come to routes, in their order, and has restored its stacks. -/
structure Finds (opts : RouteOptions) (s s' : DfsState) (found : List (List Hop)) : Prop where
  routes : s'.routes = s.routes ++ (found.map s.routeOf).take (opts.routes - s.routes.length)
  total : s'.total = s.total + found.length
  visited : s'.visited = s.visited
  nodes : s'.nodes = s.nodes
  edges : s'.edges = s.edges

lemma Finds.refl (s : DfsState) : Finds opts s s [] where
  routes := by rw [map_nil, take_nil, append_nil]
  total := rfl
  visited := rfl
  nodes := rfl
  edges := rfl

lemma Finds.trans (h : Finds opts s s' found) (h' : Finds opts s' s'' found') :
    Finds opts s s'' (found ++ found') where
  routes := by
    have hsame : s'.routeOf = s.routeOf := by
      funext es
      rw [DfsState.routeOf, DfsState.routeOf, h.nodes, h.edges]
    have hroom : opts.routes - s'.routes.length =
        opts.routes - s.routes.length - (found.map s.routeOf).length := by
      rw [h.routes, length_append, length_take]
      omega
    rw [h'.routes, hsame, hroom, h.routes, map_append, take_append, append_assoc]
  total := by
    rw [h'.total, h.total, length_append, add_assoc]
  visited := h'.visited.trans h.visited
  nodes := h'.nodes.trans h.nodes
  edges := h'.edges.trans h.edges

/-- What a search does: it comes to the first of some routes, and to all of them without a ceiling. -/
def CoversAll (opts : RouteOptions) (s s' : DfsState) (all : List (List Hop)) : Prop :=
  ∃ found, found <+: all ∧ Finds opts s s' found ∧ (s'.ceilingHit = false → found = all)

lemma covers_arrive : CoversAll opts s (arrive opts s) [[]] := by
  refine ⟨[[]], prefix_rfl, ?_, fun _ => rfl⟩
  refine ⟨?_, rfl, rfl, rfl, rfl⟩
  have hroute : s.routeOf [] = ⟨s.nodes, s.edges⟩ := by
    rw [DfsState.routeOf, map_nil, map_nil, append_nil, append_nil]
  rw [arrive, map_singleton, hroute]
  split_ifs with hroom
  · obtain ⟨k, hk⟩ := Nat.exists_eq_succ_of_ne_zero (Nat.sub_ne_zero_of_lt hroom)
    rw [hk, take_succ_cons, take_nil]
  · rw [Nat.sub_eq_zero_of_le (Nat.le_of_not_lt hroom), take_zero, append_nil]

lemma Finds.pop {e : Hop} (h : Finds opts (s.push e) s' found) (hvisited : e.node ∉ s.visited) :
    Finds opts s (s'.pop e) (found.map (e :: ·)) where
  routes := by
    have hroute : ∀ es, (s.push e).routeOf es = s.routeOf (e :: es) := by
      intro es
      rw [DfsState.routeOf, DfsState.routeOf, DfsState.push, map_cons, map_cons,
        append_assoc, append_assoc, singleton_append, singleton_append]
    have hmap : found.map (s.push e).routeOf = (found.map (e :: ·)).map s.routeOf := by
      rw [map_map]
      exact map_congr_left fun es _ => hroute es
    rw [← hmap]
    exact h.routes
  total := by
    rw [length_map]
    exact h.total
  visited := by
    show s'.visited.erase e.node = s.visited
    rw [h.visited]
    show (s.visited ++ [e.node]).erase e.node = s.visited
    rw [erase_append_right _ hvisited, erase_cons_head, append_nil]
  nodes := by
    show s'.nodes.dropLast = s.nodes
    rw [h.nodes]
    exact dropLast_concat
  edges := by
    show s'.edges.dropLast = s.edges
    rw [h.edges]
    exact dropLast_concat

lemma CoversAll.of_charge {all : List (List Hop)} (h : CoversAll opts s.charge s' all) : CoversAll opts s s' all := by
  obtain ⟨found, hprefix, ⟨hroutes, htotal, hvisited, hnodes, hedges⟩, hall⟩ := h
  exact ⟨found, hprefix, ⟨hroutes, htotal, hvisited, hnodes, hedges⟩, hall⟩

lemma CoversAll.append {all all' : List (List Hop)} (h : CoversAll opts s s' all) (hs' : s'.ceilingHit = false)
    (h' : CoversAll opts s' s'' all') : CoversAll opts s s'' (all ++ all') := by
  obtain ⟨found, -, hfinds, hall⟩ := h
  obtain ⟨found', hprefix', hfinds', hall'⟩ := h'
  obtain rfl := hall hs'
  exact ⟨found ++ found', prefix_append_right_inj _ |>.2 hprefix', hfinds.trans hfinds',
    fun hhit => by rw [hall' hhit]⟩

lemma CoversAll.weaken {all all' : List (List Hop)} (h : CoversAll opts s s' all) (hs' : s'.ceilingHit = true) :
    CoversAll opts s s' (all ++ all') := by
  obtain ⟨found, hprefix, hfinds, -⟩ := h
  refine ⟨found, hprefix.trans (prefix_append _ _), hfinds, fun hhit => ?_⟩
  cases hs'.symm.trans hhit

/-- The loop over the hops of a component comes to the routes through them. -/
lemma covers_dfsHops {left : ℕ} {dfs : String → DfsState → DfsState}
    (hdfs : ∀ (e : Hop) (s : DfsState), s.ceilingHit = false → s.nodes.length + left = opts.hops + 1 →
      s.nodes ≠ [] → CoversAll opts s (dfs e.node s) (routesTo forward targetId left e.node s.visited))
    (l : List Hop) (hs : s.ceilingHit = false) (hdepth : s.nodes.length + left = opts.hops) :
    CoversAll opts s (dfsHops opts dfs l s) (routesThrough forward targetId left s.visited l) := by
  induction l generalizing s with
  | nil => exact ⟨[], prefix_rfl, .refl s, fun _ => rfl⟩
  | cons e l ih =>
    refine CoversAll.of_charge ?_
    rw [dfsHops, routesThrough, flatMap_cons]
    have hcharged : s.charge.ceilingHit = false := hs
    by_cases hsteps : s.charge.steps > opts.steps
    · rw [if_pos hsteps]
      exact ⟨[], List.nil_prefix, ⟨(Finds.refl _).routes, rfl, rfl, rfl, rfl⟩, fun hhit => by cases hhit⟩
    rw [if_neg hsteps]
    by_cases hvisited : e.node ∈ s.visited
    · rw [if_pos hvisited, if_pos (show e.node ∈ s.charge.visited from hvisited), nil_append]
      exact ih hcharged hdepth
    rw [if_neg hvisited, if_neg (show e.node ∉ s.charge.visited from hvisited)]
    -- the routes through this hop
    have hpushed : (s.charge.push e).nodes.length + left = opts.hops + 1 := by
      show (s.nodes ++ [e.node]).length + left = opts.hops + 1
      rw [length_append, length_singleton]
      omega
    obtain ⟨found, hprefix, hfinds, hall⟩ := hdfs e (s.charge.push e) hcharged hpushed (concat_ne_nil _ _)
    have hpop := hfinds.pop hvisited
    have hcovers : CoversAll opts s.charge ((dfs e.node (s.charge.push e)).pop e)
        ((routesTo forward targetId left e.node (s.visited ++ [e.node])).map (e :: ·)) :=
      ⟨_, hprefix.map _, hpop, fun hhit => by rw [hall hhit]; rfl⟩
    by_cases hhit : ((dfs e.node (s.charge.push e)).pop e).ceilingHit = true
    · rw [if_pos hhit]
      exact hcovers.weaken hhit
    · rw [if_neg hhit]
      have hnodes := hpop.nodes
      have hrest := ih (eq_false_iff.2 hhit) (by rw [hnodes]; exact hdepth)
      rw [hpop.visited] at hrest
      exact hcovers.append (eq_false_iff.2 hhit) hrest

lemma covers_dfs (left : ℕ) (cur : String) (hs : s.ceilingHit = false)
    (hdepth : s.nodes.length + left = opts.hops + 1) (hne : s.nodes ≠ []) :
    CoversAll opts s (dfs opts forward targetId left cur s) (routesTo forward targetId left cur s.visited) := by
  induction left generalizing cur s with
  | zero =>
    have hcap : s.nodes.length - 1 ≥ opts.hops := by omega
    rw [dfs, if_neg (by rw [hs]; exact false_ne_true), routesTo, simpleRoutes]
    split_ifs
    · exact covers_arrive
    · exact ⟨[], prefix_rfl, .refl s, fun _ => rfl⟩
  | succ left ih =>
    have hpos := length_pos_iff.2 hne
    have hcap : ¬ s.nodes.length - 1 ≥ opts.hops := by omega
    rw [dfs, if_neg (by rw [hs]; exact false_ne_true), routesTo, simpleRoutes]
    split_ifs
    · exact covers_arrive
    · exact covers_dfsHops (fun e s' hs' hdepth' hne' => ih e.node hs' hdepth' hne') _ hs (by omega)

lemma mem_routesTo_iff {a b : String} {maxHops : ℕ} {es : List Hop} :
    es ∈ routesTo forward b maxHops a [a] ↔
      IsSimple (hopsOf forward) Hop.node a es b ∧ es.length ≤ maxHops := by
  rw [routesTo, mem_simpleRoutes_iff (mem_singleton_self a), and_congr_right_iff]
  intro hsimple
  refine and_iff_left fun e he hmem => ?_
  have ha := (nodup_cons.1 hsimple.nodup).1
  exact ha (mem_singleton.1 hmem ▸ mem_map_of_mem he)

/-- The routes in the order in which the search comes to them. -/
def listedRoutes (forward : Adjacency) (maxHops : ℕ) (a b : String) : List FoundRoute :=
  (routesTo forward b maxHops a [a]).map (DfsState.start a).routeOf

/-- The search keeps the first of the listed routes, and counts all of them without a ceiling. -/
lemma enumerateRoutes_spec (opts : RouteOptions) (forward : Adjacency) {a b : String} (ha : a ≠ "")
    (hb : b ≠ "") (hne : a ≠ b) :
    ∃ l, l <+: listedRoutes forward opts.hops a b ∧
      (enumerateRoutes opts forward b a).routes = l.take opts.routes ∧
      ((enumerateRoutes opts forward b a).ceilingHit = false → l = listedRoutes forward opts.hops a b ∧
        (enumerateRoutes opts forward b a).total = some l.length) := by
  unfold enumerateRoutes
  rw [if_neg (by tauto)]
  have hcovers : CoversAll opts (.start a) (dfs opts forward b opts.hops a (.start a))
      (routesTo forward b opts.hops a [a]) :=
    covers_dfs opts.hops a rfl (add_comm _ _) (cons_ne_nil _ _)
  obtain ⟨found, hprefix, hfinds, hall⟩ := hcovers
  refine ⟨found.map (DfsState.start a).routeOf, hprefix.map _, hfinds.routes, fun hhit => ?_⟩
  obtain rfl := hall hhit
  refine ⟨rfl, ?_⟩
  have htotal := hfinds.total
  rw [show (DfsState.start a).total = 0 from rfl, zero_add] at htotal
  dsimp only at hhit ⊢
  rw [hhit, if_neg Bool.false_ne_true, htotal, length_map]

end

section

/-- The hops of a graph of flows: the ids of its components are not empty, and the hops of a component
differ in their flow or in where they go. -/
structure FlowGraph where
  forward : Adjacency
  named : ∀ id, ∀ e ∈ hopsOf forward id, id ≠ "" ∧ e.node ≠ ""
  distinct : ∀ id, ((hopsOf forward id).map fun e => (e.flowId, e.node)).Nodup

/-- The simple routes from one component to another of at most a number of hops. -/
def FlowGraph.routesWithin (g : FlowGraph) (maxHops : ℕ) (a b : String) : Set FoundRoute :=
  {r | ∃ es, IsSimple (hopsOf g.forward) Hop.node a es b ∧ es.length ≤ maxHops ∧
    r = ⟨nodesOf Hop.node a es, es.map Hop.flowId⟩}

/-- What an enumeration of the routes from one component to another returns. -/
structure IsEnumeration (g : FlowGraph) (opts : RouteOptions) (a b : String) (found : RouteEnumeration) :
    Prop where
  mem_routesWithin : ∀ r ∈ found.routes, r ∈ g.routesWithin opts.hops a b
  nodup : found.routes.Nodup
  displayed_eq : found.displayed = found.routes.length
  displayed_le : found.displayed ≤ opts.routes
  /-- Without a ceiling, the total is the number of all routes. -/
  exact : found.ceilingHit = false → ∃ total : ℕ, found.total = some total ∧
    (g.routesWithin opts.hops a b).encard = total ∧ found.routes.length = min opts.routes total

variable (g : FlowGraph) (opts : RouteOptions) {a b : String}

lemma FlowGraph.nodup_hopsOf (id : String) : (hopsOf g.forward id).Nodup :=
  (g.distinct id).of_map _

lemma routeOf_start (es : List Hop) : (DfsState.start a).routeOf es = ⟨nodesOf Hop.node a es, es.map Hop.flowId⟩ :=
  rfl

lemma FlowGraph.mem_listed_iff {maxHops : ℕ} {r : FoundRoute} :
    r ∈ listedRoutes g.forward maxHops a b ↔ r ∈ g.routesWithin maxHops a b := by
  rw [listedRoutes, mem_map]
  constructor
  · rintro ⟨es, hes, rfl⟩
    obtain ⟨hsimple, hlength⟩ := mem_routesTo_iff.1 hes
    exact ⟨es, hsimple, hlength, rfl⟩
  · rintro ⟨es, hsimple, hlength, rfl⟩
    exact ⟨es, mem_routesTo_iff.2 ⟨hsimple, hlength⟩, rfl⟩

lemma FlowGraph.nodup_listed (maxHops : ℕ) : (listedRoutes g.forward maxHops a b).Nodup := by
  refine (nodup_simpleRoutes g.nodup_hopsOf).map_on fun es hes es' hes' heq => ?_
  obtain ⟨hsimple, -⟩ := mem_routesTo_iff.1 hes
  obtain ⟨hsimple', -⟩ := mem_routesTo_iff.1 hes'
  rw [routeOf_start, routeOf_start] at heq
  obtain ⟨hnodes, hedges⟩ := FoundRoute.mk.inj heq
  refine hsimple.leads.eq_of_map_eq g.distinct hsimple'.leads ?_
  rw [← zip_map', ← zip_map', hedges, (List.cons.inj hnodes).2]

lemma FlowGraph.encard_routesWithin (maxHops : ℕ) :
    (g.routesWithin maxHops a b).encard = (listedRoutes g.forward maxHops a b).length := by
  have hset : g.routesWithin maxHops a b = ((listedRoutes g.forward maxHops a b).toFinset : Set FoundRoute) := by
    ext r
    rw [coe_toFinset]
    exact g.mem_listed_iff.symm
  rw [hset, Set.encard_coe_eq_coe_finsetCard, toFinset_card_of_nodup (g.nodup_listed maxHops)]

lemma FlowGraph.listed_eq_nil (maxHops : ℕ) (hne : a ≠ b) (h : a = "" ∨ b = "") :
    listedRoutes g.forward maxHops a b = [] := by
  rw [listedRoutes, map_eq_nil_iff, eq_nil_iff_forall_not_mem]
  intro es hes
  obtain ⟨⟨hleads, -⟩, -⟩ := mem_routesTo_iff.1 hes
  cases es with
  | nil => exact hne hleads
  | cons e es =>
    obtain ha | hb := h
    · exact (g.named a e hleads.1).1 ha
    · -- the last hop goes to an id that is not empty
      obtain hmem | hmem := mem_cons.1 hleads.mem_nodesOf
      · exact hne hmem.symm
      · obtain ⟨e', he', heq⟩ := mem_map.1 hmem
        obtain ⟨id, hout⟩ := hleads.exists_mem_out he'
        exact (g.named id e' hout).2 (heq.trans hb)

/-- The enumeration of the routes is exact unless it says otherwise. -/
theorem enumerateRoutes_exact (hne : a ≠ b) : IsEnumeration g opts a b (enumerateRoutes opts g.forward b a) := by
  obtain ⟨l, hprefix, hroutes, hall⟩ : ∃ l, l <+: listedRoutes g.forward opts.hops a b ∧
      (enumerateRoutes opts g.forward b a).routes = l.take opts.routes ∧
      ((enumerateRoutes opts g.forward b a).ceilingHit = false → l = listedRoutes g.forward opts.hops a b ∧
        (enumerateRoutes opts g.forward b a).total = some l.length) := by
    by_cases hempty : a = "" ∨ b = ""
    · rw [g.listed_eq_nil opts.hops hne hempty, enumerateRoutes, if_pos (by tauto)]
      exact ⟨[], prefix_rfl, take_nil.symm, fun _ => ⟨rfl, rfl⟩⟩
    · obtain ⟨ha, hb⟩ := not_or.1 hempty
      exact enumerateRoutes_spec opts g.forward ha hb hne
  have hdisplayed : (enumerateRoutes opts g.forward b a).displayed =
      (enumerateRoutes opts g.forward b a).routes.length := by
    unfold enumerateRoutes
    split_ifs <;> rfl
  refine ⟨fun r hr => ?_, ?_, hdisplayed, ?_, fun hhit => ?_⟩
  · rw [hroutes] at hr
    exact g.mem_listed_iff.1 ( hprefix.subset (mem_of_mem_take hr))
  · rw [hroutes]
    exact ((g.nodup_listed opts.hops).sublist hprefix.sublist).sublist (take_sublist _ _)
  · rw [hdisplayed, hroutes, length_take]
    exact min_le_left _ _
  · obtain ⟨rfl, htotal⟩ := hall hhit
    exact ⟨_, htotal, g.encard_routesWithin opts.hops, by rw [hroutes, length_take]⟩

end

section

variable {mg : ModelGraph}

/-- The hop that a flow adds to those of a component. -/
def hopFrom (mg : ModelGraph) (id : String) (f : ModelGraphFlow) : Option Hop :=
  match hopEnds mg f with
  | none => none
  | some (sourceId, targetId) => if sourceId = id then some ⟨f.id, f.name, f.sensitivities, targetId⟩ else none

lemma hopsOf_hops (mg : ModelGraph) (id : String) : hopsOf (hops mg) id = mg.flows.filterMap (hopFrom mg id) := by
  have hfold : ∀ (l : List ModelGraphFlow) (p : Projection),
      hopsOf (l.foldl (projectFlow mg) p).forward id = hopsOf p.forward id ++ l.filterMap (hopFrom mg id) := by
    intro l
    induction l with
    | nil => exact fun p => (append_nil _).symm
    | cons f l ih =>
      intro p
      rw [foldl_cons, ih, filterMap_cons, projectFlow, hopFrom]
      cases hopEnds mg f with
      | none => rfl
      | some ends =>
        dsimp only
        rw [hopsOf, pushHop, Record.get?_set]
        split_ifs with hid
        · rw [Option.getD_some, hid, append_assoc]
          rfl
        · rfl
  exact hfold mg.flows _

lemma id_ne_empty {id : String} (h : id ∈ mg.components.map ModelGraphComponent.id) : id ≠ "" := by
  obtain ⟨c, -, rfl⟩ := mem_map.1 h
  exact c.id_ne_empty

def flowGraphOf (mg : ModelGraph) (hids : (mg.flows.map ModelGraphFlow.id).Nodup) : FlowGraph where
  forward := hops mg
  named := by
    intro id e he
    obtain ⟨f, -, hends, -⟩ := isHop_of_mem he
    obtain ⟨-, -, ha, hb⟩ := hopEnds_eq_some_iff.1 hends
    exact ⟨id_ne_empty ha, id_ne_empty hb⟩
  distinct := by
    intro id
    have hsub : (((hopsOf (hops mg) id).map Hop.flowId)).Sublist (mg.flows.map ModelGraphFlow.id) := by
      rw [hopsOf_hops]
      induction mg.flows with
      | nil => exact List.Sublist.refl _
      | cons f l ih =>
        rw [List.filterMap_cons, List.map_cons]
        cases hf : hopFrom mg id f with
        | none => exact ih.cons _
        | some e =>
          have hflow : e.flowId = f.id := by
            unfold hopFrom at hf
            split at hf
            · cases hf
            · split_ifs at hf
              rw [← Option.some.inj hf]
          rw [List.map_cons, hflow]
          exact ih.cons_cons _
    have hnodup : ((hopsOf (hops mg) id).map Hop.flowId).Nodup := hids.sublist hsub
    rw [show Hop.flowId = Prod.fst ∘ fun e : Hop => (e.flowId, e.node) from rfl, ← List.map_map] at hnodup
    exact hnodup.of_map _

end

def sampleComponent (id : String) (h : id ≠ "") : ModelGraphComponent where
  id := id
  id_ne_empty := h
  name := id
  type := none
  boundaryId := none
  crownJewel := false

def sampleFlow (id sourceId targetId : String) : ModelGraphFlow where
  id := id
  name := ""
  sourceId := some sourceId
  targetId := some targetId
  sensitivities := []
  dataItemCount := 0

/-- Two flows lead from `a` to `b`, and two more through `c`. -/
def parallelModel : ModelGraph where
  boundaries := []
  components := [sampleComponent "a" (by decide), sampleComponent "b" (by decide), sampleComponent "c" (by decide)]
  flows := [sampleFlow "f1" "a" "b", sampleFlow "f2" "a" "b", sampleFlow "f3" "a" "c", sampleFlow "f4" "c" "b"]
  dataNodes := []

theorem enumerateRoutes_parallelModel :
    (enumerateRoutes {} (hops parallelModel) "b" "a").routes =
        [⟨["a", "b"], ["f1"]⟩, ⟨["a", "b"], ["f2"]⟩, ⟨["a", "c", "b"], ["f3", "f4"]⟩] ∧
      IsEnumeration (flowGraphOf parallelModel (by decide)) {} "a" "b"
        (enumerateRoutes {} (hops parallelModel) "b" "a") :=
  ⟨by decide +kernel, enumerateRoutes_exact (flowGraphOf parallelModel (by decide)) {} (by decide)⟩

end ThreatReport
