import Dethernety.ThreatReport.BoundaryCrossings
import Dethernety.ThreatReport.ConduitEffect

/-!
# Agreement of the views

The verdicts of the policy, its list of conduit errors, its rollup and the worklist of the crossings
are computed by different passes over the graph. They agree: a conduit error on a flow is one of the
list, and a flow with a verdict of any severity crosses a membrane and is in the worklist.
-/

open List Record Option

namespace ThreatReport

open Zoning (Zone)

section

variable {mg : ModelGraph}

/-- The walk up from a boundary that comes to an end: the boundaries on the way. -/
inductive Climb (mg : ModelGraph) : Option String → List String → Prop
  | top : Climb mg none []
  | missing {id : String} (h : (boundaryById mg).get? id = none) : Climb mg (some id) []
  | up {id : String} {b : ModelGraphBoundary} {l : List String}
      (h : (boundaryById mg).get? id = some b) (t : Climb mg b.parentBoundaryId l) :
      Climb mg (some id) (id :: l)

variable {c : Option String} {l : List String}

lemma Climb.unique {l' : List String} (h : Climb mg c l) (h' : Climb mg c l') : l = l' := by
  induction h generalizing l' with
  | top => cases h'; rfl
  | missing hid =>
    cases h' with
    | missing => rfl
    | up hid' => cases hid.symm.trans hid'
  | up hid _ ih =>
    cases h' with
    | missing hid' => cases hid.symm.trans hid'
    | up hid' t' =>
      cases hid.symm.trans hid'
      rw [ih t']

lemma Climb.of_mem (h : Climb mg c l) {id : String}
    (hid : id ∈ l) : ∃ l', Climb mg (some id) l' ∧ l'.length ≤ l.length := by
  induction h with
  | top | missing => cases hid
  | up hb t ih =>
    obtain rfl | hid := mem_cons.1 hid
    · exact ⟨_, .up hb t, Nat.le_refl _⟩
    · obtain ⟨l', hl', hlen⟩ := ih hid
      exact ⟨l', hl', Nat.le_succ_of_le hlen⟩

lemma Climb.not_mutual {s t : String} (hne : s ≠ t) {ls lt : List String}
    (hs : Climb mg (some s) ls) (ht : Climb mg (some t) lt) : ¬ (t ∈ ls ∧ s ∈ lt) := by
  rintro ⟨hts, hst⟩
  cases hs with
  | missing => cases hts
  | up hbs ts =>
    cases ht with
    | missing => cases hst
    | up hbt tt =>
      -- the walk from the other starts after the first boundary
      obtain hts | hts := mem_cons.1 hts
      · exact hne hts.symm
      obtain hst | hst := mem_cons.1 hst
      · exact hne hst
      obtain ⟨l₁, hl₁, hlen₁⟩ := ts.of_mem hts
      obtain ⟨l₂, hl₂, hlen₂⟩ := tt.of_mem hst
      have h₁ := congrArg List.length (hl₁.unique (.up hbt tt))
      have h₂ := congrArg List.length (hl₂.unique (.up hbs ts))
      rw [length_cons] at h₁ h₂
      omega

/-- A walk that meets no boundary twice comes to its end. -/
lemma stackLoop_climb (fuel : ℕ) {chain : List String} (cursor : Option String)
    (hnodup : chain.Nodup) (hsub : chain ⊆ mg.boundaries.map ModelGraphBoundary.id)
    (hfuel : mg.boundaries.length < fuel + chain.length)
    (hend : ∀ id, (stackLoop mg fuel chain cursor).2 ≠ .repeated id) :
    ∃ l, (stackLoop mg fuel chain cursor).1 = chain ++ l ∧ Climb mg cursor l := by
  induction fuel generalizing chain cursor with
  | zero =>
    -- there are no more boundaries than these
    have hlen := (subperm_of_subset hnodup hsub).length_le
    rw [length_map] at hlen
    omega
  | succ fuel ih =>
    cases cursor with
    | none => exact ⟨[], (append_nil _).symm, .top⟩
    | some id =>
      rw [stackLoop] at hend ⊢
      split_ifs at hend ⊢ with hseen
      · exact absurd rfl (hend id)
      · cases hb : (boundaryById mg).get? id with
        | none => exact ⟨[], (append_nil _).symm, .missing hb⟩
        | some b =>
          rw [hb] at hend
          obtain ⟨hid, hmem⟩ := mem_of_boundaryById hb
          have hsub' : chain ++ [id] ⊆ mg.boundaries.map ModelGraphBoundary.id := by
            refine append_subset.2 ⟨hsub, cons_subset.2 ⟨?_, nil_subset _⟩⟩
            exact hid ▸ mem_map_of_mem hmem
          have hnodup' : (chain ++ [id]).Nodup :=
            hnodup.append (nodup_singleton id) (disjoint_singleton.2 hseen)
          have hfuel' : mg.boundaries.length < fuel + (chain ++ [id]).length := by
            rw [length_append, length_singleton]
            omega
          obtain ⟨l, hl, hclimb⟩ := ih b.parentBoundaryId hnodup' hsub' hfuel' hend
          exact ⟨id :: l, by rw [hl, append_assoc]; rfl, .up hb hclimb⟩

lemma climbFrom_climb (h : truncatedBy (climbFrom mg c).2 = []) :
    Climb mg c (climbFrom mg c).1 := by
  have hend : ∀ id, (climbFrom mg c).2 ≠ .repeated id := by
    intro id hid
    rw [hid] at h
    cases h
  obtain ⟨l, hl, hclimb⟩ := stackLoop_climb (mg.boundaries.length + 1) c nodup_nil
    (nil_subset _) (Nat.lt_succ_self _) hend
  rw [climbFrom, hl]
  exact hclimb

end

section

variable {mg : ModelGraph}

lemma mem_stack_iff {c : Option String} {b : ModelGraphBoundary} :
    b.id ∈ (climbFrom mg c).1 ++ [rootSentinel] ↔ b.id ∈ (climbFrom mg c).1 := by
  rw [mem_append, mem_singleton]
  exact or_iff_left b.id_ne_root

variable {sourceId targetId : String}

lemma orderedMembranes_eq_nil_iff : orderedMembranes mg sourceId targetId = [] ↔
      (∀ b ∈ stackOfComponent mg sourceId, b ≠ rootSentinel → b ∈ stackOfComponent mg targetId) ∧
      ∀ b ∈ stackOfComponent mg targetId, b ≠ rootSentinel → b ∈ stackOfComponent mg sourceId := by
  simp [orderedMembranes, filter_eq_nil_iff]

/-- Two boundaries, at least one of them in the graph, are separated by a membrane unless a walk up
goes round in a circle. -/
lemma orderedMembranes_ne_nil {sB tB : String}
    (hs : boundaryOf mg sourceId = some sB) (ht : boundaryOf mg targetId = some tB) (hne : sB ≠ tB)
    (hends : truncatedBy (climbFrom mg (some sB)).2 = [] ∧ truncatedBy (climbFrom mg (some tB)).2 = [])
    (hreal : ((boundaryById mg).get? sB).isSome ∨ ((boundaryById mg).get? tB).isSome) :
    orderedMembranes mg sourceId targetId ≠ [] := by
  intro hnil
  rw [orderedMembranes_eq_nil_iff, stackOfComponent, stackOfComponent, hs, ht] at hnil
  have hclimbS := climbFrom_climb hends.1
  have hclimbT := climbFrom_climb hends.2
  -- a boundary of the graph is the first on its walk, so it is on the other
  have hstep : ∀ {x y : String}, ((boundaryById mg).get? x).isSome →
      Climb mg (some x) (climbFrom mg (some x)).1 →
      (∀ b ∈ (climbFrom mg (some x)).1 ++ [rootSentinel], b ≠ rootSentinel →
        b ∈ (climbFrom mg (some y)).1 ++ [rootSentinel]) →
      x ∈ (climbFrom mg (some y)).1 := by
    intro x y hx hclimb hall
    obtain ⟨b, hb⟩ := isSome_iff_exists.1 hx
    obtain ⟨rfl, -⟩ := mem_of_boundaryById hb
    have hmem : b.id ∈ (climbFrom mg (some b.id)).1 := by
      generalize (climbFrom mg (some b.id)).1 = l at hclimb
      cases hclimb with
      | missing hnone => cases hnone.symm.trans hb
      | up => exact .head _
    exact mem_stack_iff.1 (hall _ (mem_append_left _ hmem) b.id_ne_root)
  -- the other is then a boundary too, since its walk is not empty
  have hback : ∀ {x y : String}, Climb mg (some y) (climbFrom mg (some y)).1 →
      x ∈ (climbFrom mg (some y)).1 → ((boundaryById mg).get? y).isSome := by
    intro x y hclimb hx
    generalize (climbFrom mg (some y)).1 = l at hclimb hx
    cases hclimb with
    | missing => cases hx
    | up hb => rw [hb]; rfl
  refine Climb.not_mutual hne hclimbS hclimbT ?_
  obtain hrealS | hrealT := hreal
  · have hst := hstep hrealS hclimbS hnil.1
    exact ⟨hstep (hback hclimbT hst) hclimbT hnil.2, hst⟩
  · have hts := hstep hrealT hclimbT hnil.2
    exact ⟨hts, hstep (hback hclimbS hts) hclimbS hnil.1⟩

end

section

variable (mg : ModelGraph) (ledger : List LedgerElement) (byFlow : Record String Verdict)

/-- The group of a flow, if the flow crosses a membrane. -/
def groupFor (f : ModelGraphFlow) : Option FlowGroup :=
  (flowEnds f).bind fun e =>
    if (orderedMembranes mg e.1 e.2).isEmpty then none
    else some (groupOf mg ledger byFlow f e.1 e.2 (orderedMembranes mg e.1 e.2))

/-- The truncations of the walks from the ends of a flow. -/
def truncatedFor (f : ModelGraphFlow) : List String :=
  match flowEnds f with
  | none => []
  | some (sourceId, targetId) =>
    truncatedBy (climbFrom mg (boundaryOf mg sourceId)).2 ++
      truncatedBy (climbFrom mg (boundaryOf mg targetId)).2

/-- A flow that crosses a membrane. -/
def crosses (f : ModelGraphFlow) : Bool :=
  match flowEnds f with
  | none => false
  | some (sourceId, targetId) => !(orderedMembranes mg sourceId targetId).isEmpty

lemma crossingsStep_spec (s : CrossingsState) (f : ModelGraphFlow) :
    (crossingsStep mg ledger byFlow s f).groups =
        s.groups ++ (groupFor mg ledger byFlow f).toList ∧ (crossingsStep mg ledger byFlow s f).truncatedBoundaries =
        s.truncatedBoundaries ++ truncatedFor mg f := by
  unfold crossingsStep groupFor truncatedFor
  cases flowEnds f with
  | none => simp
  | some e =>
    simp only [bind_some]
    by_cases hempty : (orderedMembranes mg e.1 e.2).isEmpty = true
    · simp only [if_pos hempty, toList_none, append_nil, append_assoc, and_self]
    · simp only [if_neg hempty, toList_some, append_assoc, and_self]

lemma foldl_crossingsStep_spec (l : List ModelGraphFlow) (s : CrossingsState) :
    (l.foldl (crossingsStep mg ledger byFlow) s).groups = s.groups ++ l.filterMap (groupFor mg ledger byFlow) ∧
      (l.foldl (crossingsStep mg ledger byFlow) s).truncatedBoundaries =
        s.truncatedBoundaries ++ l.flatMap (truncatedFor mg) := by
  induction l generalizing s with
  | nil => simp
  | cons f l ih =>
    obtain ⟨hgroups, htrunc⟩ := crossingsStep_spec mg ledger byFlow s f
    rw [foldl_cons, (ih _).1, (ih _).2, hgroups, htrunc, append_assoc, append_assoc, flatMap_cons]
    refine ⟨?_, rfl⟩
    cases hg : groupFor mg ledger byFlow f with
    | none | some g => simp [hg]

variable {mg ledger byFlow}

lemma groupFor_spec {f : ModelGraphFlow} {g : FlowGroup} (h : groupFor mg ledger byFlow f = some g) :
    g.flowId = f.id ∧ g.verdict = byFlow.get? f.id ∧ g.verdictRank = (g.verdict.map Verdict.verdictRank).getD 0 ∧
      g.escalated = decide (g.verdictRank > 0) := by
  obtain ⟨e, -, he⟩ := bind_eq_some_iff.1 h
  split_ifs at he
  cases he
  exact ⟨rfl, rfl, rfl, rfl⟩

variable (ledger byFlow) in
lemma isSome_groupFor (f : ModelGraphFlow) : (groupFor mg ledger byFlow f).isSome = crosses mg f := by
  unfold groupFor crosses
  cases flowEnds f with
  | none => rfl
  | some e =>
    simp only [bind_some]
    cases (orderedMembranes mg e.1 e.2).isEmpty <;> rfl

end

section

variable {mg : ModelGraph} {effectiveZones : EffectiveZones}

lemma verdictOn_of_missing (hzones : ∀ id ∈ effectiveZones.keys, ∃ b ∈ mg.boundaries, b.id = id)
    {sB tB : String} (hs : (boundaryById mg).get? sB = none) (ht : (boundaryById mg).get? tB = none) :
    (verdictOn mg effectiveZones (sB, tB)).verdict = some .allowed := by
  have hend : ∀ {id : String}, (boundaryById mg).get? id = none →
      endpointOf mg effectiveZones id = ⟨id, .internal, [], []⟩ := by
    intro id hid
    have hzone : effectiveZones.get? id = none := by
      refine notMem_keys_iff.1 fun hmem => ?_
      obtain ⟨b, hb, rfl⟩ := hzones id hmem
      have hkey : b.id ∈ (boundaryById mg).keys :=
        mem_keys_ofList.2 (mem_map.2 ⟨(b.id, b), mem_map_of_mem hb, rfl⟩)
      exact notMem_keys_iff.2 hid hkey
    simp only [endpointOf, hid, hzone, map_none, getD_none]
  rw [verdictOn, judge, hend hs, hend ht]
  rfl

variable (localeCompare : String → String → Ordering)

lemma get?_byFlow_of_mem (hids : (mg.flows.map ModelGraphFlow.id).Nodup) {f : ModelGraphFlow}
    (hf : f ∈ mg.flows) {v : Verdict}
    (hv : (evaluateDataFlowPolicy mg effectiveZones localeCompare).byFlow.get? f.id = some v) :
    ∃ sB tB, crossedPair mg f = some (sB, tB) ∧ v = verdictOn mg effectiveZones (sB, tB) := by
  rw [get?_byFlow] at hv
  obtain ⟨⟨sB, tB⟩, hpair, rfl⟩ := map_eq_some_iff.1 hv
  obtain ⟨f', hf', hid, hcross⟩ := exists_flow_of_mem_flowPairs (mem_of_get?_ofList hpair)
  obtain rfl : f' = f := inj_on_of_nodup_map hids hf' hf hid
  exact ⟨sB, tB, hcross, rfl⟩

end

section

variable (localeCompare : String → String → Ordering) [Std.TransCmp localeCompare]

lemma compareKeysDesc_eq {a b : List ℕ} (h : a.length = b.length) :
    compareKeysDesc a b = List.compareLex (fun x y => compare y x) a b := by
  induction a generalizing b with
  | nil =>
    cases b with
    | nil => rfl
    | cons => cases h
  | cons x a ih =>
    cases b with
    | nil => cases h
    | cons y b => rw [compareKeysDesc, List.compareLex_cons_cons, ih (Nat.succ.inj h)]

/-- `byFlowRankDesc` is a consistent comparator. -/
instance : Std.TransCmp (byFlowRankDesc localeCompare) := by
  have hrank : Std.TransCmp fun a b : FlowGroup => compareKeysDesc (flowRankKey a) (flowRankKey b) := by
    have heq : (fun a b : FlowGroup => compareKeysDesc (flowRankKey a) (flowRankKey b)) =
        fun a b => List.compareLex (fun x y => compare y x) (flowRankKey a) (flowRankKey b) :=
      funext₂ fun a b => compareKeysDesc_eq rfl
    rw [heq]
    exact transCmp_comap flowRankKey
  have hname : Std.TransCmp fun a b : FlowGroup => localeCompare a.flowName b.flowName :=
    transCmp_comap FlowGroup.flowName
  exact inferInstanceAs (Std.TransCmp (compareLex
    (fun a b : FlowGroup => compareKeysDesc (flowRankKey a) (flowRankKey b))
    fun a b => localeCompare a.flowName b.flowName))

omit [Std.TransCmp localeCompare] in
lemma verdictRank_le_of_isLE {a b : FlowGroup} (h : (byFlowRankDesc localeCompare a b).isLE = true) :
    b.verdictRank ≤ a.verdictRank := by
  have hcmp : (compare b.verdictRank a.verdictRank).isLE = true := by
    rw [byFlowRankDesc, Ordering.isLE_then_iff_and] at h
    exact (Ordering.isLE_then_iff_and.1 h.1).1
  exact Nat.isLE_compare.1 hcmp

end

variable {mg : ModelGraph} {effectiveZones : EffectiveZones}
variable {localeCompare : String → String → Ordering} {ledger : List LedgerElement}

def flowKind (result : PolicyResult) (f : ModelGraphFlow) : Option VerdictKind :=
  (result.byFlow.get? f.id).bind Verdict.verdict

lemma boundaryOf_of_componentBoundary {componentId : Option String} {bId : String}
    (h : componentBoundary mg componentId = some bId) :
    ∃ id, componentId.filter (· ≠ "") = some id ∧ boundaryOf mg id = some bId := by
  obtain ⟨hbind, -⟩ := filter_eq_some_iff.1 h
  obtain ⟨id, rfl, hid⟩ := bind_eq_some_iff.1 hbind
  obtain ⟨c, hc, -⟩ := bind_eq_some_iff.1 hid
  -- a component has an id that is not empty
  have hne : id ≠ "" := by
    obtain ⟨c', -, heq⟩ := mem_map.1 (mem_of_get?_ofList hc)
    exact (Prod.mk.inj heq).1 ▸ c'.id_ne_empty
  exact ⟨id, filter_eq_some_iff.2 ⟨rfl, decide_eq_true hne⟩, hid⟩

variable {f : ModelGraphFlow}

lemma ends_of_crossedPair {sB tB : String} (h : crossedPair mg f = some (sB, tB)) :
    ∃ s t, flowEnds f = some (s, t) ∧ boundaryOf mg s = some sB ∧ boundaryOf mg t = some tB ∧ sB ≠ tB := by
  unfold crossedPair at h
  split at h
  next sB' tB' hs ht =>
    split_ifs at h with hne
    cases h
    obtain ⟨s, hs, hsB⟩ := boundaryOf_of_componentBoundary hs
    obtain ⟨t, ht, htB⟩ := boundaryOf_of_componentBoundary ht
    refine ⟨s, t, ?_, hsB, htB, hne⟩
    simp only [flowEnds, hs, ht]
  next => cases h

variable {k : VerdictKind}

/-- A flow with a severe verdict crosses a membrane. -/
lemma crosses_of_kind (hids : (mg.flows.map ModelGraphFlow.id).Nodup)
    (hzones : ∀ id ∈ effectiveZones.keys, ∃ b ∈ mg.boundaries, b.id = id) (hf : f ∈ mg.flows)
    (htrunc : truncatedFor mg f = [])
    (hkind : flowKind (evaluateDataFlowPolicy mg effectiveZones localeCompare) f = some k)
    (hk : k ≠ .allowed) : crosses mg f = true := by
  obtain ⟨v, hv, hvk⟩ := bind_eq_some_iff.1 hkind
  obtain ⟨sB, tB, hpair, rfl⟩ := get?_byFlow_of_mem localeCompare hids hf hv
  obtain ⟨s, t, hends, hs, ht, hne⟩ := ends_of_crossedPair hpair
  have hreal : ((boundaryById mg).get? sB).isSome ∨ ((boundaryById mg).get? tB).isSome := by
    by_contra hnone
    obtain ⟨hsnone, htnone⟩ := not_or.1 hnone
    have hallowed := verdictOn_of_missing hzones (not_isSome_iff_eq_none.1 hsnone)
      (not_isSome_iff_eq_none.1 htnone)
    exact hk (Option.some.inj (hvk.symm.trans hallowed))
  simp only [truncatedFor, hends, hs, ht, append_eq_nil_iff] at htrunc
  simp only [crosses, hends, Bool.not_eq_true', isEmpty_eq_false_iff]
  exact orderedMembranes_ne_nil hs ht hne htrunc hreal

lemma truncatedFor_of_flags (h : ∀ flag ∈ (computeCrossings mg ledger effectiveZones localeCompare).flags,
      flag.key ≠ .nestingCycle) : ∀ f ∈ mg.flows, truncatedFor mg f = [] := by
  have hspec := (foldl_crossingsStep_spec mg ledger
    (evaluateDataFlowPolicy mg effectiveZones localeCompare).byFlow mg.flows ⟨[], 0, 0, 0, [], []⟩).2
  simp only [computeCrossings, flagsOf] at h
  generalize mg.flows.foldl (crossingsStep mg ledger
    (evaluateDataFlowPolicy mg effectiveZones localeCompare).byFlow) ⟨[], 0, 0, 0, [], []⟩ = s at h hspec
  have hnil : s.truncatedBoundaries = [] := by
    by_contra hne
    rw [if_pos (show ¬ s.truncatedBoundaries.isEmpty = true by simpa using hne)] at h
    exact h _ (mem_append_left _ (mem_append_right _ (.head _))) rfl
  rw [hnil, nil_append] at hspec
  exact flatMap_eq_nil_iff.1 hspec.symm

/-- The loop over the groups counts their verdicts. -/
lemma foldl_countVerdict (l : List FlowGroup) (p : PolicyCounts) :
    (l.foldl countVerdict p).violations = p.violations + l.countP (·.kind = some .violation) ∧
      (l.foldl countVerdict p).warnings = p.warnings + l.countP (·.kind = some .warning) ∧
      (l.foldl countVerdict p).advisories = p.advisories + l.countP (·.kind = some .advisory) := by
  induction l generalizing p with
  | nil => exact ⟨rfl, rfl, rfl⟩
  | cons g l ih =>
    obtain ⟨hv, hw, ha⟩ := ih (countVerdict p g)
    rw [foldl_cons, hv, hw, ha]
    simp only [countP_cons, countVerdict]
    cases g.kind with
    | none => simp
    | some k => cases k <;> simp <;> omega

/-- The groups of the loop over the flows. -/
def groups (mg : ModelGraph) (ledger : List LedgerElement) (byFlow : Record String Verdict) :
    List FlowGroup :=
  mg.flows.filterMap (groupFor mg ledger byFlow)

lemma foldl_groups (byFlow : Record String Verdict) :
    (mg.flows.foldl (crossingsStep mg ledger byFlow) ⟨[], 0, 0, 0, [], []⟩).groups = groups mg ledger byFlow :=
  (foldl_crossingsStep_spec mg ledger byFlow mg.flows _).1

lemma map_flowId_groups (byFlow : Record String Verdict) :
    (groups mg ledger byFlow).map FlowGroup.flowId =
      (mg.flows.filter (crosses mg)).map ModelGraphFlow.id := by
  unfold groups
  induction mg.flows with
  | nil => rfl
  | cons f l ih =>
    rw [filter_cons, ← isSome_groupFor ledger byFlow]
    cases hg : groupFor mg ledger byFlow f with
    | none => simpa [hg] using ih
    | some g => simpa [hg, (groupFor_spec hg).1] using ih

/-- The severe verdicts over the groups are those over the flows. -/
lemma countP_groups (hids : (mg.flows.map ModelGraphFlow.id).Nodup)
    (hzones : ∀ id ∈ effectiveZones.keys, ∃ b ∈ mg.boundaries, b.id = id)
    (htrunc : ∀ f ∈ mg.flows, truncatedFor mg f = []) (hk : k ≠ .allowed) :
    (groups mg ledger (evaluateDataFlowPolicy mg effectiveZones localeCompare).byFlow).countP (·.kind = some k) =
      mg.flows.countP fun f => flowKind (evaluateDataFlowPolicy mg effectiveZones localeCompare) f = some k := by
  rw [groups, countP_filterMap]
  refine countP_congr fun f hf => ?_
  cases hg : groupFor mg ledger (evaluateDataFlowPolicy mg effectiveZones localeCompare).byFlow f with
  | none =>
    -- the flow crosses nothing, so its verdict is not severe
    have hcross : crosses mg f = false := by rw [← isSome_groupFor, hg]; rfl
    refine iff_of_false (by simp) fun hkind => ?_
    rw [crosses_of_kind hids hzones hf (htrunc f hf) (of_decide_eq_true hkind) hk] at hcross
    cases hcross
  | some g =>
    rw [map_some, getD_some, FlowGroup.kind, (groupFor_spec hg).2.1, flowKind]

lemma conduitClause_eq_error_iff (hids : (mg.flows.map ModelGraphFlow.id).Nodup) (hf : f ∈ mg.flows) {v : Verdict}
    (hv : (evaluateDataFlowPolicy mg effectiveZones localeCompare).byFlow.get? f.id = some v)
    (hviol : v.verdict = some .violation) :
    ∃ sB tB, crossedPair mg f = some (sB, tB) ∧
      (v.conduitClause = .error ↔ ∃ p q, Declares mg p q ∧ Covers mg sB tB p q ∧
        ∃ e ∈ (evaluateDataFlowPolicy mg effectiveZones localeCompare).conduitErrors,
          e.sourceId = p ∧ e.peerId = q) := by
  obtain ⟨sB, tB, hpair, rfl⟩ := get?_byFlow_of_mem localeCompare hids hf hv
  refine ⟨sB, tB, hpair, ?_⟩
  have hlisted : (∃ p q, Declares mg p q ∧ Covers mg sB tB p q ∧
      ∃ e ∈ (evaluateDataFlowPolicy mg effectiveZones localeCompare).conduitErrors,
        e.sourceId = p ∧ e.peerId = q) ↔
      violationConduitClause mg (staticPass mg effectiveZones).illegalConduitKeys sB tB = .error := by
    rw [violationConduitClause_eq_error_iff]
    refine exists_congr fun p => exists_congr fun q => and_congr_right fun hdec => ?_
    rw [mem_conduitErrors_iff, mem_illegalConduitKeys_iff hdec, and_iff_right hdec]
  rw [hlisted]
  obtain hclause | ⟨hnone, hclause⟩ := judged_classify.conduitClause hviol
  · exact iff_of_eq (congrArg (· = ConduitClause.error) hclause)
  · -- no conduit covers the flow
    refine iff_of_false (fun he => ?_) fun he => ?_
    · cases hclause.symm.trans he
    · obtain ⟨p, q, hdec, hcov, -⟩ := violationConduitClause_eq_error_iff.1 he
      rw [hasConduit_iff.2 ⟨p, q, hdec, hcov⟩] at hnone
      cases hnone

lemma fails_iff :
    (evaluateDataFlowPolicy mg effectiveZones localeCompare).fails = true ↔ (∃ f ∈ mg.flows,
        flowKind (evaluateDataFlowPolicy mg effectiveZones localeCompare) f = some .violation) ∨
      (evaluateDataFlowPolicy mg effectiveZones localeCompare).conduitErrors ≠ [] := by
  have hfails : (evaluateDataFlowPolicy mg effectiveZones localeCompare).fails = true ↔
      (∃ e ∈ (evaluateDataFlowPolicy mg effectiveZones localeCompare).byFlow.entries,
        e.2.verdict = some .violation) ∨ (staticPass mg effectiveZones).conduitErrors ≠ [] := by
    simp [evaluateDataFlowPolicy]
  have herrors : (evaluateDataFlowPolicy mg effectiveZones localeCompare).conduitErrors = [] ↔
      (staticPass mg effectiveZones).conduitErrors = [] :=
    sortBy_eq_nil_iff
  rw [hfails, Ne, Ne, herrors]
  refine or_congr_left ?_
  constructor
  · rintro ⟨⟨id, v⟩, hmem, hv⟩
    have hget := mem_entries_iff.1 hmem
    -- the key of an entry is the id of a flow
    rw [get?_byFlow] at hget
    obtain ⟨e, hpair, -⟩ := map_eq_some_iff.1 hget
    obtain ⟨f, hf, rfl, -⟩ := exists_flow_of_mem_flowPairs (mem_of_get?_ofList hpair)
    exact ⟨f, hf, bind_eq_some_iff.2 ⟨v, mem_entries_iff.1 hmem, hv⟩⟩
  · rintro ⟨f, -, hkind⟩
    obtain ⟨v, hv, hviol⟩ := bind_eq_some_iff.1 hkind
    exact ⟨(f.id, v), mem_entries_iff.2 hv, hviol⟩

lemma crossings_append_perm :
    ((computeCrossings mg ledger effectiveZones localeCompare).crossings ++
        (computeCrossings mg ledger effectiveZones localeCompare).underModeled).Perm
      (groups mg ledger (evaluateDataFlowPolicy mg effectiveZones localeCompare).byFlow) := by
  rw [← foldl_groups]
  exact ((sortBy_perm _ _).append (sortBy_perm _ _)).trans (filter_append_perm _ _)

lemma mem_crossings_iff {g : FlowGroup} :
    g ∈ (computeCrossings mg ledger effectiveZones localeCompare).crossings ↔
      g ∈ groups mg ledger (evaluateDataFlowPolicy mg effectiveZones localeCompare).byFlow ∧ g.listed = true := by
  rw [← foldl_groups, ← mem_filter]
  exact (sortBy_perm _ _).mem_iff

lemma verdictRank_eq {g : FlowGroup}
    (h : g ∈ groups mg ledger (evaluateDataFlowPolicy mg effectiveZones localeCompare).byFlow) :
    g.verdictRank = rankOf g.kind := by
  obtain ⟨f, -, hg⟩ := mem_filterMap.1 h
  obtain ⟨-, hverdict, hrank, -⟩ := groupFor_spec hg
  rw [hrank, FlowGroup.kind]
  cases hv : g.verdict with
  | none => rfl
  | some v =>
    rw [hv, get?_byFlow] at hverdict
    obtain ⟨e, -, rfl⟩ := map_eq_some_iff.1 hverdict.symm
    exact judged_classify.verdictRank

variable (ledger localeCompare) in
/-- The views of the policy agree. The conduit errors on the flows are those of the list; the rollup
fails where a flow is a violation or a conduit is an error; a crossing flow is in exactly one of the
two lists; and if no nesting cycle is flagged, then every flow with a severe verdict is in the
worklist and counted. The worklist goes from the violations over the warnings to the advisories. -/
theorem policy_views_agree [Std.TransCmp localeCompare]
    (hids : (mg.flows.map ModelGraphFlow.id).Nodup)
    (hzones : ∀ id ∈ effectiveZones.keys, ∃ b ∈ mg.boundaries, b.id = id) :
    let result := evaluateDataFlowPolicy mg effectiveZones localeCompare
    let view := computeCrossings mg ledger effectiveZones localeCompare
    (∀ f ∈ mg.flows, ∀ v, result.byFlow.get? f.id = some v → v.verdict = some .violation →
      ∃ sB tB, crossedPair mg f = some (sB, tB) ∧
        (v.conduitClause = .error ↔ ∃ p q, Declares mg p q ∧ Covers mg sB tB p q ∧
          ∃ e ∈ result.conduitErrors, e.sourceId = p ∧ e.peerId = q)) ∧
    (result.fails = true ↔
      (∃ f ∈ mg.flows, flowKind result f = some .violation) ∨ result.conduitErrors ≠ []) ∧
    (∀ f ∈ mg.flows, crosses mg f = true →
      ((view.crossings ++ view.underModeled).map FlowGroup.flowId).count f.id = 1) ∧
    ((∀ flag ∈ view.flags, flag.key ≠ .nestingCycle) →
      (∀ f ∈ mg.flows, ∀ k, flowKind result f = some k → k ≠ .allowed →
        f.id ∈ view.crossings.map FlowGroup.flowId) ∧
      view.policy.violations = mg.flows.countP (flowKind result · = some .violation) ∧
      view.policy.warnings = mg.flows.countP (flowKind result · = some .warning) ∧
      view.policy.advisories = mg.flows.countP (flowKind result · = some .advisory)) ∧
    view.crossings.Pairwise fun g h => rankOf h.kind ≤ rankOf g.kind := by
  intro result view
  refine ⟨fun f hf v => conduitClause_eq_error_iff hids hf, fails_iff, ?_, ?_, ?_⟩
  · -- the ids of the crossing flows are distinct
    intro f hf hcross
    rw [(crossings_append_perm.map FlowGroup.flowId).count_eq, map_flowId_groups]
    refine count_eq_one_of_mem ?_ (mem_map_of_mem (mem_filter.2 ⟨hf, hcross⟩))
    exact (filter_sublist.map ModelGraphFlow.id).nodup hids
  · intro hflags
    have htrunc := truncatedFor_of_flags hflags
    refine ⟨?_, ?_⟩
    · intro f hf k hkind hk
      have hcross := crosses_of_kind hids hzones hf (htrunc f hf) hkind hk
      rw [← isSome_groupFor ledger result.byFlow] at hcross
      obtain ⟨g, hg⟩ := isSome_iff_exists.1 hcross
      have hmem : g ∈ groups mg ledger result.byFlow := mem_filterMap.2 ⟨f, hf, hg⟩
      obtain ⟨hid, hverdict, -, hesc⟩ := groupFor_spec hg
      have hgkind : g.kind = some k := by rw [FlowGroup.kind, hverdict]; exact hkind
      have hpos : 0 < g.verdictRank := by
        rw [verdictRank_eq hmem, hgkind]
        cases k <;> first | exact absurd rfl hk | decide
      have hlisted : g.listed = true := by
        rw [FlowGroup.listed, hesc, decide_eq_true hpos, Bool.or_true]
      exact hid ▸ mem_map_of_mem (mem_crossings_iff.2 ⟨hmem, hlisted⟩)
    · obtain ⟨hv, hw, ha⟩ := foldl_countVerdict (groups mg ledger result.byFlow) ⟨result.fails, 0, 0, 0⟩
      have hpolicy : view.policy =
          (groups mg ledger result.byFlow).foldl countVerdict ⟨result.fails, 0, 0, 0⟩ := by
        rw [← foldl_groups]
        rfl
      rw [hpolicy, hv, hw, ha, Nat.zero_add, Nat.zero_add, Nat.zero_add]
      exact ⟨countP_groups hids hzones htrunc nofun, countP_groups hids hzones htrunc nofun,
        countP_groups hids hzones htrunc nofun⟩
  · refine (pairwise_sortBy _).imp_of_mem fun {g h} hg hh hle => ?_
    have hg' : g ∈ groups mg ledger result.byFlow := (mem_crossings_iff.1 hg).1
    have hh' : h ∈ groups mg ledger result.byFlow := (mem_crossings_iff.1 hh).1
    rw [← verdictRank_eq hg', ← verdictRank_eq hh']
    exact verdictRank_le_of_isLE localeCompare hle

def restrictedZones : EffectiveZones :=
  .ofList [("net", .untrusted), ("dmz", .restricted), ("api", .restricted)]

/-- The violation is in the worklist and counted, and its conduit is an error. -/
theorem frontDoor_views_agree :
    let mg := frontDoor [⟨"dmz", .outbound, none⟩]
    let result := evaluateDataFlowPolicy mg restrictedZones compare
    let view := computeCrossings mg [] restrictedZones compare
    "call" ∈ view.crossings.map FlowGroup.flowId ∧ view.policy.violations = 1 ∧
      result.fails = true ∧ ∃ e ∈ result.conduitErrors, e.sourceId = "net" ∧ e.peerId = "dmz" := by
  intro mg result view
  have hids : (mg.flows.map ModelGraphFlow.id).Nodup := by decide
  have hzones : ∀ id ∈ restrictedZones.keys, ∃ b ∈ mg.boundaries, b.id = id := by decide
  have hflags : ∀ flag ∈ view.flags, flag.key ≠ .nestingCycle := by decide +kernel
  have hkind : flowKind result ⟨"call", "Call", some "user", some "gate", [], 0⟩ =
      some .violation := by decide +kernel
  obtain ⟨-, hfails, -, hviews, -⟩ :=
    policy_views_agree compare [] hids hzones
  obtain ⟨hlisted, hcount, -⟩ := hviews hflags
  refine ⟨hlisted _ (.head _) _ hkind nofun, hcount.trans (by decide +kernel),
    hfails.2 (.inl ⟨_, .head _, hkind⟩), ?_⟩
  have hillegal : Illegal mg restrictedZones "net" "dmz" := by
    unfold Illegal
    decide +kernel
  refine (mem_conduitErrors_iff compare).2 ⟨?_, hillegal⟩
  exact ⟨_, .head _, rfl, _, .head _, rfl, by decide, rfl⟩

end ThreatReport
