import Dethernety.ThreatReport.Reachability

/-!
# Choke points

The choke points from one component to another are the components that every flow route passes. The
test is by removal of a component, and the order is read off one shortest route.
-/

open List Record Nat

namespace ThreatReport

open Search

section

variable {mg : ModelGraph}

/-- A flow goes from the component `a` to the component `b`. -/
def FlowsTo (mg : ModelGraph) (a b : String) : Prop :=
  ∃ f ∈ mg.flows, f.sourceId = some a ∧ f.targetId = some b ∧
    a ∈ mg.components.map ModelGraphComponent.id ∧ b ∈ mg.components.map ModelGraphComponent.id

lemma isSome_componentById_iff {id : String} :
    ((componentById mg).get? id).isSome = true ↔ id ∈ mg.components.map ModelGraphComponent.id := by
  rw [← mem_keys_iff, componentById, mem_keys_ofList, map_map]
  rfl

lemma hopEnds_eq_some_iff {f : ModelGraphFlow} {a b : String} :
    hopEnds mg f = some (a, b) ↔ f.sourceId = some a ∧ f.targetId = some b ∧
      a ∈ mg.components.map ModelGraphComponent.id ∧ b ∈ mg.components.map ModelGraphComponent.id := by
  have hends : flowEnds f = some (a, b) ↔
      (f.sourceId = some a ∧ a ≠ "") ∧ f.targetId = some b ∧ b ≠ "" := by
    unfold flowEnds
    cases f.sourceId <;> cases f.targetId <;> simp [Option.filter_some]
    grind
  have hne : ∀ {id : String}, id ∈ mg.components.map ModelGraphComponent.id → id ≠ "" := by
    intro id hid
    obtain ⟨c, -, rfl⟩ := mem_map.1 hid
    exact c.id_ne_empty
  rw [hopEnds, Option.filter_eq_some_iff, hends, Bool.and_eq_true, isSome_componentById_iff,
    isSome_componentById_iff]
  constructor
  · rintro ⟨⟨⟨ha, -⟩, hb, -⟩, hmem⟩
    exact ⟨ha, hb, hmem⟩
  · rintro ⟨ha, hb, hma, hmb⟩
    exact ⟨⟨⟨ha, hne hma⟩, hb, hne hmb⟩, hma, hmb⟩

lemma flowsTo_iff {a b : String} : FlowsTo mg a b ↔ ∃ f ∈ mg.flows, hopEnds mg f = some (a, b) := by
  simp only [FlowsTo, hopEnds_eq_some_iff]

variable {x y : String}

lemma mem_successors_pushHop {adj : Adjacency} {id : String} {hop : Hop} :
    y ∈ successors (pushHop adj id hop) x ↔ y ∈ successors adj x ∨ (x = id ∧ y = hop.node) := by
  unfold successors
  rw [hopsOf, pushHop, get?_set]
  split_ifs with h
  · subst h
    simp [hopsOf]
  · simp [hopsOf, Ne.symm h]

lemma foldl_projectFlow_spec (l : List ModelGraphFlow) (p : Projection) (x y : String) :
    (y ∈ successors (l.foldl (projectFlow mg) p).forward x ↔
        y ∈ successors p.forward x ∨ ∃ f ∈ l, hopEnds mg f = some (x, y)) ∧
      (x ∈ successors (l.foldl (projectFlow mg) p).backward y ↔
        x ∈ successors p.backward y ∨ ∃ f ∈ l, hopEnds mg f = some (x, y)) := by
  induction l generalizing p with
  | nil => simp
  | cons f l ih =>
    rw [foldl_cons, (ih _).1, (ih _).2, projectFlow]
    cases hf : hopEnds mg f with
    | none => simp [hf]
    | some e =>
      simp only [mem_successors_pushHop, exists_mem_cons_iff, hf, Option.some.injEq, or_assoc,
        Prod.ext_iff, eq_comm, and_comm, and_self]

lemma mem_successors_forward : y ∈ successors (buildProjection mg).forward x ↔ FlowsTo mg x y := by
  rw [buildProjection, (foldl_projectFlow_spec mg.flows _ x y).1, flowsTo_iff]
  exact or_iff_right not_mem_nil

lemma mem_successors_backward : x ∈ successors (buildProjection mg).backward y ↔ FlowsTo mg x y := by
  rw [buildProjection, (foldl_projectFlow_spec mg.flows _ x y).2, flowsTo_iff]
  exact or_iff_right not_mem_nil

variable {adj : Adjacency} {S : List String}

lemma start_subset : S ⊆ searchSpace adj S :=
  subset_append_left _ _

lemma successors_subset (x : String) : successors adj x ⊆ searchSpace adj S := by
  intro y hy
  refine mem_append_right _ (mem_flatMap.2 ?_)
  cases hx : adj.get? x with
  | none =>
    rw [successors, hopsOf, hx] at hy
    cases hy
  | some hops =>
    rw [successors, hopsOf, hx] at hy
    exact ⟨(x, hops), mem_entries_iff.2 hx, hy⟩

lemma mem_closure_iff {s : String} :
    x ∈ closure adj [s] ↔ Relation.ReflTransGen (fun a b => b ∈ successors adj a) s x := by
  rw [closure, mem_search_iff (nodup_singleton s) start_subset successors_subset (le_refl _)]
  simp only [mem_singleton, exists_eq_left]

lemma nodup_closure {s : String} : (closure adj [s]).Nodup := by
  obtain ⟨done, h, -⟩ := search_invariant (searchSpace adj [s]).length
    (.initial (nodup_singleton s)) start_subset successors_subset
    (le_refl (searchSpace adj [s]).length)
  exact h.nodup

end

section

variable {forward : Adjacency} {targetId skipId : String}

/-- The components that the search with `skipId` taken out goes to. -/
def otherSuccessors (forward : Adjacency) (skipId id : String) : List String :=
  (successors forward id).filter (· ≠ skipId)

lemma skipRow_eq (hne : targetId ≠ skipId) (hops : List Hop) (f : Frontier String) :
    skipRow targetId skipId hops f =
      if targetId ∈ hops.map Hop.node then none
      else some (f.scan ((hops.map Hop.node).filter (· ≠ skipId))) := by
  induction hops generalizing f with
  | nil => rfl
  | cons e hops ih =>
    rw [skipRow, map_cons, ih, ih]
    by_cases hskip : e.node = skipId
    · have hkeep : targetId ∈ e.node :: hops.map Hop.node ↔ targetId ∈ hops.map Hop.node := by
        rw [mem_cons]
        exact or_iff_right fun h => hne (h.trans hskip)
      rw [if_pos hskip, filter_cons_of_neg (by simp [hskip])]
      exact if_congr hkeep.symm rfl rfl
    · rw [if_neg hskip, filter_cons_of_pos (by simp [hskip])]
      by_cases htarget : e.node = targetId
      · rw [if_pos htarget, if_pos (htarget ▸ (.head _))]
      · have hkeep : targetId ∈ e.node :: hops.map Hop.node ↔ targetId ∈ hops.map Hop.node := by
          rw [mem_cons]
          exact or_iff_right fun h => htarget h.symm
        rw [if_neg htarget]
        exact if_congr hkeep.symm rfl rfl

lemma mem_otherSuccessors {x y : String} :
    y ∈ otherSuccessors forward skipId x ↔ y ∈ successors forward x ∧ y ≠ skipId := by
  rw [otherSuccessors, mem_filter, decide_eq_true_eq]

lemma skipLoop_iff {S done : List String} (fuel : ℕ) {f : Frontier String}
    (h : Invariant (otherSuccessors forward skipId) S done f) (hne : targetId ≠ skipId) (hseen : targetId ∉ f.seen)
    (hfuel : (searchSpace forward S).length ≤ fuel + done.length) :
    skipLoop forward targetId skipId fuel f = true ↔
      ∃ s ∈ S, Relation.ReflTransGen (fun a b => b ∈ otherSuccessors forward skipId a) s targetId := by
  have hspace : ∀ x, otherSuccessors forward skipId x ⊆ searchSpace forward S :=
    fun x _ hy => successors_subset x (mem_of_mem_filter hy)
  -- with an empty queue the target is out of reach
  have hend : ∀ {done : List String} {f : Frontier String},
      Invariant (otherSuccessors forward skipId) S done f → targetId ∉ f.seen → f.queue = [] →
      ¬ ∃ s ∈ S, Relation.ReflTransGen
        (fun a b => b ∈ otherSuccessors forward skipId a) s targetId :=
    fun h hseen hq hreach => hseen ((h.mem_seen_iff hq _).2 hreach)
  induction fuel generalizing f done with
  | zero =>
    cases hq : f.queue with
    | nil => exact iff_of_false Bool.false_ne_true (hend h hseen hq)
    | cons x rest =>
      exact absurd (h.fuel_pos start_subset hspace hfuel hq) (lt_irrefl 0)
  | succ fuel ih =>
    rw [skipLoop]
    cases hq : f.queue with
    | nil => exact iff_of_false Bool.false_ne_true (hend h hseen hq)
    | cons x rest =>
      simp only
      rw [skipRow_eq hne]
      by_cases htarget : targetId ∈ (hopsOf forward x).map Hop.node
      · -- the target is a neighbour of what has been reached
        rw [if_pos htarget]
        refine iff_of_true rfl ?_
        have hx : x ∈ f.seen := by
          rw [h.seen_eq, hq]
          exact mem_append_right _ (.head _)
        obtain ⟨s, hs, hreach⟩ := h.sound x hx
        exact ⟨s, hs, hreach.tail (mem_otherSuccessors.2 ⟨htarget, hne⟩)⟩
      · rw [if_neg htarget]
        obtain ⟨new, hscan, -, hmem⟩ :=
          Frontier.scan_spec ⟨f.seen, rest⟩ (otherSuccessors forward skipId x)
        refine ih (h.step hq) ?_ ?_
        · show targetId ∉ (Frontier.scan ⟨f.seen, rest⟩ (otherSuccessors forward skipId x)).seen
          rw [hscan]
          refine fun hin => (mem_append.1 hin).elim hseen fun hnew => htarget ?_
          exact (mem_otherSuccessors.1 ((hmem _).1 hnew).1).1
        · rw [length_append, length_singleton]
          omega

/-- The test of a candidate: is there a route that avoids it? -/
lemma reachableSkipping_iff {originId : String} (hos : originId ≠ skipId)
    (hts : targetId ≠ skipId) (hto : targetId ≠ originId) :
    reachableSkipping forward originId targetId skipId = true ↔
      ∃ r, Route (fun a b => b ∈ successors forward a) originId r targetId ∧ skipId ∉ r := by
  have hloop := skipLoop_iff (searchSpace forward [originId]).length
    (.initial (nodup_singleton originId)) hts (fun h => hto (mem_singleton.1 h))
    (le_refl (searchSpace forward [originId]).length)
  rw [reachableSkipping, if_neg hos, hloop, ← reflTransGen_ne_iff hos]
  simp only [mem_singleton, exists_eq_left, mem_otherSuccessors]

end

section

/-- The component before `id`, as `prev` has it. -/
def before (prev : Record String (String × String)) (id : String) : Option String :=
  (prev.get? id).map Prod.fst

variable {forward : Adjacency} {targetId cur : String} {S : List String} {s : BfsState}

/-- A way from the origins to `x` that is spelled out by `prev` and meets no component twice. -/
def WayTo (forward : Adjacency) (S seen : List String) (prev : Record String (String × String))
    (x : String) : Prop :=
  ∃ l, Traces (before prev) l x ∧ l.Nodup ∧ l ⊆ seen ∧
    ∃ o ∈ S, Route (fun a b => b ∈ successors forward a) o l x

/-- To all that it has seen the search knows a way. -/
def Recorded (forward : Adjacency) (S : List String) (s : BfsState) : Prop :=
  ∀ x ∈ s.frontier.seen, WayTo forward S s.frontier.seen s.prev x

variable {prev : Record String (String × String)}

lemma before_set (y : String) (p : String × String)
    (z : String) : before (prev.set y p) z = if y = z then some p.1 else before prev z := by
  rw [before, get?_set]
  split_ifs <;> rfl

variable {seen l : List String} {x y : String}

/-- A new entry of `prev` leaves the ways through what was seen alone. -/
lemma traces_set
    (h : Traces (before prev) l x) (hsub : l ⊆ seen) (hy : y ∉ seen) (p : String × String) :
    Traces (before (prev.set y p)) l x := by
  refine h.congr fun z hz => ?_
  rw [before_set, if_neg]
  rintro rfl
  exact hy (hsub hz)

lemma WayTo.set (h : WayTo forward S seen prev x) (hy : y ∉ seen) (p : String × String) :
    WayTo forward S (seen ++ [y]) (prev.set y p) x := by
  obtain ⟨l, ht, hnodup, hsub, hroute⟩ := h
  exact ⟨l, traces_set ht hsub hy p, hnodup, subset_append_of_subset_left _ hsub, hroute⟩

/-- The way to a component that is found from `cur`. -/
lemma WayTo.extend
    (h : WayTo forward S seen prev cur) (hy : y ∉ seen) (e : y ∈ successors forward cur)
    (flowId : String) : WayTo forward S (seen ++ [y]) (prev.set y (cur, flowId)) y := by
  obtain ⟨l, ht, hnodup, hsub, o, ho, hroute⟩ := h
  refine ⟨l ++ [y], .step ?_ (traces_set ht hsub hy _), ?_, ?_, o, ho, hroute.concat e⟩
  · rw [before_set, if_pos rfl]
  · exact hnodup.append (nodup_singleton y) (disjoint_singleton.2 fun hyl => hy (hsub hyl))
  · exact append_subset.2 ⟨subset_append_of_subset_left _ hsub, subset_append_right _ _⟩

lemma Recorded.discover (h : Recorded forward S s) (hcur : cur ∈ s.frontier.seen)
    (hy : y ∉ s.frontier.seen) (e : y ∈ successors forward cur) (flowId : String) :
    Recorded forward S ⟨s.prev.set y (cur, flowId), s.frontier.discover y⟩ := by
  have hseen : (s.frontier.discover y).seen = s.frontier.seen ++ [y] := by
    rw [Frontier.discover, if_neg hy]
  intro x hx
  rw [hseen] at hx ⊢
  obtain hx | hx := mem_append.1 hx
  · exact (h x hx).set hy _
  · obtain rfl := mem_singleton.1 hx
    exact (h cur hcur).extend hy e flowId

/-- The loop over the hops is the scan of their ends, unless it comes to the target. -/
lemma bfsRow_spec (hops : List Hop) (h : Recorded forward S s) (hcur : cur ∈ s.frontier.seen)
    (hhops : ∀ e ∈ hops, e.node ∈ successors forward cur) (htarget : targetId ∉ s.frontier.seen) :
    (∃ prev seen, bfsRow targetId cur hops s = .inl prev ∧ WayTo forward S seen prev targetId) ∨
      ∃ s', bfsRow targetId cur hops s = .inr s' ∧ s'.frontier = s.frontier.scan (hops.map Hop.node) ∧
        targetId ∉ s'.frontier.seen ∧ Recorded forward S s' := by
  induction hops generalizing s with
  | nil => exact .inr ⟨s, rfl, rfl, htarget, h⟩
  | cons e hops ih =>
    have hrest : ∀ e' ∈ hops, e'.node ∈ successors forward cur :=
      fun e' he' => hhops e' (.tail _ he')
    rw [bfsRow, map_cons, Frontier.scan, foldl_cons]
    by_cases hseen : e.node ∈ s.frontier.seen
    · rw [if_pos hseen]
      have hdisc : s.frontier.discover e.node = s.frontier := if_pos hseen
      rw [hdisc]
      exact ih h hcur hrest htarget
    · rw [if_neg hseen]
      have hnode := hhops e (.head _)
      by_cases heq : e.node = targetId
      · refine .inl ⟨s.prev.set e.node (cur, e.flowId), s.frontier.seen ++ [e.node], ?_, ?_⟩
        · exact if_pos heq
        · have hway := (h cur hcur).extend hseen hnode e.flowId
          rwa [heq] at hway ⊢
      · simp only [if_neg heq]
        have hdisc : (s.frontier.discover e.node).seen = s.frontier.seen ++ [e.node] := by
          rw [Frontier.discover, if_neg hseen]
        refine ih (h.discover hcur hseen hnode e.flowId) ?_ hrest ?_
        · rw [hdisc]
          exact mem_append_left _ hcur
        · rw [hdisc]
          exact fun hin => (mem_append.1 hin).elim htarget
            fun hnew => heq (mem_singleton.1 hnew).symm

/-- The search finds a target that can be reached. -/
lemma bfsLoop_spec {done : List String} (fuel : ℕ)
    (h : Invariant (successors forward) S done s.frontier) (hrec : Recorded forward S s)
    (htarget : targetId ∉ s.frontier.seen) (hfuel : (searchSpace forward S).length ≤ fuel + done.length)
    (hreach : ∃ o ∈ S, Relation.ReflTransGen (fun a b => b ∈ successors forward a) o targetId) :
    ∃ prev seen, bfsLoop forward targetId fuel s = some prev ∧ WayTo forward S seen prev targetId := by
  induction fuel generalizing s done with
  | zero =>
    cases hq : s.frontier.queue with
    | nil => exact absurd ((h.mem_seen_iff hq _).2 hreach) htarget
    | cons x rest =>
      exact absurd (h.fuel_pos start_subset successors_subset hfuel hq) (lt_irrefl 0)
  | succ fuel ih =>
    rw [bfsLoop]
    cases hq : s.frontier.queue with
    | nil => exact absurd ((h.mem_seen_iff hq _).2 hreach) htarget
    | cons x rest =>
      simp only
      have hx : x ∈ s.frontier.seen := by
        rw [h.seen_eq, hq]
        exact mem_append_right _ (.head _)
      have hrow : ∀ e ∈ hopsOf forward x, e.node ∈ successors forward x :=
        fun e he => mem_map_of_mem he
      have hdequeued : Recorded forward S { s with frontier := ⟨s.frontier.seen, rest⟩ } := hrec
      obtain ⟨prev, seen, hfound, hway⟩ | ⟨s', hnext, hfrontier, htarget', hrec'⟩ :=
        bfsRow_spec (hopsOf forward x) hdequeued hx hrow htarget
      · exact ⟨prev, seen, by rw [hfound], hway⟩
      · rw [hnext]
        refine ih (hfrontier ▸ h.step hq) hrec' htarget' ?_
        rw [length_append, length_singleton]
        omega

lemma length_le_of_traces (ht : Traces (before prev) l x) (hnodup : l.Nodup) :
    l.length ≤ prev.keys.length + 1 := by
  have htail : l.tail ⊆ prev.keys := by
    intro y hy
    have hsome := ht.tail_isSome y hy
    rw [before, Option.isSome_map] at hsome
    exact mem_keys_iff.2 hsome
  have hle := (subperm_of_subset (hnodup.sublist (tail_sublist l)) htail).length_le
  rw [length_tail] at hle
  omega

/-- Walking back over `prev` spells the way out. -/
lemma walkBack_eq (h : Traces (before prev) l x) {fuel : ℕ} (hfuel : l.length ≤ fuel + 1)
    (acc edges : List String) : (walkBack prev fuel x (x :: acc, edges)).1 = l ++ acc := by
  induction h generalizing fuel acc edges with
  | @start x h =>
    cases fuel with
    | zero => rfl
    | succ fuel =>
      have hnone : prev.get? x = none := Option.map_eq_none_iff.1 h
      rw [walkBack, hnone]
      rfl
  | @step x y l h t ih =>
    rw [length_append, length_singleton] at hfuel
    have hpos : 0 < l.length := by cases t <;> simp
    obtain ⟨fuel, rfl⟩ := exists_eq_succ_of_ne_zero (show fuel ≠ 0 by omega)
    obtain ⟨⟨source, flowId⟩, hget, rfl⟩ := Option.map_eq_some_iff.1 h
    rw [walkBack, hget]
    simp only
    rw [ih (by omega), append_assoc]
    rfl

/-- The shortest route is a route that meets no component twice. -/
lemma bfsShortest_spec {originId : String} (hne : targetId ≠ originId)
    (hreach : Relation.ReflTransGen (fun a b => b ∈ successors forward a) originId targetId) :
    Route (fun a b => b ∈ successors forward a) originId (bfsShortest forward [originId] targetId).nodes targetId ∧
      (bfsShortest forward [originId] targetId).nodes.Nodup := by
  have htarget : targetId ∉ [originId] := fun h => hne (mem_singleton.1 h)
  have hrec : Recorded forward [originId] ⟨∅, .start [originId]⟩ := by
    intro x hx
    obtain rfl := mem_singleton.1 hx
    exact ⟨[x], .start rfl, nodup_singleton x, List.Subset.refl _, x, hx, .nil x⟩
  have hinit : Invariant (successors forward) [originId] [] (.start [originId]) :=
    .initial (nodup_singleton originId)
  obtain ⟨prev, seen, hloop, l, ht, hnodup, -, o, ho, hroute⟩ :=
    bfsLoop_spec (searchSpace forward [originId]).length hinit hrec htarget (le_refl _)
      ⟨originId, .head _, hreach⟩
  obtain rfl := mem_singleton.1 ho
  have hnodes : (bfsShortest forward [o] targetId).nodes = l := by
    rw [bfsShortest, if_neg htarget, hloop]
    exact (walkBack_eq ht (length_le_of_traces ht hnodup) [] []).trans (append_nil l)
  rw [hnodes]
  exact ⟨hroute, hnodup⟩

end

instance : Std.TransCmp compareIndex where
  eq_swap {a b} := by
    match a, b with
    | none, none => rfl
    | none, some _ => rfl
    | some _, none => rfl
    | some i, some j => exact (Std.OrientedOrd.eq_swap : compare i j = _)
  isLE_trans {a b c} hab hbc := by
    match a, b, c with
    | _, none, some _ => cases hbc
    | none, some _, _ => cases hab
    | none, none, none => rfl
    | some _, _, none => rfl
    | some i, some j, some k =>
      exact (Std.TransOrd.isLE_trans hab hbc : (compare i k).isLE = true)

variable {x : String}

lemma get?_orderIndex {l : List String} (hnodup : l.Nodup) (hx : x ∈ l) :
    (Record.ofList l.zipIdx).get? x = some (l.idxOf x) := by
  have hkeys : l.zipIdx.map Prod.fst = l := zipIdx_map_fst 0 l
  have hmem : (x, l.idxOf x) ∈ l.zipIdx := by
    rw [mk_mem_zipIdx_iff_getElem?, getElem?_eq_getElem (idxOf_lt_length_of_mem hx), getElem_idxOf]
  refine get?_foldl_set_of_count hmem ?_ ∅
  rw [hkeys]
  exact count_eq_one_of_mem hnodup hx

variable {mg : ModelGraph} {s t : String}

lemma flowsTo_eq : (fun a b => b ∈ successors (buildProjection mg).forward a) = FlowsTo mg :=
  funext₂ fun _ _ => propext mem_successors_forward

lemma mem_closure_forward_iff :
    x ∈ closure (buildProjection mg).forward [s] ↔ ∃ r, Route (FlowsTo mg) s r x := by
  rw [mem_closure_iff, flowsTo_eq, exists_route_iff]

lemma mem_closure_backward_iff :
    x ∈ closure (buildProjection mg).backward [t] ↔ ∃ r, Route (FlowsTo mg) x r t := by
  have hback : (fun a b => b ∈ successors (buildProjection mg).backward a) =
      fun a b => FlowsTo mg b a :=
    funext₂ fun _ _ => propext mem_successors_backward
  rw [mem_closure_iff, hback, ← exists_route_iff]
  constructor
  all_goals
    rintro ⟨r, hr⟩
    exact ⟨_, hr.reverse⟩

lemma mem_chokeIdsOf_iff (hne : s ≠ t) (hreach : ∃ r, Route (FlowsTo mg) s r t) {v : String} :
    v ∈ chokeIdsOf (buildProjection mg) s t ↔ Dominates (FlowsTo mg) s t v := by
  rw [chokeIdsOf, (sortBy_perm _ _).mem_iff]
  simp only [mem_filter, decide_eq_true_eq, Bool.not_eq_true', mem_closure_forward_iff,
    mem_closure_backward_iff]
  constructor
  · rintro ⟨⟨-, -, hvs, hvt⟩, hcut⟩
    refine ⟨hvs, hvt, hreach, fun r hr => ?_⟩
    by_contra hv
    rw [← Bool.not_eq_true, reachableSkipping_iff hvs.symm hvt.symm hne.symm, flowsTo_eq] at hcut
    exact hcut ⟨r, hr, hv⟩
  · intro hdom
    obtain ⟨r, hr⟩ := hreach
    -- a route through `v` shows that `v` is between the two
    obtain ⟨l, m, -, -, hr₁, hr₂⟩ := hr.split (hdom.mem_route r hr)
    refine ⟨⟨⟨_, hr₁⟩, ⟨_, hr₂⟩, hdom.ne_source, hdom.ne_target⟩, ?_⟩
    rw [← Bool.not_eq_true, reachableSkipping_iff hdom.ne_source.symm hdom.ne_target.symm hne.symm,
      flowsTo_eq]
    rintro ⟨r', hr', hv⟩
    exact hv (hdom.mem_route r' hr')

lemma nodup_chokeIdsOf : (chokeIdsOf (buildProjection mg) s t).Nodup := by
  rw [chokeIdsOf, (sortBy_perm _ _).nodup_iff]
  exact (nodup_closure.filter _).filter _

/-- The choke points are listed in the order of the shortest route, which is that of every route. -/
lemma pairwise_chokeIdsOf (hne : s ≠ t) (hreach : ∃ r, Route (FlowsTo mg) s r t) :
    (chokeIdsOf (buildProjection mg) s t).Pairwise fun u v => ∀ r, Route (FlowsTo mg) s r t →
      r.idxOf u < r.idxOf v ∧ r.reverse.idxOf v < r.reverse.idxOf u := by
  have hclosed := exists_route_iff.1 hreach
  rw [← flowsTo_eq] at hclosed
  obtain ⟨hroute, hnodup⟩ := bfsShortest_spec hne.symm hclosed
  rw [flowsTo_eq] at hroute
  generalize hp : (bfsShortest (buildProjection mg).forward [s] t).nodes = p at hroute hnodup
  have hsorted : (chokeIdsOf (buildProjection mg) s t).Pairwise fun u v =>
      (compareIndex ((Record.ofList p.zipIdx).get? u) ((Record.ofList p.zipIdx).get? v)).isLE =
        true := by
    have : Std.TransCmp fun a b : String =>
        compareIndex ((Record.ofList p.zipIdx).get? a) ((Record.ofList p.zipIdx).get? b) :=
      transCmp_comap _
    rw [← hp] at this ⊢
    exact pairwise_sortBy _
  refine (hsorted.and nodup_chokeIdsOf).imp_of_mem fun {u v} hu hv h r hr => ?_
  have hdu := (mem_chokeIdsOf_iff hne hreach).1 hu
  have hdv := (mem_chokeIdsOf_iff hne hreach).1 hv
  have hup := hdu.mem_route p hroute
  have hvp := hdv.mem_route p hroute
  -- on the shortest route `u` is before `v`
  obtain ⟨hle, huv⟩ := h
  rw [get?_orderIndex hnodup hup, get?_orderIndex hnodup hvp] at hle
  have hidx : p.idxOf u ≤ p.idxOf v := Nat.isLE_compare.1 hle
  have hlt : p.idxOf u < p.idxOf v :=
    Nat.lt_of_le_of_ne hidx fun heq => huv ((idxOf_inj hup).1 heq)
  exact hdu.order hdv hroute hnodup hlt hr

/-- Choke points are exactly the dominators: between two distinct components, `chokePoints` lists the
components other than the two that every flow route passes, if there is a route. It lists them in the
order in which every route meets them, for the first time as for the last, and it lists none where a
flow goes directly from the one to the other. -/
theorem chokePoints_iff_dominates (mg : ModelGraph) (ledger : List LedgerElement)
    (localeCompare : String → String → Ordering) {s t : String}
    (hs : s ∈ mg.components.map ModelGraphComponent.id)
    (ht : t ∈ mg.components.map ModelGraphComponent.id) (hne : s ≠ t) :
    let ids := (chokePoints mg ledger localeCompare s t).chokePoints.map ChokePoint.id
    (∀ v, v ∈ ids ↔ v ≠ s ∧ v ≠ t ∧ (∃ r, Route (FlowsTo mg) s r t) ∧
      ∀ r, Route (FlowsTo mg) s r t → v ∈ r) ∧
    ids.Nodup ∧
    (ids.Pairwise fun u v => ∀ r, Route (FlowsTo mg) s r t →
      r.idxOf u < r.idxOf v ∧ r.reverse.idxOf v < r.reverse.idxOf u) ∧
    (FlowsTo mg s t → ids = []) := by
  intro ids
  have hids : ids = if t ∉ closure (buildProjection mg).forward [s] then []
      else if t ∈ successors (buildProjection mg).forward s then []
      else chokeIdsOf (buildProjection mg) s t := by
    have hnone : ¬ (((componentById mg).get? s).isNone || ((componentById mg).get? t).isNone) = true := by
      rw [← isSome_componentById_iff] at hs ht
      rw [Option.isNone_eq_false_iff.2 hs, Option.isNone_eq_false_iff.2 ht]
      exact Bool.false_ne_true
    simp only [ids, chokePoints, if_neg hnone, if_neg hne]
    split_ifs
    · rfl
    · rw [map_map]
      exact (map_congr_left fun _ _ => rfl).trans (map_id _)
    · rfl
  by_cases hreach : ∃ r, Route (FlowsTo mg) s r t
  · have hclosure : ¬ t ∉ closure (buildProjection mg).forward [s] :=
      not_not.2 (mem_closure_forward_iff.2 hreach)
    rw [if_neg hclosure] at hids
    by_cases hdirect : FlowsTo mg s t
    · rw [if_pos (mem_successors_forward.2 hdirect)] at hids
      rw [hids]
      refine ⟨fun v => iff_of_false not_mem_nil ?_, nodup_nil, .nil, fun _ => rfl⟩
      -- the direct flow is a route that passes no other component
      rintro ⟨hvs, hvt, -, hall⟩
      have hv := hall [s, t] (.cons hdirect (.nil t))
      simp [hvs, hvt] at hv
    · rw [if_neg (mem_successors_forward.not.2 hdirect)] at hids
      rw [hids]
      refine ⟨fun v => ?_, nodup_chokeIdsOf, pairwise_chokeIdsOf hne hreach,
        fun h => absurd h hdirect⟩
      rw [mem_chokeIdsOf_iff hne hreach]
      exact ⟨fun h => ⟨h.1, h.2, h.3, h.4⟩, fun h => ⟨h.1, h.2.1, h.2.2.1, h.2.2.2⟩⟩
  · have hclosure : t ∉ closure (buildProjection mg).forward [s] :=
      fun h => hreach (mem_closure_forward_iff.1 h)
    rw [if_pos hclosure] at hids
    rw [hids]
    exact ⟨fun v => iff_of_false not_mem_nil fun h => hreach h.2.2.1, nodup_nil, .nil, fun _ => rfl⟩

/-- All routes to the vault pass the router; there are two ways from there to the broker. -/
def pipeline : ModelGraph where
  boundaries := []
  components := [ ⟨"edge", by decide, "Edge", none, none, false⟩,
    ⟨"router", by decide, "Router", none, none, false⟩,
    ⟨"worker1", by decide, "Worker", none, none, false⟩,
    ⟨"worker2", by decide, "Worker", none, none, false⟩,
    ⟨"broker", by decide, "Broker", none, none, false⟩,
    ⟨"vault", by decide, "Vault", none, none, true⟩]
  flows := [("edge", "router"), ("router", "worker1"), ("router", "worker2"), ("worker1", "broker"),
    ("worker2", "broker"), ("broker", "router"), ("broker", "vault")].map fun e =>
      ⟨e.1 ++ e.2, "", some e.1, some e.2, [], 0⟩
  dataNodes := []

theorem pipeline_chokePoints :
    "router" ∈ (chokePoints pipeline [] compare "edge" "vault").chokePoints.map ChokePoint.id := by
  have hflow : ∀ {a b : String}, (∃ f ∈ pipeline.flows, hopEnds pipeline f = some (a, b)) →
      FlowsTo pipeline a b := flowsTo_iff.2
  refine ((chokePoints_iff_dominates pipeline [] compare (by decide) (by decide)
    (by decide : "edge" ≠ "vault")).1 "router").2 ⟨by decide, by decide, ?_, ?_⟩
  · exact ⟨_, .cons (hflow (b := "router") (by decide)) (.cons (hflow (b := "worker1") (by decide))
      (.cons (hflow (b := "broker") (by decide)) (.cons (hflow (by decide)) (.nil _))))⟩
  · intro r hr
    generalize htarget : "vault" = t at hr
    cases hr with
    | nil => exact absurd htarget (by decide)
    | cons e h =>
      -- the edge has only one flow
      obtain ⟨f, hf, hends⟩ := flowsTo_iff.1 e
      have honly : ∀ f ∈ pipeline.flows, ∀ b ∈ (hopEnds pipeline f).filter (·.1 = "edge"),
          b.2 = "router" := by decide
      obtain rfl := honly f hf _ (Option.filter_eq_some_iff.2 ⟨hends, decide_eq_true rfl⟩)
      exact .tail _ h.head_mem

end ThreatReport
