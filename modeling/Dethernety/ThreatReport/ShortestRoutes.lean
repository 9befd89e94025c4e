import Dethernety.Foundations.Layers
import Dethernety.ThreatReport.ChokePoints

/-!
# Shortest flow routes

`bfsShortest` from any number of origins: it finds a route exactly when there is one, and what it walks
back over is a route of flows with as few hops as possible (`bfsShortest_eq`).
-/

open List

namespace ThreatReport

open Search Distance

/-- A route of flows between components, with the ids of its components and of its flows. -/
inductive FlowRoute (mg : ModelGraph) : String → List String → List String → String → Prop
  | nil (a : String) : FlowRoute mg a [a] [] a
  | concat {a b c : String} {nodes edges : List String} {f : ModelGraphFlow} (h : FlowRoute mg a nodes edges b)
      (hf : f ∈ mg.flows) (hends : hopEnds mg f = some (b, c)) :
      FlowRoute mg a (nodes ++ [c]) (edges ++ [f.id]) c

section

variable {mg : ModelGraph}

/-- The hop of a flow that goes out of a component. -/
def IsHop (mg : ModelGraph) (a : String) (hop : Hop) : Prop :=
  ∃ f ∈ mg.flows, hopEnds mg f = some (a, hop.node) ∧ hop.flowId = f.id

variable {x : String} {e : Hop}

lemma mem_hopsOf_pushHop {adj : Adjacency} {id : String} {hop : Hop} :
    e ∈ hopsOf (pushHop adj id hop) x ↔ e ∈ hopsOf adj x ∨ (x = id ∧ e = hop) := by
  rw [hopsOf, pushHop, Record.get?_set]
  split_ifs with h
  · subst h
    simp
  · simp [hopsOf, Ne.symm h]

lemma isHop_of_mem_foldl (l : List ModelGraphFlow) (p : Projection)
    (h : e ∈ hopsOf (l.foldl (projectFlow mg) p).forward x) :
    e ∈ hopsOf p.forward x ∨ ∃ f ∈ l, hopEnds mg f = some (x, e.node) ∧ e.flowId = f.id := by
  induction l generalizing p with
  | nil => exact .inl h
  | cons f l ih =>
    rcases ih _ h with h | ⟨f', hf', hends⟩
    · unfold projectFlow at h
      cases hf : hopEnds mg f with
      | none =>
        rw [hf] at h
        exact .inl h
      | some ends =>
        rw [hf] at h
        rcases mem_hopsOf_pushHop.1 h with h | ⟨rfl, rfl⟩
        · exact .inl h
        · exact .inr ⟨f, .head _, hf, rfl⟩
    · exact .inr ⟨f', .tail _ hf', hends⟩

lemma isHop_of_mem (h : e ∈ hopsOf (buildProjection mg).forward x) : IsHop mg x e :=
  (isHop_of_mem_foldl mg.flows _ h).resolve_left not_mem_nil

variable {a b : String} {nodes edges : List String}

lemma FlowRoute.route (h : FlowRoute mg a nodes edges b) :
    Route (FlowsTo mg) a nodes b := by
  induction h with
  | nil => exact .nil a
  | concat _ hf hends ih => exact ih.concat (flowsTo_iff.2 ⟨_, hf, hends⟩)

lemma exists_flowRoute_iff :
    (∃ nodes edges, FlowRoute mg a nodes edges b) ↔ Relation.ReflTransGen (FlowsTo mg) a b := by
  constructor
  · rintro ⟨nodes, edges, h⟩
    exact exists_route_iff.1 ⟨nodes, h.route⟩
  · intro h
    induction h with
    | refl => exact ⟨[a], [], .nil a⟩
    | tail _ e ih =>
      obtain ⟨nodes, edges, h⟩ := ih
      obtain ⟨f, hf, hends⟩ := flowsTo_iff.1 e
      exact ⟨_, _, h.concat hf hends⟩

lemma FlowRoute.walk {S : Set String}
    (h : FlowRoute mg a nodes edges b) (ha : a ∈ S) : WalkFrom (FlowsTo mg) S edges.length b := by
  induction h with
  | nil => exact .source ha
  | concat _ hf hends ih =>
    rw [length_append, length_singleton]
    exact ih.step (flowsTo_iff.2 ⟨_, hf, hends⟩)

end

variable {mg : ModelGraph} {targetId cur : String} {S : List String} {s : BfsState}

/-- The flow hops of a model graph. -/
abbrev hops (mg : ModelGraph) : Adjacency := (buildProjection mg).forward

/-- Every entry of `prev` is a hop to a component that is one farther. -/
def Stepwise (mg : ModelGraph) (S : List String) (prev : Record String (String × String)) : Prop :=
  ∀ y x flowId, prev.get? y = some (x, flowId) →
    (∃ f ∈ mg.flows, hopEnds mg f = some (x, y) ∧ flowId = f.id) ∧
      depth (successors (hops mg)) S y = depth (successors (hops mg)) S x + 1

variable {prev : Record String (String × String)}

lemma Stepwise.set (h : Stepwise mg S prev) {e : Hop} (he : e ∈ hopsOf (hops mg) cur)
    (hfar : depth (successors (hops mg)) S e.node = depth (successors (hops mg)) S cur + 1) :
    Stepwise mg S (prev.set e.node (cur, e.flowId)) := by
  intro y x flowId hget
  rw [Record.get?_set] at hget
  split_ifs at hget with heq
  · subst heq
    cases hget
    exact ⟨isHop_of_mem he, hfar⟩
  · exact h y x flowId hget

/-- The loop over the hops of a component records hops to components that are one farther. -/
lemma stepwise_bfsRow (targetId : String) (row : List Hop) (hrow : ∀ e ∈ row, e ∈ hopsOf (hops mg) cur)
    (h : Stepwise mg S s.prev) (hfar : ∀ e ∈ row, e.node ∉ s.frontier.seen →
      depth (successors (hops mg)) S e.node = depth (successors (hops mg)) S cur + 1) :
    (∀ prev, bfsRow targetId cur row s = .inl prev → Stepwise mg S prev) ∧
      ∀ s', bfsRow targetId cur row s = .inr s' → Stepwise mg S s'.prev := by
  induction row generalizing s with
  | nil =>
    refine ⟨fun _ hprev => (by cases hprev), fun s' hs' => ?_⟩
    cases hs'
    exact h
  | cons e row ih =>
    have hrest : ∀ e' ∈ row, e' ∈ hopsOf (hops mg) cur := fun e' he' => hrow e' (.tail _ he')
    rw [bfsRow]
    by_cases hseen : e.node ∈ s.frontier.seen
    · rw [if_pos hseen]
      exact ih hrest h fun e' he' => hfar e' (.tail _ he')
    · rw [if_neg hseen]
      have hset := h.set (hrow e (.head _)) (hfar e (.head _) hseen)
      by_cases htarget : e.node = targetId
      · simp only [if_pos htarget]
        refine ⟨fun prev hprev => ?_, fun _ hs' => (by cases hs')⟩
        cases hprev
        exact hset
      · simp only [if_neg htarget]
        refine ih hrest hset fun e' he' hnew => hfar e' (.tail _ he') fun hin => hnew ?_
        rw [Frontier.discover, if_neg hseen]
        exact mem_append_left _ hin

/-- What the search returns has a way to the target, of hops that go one farther each. -/
lemma bfsLoop_sound {done near far : List String} {k : ℕ} (fuel : ℕ)
    (h : Invariant (successors (hops mg)) S done s.frontier)
    (hl : Layers (successors (hops mg)) S s.frontier k near far) (hrec : Recorded (hops mg) S s)
    (hstep : Stepwise mg S s.prev) (htarget : targetId ∉ s.frontier.seen)
    (hfound : bfsLoop (hops mg) targetId fuel s = some prev) :
    Stepwise mg S prev ∧ ∃ seen, WayTo (hops mg) S seen prev targetId := by
  induction fuel generalizing s done k near far with
  | zero => cases hfound
  | succ fuel ih =>
    rw [bfsLoop] at hfound
    cases hq : s.frontier.queue with
    | nil =>
      rw [hq] at hfound
      cases hfound
    | cons x rest =>
      rw [hq] at hfound
      simp only at hfound
      have hx : x ∈ s.frontier.seen := by
        rw [h.seen_eq, hq]
        exact mem_append_right _ (.head _)
      have hrow : ∀ e ∈ hopsOf (hops mg) x, e.node ∈ successors (hops mg) x := fun e he => mem_map_of_mem he
      obtain ⟨k', near', far', hl', rfl⟩ := hl.exists_head h hq
      -- what is first seen from `x` is one farther
      have hfar : ∀ e ∈ hopsOf (hops mg) x, e.node ∉ s.frontier.seen →
          depth (successors (hops mg)) S e.node = depth (successors (hops mg)) S x + 1 := by
        intro e he hnew
        rw [hl'.fresh (hrow e he) hnew, hl'.near_eq x (.head _), Nat.cast_succ]
      have hdequeued : Recorded (hops mg) S { s with frontier := ⟨s.frontier.seen, near' ++ far'⟩ } := hrec
      obtain ⟨hinl, hinr⟩ := stepwise_bfsRow targetId (s := { s with frontier := ⟨s.frontier.seen, near' ++ far'⟩ })
        (hopsOf (hops mg) x) (fun _ he => he) hstep hfar
      obtain ⟨prev', seen, hrowFound, hway⟩ | ⟨s', hnext, hfrontier, htarget', hrec'⟩ :=
        bfsRow_spec (hopsOf (hops mg) x) hdequeued hx hrow htarget
      · rw [hrowFound] at hfound
        cases hfound
        exact ⟨hinl _ hrowFound, seen, hway⟩
      · rw [hnext] at hfound
        obtain ⟨far'', hl''⟩ := hl'.step
        exact ih (hfrontier ▸ h.step hq) (hfrontier ▸ hl'') hrec' (hinr s' hnext) htarget' hfound

variable {l : List String}

lemma walkBack_flowRoute (hprev : Stepwise mg S prev)
    {x : String} (h : Traces (before prev) l x) {fuel : ℕ} (hfuel : l.length ≤ fuel + 1) (acc edges : List String) :
    ∃ o es, walkBack prev fuel x (x :: acc, edges) = (l ++ acc, es ++ edges) ∧ FlowRoute mg o l es x := by
  induction h generalizing fuel acc edges with
  | @start x h =>
    refine ⟨x, [], ?_, .nil x⟩
    cases fuel with
    | zero => rfl
    | succ fuel =>
      have hnone : prev.get? x = none := Option.map_eq_none_iff.1 h
      rw [walkBack, hnone]
      rfl
  | @step x y l h t ih =>
    rw [length_append, length_singleton] at hfuel
    have hpos : 0 < l.length := by cases t <;> simp
    obtain ⟨fuel, rfl⟩ := Nat.exists_eq_succ_of_ne_zero (show fuel ≠ 0 by omega)
    obtain ⟨⟨source, flowId⟩, hget, rfl⟩ := Option.map_eq_some_iff.1 h
    obtain ⟨⟨f, hf, hends, rfl⟩, -⟩ := hprev y source flowId hget
    obtain ⟨o, es, hback, hroute⟩ := ih (show l.length ≤ fuel + 1 by omega) (y :: acc) (f.id :: edges)
    refine ⟨o, es ++ [f.id], ?_, hroute.concat hf hends⟩
    rw [walkBack, hget]
    simp only
    rw [hback, append_assoc, append_assoc]
    rfl

lemma length_of_traces (hprev : Stepwise mg S prev)
    {x : String} (h : Traces (before prev) l x) (hhead : ∀ o ∈ l.head?, o ∈ S) :
    (l.length : ℕ∞) = depth (successors (hops mg)) S x + 1 := by
  induction h with
  | @start x =>
    rw [depth_of_mem (hhead x rfl)]
    rfl
  | @step x y l h t ih =>
    obtain ⟨⟨source, flowId⟩, hget, rfl⟩ := Option.map_eq_some_iff.1 h
    have hne : l ≠ [] := by cases t <;> simp
    have hlength := ih fun o ho => hhead o (by rwa [head?_append_of_ne_nil _ hne])
    rw [length_append, length_singleton, Nat.cast_succ, hlength, (hprev y source flowId hget).2]

lemma FlowRoute.exists_cons {a b : String} {nodes edges : List String} (h : FlowRoute mg a nodes edges b) :
    ∃ l, nodes = a :: l ∧ l.length = edges.length := by
  induction h with
  | nil => exact ⟨[], rfl, rfl⟩
  | concat _ _ _ ih =>
    obtain ⟨l, rfl, hlength⟩ := ih
    exact ⟨_, cons_append, by rw [length_append, length_append, hlength]; rfl⟩

/-- A route of flows with as few hops as any that starts at one of the origins. -/
structure IsShortest (mg : ModelGraph) (S : List String) (nodes edges : List String) (targetId : String) : Prop where
  route : ∃ o ∈ S, FlowRoute mg o nodes edges targetId
  le : ∀ o ∈ S, ∀ nodes' edges', FlowRoute mg o nodes' edges' targetId → edges.length ≤ edges'.length

/-- What the search finds is a shortest route, and it finds one when there is any. -/
theorem bfsShortest_eq (mg : ModelGraph) (hS : S.Nodup) (targetId : String) :
    (∃ nodes edges, bfsShortest (hops mg) S targetId = ⟨true, some edges.length, nodes, edges⟩ ∧
        IsShortest mg S nodes edges targetId) ∨ (bfsShortest (hops mg) S targetId = ⟨false, none, [], []⟩ ∧
        ∀ o ∈ S, ¬ Relation.ReflTransGen (FlowsTo mg) o targetId) := by
  unfold bfsShortest
  split_ifs with htarget
  · exact .inl ⟨[targetId], [], rfl, ⟨targetId, htarget, .nil _⟩, fun _ _ _ _ _ => Nat.zero_le _⟩
  have hrec : Recorded (hops mg) S ⟨∅, .start S⟩ :=
    fun x hx => ⟨[x], .start rfl, nodup_singleton x, fun y hy => mem_singleton.1 hy ▸ hx, x, hx, .nil x⟩
  have hinit : Invariant (successors (hops mg)) S [] (.start S) := .initial hS
  cases hfound : bfsLoop (hops mg) targetId (searchSpace (hops mg) S).length ⟨∅, .start S⟩ with
  | none =>
    refine .inr ⟨rfl, fun o ho hreach => ?_⟩
    rw [← flowsTo_eq] at hreach
    obtain ⟨prev, -, hloop, -⟩ := bfsLoop_spec (searchSpace (hops mg) S).length hinit hrec htarget (Nat.le_refl _)
      ⟨o, ho, hreach⟩
    cases hfound.symm.trans hloop
  | some prev =>
    obtain ⟨hstep, seen, l, ht, hnodup, -, o, ho, hroute⟩ :=
      bfsLoop_sound _ hinit .initial hrec (fun _ _ _ => nofun) htarget hfound
    obtain ⟨o', es, hback, hflow⟩ := walkBack_flowRoute hstep ht (length_le_of_traces ht hnodup) [] []
    obtain ⟨m, hm⟩ := hroute.exists_cons
    obtain ⟨m', hm', hedges⟩ := hflow.exists_cons
    cases hm.symm.trans hm'
    refine .inl ⟨l, es, ?_, ⟨o, ho, hflow⟩, fun o' ho' nodes' edges' hflow' => ?_⟩
    · simp only [hback, append_nil]
      rw [hm, length_cons, Nat.add_sub_cancel, hedges]
    · have hlength := length_of_traces hstep ht fun o' ho' => by
        rw [hm] at ho'
        cases ho'
        exact ho
      have hdepth : depth (successors (hops mg)) S targetId ≤ edges'.length := by
        refine distance_le_of_walk ?_
        have hwalk := hflow'.walk (S := {s | s ∈ S}) ho'
        rwa [← flowsTo_eq] at hwalk
      have hle : ((es.length + 1 : ℕ) : ℕ∞) ≤ ((edges'.length + 1 : ℕ) : ℕ∞) := by
        rw [← hedges, ← length_cons (a := o), ← hm, hlength, Nat.cast_succ]
        gcongr
      have hnat := Nat.cast_le.1 hle
      omega

end ThreatReport
