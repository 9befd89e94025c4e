import Mathlib.Data.List.Nodup
import Mathlib.Data.List.Perm.Subperm

/-!
# Simple routes of a multigraph

The edges of a multigraph are given node by node, in an order. A route is the list of its edges, and it is
simple if it meets no node twice. `simpleRoutes` lists the simple routes to a node as a depth-first search
comes to them; `mem_simpleRoutes_iff` and `nodup_simpleRoutes` say that it lists each of them once.
-/

open List Nat

namespace SimpleRoutes

variable {V E : Type*} (out : V → List E) (dst : E → V)

/-- The edges lead from one node to another. -/
def Leads : V → List E → V → Prop
  | a, [], b => a = b
  | a, e :: es, b => e ∈ out a ∧ Leads (dst e) es b

/-- The nodes that a route meets, the first one included. -/
def nodesOf (a : V) (es : List E) : List V :=
  a :: es.map dst

/-- A route that meets no node twice. -/
structure IsSimple (a : V) (es : List E) (b : V) : Prop where
  leads : Leads out dst a es b
  nodup : (nodesOf dst a es).Nodup

section

variable {out dst} {a b : V} {e : E} {es : List E}

lemma Leads.mem_nodesOf (h : Leads out dst a es b) : b ∈ nodesOf dst a es := by
  induction es generalizing a with
  | nil => exact mem_singleton.2 (Eq.symm h)
  | cons e es ih => exact .tail _ (ih h.2)

lemma Leads.exists_mem_out (h : Leads out dst a es b) (he : e ∈ es) : ∃ v, e ∈ out v := by
  induction es generalizing a with
  | nil => cases he
  | cons _ _ ih =>
    obtain rfl | he := mem_cons.1 he
    · exact ⟨a, h.1⟩
    · exact ih h.2 he

/-- Routes with the same labels are the same, where an edge of a node is known by its label. -/
theorem Leads.eq_of_map_eq {L : Type*} {label : E → L} (hout : ∀ v, ((out v).map label).Nodup)
    {es' : List E} (h : Leads out dst a es b)
    (h' : Leads out dst a es' b) (heq : es.map label = es'.map label) : es = es' := by
  induction es generalizing a es' with
  | nil => exact (map_eq_nil_iff.1 heq.symm).symm
  | cons e es ih =>
    cases es' with
    | nil => cases heq
    | cons =>
      obtain ⟨hlabel, hrest⟩ := List.cons.inj heq
      obtain rfl := inj_on_of_nodup_map (hout a) h.1 h'.1 hlabel
      rw [ih h.2 h'.2 hrest]

lemma isSimple_nil : IsSimple out dst a [] b ↔ a = b :=
  ⟨fun h => h.leads, fun h => ⟨h, nodup_singleton a⟩⟩

lemma isSimple_cons : IsSimple out dst a (e :: es) b ↔
    e ∈ out a ∧ IsSimple out dst (dst e) es b ∧ a ∉ nodesOf dst (dst e) es := by
  constructor
  · rintro ⟨⟨he, hleads⟩, hnodup⟩
    obtain ⟨ha, hnodup⟩ := nodup_cons.1 hnodup
    exact ⟨he, ⟨hleads, hnodup⟩, ha⟩
  · rintro ⟨he, ⟨hleads, hnodup⟩, ha⟩
    exact ⟨⟨he, hleads⟩, nodup_cons.2 ⟨ha, hnodup⟩⟩

/-- A simple route ends when it comes to its end. -/
lemma IsSimple.eq_nil (h : IsSimple out dst a es a) : es = [] := by
  cases es with
  | nil => rfl
  | cons e es =>
    obtain ⟨-, hrest, ha⟩ := isSimple_cons.1 h
    exact absurd hrest.leads.mem_nodesOf ha

/-- A route goes on along an edge. -/
theorem leads_concat_iff : Leads out dst a (es ++ [e]) b ↔ ∃ c, Leads out dst a es c ∧ e ∈ out c ∧ dst e = b := by
  induction es generalizing a with
  | nil => exact ⟨fun h => ⟨a, rfl, h⟩, fun ⟨_, hc, h⟩ => hc ▸ h⟩
  | cons _ _ ih =>
    rw [cons_append, Leads, ih]
    simp only [Leads, and_assoc, exists_and_left]

/-- A simple route goes on simply from each of its nodes. -/
lemma IsSimple.exists_of_mem (h : IsSimple out dst a es b) {c : V} (hc : c ∈ nodesOf dst a es) :
    ∃ es', IsSimple out dst c es' b ∧ es' <+ es := by
  induction es generalizing a with
  | nil =>
    obtain rfl := mem_singleton.1 hc
    exact ⟨[], h, .refl _⟩
  | cons e es ih =>
    obtain rfl | hc := mem_cons.1 hc
    · exact ⟨e :: es, h, .refl _⟩
    · obtain ⟨es', hes', hsub⟩ := ih (isSimple_cons.1 h).2.1 hc
      exact ⟨es', hes', hsub.cons e⟩

/-- A route without its detours is simple. -/
theorem Leads.exists_isSimple (h : Leads out dst a es b) : ∃ es', IsSimple out dst a es' b ∧ es' <+ es := by
  induction es generalizing a with
  | nil => exact ⟨[], isSimple_nil.2 h, .refl _⟩
  | cons e es ih =>
    obtain ⟨es', hsimple, hsub⟩ := ih h.2
    by_cases ha : a ∈ nodesOf dst (dst e) es'
    · obtain ⟨es'', hsimple', hsub'⟩ := hsimple.exists_of_mem ha
      exact ⟨es'', hsimple', (hsub'.trans hsub).cons e⟩
    · exact ⟨e :: es', isSimple_cons.2 ⟨h.1, hsimple, ha⟩, hsub.cons_cons e⟩

end

variable [DecidableEq V]

/-- The simple routes to a node of at most a number of edges that keep away from the visited nodes. -/
def simpleRoutes (target : V) : ℕ → V → List V → List (List E)
  | 0, cur, _ => if cur = target then [[]] else []
  | left + 1, cur, visited =>
    if cur = target then [[]]
    else (out cur).flatMap fun e =>
      if dst e ∈ visited then []
      else (simpleRoutes target left (dst e) (visited ++ [dst e])).map (e :: ·)

variable {out dst} {a target : V} {e : E} {es : List E} {left : ℕ} {visited : List V}

lemma simpleRoutes_self : simpleRoutes out dst a left a visited = [[]] := by
  cases left with
  | zero | succ left => rw [simpleRoutes, if_pos rfl]

/-- The routes through the edges of one node. -/
lemma mem_through_iff {l : List E} : es ∈ (l.flatMap fun e =>
      if dst e ∈ visited then []
      else (simpleRoutes out dst target left (dst e) (visited ++ [dst e])).map (e :: ·)) ↔
    ∃ e rest, es = e :: rest ∧ e ∈ l ∧ dst e ∉ visited ∧
      rest ∈ simpleRoutes out dst target left (dst e) (visited ++ [dst e]) := by
  rw [mem_flatMap]
  constructor
  · rintro ⟨e, he, hes⟩
    split_ifs at hes with hvisited
    · exact absurd hes not_mem_nil
    · obtain ⟨rest, hrest, rfl⟩ := mem_map.1 hes
      exact ⟨e, rest, rfl, he, hvisited, hrest⟩
  · rintro ⟨e, rest, rfl, he, hvisited, hrest⟩
    refine ⟨e, he, ?_⟩
    rw [if_neg hvisited]
    exact mem_map_of_mem hrest

lemma mem_simpleRoutes_self_iff : es ∈ simpleRoutes out dst a left a visited ↔
    IsSimple out dst a es a ∧ es.length ≤ left ∧ ∀ e ∈ es, dst e ∉ visited := by
  rw [simpleRoutes_self, mem_singleton]
  constructor
  · rintro rfl
    exact ⟨isSimple_nil.2 rfl, zero_le _, fun e he => absurd he not_mem_nil⟩
  · rintro ⟨hsimple, -⟩
    exact hsimple.eq_nil

/-- The list holds the simple routes that keep away from what was visited. -/
theorem mem_simpleRoutes_iff (ha : a ∈ visited) :
    es ∈ simpleRoutes out dst target left a visited ↔
      IsSimple out dst a es target ∧ es.length ≤ left ∧ ∀ e ∈ es, dst e ∉ visited := by
  induction left generalizing a es visited with
  | zero =>
    by_cases h : a = target
    · subst h
      exact mem_simpleRoutes_self_iff
    · rw [simpleRoutes, if_neg h]
      refine iff_of_false not_mem_nil ?_
      rintro ⟨hsimple, hlength, -⟩
      obtain rfl := eq_nil_of_length_eq_zero (le_zero.1 hlength)
      exact h (isSimple_nil.1 hsimple)
  | succ left ih =>
    by_cases h : a = target
    · subst h
      exact mem_simpleRoutes_self_iff
    have hstep : ∀ {e : E} {rest : List E}, rest ∈ simpleRoutes out dst target left (dst e) (visited ++ [dst e]) ↔
        IsSimple out dst (dst e) rest target ∧ rest.length ≤ left ∧
          ∀ e' ∈ rest, dst e' ∉ visited ++ [dst e] :=
      fun {e rest} => ih (mem_append_right _ (mem_singleton_self _))
    rw [simpleRoutes, if_neg h, mem_through_iff]
    constructor
    · rintro ⟨e, rest, rfl, he, hvisited, hrest⟩
      obtain ⟨hsimple, hlength, haway⟩ := hstep.1 hrest
      have haway' : ∀ e' ∈ e :: rest, dst e' ∉ visited := by
        intro e' he'
        obtain rfl | he' := mem_cons.1 he'
        · exact hvisited
        · exact fun hmem => haway e' he' (mem_append_left _ hmem)
      -- the first node was visited, so the rest of the route does not meet it
      refine ⟨isSimple_cons.2 ⟨he, hsimple, fun hmem => ?_⟩, succ_le_succ hlength, haway'⟩
      obtain ⟨e', he', heq⟩ : ∃ e' ∈ e :: rest, dst e' = a := mem_map.1 hmem
      exact haway' e' he' (heq ▸ ha)
    · rintro ⟨hsimple, hlength, haway⟩
      cases es with
      | nil => exact absurd (isSimple_nil.1 hsimple) h
      | cons e rest =>
        obtain ⟨he, hrest, -⟩ := isSimple_cons.1 hsimple
        refine ⟨e, rest, rfl, he, haway e (.head _),
          hstep.2 ⟨hrest, le_of_succ_le_succ hlength, fun e' he' hmem => ?_⟩⟩
        obtain hmem | hmem := mem_append.1 hmem
        · exact haway e' (.tail _ he') hmem
        · have hnodup := hrest.nodup
          have htwice : dst e ∈ rest.map dst := mem_singleton.1 hmem ▸ mem_map_of_mem he'
          exact (nodup_cons.1 hnodup).1 htwice

/-- No route is listed twice if no edge is. -/
theorem nodup_simpleRoutes (hout : ∀ v, (out v).Nodup) : (simpleRoutes out dst target left a visited).Nodup := by
  induction left generalizing a visited with
  | zero =>
    rw [simpleRoutes]
    split_ifs
    · exact nodup_singleton _
    · exact nodup_nil
  | succ left ih =>
    rw [simpleRoutes]
    split_ifs
    · exact nodup_singleton _
    · rw [nodup_flatMap]
      constructor
      · intro e _
        split_ifs
        · exact nodup_nil
        · exact ih.map (cons_injective)
      · -- routes through different edges differ in the first one
        refine (hout a).imp fun {e e'} hne es hes hes' => hne ?_
        obtain ⟨e₁, rest, heq, he₁, -⟩ := mem_through_iff.1
          (mem_flatMap.2 ⟨e, mem_singleton_self e, hes⟩)
        obtain ⟨e₂, rest', heq', he₂, -⟩ := mem_through_iff.1
          (mem_flatMap.2 ⟨e', mem_singleton_self e', hes'⟩)
        rw [mem_singleton.1 he₁] at heq
        rw [mem_singleton.1 he₂, heq] at heq'
        exact (List.cons.inj heq').1

end SimpleRoutes
