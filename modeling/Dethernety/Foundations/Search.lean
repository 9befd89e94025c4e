import Mathlib.Data.List.Nodup
import Mathlib.Data.List.Perm.Subperm

/-!
# Searching a graph

Routes of a directed graph and the nodes that every route passes, and a breadth-first search with a
queue over an adjacency function. `mem_search_iff` is the correctness of the search, and
`Dominates.idxOf_lt` says that all routes meet the nodes that they must pass in one order.
-/

open List

namespace Search

variable {α : Type*}

section

/-- A directed route as the list of its nodes. -/
inductive Route (E : α → α → Prop) : α → List α → α → Prop
  | nil (a : α) : Route E a [a] a
  | cons {a b c : α} {r : List α} (e : E a b) (h : Route E b r c) : Route E a (a :: r) c

variable {E E' : α → α → Prop} {a b c s t u v : α} {l r : List α}

lemma Route.exists_cons (h : Route E a r b) : ∃ l, r = a :: l := by
  cases h with
  | nil => exact ⟨[], rfl⟩
  | cons => exact ⟨_, rfl⟩

lemma Route.head_mem (h : Route E a r b) : a ∈ r := by
  obtain ⟨l, rfl⟩ := h.exists_cons
  exact .head _

lemma Route.mono (h : Route E a r b) (hE : ∀ x y, y ∈ r → E x y → E' x y) : Route E' a r b := by
  induction h with
  | nil a => exact .nil a
  | cons e h ih =>
    refine .cons (hE _ _ (.tail _ h.head_mem) e) (ih fun x y hy => ?_)
    exact hE x y (.tail _ hy)

/-- A route goes on after its end. -/
lemma Route.append (h : Route E a (l ++ [b]) b) (h' : Route E b (b :: r) c) : Route E a (l ++ b :: r) c := by
  generalize hp : l ++ [b] = p at h
  induction h generalizing l with
  | nil x =>
    cases l with
    | nil => exact (List.cons.inj hp).1 ▸ h'
    | cons y l =>
      have hlen := congrArg List.length hp
      simp at hlen
  | cons e h ih =>
    cases l with
    | nil =>
      cases hp
      cases h
    | cons y l =>
      obtain ⟨rfl, hl⟩ := List.cons.inj hp
      exact .cons e (ih h' hl)

lemma Route.concat (h : Route E a r b) (e : E b c) : Route E a (r ++ [c]) c := by
  induction h with
  | nil x => exact .cons e (.nil c)
  | cons e' _ ih => exact .cons e' (ih e)

lemma Route.suffix (h : Route E a (l ++ v :: r) c) : Route E v (v :: r) c := by
  induction l generalizing a with
  | nil =>
    obtain ⟨m, hm⟩ := h.exists_cons
    cases hm
    exact h
  | cons x l ih =>
    generalize hp : x :: l ++ v :: r = p at h
    cases h with
    | nil =>
      have hlen := congrArg List.length hp
      simp at hlen
    | cons _ h =>
      cases hp
      exact ih h

/-- A route is cut at the first time that it meets a node. -/
lemma Route.split [DecidableEq α] (h : Route E a r c) (hv : v ∈ r) :
    ∃ l m, r = l ++ v :: m ∧ v ∉ l ∧ Route E a (l ++ [v]) v ∧ Route E v (v :: m) c := by
  induction h with
  | nil x =>
    obtain rfl := mem_singleton.1 hv
    exact ⟨[], [], rfl, not_mem_nil, .nil v, .nil v⟩
  | @cons x y z p e h ih =>
    by_cases hx : v = x
    · subst hx
      exact ⟨[], p, rfl, not_mem_nil, .nil v, .cons e h⟩
    · obtain ⟨l, m, rfl, hl, h₁, h₂⟩ := ih (mem_of_ne_of_mem hx hv)
      exact ⟨x :: l, m, rfl, fun hmem => (mem_cons.1 hmem).elim hx hl, .cons e h₁, h₂⟩

lemma Route.reverse (h : Route E a r b) : Route (fun x y => E y x) b r.reverse a := by
  induction h with
  | nil x => exact .nil x
  | cons e h ih =>
    rw [reverse_cons]
    exact ih.concat e

lemma exists_route_iff : (∃ r, Route E a r b) ↔ Relation.ReflTransGen E a b := by
  constructor
  · rintro ⟨r, h⟩
    induction h with
    | nil => exact .refl
    | cons e _ ih => exact .head e ih
  · intro h
    induction h with
    | refl => exact ⟨[a], .nil a⟩
    | tail _ e ih =>
      obtain ⟨r, h⟩ := ih
      exact ⟨_, h.concat e⟩

/-- There is a way that never goes into `v` exactly when some route avoids it. -/
theorem reflTransGen_ne_iff (hs : s ≠ v) :
    Relation.ReflTransGen (fun x y => E x y ∧ y ≠ v) s t ↔ ∃ r, Route E s r t ∧ v ∉ r := by
  rw [← exists_route_iff]
  constructor
  · rintro ⟨r, h⟩
    refine ⟨r, h.mono fun _ _ _ e => e.1, ?_⟩
    induction h with
    | nil x => exact fun hv => hs (mem_singleton.1 hv).symm
    | cons e _ ih => exact fun hv => (mem_cons.1 hv).elim (fun hx => hs hx.symm) (ih e.2)
  · rintro ⟨r, h, hv⟩
    exact ⟨r, h.mono fun x y hy e => ⟨e, ne_of_mem_of_not_mem hy hv⟩⟩

/-- An inner node that every route from `s` to `t` passes, where there is one. -/
structure Dominates (E : α → α → Prop) (s t v : α) : Prop where
  ne_source : v ≠ s
  ne_target : v ≠ t
  reachable : ∃ r, Route E s r t
  mem_route : ∀ r, Route E s r t → v ∈ r

lemma Dominates.reverse (h : Dominates E s t v) : Dominates (fun x y => E y x) t s v where
  ne_source := h.ne_target
  ne_target := h.ne_source
  reachable := h.reachable.imp' List.reverse fun _ hr => hr.reverse
  mem_route _ hr := mem_reverse.1 (h.mem_route _ hr.reverse)

/-- What comes before on one simple route is met first on every route. -/
theorem Dominates.idxOf_lt [DecidableEq α] (hu : Dominates E s t u) (hv : Dominates E s t v)
    (hp : Route E s (l ++ v :: r) t) (hur : u ∉ v :: r) {p : List α} (h : Route E s p t) : p.idxOf u < p.idxOf v := by
  obtain ⟨p₁, p₂, rfl, hv₁, hr₁, -⟩ := h.split (hv.mem_route p h)
  have hidx : (p₁ ++ v :: p₂).idxOf v = p₁.length := by
    rw [idxOf_append_of_notMem hv₁, idxOf_cons_self, Nat.add_zero]
  rw [hidx]
  by_cases hu₁ : u ∈ p₁
  · rw [idxOf_append_of_mem hu₁]
    exact idxOf_lt_length_of_mem hu₁
  · -- the way to `v` and then that of the simple route would avoid `u`
    refine absurd (hu.mem_route _ (hr₁.append hp.suffix)) fun hmem => ?_
    exact (mem_append.1 hmem).elim hu₁ hur

/-- All routes meet the nodes that they must pass in the order of a simple route, both for the first
and for the last time. -/
theorem Dominates.order [DecidableEq α] (hu : Dominates E s t u) (hv : Dominates E s t v)
    {p : List α} (hp : Route E s p t) (hnodup : p.Nodup) (hlt : p.idxOf u < p.idxOf v)
    (h : Route E s r t) : r.idxOf u < r.idxOf v ∧ r.reverse.idxOf v < r.reverse.idxOf u := by
  obtain ⟨a, m, rfl, hua, -, -⟩ := hp.split (hu.mem_route p hp)
  have hidx : (a ++ u :: m).idxOf u = a.length := by
    rw [idxOf_append_of_notMem hua, idxOf_cons_self, Nat.add_zero]
  -- `v` comes after `u`
  have hvm : v ∈ m := by
    obtain hva | hvu := mem_append.1 (hv.mem_route _ hp)
    · rw [hidx, idxOf_append_of_mem hva] at hlt
      exact absurd (idxOf_lt_length_of_mem hva) (Nat.lt_asymm hlt)
    · exact mem_of_ne_of_mem (fun heq => absurd hlt (heq ▸ Nat.lt_irrefl _)) hvu
  obtain ⟨b, c, rfl⟩ := append_of_mem hvm
  constructor
  · refine hu.idxOf_lt hv (l := a ++ u :: b) (r := c) (by simpa using hp) ?_ h
    simp only [nodup_append, nodup_cons, mem_append] at hnodup
    exact fun hmem => hnodup.2.1.1 (.inr hmem)
  · refine hv.reverse.idxOf_lt hu.reverse (l := (b ++ v :: c).reverse) (r := a.reverse)
      (by simpa using hp.reverse) ?_ h.reverse
    intro hmem
    have hvau : v ∈ a ++ [u] := by simpa [or_comm] using hmem
    have hsplit : (a ++ [u] ++ (b ++ v :: c)).Nodup := by simpa using hnodup
    exact (nodup_append.1 hsplit).2.2 v hvau v (by simp) rfl

end

section

/-- What a search has seen, in this order, and what of it is still to be visited. -/
structure Frontier (α : Type*) where
  seen : List α
  queue : List α

/-- A search that starts at distinct nodes. -/
def Frontier.start (S : List α) : Frontier α :=
  ⟨S, S⟩

variable {succ : α → List α} {S done : List α} {f : Frontier α}

/-- What holds between the rounds of a search from `S` that has visited `done`. -/
structure Invariant (succ : α → List α) (S done : List α) (f : Frontier α) : Prop where
  seen_eq : f.seen = done ++ f.queue
  nodup : f.seen.Nodup
  start : ∀ x ∈ S, x ∈ f.seen
  sound : ∀ x ∈ f.seen, ∃ s ∈ S, Relation.ReflTransGen (fun a b => b ∈ succ a) s x
  closed : ∀ x ∈ done, ∀ y ∈ succ x, y ∈ f.seen

lemma Invariant.initial (hS : S.Nodup) : Invariant succ S [] (.start S) where
  seen_eq := rfl
  nodup := hS
  start _ hx := hx
  sound x hx := ⟨x, hx, .refl⟩
  closed _ hx := absurd hx not_mem_nil

/-- A search sees nothing outside a set that holds the start and the neighbours. -/
lemma Invariant.length_le {U : List α} (h : Invariant succ S done f) (hS : S ⊆ U)
    (hsucc : ∀ x, succ x ⊆ U) : f.seen.length ≤ U.length := by
  refine (subperm_of_subset h.nodup fun x hx => ?_).length_le
  obtain ⟨s, hs, hreach⟩ := h.sound x hx
  cases hreach with
  | refl => exact hS hs
  | tail _ e => exact hsucc _ e

/-- While something is queued, there are rounds left. -/
lemma Invariant.fuel_pos {U : List α} {fuel : ℕ} (h : Invariant succ S done f) (hS : S ⊆ U)
    (hsucc : ∀ x, succ x ⊆ U) (hfuel : U.length ≤ fuel + done.length) {x : α} {rest : List α}
    (hq : f.queue = x :: rest) : 0 < fuel := by
  have hlen := h.length_le hS hsucc
  rw [h.seen_eq, hq, length_append, length_cons] at hlen
  omega

/-- When nothing is queued, everything that can be reached has been seen. -/
lemma Invariant.mem_seen_iff (h : Invariant succ S done f) (hq : f.queue = []) (x : α) :
    x ∈ f.seen ↔ ∃ s ∈ S, Relation.ReflTransGen (fun a b => b ∈ succ a) s x := by
  refine ⟨h.sound x, ?_⟩
  rintro ⟨s, hs, hreach⟩
  induction hreach with
  | refl => exact h.start s hs
  | tail _ e ih =>
    rw [h.seen_eq, hq, append_nil] at ih
    exact h.closed _ ih _ e

variable [DecidableEq α]

/-- A node that was not seen before is seen and queued. -/
def Frontier.discover (f : Frontier α) (x : α) : Frontier α :=
  if x ∈ f.seen then f else ⟨f.seen ++ [x], f.queue ++ [x]⟩

/-- Look at the neighbours of a node one after the other. -/
def Frontier.scan (f : Frontier α) (row : List α) : Frontier α :=
  row.foldl Frontier.discover f

/-- The search loop; it visits at most `fuel` nodes. -/
def search (succ : α → List α) : ℕ → Frontier α → Frontier α
  | 0, f => f
  | fuel + 1, f =>
    match f.queue with
    | [] => f
    | x :: rest => search succ fuel (Frontier.scan ⟨f.seen, rest⟩ (succ x))

lemma Frontier.scan_spec (f : Frontier α) (row : List α) :
    ∃ new, f.scan row = ⟨f.seen ++ new, f.queue ++ new⟩ ∧
      (f.seen.Nodup → (f.seen ++ new).Nodup) ∧ ∀ x, x ∈ new ↔ x ∈ row ∧ x ∉ f.seen := by
  induction row generalizing f with
  | nil => exact ⟨[], by simp [scan], by simp, by simp⟩
  | cons y row ih =>
    obtain ⟨new, hscan, hnodup, hmem⟩ := ih (f.discover y)
    rw [scan, foldl_cons, ← scan, hscan]
    unfold discover at hnodup hmem ⊢
    split_ifs at hnodup hmem ⊢ with hy
    · refine ⟨new, rfl, hnodup, fun x => ?_⟩
      rw [hmem, mem_cons]
      exact ⟨fun h => ⟨.inr h.1, h.2⟩, fun h => ⟨h.1.resolve_left fun hx => h.2 (hx ▸ hy), h.2⟩⟩
    · refine ⟨y :: new, ?_, fun hf => ?_, fun x => ?_⟩
      · simp only [append_assoc, singleton_append]
      · have hcons := hnodup (hf.append (nodup_singleton y) (disjoint_singleton.2 hy))
        rwa [append_assoc] at hcons
      · rw [mem_cons, hmem, mem_cons, mem_append, mem_singleton, not_or]
        constructor
        · rintro (rfl | ⟨hx, hseen, -⟩)
          · exact ⟨.inl rfl, hy⟩
          · exact ⟨.inr hx, hseen⟩
        · rintro ⟨hx, hseen⟩
          by_cases hxy : x = y
          · exact .inl hxy
          · exact .inr ⟨hx.resolve_left hxy, hseen, hxy⟩

/-- A round keeps the invariant. -/
lemma Invariant.step {x : α} {rest : List α} (h : Invariant succ S done f) (hq : f.queue = x :: rest) :
    Invariant succ S (done ++ [x]) (Frontier.scan ⟨f.seen, rest⟩ (succ x)) := by
  obtain ⟨new, hscan, hnodup, hmem⟩ := Frontier.scan_spec ⟨f.seen, rest⟩ (succ x)
  have hx : x ∈ f.seen := by
    rw [h.seen_eq, hq]
    exact mem_append_right _ (.head _)
  rw [hscan]
  refine ⟨?_, hnodup h.nodup, fun y hy => mem_append_left _ (h.start y hy), ?_, ?_⟩
  · rw [h.seen_eq, hq]
    simp
  · intro y hy
    obtain hy | hy := mem_append.1 hy
    · exact h.sound y hy
    · obtain ⟨s, hs, hreach⟩ := h.sound x hx
      exact ⟨s, hs, hreach.tail ((hmem y).1 hy).1⟩
  · intro y hy z hz
    obtain hy | hy := mem_append.1 hy
    · exact mem_append_left _ (h.closed y hy z hz)
    · obtain rfl := mem_singleton.1 hy
      by_cases hseen : z ∈ f.seen
      · exact mem_append_left _ hseen
      · exact mem_append_right _ ((hmem z).2 ⟨hz, hseen⟩)

lemma search_invariant {U : List α} (fuel : ℕ) (h : Invariant succ S done f) (hS : S ⊆ U)
    (hsucc : ∀ x, succ x ⊆ U) (hfuel : U.length ≤ fuel + done.length) :
    ∃ done', Invariant succ S done' (search succ fuel f) ∧ (search succ fuel f).queue = [] := by
  induction fuel generalizing f done with
  | zero =>
    refine ⟨done, h, ?_⟩
    cases hq : f.queue with
    | nil => exact hq
    | cons x rest => exact absurd (h.fuel_pos hS hsucc hfuel hq) (Nat.lt_irrefl 0)
  | succ fuel ih =>
    rw [search]
    cases hq : f.queue with
    | nil => exact ⟨done, h, hq⟩
    | cons x rest =>
      refine ih (h.step hq) ?_
      rw [length_append, length_singleton]
      omega

/-- The search finds what can be reached from the start. -/
theorem mem_search_iff {U : List α} {fuel : ℕ} (hnodup : S.Nodup) (hS : S ⊆ U)
    (hsucc : ∀ x, succ x ⊆ U) (hfuel : U.length ≤ fuel) (x : α) :
    x ∈ (search succ fuel (.start S)).seen ↔
      ∃ s ∈ S, Relation.ReflTransGen (fun a b => b ∈ succ a) s x := by
  obtain ⟨done, h, hq⟩ := search_invariant fuel (.initial hnodup) hS hsucc hfuel
  exact h.mem_seen_iff hq x

end

variable {prev prev' : α → Option α} {l : List α} {x y : α}

/-- The way to a node that its predecessors spell out. -/
inductive Traces (prev : α → Option α) : List α → α → Prop
  | start {x : α} (h : prev x = none) : Traces prev [x] x
  | step {x y : α} {l : List α} (h : prev y = some x) (t : Traces prev l x) : Traces prev (l ++ [y]) y

lemma Traces.congr (h : Traces prev l x) (hl : ∀ y ∈ l, prev' y = prev y) : Traces prev' l x := by
  induction h with
  | start h => exact .start (by rw [hl _ (.head _), h])
  | step h _ ih =>
    refine .step ?_ (ih fun y hy => hl y (mem_append_left _ hy))
    rw [hl _ (mem_append_right _ (.head _)), h]

/-- All nodes of the way but the first have a predecessor. -/
theorem Traces.tail_isSome (h : Traces prev l x) : ∀ y ∈ l.tail, (prev y).isSome := by
  induction h with
  | start => simp
  | @step x y l h t ih =>
    intro z hz
    obtain ⟨a, m, rfl⟩ : ∃ a m, l = a :: m := by cases t <;> simp [exists_cons_of_ne_nil]
    rw [cons_append, tail_cons] at hz
    obtain hz | hz := mem_append.1 hz
    · exact ih z hz
    · obtain rfl := mem_singleton.1 hz
      rw [h]
      rfl

end Search
