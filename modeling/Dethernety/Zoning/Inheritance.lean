import Dethernety.Zoning.Context

/-!
# Zone inheritance

Model of `resolveEffectiveZone` and `isAncestorOf`. The walk goes from a boundary up the parent
references of the context to the nearest boundary with a zone. In a context that was built from a
structure these references are the nesting, except that of the default boundary, which is the one
of the file: what the walk sees after the default boundary is its `detour`.
-/

open List

namespace Zoning

section

inductive ZoneSource
  | declared
  | inherited
  | default
  deriving DecidableEq

structure EffectiveZone where
  zone : Zone
  source : ZoneSource
  /-- The ancestor of an inherited zone. -/
  inheritedFrom : Option String
  deriving DecidableEq

def defaultZone : EffectiveZone :=
  ⟨.internal, .default, none⟩

def maxDepth : ℕ := 50

/-- The id that a walk goes to from a boundary. -/
def nextId (defaultBoundaryId : String) (boundary : BoundaryData) : String :=
  match boundary.parentBoundary with
  | none => defaultBoundaryId
  | some parent => if parent = "" then defaultBoundaryId else parent

/-- What a declared zone gives where the walk has come to `id`. -/
def found (boundaryId id : String) (zone : Zone) : EffectiveZone :=
  if id = boundaryId then ⟨zone, .declared, none⟩ else ⟨zone, .inherited, some id⟩

/-- The variables of the loop of `resolveEffectiveZone`. -/
structure Walk where
  depth : ℕ
  currentId : String
  seen : List String

variable (boundaryId : String) (byId : Record String BoundaryData) (defaultBoundaryId : String)

/-- A round of the loop: the result, or the variables of the next round. -/
def walkStep (w : Walk) : EffectiveZone ⊕ Walk :=
  if ¬ w.depth < maxDepth then .inl defaultZone
  else if w.currentId = "" ∨ w.currentId ∈ w.seen then .inl defaultZone
  else
    match byId.get? w.currentId with
    | none => .inl defaultZone
    | some boundary =>
      match boundary.zone with
      | some zone => .inl (found boundaryId w.currentId zone)
      | none => .inr {
          depth := w.depth + 1
          currentId := nextId defaultBoundaryId boundary
          seen := w.currentId :: w.seen }

/-- At most `fuel` rounds; `none` if the loop has not ended. -/
def walkLoop : ℕ → Walk → Option EffectiveZone
  | 0, _ => none
  | fuel + 1, w =>
    match walkStep boundaryId byId defaultBoundaryId w with
    | .inl result => some result
    | .inr w' => walkLoop fuel w'

def resolveEffectiveZone : EffectiveZone :=
  (walkLoop boundaryId byId defaultBoundaryId (maxDepth + 1) ⟨0, boundaryId, []⟩).getD defaultZone

def ancestorLoop (ancestorId : String) : ℕ → String → List String → Bool
  | 0, _, _ => false
  | depth + 1, cur, seen =>
    let next := ((byId.get? cur).map (nextId defaultBoundaryId)).getD defaultBoundaryId
    if next = "" ∨ next ∈ seen then false
    else if next = ancestorId then true
    else ancestorLoop ancestorId depth next (next :: seen)

def isAncestorOf (ancestorId descendantId : String) : Bool :=
  ancestorLoop byId defaultBoundaryId ancestorId maxDepth descendantId []

/-- The loop with `n` rounds left. -/
def rounds : ℕ → String → List String → EffectiveZone
  | 0, _, _ => defaultZone
  | n + 1, cur, seen =>
    if cur = "" ∨ cur ∈ seen then defaultZone
    else
      match byId.get? cur with
      | none => defaultZone
      | some boundary =>
        match boundary.zone with
        | some zone => found boundaryId cur zone
        | none => rounds n (nextId defaultBoundaryId boundary) (cur :: seen)

lemma walkLoop_eq_rounds {n fuel : ℕ} (hn : n ≤ maxDepth) (hfuel : n < fuel) (cur : String) (seen : List String) :
    walkLoop boundaryId byId defaultBoundaryId fuel ⟨maxDepth - n, cur, seen⟩ =
      some (rounds boundaryId byId defaultBoundaryId n cur seen) := by
  induction n generalizing fuel cur seen with
  | zero =>
    obtain ⟨fuel, rfl⟩ := Nat.exists_eq_add_of_lt hfuel
    have hdepth : ¬ maxDepth - 0 < maxDepth := Nat.lt_irrefl _
    rw [Nat.zero_add, walkLoop, walkStep, if_pos hdepth]
    rfl
  | succ n ih =>
    obtain ⟨fuel, rfl⟩ : ∃ fuel', fuel = fuel' + 1 := Nat.exists_eq_succ_of_ne_zero (by omega)
    have hdepth : maxDepth - (n + 1) < maxDepth := by omega
    have hnext : maxDepth - (n + 1) + 1 = maxDepth - n := by omega
    rw [walkLoop, walkStep, rounds, if_neg (not_not.2 hdepth)]
    split_ifs with hstop
    · rfl
    · cases byId.get? cur with
      | none => rfl
      | some boundary =>
        simp only
        cases boundary.zone with
        | some zone => rfl
        | none =>
          simp only [hnext]
          exact ih (by omega) (by omega) _ _

lemma walkLoop_stops {fuel : ℕ} (hfuel : maxDepth < fuel) :
    walkLoop boundaryId byId defaultBoundaryId fuel ⟨0, boundaryId, []⟩ =
      some (resolveEffectiveZone boundaryId byId defaultBoundaryId) := by
  have hrounds : ∀ fuel, maxDepth < fuel →
      walkLoop boundaryId byId defaultBoundaryId fuel ⟨0, boundaryId, []⟩ =
        some (rounds boundaryId byId defaultBoundaryId maxDepth boundaryId []) := by
    intro fuel hfuel
    have h := walkLoop_eq_rounds boundaryId byId defaultBoundaryId (Nat.le_refl maxDepth) hfuel
      boundaryId []
    exact h
  rw [resolveEffectiveZone, hrounds fuel hfuel, hrounds _ (Nat.lt_succ_self _)]
  rfl

lemma resolveEffectiveZone_eq_rounds :
    resolveEffectiveZone boundaryId byId defaultBoundaryId =
      rounds boundaryId byId defaultBoundaryId maxDepth boundaryId [] := by
  have h := walkLoop_eq_rounds boundaryId byId defaultBoundaryId (Nat.le_refl maxDepth)
    (Nat.lt_succ_self _) boundaryId []
  rw [Nat.sub_self, walkLoop_stops boundaryId byId defaultBoundaryId (Nat.lt_succ_self _)] at h
  exact Option.some.inj h

end

section

variable {s : ModelStructure} {flows : List DataFlow} {dataItems : List DataItem}

/-- The first boundary of a list that declares a zone, as a walk from `boundaryId` returns it. -/
def nearest (boundaryId : String) (l : List BoundaryData) : Option EffectiveZone :=
  l.findSome? fun a => a.zone.map (found boundaryId a.id)

lemma nodup_nodes (hids : (ids s).Nodup) : (s.nodes.map BoundaryData.id).Nodup := by
  have hsub : ∀ l : List (BoundaryData ⊕ ComponentData),
      ((l.filterMap Sum.getLeft?).map BoundaryData.id).Sublist (l.map elementId) := by
    intro l
    induction l with
    | nil => exact List.Sublist.refl _
    | cons e l ih =>
      cases e with
      | inl b => exact ih.cons_cons b.id
      | inr c => exact ih.cons c.id
  exact (hsub s.elements).nodup hids

lemma boundariesById_eq : (buildZoningContext s flows dataItems).boundariesById =
    s.nodes.foldl (fun r b => r.set b.id (normalized (flattenStructure s) b)) ∅ := by
  show Record.ofList ((flattenStructure s).boundaries.map _) = _
  rw [Record.ofList, foldl_map, (flattenStructure_fields s).1]

variable {b : BoundaryData} {enclosing : List BoundaryData} {l : List BoundaryData} {seen : List String}
  {boundaryId : String}

lemma get?_boundariesById (hids : (ids s).Nodup) (hb : b ∈ s.nodes) :
    (buildZoningContext s flows dataItems).boundariesById.get? b.id = some (normalized (flattenStructure s) b) := by
  rw [boundariesById_eq]
  exact Record.get?_foldl_set_of_count hb
    (count_eq_one_of_mem (nodup_nodes hids) (mem_map_of_mem hb)) ∅

lemma get?_boundariesById_of_notMem {id : String} (h : id ∉ s.nodes.map BoundaryData.id) :
    (buildZoningContext s flows dataItems).boundariesById.get? id = none := by
  rw [boundariesById_eq, Record.get?_foldl_set_of_notMem h]
  rfl

lemma mem_nodes_of_mem_chains (h : (b, enclosing) ∈ s.chains []) : b ∈ s.nodes := by
  rw [← Nesting.map_fst_chains []]
  exact mem_map_of_mem (f := Prod.fst) h

lemma nodup_chain (hids : (ids s).Nodup)
    (h : (b, enclosing) ∈ s.chains []) : ((b :: enclosing).map BoundaryData.id).Nodup := by
  obtain ⟨l, hl, hsub⟩ := Nesting.exists_sublist_of_mem_chains h
  rw [show b :: enclosing = l.reverse from hl.trans (append_nil _), map_reverse, nodup_reverse]
  exact (hsub.map BoundaryData.id).nodup (nodup_nodes hids)

lemma normalized_of_mem_chains (hids : (ids s).Nodup) (h : (b, enclosing) ∈ s.chains []) :
    (normalized (flattenStructure s) b).zone = b.zone ∧ nextId s.data.id (normalized (flattenStructure s) b) =
        (enclosing.head?.map BoundaryData.id).getD (nextId s.data.id s.data) ∧ (enclosing = [] → b = s.data) := by
  obtain hroot | ⟨a, rest, henclosing, hlink, -⟩ := Nesting.chains_cases h
  · cases hroot
    have hsame : normalized (flattenStructure s) s.data = s.data := by
      unfold normalized
      rw [parentOf_root hids]
    rw [hsame]
    exact ⟨rfl, rfl, fun _ => rfl⟩
  · have hparent : (flattenStructure s).parentOf b.id = some a.id := parentOf_of_mem_links hids hlink
    obtain rfl : enclosing = a :: rest := henclosing
    have hsame : normalized (flattenStructure s) b = { b with parentBoundary := some a.id } := by
      unfold normalized
      rw [hparent]
    rw [hsame]
    refine ⟨rfl, ?_, fun hnil => absurd hnil (cons_ne_nil _ _)⟩
    simp [nextId, a.id_ne_empty]

lemma mem_chains_tail {a b : BoundaryData} {rest : List BoundaryData}
    (h : (b, a :: rest) ∈ s.chains []) : (a, rest) ∈ s.chains [] := by
  obtain hroot | ⟨a', rest', henclosing, -, hchain⟩ := Nesting.chains_cases h
  · cases hroot
  · cases henclosing
    exact hchain

lemma notMem_seen_cons (h : b.id ∉ l.map BoundaryData.id) (hseen : ∀ a ∈ b :: l, a.id ∉ seen) :
    ∀ a ∈ l, a.id ∉ b.id :: seen := by
  intro a ha hmem
  obtain heq | hmem := mem_cons.1 hmem
  · exact h (heq ▸ mem_map_of_mem ha)
  · exact hseen a (.tail _ ha) hmem

lemma takeWhile_notMem_cons {id : String} (h : id ∉ l.map BoundaryData.id) :
    l.takeWhile (·.id ∉ id :: seen) = l.takeWhile (·.id ∉ seen) := by
  induction l with
  | nil => rfl
  | cons c l ih =>
    rw [map_cons, mem_cons, not_or] at h
    have hc : (c.id ∉ id :: seen) ↔ (c.id ∉ seen) := by simp [Ne.symm h.1]
    simp only [takeWhile_cons, hc, ih h.2]

section

variable {byId : Record String BoundaryData} (hids : (ids s).Nodup)
  (hget : ∀ b ∈ s.nodes, byId.get? b.id = some (normalized (flattenStructure s) b))
include hids hget

/-- One round at a boundary that has not been seen. -/
lemma rounds_succ (h : (b, enclosing) ∈ s.chains []) (n : ℕ)
    (hseen : b.id ∉ seen) :
    rounds boundaryId byId s.data.id (n + 1) b.id seen =
      (b.zone.map (found boundaryId b.id)).getD
        (rounds boundaryId byId s.data.id n
          ((enclosing.head?.map BoundaryData.id).getD (nextId s.data.id s.data)) (b.id :: seen)) := by
  obtain ⟨hzone, hnext, -⟩ := normalized_of_mem_chains hids h
  rw [rounds, if_neg (not_or.2 ⟨b.id_ne_empty, hseen⟩), hget _ (mem_nodes_of_mem_chains h)]
  simp only [hzone, hnext]
  cases b.zone <;> rfl

/-- The rounds of a walk along the boundaries around `b`, and then on from the default boundary. -/
lemma rounds_chain (h : (b, enclosing) ∈ s.chains []) (n : ℕ)
    (hseen : ∀ a ∈ b :: enclosing, a.id ∉ seen) :
    rounds boundaryId byId s.data.id n b.id seen =
      (nearest boundaryId ((b :: enclosing).take n)).getD
        (rounds boundaryId byId s.data.id
          (n - (enclosing.length + 1)) (nextId s.data.id s.data)
          (((b :: enclosing).map BoundaryData.id).reverse ++ seen)) := by
  induction enclosing generalizing b n seen with
  | nil =>
    cases n with
    | zero => rfl
    | succ n =>
      rw [rounds_succ hids hget h n (hseen b (.head _))]
      cases hb : b.zone <;> simp [nearest, hb]
  | cons a rest ih =>
    have hnodup := nodup_chain hids h
    rw [map_cons, nodup_cons] at hnodup
    cases n with
    | zero =>
      rw [Nat.zero_sub]
      rfl
    | succ n =>
      have hrest := ih (mem_chains_tail h) n (notMem_seen_cons hnodup.1 hseen)
      have hlength : n + 1 - ((a :: rest).length + 1) = n - (rest.length + 1) := by
        rw [length_cons]
        omega
      rw [rounds_succ hids hget h n (hseen b (.head _)), head?_cons, Option.map_some,
        Option.getD_some, hrest, hlength]
      cases hb : b.zone <;> simp [nearest, hb]

/-- The rounds of a walk that has been at the default boundary: it ends where it meets what it has
seen. -/
lemma rounds_seen (h : (b, enclosing) ∈ s.chains []) (n : ℕ)
    (hroot : s.data.id ∈ seen) :
    rounds boundaryId byId s.data.id n b.id seen =
      (nearest boundaryId (((b :: enclosing).takeWhile (·.id ∉ seen)).take n)).getD defaultZone := by
  induction enclosing generalizing b n seen with
  | nil =>
    obtain ⟨-, -, hb⟩ := normalized_of_mem_chains hids h
    obtain rfl := hb rfl
    cases n with
    | zero => rfl
    | succ n =>
      rw [rounds, if_pos (.inr hroot)]
      simp [hroot, nearest]
  | cons a rest ih =>
    have hnodup := nodup_chain hids h
    rw [map_cons, nodup_cons] at hnodup
    cases n with
    | zero => rfl
    | succ n =>
      by_cases hmem : b.id ∈ seen
      · rw [rounds, if_pos (.inr hmem)]
        simp [hmem, nearest]
      · -- the boundaries around `b` are other ones than `b`
        have hrest := ih (mem_chains_tail h) n (mem_cons_of_mem b.id hroot)
        rw [takeWhile_notMem_cons hnodup.1] at hrest
        rw [rounds_succ hids hget h n hmem, takeWhile_cons_of_pos (by simpa using hmem), take_succ_cons,
          head?_cons, Option.map_some, Option.getD_some, hrest]
        cases hb : b.zone <;> simp only [nearest, findSome?_cons, hb] <;> rfl

end

lemma root_mem_chain (hids : (ids s).Nodup) (h : (b, enclosing) ∈ s.chains []) : s.data ∈ b :: enclosing := by
  induction enclosing generalizing b with
  | nil =>
    rw [(normalized_of_mem_chains hids h).2.2 rfl]
    exact .head _
  | cons a rest ih => exact .tail _ (ih (mem_chains_tail h))

lemma rounds_of_seen {boundaryId cur defaultBoundaryId : String} {byId : Record String BoundaryData}
    (h : cur ∈ seen) (n : ℕ) :
    rounds boundaryId byId defaultBoundaryId n cur seen = defaultZone := by
  cases n with
  | zero => rfl
  | succ n => rw [rounds, if_pos (.inr h)]

/-- The boundaries that a walk from the chain `chain` sees after the default boundary: those around the
boundary that the default boundary refers to as its parent, up to the first one of the chain. -/
def detour (s : ModelStructure) (chain : List BoundaryData) : List BoundaryData :=
  match (s.chains []).find? (fun p => some p.1.id = s.data.parentBoundary) with
  | some (b, enclosing) => (b :: enclosing).takeWhile (·.id ∉ chain.map BoundaryData.id)
  | none => []

variable (flows dataItems) in
/-- The effective zone of a boundary: that of the nearest of the boundaries that the walk sees. -/
lemma resolveEffectiveZone_eq_nearest (hids : (ids s).Nodup) (h : (b, enclosing) ∈ s.chains []) :
    resolveEffectiveZone b.id (buildZoningContext s flows dataItems).boundariesById s.data.id =
      (nearest b.id ((b :: enclosing).take maxDepth)).getD
        ((nearest b.id ((detour s (b :: enclosing)).take (maxDepth - (enclosing.length + 1)))).getD defaultZone) := by
  have hget : ∀ b ∈ s.nodes, (buildZoningContext s flows dataItems).boundariesById.get? b.id = _ := fun _ =>
    get?_boundariesById hids
  rw [resolveEffectiveZone_eq_rounds, rounds_chain hids hget h maxDepth
    (fun _ _ => not_mem_nil), append_nil]
  congr 1
  have hroot : s.data.id ∈ ((b :: enclosing).map BoundaryData.id).reverse :=
    mem_reverse.2 (mem_map_of_mem (root_mem_chain hids h))
  unfold detour
  cases hfind : (s.chains []).find? (fun p => some p.1.id = s.data.parentBoundary) with
  | some p =>
    obtain ⟨y, around⟩ := p
    have hparent : s.data.parentBoundary = some y.id := by
      have hp := find?_some hfind
      exact (of_decide_eq_true hp).symm
    have hnext : nextId s.data.id s.data = y.id := by
      simp [nextId, hparent, y.id_ne_empty]
    rw [hnext, rounds_seen hids hget (mem_of_find?_eq_some hfind) _ hroot]
    simp only [mem_reverse]
  | none =>
    -- the reference leads back to the default boundary or to no boundary at all
    have hnone : ∀ p ∈ s.chains [], some p.1.id ≠ s.data.parentBoundary := by
      intro p hp heq
      exact find?_eq_none.1 hfind p hp (decide_eq_true heq)
    rw [take_nil, show nearest b.id [] = none from rfl, Option.getD_none]
    cases hparent : s.data.parentBoundary with
    | none =>
      rw [show nextId s.data.id s.data = s.data.id by simp [nextId, hparent]]
      exact rounds_of_seen hroot _
    | some q =>
      by_cases hq : q = ""
      · rw [show nextId s.data.id s.data = s.data.id by simp [nextId, hparent, hq]]
        exact rounds_of_seen hroot _
      · rw [show nextId s.data.id s.data = q by simp [nextId, hparent, hq]]
        have hmissing : q ∉ s.nodes.map BoundaryData.id := by
          rw [← Nesting.map_fst_chains [], map_map]
          intro hmem
          obtain ⟨p, hp, heq⟩ := mem_map.1 hmem
          refine hnone p hp ?_
          rw [hparent]
          exact congrArg some heq
        cases maxDepth - (enclosing.length + 1) with
        | zero => rfl
        | succ n =>
          rw [rounds, get?_boundariesById_of_notMem hmissing]
          simp

/-- The zone that a boundary is meant to have: its own, or that of the nearest boundary around it that
declares one, or the default. -/
def inheritedZone (b : BoundaryData) (enclosing : List BoundaryData) : EffectiveZone :=
  (nearest b.id (b :: enclosing)).getD defaultZone

/-- No boundary of the list declares a zone. -/
def Undeclared (l : List BoundaryData) : Prop :=
  ∀ a ∈ l, a.zone = none

lemma nearest_eq_none_iff : nearest boundaryId l = none ↔ Undeclared l := by
  simp [nearest, Undeclared, findSome?_eq_none_iff]

lemma nearest_ne_defaultZone {e : EffectiveZone} (h : nearest boundaryId l = some e) : e ≠ defaultZone := by
  obtain ⟨a, -, ha⟩ := exists_of_findSome?_eq_some h
  obtain ⟨zone, -, rfl⟩ := Option.map_eq_some_iff.1 ha
  unfold found
  split_ifs
  all_goals exact fun heq => by cases congrArg EffectiveZone.source heq

lemma nearest_of_take {n : ℕ} {e : EffectiveZone}
    (h : nearest boundaryId (l.take n) = some e) : nearest boundaryId l = some e := by
  unfold nearest at h ⊢
  rw [← take_append_drop n l, findSome?_append, h]
  rfl

/-- The walk stops on every map of boundaries. On the map of a structure, a boundary with at most 50
boundaries around it has the zone that it is meant to have if and only if one of the first 50 of these
boundaries declares one, or none of them does and none on the detour either. -/
theorem resolveEffectiveZone_inherits_iff (s : ModelStructure) (flows : List DataFlow)
    (dataItems : List DataItem) (hids : (ids s).Nodup) (b : BoundaryData)
    (enclosing : List BoundaryData) (h : (b, enclosing) ∈ s.chains [])
    (hlength : enclosing.length ≤ 50) :
    (∀ (boundaryId : String) (byId : Record String BoundaryData) (defaultBoundaryId : String)
      (fuel : ℕ), maxDepth < fuel →
      walkLoop boundaryId byId defaultBoundaryId fuel ⟨0, boundaryId, []⟩ =
        some (resolveEffectiveZone boundaryId byId defaultBoundaryId)) ∧
    (resolveEffectiveZone b.id (buildZoningContext s flows dataItems).boundariesById
        (buildZoningContext s flows dataItems).defaultBoundaryId = inheritedZone b enclosing ↔
      ¬ Undeclared ((b :: enclosing).take 50) ∨
        (Undeclared (b :: enclosing) ∧
          Undeclared ((detour s (b :: enclosing)).take (49 - enclosing.length)))) := by
  refine ⟨fun boundaryId byId defaultBoundaryId fuel hfuel =>
    walkLoop_stops boundaryId byId defaultBoundaryId hfuel, ?_⟩
  show resolveEffectiveZone b.id _ s.data.id = _ ↔ _
  rw [resolveEffectiveZone_eq_nearest flows dataItems hids h,
    show maxDepth - (enclosing.length + 1) = 49 - enclosing.length by unfold maxDepth; omega,
    show maxDepth = 50 from rfl, inheritedZone]
  cases hfirst : nearest b.id ((b :: enclosing).take 50) with
  | some e =>
    rw [nearest_of_take hfirst]
    refine iff_of_true rfl (.inl fun hundeclared => ?_)
    rw [nearest_eq_none_iff.2 hundeclared] at hfirst
    cases hfirst
  | none =>
    have hundeclared := nearest_eq_none_iff.1 hfirst
    rw [or_iff_right (not_not.2 hundeclared), Option.getD_none, ← nearest_eq_none_iff,
      ← nearest_eq_none_iff]
    cases hall : nearest b.id (b :: enclosing) with
    | none =>
      cases hdetour : nearest b.id ((detour s (b :: enclosing)).take (49 - enclosing.length)) with
      | none => simp
      | some e => simpa using nearest_ne_defaultZone hdetour
    | some e =>
      -- only the last of 51 boundaries declares a zone, and the walk ends before it
      have hfifty : enclosing.length = 50 := by
        by_contra hne
        have htake : (b :: enclosing).take 50 = b :: enclosing :=
          take_of_length_le (by rw [length_cons]; omega)
        rw [htake, hall] at hfirst
        cases hfirst
      rw [hfifty, Nat.sub_eq_zero_of_le (by omega), take_zero]
      simpa [nearest] using (nearest_ne_defaultZone hall).symm

end

/-- The boundary of a level of the tower, without a zone. -/
def towerLevel (n : ℕ) : BoundaryData where
  id := toString n ++ "th level"
  id_ne_empty h := by
    have hlength : (toString n).length + 8 = 0 := by
      rw [show 8 = "th level".length by decide, ← String.length_append, h]
      rfl
    omega
  zone := none
  parentBoundary := none
  dataItemIds := none

/-- Levels one in the other, from the `n`th down to the 0th. -/
def tower : ℕ → ModelStructure
  | 0 => .node (towerLevel 0) none none
  | n + 1 => .node (towerLevel (n + 1)) (some [tower n]) none

/-- A default boundary with a zone. -/
def perimeter : BoundaryData :=
  ⟨"perimeter", by decide, some .publicZone, none, none⟩

/-- The default boundary around a tower. -/
def publicTower (n : ℕ) : ModelStructure :=
  .node perimeter (some [tower n]) none

/-- The only zone is that of the 50th boundary around the innermost one. It is an ancestor to
`isAncestorOf`, but `resolveEffectiveZone` does not come to it. -/
theorem resolveEffectiveZone_stops_early :
    ∃ s b enclosing, (ids s).Nodup ∧ (b, enclosing) ∈ s.chains [] ∧ enclosing.length = 50 ∧
      isAncestorOf (buildZoningContext s [] []).boundariesById s.data.id s.data.id b.id = true ∧
      inheritedZone b enclosing = ⟨.publicZone, .inherited, some s.data.id⟩ ∧
      resolveEffectiveZone b.id (buildZoningContext s [] []).boundariesById
        (buildZoningContext s [] []).defaultBoundaryId = defaultZone :=
  ⟨publicTower 49, towerLevel 0, (List.range 49).map (fun n => towerLevel (n + 1)) ++ [perimeter],
    by decide +kernel⟩

theorem resolveEffectiveZone_inherits_sample :
    resolveEffectiveZone (towerLevel 0).id (buildZoningContext (publicTower 1) [] []).boundariesById
        (buildZoningContext (publicTower 1) [] []).defaultBoundaryId =
      inheritedZone (towerLevel 0) [towerLevel 1, perimeter] :=
  (resolveEffectiveZone_inherits_iff (publicTower 1) [] [] (by decide +kernel) (towerLevel 0)
    [towerLevel 1, perimeter] (by decide +kernel)
    (by decide)).2.2 (.inl fun hundeclared => by
      have hzone := hundeclared perimeter (by decide +kernel)
      cases hzone)

end Zoning
