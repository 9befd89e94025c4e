import Mathlib.Algebra.Ring.Int.Defs
import Mathlib.Data.Fin.VecNotation
import Mathlib.Data.Fintype.Basic
import Mathlib.Data.List.Nodup
import Mathlib.Tactic.FinCases

/-!
# Deleting a boundary

`deleteBoundaryNode` of the flow store moves what the boundary holds to the parent of the boundary, one save at a time,
and then deletes the boundary. A save that fails does not stop it, and what the canvas does not show is not moved.
-/

open List Function

namespace BoundaryDeletion

variable {ι P : Type*}

/-- A component or a boundary; `P` is the type of the positions. -/
structure Element (ι P : Type*) where
  isBoundary : Bool
  /-- A boundary that is not there is no parent. -/
  parentBoundary : Option ι
  position : P

/-- A model that the canvas loaded. It may not show all elements, as other clients add some; what it shows is at the
position that the server has. -/
structure Model (ι P : Type*) where
  server : ι → Option (Element ι P)
  onCanvas : ι → Bool
  defaultBoundaryId : ι
  /-- What the query for the direct descendants finds. -/
  getDescendants : ι → List ι
  depth : ι → ℕ
  mem_getDescendants : ∀ {i b}, i ∈ getDescendants b ↔ ∃ e, server i = some e ∧ e.parentBoundary = some b
  nodup : ∀ b, (getDescendants b).Nodup
  root : ∃ e, server defaultBoundaryId = some e ∧ e.isBoundary
  root_lt : ∀ {i}, i ≠ defaultBoundaryId → depth defaultBoundaryId < depth i
  parent : ∀ {i e p}, server i = some e → e.parentBoundary = some p → depth p < depth i ∧
    ∃ f, server p = some f ∧ f.isBoundary

variable [AddCommMagma P] [Zero P] (m : Model ι P) (saves : ι → Bool) (boundaryId : ι)

def grandparentId : ι :=
  ((m.server boundaryId).bind (·.parentBoundary)).getD m.defaultBoundaryId

def moveUp (e : Element ι P) : Element ι P :=
  { e with
    parentBoundary := some (grandparentId m boundaryId)
    position := (m.server boundaryId).elim 0 (·.position) + e.position }

variable [DecidableEq ι]

/-- One round of the loop. A save that fails leaves the server, and the canvas, as they are. -/
def updateNode (server : ι → Option (Element ι P)) (nodeId : ι) : ι → Option (Element ι P) :=
  if m.onCanvas nodeId && saves nodeId then update server nodeId ((server nodeId).map (moveUp m boundaryId)) else server

/-- The server after the loop. -/
def moved : ι → Option (Element ι P) :=
  (m.getDescendants boundaryId).foldl (updateNode m saves boundaryId) m.server

/-- The server after `deleteBoundaryNode`; `deleted` is whether the mutation succeeds, which takes the boundary away
and nothing else. -/
def deleteBoundaryNode (deleted : Bool) : ι → Option (Element ι P) :=
  if deleted then update (moved m saves boundaryId) boundaryId none else moved m saves boundaryId

/-- The saves of all that the boundary holds succeed. -/
def AllSaved : Prop :=
  ∀ i ∈ m.getDescendants boundaryId, m.onCanvas i && saves i

/-- The element belongs to a boundary that exists. -/
def Held (server : ι → Option (Element ι P)) (i : ι) : Prop :=
  ∃ e p f, server i = some e ∧ e.parentBoundary = some p ∧ server p = some f ∧ f.isBoundary

/-- What is at a position in a boundary is at the given place in the root. The positions are added on the way up, and
`+` need not be associative, as it is not for the numbers of the canvas. -/
inductive Placed (server : ι → Option (Element ι P)) : P → ι → P → Prop
  | root {position} : Placed server position m.defaultBoundaryId position
  | inside {position i e p place} : server i = some e → e.parentBoundary = some p →
      Placed server (position + e.position) p place → Placed server position i place

/-- The position of an element on the canvas. -/
def Absolute (server : ι → Option (Element ι P)) (i : ι) (place : P) : Prop :=
  ∃ e p, server i = some e ∧ e.parentBoundary = some p ∧ Placed m server e.position p place

/-- Nothing that the boundary holds is lost, and if all saves succeed, it is where it was in the parent of the
boundary. -/
def Kept (deleted : Bool) : Prop :=
  let after := deleteBoundaryNode m saves boundaryId deleted
  ∀ i ∈ m.getDescendants boundaryId, Held after i ∧ (AllSaved m saves boundaryId →
    (∃ e, after i = some e ∧ e.parentBoundary = some (grandparentId m boundaryId)) ∧
      ∀ {place}, Absolute m m.server i place → Absolute m after i place)

variable {m saves boundaryId} {i : ι} {e : Element ι P}

lemma foldl_updateNode {l : List ι} (hl : l.Nodup) (server : ι → Option (Element ι P)) :
    l.foldl (updateNode m saves boundaryId) server i =
      if i ∈ l ∧ (m.onCanvas i && saves i) then (server i).map (moveUp m boundaryId) else server i := by
  induction l generalizing server with
  | nil => simp
  | cons j l ih =>
    rw [nodup_cons] at hl
    rw [foldl_cons, ih hl.2, updateNode]
    by_cases hij : i = j
    · subst hij
      cases hsaved : m.onCanvas i && saves i <;> simp [hl.1]
    · cases hsaved : m.onCanvas j && saves j <;> simp [hij]

omit [AddCommMagma P] [Zero P] [DecidableEq ι] in
lemma depth_lt (hi : i ∈ m.getDescendants boundaryId) : m.depth boundaryId < m.depth i := by
  obtain ⟨e, he, hp⟩ := m.mem_getDescendants.1 hi
  exact (m.parent he hp).1

lemma deleteBoundaryNode_of_ne (h : m.depth i ≠ m.depth boundaryId) (deleted : Bool) :
    deleteBoundaryNode m saves boundaryId deleted i = moved m saves boundaryId i := by
  cases deleted with
  | false => rfl
  | true => exact update_of_ne (ne_of_apply_ne m.depth h) _ _

lemma deleteBoundaryNode_of_saved (hi : i ∈ m.getDescendants boundaryId) (hsaved : m.onCanvas i && saves i)
    (deleted : Bool) :
    deleteBoundaryNode m saves boundaryId deleted i = (m.server i).map (moveUp m boundaryId) :=
  (deleteBoundaryNode_of_ne (Nat.ne_of_gt (depth_lt hi)) deleted).trans
    ((foldl_updateNode (m.nodup _) m.server).trans (if_pos ⟨hi, hsaved⟩))

lemma moved_of_not (h : ¬ (i ∈ m.getDescendants boundaryId ∧ (m.onCanvas i && saves i))) :
    moved m saves boundaryId i = m.server i :=
  (foldl_updateNode (m.nodup _) m.server).trans (if_neg h)

lemma deleteBoundaryNode_of_lt (h : m.depth i < m.depth boundaryId) (deleted : Bool) :
    deleteBoundaryNode m saves boundaryId deleted i = m.server i :=
  (deleteBoundaryNode_of_ne (Nat.ne_of_lt h) deleted).trans (moved_of_not fun hi => Nat.lt_asymm h (depth_lt hi.1))

lemma Placed.after {position place : P} (h : Placed m m.server position i place) (saves : ι → Bool) (deleted : Bool)
    (hi : m.depth i < m.depth boundaryId) :
    Placed m (deleteBoundaryNode m saves boundaryId deleted) position i place := by
  induction h with
  | root => exact .root
  | inside he hp _ ih =>
    exact .inside ((deleteBoundaryNode_of_lt hi deleted).trans he) hp (ih (Nat.lt_trans (m.parent he hp).1 hi))

lemma exists_grandparent (hb : boundaryId ≠ m.defaultBoundaryId) (saves : ι → Bool) (deleted : Bool) : ∃ f,
    deleteBoundaryNode m saves boundaryId deleted (grandparentId m boundaryId) = some f ∧ f.isBoundary := by
  cases hp : (m.server boundaryId).bind (·.parentBoundary) with
  | none =>
    rw [grandparentId, hp, Option.getD_none, deleteBoundaryNode_of_lt (m.root_lt hb)]
    exact m.root
  | some p =>
    obtain ⟨e, he, hparent⟩ := Option.bind_eq_some_iff.1 hp
    obtain ⟨hlt, hboundary⟩ := m.parent he hparent
    rw [grandparentId, hp, Option.getD_some, deleteBoundaryNode_of_lt hlt]
    exact hboundary

/-- Nothing is lost exactly if the deletion fails or all that the boundary holds is on the canvas and saved. -/
theorem kept_iff (m : Model ι P) (saves : ι → Bool) {boundaryId : ι} (hb : boundaryId ≠ m.defaultBoundaryId)
    (deleted : Bool) : Kept m saves boundaryId deleted ↔ (deleted → AllSaved m saves boundaryId) := by
  refine ⟨fun h hdeleted i hi => ?_, fun h i hi => ⟨?_, fun hall => ?_⟩⟩
  · obtain ⟨e, he, hp⟩ := m.mem_getDescendants.1 hi
    obtain ⟨e', p, f, he', hp', hf, -⟩ := (h i hi).1
    by_contra hsaved
    rw [deleteBoundaryNode_of_ne (Nat.ne_of_gt (depth_lt hi)), moved_of_not fun h => hsaved h.2, he] at he'
    cases he'
    cases hp.symm.trans hp'
    simp [deleteBoundaryNode, hdeleted] at hf
  · obtain ⟨e, he, hp⟩ := m.mem_getDescendants.1 hi
    by_cases hsaved : m.onCanvas i && saves i
    · obtain ⟨f, hf, hboundary⟩ := exists_grandparent hb saves deleted
      have hafter := deleteBoundaryNode_of_saved hi hsaved deleted
      rw [he] at hafter
      exact ⟨_, _, f, hafter, rfl, hf, hboundary⟩
    · cases deleted with
      | false =>
        obtain ⟨-, f, hf, hboundary⟩ := m.parent he hp
        exact ⟨e, _, f, (moved_of_not fun h => hsaved h.2).trans he, hp,
          (moved_of_not fun h => Nat.lt_irrefl _ (depth_lt h.1)).trans hf, hboundary⟩
      | true => exact absurd (h rfl i hi) hsaved
  · obtain ⟨e, he, hp⟩ := m.mem_getDescendants.1 hi
    have hafter := deleteBoundaryNode_of_saved hi (hall i hi) deleted
    rw [he] at hafter
    refine ⟨⟨_, hafter, rfl⟩, fun {place} hplace => ?_⟩
    obtain ⟨_, _, he', hp', hplace⟩ := hplace
    cases he.symm.trans he'
    cases hp.symm.trans hp'
    cases hplace with
    | root => exact absurd rfl hb
    | @inside _ _ f p _ hboundary hgrand habove =>
      have hgrandparent : grandparentId m boundaryId = p := by simp [grandparentId, hboundary, hgrand]
      refine ⟨_, p, hafter, congrArg some hgrandparent, ?_⟩
      -- the canvas adds the two positions the other way round
      rw [moveUp, hboundary, Option.elim_some, add_comm]
      exact habove.after saves deleted (m.parent hboundary hgrand).1

/-- A boundary in the root, with a component and with a boundary that has a component. -/
def nested : Model (Fin 5) ℤ where
  server := ![some ⟨true, none, 0⟩, some ⟨true, some 0, 5⟩, some ⟨false, some 1, 7⟩, some ⟨true, some 1, 3⟩,
    some ⟨false, some 3, 4⟩]
  onCanvas _ := true
  defaultBoundaryId := 0
  getDescendants := ![[1], [2, 3], [], [4], []]
  depth i := i
  mem_getDescendants {i b} := by fin_cases i <;> fin_cases b <;> simp
  nodup b := by fin_cases b <;> simp
  root := ⟨_, rfl, rfl⟩
  root_lt {i} := by fin_cases i <;> simp
  parent {i e p} := by fin_cases i <;> simp <;> rintro rfl <;> simp <;> rintro rfl <;> simp

theorem kept_nested : Kept nested (fun _ => true) 1 true :=
  (kept_iff nested (fun _ => true) (by decide) true).2 fun _ _ _ => rfl

/-- The save of the component fails. -/
theorem not_kept_nested : ¬ Kept nested (fun _ => false) 1 true := by
  intro h
  obtain ⟨e, p, f, he, hp, hf, -⟩ := (h 2 (.head _)).1
  cases he
  cases hp
  cases hf

end BoundaryDeletion
