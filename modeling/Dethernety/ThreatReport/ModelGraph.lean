import Dethernety.Zoning.Inheritance

/-!
# The model graph of a threat report

The snapshot that the engines of the report page read: `ModelGraph` and `LedgerElement` of
`DethernetyThreatReportModule.ts`, with the fields that the engines use, and the zoning block.

Ids are UUIDs of the platform. What the engines rely on (an id is not empty, is not the sentinel of
the ancestor stacks and does not have the separator of conduit keys) is part of the types.
-/

open List

namespace ThreatReport

open Zoning (Zone)

/-- `ROOT`, the last entry of every ancestor stack -/
def rootSentinel : String := "__ROOT__"

inductive Plane
  | workload
  | management
  deriving DecidableEq

inductive ConduitDirection
  | outbound
  | inbound
  deriving DecidableEq

/-- A conduit as a boundary declares it. -/
structure Conduit where
  peerId : String
  direction : ConduitDirection
  justification : Option String

structure ModelGraphBoundary where
  id : String
  id_ne_empty : id ≠ ""
  id_ne_root : id ≠ rootSentinel
  notMem_id : '>' ∉ id.toList
  name : String
  parentBoundaryId : Option String
  planes : List Plane
  domains : List String
  conduits : List Conduit

structure ModelGraphComponent where
  id : String
  id_ne_empty : id ≠ ""
  name : String
  type : Option String
  boundaryId : Option String
  crownJewel : Bool

/-- `SensitivityLevel` -/
inductive Sensitivity
  | publicLevel
  | internal
  | confidential
  | restricted

structure ModelGraphFlow where
  id : String
  name : String
  sourceId : Option String
  targetId : Option String
  sensitivities : List Sensitivity
  dataItemCount : ℕ

structure ModelGraphDataNode where
  id : String
  name : String
  sensitivity : Option Sensitivity
  handledBy : List String

structure ModelGraph where
  boundaries : List ModelGraphBoundary
  components : List ModelGraphComponent
  flows : List ModelGraphFlow
  dataNodes : List ModelGraphDataNode

abbrev EffectiveZones := Record String Zone

section

variable (mg : ModelGraph)

def boundaryById : Record String ModelGraphBoundary :=
  .ofList (mg.boundaries.map fun b => (b.id, b))

def componentById : Record String ModelGraphComponent :=
  .ofList (mg.components.map fun c => (c.id, c))

variable {mg}

lemma mem_of_boundaryById {id : String} {b : ModelGraphBoundary}
    (h : (boundaryById mg).get? id = some b) : b.id = id ∧ b ∈ mg.boundaries := by
  obtain ⟨b', hb', heq⟩ := mem_map.1 (Record.mem_of_get?_ofList h)
  cases heq
  exact ⟨rfl, hb'⟩

end

variable {α β : Type} {cmp : α → α → Ordering}

/-- `Array.prototype.sort` with a comparator; the sort is stable. -/
def sortBy (cmp : α → α → Ordering) (l : List α) : List α :=
  l.mergeSort fun a b => (cmp a b).isLE

lemma sortBy_perm (cmp : α → α → Ordering) (l : List α) : (sortBy cmp l).Perm l :=
  mergeSort_perm l _

lemma sortBy_eq_nil_iff {l : List α} : sortBy cmp l = [] ↔ l = [] := by
  rw [← length_eq_zero_iff, (sortBy_perm cmp l).length_eq, length_eq_zero_iff]

lemma pairwise_sortBy [Std.TransCmp cmp] (l : List α) : (sortBy cmp l).Pairwise fun a b => (cmp a b).isLE = true := by
  refine pairwise_mergeSort ?_ ?_ l
  · exact fun a b c hab hbc => Std.TransCmp.isLE_trans hab hbc
  · intro a b
    have hswap : cmp b a = (cmp a b).swap := Std.OrientedCmp.eq_swap
    rw [hswap]
    cases cmp a b <;> rfl

/-- A comparator of what `f` reads. -/
theorem transCmp_comap [Std.TransCmp cmp] (f : β → α) : Std.TransCmp fun a b => cmp (f a) (f b) where
  eq_swap := Std.OrientedCmp.eq_swap
  isLE_trans := Std.TransCmp.isLE_trans

end ThreatReport
