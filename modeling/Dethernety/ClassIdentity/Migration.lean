import Mathlib.Data.List.Dedup
import Mathlib.Data.List.Sort
import Dethernety.Foundations.PropertyGraph

/-!
# The class-identity migration

Model of an apply run of `ClassIdentityMigrationService`. A node has one label, as the platform creates
them; `kind` tells the labels that the migration looks at. A failed transaction of a group is rolled back,
and the run goes on. The properties of edges are kept as records, and `+=` overwrites.
-/

namespace ClassIdentity

inductive ClassLabel
  | analysisClass
  | componentClass
  | controlClass
  | dataFlowClass
  | dataClass
  | securityBoundaryClass
  | issueClass
  deriving DecidableEq

inductive Kind
  | classNode (label : ClassLabel)
  | module
  | analysis
  | other
  deriving DecidableEq

structure Node where
  kind : Kind
  name : Option String

/-- Edges have the type as a string: any type may occur. -/
abbrev Graph (V : Type) := PropertyGraph Node String (Record String V)

def PLATFORM_CLASS_LABELS : List ClassLabel :=
  [.analysisClass, .componentClass, .controlClass, .dataFlowClass, .dataClass, .securityBoundaryClass,
    .issueClass]

def REDIRECT_EDGE_TYPES : List String :=
  ["IS_INSTANCE_OF", "IS_EXPOSURE_OF", "IS_COUNTERMEASURE_OF"]

def MODULE_EDGE_TYPES : List String :=
  ["HAS_CLASS", "HAS_ORPHANED_CLASS"]

def UNBOUND_BUCKET : String :=
  "<unbound>"

structure ClassNodeRow where
  name : Option String
  internalId : ℕ
  owners : List String
  activelyBound : Bool
  deriving DecidableEq

structure DuplicateGroup where
  name : Option String
  owner : Option String
  canonicalInternalId : ℕ
  nonCanonicalInternalIds : List ℕ
  deriving DecidableEq

variable {V : Type}

namespace Graph

variable (g : Graph V)

/-- The node is a class of the label. -/
def IsClass (label : ClassLabel) (id : ℕ) : Prop :=
  (g.nodes.get? id).map Node.kind = some (.classNode label)

instance (label : ClassLabel) (id : ℕ) : Decidable (IsClass g label id) :=
  inferInstanceAs (Decidable (_ = _))

/-- The bindings of a class node by modules: the name of the module and the type of the edge. -/
def bindings (id : ℕ) : List (Option String × String) :=
  g.edgeList.filterMap fun e =>
    match g.nodes.get? e.2.source with
    | some ⟨.module, name⟩ =>
      if e.2.target = id ∧ e.2.type ∈ MODULE_EDGE_TYPES then some (name, e.2.type) else none
    | _ => none

/-- The distinct names of the owning modules. -/
def owners (id : ℕ) : List String :=
  ((bindings g id).filterMap Prod.fst).dedup

/-- A module has the class by an edge that is not orphaned. -/
def activelyBound (id : ℕ) : Bool :=
  (bindings g id).any (·.2 = "HAS_CLASS")

def classNodeRow (id : ℕ) (name : Option String) : ClassNodeRow where
  name := name
  internalId := id
  owners := owners g id
  activelyBound := activelyBound g id

def rows (label : ClassLabel) : List ClassNodeRow :=
  g.nodes.entries.filterMap fun e =>
    if e.2.kind = .classNode label then some (classNodeRow g e.1 e.2.name) else none

end Graph

/-- The key of a bucket; `null` is written out in it. -/
def bucketKey (owners : List String) (name : Option String) : String :=
  owners.head?.getD UNBOUND_BUCKET ++ "\x00" ++ name.getD "null"

def ClassNodeRow.key (row : ClassNodeRow) : String :=
  bucketKey row.owners row.name

/-- The buckets in the order of their first rows; a row with several owners is left out. -/
def buckets (rows : List ClassNodeRow) : Record String (List ClassNodeRow) :=
  (rows.filter fun row => row.owners.length ≤ 1).foldl
    (fun buckets row => buckets.set row.key ((buckets.get? row.key).getD [] ++ [row])) ∅

/-- The group of a bucket: the survivor is the first actively bound row, or else the first. -/
def duplicateGroup (rows : List ClassNodeRow) : Option DuplicateGroup :=
  if rows.length < 2 then none
  else
    let sorted := rows.insertionSort (·.internalId ≤ ·.internalId)
    ((sorted.find? (·.activelyBound)).or sorted.head?).map fun canonical =>
      { name := canonical.name
        owner := canonical.owners.head?
        canonicalInternalId := canonical.internalId
        nonCanonicalInternalIds := (sorted.filter (· ≠ canonical)).map (·.internalId) }

def findDuplicateGroups (g : Graph V) (label : ClassLabel) : List DuplicateGroup :=
  (buckets (Graph.rows g label)).entries.filterMap fun e => duplicateGroup e.2

/-- `SET r2 += properties(r)` -/
def setAll (properties : Record String V) (r : Record String V) : Record String V :=
  properties.entries.foldl (fun r e => r.set e.1 e.2) r

def redirectEdge (relType : String) (canonicalId : ℕ) (g : Graph V)
    (r : ℕ × PropertyGraph.Edge String (Record String V)) : Graph V :=
  (g.mergeEdge r.2.source relType canonicalId ∅ (setAll r.2.data)).deleteEdges (·.1 = r.1)

/-- The redirect of the edges of one type. -/
def redirect (label : ClassLabel) (ncId canonicalId : ℕ) (g : Graph V) (relType : String) : Graph V :=
  if Graph.IsClass g label ncId ∧ Graph.IsClass g label canonicalId then
    (g.edgeList.filter fun r => r.2.type = relType ∧ r.2.target = ncId).foldl
      (redirectEdge relType canonicalId) g
  else g

/-- The edges of a node that block its deletion. -/
def leftover (g : Graph V) (label : ClassLabel) (ncId : ℕ) : List String :=
  if Graph.IsClass g label ncId then
    (g.edgeList.filter fun r => (r.2.source = ncId ∨ r.2.target = ncId) ∧ r.2.type ∉ MODULE_EDGE_TYPES).map
      (·.2.type)
  else []

/-- One node of a group: its edges go to the survivor, and it is deleted if none remain. -/
def mergeNode (label : ClassLabel) (canonicalId : ℕ) (g : Graph V) (ncId : ℕ) : Graph V :=
  let g := REDIRECT_EDGE_TYPES.foldl (redirect label ncId canonicalId) g
  if leftover g label ncId ≠ [] then g
  else g.detachDelete fun id => id = ncId ∧ Graph.IsClass g label id

def mergeGroup (label : ClassLabel) (g : Graph V) (group : DuplicateGroup) : Graph V :=
  group.nonCanonicalInternalIds.foldl (mergeNode label group.canonicalInternalId) g

/-- The graph, and the groups that have been merged. -/
structure Run (V : Type) where
  graph : Graph V
  merged : List DuplicateGroup

/-- `dedupLabel`; `fails` tells whether the transaction of a group fails. -/
def dedupLabel (fails : ClassLabel → DuplicateGroup → Bool) (run : Run V) (label : ClassLabel) : Run V :=
  (findDuplicateGroups run.graph label).foldl (fun run group =>
    if fails label group then run
    else ⟨mergeGroup label run.graph group, run.merged ++ [group]⟩) run

/-- The `IS_INSTANCE_OF` edges from an analysis to its class. -/
def instanceEdges (g : Graph V) : List (ℕ × PropertyGraph.Edge String (Record String V)) :=
  g.edgeList.filter fun r => r.2.type = "IS_INSTANCE_OF" ∧
    (g.nodes.get? r.2.source).map Node.kind = some .analysis ∧
    Graph.IsClass g .analysisClass r.2.target

/-- The ids of the edges between the same analysis and class, low to high, where there are several. -/
def duplicateInstanceEdges (g : Graph V) : List (List ℕ) :=
  let pairs := ((instanceEdges g).map fun r => (r.2.source, r.2.target)).dedup
  (pairs.map fun pair =>
      (((instanceEdges g).filter fun r => (r.2.source, r.2.target) = pair).map Prod.fst).insertionSort
        (· ≤ ·)).filter fun ids => 1 < ids.length

def dedupAnalysisInstanceEdges (g : Graph V) : Graph V :=
  (duplicateInstanceEdges g).foldl (fun g ids =>
    g.deleteEdges fun r => r.2.type = "IS_INSTANCE_OF" ∧ r.1 ∈ ids.tail) g

def applyRun (fails : ClassLabel → DuplicateGroup → Bool) (g : Graph V) : Run V :=
  let run := PLATFORM_CLASS_LABELS.foldl (dedupLabel fails) ⟨g, []⟩
  { run with graph := dedupAnalysisInstanceEdges run.graph }

end ClassIdentity
