import Dethernety.Instantiation.ReferencePlan

/-!
# The finding writer

`upsertExposuresInTx` and `upsertCountermeasuresInTx` as one definition with the kind of finding in the scope,
and the cleanup of `deleteObsoleteExternalObjects`. A statement takes the graph to the graph that it leaves.
Counts and log texts are left out; every statement succeeds, and `none` is a transaction that throws.
-/

namespace Findings

open ModelDirectory (Json)

variable (engine : Engine) (s : FindingScope)

/-! ## The upsert of one finding -/

def setAttributes (attributes : Record String (Option Value)) (p : Properties) : Properties :=
  attributes.entries.foldl (fun p a => p.put a.1 a.2) p

def StorableFinding.attributeName (f : StorableFinding) : Option Value :=
  (f.attributes.get? "name").join

/-- The element and the class are nodes, the class with a class label. -/
def BothExist (g : Graph) : Prop :=
  s.componentId ∈ g.nodes.keys ∧ ∃ n ∈ g.nodes.get? s.classId, IsClassLabel n.label

instance (g : Graph) : Decidable (BothExist s g) :=
  inferInstanceAs (Decidable (_ ∧ _))

/-- The pattern of the upsert. A name that is `null` matches nothing. -/
def Matches (g : Graph) (name : Option Value) (e : ℕ) : Prop :=
  name.isSome ∧ nameOf g e = name ∧ IsSystemFinding g s e

instance (g : Graph) (name : Option Value) (e : ℕ) : Decidable (Matches s g name e) :=
  inferInstanceAs (Decidable (_ ∧ _ ∧ _))

/-- `CREATE`: a finding with its name, unless that is `null`, and its two edges. -/
def createFinding (g : Graph) (name : Option Value) : Graph :=
  let node : Node :=
    { label := s.kind.label
      key := none
      properties := (Record.put ∅ "name" name).set "createdBy" (.primitive (.string "SYSTEM")) }
  ((g.addNode node).addEdge ⟨s.componentId, s.kind.relation, g.freshNode, ∅⟩).addEdge
    ⟨g.freshNode, s.kind.classRelation, s.classId, ∅⟩

/-- The `SET` clauses of the upsert. -/
def updateFinding (attributes : Record String (Option Value)) (unresolved : Option Value) (n : Node) : Node :=
  { n with
    properties := ((setAttributes attributes n.properties).set "createdBy" (.primitive (.string "SYSTEM"))).put
      "unresolvedReferences" unresolved }

/-- The findings that are there, or one more when none matches. -/
def ensureFinding (g : Graph) (name : Option Value) : Graph :=
  if ∃ e ∈ g.nodes.keys, Matches s g name e then g else createFinding s g name

def upsertFinding (g : Graph) (f : StorableFinding) (unresolved : Option Value) : Graph :=
  if BothExist s g then
    let g' := ensureFinding s g f.attributeName
    g'.updateNodes (fun e => Matches s g' f.attributeName e) (updateFinding f.attributes unresolved)
  else g

/-! ## The links of one finding -/

/-- `e.name = $originName` -/
def nameEq (v : Option Value) (name : Json) : Option Bool :=
  v.bind (·.eqJson engine name)

/-- The parameter for a name: `undefined` is sent as `null`. -/
def nameParam (finding : Finding) : Json :=
  finding.name.getD .null

/-- The justification that `sanitiseEdgeAttributes` lets through. -/
def edgeJustification (target : Target) : Option Value :=
  target.justification.bind fun j => if (describeNonPrimitiveValue j).isSome then none else toValue j

def targetNodes (g : Graph) (target : Target) : List ℕ :=
  (g.nodes.entries.filter fun e => e.2.label = target.pair.label ∧ e.2.key = some target.value).map Prod.fst

/-- The findings of a name in the scope. -/
def originNodes (g : Graph) (name : Json) : List ℕ :=
  g.nodes.keys.filter fun e => InScope g s e ∧ nameEq engine (nameOf g e) name = some true

/-- `linkToExternalObject`: a merge from every finding of the name to every node of the target. -/
def linkToExternalObject (originName : Json) (g : Graph) (link : PlannedLink) : Graph :=
  ((originNodes engine s g originName).product (targetNodes g link.target)).foldl
    (fun g p => g.mergeEdge p.1 link.relationName p.2 ∅ fun r =>
      r.put "justification" (edgeJustification link.target)) g

/-- The body of the loop over the findings. -/
def writeFinding (plan : ReferencePlan) (g : Graph) (f : StorableFinding) : Graph :=
  let unresolved := (plan.unresolved.get? f.key).map fun texts => .list (texts.map .string)
  (plan.linksOf f.key).foldl (linkToExternalObject engine s (nameParam f.finding))
    (upsertFinding s g f unresolved)

/-! ## Reconciling the links -/

def FINDING_KEY_SEPARATOR : String :=
  "\u001f"

/-- The part of a link's key for its target, `none` when the target has no key. -/
def targetKey (n : Node) : Option String :=
  (ALL_REFERENCE_PAIRS.find? (·.label = n.label)).bind fun pair =>
    n.key.map fun value => pair.label ++ "|" ++ pair.property ++ "|" ++ value

/-- `linkKeyCypher` of an edge. -/
def graphLinkKey (g : Graph) (r : PropertyGraph.Edge String Properties) : Option String :=
  ((g.nodes.get? r.target).bind targetKey).map fun key => r.type ++ "|" ++ key

/-- The edges of a finding that have a link key, of the writer's own types. -/
def findingLinks (g : Graph) (e : ℕ) : List (ℕ × String) :=
  g.edgeList.filterMap fun r =>
    if r.2.source = e ∧ r.2.type ∈ s.kind.linkTypes then (graphLinkKey g r.2).map (r.1, ·) else none

/-- The findings of the statements on links. -/
def namedFindings (g : Graph) (names : List Json) : List ℕ :=
  g.nodes.keys.filter fun e => InScope g s e ∧ inList engine (nameOf g e) names = some true

/-- A disposition that is not flagged yet. -/
def Node.IsFlaggable (n : Node) : Prop :=
  (n.properties.get? "dispositionKind").isSome ∧
    (n.properties.get? "dispositionStale").getD (.primitive (.boolean false)) = .primitive (.boolean false)

instance : DecidablePred Node.IsFlaggable := fun _ => inferInstanceAs (Decidable (_ ∧ _))

structure FindingLinksBefore where
  id : ℕ
  name : Value
  keys : List String
  flaggable : Bool

def readFindingLinks (g : Graph) (names : List Json) : List FindingLinksBefore :=
  (namedFindings engine s g names).filterMap fun e =>
    (g.nodes.get? e).bind fun n => n.name.map fun name =>
      { id := e
        name := name
        keys := ((findingLinks s g e).map Prod.snd).dedup
        flaggable := n.IsFlaggable }

/-- The keys planned for a name that was read from the graph; a list is no key of the plan. -/
def plannedOf (plan : ReferencePlan) : Value → List String
  | .primitive p => (plan.linksOf (.primitive p)).map PlannedLink.key
  | .list _ => []

/-- `String(name)` -/
def nameTemplate (name : Option Json) : String :=
  (name.map jsString).getD "undefined"

def keepList (plan : ReferencePlan) (names : List (NameKey × Option Json)) : List String :=
  names.flatMap fun name => (plan.linksOf name.1).map fun link =>
    nameTemplate name.2 ++ FINDING_KEY_SEPARATOR ++ link.key

/-- How many paths of the pattern there are to a finding: a row for each of them. -/
def pathCount (g : Graph) (e : ℕ) : ℕ :=
  (g.edgeList.filter fun r =>
      r.2.source = s.componentId ∧ r.2.type = s.kind.relation ∧ r.2.target = e).length *
    (g.edgeList.filter fun r => r.2.source = e ∧ r.2.type ∈ CLASS_RELATIONS ∧ r.2.target = s.classId).length

/-- `collect(r)` of a finding and a link key. -/
def collected (g : Graph) (e : ℕ) (key : String) : List ℕ :=
  (List.replicate (pathCount s g e)
    (((findingLinks s g e).filter (·.2 = key)).map Prod.fst)).flatten

/-- `e.name + $separator + linkKey IN $keep` -/
def isKept (keep : List String) (name : Option Value) (key : String) : Bool :=
  (name.bind engine.text).any fun text => text ++ FINDING_KEY_SEPARATOR ++ key ∈ keep

/-- The edges of a finding that are deleted: every copy of a link but one, and all of a link that is not kept. -/
def doomed (g : Graph) (keep : List String) (e : ℕ) : List ℕ :=
  ((findingLinks s g e).map Prod.snd).dedup.flatMap fun key =>
    if isKept engine keep (nameOf g e) key then (collected s g e key).tail else collected s g e key

/-- The keys of two sets of links differ. -/
def keysDiffer (now keys : List String) : Bool :=
  now.dedup.length ≠ keys.length || now.any (· ∉ keys)

/-- The statement that deletes links. -/
def pruneLinks (g : Graph) (names : List Json) (keep : List String) : Graph :=
  let rels := (namedFindings engine s g names).flatMap (doomed engine s g keep)
  g.deleteEdges fun r => r.1 ∈ rels

/-- The statement that flags dispositions. -/
def flagStale (g : Graph) (changed : List ℕ) : Graph :=
  g.updateNodes (fun e => e ∈ changed ∧ InScope g s e ∧ ∃ n ∈ g.nodes.get? e, n.IsFlaggable) fun n =>
    { n with properties := n.properties.set "dispositionStale" (.primitive (.boolean true)) }

def reconcileLinks (g : Graph) (names : List (NameKey × Option Json)) (plan : ReferencePlan)
    (before : List FindingLinksBefore) : Graph :=
  let pruned := pruneLinks engine s g (names.map fun name => name.2.getD .null) (keepList plan names)
  let changed := before.filter fun b => b.flaggable && keysDiffer (plannedOf plan b.name) b.keys
  flagStale s pruned (changed.map FindingLinksBefore.id)

/-! ## The writer -/

def distinctNames (findings : List StorableFinding) : List (NameKey × Option Json) :=
  (findings.foldl (fun (names : Record NameKey (Option Json)) f =>
    if f.key ∈ names.keys then names else names.set f.key f.finding.name) ∅).entries

/-- What `upsertExposuresInTx` and `upsertCountermeasuresInTx` leave, and the unresolved references. -/
def upsertFindingsInTx (findings : List Finding) (g : Graph) : Option (Graph × List String) := do
  let storable := storableFindings s.kind findings
  let refs ← storable.mapM (references s.kind)
  let plan := planReferences g refs.flatten
  let names := distinctNames storable
  let before := readFindingLinks engine s g (names.map fun name => name.2.getD .null)
  let written := storable.foldl (writeFinding engine s plan) g
  return (reconcileLinks engine s written names plan before, plan.unresolvedOf)

/-- `deleteObsoleteExternalObjects` -/
def deleteObsoleteFindings (validNames : List Json) (g : Graph) : Graph :=
  g.detachDelete fun e => InScope g s e ∧ inList engine (nameOf g e) validNames = some false

/-- The transaction of `upsertExposures` and `upsertCountermeasures`. -/
def upsertFindings (findings : List Finding) (g : Graph) : Option (Graph × List String) := do
  let (written, unresolved) ← upsertFindingsInTx engine s findings g
  return (deleteObsoleteFindings engine s (findings.map nameParam) written, unresolved)

end Findings
