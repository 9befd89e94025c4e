import Dethernety.Foundations.PropertyGraph
import Dethernety.ModelDirectory.SplitModel

/-!
# Findings in the graph

The graph that the finding writer works on: elements, classes, findings and the reference nodes that findings
link to. A node has one label, as the schema creates them, and its id is the id of the node; a reference
node has the value of its label's key property as `key`. Cypher's comparisons are three-valued, with `none`
for `null`.
-/

namespace Findings

open ModelDirectory (Json)

inductive Primitive
  | string (s : String)
  | number (text : String)
  | boolean (b : Bool)
  deriving DecidableEq

/-- A property value that the databases store. -/
inductive Value
  | primitive (p : Primitive)
  | list (l : List Primitive)
  deriving DecidableEq

abbrev Properties := Record String Value

structure Node where
  label : String
  key : Option String
  properties : Properties

/-- Edges have the type as a string, and properties. -/
abbrev Graph := PropertyGraph Node String Properties

/-- What Neo4j and Memgraph do differently. -/
structure Engine where
  /-- A list element compared with `null`, inside a comparison of lists. -/
  nullElement : Option Bool
  /-- A value that is not a string, concatenated with one; `none` when the result is not a string. -/
  otherText : Value → Option String

namespace Engine

variable (engine : Engine)

/-- The text of a value in a concatenation. -/
def text : Value → Option String
  | .primitive (.string s) => some s
  | v => engine.otherText v

end Engine

/-! ## Comparisons -/

/-- `=` of a primitive and a parameter. -/
def Primitive.eqJson : Primitive → Json → Option Bool
  | _, .null => none
  | .string s, .string t => some (s = t)
  | .number s, .number t => some (s = t)
  | .boolean a, .boolean b => some (a = b)
  | _, _ => some false

/-- The three-valued conjunction. -/
def conj (l : List (Option Bool)) : Option Bool :=
  if some false ∈ l then some false else if none ∈ l then none else some true

/-- `=` of a list element and an element of a list parameter. -/
def elementEq (engine : Engine) (p : Primitive) : Json → Option Bool
  | .null => engine.nullElement
  | j => p.eqJson j

/-- `=` of a property value and a parameter. -/
def Value.eqJson (engine : Engine) : Value → Json → Option Bool
  | _, .null => none
  | .primitive p, j => p.eqJson j
  | .list l, .array js =>
    if l.length = js.length then conj (List.zipWith (elementEq engine) l js) else some false
  | .list _, _ => some false

/-- `IN` of a property, `none` when it is absent, and a list parameter. -/
def inList (engine : Engine) (v : Option Value) (list : List Json) : Option Bool :=
  match v with
  | none => if list.isEmpty then some false else none
  | some v =>
    let results := list.map (v.eqJson engine)
    if some true ∈ results then some true else if none ∈ results then none else some false

/-! ## Kinds of findings -/

inductive FindingKind
  | exposure
  | countermeasure

/-- Which kind of node a reference field may point at. -/
inductive ReferenceKind
  | technique
  | response

def COUNTERMEASURE_VERB_EDGES : List (String × String) :=
  [("mitigates", "COUNTERMEASURE_MITIGATES"), ("protectsAgainst", "COUNTERMEASURE_PROTECTS_AGAINST"),
    ("detects", "COUNTERMEASURE_DETECTS"), ("isolates", "COUNTERMEASURE_ISOLATES"),
    ("deceives", "COUNTERMEASURE_DECEIVES"), ("evicts", "COUNTERMEASURE_EVICTS"),
    ("restores", "COUNTERMEASURE_RESTORES"), ("respondsTo", "COUNTERMEASURE_RESPONDS_TO")]

def EXPOSURE_ATTR_KEYS : List String :=
  ["name", "description", "type", "category", "score", "reference", "attackVector", "mitigationTechniques",
    "detectionTechniques", "tags", "authoredBy"]

def COUNTERMEASURE_ATTR_KEYS : List String :=
  ["name", "description", "type", "category", "score", "reference", "addressedExposures", "tags", "authoredBy"]

def EXPOSURE_LINK_TYPES : List String :=
  ["EXPLOITED_BY"]

def COUNTERMEASURE_LINK_TYPES : List String :=
  "RESPONDS_WITH" :: COUNTERMEASURE_VERB_EDGES.map Prod.snd

def CLASS_RELATIONS : List String :=
  ["IS_EXPOSURE_OF", "IS_COUNTERMEASURE_OF"]

/-- A reference field: its name, the type of its edges, and where it may point. -/
structure ReferenceField where
  field : String
  relationName : String
  kind : ReferenceKind

namespace FindingKind

def label : FindingKind → String
  | exposure => "Exposure"
  | countermeasure => "Countermeasure"

def relation : FindingKind → String
  | exposure => "HAS_EXPOSURE"
  | countermeasure => "HAS_COUNTERMEASURE"

def classRelation : FindingKind → String
  | exposure => "IS_EXPOSURE_OF"
  | countermeasure => "IS_COUNTERMEASURE_OF"

def attrKeys : FindingKind → List String
  | exposure => EXPOSURE_ATTR_KEYS
  | countermeasure => COUNTERMEASURE_ATTR_KEYS

def linkTypes : FindingKind → List String
  | exposure => EXPOSURE_LINK_TYPES
  | countermeasure => COUNTERMEASURE_LINK_TYPES

def referenceFields : FindingKind → List ReferenceField
  | exposure => [⟨"exploitedBy", "EXPLOITED_BY", .technique⟩]
  | countermeasure =>
    ⟨"respondsWith", "RESPONDS_WITH", .response⟩ ::
      COUNTERMEASURE_VERB_EDGES.map fun verb => ⟨verb.1, verb.2, .technique⟩

end FindingKind

/-! ## Findings of an element and a class -/

/-- The name of a finding; `none` when it has no such property. -/
def Node.name (n : Node) : Option Value :=
  n.properties.get? "name"

/-- Written by the platform: `createdBy` is `SYSTEM` or absent. -/
def Node.IsSystem (n : Node) : Prop :=
  n.properties.get? "createdBy" = some (.primitive (.string "SYSTEM")) ∨ n.properties.get? "createdBy" = none

instance : DecidablePred Node.IsSystem := fun _ => inferInstanceAs (Decidable (_ ∨ _))

def IsClassLabel (label : String) : Prop :=
  "Class".toList <:+ label.toList

instance : DecidablePred IsClassLabel := fun label =>
  inferInstanceAs (Decidable ("Class".toList <:+ label.toList))

/-- Which findings a statement reaches: those of an element and a class, of one kind. -/
structure FindingScope where
  kind : FindingKind
  componentId : ℕ
  classId : ℕ

variable (g : Graph) (s : FindingScope) (e : ℕ)

/-- A node of the pattern `(c)-[relation]->(e)-[IS_EXPOSURE_OF|IS_COUNTERMEASURE_OF]->(klass)`, by the platform:
the findings that the link statements and the cleanup reach. -/
def InScope : Prop :=
  g.HasEdge s.componentId s.kind.relation e ∧ (∃ r ∈ CLASS_RELATIONS, g.HasEdge e r s.classId) ∧
    ∃ n ∈ g.nodes.get? e, n.IsSystem

/-- A finding of the element and the class by the platform, with the label and the relation of its kind. -/
def IsSystemFinding : Prop :=
  g.HasEdge s.componentId s.kind.relation e ∧ g.HasEdge e s.kind.classRelation s.classId ∧
    ∃ n ∈ g.nodes.get? e, n.label = s.kind.label ∧ n.IsSystem

instance : Decidable (InScope g s e) :=
  inferInstanceAs (Decidable (_ ∧ _ ∧ _))

instance : Decidable (IsSystemFinding g s e) :=
  inferInstanceAs (Decidable (_ ∧ _ ∧ _))

def nameOf : Option Value :=
  (g.nodes.get? e).bind Node.name

variable {g s e}

lemma classRelation_mem (kind : FindingKind) : kind.classRelation ∈ CLASS_RELATIONS := by
  cases kind
  · exact .head _
  · exact .tail _ (.head _)

lemma IsSystemFinding.inScope (h : IsSystemFinding g s e) : InScope g s e := by
  obtain ⟨hfinding, hclass, n, hn, -, hsystem⟩ := h
  exact ⟨hfinding, ⟨_, classRelation_mem s.kind, hclass⟩, n, hn, hsystem⟩

end Findings
