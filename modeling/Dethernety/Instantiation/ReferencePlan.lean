import Dethernety.Instantiation.FindingGraph

/-!
# The findings a module returns, and the plan of their links

`storableFindings`, `classifyReference` and `planReferences`. A finding is a JSON object, `none` stands for
`undefined`. `plan.links` and `plan.unresolved` are keyed by the name of a finding as a JavaScript `Map` has
it: primitives by value, arrays by identity, for which the place in the list stands.
-/

namespace Findings

open ModelDirectory (Json)

/-- A finding as the module returns it. -/
abbrev Finding := Record String Json

/-! ## Values that can be stored -/

/-- `typeof` of a value other than `null`, with `nested array` and `nested object` for `object`. -/
def describeType : Json → String
  | .null => "null"
  | .boolean _ => "boolean"
  | .number _ => "number"
  | .string _ => "string"
  | .array _ => "nested array"
  | .object _ => "nested object"

/-- The loop of `describeNonPrimitiveValue`, from an index on; `elemType` is the type of the elements before. -/
def describeElements : ℕ → Option String → List Json → Option String
  | _, _, [] => none
  | i, elemType, elem :: rest =>
    match elem with
    | .null =>
      some ("list element " ++ toString i ++ " is null; remove the empty entry (a list cannot hold null)")
    | .array _ | .object _ =>
      some ("list elements must be primitives (string|number|boolean); got " ++ describeType elem)
    | _ =>
      match elemType with
      | none => describeElements (i + 1) (some (describeType elem)) rest
      | some t =>
        if t = describeType elem then describeElements (i + 1) (some t) rest
        else some ("list must be homogeneous; saw both " ++ t ++ " and " ++ describeType elem)

def describeNonPrimitiveValue : Json → Option String
  | .null | .string _ | .number _ | .boolean _ => none
  | .array l => describeElements 0 none l
  | .object _ => some "value must be a primitive or a list of primitives; got nested object"

def propertyViolations (properties : Record String Json) : List (String × String) :=
  properties.entries.filterMap fun p => (describeNonPrimitiveValue p.2).map (p.1, ·)

def toPrimitive : Json → Option Primitive
  | .string s => some (.string s)
  | .number text => some (.number text)
  | .boolean b => some (.boolean b)
  | _ => none

/-- The property that a storable value is written as; `null` is none. -/
def toValue : Json → Option Value
  | .array l => some (.list (l.filterMap toPrimitive))
  | v => (toPrimitive v).map .primitive

inductive NameKey
  | undefined
  | null
  | primitive (p : Primitive)
  /-- An array, by its place in the list of findings. -/
  | object (i : ℕ)
  deriving DecidableEq

def nameKey (i : ℕ) : Option Json → NameKey
  | none => .undefined
  | some .null => .null
  | some v => ((toPrimitive v).map .primitive).getD (.object i)

def Finding.name (finding : Finding) : Option Json :=
  finding.get? "name"

/-- `sanitiseExposureAttrs` and `sanitiseCountermeasureAttrs` -/
def sanitise (kind : FindingKind) (finding : Finding) : Record String Json :=
  kind.attrKeys.foldl (fun out k => (finding.get? k).elim out (out.set k)) ∅

/-- A finding with the attributes to write; `none` removes a property. -/
structure StorableFinding where
  key : NameKey
  finding : Finding
  attributes : Record String (Option Value)

/-- The finding at a place of the list, unless its name cannot be stored. -/
def storableFinding (kind : FindingKind) (p : Finding × ℕ) : Option StorableFinding :=
  let attributes := sanitise kind p.1
  let violations := propertyViolations attributes
  if violations.any (·.1 = "name") then none
  else some
    { key := nameKey p.2 p.1.name
      finding := p.1
      attributes := (attributes.filterKeys fun k => violations.all (·.1 ≠ k)).mapValues fun _ v => toValue v }

def storableFindings (kind : FindingKind) (findings : List Finding) : List StorableFinding :=
  findings.zipIdx.filterMap (storableFinding kind)

/-! ## References -/

inductive ReferencePair
  | attackTechnique
  | atlasTechnique
  | attackMitigation
  | atlasMitigation
  | defendTechnique
  | regulatoryRequirement

namespace ReferencePair

def label : ReferencePair → String
  | attackTechnique => "MitreAttackTechnique"
  | atlasTechnique => "MitreAtlasTechnique"
  | attackMitigation => "MitreAttackMitigation"
  | atlasMitigation => "MitreAtlasMitigation"
  | defendTechnique => "MitreDefendTechnique"
  | regulatoryRequirement => "RegulatoryRequirement"

def property : ReferencePair → String
  | attackTechnique => "attack_id"
  | atlasTechnique => "atlas_id"
  | attackMitigation => "attack_id"
  | atlasMitigation => "atlas_id"
  | defendTechnique => "d3fendId"
  | regulatoryRequirement => "id"

def isToleratedWhenUnresolved (pair : ReferencePair) : Bool :=
  pair.label = regulatoryRequirement.label

end ReferencePair

def REFERENCE_PAIRS : ReferenceKind → List ReferencePair
  | .technique => [.attackTechnique, .atlasTechnique]
  | .response => [.attackMitigation, .atlasMitigation, .defendTechnique, .regulatoryRequirement]

def ALL_REFERENCE_PAIRS : List ReferencePair :=
  [.attackTechnique, .atlasTechnique, .attackMitigation, .atlasMitigation, .defendTechnique,
    .regulatoryRequirement]

def REFERENCE_LABELS : List String :=
  ALL_REFERENCE_PAIRS.map ReferencePair.label

def afterPrefix (pre s : String) : Option (List Char) :=
  if pre.toList <+: s.toList then some (s.toList.drop pre.length) else none

/-- The prefix and four digits, and with `sub` possibly a dot and three digits. -/
def isNumbered (pre : String) (sub : Bool) (s : String) : Bool :=
  match afterPrefix pre s with
  | some [a, b, c, d] => [a, b, c, d].all Char.isDigit
  | some [a, b, c, d, '.', e, f, g] => sub && [a, b, c, d, e, f, g].all Char.isDigit
  | _ => false

/-- `/^D3-[A-Za-z0-9]+$/` -/
def isDefendId (s : String) : Bool :=
  match afterPrefix "D3-" s with
  | some (a :: l) => (a :: l).all Char.isAlphanum
  | _ => false

def BARE_DISPATCH : ReferenceKind → List ((String → Bool) × ReferencePair)
  | .technique => [(isNumbered "T" true, .attackTechnique), (isNumbered "AML.T" true, .atlasTechnique)]
  | .response =>
    [(isNumbered "M" false, .attackMitigation), (isNumbered "AML.M" false, .atlasMitigation),
      (isDefendId, .defendTechnique)]

/-- `ExternalObjectTarget`, with the pair for its label and its property. -/
structure Target where
  pair : ReferencePair
  value : String
  attributes : Option Json

inductive ClassifiedReference
  | allowed (target : Target)
  | rejected (display : String)

/-- A property of an object; other values have none of those that are read here. -/
def member (v : Json) (name : String) : Option Json :=
  match v with
  | .object fields => (fields.find? (·.1 = name)).map Prod.snd
  | _ => none

mutual

/-- `String(v)` -/
def jsString : Json → String
  | .null => "null"
  | .boolean true => "true"
  | .boolean false => "false"
  | .number text => text
  | .string s => s
  | .array l => ",".intercalate (jsStrings l)
  | .object _ => "[object Object]"

/-- The elements of an array as `String` joins them. -/
def jsStrings : List Json → List String
  | [] => []
  | .null :: l => "" :: jsStrings l
  | v :: l => jsString v :: jsStrings l

end

def classifyObject (kind : ReferenceKind) (ref : Json) : ClassifiedReference :=
  let text (name : String) : String := ((member ref name).map jsString).getD "undefined"
  let rejected : ClassifiedReference :=
    .rejected (text "label" ++ "." ++ text "property" ++ "=" ++ text "value")
  match member ref "label", member ref "property", member ref "value" with
  | some (.string label), some (.string property), some (.string value) =>
    match (REFERENCE_PAIRS kind).find? fun p => p.label = label ∧ p.property = property with
    | some pair => if value.isEmpty then rejected else .allowed ⟨pair, value, member ref "attributes"⟩
    | none => rejected
  | _, _, _ => rejected

def classifyReference (kind : ReferenceKind) : Json → ClassifiedReference
  | .string s =>
    match (BARE_DISPATCH kind).find? (·.1 s) with
    | some (_, pair) => .allowed ⟨pair, s, none⟩
    | none => .rejected s
  | .object fields => classifyObject kind (.object fields)
  | .array l => classifyObject kind (.array l)
  | v => .rejected (jsString v)

/-- `attributes?.justification` -/
def Target.justification (target : Target) : Option Json :=
  target.attributes.bind (member · "justification")

/-- The value is one that justifies a link. -/
def isJustification : Json → Bool
  | .string s => !s.isEmpty
  | .number _ | .boolean _ => true
  | _ => false

def hasJustification (target : Target) : Bool :=
  target.justification.any isJustification

def linkKey (relationName : String) (pair : ReferencePair) (value : String) : String :=
  relationName ++ "|" ++ pair.label ++ "|" ++ pair.property ++ "|" ++ value

/-! ## The plan -/

/-- A reference of a finding, as the module declared it. -/
structure PlannedReference where
  finding : NameKey
  field : String
  relationName : String
  kind : ReferenceKind
  ref : Json

/-- A link that the writer will write. -/
structure PlannedLink where
  relationName : String
  target : Target

def PlannedLink.key (link : PlannedLink) : String :=
  linkKey link.relationName link.target.pair link.target.value

structure ReferencePlan where
  links : Record NameKey (List PlannedLink)
  unresolved : Record NameKey (List String)

/-- `(value || []).map`: the elements of an array, or `none` for the `TypeError` on a value without `map`. -/
def referenceList : Option Json → Option (List Json)
  | none | some .null | some (.boolean false) => some []
  | some (.string s) => if s.isEmpty then some [] else none
  | some (.number text) => if text = "0" then some [] else none
  | some (.array l) => some l
  | some (.boolean true) | some (.object _) => none

/-- The references of a finding under its fields, in the order of the fields. -/
def references (kind : FindingKind) (f : StorableFinding) : Option (List PlannedReference) := do
  let lists ← kind.referenceFields.mapM fun field => do
    let refs ← referenceList (f.finding.get? field.field)
    return refs.map fun ref => ⟨f.key, field.field, field.relationName, field.kind, ref⟩
  return lists.flatten

/-- The target is in the graph. -/
def found (g : Graph) (target : Target) : Bool :=
  g.nodes.entries.any fun e => e.2.label = target.pair.label && e.2.key = some target.value

/-- One edge for each type and target: a justified mention wins over a bare one. -/
def addLink : List PlannedLink → PlannedLink → List PlannedLink
  | [], link => [link]
  | l :: links, link =>
    if l.key = link.key then
      if !hasJustification l.target && hasJustification link.target then link :: links else l :: links
    else l :: addLink links link

def addText (texts : List String) (text : String) : List String :=
  if text ∈ texts then texts else texts ++ [text]

/-- What becomes of a reference: a link, a text to report, or nothing. -/
inductive Outcome
  | link (link : PlannedLink)
  | unresolved (reference : String)
  | tolerated

def outcome (g : Graph) (r : PlannedReference) : Outcome :=
  match classifyReference r.kind r.ref with
  | .allowed target =>
    if found g target then .link ⟨r.relationName, target⟩
    else if target.pair.isToleratedWhenUnresolved then .tolerated
    else .unresolved target.value
  | .rejected display => .unresolved display

def planReference (g : Graph) (plan : ReferencePlan) (r : PlannedReference) : ReferencePlan :=
  match outcome g r with
  | .link link =>
    { plan with links := plan.links.set r.finding (addLink ((plan.links.get? r.finding).getD []) link) }
  | .unresolved reference =>
    { plan with
      unresolved := plan.unresolved.set r.finding (addText ((plan.unresolved.get? r.finding).getD []) reference) }
  | .tolerated => plan

def planReferences (g : Graph) (refs : List PlannedReference) : ReferencePlan :=
  refs.foldl (planReference g) ⟨∅, ∅⟩

/-- `plan.links.get(name) ?? []` -/
def ReferencePlan.linksOf (plan : ReferencePlan) (key : NameKey) : List PlannedLink :=
  (plan.links.get? key).getD []

def ReferencePlan.unresolvedOf (plan : ReferencePlan) : List String :=
  (plan.unresolved.entries.flatMap Prod.snd).foldl addText []

end Findings
