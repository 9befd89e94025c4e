import Dethernety.Foundations.Text
import Dethernety.ThreatReport.ModelGraph

/-!
# The data-flow policy

Model of `evaluateDataFlowPolicy` of `zoningPolicy.js`: a verdict for every flow between two
boundaries, from the declared zones, domains, planes and conduits.
-/

namespace ThreatReport

open Zoning (Zone)

section

/-- The values of `verdict` other than `null`. -/
inductive VerdictKind
  | violation
  | warning
  | advisory
  | allowed
  deriving DecidableEq

/-- `VERDICT_RANK[verdict ?? 'none']` -/
def rankOf : Option VerdictKind → ℕ
  | some .violation => 3
  | some .warning => 2
  | some .advisory => 1
  | some .allowed => 0
  | none => 0

inductive DomainRel
  | same
  | cross
  | notApplicable
  deriving DecidableEq

inductive PlaneClass
  | workload
  | management

inductive ConduitClause
  | requiredPresent
  | requiredMissing
  | error
  | none
  deriving DecidableEq

structure Verdict where
  verdict : Option VerdictKind
  verdictRank : ℕ
  srcZone : Zone
  tgtZone : Zone
  domainRel : DomainRel
  planeClass : PlaneClass
  conduitClause : ConduitClause
  detail : Option String

/-- What the policy reads of a boundary at an end of a crossing. -/
structure Endpoint where
  id : String
  zone : Zone
  domains : List String
  planes : List Plane

def zoneName : Zone → String
  | .restricted => "RESTRICTED"
  | .internal => "INTERNAL"
  | .exposed => "EXPOSED"
  | .publicZone => "PUBLIC"
  | .untrusted => "UNTRUSTED"
  | .vendor => "VENDOR"

def tierRank : Zone → ℕ
  | .publicZone => 1
  | .exposed => 2
  | .internal => 3
  | .restricted => 4
  | .untrusted => 0
  | .vendor => 0

def isExternal : Zone → Bool
  | .untrusted => true
  | .vendor => true
  | _ => false

/-- `sameDomain`: an untagged boundary is in the domain of every other. -/
def sameDomain (a b : List String) : Bool :=
  a.isEmpty || b.isEmpty || a.any fun x => b.contains x

def hasMgmt (planes : List Plane) : Bool :=
  planes.contains .management

def isMgmtOnly (planes : List Plane) : Bool :=
  hasMgmt planes && !planes.contains .workload

def isMgmtFlow (S T : Endpoint) : Bool :=
  isMgmtOnly S.planes || isMgmtOnly T.planes || (hasMgmt S.planes && hasMgmt T.planes)

/-- `mk` of a workload flow -/
def mk (S T : Endpoint) (domainRel : DomainRel) (verdict : Option VerdictKind)
    (conduitClause : ConduitClause) (detail : Option String) : Verdict where
  verdict := verdict
  verdictRank := rankOf verdict
  srcZone := S.zone
  tgtZone := T.zone
  domainRel := domainRel
  planeClass := .workload
  conduitClause := conduitClause
  detail := detail

def zonePair (S T : Endpoint) : String :=
  zoneName S.zone ++ " ↦ " ++ zoneName T.zone

-- `conduit` is `hasConduit(S.id, T.id)`, `clause` is `violationConduitClause(S.id, T.id)`
variable (conduit : Bool) (clause : ConduitClause)

/-- `typeAxisIngress`: from outside into the modelled system -/
def typeAxisIngress (S T : Endpoint) : Verdict :=
  let t := T.zone
  let mk := mk S T .notApplicable
  if S.zone = .untrusted then
    if t = .publicZone then
      mk (some .allowed) .none (some ("External ingress to a PUBLIC front door — expected " ++
        "(a public boundary is defined as externally reachable)."))
    else if t = .exposed then
      if conduit then mk (some .allowed) .requiredPresent none
      else mk (some .warning) .requiredMissing (some ("External ingress to an EXPOSED boundary " ++
        "without a declared conduit — approve the channel."))
    else
      mk (some .violation) clause (some ("External ingress reaches a " ++ zoneName t ++
        " boundary directly — the internet must not reach " ++
        (if t = .restricted then "the crown-jewel tier" else "internal services") ++ "."))
  else if t = .publicZone then
    mk (some .allowed) .none (some "Partner ingress to a PUBLIC boundary.")
  else if t = .exposed ∨ t = .internal then
    if conduit then mk (some .allowed) .requiredPresent none
    else mk (some .warning) .requiredMissing (some ("Partner ingress to a " ++ zoneName t ++
      " boundary without a declared conduit — approve the channel."))
  else
    mk (some .violation) clause (some "Partner ingress reaches a RESTRICTED boundary directly.")

/-- `typeAxisEgress`: from the modelled system to the outside -/
def typeAxisEgress (S T : Endpoint) : Verdict :=
  let s := S.zone
  let mk := mk S T .notApplicable
  if T.zone = .untrusted then
    if s = .internal ∨ s = .restricted then
      if conduit then
        mk (some .warning) .requiredPresent (some ("Egress from " ++ zoneName s ++
          " to the internet via a declared conduit — confirm this is intended data-out."))
      else
        mk (some .violation) .none (some ("Egress from " ++ zoneName s ++
          " directly to the internet (data-out) with no approved channel."))
    else
      mk none .none (some ("Egress from an already-exposed tier to the internet — " ++
        "out of scope."))
  else if conduit then mk (some .allowed) .requiredPresent none
  else
    mk (some .violation) .none (some ("Data sent to a partner (VENDOR) with no approved channel — " ++
      "a third-party egress requires a declared conduit."))

def managementLens (S T : Endpoint) : Verdict :=
  let mgmt := fun verdict conduitClause detail =>
    { mk S T .notApplicable verdict conduitClause (some detail) with planeClass := .management }
  if T.zone = .restricted ∧ S.zone ≠ .restricted ∧ hasMgmt S.planes then
    mgmt (some .advisory) .none ("A control-plane service below RESTRICTED (" ++ zoneName S.zone ++
      ") writes into a RESTRICTED workload. If it can deploy/write to the crown-jewel tier it IS " ++
      "crown-jewel-privileged — zone it RESTRICTED+MANAGEMENT, else this is a " ++
      "privilege-escalation / supply-chain path (the SolarWinds shape).")
  else if conduit then
    mgmt (some .allowed) .requiredPresent
      "Management-plane (cross-cutting) flow via a declared conduit."
  else
    mgmt (some .warning) .requiredMissing ("Management-plane (cross-cutting) flow — not " ++
      "gradient-blocked, but a declared conduit is recommended for the control-plane channel; " ++
      "approve it.")

/-- The domain split of `classify`, for a flow that does not go down the gradient. -/
def zonePairMatrix (S T : Endpoint) : Verdict :=
  let up := tierRank T.zone - tierRank S.zone
  if sameDomain S.domains T.domains then
    let mk := mk S T .same
    if up ≥ 2 then
      mk (some .violation) clause (some ("Skips " ++ toString (up - 1) ++ " trust tier(s) (" ++
        zonePair S T ++ ") — model the intermediate hop or ratify the jump; a direct skip bypasses " ++
        "the intervening tier's controls."))
    else mk (some .allowed) .none none
  else
    let mk := mk S T .cross
    if T.zone = .restricted then
      mk (some .violation) clause (some ("Cross-domain ingress into a RESTRICTED zone (" ++
        zonePair S T ++ ") — not permitted across domains, even with a conduit."))
    else if up ≥ 2 then
      mk (some .violation) clause (some ("Cross-domain and skips " ++ toString (up - 1) ++
        " trust tier(s) (" ++ zonePair S T ++ ")."))
    else if conduit then mk (some .allowed) .requiredPresent none
    else
      mk (some .warning) .requiredMissing (some ("Cross-domain crossing (" ++ zonePair S T ++
        ") without a declared conduit — approve the channel or remove the coupling."))

def classify (S T : Endpoint) : Verdict :=
  let mk := mk S T .notApplicable
  if isExternal S.zone || isExternal T.zone then
    if isExternal S.zone && isExternal T.zone then
      mk none .none (some ("Flow between two external/partner entities — not an ingress into the " ++
        "modeled system; out of scope."))
    else if isExternal S.zone then typeAxisIngress conduit clause S T
    else typeAxisEgress conduit S T
  else if isMgmtFlow S T then managementLens conduit S T
  else if tierRank T.zone < tierRank S.zone then
    if S.zone = .restricted then
      mk (some .advisory) .none (some ("A RESTRICTED workload initiates an outbound flow " ++
        "(down-gradient). Unusual under initiation semantics — confirm this is a legitimate " ++
        "call-out, not an exfiltration path."))
    else
      mk none .none (some "Down-gradient (response-shaped) flow — no policy verdict.")
  else zonePairMatrix conduit clause S T

end

section

def maxAncestorDepth : ℕ := 50

variable (mg : ModelGraph)

/-- `boundaryById.get(id)?.name || '(unknown)'` -/
def nameOf (id : String) : String :=
  match (boundaryById mg).get? id with
  | some b => if b.name = "" then "(unknown)" else b.name
  | none => "(unknown)"

/-- `parentOf.get(id) ?? null` -/
def parentOf (id : String) : Option String :=
  ((boundaryById mg).get? id).bind ModelGraphBoundary.parentBoundaryId

/-- The loop of `ancestorsOf` with `depth` rounds left. -/
def ancestorsLoop : ℕ → List String → Option String → List String
  | depth + 1, set, some cur =>
    if cur ∈ set then set else ancestorsLoop depth (set ++ [cur]) (parentOf mg cur)
  | _, set, _ => set

def ancestorsOf (id : String) : List String :=
  ancestorsLoop mg maxAncestorDepth [] (some id)

/-- An entry of `conduitList`. -/
structure DeclaredConduit where
  source : String
  peer : String
  key : String
  justification : Option String

/-- `${b.id}>${c.peerId}` -/
def conduitKey (source peer : String) : String :=
  source ++ ">" ++ peer

/-- A round of the loop over the conduits of `b`; `seenConduit` has the keys of the list. -/
def addConduit (b : ModelGraphBoundary) (list : List DeclaredConduit) (c : Conduit) :
    List DeclaredConduit :=
  if c.peerId = "" ∨ c.direction ≠ .outbound then list
  else if conduitKey b.id c.peerId ∈ list.map DeclaredConduit.key then list
  else list ++ [⟨b.id, c.peerId, conduitKey b.id c.peerId, c.justification⟩]

def conduitList : List DeclaredConduit :=
  mg.boundaries.foldl (fun list b => b.conduits.foldl (addConduit b) list) []

def coveringConduits (sB tB : String) : List DeclaredConduit :=
  (conduitList mg).filter fun c => c.source ∈ ancestorsOf mg sB ∧ c.peer ∈ ancestorsOf mg tB

def hasConduit (sB tB : String) : Bool :=
  !(coveringConduits mg sB tB).isEmpty

def violationConduitClause (illegalConduitKeys : List String) (sB tB : String) : ConduitClause :=
  if (coveringConduits mg sB tB).any fun c => c.key ∈ illegalConduitKeys then .error else .none

end

variable (mg : ModelGraph) (effectiveZones : EffectiveZones)

def endpointOf (id : String) : Endpoint where
  id := id
  zone := (effectiveZones.get? id).getD .internal
  domains := (((boundaryById mg).get? id).map ModelGraphBoundary.domains).getD []
  planes := (((boundaryById mg).get? id).map ModelGraphBoundary.planes).getD []

/-- `classify(endpointOf(sB), endpointOf(tB))` -/
def judge (illegalConduitKeys : List String) (sB tB : String) : Verdict :=
  classify (hasConduit mg sB tB) (violationConduitClause mg illegalConduitKeys sB tB)
    (endpointOf mg effectiveZones sB) (endpointOf mg effectiveZones tB)

/-- `componentBoundary.get(end)`, where it is truthy. -/
def componentBoundary (componentId : Option String) : Option String :=
  (componentId.bind fun id => ((componentById mg).get? id).bind
    ModelGraphComponent.boundaryId).filter (· ≠ "")

/-- The two boundaries that a flow goes between. -/
def crossedPair (f : ModelGraphFlow) : Option (String × String) :=
  match componentBoundary mg f.sourceId, componentBoundary mg f.targetId with
  | some sB, some tB => if sB = tB then none else some (sB, tB)
  | _, _ => none

def adjacencyPairs : List (String × String) :=
  mg.flows.filterMap (crossedPair mg)

def conduitIsLive (source peer : String) : Bool :=
  (adjacencyPairs mg).any fun e => source ∈ ancestorsOf mg e.1 ∧ peer ∈ ancestorsOf mg e.2

structure ConduitError where
  sourceId : String
  peerId : String
  sourceName : String
  peerName : String
  srcZone : Zone
  tgtZone : Zone
  dead : Bool
  detail : String

structure DeadConduit where
  sourceId : String
  peerId : String
  sourceName : String
  peerName : String
  justification : Option String
  unreviewable : Bool

structure StaticPass where
  illegalConduitKeys : List String
  conduitErrors : List ConduitError
  deadConduits : List DeadConduit

/-- `!c.justification || !String(c.justification).trim()` -/
def isUnreviewable (justification : Option String) : Bool :=
  match justification with
  | none => true
  | some text => text.toList.all isEcmaSpace

/-- A round of the static pass. -/
def staticStep (p : StaticPass) (c : DeclaredConduit) : StaticPass :=
  let v := judge mg effectiveZones p.illegalConduitKeys c.source c.peer
  let dead := !conduitIsLive mg c.source c.peer
  if v.verdict = some .violation then
    { p with
      illegalConduitKeys := p.illegalConduitKeys ++ [c.key]
      conduitErrors := p.conduitErrors ++ [{
        sourceId := c.source
        peerId := c.peer
        sourceName := nameOf mg c.source
        peerName := nameOf mg c.peer
        srcZone := v.srcZone
        tgtZone := v.tgtZone
        dead := dead
        detail := "A declared conduit authorizes an illegal crossing (" ++ zoneName v.srcZone ++
          " ↦ " ++ zoneName v.tgtZone ++ (if v.domainRel = .cross then ", cross-domain" else "") ++
          ") — conduits do not legalize a policy violation." }] }
  else if dead then
    { p with
      deadConduits := p.deadConduits ++ [{
        sourceId := c.source
        peerId := c.peer
        sourceName := nameOf mg c.source
        peerName := nameOf mg c.peer
        justification := c.justification
        unreviewable := isUnreviewable c.justification }] }
  else p

def staticPass : StaticPass :=
  (conduitList mg).foldl (staticStep mg effectiveZones) ⟨[], [], []⟩

/-- A round of the loop over the flows. -/
def flowStep (byFlow : Record String Verdict) (f : ModelGraphFlow) : Record String Verdict :=
  if f.id = "" then byFlow
  else
    match crossedPair mg f with
    | none => byFlow
    | some (sB, tB) =>
      byFlow.set f.id
        (judge mg effectiveZones (staticPass mg effectiveZones).illegalConduitKeys sB tB)

/-- What `evaluateDataFlowPolicy` returns; `fails` is `rollup.fails`. -/
structure PolicyResult where
  byFlow : Record String Verdict
  conduitErrors : List ConduitError
  deadConduits : List DeadConduit
  fails : Bool

variable (localeCompare : String → String → Ordering)

def evaluateDataFlowPolicy : PolicyResult :=
  let p := staticPass mg effectiveZones
  let byFlow := mg.flows.foldl (flowStep mg effectiveZones) ∅
  { byFlow := byFlow
    conduitErrors := sortBy (fun a b =>
      (localeCompare a.sourceName b.sourceName).then (localeCompare a.peerName b.peerName))
      p.conduitErrors
    deadConduits := sortBy (fun a b =>
      (localeCompare a.sourceName b.sourceName).then (localeCompare a.peerName b.peerName))
      p.deadConduits
    fails := byFlow.entries.any (fun e => e.2.verdict = some .violation) ||
      !p.conduitErrors.isEmpty }

end ThreatReport
