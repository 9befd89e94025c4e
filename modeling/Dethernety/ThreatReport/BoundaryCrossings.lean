import Mathlib.Data.Rat.Defs
import Dethernety.ThreatReport.ZoningPolicy

/-!
# The boundary-crossing worklist

Model of `boundaryCrossings.js`: the stacks of ancestor boundaries, the membranes that a flow crosses
and the ranked worklist of `computeCrossings`.
-/

namespace ThreatReport

inductive DispositionKind
  | notApplicable
  | falsePositive
  | compensatingControl
  | riskAccepted
  | waived
  | superseded
  | affirmed
  deriving DecidableEq

structure LedgerFinding where
  score : Option ℚ
  dispositionKind : Option DispositionKind
  dispositionStale : Bool

/-- `LedgerElement`; of its controls only their number is read. -/
structure LedgerElement where
  id : String
  name : String
  findings : List LedgerFinding
  supportingControls : ℕ

/-- A score band of `BAND_RANK` -/
inductive Band
  | critical
  | high
  | medium
  | low
  | unknown

def bandRank : Band → ℕ
  | .critical => 4
  | .high => 3
  | .medium => 2
  | .low => 1
  | .unknown => 0

def scoreBand : Option ℚ → Band
  | none => .unknown
  | some score =>
    if score ≥ 9 then .critical
    else if score ≥ 7 then .high
    else if score ≥ 4 then .medium
    else .low

def isLive (finding : LedgerFinding) : Bool :=
  finding.dispositionKind = none ∨ finding.dispositionKind = some .affirmed

/-- What `postureOf` returns. -/
structure Posture where
  liveCount : ℕ
  worstBand : Option Band
  hasControl : Bool

/-- The loop over the live findings; a rank is `none` before the first of them. -/
def worstBandOf (live : List LedgerFinding) : Band :=
  (live.foldl (fun (worst : Band × Option ℕ) f =>
    let band := scoreBand f.score
    if worst.2.all fun r => bandRank band > r then (band, some (bandRank band)) else worst)
    (.unknown, none)).1

def postureOf (ledgerEl : Option LedgerElement) : Posture :=
  let live := ((ledgerEl.map LedgerElement.findings).getD []).filter isLive
  { liveCount := live.length
    worstBand := if live.isEmpty then none else some (worstBandOf live)
    hasControl := ((ledgerEl.map LedgerElement.supportingControls).getD 0) > 0 }

def ledgerById (ledger : List LedgerElement) : Record String LedgerElement :=
  .ofList (ledger.map fun e => (e.id, e))

def sensitivityRank : Sensitivity → ℕ
  | .publicLevel => 1
  | .internal => 2
  | .confidential => 3
  | .restricted => 4

def rankOfSensitivity (level : Option Sensitivity) : ℕ :=
  (level.map sensitivityRank).getD 0

def maxSensitivity (sensitivities : List Sensitivity) : Option Sensitivity :=
  sensitivities.foldl (fun best s =>
    if sensitivityRank s > rankOfSensitivity best then some s else best) none

section

variable (mg : ModelGraph)

/-- How the walk of `stackOfBoundaryId` ends. -/
inductive StackEnd
  | top
  /-- At a boundary that it has visited. -/
  | repeated (id : String)
  /-- At an id that is no boundary. -/
  | missing (id : String)

/-- The loop of `stackOfBoundaryId`. What it has visited is what is in the chain. The number of rounds
is bounded by that of the boundaries (`stackLoop_climb`). -/
def stackLoop : ℕ → List String → Option String → List String × StackEnd
  | fuel + 1, chain, some cursor =>
    if cursor ∈ chain then (chain, .repeated cursor)
    else
      match (boundaryById mg).get? cursor with
      | none => (chain, .missing cursor)
      | some b => stackLoop fuel (chain ++ [cursor]) b.parentBoundaryId
  | _, chain, _ => (chain, .top)

/-- The walk from a boundary. -/
def climbFrom (startId : Option String) : List String × StackEnd :=
  stackLoop mg (mg.boundaries.length + 1) [] startId

/-- The boundary of a component; an unknown component has none. -/
def boundaryOf (componentId : String) : Option String :=
  ((componentById mg).get? componentId).bind ModelGraphComponent.boundaryId

def stackOfComponent (componentId : String) : List String :=
  (climbFrom mg (boundaryOf mg componentId)).1 ++ [rootSentinel]

/-- What a walk adds to `truncatedBoundaries`. -/
def truncatedBy : StackEnd → List String
  | .repeated id => [id]
  | _ => []

/-- What a walk adds to `danglingParents`. -/
def danglingBy : StackEnd → List String
  | .missing id => [id]
  | _ => []

end

def maxMembranesPerFlow : ℕ := 6

inductive MembraneDirection
  | exit
  | enter

structure Membrane where
  direction : MembraneDirection
  boundaryId : String
  boundaryName : String
  boundaryLiveCount : ℕ
  boundaryHasControl : Bool
  signal : Bool

/-- A flow with the membranes that it crosses. -/
structure FlowGroup where
  flowId : String
  flowName : String
  sourceId : String
  targetId : String
  maxSensitivity : Option Sensitivity
  sensitivityKnown : Bool
  unclassifiedInMotion : Bool
  flowLiveCount : ℕ
  flowWorstBand : Option Band
  flowHasControl : Bool
  membranes : List Membrane
  hiddenMembranes : ℕ
  verdict : Option Verdict
  verdictRank : ℕ
  escalated : Bool
  signal : Bool

def flowRankKey (g : FlowGroup) : List ℕ :=
  [g.verdictRank, rankOfSensitivity g.maxSensitivity,
    if g.flowLiveCount > 0 then (g.flowWorstBand.map bandRank).getD 0 else 0,
    if g.membranes.any fun m => m.boundaryLiveCount > 0 then 1 else 0,
    if g.membranes.any fun m => !m.boundaryHasControl then 1 else 0,
    if g.flowHasControl then 0 else 1]

def worklistHasDifferentiator (crossings : List FlowGroup) : Bool :=
  crossings.any fun g =>
    g.verdictRank > 0 || rankOfSensitivity g.maxSensitivity > 0 || g.flowLiveCount > 0 ||
      g.flowHasControl || g.membranes.any fun m => m.boundaryLiveCount > 0 || m.boundaryHasControl

/-- The loop of `byFlowRankDesc` over two keys: the greater key comes first. -/
def compareKeysDesc : List ℕ → List ℕ → Ordering
  | a :: ka, b :: kb => (compare b a).then (compareKeysDesc ka kb)
  | _, _ => .eq

def byFlowRankDesc (localeCompare : String → String → Ordering) (a b : FlowGroup) : Ordering :=
  (compareKeysDesc (flowRankKey a) (flowRankKey b)).then (localeCompare a.flowName b.flowName)

inductive Severity
  | warning
  | error

inductive FlagKey
  | noBoundaries
  | unclassifiedInMotion
  | nestingCycle
  | danglingParent
  deriving DecidableEq

structure Flag where
  key : FlagKey
  label : String
  severity : Severity

/-- The variables of the loop over the flows. -/
structure CrossingsState where
  groups : List FlowGroup
  membraneCount : ℕ
  unclassifiedInMotion : ℕ
  hiddenByCap : ℕ
  truncatedBoundaries : List String
  danglingParents : List String

variable (mg : ModelGraph) (ledger : List LedgerElement)

/-- The boundaries that a flow between two components leaves and enters. -/
def orderedMembranes (sourceId targetId : String) : List (String × MembraneDirection) :=
  let stackSrc := stackOfComponent mg sourceId
  let stackDst := stackOfComponent mg targetId
  let exit := stackSrc.filter fun b => b ≠ rootSentinel ∧ b ∉ stackDst
  let enter := (stackDst.filter fun b => b ≠ rootSentinel ∧ b ∉ stackSrc).reverse
  exit.map (·, .exit) ++ enter.map (·, .enter)

/-- The membrane of a boundary that a flow crosses. -/
def membraneOf (carriesData : Bool) (flowPosture : Posture) (m : String × MembraneDirection) :
    Membrane :=
  let bPosture := postureOf ((ledgerById ledger).get? m.1)
  { direction := m.2
    boundaryId := m.1
    boundaryName := (((boundaryById mg).get? m.1).map ModelGraphBoundary.name).getD
      "(unknown boundary)"
    boundaryLiveCount := bPosture.liveCount
    boundaryHasControl := bPosture.hasControl
    signal := carriesData || flowPosture.liveCount > 0 || flowPosture.hasControl ||
      bPosture.liveCount > 0 || bPosture.hasControl }

/-- The display cap: the innermost membranes of both sides. -/
def capMembranes (membranes : List Membrane) : List Membrane :=
  if membranes.length > maxMembranesPerFlow then
    membranes.take (maxMembranesPerFlow - maxMembranesPerFlow / 2) ++
      membranes.drop (membranes.length - maxMembranesPerFlow / 2)
  else membranes

/-- The group of a flow that crosses the boundaries of `ordered`. -/
def groupOf (byFlow : Record String Verdict) (flow : ModelGraphFlow) (sourceId targetId : String)
    (ordered : List (String × MembraneDirection)) : FlowGroup :=
  let topSensitivity := maxSensitivity flow.sensitivities
  let flowPosture := postureOf ((ledgerById ledger).get? flow.id)
  let membranes := ordered.map (membraneOf mg ledger (flow.dataItemCount > 0) flowPosture)
  let shown := capMembranes membranes
  let verdict := byFlow.get? flow.id
  let verdictRank := (verdict.map Verdict.verdictRank).getD 0
  { flowId := flow.id
    flowName := flow.name
    sourceId := sourceId
    targetId := targetId
    maxSensitivity := topSensitivity
    sensitivityKnown := topSensitivity.isSome
    unclassifiedInMotion := topSensitivity.isNone && flow.dataItemCount > 0
    flowLiveCount := flowPosture.liveCount
    flowWorstBand := flowPosture.worstBand
    flowHasControl := flowPosture.hasControl
    membranes := shown
    hiddenMembranes := membranes.length - shown.length
    verdict := verdict
    verdictRank := verdictRank
    escalated := verdictRank > 0
    signal := shown.any Membrane.signal }

def flowEnds (flow : ModelGraphFlow) : Option (String × String) :=
  match flow.sourceId.filter (· ≠ ""), flow.targetId.filter (· ≠ "") with
  | some sourceId, some targetId => some (sourceId, targetId)
  | _, _ => none

/-- A round of the loop over the flows. -/
def crossingsStep (byFlow : Record String Verdict) (s : CrossingsState) (flow : ModelGraphFlow) :
    CrossingsState :=
  match flowEnds flow with
  | none => s
  | some (sourceId, targetId) =>
    let endSrc := (climbFrom mg (boundaryOf mg sourceId)).2
    let endDst := (climbFrom mg (boundaryOf mg targetId)).2
    let s := { s with
      truncatedBoundaries := s.truncatedBoundaries ++ truncatedBy endSrc ++ truncatedBy endDst
      danglingParents := s.danglingParents ++ danglingBy endSrc ++ danglingBy endDst }
    let ordered := orderedMembranes mg sourceId targetId
    if ordered.isEmpty then s
    else
      let group := groupOf mg ledger byFlow flow sourceId targetId ordered
      { s with
        groups := s.groups ++ [group]
        membraneCount := s.membraneCount + ordered.length
        unclassifiedInMotion := s.unclassifiedInMotion + if group.unclassifiedInMotion then 1 else 0
        hiddenByCap := s.hiddenByCap + group.hiddenMembranes }

def flagsOf (s : CrossingsState) : List Flag :=
  (if mg.boundaries.isEmpty then
    [⟨.noBoundaries,
      "No security boundaries modeled — boundary-crossing analysis not applicable", .warning⟩]
  else []) ++
  (if s.unclassifiedInMotion > 0 then
    [⟨.unclassifiedInMotion, toString s.unclassifiedInMotion ++ " flow" ++
      (if s.unclassifiedInMotion = 1 then "" else "s") ++
      " carry unclassified data across a boundary (a modeling gap, not a safe crossing)", .warning⟩]
  else []) ++
  (if ¬ s.truncatedBoundaries.isEmpty then
    [⟨.nestingCycle, "Boundary nesting cycle detected — ancestor resolution was truncated; " ++
      "crossings may be incomplete", .error⟩]
  else []) ++
  (if ¬ s.danglingParents.isEmpty then
    [⟨.danglingParent, "A boundary references a missing parent — ancestor resolution was " ++
      "truncated; crossings may be incomplete", .error⟩]
  else [])

/-- `policy`: the verdicts of the groups counted. -/
structure PolicyCounts where
  fails : Bool
  violations : ℕ
  warnings : ℕ
  advisories : ℕ

/-- `g.verdict?.verdict` -/
def FlowGroup.kind (g : FlowGroup) : Option VerdictKind :=
  g.verdict.bind Verdict.verdict

def countVerdict (p : PolicyCounts) (g : FlowGroup) : PolicyCounts :=
  match g.kind with
  | some .violation => { p with violations := p.violations + 1 }
  | some .warning => { p with warnings := p.warnings + 1 }
  | some .advisory => { p with advisories := p.advisories + 1 }
  | _ => p

structure Totals where
  crossingFlows : ℕ
  membranes : ℕ
  signalFlows : ℕ
  underModeledFlows : ℕ
  hiddenByCap : ℕ

/-- What `computeCrossings` returns. -/
structure Crossings where
  crossings : List FlowGroup
  underModeled : List FlowGroup
  underModeledCount : ℕ
  worklistUnranked : Bool
  conduitErrors : List ConduitError
  deadConduits : List DeadConduit
  policy : PolicyCounts
  totals : Totals
  flags : List Flag

/-- A group that is not for the muted tail. -/
def FlowGroup.listed (g : FlowGroup) : Bool :=
  g.signal || g.escalated

variable (effectiveZones : EffectiveZones) (localeCompare : String → String → Ordering)

def computeCrossings : Crossings :=
  let result := evaluateDataFlowPolicy mg effectiveZones localeCompare
  let s := mg.flows.foldl (crossingsStep mg ledger result.byFlow) ⟨[], 0, 0, 0, [], []⟩
  let crossings := sortBy (byFlowRankDesc localeCompare) (s.groups.filter FlowGroup.listed)
  let underModeled := sortBy (byFlowRankDesc localeCompare) (s.groups.filter fun g => !g.listed)
  { crossings := crossings
    underModeled := underModeled
    underModeledCount := underModeled.length
    worklistUnranked := !crossings.isEmpty && !worklistHasDifferentiator crossings
    conduitErrors := result.conduitErrors
    deadConduits := result.deadConduits
    policy := s.groups.foldl countVerdict ⟨result.fails, 0, 0, 0⟩
    totals := {
      crossingFlows := s.groups.length
      membranes := s.membraneCount
      signalFlows := crossings.length
      underModeledFlows := underModeled.length
      hiddenByCap := s.hiddenByCap }
    flags := flagsOf mg s }

end ThreatReport
