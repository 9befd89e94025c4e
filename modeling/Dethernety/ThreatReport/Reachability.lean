import Dethernety.Foundations.Search
import Dethernety.ThreatReport.BoundaryCrossings

/-!
# Flow routes

Model of the projection, the searches and `chokePoints` of `reachability.js`. The projection maps a
component to its hops; a flow with an end that is no component of the graph is no hop.
-/

namespace ThreatReport

open Search

section

/-- A hop to a component. In the backward map of the projection it goes against its flow. -/
structure Hop where
  flowId : String
  flowName : String
  sensitivities : List Sensitivity
  node : String

/-- The hops of the components. -/
abbrev Adjacency := Record String (List Hop)

/-- `adjMap.get(id) ?? []` -/
def hopsOf (adj : Adjacency) (id : String) : List Hop :=
  (adj.get? id).getD []

/-- The components that a hop goes to. -/
def successors (adj : Adjacency) (id : String) : List String :=
  (hopsOf adj id).map Hop.node

/-- Push a hop of `id`; the list is made where it is missing. -/
def pushHop (adj : Adjacency) (id : String) (hop : Hop) : Adjacency :=
  adj.set id (hopsOf adj id ++ [hop])

/-- What `buildProjection` makes of the flows. -/
structure Projection where
  forward : Adjacency
  backward : Adjacency

variable (mg : ModelGraph)

/-- The ends of a flow between two components. -/
def hopEnds (f : ModelGraphFlow) : Option (String × String) :=
  (flowEnds f).filter fun e =>
    ((componentById mg).get? e.1).isSome && ((componentById mg).get? e.2).isSome

/-- A round of the loop over the flows. -/
def projectFlow (p : Projection) (f : ModelGraphFlow) : Projection :=
  match hopEnds mg f with
  | none => p
  | some (sourceId, targetId) =>
    { forward := pushHop p.forward sourceId ⟨f.id, f.name, f.sensitivities, targetId⟩
      backward := pushHop p.backward targetId ⟨f.id, f.name, f.sensitivities, sourceId⟩ }

def buildProjection : Projection :=
  mg.flows.foldl (projectFlow mg) ⟨∅, ∅⟩

end

/-- The ids that a search over `adj` can see. -/
def searchSpace (adj : Adjacency) (startIds : List String) : List String :=
  startIds ++ adj.entries.flatMap fun e => e.2.map Hop.node

/-- `closure`, for distinct start ids -/
def closure (adj : Adjacency) (startIds : List String) : List String :=
  (search (successors adj) (searchSpace adj startIds).length (.start startIds)).seen

/-- The variables of `bfsShortest`; `prev` has for a component the one before it and the flow. -/
structure BfsState where
  prev : Record String (String × String)
  frontier : Frontier String

/-- The loop of `bfsShortest` over the hops of `cur`: `prev` when it has come to the target. -/
def bfsRow (targetId cur : String) : List Hop → BfsState → Record String (String × String) ⊕ BfsState
  | [], s => .inr s
  | e :: hops, s =>
    if e.node ∈ s.frontier.seen then bfsRow targetId cur hops s
    else
      let prev := s.prev.set e.node (cur, e.flowId)
      if e.node = targetId then .inl prev
      else bfsRow targetId cur hops ⟨prev, s.frontier.discover e.node⟩

/-- The loop of `bfsShortest` over the queue. -/
def bfsLoop (forward : Adjacency) (targetId : String) :
    ℕ → BfsState → Option (Record String (String × String))
  | 0, _ => none
  | fuel + 1, s =>
    match s.frontier.queue with
    | [] => none
    | cur :: rest =>
      match bfsRow targetId cur (hopsOf forward cur) { s with frontier := ⟨s.frontier.seen, rest⟩ } with
      | .inl prev => some prev
      | .inr s => bfsLoop forward targetId fuel s

/-- The loop that walks back over `prev`. -/
def walkBack (prev : Record String (String × String)) :
    ℕ → String → List String × List String → List String × List String
  | 0, _, route => route
  | fuel + 1, c, route =>
    match prev.get? c with
    | none => route
    | some (source, flowId) => walkBack prev fuel source (source :: route.1, flowId :: route.2)

/-- What `bfsShortest` returns. -/
structure ShortestRoute where
  reachable : Bool
  hops : Option ℕ
  nodes : List String
  edges : List String

/-- `bfsShortest`, for distinct origins -/
def bfsShortest (forward : Adjacency) (originSet : List String) (targetId : String) : ShortestRoute :=
  if targetId ∈ originSet then ⟨true, some 0, [targetId], []⟩
  else
    match bfsLoop forward targetId (searchSpace forward originSet).length ⟨∅, .start originSet⟩ with
    | some prev =>
      let route := walkBack prev prev.keys.length targetId ([targetId], [])
      ⟨true, some (route.1.length - 1), route.1, route.2⟩
    | none => ⟨false, none, [], []⟩

/-- The loop of `reachableSkipping` over the hops of a component: `none` when it returns `true`. -/
def skipRow (targetId skipId : String) : List Hop → Frontier String → Option (Frontier String)
  | [], f => some f
  | e :: hops, f =>
    if e.node = skipId then skipRow targetId skipId hops f
    else if e.node = targetId then none
    else skipRow targetId skipId hops (f.discover e.node)

/-- The loop of `reachableSkipping` over the queue. -/
def skipLoop (forward : Adjacency) (targetId skipId : String) : ℕ → Frontier String → Bool
  | 0, _ => false
  | fuel + 1, f =>
    match f.queue with
    | [] => false
    | cur :: rest =>
      match skipRow targetId skipId (hopsOf forward cur) ⟨f.seen, rest⟩ with
      | none => true
      | some f => skipLoop forward targetId skipId fuel f

def reachableSkipping (forward : Adjacency) (originId targetId skipId : String) : Bool :=
  if originId = skipId then false
  else
    skipLoop forward targetId skipId (searchSpace forward [originId]).length (.start [originId])

def sensitivityLabel : Option Sensitivity → String
  | none => "unknown"
  | some .publicLevel => "Public"
  | some .internal => "Internal"
  | some .confidential => "Confidential"
  | some .restricted => "Restricted"

/-- An entry of `dataHandledByNode`. -/
structure HandledData where
  id : String
  name : String
  sensitivity : Option Sensitivity
  sensitivityLabel : String

/-- An entry of the view. -/
structure ChokePoint where
  id : String
  name : String
  type : Option String
  minHops : Option ℕ
  worstBand : Option Band
  liveCount : ℕ
  hasControl : Bool
  crownJewel : Bool
  /-- The ids and names of the boundaries. -/
  crossings : List (String × String × MembraneDirection)
  crossingCount : ℕ
  dataHandled : List HandledData

/-- What `chokePoints` returns. -/
structure ChokeView where
  originId : String
  originName : Option String
  hasOrigin : Bool
  targetId : String
  targetName : Option String
  hasTarget : Bool
  sameNode : Bool
  reachable : Bool
  hasDirectFlow : Bool
  chokePoints : List ChokePoint

variable (mg : ModelGraph) (ledger : List LedgerElement)
variable (localeCompare : String → String → Ordering)

def crossingsForHop (srcId dstId : String) : List (String × String × MembraneDirection) :=
  (orderedMembranes mg srcId dstId).map fun m =>
    (m.1, (((boundaryById mg).get? m.1).map ModelGraphBoundary.name).getD "(unknown boundary)", m.2)

def dataHandledByNode (id : String) : List HandledData :=
  let handled := (mg.dataNodes.filter fun d => d.handledBy.contains id).map fun d =>
    ⟨d.id, d.name, d.sensitivity, sensitivityLabel d.sensitivity⟩
  sortBy (fun a b => (compare (rankOfSensitivity b.sensitivity) (rankOfSensitivity a.sensitivity)).then
    (localeCompare a.name b.name)) handled

/-- The comparison of `(orderIndex.get(a) ?? Infinity) - (orderIndex.get(b) ?? Infinity)` with 0. -/
def compareIndex : Option ℕ → Option ℕ → Ordering
  | some i, some j => compare i j
  | some _, none => .lt
  | none, some _ => .gt
  | none, none => .eq

/-- `chokeIds`: the ids of the choke points in their order -/
def chokeIdsOf (proj : Projection) (originId targetId : String) : List String :=
  let fwd := closure proj.forward [originId]
  let bwd := closure proj.backward [targetId]
  let candidates := fwd.filter fun id => id ∈ bwd ∧ id ≠ originId ∧ id ≠ targetId
  let chokeSet := candidates.filter fun v => !reachableSkipping proj.forward originId targetId v
  let sp := bfsShortest proj.forward [originId] targetId
  let orderIndex : Record String ℕ := .ofList sp.nodes.zipIdx
  sortBy (fun a b => compareIndex (orderIndex.get? a) (orderIndex.get? b)) chokeSet

def chokePointOf (proj : Projection) (originId id : String) : ChokePoint :=
  let c := (componentById mg).get? id
  let element := (ledgerById ledger).get? id
  let p := postureOf element
  let crossings := crossingsForHop mg originId id
  { id := id
    name := ((c.map ModelGraphComponent.name).or (element.map LedgerElement.name)).getD
      "(not in snapshot)"
    type := c.bind ModelGraphComponent.type
    minHops := (bfsShortest proj.forward [originId] id).hops
    worstBand := p.worstBand
    liveCount := p.liveCount
    hasControl := p.hasControl
    crownJewel := (c.map ModelGraphComponent.crownJewel).getD false
    crossings := crossings
    crossingCount := crossings.length
    dataHandled := dataHandledByNode mg localeCompare id }

def chokePoints (originId targetId : String) : ChokeView :=
  let proj := buildProjection mg
  let origin := (componentById mg).get? originId
  let target := (componentById mg).get? targetId
  let base : ChokeView := {
    originId := originId
    originName := origin.map ModelGraphComponent.name
    hasOrigin := origin.isSome
    targetId := targetId
    targetName := target.map ModelGraphComponent.name
    hasTarget := target.isSome
    sameNode := false
    reachable := false
    hasDirectFlow := false
    chokePoints := [] }
  if origin.isNone || target.isNone then base
  else if originId = targetId then { base with sameNode := true, reachable := true }
  else if targetId ∉ closure proj.forward [originId] then base
  else if targetId ∈ successors proj.forward originId then
    { base with reachable := true, hasDirectFlow := true }
  else
    { base with
      reachable := true
      chokePoints := (chokeIdsOf proj originId targetId).map
        (chokePointOf mg ledger localeCompare proj originId) }

end ThreatReport
