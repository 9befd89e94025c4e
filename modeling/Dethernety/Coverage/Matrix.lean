import Dethernety.Coverage.Aggregate

/-!
# The coverage view

Model of `buildCoverageView` and `filterByTier` of `coverageMatrix.js`: the facts of the aggregation are joined with
the ledger of the snapshot. The loop over the exposures counts what is off the grid and hands the rest, technique by
technique, to the buckets, to the covering controls and to the grid.
-/

open Record

namespace Coverage

open ThreatReport (sortBy)

/-! ## The ledger -/

structure SupportingControl where
  id : String
  name : Option String

structure Finding where
  id : String
  dispositionKind : Option String

structure LedgerElement where
  id : String
  name : Option String
  type : String
  supportingControls : List SupportingControl
  findings : List Finding

def isLiveKind (kind : Option String) : Bool :=
  kind = none || kind = some "AFFIRMED"

/-- `a || b` for a text that may be missing. -/
def orText (a : Option String) (b : String) : String :=
  (a.filter (· ≠ "")).getD b

def nameById (ledger : List LedgerElement) : Record String String :=
  ledger.foldl (fun m el => if el.id = "" then m else m.set el.id (orText el.name el.id)) ∅

def controlsById (ledger : List LedgerElement) : Record String (List SupportingControl) :=
  ledger.foldl (fun m el => if el.id = "" then m else m.set el.id el.supportingControls) ∅

def setDisposition (m : Record String (Option String)) (f : Finding) : Record String (Option String) :=
  if f.id = "" then m else m.set f.id f.dispositionKind

def dispositionById (ledger : List LedgerElement) : Record String (Option String) :=
  ledger.foldl (fun m el => el.findings.foldl setDisposition m) ∅

def isLive (ledger : List LedgerElement) (exposureId : String) : Bool :=
  isLiveKind ((dispositionById ledger).get? exposureId).join

/-! ## Tiers -/

def TIER_RANK : CoverageTier → ℕ
  | .DIRECT => 3
  | .INDIRECT_MITIGATION => 2
  | .INDIRECT_D3FEND => 1

inductive Status
  | PREVENT
  | DETECT_ONLY
  | UNCOVERED
  deriving DecidableEq

structure Reduction where
  covered : Bool
  status : Status
  bestTier : Option CoverageTier

def betterTier (best : Option CoverageTier) (tf : TierFact) : Option CoverageTier :=
  match best with
  | none => some tf.tier
  | some b => if TIER_RANK b < TIER_RANK tf.tier then some tf.tier else some b

def reduceTiers (tierFacts : List TierFact) : Reduction :=
  if tierFacts.isEmpty then { covered := false, status := .UNCOVERED, bestTier := none }
  else
    { covered := true
      status := if tierFacts.any (·.function = .PREVENT) then .PREVENT else .DETECT_ONLY
      bestTier := tierFacts.foldl betterTier none }

/-! ## The loop over the exposures -/

def GRID_KINDS : List String :=
  ["Component", "DataFlow"]

def ELEMENT_CLASSES : List String :=
  ["Component", "DataFlow", "SecurityBoundary"]

structure Bucket where
  directPrevent : Members String
  directDetect : Members String
  mitigation : Members String
  d3fend : Members String
  detectOnly : Members String
  uncovered : Members String

structure GridCell where
  tactics : Record String Tactic
  elementsTotal : Members String
  elementsCovered : Members String
  cms : Members String
  controls : Members String
  facts : List TierFact

/-- What is gathered of the exposures that are graded. -/
structure Graded where
  bucket : Bucket
  coveringControlsByElement : Record String (Members String)
  allCoveringControls : Members String
  grid : Record String GridCell

structure DataTechnique where
  techniqueId : String
  name : Option String
  tactics : List Tactic
  description : Option String

structure Acc where
  softCount : ℕ
  dataMappedCount : ℕ
  dispositionedExcluded : ℕ
  dataMappedByElement : Record String (List DataTechnique)
  graded : Graded

def pairKey (e : ExposureCoverage) (t : TechniqueCoverage) : String :=
  e.exposureId ++ "|" ++ t.techniqueId

def countFact (key : String) (b : Bucket) (tf : TierFact) : Bucket where
  directPrevent := if tf.tier = .DIRECT ∧ tf.function = .PREVENT then b.directPrevent.add key else b.directPrevent
  directDetect := if tf.tier = .DIRECT ∧ tf.function = .DETECT then b.directDetect.add key else b.directDetect
  mitigation := if tf.tier = .INDIRECT_MITIGATION then b.mitigation.add key else b.mitigation
  d3fend := if tf.tier = .INDIRECT_D3FEND then b.d3fend.add key else b.d3fend
  detectOnly := b.detectOnly
  uncovered := b.uncovered

def visitBucket (b : Bucket) (e : ExposureCoverage) (t : TechniqueCoverage) : Bucket :=
  let red := reduceTiers t.tiers
  let b := t.tiers.foldl (countFact (pairKey e t)) b
  if !red.covered then { b with uncovered := b.uncovered.add (pairKey e t) }
  else if red.status = .DETECT_ONLY then { b with detectOnly := b.detectOnly.add (pairKey e t) }
  else b

def controlsOf (tiers : List TierFact) : List String :=
  tiers.flatMap (·.controlIds)

def visitCell (e : ExposureCoverage) (t : TechniqueCoverage) (g : Option GridCell) : GridCell :=
  let g := g.getD ⟨∅, ∅, ∅, ∅, ∅, []⟩
  { tactics := t.tactics.foldl setTactic g.tactics
    elementsTotal := g.elementsTotal.add e.elementId
    elementsCovered :=
      if (reduceTiers t.tiers).covered then g.elementsCovered.add e.elementId else g.elementsCovered
    cms := g.cms.addAll (t.tiers.flatMap (·.countermeasureIds))
    controls := g.controls.addAll (controlsOf t.tiers)
    facts := g.facts ++ t.tiers }

def ExposureCoverage.inGrid (e : ExposureCoverage) : Bool :=
  e.elementKind.any (· ∈ GRID_KINDS)

def visitTechnique (e : ExposureCoverage) (g : Graded) (t : TechniqueCoverage) : Graded :=
  if t.techniqueId = "" then g
  else
    let covered := (reduceTiers t.tiers).covered
    { bucket := visitBucket g.bucket e t
      coveringControlsByElement :=
        if covered then
          g.coveringControlsByElement.update e.elementId fun set => (set.getD ∅).addAll (controlsOf t.tiers)
        else g.coveringControlsByElement
      allCoveringControls :=
        if covered then g.allCoveringControls.addAll (controlsOf t.tiers) else g.allCoveringControls
      grid := if e.inGrid then g.grid.update t.techniqueId (visitCell e t) else g.grid }

def visitDataTechnique (info : Record String TechniqueInfo) (t : TechniqueCoverage)
    (techs : Option (List DataTechnique)) : List DataTechnique :=
  let techs := techs.getD []
  if techs.any (·.techniqueId = t.techniqueId) then techs
  else
    techs ++ [⟨t.techniqueId, (info.get? t.techniqueId).bind (·.name), t.tactics,
      (info.get? t.techniqueId).bind (·.description)⟩]

def visitExposure (ledger : List LedgerElement) (info : Record String TechniqueInfo) (acc : Acc)
    (e : ExposureCoverage) : Acc :=
  if !isLive ledger e.exposureId then { acc with dispositionedExcluded := acc.dispositionedExcluded + 1 }
  else if e.soft then { acc with softCount := acc.softCount + 1 }
  else if e.elementKind = some "Data" then
    { acc with
      dataMappedCount := acc.dataMappedCount + 1
      dataMappedByElement := e.techniques.foldl
        (fun m t => if t.techniqueId = "" then m else m.update e.elementId (visitDataTechnique info t))
        acc.dataMappedByElement }
  else { acc with graded := e.techniques.foldl (visitTechnique e) acc.graded }

def Bucket.empty : Bucket :=
  ⟨∅, ∅, ∅, ∅, ∅, ∅⟩

def Graded.empty : Graded :=
  ⟨Bucket.empty, ∅, ∅, ∅⟩

def Acc.empty : Acc :=
  ⟨0, 0, 0, ∅, Graded.empty⟩

def accumulate (coverage : CoverageResult) (ledger : List LedgerElement) : Acc :=
  coverage.exposures.foldl (visitExposure ledger coverage.techniques) Acc.empty

/-! ## The view -/

structure GridElement where
  id : String
  name : String
  covered : Bool
  deriving DecidableEq

structure Row where
  techniqueId : String
  name : Option String
  description : Option String
  tactics : List Tactic
  bestTier : Option CoverageTier
  status : Status
  covered : Bool
  elementsTotal : ℕ
  elementsCovered : ℕ
  elements : List GridElement
  countermeasureIds : List String
  controlIds : List String
  deriving DecidableEq

structure DataMapped where
  elementId : String
  elementName : String
  techniques : List DataTechnique
  controls : List (String × String)

structure OffGrid where
  softCount : ℕ
  dataMappedCount : ℕ
  dispositionedExcluded : ℕ
  dataMapped : List DataMapped

structure Summary where
  directPrevent : ℕ
  directDetect : ℕ
  mitigation : ℕ
  d3fend : ℕ
  detectOnly : ℕ
  uncovered : ℕ
  soft : ℕ
  defenseInDepth : ℕ

/-- A view that is available; `hasLegacyTactics` holds of no result of the aggregation. -/
structure CoverageView where
  generatedAt : String
  tactics : List Tactic
  rows : List Row
  offGrid : OffGrid
  structuralGaps : List String
  summary : Summary
  mismatchByElement : Record String (List String)

section

variable (localeCompare : String → String → Ordering) (ledger : List LedgerElement)

/-- `covered` elements come last, and the names are in order. -/
def compareElements (a b : GridElement) : Ordering :=
  (compare a.covered.toNat b.covered.toNat).then (localeCompare a.name b.name)

def gridRow (info : Record String TechniqueInfo) (techniqueId : String) (g : GridCell) : Row where
  techniqueId := techniqueId
  name := (info.get? techniqueId).bind (·.name)
  description := (info.get? techniqueId).bind (·.description)
  tactics := sortBy compareTactics (g.tactics.entries.map Prod.snd)
  bestTier := (reduceTiers g.facts).bestTier
  status := (reduceTiers g.facts).status
  covered := (reduceTiers g.facts).covered
  elementsTotal := g.elementsTotal.size
  elementsCovered := g.elementsCovered.size
  elements := sortBy (compareElements localeCompare) (g.elementsTotal.keys.map fun id =>
    ⟨id, ((nameById ledger).get? id).getD id, decide (id ∈ g.elementsCovered.keys)⟩)
  countermeasureIds := sortedMembers g.cms
  controlIds := sortedMembers g.controls

def dataMappedEntry (elementId : String) (techs : List DataTechnique) : DataMapped where
  elementId := elementId
  elementName := ((nameById ledger).get? elementId).getD elementId
  techniques := sortBy (fun a b => localeCompare a.techniqueId b.techniqueId) techs
  controls := sortBy (fun a b => localeCompare a.2 b.2) <|
    ((((controlsById ledger).get? elementId).getD []).filter (·.id ≠ "")).map fun c => (c.id, orText c.name c.id)

/-- The element classes of the model that have no supporting control at all. -/
def structuralGaps : List String :=
  ELEMENT_CLASSES.filter fun c =>
    ledger.any (fun el => el.type = c) && !ledger.any fun el => el.type = c && !el.supportingControls.isEmpty

/-- The ids of the controls of an element. -/
def LedgerElement.supporting (el : LedgerElement) : List String :=
  (el.supportingControls.map (·.id)).filter (· ≠ "")

def defenseInDepth (allCoveringControls : Members String) : ℕ :=
  let all : Members String := ledger.foldl (fun s el => if el.type = "Data" then s else s.addAll el.supporting) ∅
  (all.keys.filter (· ∉ allCoveringControls.keys)).length

/-- The supporting controls of an element that cover none of its exposures. -/
def mismatched (covering : Record String (Members String)) (el : LedgerElement) : List String :=
  el.supporting.filter fun c => c ∉ ((covering.get? el.id).getD ∅).keys

def mismatchByElement (covering : Record String (Members String)) : Record String (List String) :=
  ledger.foldl (fun m el =>
    if el.type = "Data" || (mismatched covering el).isEmpty then m else m.set el.id (mismatched covering el)) ∅

def buildCoverageView (coverage : CoverageResult) : CoverageView :=
  let acc := accumulate coverage ledger
  let rows := sortBy (fun a b => localeCompare a.techniqueId b.techniqueId)
    (acc.graded.grid.entries.map fun g => gridRow localeCompare ledger coverage.techniques g.1 g.2)
  let tacticById : Record String Tactic := (acc.graded.grid.entries.flatMap fun g =>
    (gridRow localeCompare ledger coverage.techniques g.1 g.2).tactics).foldl (fun m t => m.set t.id t) ∅
  { generatedAt := coverage.generatedAt
    tactics := sortBy compareTactics (tacticById.entries.map Prod.snd)
    rows := rows
    offGrid :=
      { softCount := acc.softCount
        dataMappedCount := acc.dataMappedCount
        dispositionedExcluded := acc.dispositionedExcluded
        dataMapped := sortBy (fun a b => localeCompare a.elementName b.elementName)
          (acc.dataMappedByElement.entries.map fun d => dataMappedEntry localeCompare ledger d.1 d.2) }
    structuralGaps := structuralGaps ledger
    summary :=
      { directPrevent := acc.graded.bucket.directPrevent.size
        directDetect := acc.graded.bucket.directDetect.size
        mitigation := acc.graded.bucket.mitigation.size
        d3fend := acc.graded.bucket.d3fend.size
        detectOnly := acc.graded.bucket.detectOnly.size
        uncovered := acc.graded.bucket.uncovered.size
        soft := acc.softCount
        defenseInDepth := defenseInDepth ledger acc.graded.allCoveringControls }
    mismatchByElement := mismatchByElement ledger acc.graded.coveringControlsByElement }

end

def tierText : CoverageTier → String
  | .DIRECT => "DIRECT"
  | .INDIRECT_MITIGATION => "INDIRECT_MITIGATION"
  | .INDIRECT_D3FEND => "INDIRECT_D3FEND"

def filterByTier (rows : List Row) (tier : String) : List Row :=
  if tier = "all" || tier = "" then rows
  else if tier = "UNCOVERED" then rows.filter (!·.covered)
  else rows.filter fun r => r.bestTier.map tierText = some tier

end Coverage
