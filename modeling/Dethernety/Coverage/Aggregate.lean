import Dethernety.Foundations.Grouping
import Dethernety.Foundations.Text
import Dethernety.ThreatReport.ModelGraph

/-!
# The coverage aggregation

Model of `aggregateCoverage.ts`: the flat rows of four queries become one entry for each exposure, with the facts of
each tier for each of its techniques. `localeCompare` is a parameter; the sorts that use it only order their lists.
-/

namespace Coverage

open ThreatReport (sortBy)

inductive CoverageTier
  | DIRECT
  | INDIRECT_MITIGATION
  | INDIRECT_D3FEND
  deriving DecidableEq

inductive CoverageFunction
  | PREVENT
  | DETECT
  deriving DecidableEq

structure Tactic where
  id : String
  name : String
  order : ℤ
  deriving DecidableEq

/-- A comparison with `<` of strings, which is one of their UTF-16 units. -/
def compareTexts (a b : String) : Ordering :=
  if CharCode.utf16.encode a.toList < CharCode.utf16.encode b.toList then .lt
  else if CharCode.utf16.encode b.toList < CharCode.utf16.encode a.toList then .gt
  else .eq

def compareTactics (a b : Tactic) : Ordering :=
  (compare a.order b.order).then (compareTexts a.id b.id)

/-! ## Rows -/

structure BaseRow where
  elementId : String
  elementKind : Option String
  exposureId : String
  techniqueId : Option String
  techniqueName : Option String
  techniqueDescription : Option String
  tactics : List Tactic

structure TechniqueInfo where
  name : Option String
  description : Option String

structure DirectRow where
  exposureId : String
  techniqueId : String
  cmId : String
  controlId : String
  relType : String

structure MitigationRow where
  exposureId : String
  techniqueId : String
  cmId : String
  controlId : String

structure D3fendRow where
  exposureId : String
  techniqueId : String
  cmId : String
  controlId : String
  tactics : List String
  deriving DecidableEq

structure TierFact where
  tier : CoverageTier
  function : CoverageFunction
  countermeasureIds : List String
  controlIds : List String

structure TechniqueCoverage where
  techniqueId : String
  tactics : List Tactic
  covered : Bool
  tiers : List TierFact

structure ExposureCoverage where
  exposureId : String
  elementId : String
  elementKind : Option String
  soft : Bool
  techniques : List TechniqueCoverage

structure CoverageMeta where
  exposureCount : ℕ
  softExposureCount : ℕ
  coveredPairsByTier : CoverageTier → ℕ
  countermeasuresByTier : CoverageTier → ℕ

structure CoverageResult where
  modelId : String
  generatedAt : String
  exposures : List ExposureCoverage
  techniques : Record String TechniqueInfo
  statistics : CoverageMeta

structure AggregateInput where
  modelId : String
  generatedAt : String
  baseRows : List BaseRow
  directRows : List DirectRow
  mitigationRows : List MitigationRow
  d3fendRows : List D3fendRow

/-! ## Cells -/

/-- The key of a pair of an exposure and a technique. -/
def KEY (exposureId techniqueId : String) : String :=
  exposureId ++ " " ++ techniqueId

/-- A test with the flag `i`; the word is in lower case. -/
def containsWord (word text : String) : Bool :=
  (text.toList.map Char.toLower).tails.any (word.toList.isPrefixOf ·)

def d3fendFunctions (tactics : List String) : List CoverageFunction :=
  let hasDetect := tactics.any (containsWord "detect")
  let hasPreventTactic := tactics.any fun t => containsWord "harden" t || containsWord "isolate" t
  (if hasDetect then [.DETECT] else []) ++ if hasPreventTactic || !hasDetect then [.PREVENT] else []

def directFunction (relType : String) : CoverageFunction :=
  if "_DETECTS".toList.isSuffixOf relType.toList then .DETECT else .PREVENT

structure Contrib where
  cms : Record.Members String
  controls : Record.Members String

abbrev FnMap := Record CoverageFunction Contrib

abbrev TierMap := Record CoverageTier FnMap

/-- What a call of `add` is given. -/
structure Contribution where
  exposureId : String
  techniqueId : String
  tier : CoverageTier
  function : CoverageFunction
  cmId : String
  controlId : String

/-- All ids that `add` asks for are there. -/
def Contribution.isGiven (r : Contribution) : Bool :=
  r.exposureId ≠ "" && r.techniqueId ≠ "" && r.cmId ≠ ""

def extendContrib (r : Contribution) (c : Option Contrib) : Contrib :=
  let c := c.getD ⟨∅, ∅⟩
  { cms := c.cms.add r.cmId
    controls := if r.controlId = "" then c.controls else c.controls.add r.controlId }

def extendFnMap (r : Contribution) (fm : Option FnMap) : FnMap :=
  (fm.getD ∅).update r.function (extendContrib r)

def extendTierMap (r : Contribution) (tm : Option TierMap) : TierMap :=
  (tm.getD ∅).update r.tier (extendFnMap r)

def add (cells : Record String TierMap) (r : Contribution) : Record String TierMap :=
  if r.isGiven then cells.update (KEY r.exposureId r.techniqueId) (extendTierMap r) else cells

def DirectRow.contribution (r : DirectRow) : Contribution :=
  ⟨r.exposureId, r.techniqueId, .DIRECT, directFunction r.relType, r.cmId, r.controlId⟩

def MitigationRow.contribution (r : MitigationRow) : Contribution :=
  ⟨r.exposureId, r.techniqueId, .INDIRECT_MITIGATION, .PREVENT, r.cmId, r.controlId⟩

def D3fendRow.contribution (r : D3fendRow) (fn : CoverageFunction) : Contribution :=
  ⟨r.exposureId, r.techniqueId, .INDIRECT_D3FEND, fn, r.cmId, r.controlId⟩

namespace AggregateInput

variable (input : AggregateInput)

/-- The three loops over the rows of the tiers. -/
def cells : Record String TierMap :=
  let direct := input.directRows.foldl (fun cells r => add cells r.contribution) ∅
  let mitigation := input.mitigationRows.foldl (fun cells r => add cells r.contribution) direct
  input.d3fendRows.foldl
    (fun cells r => (d3fendFunctions r.tactics).foldl (fun cells fn => add cells (r.contribution fn)) cells) mitigation

end AggregateInput

def TIER_ORDER : List CoverageTier :=
  [.DIRECT, .INDIRECT_MITIGATION, .INDIRECT_D3FEND]

def FN_ORDER : List CoverageFunction :=
  [.PREVENT, .DETECT]

/-- `[...set].sort()` -/
def sortedMembers (s : Record.Members String) : List String :=
  sortBy compareTexts s.keys

def tierFactsFor (cells : Record String TierMap) (exposureId techniqueId : String) : List TierFact :=
  match cells.get? (KEY exposureId techniqueId) with
  | none => []
  | some tm =>
    TIER_ORDER.flatMap fun tier =>
      match tm.get? tier with
      | none => []
      | some fm =>
        FN_ORDER.filterMap fun fn =>
          match fm.get? fn with
          | none => none
          | some c =>
            if c.cms.size = 0 then none else some ⟨tier, fn, sortedMembers c.cms, sortedMembers c.controls⟩

/-! ## Exposures -/

structure ExposureEntry where
  elementId : String
  elementKind : Option String
  techniques : Record String (Record String Tactic)

/-- The technique of a row; an empty id is none. -/
def BaseRow.technique (r : BaseRow) : Option String :=
  r.techniqueId.filter (· ≠ "")

/-- Keep a tactic under its id; one without an id is left out. -/
def setTactic (tac : Record String Tactic) (tactic : Tactic) : Record String Tactic :=
  if tactic.id = "" then tac else tac.set tactic.id tactic

def visitBase (r : BaseRow) (e : Option ExposureEntry) : ExposureEntry :=
  let e := e.getD ⟨r.elementId, r.elementKind, ∅⟩
  match r.technique with
  | none => e
  | some t => { e with techniques := e.techniques.update t fun tac => r.tactics.foldl setTactic (tac.getD ∅) }

def byExposure (baseRows : List BaseRow) : Record String ExposureEntry :=
  baseRows.foldl (fun m r => m.update r.exposureId (visitBase r)) ∅

/-- The name and the description of each technique, from its first row. -/
def techniqueInfo (baseRows : List BaseRow) : Record String TechniqueInfo :=
  baseRows.foldl (fun m r =>
    match r.technique with
    | none => m
    | some t => m.update t fun info => info.getD ⟨r.techniqueName, r.techniqueDescription⟩) ∅

def techniqueCoverage (cells : Record String TierMap) (exposureId techniqueId : String)
    (tactics : Record String Tactic) : TechniqueCoverage where
  techniqueId := techniqueId
  tactics := sortBy compareTactics (tactics.entries.map Prod.snd)
  covered := !(tierFactsFor cells exposureId techniqueId).isEmpty
  tiers := tierFactsFor cells exposureId techniqueId

def exposureCoverage (cells : Record String TierMap) (exposureId : String) (e : ExposureEntry) : ExposureCoverage where
  exposureId := exposureId
  elementId := e.elementId
  elementKind := e.elementKind
  soft := e.techniques.keys.isEmpty
  techniques := (sortBy compareTexts e.techniques.keys).map fun t =>
    techniqueCoverage cells exposureId t ((e.techniques.get? t).getD ∅)

/-- The countermeasures of a tier, over all cells. -/
def countermeasures (cells : Record String TierMap) (tier : CoverageTier) : Record.Members String :=
  cells.entries.foldl (fun s e => ((e.2.get? tier).getD ∅).entries.foldl (fun s c => s.addAll c.2.cms.keys) s) ∅

def aggregateCoverage (localeCompare : String → String → Ordering) (input : AggregateInput) : CoverageResult :=
  let cells := input.cells
  let exposures := sortBy (fun a b => localeCompare a.exposureId b.exposureId)
    ((byExposure input.baseRows).entries.map fun e => exposureCoverage cells e.1 e.2)
  { modelId := input.modelId
    generatedAt := input.generatedAt
    exposures := exposures
    techniques := techniqueInfo input.baseRows
    statistics :=
      { exposureCount := exposures.length
        softExposureCount := exposures.countP (·.soft)
        coveredPairsByTier := fun tier => cells.entries.countP fun e => (e.2.get? tier).isSome
        countermeasuresByTier := fun tier => (countermeasures cells tier).size } }

end Coverage
