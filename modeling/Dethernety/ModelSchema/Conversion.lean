import Dethernety.Foundations.Nesting
import Dethernety.Foundations.Record

/-!
# The two formats of a threat model

Model of the formats and conversions of `model.schema.ts`: a monolithic model carries the attributes
of an element on the element, a split model carries them in bags that are keyed by element id. `J` is
the type of the JSON values that the conversions copy and never look into (positions, references,
lists of controls, attributes). Element ids are UUIDs and so never the name of a member of
`Object.prototype`.
-/

namespace ModelSchema

/-- A field that may be absent, `null` or a value. -/
inductive Nullable (α : Type)
  | absent
  | null
  | value (a : α)

namespace Nullable

variable {α : Type}

/-- The value, if there is one. -/
def toOption : Nullable α → Option α
  | value a => some a
  | _ => none

/-- A value or `undefined`. -/
def ofOption : Option α → Nullable α
  | some a => value a
  | none => absent

/-- `null` read as absent. -/
def dropNull : Nullable α → Nullable α
  | null => absent
  | x => x

/-- `a !== undefined ? a : b` -/
def orUndefined : Nullable α → Nullable α → Nullable α
  | absent, b => b
  | a, _ => a

/-- `a ?? b` -/
def orNullish : Nullable α → Nullable α → Nullable α
  | value a, _ => value a
  | _, b => b

end Nullable

inductive ComponentType
  | process
  | externalEntity
  | store

section

variable (J : Type)

structure MonolithicComponent where
  id : String
  name : String
  description : Option String
  type : ComponentType
  positionX : J
  positionY : J
  parentBoundary : Option J
  classData : Nullable J
  attributes : Nullable J
  controls : Option J
  dataItemIds : Option J
  representedModel : Option J
  crownJewel : Option Bool

/-- The fields of a `MonolithicBoundary` beside its `boundaries` and `components`. -/
structure MonolithicBoundaryData where
  id : String
  name : String
  description : Option String
  positionX : Option J
  positionY : Option J
  dimensionsWidth : Option J
  dimensionsHeight : Option J
  dimensionsMinWidth : Option J
  dimensionsMinHeight : Option J
  parentBoundary : Option J
  classData : Nullable J
  attributes : Nullable J
  controls : Option J
  dataItemIds : Option J
  representedModel : Option J
  zone : Nullable J
  domains : Option J
  planes : Option J
  conduits : Option J

abbrev MonolithicBoundary := Nesting (MonolithicBoundaryData J) (MonolithicComponent J)

/-- `MonolithicDataFlow`; `DataFlow` of the split format has the same fields. -/
structure MonolithicDataFlow where
  id : String
  name : String
  description : Option String
  source : J
  target : J
  sourceHandle : Option J
  targetHandle : Option J
  classData : Nullable J
  attributes : Nullable J
  controls : Option J
  dataItemIds : Option J

/-- `MonolithicDataItem`; `DataItem` of the split format has the same fields. -/
structure MonolithicDataItem where
  id : String
  name : String
  description : Option String
  classData : Nullable J
  attributes : Nullable J
  sensitivity : Option String
  regulatory_flags : Option J
  origin : Option String
  is_credential : Option Bool
  controls : Option J

structure MonolithicModel where
  id : Nullable String
  name : String
  description : Option String
  scope : Option J
  controls : Option J
  defaultBoundary : MonolithicBoundary J
  dataFlows : Option (List (MonolithicDataFlow J))
  dataItems : Option (List (MonolithicDataItem J))
  modules : Option (List J)

end

section

variable (J : Type)

structure StructureComponent where
  id : String
  name : String
  description : Option String
  type : ComponentType
  positionX : J
  positionY : J
  parentBoundary : Option J
  classData : Nullable J
  controls : Option J
  dataItemIds : Option J
  representedModel : Option J
  crownJewel : Option Bool

/-- The fields of a `StructureBoundary` beside its `boundaries` and `components`. -/
structure StructureBoundaryData where
  id : String
  name : String
  description : Option String
  positionX : Option J
  positionY : Option J
  dimensionsWidth : Option J
  dimensionsHeight : Option J
  dimensionsMinWidth : Option J
  dimensionsMinHeight : Option J
  parentBoundary : Option J
  classData : Nullable J
  controls : Option J
  dataItemIds : Option J
  representedModel : Option J
  zone : Nullable J
  domains : Option J
  planes : Option J
  conduits : Option J

abbrev StructureBoundary := Nesting (StructureBoundaryData J) (StructureComponent J)

inductive AttributeElementType
  | boundary
  | component
  | dataFlow
  | dataItem

structure ElementAttributes where
  elementId : String
  elementType : AttributeElementType
  elementName : Option String
  classData : Option J
  attributes : J

structure ConsolidatedAttributesFile where
  boundaries : Option (Record String (ElementAttributes J))
  components : Option (Record String (ElementAttributes J))
  dataFlows : Option (Record String (ElementAttributes J))
  dataItems : Option (Record String (ElementAttributes J))

structure ModelMetadata where
  id : Option String
  name : String
  description : Option String
  defaultBoundaryId : String
  controls : Option J
  scope : Option J

/-- The fields of `ModelManifest` that the conversions set. -/
structure ModelManifest where
  schemaVersion : String
  format : String
  model : ModelMetadata J
  modules : List J
  exportedAt : Option String

/-- `SplitModel`; its `structure` is only the default boundary. -/
structure SplitModel where
  manifest : ModelManifest J
  defaultBoundary : StructureBoundary J
  dataFlows : List (MonolithicDataFlow J)
  dataItems : List (MonolithicDataItem J)
  attributes : ConsolidatedAttributesFile J

end

variable {J : Type}

/-- The fields that `extractStructureBoundary` copies. -/
def extractStructureBoundaryData (boundary : MonolithicBoundaryData J) : StructureBoundaryData J where
  id := boundary.id
  name := boundary.name
  description := boundary.description
  positionX := boundary.positionX
  positionY := boundary.positionY
  dimensionsWidth := boundary.dimensionsWidth
  dimensionsHeight := boundary.dimensionsHeight
  dimensionsMinWidth := boundary.dimensionsMinWidth
  dimensionsMinHeight := boundary.dimensionsMinHeight
  parentBoundary := boundary.parentBoundary
  classData := boundary.classData
  controls := boundary.controls
  dataItemIds := boundary.dataItemIds
  representedModel := boundary.representedModel
  zone := boundary.zone
  domains := boundary.domains
  planes := boundary.planes
  conduits := boundary.conduits

def extractStructureComponent (component : MonolithicComponent J) : StructureComponent J where
  id := component.id
  name := component.name
  description := component.description
  type := component.type
  positionX := component.positionX
  positionY := component.positionY
  parentBoundary := component.parentBoundary
  classData := component.classData
  controls := component.controls
  dataItemIds := component.dataItemIds
  representedModel := component.representedModel
  crownJewel := component.crownJewel

def extractStructureBoundary (boundary : MonolithicBoundary J) : StructureBoundary J :=
  boundary.map extractStructureBoundaryData extractStructureComponent

/-- The entry that `extractAttributes` makes for an element with attributes; a class that is absent
or `null` is left out. -/
def elementAttributes (elementType : AttributeElementType) (id name : String)
    (classData attributes : Nullable J) : Option (ElementAttributes J) :=
  attributes.toOption.map fun attributes =>
    { elementId := id
      elementType := elementType
      elementName := some name
      classData := classData.toOption
      attributes := attributes }

def putEntry (id : String) (entry : Option (ElementAttributes J))
    (bag : Option (Record String (ElementAttributes J))) :
    Option (Record String (ElementAttributes J)) :=
  match entry with
  | some entry => bag.map (·.set id entry)
  | none => bag

def MonolithicBoundaryData.entry (boundary : MonolithicBoundaryData J) : Option (ElementAttributes J) :=
  elementAttributes .boundary boundary.id boundary.name boundary.classData boundary.attributes

def MonolithicComponent.entry (component : MonolithicComponent J) : Option (ElementAttributes J) :=
  elementAttributes .component component.id component.name component.classData component.attributes

def MonolithicDataFlow.entry (flow : MonolithicDataFlow J) : Option (ElementAttributes J) :=
  elementAttributes .dataFlow flow.id flow.name flow.classData flow.attributes

def MonolithicDataItem.entry (item : MonolithicDataItem J) : Option (ElementAttributes J) :=
  elementAttributes .dataItem item.id item.name item.classData item.attributes

/-- `processBoundary` of `extractAttributes`: a boundary, its components, then its boundaries. -/
def processBoundary (result : ConsolidatedAttributesFile J) (boundary : MonolithicBoundary J) :
    ConsolidatedAttributesFile J :=
  boundary.fold
    (fun result b => { result with boundaries := putEntry b.id b.entry result.boundaries })
    (fun result c => { result with components := putEntry c.id c.entry result.components })
    result

def extractAttributes (model : MonolithicModel J) : ConsolidatedAttributesFile J :=
  let result : ConsolidatedAttributesFile J :=
    { boundaries := some ∅, components := some ∅, dataFlows := some ∅, dataItems := some ∅ }
  let result := processBoundary result model.defaultBoundary
  let result := (model.dataFlows.getD []).foldl (fun result flow =>
    { result with dataFlows := putEntry flow.id flow.entry result.dataFlows }) result
  (model.dataItems.getD []).foldl (fun result item =>
    { result with dataItems := putEntry item.id item.entry result.dataItems }) result

def SCHEMA_VERSION : String := "2.0.0"

/-- `monolithicToSplit`; `now` is the time of the export. -/
def monolithicToSplit (now : String) (model : MonolithicModel J) : SplitModel J where
  manifest :=
    { schemaVersion := SCHEMA_VERSION
      format := "split"
      model :=
        { id := model.id.toOption
          name := model.name
          description := model.description
          defaultBoundaryId := model.defaultBoundary.data.id
          -- a list of controls and a scope are truthy, so these are left out only when absent
          controls := model.controls
          scope := model.scope }
      modules := model.modules.getD []
      exportedAt := some now }
  defaultBoundary := extractStructureBoundary model.defaultBoundary
  dataFlows := (model.dataFlows.getD []).map fun flow =>
    { id := flow.id
      name := flow.name
      description := flow.description
      source := flow.source
      target := flow.target
      sourceHandle := flow.sourceHandle
      targetHandle := flow.targetHandle
      classData := flow.classData
      controls := flow.controls
      dataItemIds := flow.dataItemIds
      attributes := flow.attributes }
  dataItems := (model.dataItems.getD []).map fun item =>
    { id := item.id
      name := item.name
      description := item.description
      classData := item.classData
      attributes := item.attributes
      sensitivity := item.sensitivity
      regulatory_flags := item.regulatory_flags
      origin := item.origin
      is_credential := item.is_credential
      controls := item.controls }
  attributes := extractAttributes model

/-- `bag?.[id]` -/
def lookupEntry (bag : Option (Record String (ElementAttributes J))) (id : String) :
    Option (ElementAttributes J) :=
  bag.bind (·.get? id)

/-- The class and the attributes of an entry, `undefined` without one. -/
def entryClass (entry : Option (ElementAttributes J)) : Nullable J :=
  .ofOption (entry.bind (·.classData))

def entryAttributes (entry : Option (ElementAttributes J)) : Nullable J :=
  .ofOption (entry.map (·.attributes))

/-- The fields that `injectAttributesBoundary` copies. -/
def injectAttributesBoundaryData (attributes : ConsolidatedAttributesFile J)
    (boundary : StructureBoundaryData J) : MonolithicBoundaryData J :=
  let boundaryAttrs := lookupEntry attributes.boundaries boundary.id
  { id := boundary.id
    name := boundary.name
    description := boundary.description
    positionX := boundary.positionX
    positionY := boundary.positionY
    dimensionsWidth := boundary.dimensionsWidth
    dimensionsHeight := boundary.dimensionsHeight
    dimensionsMinWidth := boundary.dimensionsMinWidth
    dimensionsMinHeight := boundary.dimensionsMinHeight
    parentBoundary := boundary.parentBoundary
    classData := boundary.classData.orUndefined (entryClass boundaryAttrs)
    attributes := entryAttributes boundaryAttrs
    controls := boundary.controls
    dataItemIds := boundary.dataItemIds
    representedModel := boundary.representedModel
    zone := boundary.zone
    domains := boundary.domains
    planes := boundary.planes
    conduits := boundary.conduits }

/-- The component that `injectAttributesBoundary` rebuilds. -/
def injectAttributesComponent (attributes : ConsolidatedAttributesFile J)
    (c : StructureComponent J) : MonolithicComponent J :=
  let componentAttrs := lookupEntry attributes.components c.id
  { id := c.id
    name := c.name
    description := c.description
    type := c.type
    positionX := c.positionX
    positionY := c.positionY
    parentBoundary := c.parentBoundary
    classData := c.classData.orUndefined (entryClass componentAttrs)
    attributes := entryAttributes componentAttrs
    controls := c.controls
    dataItemIds := c.dataItemIds
    representedModel := c.representedModel
    crownJewel := some (c.crownJewel = some true) }

def injectAttributesBoundary (boundary : StructureBoundary J)
    (attributes : ConsolidatedAttributesFile J) : MonolithicBoundary J :=
  boundary.map (injectAttributesBoundaryData attributes) (injectAttributesComponent attributes)

def splitToMonolithic (split : SplitModel J) : MonolithicModel J where
  id := match split.manifest.model.id with
    | some id => .value id
    | none => .null
  name := split.manifest.model.name
  description := split.manifest.model.description
  scope := split.manifest.model.scope
  controls := split.manifest.model.controls
  defaultBoundary := injectAttributesBoundary split.defaultBoundary split.attributes
  dataFlows := some (split.dataFlows.map fun flow =>
    let attrs := lookupEntry split.attributes.dataFlows flow.id
    { flow with
      classData := flow.classData.orUndefined (entryClass attrs)
      attributes := (entryAttributes attrs).orNullish flow.attributes })
  dataItems := some (split.dataItems.map fun item =>
    let attrs := lookupEntry split.attributes.dataItems item.id
    { item with
      classData := item.classData.orUndefined (entryClass attrs)
      attributes := (entryAttributes attrs).orNullish item.attributes })
  modules := some split.manifest.modules

end ModelSchema
