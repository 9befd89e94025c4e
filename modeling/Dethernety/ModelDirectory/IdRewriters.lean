import Dethernety.ModelDirectory.SplitModel

/-!
# The id rewriters

Model of the rewriters of `applyIdMapping` in `directory-utils.ts`, which replace the reference ids
of the structure, the data flows and the data items by the ids of the platform. Each lists the fields
of its element that hold an id; that none is left out and none is mapped twice is the agreement of
every rewriter with the `mapId` of its element.
-/

namespace ModelDirectory

/-- A `Map<string, string>` from reference ids to platform ids. Ids are UUIDs, so the empty string is
the id of nothing, and no platform id is `__proto__`. -/
structure IdMapping where
  map : Record String String
  get?_empty : map.get? "" = none
  notProto : ∀ e ∈ map.entries, e.2 ≠ "__proto__"

def IdMapping.newId (idMapping : IdMapping) (id : String) : String :=
  match idMapping.map.get? id with
  | some newId => if newId = "" then id else newId
  | none => id

def IdMapping.newReference (idMapping : IdMapping) (id : String) : String :=
  if id = "" then id else idMapping.newId id

section

variable (idMapping : IdMapping)

/-- The mapped `controls` of an element. -/
def updateControlIds (controls : List (ControlReference String)) : List (ControlReference String) :=
  controls.map fun ctrl => { ctrl with id := idMapping.newId ctrl.id }

def updateComponentIds (component : StructureComponent String) : StructureComponent String :=
  { component with
    id := idMapping.newId component.id
    parentBoundary := component.parentBoundary.map idMapping.newReference
    dataItemIds := component.dataItemIds.map (List.map idMapping.newId)
    controls := component.controls.map (updateControlIds idMapping) }

/-- What `updateBoundaryIds` does with the fields of a boundary. -/
def updateBoundaryData (boundary : StructureBoundaryData String) : StructureBoundaryData String :=
  { boundary with
    id := idMapping.newId boundary.id
    parentBoundary := boundary.parentBoundary.map idMapping.newReference
    dataItemIds := boundary.dataItemIds.map (List.map idMapping.newId)
    conduits := boundary.conduits.map
      (List.map fun conduit => { conduit with peerId := idMapping.newId conduit.peerId })
    controls := boundary.controls.map (updateControlIds idMapping) }

mutual

def updateBoundaryIds : StructureBoundary String → StructureBoundary String
  | .node boundary boundaries components =>
    .node (updateBoundaryData idMapping boundary) (updateNestedBoundaryIds boundaries)
      (components.map (List.map (updateComponentIds idMapping)))

def updateNestedBoundaryIds :
    Option (List (StructureBoundary String)) → Option (List (StructureBoundary String))
  | none => none
  | some boundaries => some (updateBoundaryListIds boundaries)

def updateBoundaryListIds : List (StructureBoundary String) → List (StructureBoundary String)
  | [] => []
  | b :: boundaries => updateBoundaryIds b :: updateBoundaryListIds boundaries

end

def updateStructureIds (s : ModelStructure String) : ModelStructure String where
  defaultBoundary := updateBoundaryIds idMapping s.defaultBoundary

def updateDataFlowIds (flow : DataFlow String) : DataFlow String :=
  { flow with
    id := idMapping.newId flow.id
    source := idMapping.newId flow.source
    target := idMapping.newId flow.target
    dataItemIds := flow.dataItemIds.map (List.map idMapping.newId)
    controls := flow.controls.map (updateControlIds idMapping) }

def updateDataItemIds (item : DataItem String) : DataItem String :=
  { item with
    id := idMapping.newId item.id
    controls := item.controls.map (updateControlIds idMapping) }

/-- The manifest with the id of the model and the mapped id of the default boundary. -/
def updateManifest (modelId : String) (manifest : ModelManifest) : ModelManifest :=
  { manifest with
    modelId := some modelId
    defaultBoundaryId := manifest.defaultBoundaryId.map idMapping.newReference }

end

variable {idMapping : IdMapping}

lemma newId_empty : idMapping.newId "" = "" := by
  rw [IdMapping.newId, idMapping.get?_empty]

lemma newReference_eq : idMapping.newReference = idMapping.newId := by
  funext id
  by_cases h : id = ""
  · rw [IdMapping.newReference, if_pos h, h, newId_empty]
  · rw [IdMapping.newReference, if_neg h]

lemma updateComponentIds_eq : updateComponentIds idMapping = StructureComponent.mapId idMapping.newId := by
  funext component
  rw [updateComponentIds, newReference_eq]
  rfl

lemma updateBoundaryData_eq : updateBoundaryData idMapping = StructureBoundaryData.mapId idMapping.newId := by
  funext boundary
  rw [updateBoundaryData, newReference_eq]
  rfl

mutual

lemma updateBoundaryIds_eq : ∀ boundary : StructureBoundary String,
    updateBoundaryIds idMapping boundary =
      boundary.map (·.mapId idMapping.newId) (·.mapId idMapping.newId)
  | .node _ boundaries _ => by
    rw [updateBoundaryIds, Nesting.map, updateBoundaryData_eq, updateComponentIds_eq,
      updateNestedBoundaryIds_eq boundaries]

lemma updateNestedBoundaryIds_eq : ∀ boundaries : Option (List (StructureBoundary String)),
    updateNestedBoundaryIds idMapping boundaries =
      Nesting.mapOption (·.mapId idMapping.newId) (·.mapId idMapping.newId) boundaries
  | none => rfl
  | some boundaries => congrArg some (updateBoundaryListIds_eq boundaries)

lemma updateBoundaryListIds_eq : ∀ boundaries : List (StructureBoundary String),
    updateBoundaryListIds idMapping boundaries =
      Nesting.mapList (·.mapId idMapping.newId) (·.mapId idMapping.newId) boundaries
  | [] => rfl
  | b :: boundaries =>
    congrArg₂ List.cons (updateBoundaryIds_eq b) (updateBoundaryListIds_eq boundaries)

end

lemma updateStructureIds_eq (s : ModelStructure String) :
    updateStructureIds idMapping s = s.mapId idMapping.newId := by
  rw [updateStructureIds, ModelStructure.mapId, updateBoundaryIds_eq]

end ModelDirectory
