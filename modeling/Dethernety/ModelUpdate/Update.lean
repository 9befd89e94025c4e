import Dethernety.ModelImport.Import

/-!
# Updating a model

Model of `DtUpdate.updateModel`. Every element of an update document is written at most once, so the
document carries with each element how its write goes: what the platform returns for a create, and
the errors that the write records. An element whose id the platform has is updated and counts as
processed however the update goes; any other is created.

The writes themselves (parents, classes, controls, attributes, conduits) are the platform's side and
are left out, as is the second fetch of the model at the end.
-/

namespace ModelUpdate

open ModelImport (JsonValue ServerId ElementKind)

structure UpdateError where
  step : String
  elementName : JsonValue := .absent
  elementId : JsonValue := .absent
  error : String

/-- An element of an update document, and how its write goes. -/
structure Entry where
  id : JsonValue
  name : JsonValue
  /-- What a create call returns, where the calls that follow it do not throw. -/
  created : Option ServerId
  /-- The errors that the write records. -/
  errors : List UpdateError

structure FlowEntry extends Entry where
  /-- `source?.id` -/
  source : JsonValue
  /-- `target?.id` -/
  target : JsonValue
  /-- Whether an update moves it to these ends, also where it throws afterwards. -/
  landed : Bool

structure ItemEntry extends Entry where
  /-- What resolving the controls or creating the item throws. -/
  threw : Option String
  residualOk : Bool

structure UpdateDocument where
  name : JsonValue
  defaultBoundary : Nesting Entry Entry
  dataFlows : Option (List FlowEntry)
  dataItems : Option (List ItemEntry)

/-- The elements that the platform has; a model without a default boundary has none. -/
structure ExistingModel where
  defaultBoundary : Option ServerId
  components : List ServerId
  boundaries : List ServerId
  /-- The data flows, with the components that each starts or ends at. -/
  dataFlows : Record ServerId (List ServerId)
  dataItems : List ServerId

def ExistingModel.ids (ex : ExistingModel) : ElementKind → List ServerId
  | .boundary => ex.boundaries
  | .component => ex.components
  | .dataFlow => ex.dataFlows.keys
  | .dataItem => ex.dataItems

/-- A platform id as it stands in a document. -/
def ofServer (id : ServerId) : JsonValue :=
  .string id.val

/-- The member of a set of platform ids that a document names. -/
def findId (ids : List ServerId) (id : JsonValue) : Option ServerId :=
  ids.find? fun server => ofServer server = id

structure UpdateStats where
  created : ℕ
  updated : ℕ
  deleted : ℕ

structure UpdateState where
  idMapping : Record JsonValue ServerId
  errors : List UpdateError
  stats : UpdateStats
  processedBoundaryIds : List ServerId
  processedComponentIds : List ServerId
  processedDataflowIds : List ServerId
  processedDataitemIds : List ServerId
  /-- What each data flow of the platform starts and ends at. -/
  ends : Record ServerId (List ServerId)
  /-- What the delete calls name or take along, in order. -/
  deleted : List (ElementKind × ServerId)

/-- `resetState` -/
def UpdateState.initial : UpdateState where
  idMapping := ∅
  errors := []
  stats := ⟨0, 0, 0⟩
  processedBoundaryIds := []
  processedComponentIds := []
  processedDataflowIds := []
  processedDataitemIds := []
  ends := ∅
  deleted := []

namespace UpdateState

def processed (s : UpdateState) : ElementKind → List ServerId
  | .boundary => s.processedBoundaryIds
  | .component => s.processedComponentIds
  | .dataFlow => s.processedDataflowIds
  | .dataItem => s.processedDataitemIds

/-- `this.errors.push` for an entry. -/
def fail (s : UpdateState) (step : String) (e : Entry) (error : String) : UpdateState :=
  { s with errors := s.errors ++
      [{ step, elementName := e.name.or (.string "unknown"), elementId := e.id, error }] }

/-- `this.idMapping.set(id, serverId)` -/
def mapId (s : UpdateState) (id : JsonValue) (serverId : ServerId) : UpdateState :=
  { s with idMapping := s.idMapping.set id serverId }

/-- `this.processed…Ids.add(serverId)` -/
def markProcessed (s : UpdateState) (kind : ElementKind) (serverId : ServerId) : UpdateState :=
  match kind with
  | .boundary => { s with processedBoundaryIds := s.processedBoundaryIds ++ [serverId] }
  | .component => { s with processedComponentIds := s.processedComponentIds ++ [serverId] }
  | .dataFlow => { s with processedDataflowIds := s.processedDataflowIds ++ [serverId] }
  | .dataItem => { s with processedDataitemIds := s.processedDataitemIds ++ [serverId] }

def countUpdated (s : UpdateState) : UpdateState :=
  { s with stats := { s.stats with updated := s.stats.updated + 1 } }

def countCreated (s : UpdateState) : UpdateState :=
  { s with stats := { s.stats with created := s.stats.created + 1 } }

def record (s : UpdateState) (errors : List UpdateError) : UpdateState :=
  { s with errors := s.errors ++ errors }

end UpdateState

/-- `fetchExistingModelStructure`: every id that the platform has is mapped to itself. -/
def trackExisting (ex : ExistingModel) (s : UpdateState) : UpdateState :=
  { (ex.defaultBoundary.toList ++ ex.components ++ ex.boundaries ++ ex.dataFlows.keys ++
      ex.dataItems).foldl (fun s id => s.mapId (ofServer id) id) s with ends := ex.dataFlows }

section

variable (ex : ExistingModel)

/-- An element that exists: it is updated, mapped and marked. -/
def updateExisting (kind : ElementKind) (s : UpdateState) (e : Entry) (serverId : ServerId) :
    UpdateState :=
  (((s.record e.errors).mapId e.id serverId).markProcessed kind serverId).countUpdated

/-- A new component or data flow is mapped and marked only where the document gives it an id. -/
def createNew (kind : ElementKind) (s : UpdateState) (e : Entry) : UpdateState :=
  match e.created with
  | some serverId =>
    if e.id.truthy then
      (((s.record e.errors).mapId e.id serverId).markProcessed kind serverId).countCreated
    else s.record e.errors
  | none => s.record e.errors

def updateDataItem (s : UpdateState) (i : ItemEntry) : UpdateState :=
  match i.threw with
  | some message => s.fail "update_data_items" i.toEntry message
  | none =>
    match findId ex.dataItems i.id with
    | some itemId =>
      -- marked however the update went: the item exists
      let s := ((s.mapId i.id itemId).markProcessed .dataItem itemId).record i.errors
      if i.residualOk then s.countUpdated else s
    | none =>
      match i.created with
      | some _ => createNew .dataItem s i.toEntry
      | none => s.fail "update_data_items" i.toEntry "Data item create returned no result"

def updateComponent (s : UpdateState) (c : Entry) : UpdateState :=
  match findId ex.components c.id with
  | some componentId => updateExisting .component s c componentId
  | none => createNew .component s c

def actualBoundaryId (b : Entry) : Option ServerId :=
  (findId ex.boundaries b.id).or b.created

/-- A round of `updateBoundariesRecursive` up to the content of the boundary. -/
def updateBoundary (s : UpdateState) (b : Entry) : UpdateState :=
  match findId ex.boundaries b.id with
  | some boundaryId => updateExisting .boundary s b boundaryId
  | none =>
    match b.created with
    | some serverId =>
      let s := s.record b.errors
      let s := if b.id.truthy then s.mapId b.id serverId else s
      (s.markProcessed .boundary serverId).countCreated
    | none => s.record b.errors

mutual

/-- The rest of a round of `updateBoundariesRecursive`: the nested boundaries, then the components. -/
def updateContent : Nesting Entry Entry → UpdateState → UpdateState
  | .node _ boundaries components, s =>
    (components.getD []).foldl (updateComponent ex) (updateBoundaries boundaries s)

def updateBoundaries : Option (List (Nesting Entry Entry)) → UpdateState → UpdateState
  | none, s => s
  | some l, s => updateBoundariesRecursive l s

def updateBoundariesRecursive : List (Nesting Entry Entry) → UpdateState → UpdateState
  | [], s => s
  | t :: l, s =>
    match actualBoundaryId ex t.data with
    | some _ => updateBoundariesRecursive l (updateContent t (updateBoundary ex s t.data))
    | none => updateBoundariesRecursive l (updateBoundary ex s t.data)

end

def updateDataFlow (s : UpdateState) (f : FlowEntry) : UpdateState :=
  match s.idMapping.get? f.source, s.idMapping.get? f.target with
  | some sourceId, some targetId =>
    match findId ex.dataFlows.keys f.id with
    | some flowId =>
      let s := updateExisting .dataFlow s f.toEntry flowId
      if f.landed then { s with ends := s.ends.set flowId [sourceId, targetId] } else s
    | none =>
      let s := createNew .dataFlow s f.toEntry
      match f.created with
      | some flowId => { s with ends := s.ends.set flowId [sourceId, targetId] }
      | none => s
  | _, _ => s.fail "update_data_flows" f.toEntry "Source or target component not found"

/-- What a delete call takes along: `DELETE_COMPONENT` deletes the data flows at the component. -/
def takenAlong (s : UpdateState) (kind : ElementKind) (id : ServerId) : List ServerId :=
  match kind with
  | .component => s.ends.keys.filter fun flowId => id ∈ (s.ends.get? flowId).getD []
  | _ => []

/-- The delete calls for one kind of element. -/
def deleteOrphans (kind : ElementKind) (s : UpdateState) : UpdateState :=
  let orphaned := (ex.ids kind).filter (· ∉ s.processed kind)
  { s with
    deleted := s.deleted ++ orphaned.flatMap fun id =>
      (takenAlong s kind id).map (fun flowId => (.dataFlow, flowId)) ++ [(kind, id)]
    stats := { s.stats with deleted := s.stats.deleted + orphaned.length } }

def deleteOrphanedElements (s : UpdateState) : UpdateState :=
  deleteOrphans ex .boundary (deleteOrphans ex .component (deleteOrphans ex .dataFlow
    (deleteOrphans ex .dataItem s)))

end

/-- What `getModelData` gives. -/
inductive Fetched
  /-- No model, or an exception. -/
  | missing
  /-- A model without a default boundary: nothing of it is tracked. -/
  | bare
  | found (ex : ExistingModel)

/-- The elements that are tracked. -/
def Fetched.model : Fetched → Option ExistingModel
  | missing => none
  | bare => some ⟨none, [], [], ∅, []⟩
  | found ex => some ex

/-- Everything outside of the update, besides the writes. -/
structure Environment where
  modelId : String
  deleteOrphaned : Bool
  existing : Fetched
  onProgress : String → Option String
  /-- What resolving the classes throws. -/
  resolveClasses : Option String
  modelErrors : List UpdateError
  defaultBoundaryErrors : List UpdateError
  conduitErrors : List UpdateError
  /-- What the conduit pass throws. -/
  conduits : Option String
  attributeErrors : List UpdateError

/-- An exception, with the state it leaves. -/
abbrev Step := Except (String × UpdateState) UpdateState

def updateProgress (env : Environment) (stepName : String) (s : UpdateState) : Step :=
  match env.onProgress stepName with
  | some message => .error (message, s)
  | none => .ok s

/-- A pass that may throw. -/
def pass (threw : Option String) (errors : List UpdateError) (s : UpdateState) : Step :=
  match threw with
  | some message => .error (message, s)
  | none => .ok (s.record errors)

/-- Steps 4 to 9, once the existing model is tracked. -/
def updateElements (ex : ExistingModel) (doc : UpdateDocument) (env : Environment)
    (s : UpdateState) : Step := do
  let s ← updateProgress env "Updating data items" s
  let s := (doc.dataItems.getD []).foldl (updateDataItem ex) s
  let s ← updateProgress env "Updating default boundary" s
  let s := s.record env.defaultBoundaryErrors
  let s ← updateProgress env "Updating boundaries and components" s
  let s := updateContent ex doc.defaultBoundary s
  let s ← pass env.conduits env.conduitErrors s
  let s ← updateProgress env "Updating data flows" s
  let s := (doc.dataFlows.getD []).foldl (updateDataFlow ex) s
  let s := s.record env.attributeErrors
  let s ← updateProgress env "Cleaning up orphaned elements" s
  let s := if env.deleteOrphaned then deleteOrphanedElements ex s else s
  updateProgress env "Update completed" s

/-- The body of the `try` of `updateModel`. -/
def updateBody (doc : UpdateDocument) (env : Environment) : Step := do
  let s ← updateProgress env "Validating update data" .initial
  if !doc.name.truthy then
    return s.record [{ step := "validation", error := "Missing required field: name" }]
  else
  let s ← updateProgress env "Fetching existing model structure" s
  match env.existing.model with
  | none => return s.record [{ step := "fetch_model", error := s!"Model {env.modelId} not found" }]
  | some ex =>
    let s ← pass env.resolveClasses env.modelErrors (trackExisting ex s)
    updateElements ex doc env s

/-- `updateModel`: what it leaves, with an exception recorded as an error. -/
def updateModel (doc : UpdateDocument) (env : Environment) : UpdateState :=
  match updateBody doc env with
  | .ok s => s
  | .error (message, s) =>
    s.record [{ step := "update", error := s!"Unexpected error during update: {message}" }]

end ModelUpdate
