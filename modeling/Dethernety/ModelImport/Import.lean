import Dethernety.Foundations.Record
import Dethernety.ModelImport.Document

/-!
# Importing a model

Model of `DtImport.importModel`. The platform answers each create call on its own: it refuses, throws
or returns the new element. What an element does besides being created (class, attributes, controls,
represented model) only adds warnings and is part of the answer; the passes after the data flows
(attribute writes, data items of elements, conduits) only add warnings as well.

`creations` and `models` record what the platform created, the rest of the state is that of
`DtImport`. The parents kept in `elementParent` are read by the later passes only and left out.
-/

namespace ModelImport

/-- An id of the platform (`ID!`). It is never empty. -/
abbrev ServerId := { s : String // s ≠ "" }

/-- What a `catch` receives. -/
inductive Thrown
  | error (message : String)
  | other (text : String)

namespace Thrown

/-- `error instanceof Error ? error.message : fallback` -/
def message (fallback : String) : Thrown → String
  | error m => m
  | other _ => fallback

def text : Thrown → String
  | error m => m
  | other t => t

end Thrown

inductive ElementKind
  | boundary
  | component
  | dataFlow
  | dataItem
  deriving DecidableEq

namespace ElementKind

/-- `step` of an error at creation. -/
def step : ElementKind → String
  | boundary => "boundary_creation"
  | component => "component_creation"
  | dataFlow => "dataflow_creation"
  | dataItem => "dataitem_creation"

def noun : ElementKind → String
  | boundary => "boundary"
  | component => "component"
  | dataFlow => "data flow"
  | dataItem => "data item"

end ElementKind

/-- What an element is created under. -/
inductive Place
  | boundary (parent : ServerId)
  | ends (source target : ServerId)
  | model (model : ServerId)

/-- An element that the platform created for an element of the document. -/
structure Creation where
  kind : ElementKind
  id : JsonValue
  place : Place
  server : ServerId

/-- How a create call went. -/
inductive Outcome
  | refused
  | threw (e : Thrown)
  /-- `followUp` is what the zoning update after the create threw. -/
  | created (server : ServerId) (followUp : Option Thrown)

structure Reply where
  warnings : List String
  outcome : Outcome

inductive ModelReply
  | refused
  | threw (e : Thrown)
  | created (model : ServerId)

/-- What `dumpModelData` and the update of the default boundary give. -/
inductive DefaultBoundaryReply
  | threw (e : Thrown)
  | missing
  /-- A boundary without an id, which the update then refuses. -/
  | withoutId (e : Thrown)
  | found (server : ServerId) (update : Option Thrown)

/-- Everything outside of the import: the platform and the progress callback. -/
structure Environment where
  modelWarnings : List String
  createModel : ModelReply
  defaultBoundaryWarnings : List String
  defaultBoundary : DefaultBoundaryReply
  /-- The answer to the `n`-th create call for an element. -/
  create : ℕ → Reply
  /-- The warnings of the pass that runs once everything is created, in step 6, 7 or 8. -/
  lateWarnings : ℕ → List String
  /-- What that pass throws. -/
  late : ℕ → Option Thrown
  onProgress : String → Option Thrown
  deleteModel : Option Thrown

structure ImportError where
  step : String
  elementName : JsonValue := .absent
  error : String

structure ImportProgress where
  currentStep : ℕ
  stepName : String

structure ImportState where
  idMapping : Record JsonValue ServerId
  errors : List ImportError
  warnings : List String
  currentModelId : Option ServerId
  progress : ImportProgress
  calls : ℕ
  models : List ServerId
  creations : List Creation

def ImportState.initial : ImportState where
  idMapping := ∅
  errors := []
  warnings := []
  currentModelId := none
  progress := ⟨0, "Initializing"⟩
  calls := 0
  models := []
  creations := []

/-- `this.errors.push` for an element. -/
def ImportState.fail (s : ImportState) (kind : ElementKind) (el : ElementData) (error : String) :
    ImportState :=
  { s with errors := s.errors ++ [{ step := kind.step, elementName := el.name, error }] }

/-- A create call and what follows it: the shared body of `createComponent`, `createBoundary` and of
the loops of `createDataFlows` and `createDataItems`. -/
def createElement (env : Environment) (kind : ElementKind) (el : ElementData) (place : Place)
    (followsUp : Bool) (s : ImportState) : Option ServerId × ImportState :=
  let reply := env.create s.calls
  let s := { s with calls := s.calls + 1, warnings := s.warnings ++ reply.warnings }
  match reply.outcome with
  | .refused => (none, s.fail kind el s!"Failed to create {kind.noun}")
  | .threw e => (none, s.fail kind el (e.message s!"Unknown error creating {kind.noun}"))
  | .created server followUp =>
    let s := { s with
      idMapping := s.idMapping.set el.id server
      creations := s.creations ++ [⟨kind, el.id, place, server⟩] }
    match followsUp, followUp with
    | true, some e => (none, s.fail kind el (e.message s!"Unknown error creating {kind.noun}"))
    | _, _ => (some server, s)

def createComponent (env : Environment) (c : ComponentData) (parentBoundaryId : ServerId)
    (s : ImportState) : Option ServerId × ImportState :=
  createElement env .component c.toElementData (.boundary parentBoundaryId) false s

/-- `createBoundary`; a boundary with zoning is updated right after it is created. -/
def createBoundary (env : Environment) (b : BoundaryData) (parentBoundaryId : ServerId)
    (s : ImportState) : Option ServerId × ImportState :=
  createElement env .boundary b.toElementData (.boundary parentBoundaryId) b.zoning s

mutual

def processHierarchy (env : Environment) :
    Nesting BoundaryData ComponentData → ServerId → ImportState → ImportState
  | .node _ boundaries components, parentBoundaryId, s =>
    processBoundaries env boundaries parentBoundaryId
      ((components.getD []).foldl (fun s c => (createComponent env c parentBoundaryId s).2) s)

def processBoundaries (env : Environment) :
    Option (List (Nesting BoundaryData ComponentData)) → ServerId → ImportState → ImportState
  | none, _, s => s
  | some l, parentBoundaryId, s => processBoundaryList env l parentBoundaryId s

def processBoundaryList (env : Environment) :
    List (Nesting BoundaryData ComponentData) → ServerId → ImportState → ImportState
  | [], _, s => s
  | boundary :: l, parentBoundaryId, s =>
    match createBoundary env boundary.data parentBoundaryId s with
    -- a boundary that was not created takes all that is in it with it
    | (none, s) => processBoundaryList env l parentBoundaryId s
    | (some newBoundaryId, s) =>
      processBoundaryList env l parentBoundaryId (processHierarchy env boundary newBoundaryId s)

end

def createDataItem (env : Environment) (modelId : ServerId) (s : ImportState) (i : ItemData) :
    ImportState :=
  (createElement env .dataItem i.toElementData (.model modelId) false s).2

def createDataFlow (env : Environment) (s : ImportState) (f : FlowData) : ImportState :=
  match f.source, f.target with
  | some source, some target =>
    match s.idMapping.get? source, s.idMapping.get? target with
    | some sourceId, some targetId =>
      (createElement env .dataFlow f.toElementData (.ends sourceId targetId) false s).2
    | _, _ =>
      { s with warnings :=
          s.warnings ++ [s!"Could not map source or target for data flow {f.name.text}"] }
  -- `dataFlowData.source.id` of an absent source is a `TypeError`
  | _, _ => s.fail .dataFlow f.toElementData "Cannot read properties of undefined (reading 'id')"

def createModel (env : Environment) (s : ImportState) : Option ServerId × ImportState :=
  let s := { s with warnings := s.warnings ++ env.modelWarnings }
  match env.createModel with
  | .refused =>
    (none, { s with errors := s.errors ++ [{ step := "model_creation", error := "Failed to create model" }] })
  | .threw e =>
    (none, { s with errors := s.errors ++
      [{ step := "model_creation", error := e.message "Unknown error creating model" }] })
  | .created model => (some model, { s with models := s.models ++ [model] })

def setupDefaultBoundary (env : Environment) (b : BoundaryData) (s : ImportState) : ImportState :=
  let fail (s : ImportState) (error : String) : ImportState :=
    { s with errors := s.errors ++ [{ step := "default_boundary_setup", error }] }
  let s := { s with warnings := s.warnings ++ env.defaultBoundaryWarnings }
  match env.defaultBoundary with
  | .threw e => fail s (e.message "Unknown error setting up default boundary")
  | .missing => fail s "No default boundary found in created model"
  | .withoutId e => fail s (e.message "Unknown error setting up default boundary")
  | .found server update =>
    let s := { s with idMapping := s.idMapping.set b.id server }
    match update with
    | some e => fail s (e.message "Unknown error setting up default boundary")
    | none => s

structure ImportResult where
  success : Bool
  idMapping : Option (Record JsonValue ServerId) := none
  model : Option ServerId := none
  errors : List ImportError
  warnings : List String
  progress : ImportProgress

/-- A result together with what the import left behind. -/
structure Run where
  result : ImportResult
  state : ImportState

/-- `updateProgress`; the callback may throw. -/
def updateProgress (env : Environment) (step : ℕ) (stepName : String) (s : ImportState) :
    Except (Thrown × ImportState) ImportState :=
  let s := { s with progress := ⟨step, stepName⟩ }
  match env.onProgress stepName with
  | some e => .error (e, s)
  | none => .ok s

/-- The attribute writes, the data items of elements, or the controls and conduits. -/
def latePass (env : Environment) (step : ℕ) (s : ImportState) :
    Except (Thrown × ImportState) ImportState :=
  let s := { s with warnings := s.warnings ++ env.lateWarnings step }
  match env.late step with
  | some e => .error (e, s)
  | none => .ok s

/-- Step 7 is left out where the document has no list of data items. -/
def associateDataItemsWithElements (env : Environment) (doc : Document) (s : ImportState) :
    Except (Thrown × ImportState) ImportState :=
  if doc.dataItems.isSome then latePass env 7 s else .ok s

/-- Step 5: nothing is created where the default boundary is not mapped. -/
def processDefaultBoundary (env : Environment) (doc : Document) (s : ImportState) : ImportState :=
  match s.idMapping.get? doc.defaultBoundary.data.id with
  | some defaultBoundaryId => processHierarchy env doc.defaultBoundary defaultBoundaryId s
  | none => s

/-- A return before the import is complete. -/
def Run.refused (errors : List ImportError) (warnings : List String) (s : ImportState) : Run where
  result := { success := false, errors, warnings, progress := s.progress }
  state := s

/-- Steps 3 to 8, once the model exists. -/
def buildModel (env : Environment) (doc : Document) (model : ServerId) (s : ImportState) :
    Except (Thrown × ImportState) Run := do
  let s ← updateProgress env 3 "Setting up default boundary" { s with currentModelId := some model }
  let s := setupDefaultBoundary env doc.defaultBoundary.data s
  let s ← updateProgress env 4 "Creating data items" s
  let s := doc.items.foldl (createDataItem env model) s
  let s ← updateProgress env 5 "Creating boundaries and components" s
  let s := processDefaultBoundary env doc s
  let s ← updateProgress env 6 "Creating data flows" s
  let s := doc.flows.foldl (createDataFlow env) s
  let s ← latePass env 6 s
  let s ← updateProgress env 7 "Associating data items with elements" s
  let s ← associateDataItemsWithElements env doc s
  let s ← updateProgress env 8 "Associating controls" s
  let s ← latePass env 8 s
  let s ← updateProgress env 8 "Import completed" s
  return {
    result := {
      success := s.errors.isEmpty
      idMapping := some s.idMapping
      model := some model
      errors := s.errors
      warnings := s.warnings
      progress := s.progress }
    state := s }

/-- The body of the `try` of `importModel`. -/
def importBody (env : Environment) (doc : Document) : Except (Thrown × ImportState) Run := do
  let s ← updateProgress env 1 "Validating import data" .initial
  match validateImportData doc with
  | some error => return .refused [{ step := "validation", error }] [] s
  | none =>
  let typeErrors := validateElementTypes doc
  if typeErrors ≠ [] then
    return .refused (typeErrors.map fun error => { step := "validation", error }) [] s
  else
  let structural := validateMonolithicModel doc
  let s := { s with warnings := s.warnings ++ structural.warnings.map (·.message) }
  if structural.errors ≠ [] then
    return .refused (structural.errors.map fun e => { step := "validation", error := e.message })
      s.warnings s
  else
  let s ← updateProgress env 2 "Creating model" s
  match createModel env s with
  | (none, s) => return .refused s.errors s.warnings s
  | (some model, s) => buildModel env doc model s

/-- `importModel`: an exception deletes the model that was created, if any. -/
def importModel (env : Environment) (doc : Document) : Run :=
  match importBody env doc with
  | .ok run => run
  | .error (e, s) =>
    let s := match s.currentModelId, env.deleteModel with
      | some model, some rollbackError =>
        { s with warnings := s.warnings ++
          [s!"Rollback failed — partial model {model.val} may remain: {rollbackError.text}"] }
      | some model, none => { s with models := s.models.erase model }
      | none, _ => s
    .refused [{ step := "general", error := e.message "Unknown error occurred" }] s.warnings s

end ModelImport
