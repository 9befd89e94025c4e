import Dethernety.Foundations.Nesting
import Dethernety.Foundations.Record
import Mathlib.Data.Set.Function

/-!
# The split model of a directory

Model of the split-file format of `structure.schema.ts`, `dataflows.schema.ts`, `data-items.schema.ts`
and `attributes.schema.ts`, as `directory-utils.ts` reads and writes it. The types of the elements
take the type `I` of the ids as a parameter, and `mapId` renames every id in them; the model itself
has strings for ids. The fields that `directory-utils.ts` only copies are kept as one JSON object.
An id refers to the first element of its kind that has it (`SplitModel.resolve`).
-/

open List

namespace ModelDirectory

inductive Json
  | null
  | boolean (b : Bool)
  | number (text : String)
  | string (s : String)
  | array (l : List Json)
  | object (fields : List (String × Json))

section

variable (I : Type)

structure ControlReference where
  id : I
  rest : Record String Json

structure Conduit where
  peerId : I
  rest : Record String Json

structure StructureComponent where
  id : I
  name : String
  parentBoundary : Option I
  classData : Option Json
  dataItemIds : Option (List I)
  controls : Option (List (ControlReference I))
  rest : Record String Json

/-- The fields of a `StructureBoundary` beside its `boundaries` and `components`. -/
structure StructureBoundaryData where
  id : I
  name : String
  parentBoundary : Option I
  classData : Option Json
  dataItemIds : Option (List I)
  conduits : Option (List (Conduit I))
  controls : Option (List (ControlReference I))
  rest : Record String Json

abbrev StructureBoundary := Nesting (StructureBoundaryData I) (StructureComponent I)

structure ModelStructure where
  defaultBoundary : StructureBoundary I

structure DataFlow where
  id : I
  name : String
  source : I
  target : I
  classData : Option Json
  dataItemIds : Option (List I)
  controls : Option (List (ControlReference I))
  rest : Record String Json

structure DataItem where
  id : I
  name : String
  classData : Option Json
  controls : Option (List (ControlReference I))
  rest : Record String Json

inductive Element
  | boundary (b : StructureBoundaryData I)
  | component (c : StructureComponent I)
  | dataFlow (f : DataFlow I)
  | dataItem (d : DataItem I)

end

inductive AttributeElementType
  | boundary
  | component
  | dataFlow
  | dataItem

section

variable {I I' : Type} (f : I → I')

def ControlReference.mapId (c : ControlReference I) : ControlReference I' :=
  { c with id := f c.id }

def Conduit.mapId (c : Conduit I) : Conduit I' :=
  { c with peerId := f c.peerId }

def StructureComponent.mapId (c : StructureComponent I) : StructureComponent I' :=
  { c with
    id := f c.id
    parentBoundary := c.parentBoundary.map f
    dataItemIds := c.dataItemIds.map (List.map f)
    controls := c.controls.map (List.map (·.mapId f)) }

def StructureBoundaryData.mapId (b : StructureBoundaryData I) : StructureBoundaryData I' :=
  { b with
    id := f b.id
    parentBoundary := b.parentBoundary.map f
    dataItemIds := b.dataItemIds.map (List.map f)
    conduits := b.conduits.map (List.map (·.mapId f))
    controls := b.controls.map (List.map (·.mapId f)) }

def ModelStructure.mapId (s : ModelStructure I) : ModelStructure I' where
  defaultBoundary := s.defaultBoundary.map (·.mapId f) (·.mapId f)

def DataFlow.mapId (flow : DataFlow I) : DataFlow I' :=
  { flow with
    id := f flow.id
    source := f flow.source
    target := f flow.target
    dataItemIds := flow.dataItemIds.map (List.map f)
    controls := flow.controls.map (List.map (·.mapId f)) }

def DataItem.mapId (item : DataItem I) : DataItem I' :=
  { item with
    id := f item.id
    controls := item.controls.map (List.map (·.mapId f)) }

def Element.mapId : Element I → Element I'
  | boundary b => boundary (b.mapId f)
  | component c => component (c.mapId f)
  | dataFlow flow => dataFlow (flow.mapId f)
  | dataItem item => dataItem (item.mapId f)

end

section

variable {I I' : Type}

def Element.id : Element I → I
  | boundary b => b.id
  | component c => c.id
  | dataFlow f => f.id
  | dataItem d => d.id

/-- The ids that an element refers to, with the kind of element that each stands for. -/
def Element.references : Element I → List (AttributeElementType × I)
  | boundary b =>
    (b.parentBoundary.toList.map (.boundary, ·)) ++ ((b.dataItemIds.getD []).map (.dataItem, ·)) ++
      ((b.conduits.getD []).map fun c => (.boundary, c.peerId))
  | component c =>
    (c.parentBoundary.toList.map (.boundary, ·)) ++ ((c.dataItemIds.getD []).map (.dataItem, ·))
  | dataFlow f =>
    [(.component, f.source), (.component, f.target)] ++ (f.dataItemIds.getD []).map (.dataItem, ·)
  | dataItem _ => []

def Element.controlIds : Element I → List I
  | boundary b => (b.controls.getD []).map (·.id)
  | component c => (c.controls.getD []).map (·.id)
  | dataFlow f => (f.controls.getD []).map (·.id)
  | dataItem d => (d.controls.getD []).map (·.id)

/-- The boundaries and components of `flattenStructure`. -/
def ModelStructure.boundaries (s : ModelStructure I) : List (StructureBoundaryData I) :=
  s.defaultBoundary.nodes

def ModelStructure.components (s : ModelStructure I) : List (StructureComponent I) :=
  s.defaultBoundary.leaves

end

inductive AttributesSubdir
  | boundaries
  | components
  | dataFlows
  | dataItems
  deriving DecidableEq

def ATTRIBUTES_SUBDIRS : List AttributesSubdir :=
  [.boundaries, .components, .dataFlows, .dataItems]

@[simp]
lemma mem_ATTRIBUTES_SUBDIRS (subdir : AttributesSubdir) : subdir ∈ ATTRIBUTES_SUBDIRS := by
  cases subdir with
  | boundaries | components | dataFlows | dataItems => decide

/-- The element type of `FLAT_FORMAT_META`. -/
def AttributesSubdir.elementType : AttributesSubdir → AttributeElementType
  | boundaries => .boundary
  | components => .component
  | dataFlows => .dataFlow
  | dataItems => .dataItem

/-- `ElementAttributes`, the bag of an element: a JSON object with an `elementId`. -/
abbrev ElementAttributes := Record String Json

def ElementAttributes.withElementId (attrs : ElementAttributes) (elementId : String) :
    ElementAttributes :=
  attrs.set "elementId" (.string elementId)

/-- `ConsolidatedAttributesFile`: the bags of every directory by element id. -/
abbrev ConsolidatedAttributesFile := AttributesSubdir → Record String ElementAttributes

structure ModelManifest where
  modelId : Option String
  defaultBoundaryId : Option String
  rest : Record String Json

structure SplitModel where
  manifest : ModelManifest
  modelStructure : ModelStructure String
  dataFlows : List (DataFlow String)
  dataItems : List (DataItem String)
  attributes : ConsolidatedAttributesFile

namespace SplitModel

variable (m : SplitModel)

def elementsOf : AttributeElementType → List (Element String)
  | .boundary => m.modelStructure.boundaries.map .boundary
  | .component => m.modelStructure.components.map .component
  | .dataFlow => m.dataFlows.map .dataFlow
  | .dataItem => m.dataItems.map .dataItem

def elements : List (Element String) :=
  [.boundary, .component, .dataFlow, .dataItem].flatMap m.elementsOf

/-- The element that an id of a kind stands for. -/
def resolve (kind : AttributeElementType) (id : String) : Option (Element String) :=
  (m.elementsOf kind).find? (·.id = id)

/-- The ids that the attributes are kept under. -/
def attributeKeys : List (AttributeElementType × String) :=
  ATTRIBUTES_SUBDIRS.flatMap fun subdir => (m.attributes subdir).keys.map (subdir.elementType, ·)

/-- Every reference of the model: those of its elements, the default boundary of its manifest and
the element ids that its attributes are kept under. -/
def references : List (AttributeElementType × String) :=
  m.elements.flatMap (·.references) ++ m.manifest.defaultBoundaryId.toList.map (.boundary, ·) ++
    m.attributeKeys

/-- The ids that occur in the model. -/
def occurring : List String :=
  m.elements.map (·.id) ++ m.elements.flatMap (·.controlIds) ++ m.references.map Prod.snd

end SplitModel

/-- `m'` is `m` with every id replaced by its image under `f`, and all else as it was. The id that
the platform gives to the model as a whole is not an id of an element. -/
structure IsRenaming (f : String → String) (m m' : SplitModel) : Prop where
  manifest_rest : m'.manifest.rest = m.manifest.rest
  defaultBoundaryId : m'.manifest.defaultBoundaryId = m.manifest.defaultBoundaryId.map f
  modelStructure : m'.modelStructure = m.modelStructure.mapId f
  dataFlows : m'.dataFlows = m.dataFlows.map (·.mapId f)
  dataItems : m'.dataItems = m.dataItems.map (·.mapId f)
  attributes : ∀ subdir, (m'.attributes subdir).entries =
    (m.attributes subdir).entries.map fun e => (f e.1, e.2.withElementId (f e.1))

section

variable {I I' : Type} {f : I → I'}

lemma find?_map_of_injOn [DecidableEq I] [DecidableEq I'] {A B : Type} {id : A → I} {id' : B → I'}
    {g : A → B} (hid : ∀ a, id' (g a) = f (id a)) {l : List A} {r : I} (hinj : ∀ a ∈ l, f (id a) = f r → id a = r) :
    (l.map g).find? (fun b => id' b = f r) = (l.find? fun a => id a = r).map g := by
  induction l with
  | nil => rfl
  | cons a l ih =>
    have hl := ih fun b hb => hinj b (mem_cons_of_mem a hb)
    by_cases hr : id a = r
    · have hfr : id' (g a) = f r := by rw [hid, hr]
      simp [hr, hfr]
    · have hfr : id' (g a) ≠ f r := by
        rw [hid]
        exact fun h => hr (hinj a (.head _) h)
      simpa [hr, hfr] using hl

lemma Element.id_mapId (e : Element I) : (e.mapId f).id = f e.id := by
  cases e with
  | boundary b | component c | dataFlow flow | dataItem item => rfl

lemma Element.references_mapId (e : Element I) : (e.mapId f).references = e.references.map fun r => (r.1, f r.2) := by
  have hitems : ∀ o : Option (List I), ((o.map (List.map f)).getD []) = (o.getD []).map f
    | none | some l => rfl
  have hparent : ∀ o : Option I, (o.map f).toList = o.toList.map f
    | none | some i => rfl
  cases e with
  | boundary b =>
    have hconduits : ((b.conduits.map (List.map (·.mapId f))).getD []) =
        (b.conduits.getD []).map (·.mapId f) := by
      cases b.conduits with
      | none | some l => rfl
    simp only [mapId, references, StructureBoundaryData.mapId, hitems, hparent, hconduits,
      map_append, map_map]
    rfl
  | component c =>
    simp only [mapId, references, StructureComponent.mapId, hitems, hparent, map_append, map_map]
    rfl
  | dataFlow flow =>
    simp only [mapId, references, DataFlow.mapId, hitems, map_append, map_map]
    rfl
  | dataItem item => rfl

end

namespace IsRenaming

variable {f : String → String} {m m' : SplitModel}

variable (h : IsRenaming f m m')
include h

lemma elementsOf (kind : AttributeElementType) :
    m'.elementsOf kind = (m.elementsOf kind).map (·.mapId f) := by
  cases kind with
  | boundary =>
    rw [SplitModel.elementsOf, SplitModel.elementsOf, h.modelStructure, ModelStructure.boundaries,
      ModelStructure.mapId, Nesting.nodes_map, map_map, map_map]
    rfl
  | component =>
    rw [SplitModel.elementsOf, SplitModel.elementsOf, h.modelStructure, ModelStructure.components,
      ModelStructure.mapId, Nesting.leaves_map, map_map, map_map]
    rfl
  | dataFlow =>
    rw [SplitModel.elementsOf, SplitModel.elementsOf, h.dataFlows, map_map, map_map]
    rfl
  | dataItem =>
    rw [SplitModel.elementsOf, SplitModel.elementsOf, h.dataItems, map_map, map_map]
    rfl

lemma elements : m'.elements = m.elements.map (·.mapId f) := by
  rw [SplitModel.elements, SplitModel.elements, map_flatMap]
  exact flatMap_congr fun kind _ => h.elementsOf kind

lemma attributeKeys : m'.attributeKeys = m.attributeKeys.map fun r => (r.1, f r.2) := by
  rw [SplitModel.attributeKeys, SplitModel.attributeKeys, map_flatMap]
  refine flatMap_congr fun subdir _ => ?_
  rw [Record.keys, Record.keys, h.attributes, map_map, map_map, map_map, map_map]
  rfl

lemma references : m'.references = m.references.map fun r => (r.1, f r.2) := by
  have hdefault : m'.manifest.defaultBoundaryId.toList = m.manifest.defaultBoundaryId.toList.map f := by
    rw [h.defaultBoundaryId]
    cases m.manifest.defaultBoundaryId with
    | none | some i => rfl
  have helements : m'.elements.flatMap (·.references) =
      (m.elements.flatMap (·.references)).map fun r => (r.1, f r.2) := by
    rw [h.elements, flatMap_map, map_flatMap]
    exact flatMap_congr fun e _ => e.references_mapId
  rw [SplitModel.references, SplitModel.references, helements, hdefault, h.attributeKeys,
    map_append, map_append, map_map, map_map]
  rfl

/-- If no two ids that occur have one image, a reference stands for the renamed element after the
renaming, and for none if it did before. -/
theorem resolve (hinj : Set.InjOn f {i | i ∈ m.occurring})
    {r : AttributeElementType × String} (hr : r ∈ m.references) :
    m'.resolve r.1 (f r.2) = (m.resolve r.1 r.2).map (·.mapId f) := by
  have hmem : r.2 ∈ m.occurring := mem_append_right _ (mem_map_of_mem hr)
  rw [SplitModel.resolve, SplitModel.resolve, h.elementsOf]
  refine find?_map_of_injOn Element.id_mapId fun e he heq => ?_
  have helements : e ∈ m.elements := by
    rw [SplitModel.elements, mem_flatMap]
    refine ⟨r.1, ?_, he⟩
    cases r.1 with
    | boundary | component | dataFlow | dataItem => simp
  have hid : e.id ∈ m.occurring :=
    mem_append_left _ (mem_append_left _ (mem_map_of_mem helements))
  exact hinj hid hmem heq

end IsRenaming

end ModelDirectory
