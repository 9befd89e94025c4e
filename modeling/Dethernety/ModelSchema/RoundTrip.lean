import Dethernety.ModelSchema.Conversion

/-!
# The split format loses nothing

Each of the four kinds of elements finds in its bag exactly the entry that was made for it
(`lookupEntry_extractAttributes` and its siblings), because ids are distinct. Rebuilding an element
from its stripped copy and this entry gives the element back, up to `normalise`.
-/

open List

namespace ModelSchema

variable {J : Type}

/-! ### Normal forms -/

def MonolithicComponent.normalise (c : MonolithicComponent J) : MonolithicComponent J :=
  { c with
    attributes := c.attributes.dropNull
    crownJewel := some (c.crownJewel.getD false) }

def MonolithicBoundaryData.normalise (b : MonolithicBoundaryData J) : MonolithicBoundaryData J :=
  { b with attributes := b.attributes.dropNull }

def MonolithicDataFlow.normalise (flow : MonolithicDataFlow J) : MonolithicDataFlow J :=
  { flow with attributes := flow.attributes.dropNull }

def MonolithicDataItem.normalise (item : MonolithicDataItem J) : MonolithicDataItem J :=
  { item with attributes := item.attributes.dropNull }

/-- An absent model id read as `null`, absent modules, flows and items as empty lists, an absent
crown jewel flag as `false`, and `null` attributes as absent. -/
def MonolithicModel.normalise (model : MonolithicModel J) : MonolithicModel J :=
  { model with
    id := match model.id with
      | .absent => .null
      | id => id
    modules := some (model.modules.getD [])
    defaultBoundary :=
      model.defaultBoundary.map MonolithicBoundaryData.normalise MonolithicComponent.normalise
    dataFlows := some ((model.dataFlows.getD []).map MonolithicDataFlow.normalise)
    dataItems := some ((model.dataItems.getD []).map MonolithicDataItem.normalise) }

def MonolithicModel.ids (model : MonolithicModel J) : List String :=
  model.defaultBoundary.nodes.map (·.id) ++ model.defaultBoundary.leaves.map (·.id) ++
    (model.dataFlows.getD []).map (·.id) ++ (model.dataItems.getD []).map (·.id)

/-! ### One element -/

section

variable {kind : AttributeElementType} {id name : String} {classData attributes : Nullable J}

/-- The class of an element is the one of its copy; its entry adds none. -/
lemma orUndefined_entryClass :
    classData.orUndefined (entryClass (elementAttributes kind id name classData attributes)) = classData := by
  cases classData <;> cases attributes <;> rfl

lemma entryAttributes_elementAttributes :
    entryAttributes (elementAttributes kind id name classData attributes) = attributes.dropNull := by
  cases attributes <;> rfl

lemma dropNull_orNullish :
    ((entryAttributes (elementAttributes kind id name classData attributes)).orNullish
      attributes).dropNull = attributes.dropNull := by
  cases attributes <;> rfl

lemma dropNull_dropNull (a : Nullable J) : a.dropNull.dropNull = a.dropNull := by
  cases a <;> rfl

lemma inject_extract_boundary {file : ConsolidatedAttributesFile J} {b : MonolithicBoundaryData J}
    (h : lookupEntry file.boundaries b.id = b.entry) :
    (injectAttributesBoundaryData file (extractStructureBoundaryData b)).normalise = b.normalise := by
  simp only [injectAttributesBoundaryData, h, MonolithicBoundaryData.entry,
    extractStructureBoundaryData, orUndefined_entryClass, entryAttributes_elementAttributes,
    MonolithicBoundaryData.normalise, dropNull_dropNull]

lemma inject_extract_component {file : ConsolidatedAttributesFile J} {c : MonolithicComponent J}
    (h : lookupEntry file.components c.id = c.entry) :
    (injectAttributesComponent file (extractStructureComponent c)).normalise = c.normalise := by
  have hjewel : decide (c.crownJewel = some true) = c.crownJewel.getD false := by
    rcases c.crownJewel with _ | _ | _ <;> rfl
  simp only [injectAttributesComponent, h, MonolithicComponent.entry, extractStructureComponent,
    orUndefined_entryClass, entryAttributes_elementAttributes, MonolithicComponent.normalise,
    dropNull_dropNull, Option.getD_some]
  congr 1
  exact congrArg some hjewel

end

/-! ### The bags -/

lemma lookupEntry_foldl {α : Type} {key : α → String} {entry : α → Option (ElementAttributes J)}
    {l : List α} (h : (l.map key).Nodup) {x : α} (hx : x ∈ l) :
    lookupEntry (l.foldl (fun bag x => putEntry (key x) (entry x) bag) (some ∅)) (key x) = entry x := by
  have hsome : ∀ (m : List α) (r : Record String (ElementAttributes J)),
      m.foldl (fun bag x => putEntry (key x) (entry x) bag) (some r) =
        some (m.foldl (fun r x => (entry x).elim r (r.set (key x))) r) := by
    intro m
    induction m with
    | nil => exact fun _ => rfl
    | cons y m ih =>
      intro r
      rw [foldl_cons, foldl_cons, ← ih]
      cases entry y <;> rfl
  rw [hsome]
  exact Record.get?_foldl_entries h ∅ hx rfl

lemma processBoundary_eq (result : ConsolidatedAttributesFile J) (boundary : MonolithicBoundary J) :
    processBoundary result boundary =
      { result with
        boundaries := boundary.nodes.foldl (fun bag b => putEntry b.id b.entry bag) result.boundaries
        components := boundary.leaves.foldl (fun bag c => putEntry c.id c.entry bag)
          result.components } := by
  rw [processBoundary, Nesting.fold_eq_foldl, Nesting.nodes, Nesting.leaves]
  generalize boundary.elements = l
  induction l generalizing result with
  | nil => rfl
  | cons e l ih =>
    rw [foldl_cons, ih]
    cases e <;> rfl

lemma extractAttributes_eq (model : MonolithicModel J) : extractAttributes model =
    { boundaries := model.defaultBoundary.nodes.foldl (fun bag b => putEntry b.id b.entry bag) (some ∅)
      components := model.defaultBoundary.leaves.foldl (fun bag c => putEntry c.id c.entry bag) (some ∅)
      dataFlows := (model.dataFlows.getD []).foldl (fun bag f => putEntry f.id f.entry bag) (some ∅)
      dataItems := (model.dataItems.getD []).foldl (fun bag i => putEntry i.id i.entry bag) (some ∅) } := by
  have hflows : ∀ (l : List (MonolithicDataFlow J)) (r : ConsolidatedAttributesFile J),
      l.foldl (fun r f => { r with dataFlows := putEntry f.id f.entry r.dataFlows }) r =
        { r with dataFlows := l.foldl (fun bag f => putEntry f.id f.entry bag) r.dataFlows } := by
    intro l
    induction l with
    | nil => exact fun _ => rfl
    | cons f _ ih => exact fun r => ih _
  have hitems : ∀ (l : List (MonolithicDataItem J)) (r : ConsolidatedAttributesFile J),
      l.foldl (fun r i => { r with dataItems := putEntry i.id i.entry r.dataItems }) r =
        { r with dataItems := l.foldl (fun bag i => putEntry i.id i.entry bag) r.dataItems } := by
    intro l
    induction l with
    | nil => exact fun _ => rfl
    | cons i _ ih => exact fun r => ih _
  rw [extractAttributes, processBoundary_eq, hflows, hitems]

/-! ### The model -/

/-- Splitting a model whose element ids are distinct and joining it again gives the model back, up
to its normal form. -/
theorem splitToMonolithic_monolithicToSplit (now : String) (model : MonolithicModel J)
    (hids : model.ids.Nodup) :
    (splitToMonolithic (monolithicToSplit now model)).normalise = model.normalise := by
  rw [MonolithicModel.ids, nodup_append, nodup_append, nodup_append] at hids
  obtain ⟨⟨⟨hboundaries, hcomponents, -⟩, hflows, -⟩, hitems, -⟩ := hids
  have hboundary : ∀ b, Sum.inl b ∈ model.defaultBoundary.elements →
      lookupEntry (extractAttributes model).boundaries b.id = b.entry := by
    intro b hb
    rw [extractAttributes_eq]
    exact lookupEntry_foldl hboundaries (mem_filterMap.2 ⟨_, hb, rfl⟩)
  have hcomponent : ∀ c, Sum.inr c ∈ model.defaultBoundary.elements →
      lookupEntry (extractAttributes model).components c.id = c.entry := by
    intro c hc
    rw [extractAttributes_eq]
    exact lookupEntry_foldl hcomponents (mem_filterMap.2 ⟨_, hc, rfl⟩)
  have hflow : ∀ f ∈ model.dataFlows.getD [],
      lookupEntry (extractAttributes model).dataFlows f.id = f.entry := by
    intro f hf
    rw [extractAttributes_eq]
    exact lookupEntry_foldl hflows hf
  have hitem : ∀ i ∈ model.dataItems.getD [],
      lookupEntry (extractAttributes model).dataItems i.id = i.entry := by
    intro i hi
    rw [extractAttributes_eq]
    exact lookupEntry_foldl hitems hi
  simp only [splitToMonolithic, monolithicToSplit, MonolithicModel.normalise]
  congr 1
  · cases model.id <;> rfl
  · rw [injectAttributesBoundary, extractStructureBoundary, Nesting.map_map, Nesting.map_map]
    exact Nesting.map_congr (fun b hb => inject_extract_boundary (hboundary b hb))
      (fun c hc => inject_extract_component (hcomponent c hc))
  · rw [Option.getD_some, map_map, map_map]
    refine congrArg some (map_congr_left (fun f hf => ?_))
    simp only [Function.comp_apply, hflow f hf, MonolithicDataFlow.entry, orUndefined_entryClass,
      MonolithicDataFlow.normalise, dropNull_orNullish]
  · rw [Option.getD_some, map_map, map_map]
    refine congrArg some (map_congr_left (fun i hi => ?_))
    simp only [Function.comp_apply, hitem i hi, MonolithicDataItem.entry, orUndefined_entryClass,
      MonolithicDataItem.normalise, dropNull_orNullish]

/-- A boundary with an explicit `null` class and attributes, around a component without a class. -/
def sampleModel : MonolithicModel Nat where
  id := .absent
  name := "model"
  description := none
  scope := some 1
  controls := none
  defaultBoundary := .node
    { id := "b", name := "root", description := none, positionX := none, positionY := none,
      dimensionsWidth := none, dimensionsHeight := none, dimensionsMinWidth := none,
      dimensionsMinHeight := none, parentBoundary := none, classData := .null, attributes := .value 2,
      controls := none, dataItemIds := none, representedModel := none, zone := .null, domains := none,
      planes := none, conduits := some 3 } none
    (some [{ id := "c", name := "store", description := none, type := .store, positionX := 0,
             positionY := 0, parentBoundary := none, classData := .absent, attributes := .value 4,
             controls := none, dataItemIds := none, representedModel := none, crownJewel := none }])
  dataFlows := none
  dataItems := some []
  modules := none

theorem splitToMonolithic_sampleModel : sampleModel.ids.Nodup ∧
    (splitToMonolithic (monolithicToSplit "now" sampleModel)).normalise = sampleModel.normalise :=
  ⟨by decide, splitToMonolithic_monolithicToSplit "now" sampleModel (by decide)⟩

end ModelSchema
