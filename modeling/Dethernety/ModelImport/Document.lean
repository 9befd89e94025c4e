import Mathlib.Data.List.Nodup
import Dethernety.Foundations.Nesting

/-!
# Documents for import and their validation

Model of what `DtImport.importModel` checks before it writes anything: `validateImportData` and
`validateElementTypes` of `dt-import.ts` and `validateMonolithicModel` of `model.schema.ts`.

A `Document` is well shaped: a collection that is not an array and an entry that is not an object are
refused as `MALFORMED_STRUCTURE` before any write, so they have no value here.
-/

open List

namespace ModelImport

/-- A field as it comes out of `JSON.parse`. Objects and lists are equal only to themselves. -/
inductive JsonValue
  | absent
  | null
  | boolean (b : Bool)
  | number (finite : Bool) (text : String)
  | string (s : String)
  | object (address : ℕ) (text : String)
  deriving DecidableEq

namespace JsonValue

/-- `typeof v` -/
def typeof : JsonValue → String
  | absent => "undefined"
  | null => "object"
  | boolean _ => "boolean"
  | number _ _ => "number"
  | string _ => "string"
  | object _ _ => "object"

/-- `String(v)` -/
def text : JsonValue → String
  | absent => "undefined"
  | null => "null"
  | boolean b => if b then "true" else "false"
  | number _ t => t
  | string s => s
  | object _ t => t

/-- `Boolean(v)` -/
def truthy : JsonValue → Bool
  | absent => false
  | null => false
  | boolean b => b
  | number _ t => t ≠ "0" ∧ t ≠ "NaN"
  | string s => s ≠ ""
  | object _ _ => true

/-- `v || w` -/
def or (v w : JsonValue) : JsonValue :=
  if v.truthy then v else w

def isString : JsonValue → Bool
  | string _ => true
  | _ => false

def badNumber : JsonValue → Bool
  | absent => false
  | null => false
  | number finite _ => !finite
  | _ => true

def badString : JsonValue → Bool
  | absent => false
  | null => false
  | string _ => false
  | _ => true

end JsonValue

/-- The fields that every element has for the checks. -/
structure ElementData where
  id : JsonValue
  name : JsonValue
  type : JsonValue
  positionX : JsonValue
  positionY : JsonValue
  dimensionsWidth : JsonValue
  dimensionsHeight : JsonValue
  dimensionsMinWidth : JsonValue
  dimensionsMinHeight : JsonValue
  dataItemIds : List JsonValue

structure BoundaryData extends ElementData where
  /-- Whether `zone`, `domains` or `planes` is there. -/
  zoning : Bool

structure ComponentData extends ElementData

structure FlowData extends ElementData where
  /-- `source.id`, where there is a `source`. -/
  source : Option JsonValue
  /-- `target.id`, where there is a `target`. -/
  target : Option JsonValue

structure ItemData extends ElementData

structure Document where
  name : JsonValue
  defaultBoundary : Nesting BoundaryData ComponentData
  dataFlows : Option (List FlowData)
  dataItems : Option (List ItemData)

namespace Document

def flows (doc : Document) : List FlowData :=
  doc.dataFlows.getD []

def items (doc : Document) : List ItemData :=
  doc.dataItems.getD []

end Document

/-- The fields of a boundary or a component in a hierarchy. -/
def elementData : BoundaryData ⊕ ComponentData → ElementData :=
  Sum.elim BoundaryData.toElementData ComponentData.toElementData

/-- The ids that occur in a document, in the order in which they are checked. -/
def Document.ids (doc : Document) : List JsonValue :=
  (doc.defaultBoundary.elements.map (fun e => (elementData e).id) ++
    doc.flows.map (fun f => f.id) ++ doc.items.map (fun i => i.id)).filter JsonValue.truthy

def validateImportData (doc : Document) : Option String :=
  if !doc.name.truthy || !doc.name.isString then
    some "Missing or invalid model name"
  else if !doc.defaultBoundary.data.id.truthy || !doc.defaultBoundary.data.id.isString then
    some "Missing or invalid default boundary ID"
  else
    none

def numericFields : List (String × (ElementData → JsonValue)) :=
  [("positionX", ElementData.positionX), ("positionY", ElementData.positionY),
    ("dimensionsWidth", ElementData.dimensionsWidth),
    ("dimensionsHeight", ElementData.dimensionsHeight),
    ("dimensionsMinWidth", ElementData.dimensionsMinWidth),
    ("dimensionsMinHeight", ElementData.dimensionsMinHeight)]

def checkElement (errors : List String) (kind : String) (el : ElementData) : List String :=
  let label := (el.name.or (el.id.or (.string "<unnamed>"))).text
  errors ++
    (numericFields.filter fun f => (f.2 el).badNumber).map (fun f =>
      s!"{kind} \"{label}\": {f.1} must be a number, got {(f.2 el).typeof}") ++
    if el.type.badString then
      [s!"{kind} \"{label}\": type must be a string, got {el.type.typeof}"] else []

def validateElementTypes (doc : Document) : List String :=
  let hierarchy := doc.defaultBoundary.fold (fun errors b => checkElement errors "Boundary" b.toElementData)
    (fun errors c => checkElement errors "Component" c.toElementData) []
  let flows := doc.flows.foldl
    (fun errors f => checkElement errors "DataFlow" f.toElementData) hierarchy
  doc.items.foldl (fun errors i => checkElement errors "DataItem" i.toElementData) flows

structure ModelValidationError where
  code : String
  message : String
  path : Option String := none
  elementId : JsonValue := .absent

/-- The ids that were seen and the errors that were found so far. -/
structure Checked where
  seenIds : List JsonValue
  errors : List ModelValidationError

def checkId (s : Checked) (id : JsonValue) (kind : String) (name : JsonValue) : Checked :=
  if !id.truthy then s
  else
    let named := if name.truthy then s!" \"{name.text}\"" else ""
    { seenIds := id :: s.seenIds
      errors := if id ∈ s.seenIds then
          s.errors ++ [{
            code := "DUPLICATE_ELEMENT_ID"
            message := s!"Duplicate element id \"{id.text}\" ({kind}{named}) — element ids must be unique across the model"
            elementId := id }]
        else s.errors }

def validComponentTypes : List JsonValue :=
  [.string "PROCESS", .string "EXTERNAL_ENTITY", .string "STORE"]

/-- What `checkComponent` finds besides the id. -/
def componentErrors (c : ComponentData) : List ModelValidationError :=
  let label := (c.name.or c.id).text
  let expected := ", ".intercalate (validComponentTypes.map JsonValue.text)
  (if c.type ≠ .absent ∧ c.type ∉ validComponentTypes then
    [{ code := "INVALID_COMPONENT_TYPE"
       message := s!"Component \"{label}\" has invalid type \"{c.type.text}\" (expected one of: {expected})"
       elementId := c.id }] else []) ++
  ([("positionX", c.positionX), ("positionY", c.positionY)].filter fun f => f.2.badNumber).map
    fun f =>
      { code := "INVALID_POSITION"
        message := s!"Component \"{label}\": {f.1} must be a finite number, got {f.2.typeof}"
        elementId := c.id }

def checkComponent (s : Checked) (c : ComponentData) : Checked :=
  let s := checkId s c.id "component" c.name
  { s with errors := s.errors ++ componentErrors c }

/-- The walk over the boundaries (`walkBoundary`), then the data flows and the data items. -/
def checkIds (doc : Document) (errors : List ModelValidationError) : Checked :=
  let hierarchy := doc.defaultBoundary.fold (fun s b => checkId s b.id "boundary" b.name)
    checkComponent ⟨[], errors⟩
  let flows := doc.flows.foldl (fun s f => checkId s f.id "dataFlow" f.name) hierarchy
  doc.items.foldl (fun s i => checkId s i.id "dataItem" i.name) flows

def collectFlowEndpointIds (t : Nesting BoundaryData ComponentData) : List JsonValue :=
  t.fold (fun ids b => if b.id.truthy then ids ++ [b.id] else ids)
    (fun ids c => if c.id.truthy then ids ++ [c.id] else ids) []

/-- `!flow.source?.id || !endpointIds.has(flow.source.id)` -/
def badEndpoint (endpointIds : List JsonValue) (endpoint : Option JsonValue) : Bool :=
  let id := endpoint.getD .absent
  !id.truthy || id ∉ endpointIds

/-- The two endpoint checks of a data flow. -/
def flowErrors (endpointIds : List JsonValue) (flow : FlowData) : List ModelValidationError :=
  let references (endpoint : Option JsonValue) :=
    if (endpoint.getD .absent).truthy then "a non-existent" else "no"
  (if badEndpoint endpointIds flow.source then
    [{ code := "INVALID_FLOW_SOURCE"
       message := s!"Data flow \"{flow.name.text}\" references {references flow.source} source element"
       elementId := flow.id }] else []) ++
  if badEndpoint endpointIds flow.target then
    [{ code := "INVALID_FLOW_TARGET"
       message := s!"Data flow \"{flow.name.text}\" references {references flow.target} target element"
       elementId := flow.id }] else []

/-- `Set.prototype.add` of what is truthy, in insertion order. -/
def addAll (ids : List JsonValue) (value : List JsonValue) : List JsonValue :=
  value.foldl (fun ids id => if id.truthy ∧ id ∉ ids then ids ++ [id] else ids) ids

def collectUsedDataItemIds (doc : Document) : List JsonValue :=
  doc.flows.foldl (fun ids f => addAll ids f.dataItemIds)
    (doc.defaultBoundary.fold (fun ids b => addAll ids b.dataItemIds)
      (fun ids c => addAll ids c.dataItemIds) [])

structure ModelValidation where
  errors : List ModelValidationError
  warnings : List ModelValidationError

/-- `validateMonolithicModel`; the default boundary is there, since `validateImportData` ran first. -/
def validateMonolithicModel (doc : Document) : ModelValidation :=
  let missingName :=
    if !doc.name.truthy || !doc.name.isString then
      [{ code := "MISSING_NAME", message := "Model name is required", path := some "name" }] else []
  let missingId :=
    if !doc.defaultBoundary.data.id.truthy then
      [{ code := "MISSING_BOUNDARY_ID", message := "Default boundary must have an ID"
         path := some "defaultBoundary.id" }] else []
  let endpointIds := collectFlowEndpointIds doc.defaultBoundary
  let dataItemIds := doc.items.map (fun i => i.id)
  { errors := (checkIds doc (missingName ++ missingId)).errors ++
      doc.flows.flatMap (flowErrors endpointIds)
    warnings :=
      if doc.items = [] then []
      else ((collectUsedDataItemIds doc).filter (· ∉ dataItemIds)).map fun usedId =>
        { code := "ORPHANED_DATA_ITEM_REF"
          message := s!"Reference to non-existent data item: {usedId.text}"
          elementId := usedId } }

/-- If nothing was found on the way from `s` to `s'`, the ids were seen in turn, each for the first
time. -/
def Sees (s s' : Checked) (ids : List JsonValue) : Prop :=
  s'.errors = [] → s.errors = [] ∧ (s.seenIds.Nodup → s'.seenIds.Nodup) ∧
    s'.seenIds = (ids.filter JsonValue.truthy).reverse ++ s.seenIds

lemma Sees.trans {s s' s'' : Checked} {ids ids' : List JsonValue} (h : Sees s s' ids)
    (h' : Sees s' s'' ids') : Sees s s'' (ids ++ ids') := by
  intro hclean
  obtain ⟨hclean', hnodup', hseen'⟩ := h' hclean
  obtain ⟨hs, hnodup, hseen⟩ := h hclean'
  refine ⟨hs, fun hn => hnodup' (hnodup hn), ?_⟩
  rw [hseen', hseen, filter_append, reverse_append, append_assoc]

lemma sees_foldl {α : Type*} {f : Checked → α → Checked} {key : α → JsonValue}
    (hf : ∀ s a, Sees s (f s a) [key a]) :
    ∀ (l : List α) (s : Checked), Sees s (l.foldl f s) (l.map key)
  | [], _ => fun h => ⟨h, id, rfl⟩
  | a :: l, s => (hf s a).trans (sees_foldl hf l (f s a))

lemma sees_checkId (s : Checked) (id : JsonValue) (kind : String) (name : JsonValue) :
    Sees s (checkId s id kind name) [id] := by
  unfold checkId
  intro h
  by_cases htruthy : id.truthy
  · simp only [htruthy, Bool.not_true, Bool.false_eq_true, if_false] at h ⊢
    by_cases hseen : id ∈ s.seenIds
    · rw [if_pos hseen] at h
      exact absurd h (append_ne_nil_of_right_ne_nil _ (cons_ne_nil _ _))
    · rw [if_neg hseen] at h
      refine ⟨h, fun hn => nodup_cons.2 ⟨hseen, hn⟩, ?_⟩
      simp only [htruthy, filter_cons, if_true, filter_nil, reverse_singleton, singleton_append]
  · simp only [htruthy, Bool.not_false, if_true] at h ⊢
    refine ⟨h, fun hn => hn, ?_⟩
    simp only [htruthy, filter_cons, Bool.false_eq_true, if_false, filter_nil,
      reverse_nil, nil_append]

lemma sees_checkComponent (s : Checked) (c : ComponentData) : Sees s (checkComponent s c) [c.id] :=
  fun h => sees_checkId s c.id "component" c.name (append_eq_nil_iff.1 h).1

lemma sees_checkIds (doc : Document) (errors : List ModelValidationError) :
    Sees ⟨[], errors⟩ (checkIds doc errors)
      (doc.defaultBoundary.elements.map (fun e => (elementData e).id) ++
        doc.flows.map (fun f => f.id) ++ doc.items.map (fun i => i.id)) := by
  unfold checkIds
  rw [Nesting.fold_eq_foldl]
  refine ((sees_foldl (fun s e => ?_) _ _).trans (sees_foldl (fun s f => ?_) _ _)).trans
    (sees_foldl (fun s i => ?_) _ _)
  · cases e with
    | inl b => exact sees_checkId s b.id "boundary" b.name
    | inr c => exact sees_checkComponent s c
  · exact sees_checkId s f.id "dataFlow" f.name
  · exact sees_checkId s i.id "dataItem" i.name

variable {doc : Document} {t : Nesting BoundaryData ComponentData}

lemma mem_collectFlowEndpointIds {id : JsonValue} :
    id ∈ collectFlowEndpointIds t ↔ id.truthy ∧ ∃ e ∈ t.elements, (elementData e).id = id := by
  -- the collected ids after a walk over `l`, whatever was collected before
  have hwalk : ∀ (l : List (BoundaryData ⊕ ComponentData)) (ids : List JsonValue),
      id ∈ l.foldl (fun ids e => if (elementData e).id.truthy then ids ++ [(elementData e).id]
        else ids) ids ↔ id ∈ ids ∨ id.truthy ∧ ∃ e ∈ l, (elementData e).id = id := by
    intro l
    induction l with
    | nil => simp
    | cons e l ih =>
      intro ids
      rw [foldl_cons, ih]
      by_cases ht : (elementData e).id.truthy
      · simp only [ht, if_true, mem_append, mem_cons, not_mem_nil, or_false, exists_eq_or_imp]
        constructor
        · rintro ((h | rfl) | ⟨h, he⟩)
          · exact .inl h
          · exact .inr ⟨ht, .inl rfl⟩
          · exact .inr ⟨h, .inr he⟩
        · rintro (h | ⟨h, rfl | he⟩)
          · exact .inl (.inl h)
          · exact .inl (.inr rfl)
          · exact .inr ⟨h, he⟩
      · simp only [ht, if_false, mem_cons, exists_eq_or_imp, Bool.false_eq_true]
        refine or_congr_right (and_congr_right fun h => ⟨.inr, ?_⟩)
        rintro (rfl | he)
        · exact absurd h ht
        · exact he
  have hsame : collectFlowEndpointIds t = t.elements.foldl (fun ids e =>
      if (elementData e).id.truthy then ids ++ [(elementData e).id] else ids) [] := by
    unfold collectFlowEndpointIds
    rw [Nesting.fold_eq_foldl]
    congr 1
    funext ids e
    cases e with
    | inl b | inr c => rfl
  rw [hsame, hwalk]
  simp only [not_mem_nil, false_or]

lemma exists_of_badEndpoint {endpoint : Option JsonValue}
    (h : badEndpoint (collectFlowEndpointIds t) endpoint = false) :
    ∃ id, endpoint = some id ∧ id.truthy ∧ ∃ e ∈ t.elements, (elementData e).id = id := by
  unfold badEndpoint at h
  simp only [Bool.or_eq_false_iff, Bool.not_eq_false', decide_eq_false_iff_not, not_not] at h
  obtain ⟨htruthy, hmem⟩ := h
  cases endpoint with
  | none => exact absurd htruthy Bool.false_ne_true
  | some id => exact ⟨id, rfl, mem_collectFlowEndpointIds.1 hmem⟩

/-- The id of a boundary or a component. -/
def Document.IsEnd (doc : Document) (x : JsonValue) : Prop :=
  x.truthy ∧ ∃ e ∈ doc.defaultBoundary.elements, (elementData e).id = x

/-- What the import relies on in a document without errors: distinct ids, and data flows between
elements of the hierarchy. -/
structure Document.Sound (doc : Document) : Prop where
  nodup_ids : doc.ids.Nodup
  source_mem : ∀ f ∈ doc.flows, ∃ x, f.source = some x ∧ doc.IsEnd x
  target_mem : ∀ f ∈ doc.flows, ∃ x, f.target = some x ∧ doc.IsEnd x

/-- No data flow and no data item has the id of a boundary or a component. -/
theorem Document.Sound.notMem_of_isEnd (h : doc.Sound) {x : JsonValue}
    (hx : doc.IsEnd x) : x ∉ doc.flows.map (fun f => f.id) ∧ x ∉ doc.items.map (fun i => i.id) := by
  obtain ⟨htruthy, e, he, rfl⟩ := hx
  have hnodup := h.nodup_ids
  simp only [Document.ids, filter_append] at hnodup
  obtain ⟨hfront, -, hitems⟩ := nodup_append.1 hnodup
  obtain ⟨-, -, hflows⟩ := nodup_append.1 hfront
  -- the id would be in two of the three lists
  have hmem := mem_filter.2 ⟨mem_map_of_mem he (f := fun e => (elementData e).id), htruthy⟩
  constructor
  · exact fun hf => hflows _ hmem _ (mem_filter.2 ⟨hf, htruthy⟩) rfl
  · exact fun hi => hitems _ (mem_append_left _ hmem) _ (mem_filter.2 ⟨hi, htruthy⟩) rfl

lemma sound_of_validateMonolithicModel
    (h : (validateMonolithicModel doc).errors = []) : doc.Sound := by
  obtain ⟨hids, hflows⟩ := append_eq_nil_iff.1 h
  have hflow : ∀ f ∈ doc.flows,
      badEndpoint (collectFlowEndpointIds doc.defaultBoundary) f.source = false ∧
      badEndpoint (collectFlowEndpointIds doc.defaultBoundary) f.target = false := by
    intro f hf
    have hnil := flatMap_eq_nil_iff.1 hflows f hf
    obtain ⟨hsource, htarget⟩ := append_eq_nil_iff.1 hnil
    constructor
    · exact Bool.eq_false_iff.2 fun hbad =>
        absurd ((if_pos hbad).symm.trans hsource) (cons_ne_nil _ _)
    · exact Bool.eq_false_iff.2 fun hbad =>
        absurd ((if_pos hbad).symm.trans htarget) (cons_ne_nil _ _)
  refine ⟨?_, fun f hf => exists_of_badEndpoint (hflow f hf).1,
    fun f hf => exists_of_badEndpoint (hflow f hf).2⟩
  obtain ⟨-, hnodup, hseen⟩ := sees_checkIds doc _ hids
  have hreverse := hnodup nodup_nil
  rw [hseen, append_nil] at hreverse
  exact nodup_reverse.1 hreverse

lemma isEnd_of_validateImportData (h : validateImportData doc = none) :
    doc.IsEnd doc.defaultBoundary.data.id := by
  unfold validateImportData at h
  split_ifs at h with _ hid
  simp only [Bool.or_eq_true, Bool.not_eq_true', not_or, Bool.not_eq_false] at hid
  refine ⟨hid.1, .inl doc.defaultBoundary.data, ?_, rfl⟩
  rw [Nesting.elements_eq_cons_links]
  exact .head _

end ModelImport
