import Dethernety.Foundations.PartialFold
import Dethernety.ModelDirectory.AttributeFiles
import Dethernety.ModelDirectory.IdRewriters

/-!
# Rewriting a model directory

Model of `applyIdMapping` and `writeModelDirectory` in `directory-utils.ts`. `applyIdMapping` reads
the directory, rewrites the ids of all that it read (`rewriteIds`), which also removes the attribute
files of the old ids, and writes the result back; both end in the cleanup of stale attribute files.

The rewriters are a renaming of the model (`rewriteIds_isRenaming`): no field that holds an id is
forgotten or mapped twice.
-/

open List Function

namespace ModelDirectory

structure ModelFiles where
  manifest : ModelManifest
  modelStructure : ModelStructure String
  dataFlows : List (DataFlow String)
  dataItems : List (DataItem String)
  attributes : AttributeDisk

/-- `readModelDirectory`, with the issues of the attributes. -/
def readModelDirectory (dir : ModelFiles) : SplitModel × List AttributeReadIssue :=
  let read := readAttributes
    (some (buildElementLookup dir.modelStructure dir.dataFlows dir.dataItems)) dir.attributes
  ({ manifest := dir.manifest
     modelStructure := dir.modelStructure
     dataFlows := dir.dataFlows
     dataItems := dir.dataItems
     attributes := read.1 }, read.2)

section

variable (toLowerCase : String → String) (protectedFiles : List String)

/-- The step of `processAttributeGroup` for one bag; `none` is an id that `validateElementId` throws
at. -/
def renameBag (idMapping : IdMapping) (subdir : AttributesSubdir)
    (s : Record String ElementAttributes × AttributeDisk) (e : String × ElementAttributes) :
    Option (Record String ElementAttributes × AttributeDisk) :=
  let newId := idMapping.newId e.1
  if isValidElementId e.1 && isValidElementId newId then
    let updated := s.1.set newId (e.2.withElementId newId)
    if newId = e.1 then some (updated, s.2)
    else if isProtectedAttributeFile toLowerCase protectedFiles subdir (fileOf e.1) then
      some (updated, s.2)
    else some (updated, s.2.unlink subdir (fileOf e.1))
  else none

def processAttributeGroup (idMapping : IdMapping) (subdir : AttributesSubdir)
    (group : Record String ElementAttributes) (disk : AttributeDisk) :
    Option (Record String ElementAttributes × AttributeDisk) :=
  group.entries.foldlM (renameBag toLowerCase protectedFiles idMapping subdir) (∅, disk)

def updateAndRenameAttributes (idMapping : IdMapping) (attributes : ConsolidatedAttributesFile)
    (disk : AttributeDisk) : Option (ConsolidatedAttributesFile × AttributeDisk) :=
  ATTRIBUTES_SUBDIRS.foldlM (fun s subdir =>
    (processAttributeGroup toLowerCase protectedFiles idMapping subdir (attributes subdir) s.2).map
      fun r => (update s.1 subdir r.1, r.2)) (fun _ => ∅, disk)

/-- The rewriters of `applyIdMapping` on the model that it read. -/
def rewriteIds (idMapping : IdMapping) (modelId : String) (m : SplitModel) (disk : AttributeDisk) :
    Option (SplitModel × AttributeDisk) :=
  (updateAndRenameAttributes toLowerCase protectedFiles idMapping m.attributes disk).map fun r =>
    ({ manifest := updateManifest idMapping modelId m.manifest
       modelStructure := updateStructureIds idMapping m.modelStructure
       dataFlows := m.dataFlows.map (updateDataFlowIds idMapping)
       dataItems := m.dataItems.map (updateDataItemIds idMapping)
       attributes := r.1 }, r.2)

end

section

variable {toLowerCase : String → String} {protectedFiles : List String} {idMapping : IdMapping}
  {modelId : String} {m m' : SplitModel} {disk disk' : AttributeDisk} {subdir : AttributesSubdir}

/-- What the steps of `processAttributeGroup` come to. -/
lemma renameBag_eq_some {s s' : Record String ElementAttributes × AttributeDisk} {e : String × ElementAttributes}
    (h : renameBag toLowerCase protectedFiles idMapping subdir s e = some s') :
    isValidElementId (idMapping.newId e.1) = true ∧
      s'.1 = s.1.set (idMapping.newId e.1) (e.2.withElementId (idMapping.newId e.1)) ∧
      (s'.2 = s.2 ∨ isProtectedAttributeFile toLowerCase protectedFiles subdir (fileOf e.1) = false ∧
        s'.2 = s.2.unlink subdir (fileOf e.1)) := by
  simp only [renameBag] at h
  split_ifs at h with hvalid hsame hprot
  · cases h
    exact ⟨(Bool.and_eq_true_iff.1 hvalid).2, rfl, .inl rfl⟩
  · cases h
    exact ⟨(Bool.and_eq_true_iff.1 hvalid).2, rfl, .inl rfl⟩
  · cases h
    exact ⟨(Bool.and_eq_true_iff.1 hvalid).2, rfl, .inr ⟨Bool.not_eq_true _ ▸ hprot, rfl⟩⟩

/-- The bags of a group are renamed one by one if no two of their ids have one image. -/
lemma processAttributeGroup_entries {group updated : Record String ElementAttributes}
    (h : processAttributeGroup toLowerCase protectedFiles idMapping subdir group disk =
      some (updated, disk')) (hinj : Set.InjOn idMapping.newId {i | i ∈ group.keys}) :
    updated.entries = group.entries.map fun e => (idMapping.newId e.1, e.2.withElementId (idMapping.newId e.1)) := by
  refine foldlM_induction (P := fun done (s : Record String ElementAttributes × AttributeDisk) =>
    s.1.entries = done.map fun e => (idMapping.newId e.1, e.2.withElementId (idMapping.newId e.1)))
    h rfl ?_
  intro done e rest s s' hl hstep ih
  obtain ⟨-, hset, -⟩ := renameBag_eq_some hstep
  -- the image of the next id is new, as the ids of a group are distinct
  have hnew : idMapping.newId e.1 ∉ s.1.keys := by
    rw [Record.keys, ih, map_map, mem_map]
    rintro ⟨e', he', heq⟩
    have hmem : ∀ x ∈ done ++ e :: rest, x.1 ∈ group.keys := fun x hx =>
      mem_map_of_mem (hl ▸ hx)
    have hid : e'.1 = e.1 := hinj (hmem e' (mem_append_left _ he'))
      (hmem e (mem_append_right _ (.head _))) heq
    have hnodup := group.nodup_keys
    rw [hl, map_append, map_cons] at hnodup
    exact (nodup_append.1 hnodup).2.2 _ (mem_map_of_mem he') _ (.head _) hid
  rw [hset, Record.entries_set_of_notMem hnew, ih, map_append, map_singleton]

/-- Every group is processed. -/
lemma updateAndRenameAttributes_entries {attributes updated : ConsolidatedAttributesFile}
    (h : updateAndRenameAttributes toLowerCase protectedFiles idMapping attributes disk = some (updated, disk'))
    (hinj : ∀ subdir, Set.InjOn idMapping.newId {i | i ∈ (attributes subdir).keys}) (subdir : AttributesSubdir) :
    (updated subdir).entries = (attributes subdir).entries.map fun e =>
      (idMapping.newId e.1, e.2.withElementId (idMapping.newId e.1)) := by
  have hall : ∀ subdir ∈ ATTRIBUTES_SUBDIRS, (updated subdir).entries =
      (attributes subdir).entries.map fun e =>
        (idMapping.newId e.1, e.2.withElementId (idMapping.newId e.1)) := by
    refine foldlM_induction (P := fun done (s : ConsolidatedAttributesFile × AttributeDisk) =>
      ∀ subdir ∈ done, (s.1 subdir).entries = (attributes subdir).entries.map fun e =>
        (idMapping.newId e.1, e.2.withElementId (idMapping.newId e.1))) h
      (fun _ hmem => absurd hmem not_mem_nil) ?_
    intro done a rest s s' _ hstep ih subdir hmem
    obtain ⟨r, hr, rfl⟩ := Option.map_eq_some_iff.1 hstep
    by_cases ha : subdir = a
    · obtain rfl := ha
      show (update s.1 subdir r.1 subdir).entries = _
      rw [update_self]
      exact processAttributeGroup_entries hr (hinj subdir)
    · show (update s.1 a r.1 subdir).entries = _
      rw [update_of_ne ha]
      refine ih subdir ?_
      rw [mem_append, mem_singleton] at hmem
      exact hmem.resolve_right ha
  exact hall subdir (mem_ATTRIBUTES_SUBDIRS subdir)

lemma rewriteIds_isRenaming (h : rewriteIds toLowerCase protectedFiles idMapping modelId m disk = some (m', disk'))
    (hinj : Set.InjOn idMapping.newId {i | i ∈ m.occurring}) : IsRenaming idMapping.newId m m' := by
  obtain ⟨r, hr, heq⟩ := Option.map_eq_some_iff.1 h
  cases heq
  have hkeys : ∀ subdir, Set.InjOn idMapping.newId {i | i ∈ (m.attributes subdir).keys} := by
    refine fun subdir => hinj.mono fun i hi => mem_append_right _ ?_
    have hkey : (subdir.elementType, i) ∈ m.attributeKeys :=
      mem_flatMap.2 ⟨subdir, mem_ATTRIBUTES_SUBDIRS subdir, mem_map_of_mem hi⟩
    exact mem_map.2 ⟨_, mem_append_right _ hkey, rfl⟩
  constructor
  case manifest_rest => rfl
  case defaultBoundaryId =>
    show m.manifest.defaultBoundaryId.map idMapping.newReference = _
    rw [newReference_eq]
  case modelStructure => exact updateStructureIds_eq m.modelStructure
  case dataFlows => rfl
  case dataItems => rfl
  case attributes => exact updateAndRenameAttributes_entries hr hkeys

/-- The rewriters of `applyIdMapping` are a homomorphism: if no two ids that occur in the model have
one image, the rewritten model is the model with every id and every reference replaced by its image,
and a reference stands for the renamed element if it stood for an element, and for none if it was
dangling. -/
theorem rewriteIds_resolve
    (h : rewriteIds toLowerCase protectedFiles idMapping modelId m disk = some (m', disk'))
    (hinj : Set.InjOn idMapping.newId {i | i ∈ m.occurring}) :
    IsRenaming idMapping.newId m m' ∧
      m'.references = m.references.map (fun r => (r.1, idMapping.newId r.2)) ∧
      ∀ r ∈ m.references, m'.resolve r.1 (idMapping.newId r.2) =
        (m.resolve r.1 r.2).map (·.mapId idMapping.newId) := by
  have hrenaming := rewriteIds_isRenaming h hinj
  exact ⟨hrenaming, hrenaming.references, fun r hr => hrenaming.resolve hinj hr⟩

end

/-- A web shop, where the platform gives each new id to another element: the boundary gets `web`,
`web` gets `db` and `db` gets `db-2`. The item `logs` is dangling. -/
def webShop : SplitModel where
  manifest := { modelId := none, defaultBoundaryId := some "shop", rest := ∅ }
  modelStructure :=
    { defaultBoundary := .node
        { id := "shop", name := "Shop", parentBoundary := none, classData := none
          dataItemIds := some ["cards"], conduits := some [{ peerId := "vault", rest := ∅ }]
          controls := none, rest := ∅ }
        (some [.node
          { id := "vault", name := "Vault", parentBoundary := some "shop", classData := none
            dataItemIds := none, conduits := none, controls := none, rest := ∅ } none none])
        (some [
          { id := "web", name := "Web", parentBoundary := some "shop", classData := none
            dataItemIds := some ["cards", "logs"], controls := some [{ id := "tls", rest := ∅ }]
            rest := ∅ },
          { id := "db", name := "Database", parentBoundary := some "shop", classData := none
            dataItemIds := none, controls := none, rest := ∅ }]) }
  dataFlows := [
    { id := "query", name := "Query", source := "web", target := "db", classData := none
      dataItemIds := some ["cards"], controls := none, rest := ∅ }]
  dataItems := [{ id := "cards", name := "Cards", classData := none, controls := none, rest := ∅ }]
  attributes
    | .components => .ofList [("web", .ofList [("elementId", .string "web")])]
    | _ => ∅

def shopIds : IdMapping where
  map := .ofList [("shop", "web"), ("web", "db"), ("db", "db-2")]
  get?_empty := by decide +kernel
  notProto := by decide +kernel

theorem webShop_resolve : ∃ m' disk',
    rewriteIds id [] shopIds "m" webShop { files := fun _ => ∅, touched := [] } = some (m', disk') ∧
      IsRenaming shopIds.newId webShop m' ∧
      m'.references = webShop.references.map (fun r => (r.1, shopIds.newId r.2)) ∧
      ∀ r ∈ webShop.references, m'.resolve r.1 (shopIds.newId r.2) =
        (webShop.resolve r.1 r.2).map (·.mapId shopIds.newId) := by
  have hsome : (rewriteIds id [] shopIds "m" webShop
      { files := fun _ => ∅, touched := [] }).isSome = true := by
    decide +kernel
  have hinj : ∀ i ∈ webShop.occurring, ∀ j ∈ webShop.occurring,
      shopIds.newId i = shopIds.newId j → i = j := by
    decide +kernel
  obtain ⟨r, hr⟩ := Option.isSome_iff_exists.1 hsome
  exact ⟨r.1, r.2, hr, rewriteIds_resolve hr fun i hi j hj => hinj i hi j hj⟩

end ModelDirectory
