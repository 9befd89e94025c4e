import Dethernety.ModelUpdate.Update

/-!
# What the orphan sweep deletes

`deleteOrphanedElements` deletes what the platform has and the update did not mark. An element that
the document names is left unmarked where the update does not get to it: it is in a boundary that
could not be created, it is a data flow with an end that is not mapped, it is listed as another kind
of element, or its controls cannot be read. And a component that is deleted takes along the data flows
at it, marked or not. `Spared` says that none of this is so, and the sweep then keeps everything that
the document names.
-/

open List Record

namespace ModelUpdate

open ModelImport (JsonValue ServerId ElementKind)

section

variable (ex : ExistingModel) (doc : UpdateDocument)

def UpdateDocument.flows (doc : UpdateDocument) : List FlowEntry :=
  doc.dataFlows.getD []

def UpdateDocument.items (doc : UpdateDocument) : List ItemEntry :=
  doc.dataItems.getD []

def UpdateDocument.entries (doc : UpdateDocument) : List Entry :=
  doc.defaultBoundary.elements.map (Sum.elim id id) ++ doc.flows.map FlowEntry.toEntry ++
    doc.items.map ItemEntry.toEntry

/-- All ids that the platform has in the model. -/
def ExistingModel.all (ex : ExistingModel) : List ServerId :=
  ex.defaultBoundary.toList ++ ex.components ++ ex.boundaries ++ ex.dataFlows.keys ++ ex.dataItems

/-- The ids of created elements are new to the platform and to the document. -/
def Fresh : Prop :=
  ∀ e ∈ doc.entries, ∀ id, e.created = some id → id ∉ ex.all ∧ ofServer id ∉ doc.entries.map Entry.id

/-- Every boundary around an element exists or was created. -/
def Reached (path : List Entry) : Prop :=
  ∀ b ∈ path, (actualBoundaryId ex b).isSome

/-- The id of an entry is mapped once the entry is written. -/
def Maps (kind : ElementKind) (e : Entry) : Prop :=
  (findId (ex.ids kind) e.id).isSome ∨ (e.created.isSome ∧ e.id.truthy)

/-- A boundary or a component is written. -/
def Written : Entry ⊕ Entry → ElementKind × Entry
  | .inl b => (.boundary, b)
  | .inr c => (.component, c)

/-- One entry is written. -/
def Only (kind : ElementKind) (e : Entry) (k : ElementKind) (e' : Entry) : Prop :=
  k = kind ∧ e' = e

/-- A data item that can be written. -/
def InItems (items : List ItemEntry) (k : ElementKind) (e : Entry) : Prop :=
  ∃ i ∈ items, i.threw = none ∧ Only .dataItem i.toEntry k e

/-- A boundary or a component that the update gets to. -/
def InContent (l : List (List Entry × (Entry ⊕ Entry))) (k : ElementKind) (e : Entry) : Prop :=
  ∃ p ∈ l, Reached ex p.1 ∧ Written p.2 = (k, e)

/-- What an id names when the data flows are written: an element that exists, or an entry that was
created. -/
def Named (x : JsonValue) : Prop :=
  (∃ id ∈ ex.all, ofServer id = x) ∨
  ∃ k e, (InItems doc.items k e ∨ InContent ex doc.defaultBoundary.inner k e) ∧ Maps ex k e ∧ e.id = x

/-- What an id names after a data flow, where `named` is what it named before. -/
def NamedWith (named : JsonValue → Prop) (f : FlowEntry) (x : JsonValue) : Prop :=
  named x ∨ (named f.source ∧ named f.target ∧ Maps ex .dataFlow f.toEntry ∧ f.id = x)

/-- A data flow of a list that is listed where both of its ends are mapped. -/
def InFlows (named : JsonValue → Prop) (flows : List FlowEntry) (k : ElementKind) (e : Entry) : Prop :=
  k = .dataFlow ∧ ∃ before f after, flows = before ++ f :: after ∧ f.toEntry = e ∧
    before.foldl (NamedWith ex) named f.source ∧ before.foldl (NamedWith ex) named f.target

/-- The update gets to an entry, as the given kind of element. -/
def GetsTo (k : ElementKind) (e : Entry) : Prop :=
  (InItems doc.items k e ∨ InContent ex doc.defaultBoundary.inner k e) ∨ InFlows ex (Named ex doc) doc.flows k e

/-- The update gets to an element of the given kind. -/
def Listed (x : JsonValue) (k : ElementKind) : Prop :=
  ∃ e, GetsTo ex doc k e ∧ e.id = x

/-- A data flow is moved to the ends that an entry names. -/
def Moves (named : JsonValue → Prop) (f : FlowEntry) (x : JsonValue) : Prop :=
  named f.source ∧ named f.target ∧ f.landed = true ∧ f.id = x

/-- What a data flow starts and ends at on the platform. -/
def ExistingModel.Ends (x y : JsonValue) : Prop :=
  ∃ id c, ofServer id = x ∧ ofServer c = y ∧ c ∈ (ex.dataFlows.get? id).getD []

/-- What a data flow starts and ends at after some data flows, where `ends` is what it was before. -/
def EndsAfter (named : JsonValue → Prop) (ends : JsonValue → JsonValue → Prop) :
    List FlowEntry → JsonValue → JsonValue → Prop
  | [], x, y => ends x y
  | f :: flows, x, y => EndsAfter (NamedWith ex named f)
      (fun x y => (¬ Moves named f x ∧ ends x y) ∨ (Moves named f x ∧ (f.source = y ∨ f.target = y))) flows x y

/-- The update gets to every element that exists and that the document names, as the kind of element that
it is, and to the components that such a data flow is at in the end. -/
structure Spared : Prop where
  listed : ∀ kind, ∀ id ∈ ex.ids kind, ofServer id ∈ doc.entries.map Entry.id → Listed ex doc (ofServer id) kind
  ends : ∀ id ∈ ex.dataFlows.keys, ofServer id ∈ doc.entries.map Entry.id → ∀ c ∈ ex.components,
    EndsAfter ex (Named ex doc) ex.Ends doc.flows (ofServer id) (ofServer c) → Listed ex doc (ofServer c) .component

/-- What stands between the fetch and the sweep does not throw, and the sweep is wanted. -/
def SweepsElements (env : Environment) : Prop :=
  env.onProgress "Updating data items" = none ∧ env.onProgress "Updating default boundary" = none ∧
  env.onProgress "Updating boundaries and components" = none ∧ env.conduits = none ∧
  env.onProgress "Updating data flows" = none ∧
  env.onProgress "Cleaning up orphaned elements" = none ∧ env.deleteOrphaned = true

/-- The update gets to the sweep, if there is a model to update. -/
def Sweeps (env : Environment) : Prop :=
  env.onProgress "Validating update data" = none ∧ doc.name.truthy ∧
  env.onProgress "Fetching existing model structure" = none ∧ env.resolveClasses = none ∧
  SweepsElements env

instance (env : Environment) : Decidable (SweepsElements env) := by
  unfold SweepsElements
  infer_instance

instance (env : Environment) : Decidable (Sweeps doc env) := by
  unfold Sweeps
  infer_instance

end

section

variable {ex : ExistingModel} {s : UpdateState} {kind k : ElementKind} {e : Entry} {x : JsonValue}

lemma ofServer_injective : Function.Injective ofServer :=
  fun _ _ h => Subtype.ext (JsonValue.string.inj h)

lemma findId_eq_some_iff {ids : List ServerId} {id : ServerId} :
    findId ids x = some id ↔ id ∈ ids ∧ ofServer id = x := by
  constructor
  · intro h
    exact ⟨mem_of_find?_eq_some h, by simpa using find?_some h⟩
  · rintro ⟨hmem, rfl⟩
    cases hfind : findId ids (ofServer id) with
    | none =>
      have hnot := find?_eq_none.1 hfind id hmem
      simp at hnot
    | some id' =>
      have hid' : ofServer id' = ofServer id := by simpa using find?_some hfind
      rw [ofServer_injective hid']

/-- The platform ids that the write of an entry marks. -/
def marks (ex : ExistingModel) (kind : ElementKind) (e : Entry) : List ServerId :=
  match findId (ex.ids kind) e.id with
  | some id => [id]
  | none =>
    match e.created with
    | some id => if e.id.truthy ∨ kind = .boundary then [id] else []
    | none => []

lemma mem_all_of_mem_ids {id : ServerId} (h : id ∈ ex.ids kind) : id ∈ ex.all := by
  cases kind <;> simp only [ExistingModel.ids] at h <;>
    simp only [ExistingModel.all, mem_append, h, true_or, or_true]

lemma mem_marks (hfresh : ∀ id, e.created = some id → id ∉ ex.all) {id : ServerId}
    (hid : id ∈ ex.ids kind) : id ∈ marks ex kind e ↔ e.id = ofServer id := by
  unfold marks
  cases hfind : findId (ex.ids kind) e.id with
  | some id' =>
    obtain ⟨-, hname⟩ := findId_eq_some_iff.1 hfind
    rw [← hname, mem_singleton, ofServer_injective.eq_iff, eq_comm]
  | none =>
    -- the entry names no element of its kind, and what it creates is new
    have hname : e.id ≠ ofServer id := by
      intro hname
      rw [hname, findId_eq_some_iff.2 ⟨hid, rfl⟩] at hfind
      exact absurd hfind (Option.some_ne_none id)
    refine iff_of_false (fun hmem => ?_) hname
    simp only at hmem
    split at hmem
    next id' hcreated =>
      split_ifs at hmem
      · rw [mem_singleton] at hmem
        exact hfresh id' hcreated (hmem ▸ mem_all_of_mem_ids hid)
      · exact absurd hmem not_mem_nil
    next => exact absurd hmem not_mem_nil

end

section

variable {ex : ExistingModel}

lemma created_of_mem_marks {kind : ElementKind} {e : Entry} {id : ServerId} (h : id ∈ marks ex kind e) :
    ofServer id = e.id ∨ e.created = some id := by
  unfold marks at h
  split at h
  next id' hfind =>
    rw [mem_singleton.1 h]
    exact .inl (findId_eq_some_iff.1 hfind).2
  next =>
    split at h
    next id' hcreated =>
      split_ifs at h
      · exact .inr (hcreated.trans (congrArg some (mem_singleton.1 h).symm))
      · cases h
    next => cases h

/-- Nothing but its own id is mapped to an element. -/
def OwnKey (s : UpdateState) (c : ServerId) : Prop :=
  ∀ x, s.idMapping.get? x = some c ↔ ofServer c = x

/-- What writing the entries in `W` does to the ids that are marked and mapped. -/
structure Effect (ex : ExistingModel) (W : ElementKind → Entry → Prop) (s s' : UpdateState) :
    Prop where
  processed : ∀ k id, id ∈ s'.processed k ↔ id ∈ s.processed k ∨ ∃ e, W k e ∧ id ∈ marks ex k e
  keys : ∀ x, x ∈ s'.idMapping.keys ↔ x ∈ s.idMapping.keys ∨ ∃ k e, W k e ∧ Maps ex k e ∧ e.id = x
  ownKey : ∀ c, (∀ k e, W k e → e.id ≠ ofServer c ∧ e.created ≠ some c) → OwnKey s c → OwnKey s' c
  ends : (∀ k e, W k e → k ≠ .dataFlow) → s'.ends = s.ends
  deleted : s'.deleted = s.deleted

lemma Effect.refl (s : UpdateState) : Effect ex (fun _ _ => False) s s :=
  ⟨fun k id => by simp, fun x => by simp, fun _ _ h => h, fun _ => rfl, rfl⟩

variable {W W' : ElementKind → Entry → Prop} {s s' : UpdateState}

lemma Effect.trans {s'' : UpdateState}
    (h : Effect ex W s s') (h' : Effect ex W' s' s'') :
    Effect ex (fun k e => W k e ∨ W' k e) s s'' where
  processed := by
    intro k id
    rw [h'.processed, h.processed, or_assoc, ← exists_or]
    simp only [or_and_right]
  keys := by
    intro x
    rw [h'.keys, h.keys, or_assoc, ← exists_or]
    simp only [or_and_right, exists_or]
  ownKey c hc hown := h'.ownKey c (fun k e he => hc k e (.inr he)) (h.ownKey c (fun k e he => hc k e (.inl he)) hown)
  ends hW := (h'.ends fun k e he => hW k e (.inr he)).trans (h.ends fun k e he => hW k e (.inl he))
  deleted := h'.deleted.trans h.deleted

lemma Effect.congr (h : Effect ex W s s') (hW : ∀ k e, W k e ↔ W' k e) : Effect ex W' s s' := by
  obtain rfl : W = W' := funext fun k => funext fun e => propext (hW k e)
  exact h

/-- A loop writes what its rounds write. -/
lemma effect_foldl {α : Type*} {step : UpdateState → α → UpdateState}
    {W : α → ElementKind → Entry → Prop} (hstep : ∀ s a, Effect ex (W a) s (step s a)) :
    ∀ (l : List α) (s : UpdateState), Effect ex (fun k e => ∃ a ∈ l, W a k e) s (l.foldl step s)
  | [], s => (Effect.refl s).congr fun k e => by simp
  | a :: l, s => ((hstep s a).trans (effect_foldl hstep l (step s a))).congr fun k e => by simp

section

variable (s : UpdateState) (k kind : ElementKind) (e : Entry) (id : ServerId)

@[simp]
lemma processed_record (errors : List UpdateError) : (s.record errors).processed k = s.processed k := by
  cases k <;> rfl

@[simp]
lemma processed_mapId (x : JsonValue) : (s.mapId x id).processed k = s.processed k := by
  cases k <;> rfl

@[simp]
lemma processed_fail (step error : String) : (s.fail step e error).processed k = s.processed k := by
  cases k <;> rfl

@[simp]
lemma processed_countCreated : s.countCreated.processed k = s.processed k := by
  cases k <;> rfl

@[simp]
lemma mem_processed_markProcessed {id' : ServerId} :
    id' ∈ (s.markProcessed kind id).processed k ↔ id' ∈ s.processed k ∨ (k = kind ∧ id' = id) := by
  cases k <;> cases kind <;> simp [UpdateState.markProcessed, UpdateState.processed]

@[simp]
lemma idMapping_markProcessed : (s.markProcessed kind id).idMapping = s.idMapping := by
  cases kind <;> rfl

@[simp]
lemma deleted_markProcessed : (s.markProcessed kind id).deleted = s.deleted := by
  cases kind <;> rfl

@[simp]
lemma ends_markProcessed : (s.markProcessed kind id).ends = s.ends := by
  cases kind <;> rfl

end

variable {s s' : UpdateState} {kind : ElementKind} {e : Entry}

lemma effect_only
    (hprocessed : ∀ k id, id ∈ s'.processed k ↔ id ∈ s.processed k ∨ (k = kind ∧ id ∈ marks ex kind e))
    (hkeys : ∀ x, x ∈ s'.idMapping.keys ↔ x ∈ s.idMapping.keys ∨ (Maps ex kind e ∧ e.id = x))
    (hown : ∀ c, e.id ≠ ofServer c → e.created ≠ some c → OwnKey s c → OwnKey s' c) (hends : s'.ends = s.ends)
    (hdeleted : s'.deleted = s.deleted) : Effect ex (Only kind e) s s' where
  processed := by
    intro k id
    rw [hprocessed]
    refine or_congr_right ⟨?_, ?_⟩
    · rintro ⟨rfl, hid⟩
      exact ⟨e, ⟨rfl, rfl⟩, hid⟩
    · rintro ⟨_, ⟨rfl, rfl⟩, hid⟩
      exact ⟨rfl, hid⟩
  keys := by
    intro x
    rw [hkeys]
    refine or_congr_right ⟨?_, ?_⟩
    · rintro ⟨hmaps, hx⟩
      exact ⟨kind, e, ⟨rfl, rfl⟩, hmaps, hx⟩
    · rintro ⟨_, _, ⟨rfl, rfl⟩, hmaps, hx⟩
      exact ⟨hmaps, hx⟩
  ownKey c hc := hown c (hc kind e ⟨rfl, rfl⟩).1 (hc kind e ⟨rfl, rfl⟩).2
  ends _ := hends
  deleted := hdeleted

lemma effect_none (hmarks : marks ex kind e = []) (hmaps : ¬ Maps ex kind e)
    (hprocessed : ∀ k, s'.processed k = s.processed k) (hmapping : s'.idMapping = s.idMapping)
    (hends : s'.ends = s.ends) (hdeleted : s'.deleted = s.deleted) : Effect ex (Only kind e) s s' := by
  refine effect_only (fun k id => ?_) (fun x => ?_) (fun c _ _ hown x => by rw [hmapping, hown]) hends hdeleted
  · rw [hprocessed, hmarks]
    simp
  · rw [hmapping]
    simp [hmaps]

lemma effect_mapped {id : ServerId} (hmarks : marks ex kind e = [id]) (hmaps : Maps ex kind e)
    (hprocessed : ∀ k, s'.processed k = (s.markProcessed kind id).processed k)
    (hmapping : s'.idMapping = s.idMapping.set e.id id) (hends : s'.ends = s.ends)
    (hdeleted : s'.deleted = s.deleted) : Effect ex (Only kind e) s s' := by
  refine effect_only (fun k id' => ?_) (fun x => ?_) (fun c hname hnot hown x => ?_) hends hdeleted
  · rw [hprocessed, mem_processed_markProcessed, hmarks, mem_singleton]
  · rw [hmapping, mem_keys_set, or_comm, eq_comm]
    simp [hmaps]
  · rw [hmapping, get?_set]
    split_ifs with hx
    · refine iff_of_false (fun hid => ?_) fun hc => hname (hx.trans hc.symm)
      rcases created_of_mem_marks (hmarks ▸ mem_singleton_self id) with hid' | hid'
      · exact hname (hid'.symm.trans (congrArg ofServer (Option.some.inj hid)))
      · exact hnot (hid'.trans hid)
    · exact hown x

lemma effect_updateExisting {id : ServerId} (hfind : findId (ex.ids kind) e.id = some id) :
    Effect ex (Only kind e) s (updateExisting kind s e id) := by
  have hmarks : marks ex kind e = [id] := by
    unfold marks
    rw [hfind]
  exact effect_mapped hmarks (.inl (hfind ▸ rfl)) (fun k => by cases k <;> cases kind <;> rfl)
    (by cases kind <;> rfl) (by cases kind <;> rfl) (by cases kind <;> rfl)

lemma effect_createNew (hfind : findId (ex.ids kind) e.id = none) (hkind : kind ≠ .boundary) :
    Effect ex (Only kind e) s (createNew kind s e) := by
  unfold createNew
  cases hcreated : e.created with
  | none =>
    refine effect_none ?_ ?_ (fun k => processed_record s k _) rfl rfl rfl
    · simp [marks, hfind, hcreated]
    · simp [Maps, hfind, hcreated]
  | some id =>
    by_cases htruthy : e.id.truthy
    · have hmarks : marks ex kind e = [id] := by simp [marks, hfind, hcreated, htruthy]
      simp only [htruthy, if_true]
      exact effect_mapped hmarks (.inr ⟨hcreated ▸ rfl, htruthy⟩)
        (fun k => by cases k <;> cases kind <;> rfl) (by cases kind <;> rfl) (by cases kind <;> rfl)
        (by cases kind <;> rfl)
    · simp only [htruthy, Bool.false_eq_true, if_false]
      refine effect_none ?_ ?_ (fun k => processed_record s k _) rfl rfl rfl
      · simp [marks, hfind, hcreated, htruthy, hkind]
      · simp [Maps, hfind, htruthy]

lemma effect_updateComponent (s : UpdateState) (c : Entry) :
    Effect ex (Only .component c) s (updateComponent ex s c) := by
  unfold updateComponent
  split
  next id hfind => exact effect_updateExisting hfind
  next hfind => exact effect_createNew hfind (by decide)

/-- A boundary without an id is marked, though nothing is mapped to it. -/
lemma effect_updateBoundary (s : UpdateState) (b : Entry) :
    Effect ex (Only .boundary b) s (updateBoundary ex s b) := by
  unfold updateBoundary
  split
  next id hfind => exact effect_updateExisting hfind
  next hfind =>
    split
    next id hcreated =>
      have hfind' : findId (ex.ids .boundary) b.id = none := hfind
      have hmarks : marks ex .boundary b = [id] := by simp [marks, hfind', hcreated]
      by_cases htruthy : b.id.truthy
      · simp only [htruthy, if_true]
        exact effect_mapped hmarks (.inr ⟨hcreated ▸ rfl, htruthy⟩) (fun k => by cases k <;> rfl)
          rfl rfl rfl
      · have hmaps : ¬ Maps ex .boundary b := by simp [Maps, hfind', htruthy]
        simp only [htruthy, Bool.false_eq_true, if_false]
        refine effect_only (fun k id' => ?_) (fun x => ?_) (fun _ _ _ hown => ?_) ?_ ?_
        · simp [hmarks]
        · simp [hmaps, UpdateState.countCreated, UpdateState.record]
        · exact hown
        all_goals simp [UpdateState.countCreated, UpdateState.record]
    next hcreated =>
      have hfind' : findId (ex.ids .boundary) b.id = none := hfind
      refine effect_none ?_ ?_ (fun k => processed_record s k _) rfl rfl rfl
      · simp [marks, hfind', hcreated]
      · simp [Maps, hfind', hcreated]

lemma effect_updateDataItem (s : UpdateState) (i : ItemEntry) :
    Effect ex (fun k e => i.threw = none ∧ Only .dataItem i.toEntry k e) s (updateDataItem ex s i) := by
  unfold updateDataItem
  split
  next message hthrew =>
    -- nothing is marked, even if the item exists
    refine ⟨fun k id => ?_, fun x => ?_, fun _ _ hown => hown, fun _ => rfl, rfl⟩
    · simp [hthrew]
    · simp [hthrew, UpdateState.fail]
  next hthrew =>
    refine Effect.congr (W := Only .dataItem i.toEntry) ?_ fun k e => by simp [hthrew]
    split
    next id hfind =>
      have hfind' : findId (ex.ids .dataItem) i.id = some id := hfind
      have hmarks : marks ex .dataItem i.toEntry = [id] := by simp [marks, hfind']
      have hmaps : Maps ex .dataItem i.toEntry := .inl (hfind' ▸ rfl)
      split_ifs
      all_goals exact effect_mapped hmarks hmaps (fun k => by cases k <;> rfl) rfl rfl rfl
    next hfind =>
      have hfind' : findId (ex.ids .dataItem) i.id = none := hfind
      split
      next id _ => exact effect_createNew hfind' (by decide)
      next hcreated =>
        refine effect_none ?_ ?_ (fun k => processed_fail s k _ _ _) rfl rfl rfl
        · simp [marks, hfind', hcreated]
        · simp [Maps, hfind', hcreated]

variable {l : List (List Entry × (Entry ⊕ Entry))} {k : ElementKind}

lemma inContent_append {l' : List (List Entry × (Entry ⊕ Entry))} :
    InContent ex (l ++ l') k e ↔ InContent ex l k e ∨ InContent ex l' k e := by
  simp only [InContent, mem_append, or_and_right, exists_or]

lemma inContent_map_cons {b : Entry} :
    InContent ex (l.map (Prod.map (b :: ·) id)) k e ↔ (actualBoundaryId ex b).isSome ∧ InContent ex l k e := by
  constructor
  · rintro ⟨_, hmem, hreached, hwritten⟩
    obtain ⟨p, hp, rfl⟩ := mem_map.1 hmem
    exact ⟨hreached b (.head _), p, hp, fun b' hb' => hreached b' (.tail _ hb'), hwritten⟩
  · rintro ⟨hb, p, hp, hreached, hwritten⟩
    refine ⟨_, mem_map_of_mem hp, ?_, hwritten⟩
    rintro b' (_ | ⟨_, hb'⟩)
    · exact hb
    · exact hreached b' hb'

mutual

/-- The content of a boundary is written as far as the update gets to it. -/
lemma effect_updateContent : ∀ (t : Nesting Entry Entry) (s : UpdateState),
    Effect ex (InContent ex t.inner) s (updateContent ex t s)
  | .node d boundaries components, s => by
    rw [updateContent, Nesting.inner]
    refine ((effect_updateBoundaries boundaries s).trans
      (effect_foldl effect_updateComponent (components.getD []) _)).congr fun k e => ?_
    rw [inContent_append]
    refine or_congr_right ⟨?_, ?_⟩
    · rintro ⟨c, hc, rfl, rfl⟩
      exact ⟨_, mem_map_of_mem hc, fun b hb => absurd hb not_mem_nil, rfl⟩
    · rintro ⟨_, hp, -, hwritten⟩
      obtain ⟨c, hc, rfl⟩ := mem_map.1 hp
      obtain ⟨rfl, rfl⟩ := Prod.mk.inj hwritten
      exact ⟨c, hc, rfl, rfl⟩

lemma effect_updateBoundaries : ∀ (o : Option (List (Nesting Entry Entry))) (s : UpdateState),
    Effect ex (InContent ex (Nesting.innerOption o)) s (updateBoundaries ex o s)
  | none, s => (Effect.refl s).congr fun k e => by simp [InContent, Nesting.innerOption]
  | some l, s => effect_updateBoundariesRecursive l s

lemma effect_updateBoundariesRecursive : ∀ (l : List (Nesting Entry Entry)) (s : UpdateState),
    Effect ex (InContent ex (Nesting.innerList l)) s (updateBoundariesRecursive ex l s)
  | [], s => (Effect.refl s).congr fun k e => by simp [InContent, Nesting.innerList]
  | t :: l, s => by
    have hself : ∀ k e, InContent ex [([], .inl t.data)] k e ↔ Only .boundary t.data k e := by
      intro k e
      constructor
      · rintro ⟨p, hp, -, hwritten⟩
        rw [mem_singleton.1 hp] at hwritten
        cases hwritten
        exact ⟨rfl, rfl⟩
      · rintro ⟨rfl, rfl⟩
        exact ⟨_, mem_singleton_self _, fun b hb => absurd hb not_mem_nil, rfl⟩
    rw [updateBoundariesRecursive, Nesting.innerList]
    split
    next id hactual =>
      refine ((effect_updateBoundary s t.data).trans ((effect_updateContent t _).trans
        (effect_updateBoundariesRecursive l _))).congr fun k e => ?_
      rw [← singleton_append, inContent_append, inContent_append, inContent_map_cons, hself,
        hactual]
      simp
    next hactual =>
      -- nothing in this boundary is written
      refine ((effect_updateBoundary s t.data).trans
        (effect_updateBoundariesRecursive l _)).congr fun k e => ?_
      rw [← singleton_append, inContent_append, inContent_append, inContent_map_cons, hself,
        hactual]
      simp

end

variable {named : JsonValue → Prop}

lemma inFlows_cons {f : FlowEntry} {flows : List FlowEntry} :
    InFlows ex named (f :: flows) k e ↔ (named f.source ∧ named f.target ∧ Only .dataFlow f.toEntry k e) ∨
      InFlows ex (NamedWith ex named f) flows k e := by
  constructor
  · rintro ⟨rfl, before, f', after, hflows, rfl, hends⟩
    cases before with
    | nil =>
      cases hflows
      exact .inl ⟨hends.1, hends.2, rfl, rfl⟩
    | cons f₀ before =>
      cases hflows
      exact .inr ⟨rfl, before, f', after, rfl, rfl, hends⟩
  · rintro (⟨hsource, htarget, rfl, rfl⟩ | ⟨rfl, before, f', after, rfl, rfl, hends⟩)
    · exact ⟨rfl, [], f, flows, rfl, rfl, hsource, htarget⟩
    · exact ⟨rfl, f :: before, f', after, rfl, rfl, hends⟩

lemma Effect.setEnds (h : Effect ex (Only .dataFlow e) s s') (ends : Record ServerId (List ServerId)) :
    Effect ex (Only .dataFlow e) s { s' with ends := ends } where
  processed k := h.processed (k := k)
  keys := h.keys
  ownKey := h.ownKey
  ends hW := absurd rfl (hW .dataFlow e ⟨rfl, rfl⟩)
  deleted := h.deleted

lemma effect_updateDataFlow (s : UpdateState) (f : FlowEntry) :
    Effect ex (fun k e => f.source ∈ s.idMapping.keys ∧ f.target ∈ s.idMapping.keys ∧
      Only .dataFlow f.toEntry k e) s (updateDataFlow ex s f) := by
  by_cases hends : f.source ∈ s.idMapping.keys ∧ f.target ∈ s.idMapping.keys
  · obtain ⟨hsource, htarget⟩ := hends
    refine Effect.congr (W := Only .dataFlow f.toEntry) ?_ fun k e => by simp [hsource, htarget]
    obtain ⟨sourceId, hsourceId⟩ := Option.isSome_iff_exists.1 (mem_keys_iff.1 hsource)
    obtain ⟨targetId, htargetId⟩ := Option.isSome_iff_exists.1 (mem_keys_iff.1 htarget)
    unfold updateDataFlow
    simp only [hsourceId, htargetId]
    split
    next id hfind =>
      have heffect : Effect ex (Only .dataFlow f.toEntry) s _ := effect_updateExisting hfind
      split_ifs
      · exact heffect.setEnds _
      · exact heffect
    next hfind =>
      have heffect : Effect ex (Only .dataFlow f.toEntry) s _ := effect_createNew hfind (by decide)
      split
      · exact heffect.setEnds _
      · exact heffect
  · have hskip : updateDataFlow ex s f =
        s.fail "update_data_flows" f.toEntry "Source or target component not found" := by
      unfold updateDataFlow
      split
      next hsource htarget =>
        exact absurd ⟨mem_keys_of_get? hsource, mem_keys_of_get? htarget⟩ hends
      next => rfl
    rw [hskip]
    refine ⟨fun k id => ?_, fun x => ?_, fun _ _ hown => hown, fun _ => rfl, rfl⟩
    · rw [processed_fail]
      refine (or_iff_left ?_).symm
      rintro ⟨_, ⟨hsource, htarget, -⟩, -⟩
      exact hends ⟨hsource, htarget⟩
    · refine (or_iff_left ?_).symm
      rintro ⟨_, _, ⟨hsource, htarget, -⟩, -⟩
      exact hends ⟨hsource, htarget⟩

/-- What is mapped after a data flow. -/
lemma keys_updateDataFlow (f : FlowEntry) (hnamed : ∀ x, x ∈ s.idMapping.keys ↔ named x)
    (x : JsonValue) : x ∈ (updateDataFlow ex s f).idMapping.keys ↔ NamedWith ex named f x := by
  rw [(effect_updateDataFlow s f).keys]
  simp only [hnamed]
  refine or_congr_right ⟨?_, ?_⟩
  · rintro ⟨_, _, ⟨hsource, htarget, rfl, rfl⟩, hmaps, hx⟩
    exact ⟨hsource, htarget, hmaps, hx⟩
  · rintro ⟨hsource, htarget, hmaps, hx⟩
    exact ⟨_, _, ⟨hsource, htarget, rfl, rfl⟩, hmaps, hx⟩

lemma effect_updateDataFlows : ∀ (flows : List FlowEntry) (named : JsonValue → Prop)
    (s : UpdateState), (∀ x, x ∈ s.idMapping.keys ↔ named x) →
    Effect ex (InFlows ex named flows) s (flows.foldl (updateDataFlow ex) s)
  | [], named, s, _ => (Effect.refl s).congr fun k e => by simp [InFlows]
  | f :: flows, named, s, hnamed => by
    have hstep : Effect ex _ s (updateDataFlow ex s f) := effect_updateDataFlow s f
    simp only [hnamed] at hstep
    exact (hstep.trans (effect_updateDataFlows flows _ _ (keys_updateDataFlow f hnamed))).congr
      fun k e => inFlows_cons.symm

end

section

variable {ex : ExistingModel} {doc : UpdateDocument} {env : Environment}

/-- The writes before the data flows, with the existing model tracked before. -/
def writtenElements (ex : ExistingModel) (doc : UpdateDocument) (env : Environment) : UpdateState :=
  let s := (trackExisting ex .initial).record env.modelErrors
  let s := (doc.items.foldl (updateDataItem ex) s).record env.defaultBoundaryErrors
  (updateContent ex doc.defaultBoundary s).record env.conduitErrors

/-- All writes of an update, with nothing swept yet. -/
def written (ex : ExistingModel) (doc : UpdateDocument) (env : Environment) : UpdateState :=
  (doc.flows.foldl (updateDataFlow ex) (writtenElements ex doc env)).record env.attributeErrors

/-- The delete calls of a step, whether it throws or not. -/
def stepDeleted : Step → List (ElementKind × ServerId)
  | .ok s => s.deleted
  | .error (_, s) => s.deleted

lemma deleted_updateModel : (updateModel doc env).deleted = stepDeleted (updateBody doc env) := by
  unfold updateModel
  split
  next s hs => rw [hs]; rfl
  next message s hs => rw [hs]; rfl

lemma stepDeleted_updateProgress_bind (stepName : String) (s : UpdateState)
    (f : UpdateState → Step) : stepDeleted (updateProgress env stepName s >>= f) =
      if env.onProgress stepName = none then stepDeleted (f s) else s.deleted := by
  unfold updateProgress
  cases env.onProgress stepName with
  | none | some message => rfl

lemma stepDeleted_pass_bind (threw : Option String) (errors : List UpdateError) (s : UpdateState)
    (f : UpdateState → Step) : stepDeleted (pass threw errors s >>= f) =
      if threw = none then stepDeleted (f (s.record errors)) else s.deleted := by
  cases threw with
  | none | some message => rfl

lemma stepDeleted_updateProgress (stepName : String) (s : UpdateState) :
    stepDeleted (updateProgress env stepName s) = s.deleted := by
  unfold updateProgress
  cases env.onProgress stepName with
  | none | some message => rfl

/-- Every id that the platform has is mapped to itself, and nothing else is done. -/
lemma trackExisting_eq (s : UpdateState) : trackExisting ex s =
    { s with
      idMapping := ex.all.foldl (fun m id => m.set (ofServer id) id) s.idMapping
      ends := ex.dataFlows } := by
  have hfold : ∀ (l : List ServerId) (s : UpdateState), l.foldl (fun s id => s.mapId (ofServer id) id) s =
      { s with idMapping := l.foldl (fun m id => m.set (ofServer id) id) s.idMapping } := by
    intro l
    induction l with
    | nil => exact fun _ => rfl
    | cons id _ ih => exact fun s => ih _
  exact congrArg (fun s : UpdateState => { s with ends := ex.dataFlows }) (hfold _ s)

@[simp]
lemma deleted_trackExisting (s : UpdateState) : (trackExisting ex s).deleted = s.deleted := by
  rw [trackExisting_eq]

@[simp]
lemma deleted_record (s : UpdateState) (errors : List UpdateError) : (s.record errors).deleted = s.deleted :=
  rfl

@[simp]
lemma deleted_updateDataItems (l : List ItemEntry) (s : UpdateState) :
    (l.foldl (updateDataItem ex) s).deleted = s.deleted :=
  (effect_foldl effect_updateDataItem l s).deleted

@[simp]
lemma deleted_updateContent (t : Nesting Entry Entry) (s : UpdateState) :
    (updateContent ex t s).deleted = s.deleted :=
  (effect_updateContent t s).deleted

@[simp]
lemma deleted_updateDataFlows (l : List FlowEntry) (s : UpdateState) :
    (l.foldl (updateDataFlow ex) s).deleted = s.deleted :=
  (effect_updateDataFlows l _ s fun _ => Iff.rfl).deleted

/-- Steps 4 to 9 delete something only if they get to the sweep. -/
lemma stepDeleted_updateElements (s : UpdateState) (hs : s.deleted = []) :
    stepDeleted (updateElements ex doc env s) =
      if SweepsElements env then
        (deleteOrphanedElements ex ((doc.flows.foldl (updateDataFlow ex)
          ((updateContent ex doc.defaultBoundary ((doc.items.foldl (updateDataItem ex) s).record
            env.defaultBoundaryErrors)).record env.conduitErrors)).record env.attributeErrors)).deleted
      else [] := by
  unfold updateElements SweepsElements
  -- whatever throws first, nothing was deleted before
  simp only [stepDeleted_updateProgress_bind, stepDeleted_pass_bind, stepDeleted_updateProgress,
    apply_ite UpdateState.deleted, deleted_record, deleted_updateDataItems, deleted_updateContent,
    deleted_updateDataFlows, hs, ite_and]
  rfl

lemma deleted_of_found (hex : env.existing.model = some ex) : (updateModel doc env).deleted =
    if Sweeps doc env then (deleteOrphanedElements ex (written ex doc env)).deleted else [] := by
  rw [deleted_updateModel]
  unfold updateBody Sweeps
  simp only [stepDeleted_updateProgress_bind]
  by_cases hname : doc.name.truthy
  · simp only [hname, Bool.not_true, Bool.false_eq_true, if_false, stepDeleted_updateProgress_bind,
      hex, stepDeleted_pass_bind, true_and]
    rw [stepDeleted_updateElements _ (by rw [deleted_record, deleted_trackExisting]; rfl)]
    simp only [ite_and, deleted_trackExisting]
    rfl
  · simp only [hname, Bool.not_false, if_true, false_and, and_false, if_false, Bool.false_eq_true]
    split_ifs
    all_goals rfl

lemma deleted_of_missing (hex : env.existing.model = none) : (updateModel doc env).deleted = [] := by
  rw [deleted_updateModel]
  unfold updateBody
  simp only [stepDeleted_updateProgress_bind]
  split_ifs
  · rfl
  · simp only [stepDeleted_updateProgress_bind, hex]
    split_ifs
    all_goals rfl
  · rfl

lemma effect_record (s : UpdateState) (errors : List UpdateError) :
    Effect ex (fun _ _ => False) s (s.record errors) := by
  refine ⟨fun k id => ?_, fun x => ?_, fun _ _ hown => hown, fun _ => rfl, rfl⟩
  · rw [processed_record]
    simp
  · show x ∈ s.idMapping.keys ↔ _
    simp

lemma keys_trackExisting {x : JsonValue} :
    x ∈ (trackExisting ex .initial).idMapping.keys ↔ ∃ id ∈ ex.all, ofServer id = x := by
  rw [trackExisting_eq, mem_keys_foldl_set]
  exact (or_iff_left not_mem_nil).trans mem_map

variable {c : ServerId}

/-- Every id that the platform has is mapped to itself, and to nothing else. -/
lemma ownKey_trackExisting (hc : c ∈ ex.all) : OwnKey (trackExisting ex .initial) c := by
  have hfold : ∀ (l : List ServerId) (m : Record JsonValue ServerId),
      (∀ x v, m.get? x = some v → ofServer v = x) → ∀ x v,
        (l.foldl (fun m id => m.set (ofServer id) id) m).get? x = some v → ofServer v = x := by
    intro l
    induction l with
    | nil => exact fun _ hm => hm
    | cons id _ ih =>
      refine fun m hm => ih _ fun x v hget => ?_
      rw [get?_set] at hget
      split_ifs at hget with hx
      · cases hget
        exact hx
      · exact hm x v hget
  have hown : ∀ x v, (trackExisting ex .initial).idMapping.get? x = some v → ofServer v = x := by
    intro x v hget
    rw [trackExisting_eq] at hget
    refine hfold _ _ (fun _ _ h => ?_) x v hget
    cases h
  refine fun x => ⟨hown x c, ?_⟩
  rintro rfl
  obtain ⟨v, hv⟩ := Option.isSome_iff_exists.1 (mem_keys_iff.1 (keys_trackExisting.2 ⟨c, hc, rfl⟩))
  rw [hv, ofServer_injective (hown _ _ hv)]

lemma processed_trackExisting (k : ElementKind) : (trackExisting ex .initial).processed k = [] := by
  rw [trackExisting_eq]
  cases k <;> rfl

lemma effect_writtenElements : Effect ex (fun k e => InItems doc.items k e ∨ InContent ex doc.defaultBoundary.inner k e)
    ((trackExisting ex .initial).record env.modelErrors) (writtenElements ex doc env) := by
  let s₀ := (trackExisting ex .initial).record env.modelErrors
  let s₁ := (doc.items.foldl (updateDataItem ex) s₀).record env.defaultBoundaryErrors
  have hitems : Effect ex _ s₀ s₁ :=
    (effect_foldl effect_updateDataItem doc.items s₀).trans (effect_record _ _)
  have hcontent : Effect ex _ s₁ (writtenElements ex doc env) :=
    (effect_updateContent doc.defaultBoundary s₁).trans (effect_record _ _)
  exact (hitems.trans hcontent).congr fun k e => by simp [InItems]

/-- What is mapped when the data flows are written. -/
lemma keys_writtenElements (x : JsonValue) : x ∈ (writtenElements ex doc env).idMapping.keys ↔ Named ex doc x := by
  rw [effect_writtenElements.keys]
  exact or_congr_left keys_trackExisting

lemma effect_written : Effect ex (GetsTo ex doc) ((trackExisting ex .initial).record env.modelErrors)
    (written ex doc env) := by
  have hflows : Effect ex _ (writtenElements ex doc env) (written ex doc env) :=
    (effect_updateDataFlows doc.flows (Named ex doc) _ keys_writtenElements).trans (effect_record _ _)
  exact (effect_writtenElements.trans hflows).congr fun k e => by simp [GetsTo]

lemma mem_entries_of_mem_flows {f : FlowEntry} (hf : f ∈ doc.flows) : f.toEntry ∈ doc.entries :=
  mem_append_left _ (mem_append_right _ (mem_map_of_mem hf))

variable {k : ElementKind}

lemma mem_entries_of_getsTo {e : Entry} (h : GetsTo ex doc k e) : e ∈ doc.entries := by
  unfold UpdateDocument.entries
  rw [mem_append, mem_append]
  obtain (⟨i, hi, -, rfl, rfl⟩ | ⟨p, hp, -, hwritten⟩) | ⟨-, before, f, after, hflows, rfl, -⟩ := h
  · exact .inr (mem_map_of_mem hi)
  · have helements := mem_map_of_mem (f := Sum.elim id id) (Nesting.mem_elements_of_mem_inner hp)
    obtain ⟨path, b | c⟩ := p
    all_goals
      cases hwritten
      exact .inl (.inl helements)
  · refine .inl (.inr (mem_map_of_mem ?_))
    rw [hflows]
    exact mem_append_right _ (.head _)

lemma mem_processed_written (hfresh : Fresh ex doc) {id : ServerId} (hid : id ∈ ex.ids k) :
    id ∈ (written ex doc env).processed k ↔ Listed ex doc (ofServer id) k := by
  rw [effect_written.processed, processed_record, processed_trackExisting, or_iff_right not_mem_nil]
  refine exists_congr fun e => and_congr_right fun he => mem_marks (fun id' h => ?_) hid
  exact (hfresh e (mem_entries_of_getsTo he) id' h).1

variable (ex) in
/-- The data flows move where an entry with both ends mapped updates or creates one. -/
lemma ends_updateDataFlow (s : UpdateState) (f : FlowEntry) :
    ((updateDataFlow ex s f).ends = s.ends ∧ ∀ id ∈ ex.dataFlows.keys, ¬ Moves (· ∈ s.idMapping.keys) f (ofServer id)) ∨
    ∃ flowId sourceId targetId, (updateDataFlow ex s f).ends = s.ends.set flowId [sourceId, targetId] ∧
      s.idMapping.get? f.source = some sourceId ∧ s.idMapping.get? f.target = some targetId ∧
      ((flowId ∈ ex.dataFlows.keys ∧ ofServer flowId = f.id ∧ f.landed = true) ∨
        (f.created = some flowId ∧ ∀ id ∈ ex.dataFlows.keys, f.id ≠ ofServer id)) := by
  unfold updateDataFlow
  split
  next sourceId targetId hsource htarget =>
    split
    next flowId hfind =>
      obtain ⟨hmem, hname⟩ := findId_eq_some_iff.1 hfind
      split_ifs with hlanded
      · exact .inr ⟨flowId, sourceId, targetId, rfl, hsource, htarget, .inl ⟨hmem, hname, hlanded⟩⟩
      · exact .inl ⟨rfl, fun id _ h => hlanded h.2.2.1⟩
    next hfind =>
      have hnone : ∀ id ∈ ex.dataFlows.keys, f.id ≠ ofServer id :=
        fun id hid h => nomatch hfind.symm.trans (findId_eq_some_iff.2 ⟨hid, h.symm⟩)
      have hnew : (createNew .dataFlow s f.toEntry).ends = s.ends := by
        unfold createNew
        split
        · split_ifs <;> rfl
        · rfl
      dsimp only
      split
      next flowId hcreated =>
        exact .inr ⟨flowId, sourceId, targetId, by rw [hnew], hsource, htarget, .inr ⟨hcreated, hnone⟩⟩
      next => exact .inl ⟨hnew, fun id hid h => hnone id hid h.2.2.2⟩
  next hnone =>
    refine .inl ⟨rfl, fun id _ h => ?_⟩
    obtain ⟨sourceId, hsourceId⟩ := Option.isSome_iff_exists.1 (mem_keys_iff.1 h.1)
    obtain ⟨targetId, htargetId⟩ := Option.isSome_iff_exists.1 (mem_keys_iff.1 h.2.1)
    exact hnone _ _ hsourceId htargetId

variable {s : UpdateState}

lemma mem_ends_updateDataFlow {f : FlowEntry} {named : JsonValue → Prop} {ends : Prop} {id : ServerId}
    (hnamed : ∀ x, x ∈ s.idMapping.keys ↔ named x) (hown : OwnKey s c) (hid : id ∈ ex.dataFlows.keys)
    (hcreated : f.created ≠ some id) (hends : c ∈ (s.ends.get? id).getD [] ↔ ends) :
    c ∈ ((updateDataFlow ex s f).ends.get? id).getD [] ↔ (¬ Moves named f (ofServer id) ∧ ends) ∨
      (Moves named f (ofServer id) ∧ (f.source = ofServer c ∨ f.target = ofServer c)) := by
  obtain rfl : (· ∈ s.idMapping.keys) = named := funext fun x => propext (hnamed x)
  rcases ends_updateDataFlow ex s f with ⟨hsame, hnot⟩ | ⟨flowId, sourceId, targetId, hset, hsource, htarget, h⟩
  · rw [hsame, hends]
    simp [hnot id hid]
  · rw [hset, get?_set]
    split_ifs with hflow
    · obtain ⟨-, hname, hlanded⟩ := h.resolve_right fun h => hcreated (hflow ▸ h.1)
      have hmoves : Moves (· ∈ s.idMapping.keys) f (ofServer id) :=
        ⟨mem_keys_of_get? hsource, mem_keys_of_get? htarget, hlanded, hflow ▸ hname.symm⟩
      have hend : ∀ {x v}, s.idMapping.get? x = some v → (c = v ↔ x = ofServer c) := by
        intro x v hx
        rw [eq_comm (a := x), ← hown x, hx, Option.some.injEq, eq_comm]
      simp [hmoves, hend hsource, hend htarget]
    · have hnot : ¬ Moves (· ∈ s.idMapping.keys) f (ofServer id) := by
        rintro ⟨-, -, -, hid'⟩
        rcases h with ⟨-, hname, -⟩ | ⟨-, hnone⟩
        · exact hflow (ofServer_injective (hname.trans hid'))
        · exact hnone id hid hid'
      rw [hends]
      simp [hnot]

/-- What a data flow is at when all are written, for a component that no entry names. -/
lemma ends_updateDataFlows {id : ServerId} (hid : id ∈ ex.dataFlows.keys) : ∀ (flows : List FlowEntry)
    (named : JsonValue → Prop) (ends : JsonValue → JsonValue → Prop) (s : UpdateState),
    (∀ x, x ∈ s.idMapping.keys ↔ named x) → OwnKey s c →
    (∀ f ∈ flows, f.id ≠ ofServer c ∧ f.created ≠ some c ∧ f.created ≠ some id) →
    (c ∈ (s.ends.get? id).getD [] ↔ ends (ofServer id) (ofServer c)) →
    (c ∈ ((flows.foldl (updateDataFlow ex) s).ends.get? id).getD [] ↔
      EndsAfter ex named ends flows (ofServer id) (ofServer c))
  | [], _, _, _, _, _, _, hends => hends
  | f :: flows, named, ends, s, hnamed, hown, hflows, hends => by
    obtain ⟨hname, hnot, hcreated⟩ := hflows f (.head _)
    refine ends_updateDataFlows hid flows _ _ _ (keys_updateDataFlow f hnamed) ?_ (fun g hg => hflows g (.tail _ hg)) ?_
    · refine (effect_updateDataFlow s f).ownKey c ?_ hown
      rintro _ _ ⟨-, -, rfl, rfl⟩
      exact ⟨hname, hnot⟩
    · exact mem_ends_updateDataFlow hnamed hown hid hcreated hends

/-- The data flows that are there at the sweep are old or created. -/
lemma keys_ends_updateDataFlows {id : ServerId} : ∀ (flows : List FlowEntry) (s : UpdateState),
    id ∈ (flows.foldl (updateDataFlow ex) s).ends.keys →
      id ∈ s.ends.keys ∨ id ∈ ex.dataFlows.keys ∨ ∃ f ∈ flows, f.created = some id
  | [], _, h => .inl h
  | f :: flows, s, h => by
    rcases keys_ends_updateDataFlows flows _ h with h | h | ⟨g, hg, h⟩
    · rcases ends_updateDataFlow ex s f with ⟨hsame, -⟩ | ⟨flowId, _, _, hset, -, -, hflow⟩
      · exact .inl (hsame ▸ h)
      · rw [hset, mem_keys_set] at h
        rcases h with rfl | h
        · exact .inr (hflow.imp And.left fun h => ⟨f, .head _, h.1⟩)
        · exact .inl h
    · exact .inr (.inl h)
    · exact .inr (.inr ⟨g, .tail _ hg, h⟩)

lemma mem_deleted_deleteOrphanedElements (hs : s.deleted = []) {id : ServerId} :
    (k, id) ∈ (deleteOrphanedElements ex s).deleted ↔ (id ∈ ex.ids k ∧ id ∉ s.processed k) ∨ (k = .dataFlow ∧
      ∃ c ∈ ex.components, c ∉ s.processed .component ∧ c ∈ (s.ends.get? id).getD []) := by
  have hprocessed : ∀ (kind k : ElementKind) (s : UpdateState),
      (deleteOrphans ex kind s).processed k = s.processed k := by
    intro kind k s
    cases k <;> rfl
  have hends : ∀ (kind : ElementKind) (s : UpdateState), (deleteOrphans ex kind s).ends = s.ends := fun _ _ => rfl
  have hdelete : ∀ (kind : ElementKind) (s : UpdateState), (k, id) ∈ (deleteOrphans ex kind s).deleted ↔
      (k, id) ∈ s.deleted ∨ (k = kind ∧ id ∈ ex.ids kind ∧ id ∉ s.processed kind) ∨ (k = .dataFlow ∧
        kind = .component ∧ ∃ c ∈ ex.components, c ∉ s.processed .component ∧ c ∈ (s.ends.get? id).getD []) := by
    intro kind s
    simp only [deleteOrphans, mem_append, mem_flatMap, mem_map, mem_filter, mem_singleton, Prod.mk.injEq,
      decide_eq_true_eq]
    refine or_congr_right ⟨?_, ?_⟩
    · rintro ⟨c, hc, ⟨flowId, htaken, rfl, rfl⟩ | ⟨rfl, rfl⟩⟩
      · cases kind with
        | component => exact .inr ⟨rfl, rfl, c, hc.1, hc.2, of_decide_eq_true (mem_filter.1 htaken).2⟩
        | boundary | dataFlow | dataItem => cases htaken
      · exact .inl ⟨rfl, hc⟩
    · rintro (⟨rfl, h⟩ | ⟨rfl, rfl, c, hc, hnot, hend⟩)
      · exact ⟨id, h, .inr ⟨rfl, rfl⟩⟩
      · have hkey : id ∈ s.ends.keys := by
          by_contra hkey
          rw [notMem_keys_iff.1 hkey] at hend
          cases hend
        exact ⟨c, ⟨hc, hnot⟩, .inl ⟨id, mem_filter.2 ⟨hkey, decide_eq_true hend⟩, rfl, rfl⟩⟩
  unfold deleteOrphanedElements
  simp only [hdelete, hprocessed, hends, hs, not_mem_nil, false_or]
  cases k <;> simp

lemma ends_writtenElements : (writtenElements ex doc env).ends = ex.dataFlows := by
  have heffect : Effect ex _ _ (writtenElements ex doc env) := effect_writtenElements
  refine heffect.ends ?_
  rintro k e (⟨i, -, -, rfl, -⟩ | ⟨⟨path, b | c⟩, -, -, hwritten⟩)
  · decide
  · cases hwritten
    decide
  · cases hwritten
    decide

/-- What a data flow is at when the sweep comes, for a component that the document does not list. -/
lemma ends_written (hfresh : Fresh ex doc) {id : ServerId} (hid : id ∈ ex.dataFlows.keys) (hc : c ∈ ex.components)
    (hname : ofServer c ∉ doc.entries.map Entry.id) : c ∈ ((written ex doc env).ends.get? id).getD [] ↔
      EndsAfter ex (Named ex doc) ex.Ends doc.flows (ofServer id) (ofServer c) := by
  have hall : c ∈ ex.all := mem_all_of_mem_ids (show c ∈ ex.ids .component from hc)
  have huntouched : ∀ e ∈ doc.entries, e.id ≠ ofServer c ∧ e.created ≠ some c ∧ e.created ≠ some id := by
    refine fun e he => ⟨fun h => hname (h ▸ mem_map_of_mem he), fun h => (hfresh e he _ h).1 hall, fun h => ?_⟩
    exact (hfresh e he _ h).1 (mem_all_of_mem_ids (show id ∈ ex.ids .dataFlow from hid))
  refine ends_updateDataFlows hid doc.flows _ _ _ keys_writtenElements ?_ (fun f hf => ?_) ?_
  · refine effect_writtenElements.ownKey c (fun k e he => ?_) (ownKey_trackExisting hall)
    have he := huntouched e (mem_entries_of_getsTo (k := k) (.inl he))
    exact ⟨he.1, he.2.1⟩
  · exact huntouched f.toEntry (mem_entries_of_mem_flows hf)
  · rw [ends_writtenElements]
    constructor
    · exact fun h => ⟨id, c, rfl, rfl, h⟩
    · rintro ⟨id', c', hid', hc', h⟩
      rwa [← ofServer_injective hid', ← ofServer_injective hc']

/-- An update spares what its document names exactly if it gets to everything that the document names and to the
components that the data flows among it are at, or does not get to the sweep. -/
theorem updateModel_spares_iff (doc : UpdateDocument) (env : Environment)
    (hfresh : ∀ ex, env.existing.model = some ex → Fresh ex doc) :
    (∀ d ∈ (updateModel doc env).deleted, ofServer d.2 ∉ doc.entries.map Entry.id) ↔
      (Sweeps doc env → ∀ ex, env.existing.model = some ex → Spared ex doc) := by
  cases hex : env.existing.model with
  | none =>
    rw [deleted_of_missing hex]
    exact iff_of_true (fun d hd => absurd hd not_mem_nil) fun _ ex h => by cases h
  | some ex =>
    rw [deleted_of_found hex]
    by_cases hsweeps : Sweeps doc env
    · rw [if_pos hsweeps]
      have hdeleted : (written ex doc env).deleted = [] :=
        effect_written.deleted.trans (deleted_trackExisting _)
      -- a component is deleted if the update does not get to it
      have horphan : ∀ c ∈ ex.components, c ∉ (written ex doc env).processed .component ↔
          ¬ Listed ex doc (ofServer c) .component :=
        fun c hc => not_congr (mem_processed_written (k := .component) (hfresh ex hex) hc)
      constructor
      · rintro hspares - _ h
        cases h
        have hlisted : ∀ kind, ∀ id ∈ ex.ids kind, ofServer id ∈ doc.entries.map Entry.id →
            Listed ex doc (ofServer id) kind := by
          intro k id hid hnamed
          by_contra hlisted
          refine hspares (k, id) ((mem_deleted_deleteOrphanedElements hdeleted).2 (.inl ⟨hid, ?_⟩)) hnamed
          exact fun h => hlisted ((mem_processed_written (hfresh ex hex) hid).1 h)
        refine ⟨hlisted, fun id hid hnamed c hc hends => ?_⟩
        by_contra hnot
        have hname : ofServer c ∉ doc.entries.map Entry.id := fun h => hnot (hlisted .component c hc h)
        refine hspares (.dataFlow, id) ((mem_deleted_deleteOrphanedElements hdeleted).2
          (.inr ⟨rfl, c, hc, ?_, ?_⟩)) hnamed
        · exact (horphan c hc).2 hnot
        · exact (ends_written (hfresh ex hex) hid hc hname).2 hends
      · rintro hspared ⟨k, id⟩ hd hnamed
        have hspared := hspared hsweeps ex rfl
        rcases (mem_deleted_deleteOrphanedElements hdeleted).1 hd with ⟨hid, hnot⟩ | ⟨rfl, c, hc, hnot, hend⟩
        · exact hnot ((mem_processed_written (hfresh ex hex) hid).2 (hspared.listed k id hid hnamed))
        · -- a data flow that a component takes along
          have hkey : id ∈ (written ex doc env).ends.keys := by
            by_contra hkey
            rw [notMem_keys_iff.1 hkey] at hend
            cases hend
          have hid : id ∈ ex.dataFlows.keys := by
            rcases keys_ends_updateDataFlows doc.flows _ hkey with h | h | ⟨f, hf, h⟩
            · rwa [ends_writtenElements] at h
            · exact h
            · exact absurd hnamed (hfresh ex hex _ (mem_entries_of_mem_flows hf) id h).2
          have hnot := (horphan c hc).1 hnot
          have hname : ofServer c ∉ doc.entries.map Entry.id := fun h => hnot (hspared.listed .component c hc h)
          exact hnot (hspared.ends id hid hnamed c hc ((ends_written (hfresh ex hex) hid hc hname).1 hend))
    · rw [if_neg hsweeps]
      exact iff_of_true (fun d hd => absurd hd not_mem_nil) fun h => absurd h hsweeps

end

/-- An entry with an id, and what creating it returns. -/
def sampleEntry (id : String) (created : Option ServerId) : Entry where
  id := .string id
  name := .string id
  created := created
  errors := []

/-- A new boundary around a component that the platform has. -/
def regrouped (created : Option ServerId) : UpdateDocument where
  name := .string "Shop"
  defaultBoundary := .node (sampleEntry "base" none)
    (some [.node (sampleEntry "zone" created) none (some [sampleEntry "disk" none])]) none
  dataFlows := none
  dataItems := none

/-- A model with two components, and nothing that throws. -/
def sampleEnvironment : Environment where
  modelId := "model"
  deleteOrphaned := true
  existing := .found {
    defaultBoundary := some ⟨"base", by decide⟩
    components := [⟨"disk", by decide⟩, ⟨"old", by decide⟩]
    boundaries := []
    dataFlows := ∅
    dataItems := [] }
  onProgress := fun _ => none
  resolveClasses := none
  modelErrors := []
  defaultBoundaryErrors := []
  conduitErrors := []
  conduits := none
  attributeErrors := []

/-- The new boundary cannot be created, and the component in it is deleted. -/
theorem regrouped_deletes_component :
    ∃ d ∈ (updateModel (regrouped none) sampleEnvironment).deleted,
      ofServer d.2 ∈ (regrouped none).entries.map Entry.id := by
  refine ⟨(.component, ⟨"disk", by decide⟩), ?_, ?_⟩
  all_goals decide +kernel

/-- The new boundary is created, with a new id, and the component in it stays; the other one is deleted. -/
theorem regrouped_spared :
    (.component, ⟨"old", by decide⟩) ∈
        (updateModel (regrouped (some ⟨"zone-1", by decide⟩)) sampleEnvironment).deleted ∧
      ∀ d ∈ (updateModel (regrouped (some ⟨"zone-1", by decide⟩)) sampleEnvironment).deleted,
        ofServer d.2 ∉ (regrouped (some ⟨"zone-1", by decide⟩)).entries.map Entry.id := by
  have hfresh : ∀ ex, sampleEnvironment.existing.model = some ex →
      Fresh ex (regrouped (some ⟨"zone-1", by decide⟩)) := by
    intro ex hex e he id hcreated
    cases hex
    have hid : id = ⟨"zone-1", by decide⟩ := by
      obtain rfl | rfl | rfl : e = sampleEntry "base" none ∨
          e = sampleEntry "zone" (some ⟨"zone-1", by decide⟩) ∨ e = sampleEntry "disk" none := by
        simpa [UpdateDocument.entries, regrouped, Nesting.elements, Nesting.elementsOption,
          Nesting.elementsList, UpdateDocument.flows, UpdateDocument.items, or_comm] using he
      · cases hcreated
      · exact (Option.some.inj hcreated).symm
      · cases hcreated
    rw [hid]
    decide
  refine ⟨by decide +kernel, (updateModel_spares_iff _ sampleEnvironment hfresh).2 fun _ ex hex => ?_⟩
  cases hex
  refine ⟨fun kind id hid hnamed => ?_, fun id hid => absurd hid not_mem_nil⟩
  cases kind with
  | component =>
    obtain rfl | hid := mem_cons.1 hid
    swap
    · cases mem_singleton.1 hid
      exact absurd hnamed (by decide)
    refine ⟨sampleEntry "disk" none, .inl (.inr ⟨([sampleEntry "zone" (some ⟨"zone-1", by decide⟩)],
      .inr (sampleEntry "disk" none)), .tail _ (.head _), fun b hb => ?_, rfl⟩), rfl⟩
    cases mem_singleton.1 hb
    decide
  | boundary | dataFlow | dataItem => exact absurd hid not_mem_nil

end ModelUpdate
