import Dethernety.Foundations.Script
import Dethernety.ModelImport.Import

/-!
# A successful import is complete

An import succeeds only if no error was recorded, and every create call that did not return an element
recorded one. So a successful import created every element of the document, in the order of the
document, under the element that was created for its parent. The hierarchy with the ids of the
platform is a `Nesting` of its own, which the document is the image of.
-/

open List Record Except Bool

namespace ModelImport

/-- A hierarchy together with the ids of the platform. -/
abbrev Created := Nesting (BoundaryData × ServerId) (ComponentData × ServerId)

/-- The elements of `new` were created and mapped on the way from `s` to `s'`. -/
structure Extends (s s' : ImportState) (new : List Creation) : Prop where
  creations : s'.creations = s.creations ++ new
  idMapping : s'.idMapping = new.foldl (fun m c => m.set c.id c.server) s.idMapping
  models : s'.models = s.models

lemma Extends.refl (s : ImportState) : Extends s s [] :=
  ⟨(append_nil _).symm, rfl, rfl⟩

lemma Extends.trans {s s' s'' : ImportState} {new new' : List Creation} (h : Extends s s' new)
    (h' : Extends s' s'' new') : Extends s s'' (new ++ new') where
  creations := by rw [h'.creations, h.creations, append_assoc]
  idMapping := by rw [h'.idMapping, h.idMapping, foldl_append]
  models := h'.models.trans h.models

section

variable (env : Environment)

variable {s : ImportState}

lemma createElement_clean {kind : ElementKind} {el : ElementData} {place : Place} {followsUp : Bool}
    (h : (createElement env kind el place followsUp s).2.errors = []) :
    s.errors = [] ∧ ∃ server, (createElement env kind el place followsUp s).1 = some server ∧
      Extends s (createElement env kind el place followsUp s).2 [⟨kind, el.id, place, server⟩] := by
  -- every branch that records an error is excluded
  have hfail : ∀ (s : ImportState) (error : String), (s.fail kind el error).errors ≠ [] :=
    fun s error => append_ne_nil_of_right_ne_nil _ (cons_ne_nil _ _)
  unfold createElement at h ⊢
  simp only at h ⊢
  split at h
  next => exact absurd h (hfail _ _)
  next => exact absurd h (hfail _ _)
  next server followUp hreply =>
    split at h
    next => exact absurd h (hfail _ _)
    next => exact ⟨h, server, rfl, ⟨rfl, rfl, rfl⟩⟩

/-- If the rounds of a loop only add errors, a clean loop starts clean. -/
lemma foldl_errors_grow {α : Type*} {step : ImportState → α → ImportState}
    (hgrow : ∀ s a, (step s a).errors = [] → s.errors = []) :
    ∀ (l : List α) (s : ImportState), (l.foldl step s).errors = [] → s.errors = []
  | [], _, h => h
  | a :: l, s, h => hgrow s a (foldl_errors_grow hgrow l (step s a) h)

/-- A loop that leaves no error and creates an element in each clean round created them all. -/
lemma foldl_create_clean {α : Type*} {step : ImportState → α → ImportState}
    (Made : α → Creation → Prop) (Inv : ImportState → Prop) {l : List α}
    (hgrow : ∀ s a, (step s a).errors = [] → s.errors = []) (hstep : ∀ s, Inv s → ∀ a ∈ l, (step s a).errors = [] →
      Inv (step s a) ∧ ∃ c, Made a c ∧ Extends s (step s a) [c]) (hs : Inv s) (h : (l.foldl step s).errors = []) :
    s.errors = [] ∧ ∃ new, List.Forall₂ Made l new ∧ Extends s (l.foldl step s) new := by
  induction l generalizing s with
  | nil => exact ⟨h, [], .nil, .refl s⟩
  | cons a l ih =>
    have hfirst : (step s a).errors = [] := foldl_errors_grow hgrow l _ h
    obtain ⟨hinv, c, hmade, hext⟩ := hstep s hs a (.head _) hfirst
    obtain ⟨-, new, hnew, hrest⟩ := ih (fun s hs b hb => hstep s hs b (.tail _ hb)) hinv h
    exact ⟨hgrow s a hfirst, c :: new, .cons hmade hnew, hext.trans hrest⟩

/-- What a component or a boundary of a created hierarchy is recorded as. -/
def creationOf (link : (BoundaryData × ServerId) × (BoundaryData × ServerId ⊕ ComponentData × ServerId)) :
    Creation :=
  match link with
  | (parent, .inl (b, server)) => ⟨.boundary, b.id, .boundary parent.2, server⟩
  | (parent, .inr (c, server)) => ⟨.component, c.id, .boundary parent.2, server⟩

lemma createComponents_clean {components : List ComponentData} (parent : BoundaryData × ServerId)
    (h : (components.foldl (fun s c => (createComponent env c parent.2 s).2) s).errors = []) :
    s.errors = [] ∧ ∃ made : List (ComponentData × ServerId), made.map Prod.fst = components ∧
      Extends s (components.foldl (fun s c => (createComponent env c parent.2 s).2) s)
        (made.map fun c => creationOf (parent, .inr c)) := by
  obtain ⟨hs, new, hmade, hext⟩ := foldl_create_clean
    (fun c creation => ∃ server, creation = creationOf (parent, .inr (c, server)))
    (fun _ => True) (fun s c hc => (createElement_clean env hc).1)
    (fun s _ c _ hc => ⟨trivial, by
      obtain ⟨-, server, -, hext⟩ := createElement_clean env hc
      exact ⟨_, ⟨server, rfl⟩, hext⟩⟩) trivial h
  refine ⟨hs, ?_⟩
  have hlist : ∃ made : List (ComponentData × ServerId), made.map Prod.fst = components ∧
      new = made.map fun c => creationOf (parent, .inr c) := by
    clear h hext
    induction hmade with
    | nil => exact ⟨[], rfl, rfl⟩
    | cons hc _ ih =>
      obtain ⟨server, rfl⟩ := hc
      obtain ⟨made, rfl, rfl⟩ := ih
      exact ⟨(_, server) :: made, rfl, rfl⟩
  obtain ⟨made, hcomponents, rfl⟩ := hlist
  exact ⟨made, hcomponents, hext⟩

lemma createBoundary_clean {b : BoundaryData} {parent : ServerId} {s s' : ImportState}
    {r : Option ServerId} (hcreate : createBoundary env b parent s = (r, s')) (h : s'.errors = []) :
    s.errors = [] ∧ ∃ server, r = some server ∧ Extends s s' [⟨.boundary, b.id, .boundary parent, server⟩] := by
  obtain ⟨rfl, rfl⟩ := Prod.mk.inj hcreate
  exact createElement_clean env h

mutual

/-- A hierarchy that was processed without an error was created as a whole. -/
lemma processHierarchy_clean : ∀ (t : Nesting BoundaryData ComponentData) (parent : ServerId)
    (s : ImportState), (processHierarchy env t parent s).errors = [] →
    s.errors = [] ∧ ∃ made : Created, made.map Prod.fst Prod.fst = t ∧ made.data.2 = parent ∧
      Extends s (processHierarchy env t parent s) (made.links.map creationOf)
  | .node d boundaries components, parent, s, h => by
    obtain ⟨hmid, children, hchildren, hext'⟩ :=
      processBoundaries_clean boundaries (d, parent) _ h
    obtain ⟨hs, made, hmade, hext⟩ := createComponents_clean env (d, parent) hmid
    -- the components come first, as in `links`
    refine ⟨hs, .node (d, parent) children (components.map fun _ => made), ?_, rfl, ?_⟩
    · have hleaves : (components.map fun _ => made).map (List.map Prod.fst) = components := by
        cases components with
        | none => rfl
        | some l => exact congrArg some hmade
      rw [Nesting.map, hchildren, hleaves]
    · have hleaves : ((components.map fun _ => made).getD []) = made := by
        cases components with
        | none => exact (map_eq_nil_iff.1 hmade).symm
        | some l => rfl
      rw [Nesting.links, hleaves, map_append, map_map]
      exact hext.trans hext'

lemma processBoundaries_clean : ∀ (o : Option (List (Nesting BoundaryData ComponentData)))
    (parent : BoundaryData × ServerId) (s : ImportState),
    (processBoundaries env o parent.2 s).errors = [] →
    s.errors = [] ∧ ∃ made : Option (List Created), Nesting.mapOption Prod.fst Prod.fst made = o ∧
      Extends s (processBoundaries env o parent.2 s)
        ((Nesting.linksOption parent made).map creationOf)
  | none, _, s, h => ⟨h, none, rfl, .refl s⟩
  | some l, parent, s, h => by
    obtain ⟨hs, made, hmade, hext⟩ := processBoundaryList_clean l parent s h
    exact ⟨hs, some made, congrArg some hmade, hext⟩

lemma processBoundaryList_clean : ∀ (l : List (Nesting BoundaryData ComponentData))
    (parent : BoundaryData × ServerId) (s : ImportState),
    (processBoundaryList env l parent.2 s).errors = [] →
    s.errors = [] ∧ ∃ made : List Created, Nesting.mapList Prod.fst Prod.fst made = l ∧
      Extends s (processBoundaryList env l parent.2 s)
        ((Nesting.linksList parent made).map creationOf)
  | [], _, s, h => ⟨h, [], rfl, .refl s⟩
  | t :: l, parent, s, h => by
    rw [processBoundaryList] at h ⊢
    split at h
    next s₁ hcreate =>
      -- a boundary that was not created left an error, which is still there
      obtain ⟨hclean, -⟩ := processBoundaryList_clean l parent s₁ h
      obtain ⟨-, server, hserver, -⟩ := createBoundary_clean env hcreate hclean
      exact absurd hserver.symm (Option.some_ne_none server)
    next newBoundaryId s₁ hcreate =>
      obtain ⟨hmid, rest, hrest, hext₂⟩ := processBoundaryList_clean l parent _ h
      obtain ⟨hclean, made, hmade, hroot, hext₁⟩ := processHierarchy_clean t newBoundaryId s₁ hmid
      obtain ⟨hs, server, hserver, hext₀⟩ := createBoundary_clean env hcreate hclean
      obtain rfl : newBoundaryId = server := Option.some.inj hserver
      refine ⟨hs, made :: rest, ?_, ?_⟩
      · rw [Nesting.mapList, hmade, hrest]
      · have hdata : made.data = (t.data, newBoundaryId) := by
          refine Prod.ext ?_ hroot
          rw [← hmade]
          exact (Nesting.data_map Prod.fst Prod.fst made).symm
        rw [Nesting.linksList, map_cons, map_append, hdata]
        exact hext₀.trans (hext₁.trans hext₂)

end

/-- A data item that was created in a model. -/
def IsItem (model : ServerId) (i : ItemData) (c : Creation) : Prop :=
  c.kind = .dataItem ∧ c.id = i.id ∧ c.place = .model model

/-- A data flow that was created between the elements that its ends are mapped to. -/
def IsFlow (m : Record JsonValue ServerId) (f : FlowData) (c : Creation) : Prop :=
  c.kind = .dataFlow ∧ c.id = f.id ∧ ∃ source target sourceId targetId,
    f.source = some source ∧ f.target = some target ∧ m.get? source = some sourceId ∧
    m.get? target = some targetId ∧ c.place = .ends sourceId targetId

lemma createDataItems_clean {model : ServerId} {items : List ItemData}
    (h : (items.foldl (createDataItem env model) s).errors = []) :
    s.errors = [] ∧ ∃ new, List.Forall₂ (IsItem model) items new ∧
      Extends s (items.foldl (createDataItem env model) s) new := by
  refine foldl_create_clean (IsItem model) (fun _ => True)
    (fun s i hi => (createElement_clean env hi).1) (fun s _ i _ hi => ⟨trivial, ?_⟩) trivial h
  obtain ⟨-, server, -, hext⟩ := createElement_clean env hi
  exact ⟨_, ⟨rfl, rfl, rfl⟩, hext⟩

lemma createDataFlow_errors_grow (s : ImportState) (f : FlowData)
    (h : (createDataFlow env s f).errors = []) : s.errors = [] := by
  unfold createDataFlow at h
  split at h
  next =>
    split at h
    next => exact (createElement_clean env h).1
    next => exact h
  next => exact absurd h (append_ne_nil_of_right_ne_nil _ (cons_ne_nil _ _))

/-- Data flows between mapped elements that are none of them. -/
lemma createDataFlows_clean {flows : List FlowData} {IsEnd : JsonValue → Prop}
    (hsep : ∀ f ∈ flows, ∀ x, IsEnd x → f.id ≠ x) (hsource : ∀ f ∈ flows, ∃ x, f.source = some x ∧ IsEnd x)
    (htarget : ∀ f ∈ flows, ∃ x, f.target = some x ∧ IsEnd x) (hmapped : ∀ x, IsEnd x → (s.idMapping.get? x).isSome)
    (h : (flows.foldl (createDataFlow env) s).errors = []) :
    s.errors = [] ∧ ∃ new, List.Forall₂ (IsFlow s.idMapping) flows new ∧
      Extends s (flows.foldl (createDataFlow env) s) new := by
  -- no round changes what an end is mapped to
  refine foldl_create_clean (IsFlow s.idMapping)
    (fun s' => ∀ x, IsEnd x → s'.idMapping.get? x = s.idMapping.get? x)
    (createDataFlow_errors_grow env) ?_ (fun _ _ => rfl) h
  intro s' hs' f hf hclean
  obtain ⟨source, hfsource, hsourceEnd⟩ := hsource f hf
  obtain ⟨target, hftarget, htargetEnd⟩ := htarget f hf
  obtain ⟨sourceId, hsourceId⟩ := Option.isSome_iff_exists.1 (hmapped source hsourceEnd)
  obtain ⟨targetId, htargetId⟩ := Option.isSome_iff_exists.1 (hmapped target htargetEnd)
  have hstep : createDataFlow env s' f =
      (createElement env .dataFlow f.toElementData (.ends sourceId targetId) false s').2 := by
    unfold createDataFlow
    simp only [hfsource, hftarget, hs' source hsourceEnd, hs' target htargetEnd, hsourceId,
      htargetId]
  rw [hstep] at hclean ⊢
  obtain ⟨-, server, -, hext⟩ := createElement_clean env hclean
  refine ⟨fun x hx => ?_, _, ⟨rfl, rfl, source, target, sourceId, targetId, hfsource, hftarget,
    hsourceId, htargetId, rfl⟩, hext⟩
  rw [hext.idMapping, foldl_cons, foldl_nil, get?_set, if_neg (hsep f hf x hx)]
  exact hs' x hx

end

section

/-- An element of a created hierarchy: its fields and its id on the platform. -/
def madeElement : BoundaryData × ServerId ⊕ ComponentData × ServerId → ElementData × ServerId :=
  Sum.elim (Prod.map BoundaryData.toElementData id) (Prod.map ComponentData.toElementData id)

/-- All of a document was created, everything once and under the element made for its parent. -/
structure Complete (doc : Document) (model : ServerId) (made : Created)
    (m : Record JsonValue ServerId) (creations : List Creation) : Prop where
  hierarchy : made.map Prod.fst Prod.fst = doc.defaultBoundary
  mem_keys : ∀ x ∈ doc.ids, x ∈ m.keys
  /-- The default boundary comes with the model. -/
  created_once : ∀ x ∈ doc.ids, (creations.map Creation.id).count x =
    if x = doc.defaultBoundary.data.id then 0 else 1
  mapped : ∀ e ∈ made.elements, (madeElement e).1.id.truthy →
    m.get? (madeElement e).1.id = some (madeElement e).2
  under_parent : ∀ link ∈ made.links, creationOf link ∈ creations
  flow_between : ∀ f ∈ doc.flows, ∃ c ∈ creations, IsFlow m f c
  item_in_model : ∀ i ∈ doc.items, ∃ c ∈ creations, IsItem model i c

lemma map_id_of_forall₂ {α : Type*} {Made : α → Creation → Prop} {key : α → JsonValue}
    (hkey : ∀ a c, Made a c → c.id = key a) {l : List α} {new : List Creation}
    (h : List.Forall₂ Made l new) : new.map Creation.id = l.map key := by
  have heq : List.Forall₂ Eq (l.map key) (new.map Creation.id) :=
    forall₂_map_left_iff.2 (forall₂_map_right_iff.2 (h.imp fun a c hac => (hkey a c hac).symm))
  rw [forall₂_eq_eq_eq] at heq
  exact heq.symm

lemma exists_of_forall₂ {α β : Type*} {R : α → β → Prop} {l : List α} {l' : List β}
    (h : List.Forall₂ R l l') : ∀ a ∈ l, ∃ b ∈ l', R a b := by
  induction h with
  | nil => exact fun a ha => absurd ha not_mem_nil
  | cons hab _ ih =>
    intro a ha
    obtain rfl | ha := mem_cons.1 ha
    · exact ⟨_, .head _, hab⟩
    · obtain ⟨b, hb, hR⟩ := ih a ha
      exact ⟨b, .tail _ hb, hR⟩

lemma id_creationOf (link : (BoundaryData × ServerId) × (BoundaryData × ServerId ⊕ ComponentData × ServerId)) :
    (creationOf link).id = (madeElement link.2).1.id ∧ (creationOf link).server = (madeElement link.2).2 := by
  obtain ⟨parent, b | c⟩ := link
  all_goals exact ⟨rfl, rfl⟩

lemma ids_of_made {t : Nesting BoundaryData ComponentData} {made : Created} (h : made.map Prod.fst Prod.fst = t) :
    t.elements.map (fun e => (elementData e).id) = t.data.id :: (made.links.map creationOf).map Creation.id := by
  have hlink : ∀ link ∈ made.links, (elementData (Sum.map Prod.fst Prod.fst link.2)).id =
      (creationOf link).id := by
    rintro ⟨parent, b | c⟩ -
    all_goals rfl
  rw [← h, Nesting.elements_map, Nesting.elements_eq_cons_links, Nesting.data_map]
  simp only [map_cons, map_map, List.cons.injEq]
  exact ⟨rfl, map_congr_left hlink⟩

variable {doc : Document} {model root : ServerId} {made : Created} {items flows : List Creation}

/-- A document whose phases all created their elements was imported completely. -/
lemma complete_of_phases (hsound : doc.Sound)
    (hmade : made.map Prod.fst Prod.fst = doc.defaultBoundary) (hdata : made.data.2 = root)
    (hitems : List.Forall₂ (IsItem model) doc.items items)
    (hflows : List.Forall₂ (IsFlow ((items ++ made.links.map creationOf).foldl
      (fun m c => m.set c.id c.server) ((∅ : Record _ _).set doc.defaultBoundary.data.id root))) doc.flows flows) :
    Complete doc model made ((items ++ made.links.map creationOf ++ flows).foldl (fun m c => m.set c.id c.server)
        ((∅ : Record _ _).set doc.defaultBoundary.data.id root)) (items ++ made.links.map creationOf ++ flows) := by
  have hids := ids_of_made hmade
  have hitemIds := map_id_of_forall₂ (fun i c hc => hc.2.1) hitems
  have hflowIds := map_id_of_forall₂ (fun f c hc => hc.2.1) hflows
  -- every id of the document is counted once over the default boundary and all creations
  have hcount : ∀ x ∈ doc.ids, (if doc.defaultBoundary.data.id = x then 1 else 0) +
      ((items ++ made.links.map creationOf ++ flows).map Creation.id).count x = 1 := by
    intro x hx
    have hone := count_eq_one_of_mem hsound.nodup_ids hx
    rw [Document.ids, count_filter (mem_filter.1 hx).2, hids, ← hflowIds, ← hitemIds] at hone
    simp only [count_append, count_cons, map_append, beq_iff_eq] at hone ⊢
    omega
  have hmem : ∀ x, x.truthy → x ∈ doc.defaultBoundary.data.id ::
      (made.links.map creationOf).map Creation.id → x ∈ doc.ids := by
    intro x hx hxmem
    rw [← hids] at hxmem
    exact mem_filter.2 ⟨mem_append_left _ (mem_append_left _ hxmem), hx⟩
  refine ⟨hmade, fun x hx => ?_, fun x hx => ?_, fun e he htruthy => ?_, fun link hlink => ?_,
    fun f hf => ?_, fun i hi => ?_⟩
  · rw [mem_keys_foldl_set]
    have hone := hcount x hx
    by_cases hd : doc.defaultBoundary.data.id = x
    · right
      rw [mem_keys_iff, get?_set, if_pos hd]
      rfl
    · left
      rw [if_neg hd, Nat.zero_add] at hone
      exact count_pos_iff.1 (hone ▸ Nat.one_pos)
  · have hone := hcount x hx
    by_cases hd : doc.defaultBoundary.data.id = x
    · rw [if_pos hd] at hone
      rw [if_pos hd.symm]
      omega
    · rw [if_neg hd] at hone
      rw [if_neg (Ne.symm hd)]
      omega
  · rw [Nesting.elements_eq_cons_links] at he
    obtain rfl | he := mem_cons.1 he
    · -- the default boundary is not created again
      have hid : (madeElement (.inl made.data)).1.id = doc.defaultBoundary.data.id := by
        rw [← hmade, Nesting.data_map]
        rfl
      rw [hid] at htruthy ⊢
      have hone := hcount _ (hmem _ htruthy (.head _))
      rw [if_pos rfl] at hone
      have hnot := count_eq_zero.1 (Nat.add_left_cancel hone)
      rw [get?_foldl_set_of_notMem hnot, get?_set, if_pos rfl]
      exact congrArg some hdata.symm
    · obtain ⟨link, hlink, rfl⟩ := mem_map.1 he
      obtain ⟨hid, hserver⟩ := id_creationOf link
      rw [← hid] at htruthy ⊢
      rw [← hserver]
      have hcreated : creationOf link ∈ items ++ made.links.map creationOf ++ flows :=
        mem_append_left _ (mem_append_right _ (mem_map_of_mem hlink))
      have hone := hcount _ (hmem _ htruthy (.tail _ (mem_map_of_mem (mem_map_of_mem hlink))))
      have hpos := count_pos_iff.2 (mem_map_of_mem hcreated (f := Creation.id))
      exact get?_foldl_set_of_count hcreated (by omega) _
  · exact mem_append_left _ (mem_append_right _ (mem_map_of_mem hlink))
  · obtain ⟨c, hc, hkind, hid, source, target, sourceId, targetId, hsource, htarget, hsourceId,
      htargetId, hplace⟩ := exists_of_forall₂ hflows f hf
    -- no data flow is mapped over one of its ends
    have hsame : ∀ x, doc.IsEnd x → x ∉ flows.map Creation.id := by
      intro x hx
      rw [hflowIds]
      exact (hsound.notMem_of_isEnd hx).1
    obtain ⟨_, hsource', hsourceEnd⟩ := hsound.source_mem f hf
    obtain ⟨_, htarget', htargetEnd⟩ := hsound.target_mem f hf
    cases hsource.symm.trans hsource'
    cases htarget.symm.trans htarget'
    refine ⟨c, mem_append_right _ hc, hkind, hid, source, target, sourceId, targetId, hsource,
      htarget, ?_, ?_, hplace⟩
    · rw [foldl_append, get?_foldl_set_of_notMem (hsame _ hsourceEnd)]
      exact hsourceId
    · rw [foldl_append, get?_foldl_set_of_notMem (hsame _ htargetEnd)]
      exact htargetId
  · obtain ⟨c, hc, hitem⟩ := exists_of_forall₂ hitems i hi
    exact ⟨c, mem_append_left _ (mem_append_left _ hc), hitem⟩

end

section

variable {env : Environment} {doc : Document}

/-- Nothing was created or recorded on the way from `s` to `s'`. -/
structure Quiet (s s' : ImportState) : Prop extends Extends s s' [] where
  errors : s'.errors = s.errors

variable {s s' : ImportState}

lemma Quiet.trans {s'' : ImportState} (h : Quiet s s') (h' : Quiet s' s'') : Quiet s s'' :=
  ⟨h.toExtends.trans h'.toExtends, h'.errors.trans h.errors⟩

lemma quiet_of_updateProgress {step : ℕ} {stepName : String}
    (h : updateProgress env step stepName s = .ok s') : Quiet s s' := by
  unfold updateProgress at h
  split at h
  next => cases h
  next =>
    cases h
    exact ⟨⟨(append_nil _).symm, rfl, rfl⟩, rfl⟩

lemma quiet_of_latePass {step : ℕ} (h : latePass env step s = .ok s') : Quiet s s' := by
  unfold latePass at h
  split at h
  next => cases h
  next =>
    cases h
    exact ⟨⟨(append_nil _).symm, rfl, rfl⟩, rfl⟩

lemma quiet_of_associateDataItemsWithElements
    (h : associateDataItemsWithElements env doc s = .ok s') : Quiet s s' := by
  unfold associateDataItemsWithElements at h
  split_ifs at h
  · exact quiet_of_latePass h
  · cases h
    exact ⟨.refl s, rfl⟩

lemma processDefaultBoundary_clean {root : ServerId}
    (hroot : s.idMapping.get? doc.defaultBoundary.data.id = some root)
    (h : (processDefaultBoundary env doc s).errors = []) :
    s.errors = [] ∧ ∃ made : Created, made.map Prod.fst Prod.fst = doc.defaultBoundary ∧ made.data.2 = root ∧
      Extends s (processDefaultBoundary env doc s) (made.links.map creationOf) := by
  have hprocess : processDefaultBoundary env doc s =
      processHierarchy env doc.defaultBoundary root s := by
    unfold processDefaultBoundary
    rw [hroot]
  rw [hprocess] at h ⊢
  exact processHierarchy_clean env _ _ _ h

lemma processDefaultBoundary_errors_grow
    (h : (processDefaultBoundary env doc s).errors = []) : s.errors = [] := by
  unfold processDefaultBoundary at h
  split at h
  next => exact (processHierarchy_clean env _ _ _ h).1
  next => exact h

/-- The default boundary of the model is mapped, if this leaves no error. -/
lemma setupDefaultBoundary_clean {b : BoundaryData}
    (h : (setupDefaultBoundary env b s).errors = []) :
    s.errors = [] ∧ ∃ root, env.defaultBoundary = .found root none ∧
      (setupDefaultBoundary env b s).idMapping = s.idMapping.set b.id root ∧
      (setupDefaultBoundary env b s).creations = s.creations ∧ (setupDefaultBoundary env b s).models = s.models := by
  have hfail : ∀ (l : List ImportError) (e : ImportError), l ++ [e] ≠ [] :=
    fun l e => append_ne_nil_of_right_ne_nil _ (cons_ne_nil _ _)
  unfold setupDefaultBoundary at h ⊢
  split at h
  next => exact absurd h (hfail _ _)
  next => exact absurd h (hfail _ _)
  next => exact absurd h (hfail _ _)
  next root update henv =>
    split at h
    next => exact absurd h (hfail _ _)
    next => exact ⟨h, root, henv, rfl, rfl, rfl⟩

variable {model : ServerId}

/-- Steps 3 to 8 of a successful import. -/
lemma buildModel_complete (hsound : doc.Sound) (hid : doc.IsEnd doc.defaultBoundary.data.id) {run : Run}
    (hmapping : s.idMapping = ∅) (hcreations : s.creations = [])
    (h : buildModel env doc model s = .ok run) (hsuccess : run.result.success = true) :
    ∃ (made : Created) (m : Record JsonValue ServerId), run.result.idMapping = some m ∧
      run.result.model = some model ∧ run.state.models = s.models ∧ env.defaultBoundary = .found made.data.2 none ∧
      Complete doc model made m run.state.creations := by
  obtain ⟨s₃, h₃, h⟩ := exists_of_bind_ok h
  obtain ⟨s₄, h₄, h⟩ := exists_of_bind_ok h
  obtain ⟨s₅, h₅, h⟩ := exists_of_bind_ok h
  obtain ⟨s₆, h₆, h⟩ := exists_of_bind_ok h
  obtain ⟨s₆', h₆', h⟩ := exists_of_bind_ok h
  obtain ⟨s₇, h₇, h⟩ := exists_of_bind_ok h
  obtain ⟨s₇', h₇', h⟩ := exists_of_bind_ok h
  obtain ⟨s₈, h₈, h⟩ := exists_of_bind_ok h
  obtain ⟨s₈', h₈', h⟩ := exists_of_bind_ok h
  obtain ⟨s₉, h₉, h⟩ := exists_of_bind_ok h
  cases h
  -- from the end of the run back to its start, every phase was clean
  have hlate : Quiet (doc.flows.foldl (createDataFlow env) s₆) s₉ :=
    (quiet_of_latePass h₆').trans ((quiet_of_updateProgress h₇).trans
      ((quiet_of_associateDataItemsWithElements h₇').trans ((quiet_of_updateProgress h₈).trans
        ((quiet_of_latePass h₈').trans (quiet_of_updateProgress h₉)))))
  have hflows : (doc.flows.foldl (createDataFlow env) s₆).errors = [] :=
    hlate.errors.symm.trans (List.isEmpty_iff.1 hsuccess)
  have hhierarchy : (processDefaultBoundary env doc s₅).errors = [] :=
    (quiet_of_updateProgress h₆).errors.symm.trans
      (foldl_errors_grow (createDataFlow_errors_grow env) _ _ hflows)
  have hitems : (doc.items.foldl (createDataItem env model) s₄).errors = [] :=
    (quiet_of_updateProgress h₅).errors.symm.trans (processDefaultBoundary_errors_grow hhierarchy)
  obtain ⟨hs₄, items, hitemsMade, hitemsExt⟩ := createDataItems_clean env hitems
  obtain ⟨-, root, henv, hmap, hcre, hmod⟩ := setupDefaultBoundary_clean
    ((quiet_of_updateProgress h₄).errors.symm.trans hs₄)
  have hext₃ := quiet_of_updateProgress h₃
  have hstart : (setupDefaultBoundary env doc.defaultBoundary.data s₃).idMapping =
      (∅ : Record _ _).set doc.defaultBoundary.data.id root := by
    rw [hmap, hext₃.idMapping, foldl_nil]
    rw [hmapping]
  -- what is mapped and created up to step 5
  have hext₅ := (quiet_of_updateProgress h₄).toExtends.trans
    (hitemsExt.trans (quiet_of_updateProgress h₅).toExtends)
  rw [nil_append, append_nil] at hext₅
  have hroot : s₅.idMapping.get? doc.defaultBoundary.data.id = some root := by
    have hnot : doc.defaultBoundary.data.id ∉ items.map Creation.id := by
      rw [map_id_of_forall₂ (fun i c hc => hc.2.1) hitemsMade]
      exact (hsound.notMem_of_isEnd hid).2
    rw [hext₅.idMapping, hstart, get?_foldl_set_of_notMem hnot, get?_set, if_pos rfl]
  obtain ⟨-, made, hmade, hdata, hhierarchyExt⟩ := processDefaultBoundary_clean hroot hhierarchy
  have hext₆ := hext₅.trans (hhierarchyExt.trans (quiet_of_updateProgress h₆).toExtends)
  rw [append_nil] at hext₆
  have hmapped : ∀ x, doc.IsEnd x → (s₆.idMapping.get? x).isSome := by
    rintro x ⟨-, hx⟩
    rw [← mem_keys_iff, hext₆.idMapping, hstart, mem_keys_foldl_set]
    have hmem : x ∈ doc.defaultBoundary.elements.map (fun e => (elementData e).id) :=
      mem_map.2 hx
    rw [ids_of_made hmade] at hmem
    obtain rfl | hmem := mem_cons.1 hmem
    · right
      rw [mem_keys_iff, get?_set, if_pos rfl]
      rfl
    · left
      rw [map_append]
      exact mem_append_right _ hmem
  obtain ⟨-, flows, hflowsMade, hflowsExt⟩ := createDataFlows_clean env
    (fun f hf x hx heq => (hsound.notMem_of_isEnd hx).1 (heq ▸ mem_map_of_mem hf))
    hsound.source_mem hsound.target_mem hmapped hflows
  have hall := hext₆.trans (hflowsExt.trans hlate.toExtends)
  rw [hext₆.idMapping, hstart] at hflowsMade
  have hcomplete := complete_of_phases hsound hmade hdata hitemsMade hflowsMade
  refine ⟨made, s₉.idMapping, rfl, rfl, ?_, ?_, ?_⟩
  · exact hall.models.trans (hmod.trans hext₃.models)
  · rw [henv, hdata]
  · rw [hall.idMapping, hstart, hall.creations, hcre, hext₃.creations]
    rw [hcreations, append_nil, nil_append]
    exact hcomplete

lemma createModel_some (h : createModel env s = (some model, s')) :
    s'.idMapping = s.idMapping ∧ s'.creations = s.creations ∧ s'.models = s.models ++ [model] := by
  unfold createModel at h
  split at h
  next => cases h
  next => cases h
  next model' _ =>
    obtain ⟨hmodel, rfl⟩ := Prod.mk.inj h
    cases hmodel
    exact ⟨rfl, rfl, rfl⟩

/-- An import that reports success created one model, and all of the document in it. -/
theorem importModel_complete (env : Environment) (doc : Document)
    (h : (importModel env doc).result.success = true) :
    ∃ (m : Record JsonValue ServerId) (model : ServerId) (made : Created),
      (importModel env doc).result.idMapping = some m ∧
      (importModel env doc).result.model = some model ∧
      (importModel env doc).state.models = [model] ∧
      env.defaultBoundary = .found made.data.2 none ∧
      Complete doc model made m (importModel env doc).state.creations := by
  unfold importModel at h ⊢
  split at h
  next run hrun =>
    obtain ⟨s₁, h₁, hrun⟩ := exists_of_bind_ok hrun
    have hq₁ := quiet_of_updateProgress h₁
    split at hrun
    next =>
      cases hrun
      exact absurd h false_ne_true
    next hvalid =>
      simp only at hrun
      split_ifs at hrun with htypes hstructural
      · cases hrun
        exact absurd h false_ne_true
      · cases hrun
        exact absurd h false_ne_true
      · obtain ⟨s₂, h₂, hrun⟩ := exists_of_bind_ok hrun
        have hq₂ := quiet_of_updateProgress h₂
        split at hrun
        next =>
          cases hrun
          exact absurd h false_ne_true
        next model s hmodel =>
          obtain ⟨hmap, hcre, hmod⟩ := createModel_some hmodel
          have hsound := sound_of_validateMonolithicModel (not_not.1 hstructural)
          have hid := isEnd_of_validateImportData hvalid
          -- nothing is mapped or created before the model
          have hmapping : s.idMapping = ∅ := hmap.trans (hq₂.idMapping.trans hq₁.idMapping)
          have hcreations : s.creations = [] := hcre.trans
            (hq₂.creations.trans ((append_nil _).trans hq₁.creations))
          have hmodels : s.models = [model] := by
            rw [hmod, hq₂.models, show _ = ([] : List ServerId) from hq₁.models, nil_append]
          obtain ⟨made, m, hm, hresult, hmodels', henv, hcomplete⟩ :=
            buildModel_complete hsound hid hmapping hcreations hrun h
          exact ⟨m, model, made, hm, hresult, hmodels'.trans hmodels, henv, hcomplete⟩
  next => exact absurd h false_ne_true

end

/-- An element with a name and an id and nothing else. -/
def sampleElement (id name : String) : ElementData where
  id := .string id
  name := .string name
  type := .absent
  positionX := .absent
  positionY := .absent
  dimensionsWidth := .absent
  dimensionsHeight := .absent
  dimensionsMinWidth := .absent
  dimensionsMinHeight := .absent
  dataItemIds := []

/-- A store in a zone, a data item, and a data flow from the zone to the store. -/
def sampleDocument : Document where
  name := .string "Shop"
  defaultBoundary := .node { sampleElement "b0" "Default" with zoning := false }
    (some [.node { sampleElement "b1" "Zone" with zoning := true } none
      (some [{ sampleElement "c1" "Store" with type := .string "STORE" }])])
    none
  dataFlows := some [{ sampleElement "f1" "Read" with
    source := some (.string "b1"), target := some (.string "c1") }]
  dataItems := some [{ sampleElement "d1" "Orders" with }]

/-- A platform that answers every call. -/
def sampleEnvironment : Environment where
  modelWarnings := []
  createModel := .created ⟨"model", by decide⟩
  defaultBoundaryWarnings := []
  defaultBoundary := .found ⟨"root", by decide⟩ none
  create := fun n => ⟨[], .created (if n = 0 then ⟨"item", by decide⟩ else if n = 1 then
    ⟨"zone", by decide⟩ else if n = 2 then ⟨"store", by decide⟩ else ⟨"flow", by decide⟩) none⟩
  lateWarnings := fun _ => []
  late := fun _ => none
  onProgress := fun _ => none
  deleteModel := none

lemma importModel_sample_success : (importModel sampleEnvironment sampleDocument).result.success = true := by
  decide +kernel

theorem importModel_complete_sample :
    (importModel sampleEnvironment sampleDocument).result.success = true ∧
    ∃ (m : Record JsonValue ServerId) (model : ServerId) (made : Created),
      (importModel sampleEnvironment sampleDocument).result.idMapping = some m ∧
      (importModel sampleEnvironment sampleDocument).result.model = some model ∧
      (importModel sampleEnvironment sampleDocument).state.models = [model] ∧
      sampleEnvironment.defaultBoundary = .found made.data.2 none ∧
      Complete sampleDocument model made m
        (importModel sampleEnvironment sampleDocument).state.creations :=
  ⟨importModel_sample_success,
    importModel_complete sampleEnvironment sampleDocument importModel_sample_success⟩

end ModelImport
