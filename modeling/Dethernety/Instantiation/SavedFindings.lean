import Dethernety.Instantiation.FindingFrames
import Dethernety.Instantiation.PlannedLinks

/-!
# A save leaves what the module declares

`upsertFindings` on an element and a class that exist. A finding without a name passes `storableFindings`, its
upsert creates a node without a name at every save, and its `null` in the list of valid names switches the
cleanup off. `saved_iff`: the save leaves exactly the storable names, can be repeated and keeps everything else
exactly when every finding has a name and no earlier finding of the class has a name that the cleanup cannot
tell from a valid one.
-/

open List Option Record

namespace Findings

open ModelDirectory (Json)

variable {engine : Engine} {s : FindingScope} {g g' g'' : Graph} {findings : List Finding}
  {unresolved : List String}

/-- An element and a class, neither of them a finding of the scope. -/
structure Site (s : FindingScope) (g : Graph) : Prop where
  bothExist : BothExist s g
  element : ¬ InScope g s s.componentId
  klass : ¬ InScope g s s.classId

/-! ## The loop -/

section

variable {plan : ReferencePlan} {f : StorableFinding}

/-- Links of a plan have types of the writer's. -/
def PlanOk (kind : FindingKind) (plan : ReferencePlan) : Prop :=
  ∀ key, ∀ link ∈ plan.linksOf key, link.relationName ∈ kind.linkTypes

lemma wrote_foldl_link {name : Json} {links : List PlannedLink}
    (hlinks : ∀ link ∈ links, link.relationName ∈ s.kind.linkTypes) (hboth : BothExist s g) :
    Wrote s g (links.foldl (linkToExternalObject engine s name) g) [] ∧
      Keeps s g (links.foldl (linkToExternalObject engine s name) g) := by
  induction links generalizing g with
  | nil => exact ⟨wrote_nil (fun _ => rfl) fun _ _ _ _ => Iff.rfl, Keeps.refl s g⟩
  | cons link links ih =>
    have hwrote : Wrote s g (linkToExternalObject engine s name g link) [] :=
      wrote_linkToExternalObject (hlinks link (.head _))
    obtain ⟨hrest, hkeeps⟩ := ih (fun l hl => hlinks l (mem_cons_of_mem link hl))
      (hwrote.bothExist hboth)
    exact ⟨hwrote.trans hrest hboth, keeps_linkToExternalObject.trans hkeeps hwrote.toExtends hboth⟩

lemma wrote_writeFinding (hplan : PlanOk s.kind plan) (hboth : BothExist s g) :
    Wrote s g (writeFinding engine s plan g f) [f.attributeName] ∧ Keeps s g (writeFinding engine s plan g f) := by
  have hupsert : Wrote s g (upsertFinding s g f
      ((plan.unresolved.get? f.key).map fun texts => .list (texts.map .string))) [f.attributeName] :=
    wrote_upsertFinding hboth
  obtain ⟨hlinks, hkeeps⟩ := wrote_foldl_link (hplan f.key) (hupsert.bothExist hboth)
  exact ⟨hupsert.trans hlinks hboth, (keeps_upsertFinding hboth).trans hkeeps hupsert.toExtends hboth⟩

lemma wrote_foldl_writeFinding (hplan : PlanOk s.kind plan) (hboth : BothExist s g) (l : List StorableFinding) :
    Wrote s g (l.foldl (writeFinding engine s plan) g) (l.map StorableFinding.attributeName) ∧
      Keeps s g (l.foldl (writeFinding engine s plan) g) := by
  induction l generalizing g with
  | nil => exact ⟨wrote_nil (fun _ => rfl) fun _ _ _ _ => Iff.rfl, Keeps.refl s g⟩
  | cons f l ih =>
    obtain ⟨hwrote, hkeeps⟩ := wrote_writeFinding hplan hboth
    obtain ⟨hrest, hkeepsRest⟩ := ih (hwrote.bothExist hboth)
    exact ⟨hwrote.trans hrest hboth, hkeeps.trans hkeepsRest hwrote.toExtends hboth⟩

lemma wrote_reconcileLinks {names : List (NameKey × Option Json)} {before : List FindingLinksBefore}
    (hboth : BothExist s g) : Wrote s g (reconcileLinks engine s g names plan before) [] ∧
      Keeps s g (reconcileLinks engine s g names plan before) := by
  have hprune : Wrote s g (pruneLinks engine s g (names.map fun name => name.2.getD .null)
      (keepList plan names)) [] := wrote_pruneLinks
  exact ⟨hprune.trans wrote_flagStale hboth, keeps_pruneLinks.trans keeps_flagStale hprune.toExtends hboth⟩

/-- What the writer does, on any graph: it goes through the names of the findings that are not skipped. -/
lemma wrote_upsertFindingsInTx (hboth : BothExist s g)
    (h : upsertFindingsInTx engine s findings g = some (g', unresolved)) :
    Wrote s g g' ((storableFindings s.kind findings).map StorableFinding.attributeName) ∧ Keeps s g g' := by
  obtain ⟨refs, hrefs, h⟩ := bind_eq_some_iff.1 h
  cases h
  have hplan : PlanOk s.kind (planReferences g refs.flatten) := fun key => relationName_linksOf hrefs
  obtain ⟨hwrote, hkeeps⟩ := wrote_foldl_writeFinding hplan hboth (storableFindings s.kind findings)
  obtain ⟨hreconcile, hkeepsReconcile⟩ := wrote_reconcileLinks (hwrote.bothExist hboth)
  have htrans := hwrote.trans hreconcile hboth
  rw [append_nil] at htrans
  exact ⟨htrans, hkeeps.trans hkeepsReconcile hwrote.toExtends hboth⟩

end

/-! ## The cleanup -/

section

variable {validNames : List Json} {e : ℕ}

/-- The findings that the cleanup deletes. -/
def IsObsolete (engine : Engine) (s : FindingScope) (validNames : List Json) (g : Graph) (e : ℕ) : Prop :=
  InScope g s e ∧ inList engine (nameOf g e) validNames = some false

instance : Decidable (IsObsolete engine s validNames g e) :=
  inferInstanceAs (Decidable (_ ∧ _))

lemma get?_nodes_deleteObsolete (e : ℕ) : (deleteObsoleteFindings engine s validNames g).nodes.get? e =
    if IsObsolete engine s validNames g e then none else g.nodes.get? e := by
  unfold deleteObsoleteFindings
  rw [PropertyGraph.get?_nodes_detachDelete]
  exact ite_congr decide_eq_true_eq (fun _ => rfl) fun _ => rfl

lemma hasEdge_deleteObsolete {a b : ℕ} {t : String} :
    (deleteObsoleteFindings engine s validNames g).HasEdge a t b ↔
      g.HasEdge a t b ∧ ¬ IsObsolete engine s validNames g a ∧ ¬ IsObsolete engine s validNames g b := by
  unfold deleteObsoleteFindings
  rw [PropertyGraph.hasEdge_detachDelete, decide_eq_false_iff_not, decide_eq_false_iff_not]
  rfl

lemma mem_keys_deleteObsolete : e ∈ (deleteObsoleteFindings engine s validNames g).nodes.keys ↔
    e ∈ g.nodes.keys ∧ ¬ IsObsolete engine s validNames g e := by
  rw [mem_keys_iff, get?_nodes_deleteObsolete, mem_keys_iff]
  split_ifs with hobsolete
  all_goals simp [hobsolete]

variable (hsite : Site s g)

include hsite

lemma scopes_deleteObsolete : (InScope (deleteObsoleteFindings engine s validNames g) s e ↔
      InScope g s e ∧ ¬ IsObsolete engine s validNames g e) ∧
    (IsSystemFinding (deleteObsoleteFindings engine s validNames g) s e ↔
      IsSystemFinding g s e ∧ ¬ IsObsolete engine s validNames g e) := by
  have helement : ¬ IsObsolete engine s validNames g s.componentId := fun h => hsite.element h.1
  have hklass : ¬ IsObsolete engine s validNames g s.classId := fun h => hsite.klass h.1
  simp only [InScope, IsSystemFinding, get?_nodes_deleteObsolete, hasEdge_deleteObsolete, helement, hklass,
    not_false_eq_true, true_and, and_true]
  by_cases hobsolete : IsObsolete engine s validNames g e
  all_goals simp [hobsolete]

lemma site_deleteObsolete : Site s (deleteObsoleteFindings engine s validNames g) := by
  have hklass : ¬ IsObsolete engine s validNames g s.classId := fun h => hsite.klass h.1
  obtain ⟨helement, n, hn, hlabel⟩ := hsite.bothExist
  refine ⟨⟨mem_keys_deleteObsolete.2 ⟨helement, fun h => hsite.element h.1⟩, n, ?_, hlabel⟩,
    fun h => hsite.element ((scopes_deleteObsolete hsite).1.1 h).1,
    fun h => hsite.klass ((scopes_deleteObsolete hsite).1.1 h).1⟩
  rw [get?_nodes_deleteObsolete, if_neg hklass]
  exact hn

omit hsite

lemma nameOf_deleteObsolete (h : ¬ IsObsolete engine s validNames g e) :
    nameOf (deleteObsoleteFindings engine s validNames g) e = nameOf g e := by
  unfold nameOf
  rw [get?_nodes_deleteObsolete, if_neg h]

lemma Extends.site (h : Extends s g g') (hsite : Site s g) : Site s g' where
  bothExist := h.bothExist hsite.bothExist
  element hscope := hsite.element ((h.inScope_iff hsite.bothExist hsite.bothExist.1).1 hscope)
  klass hscope := hsite.klass ((h.inScope_iff hsite.bothExist hsite.bothExist.classId_mem).1 hscope)

end

/-! ## The save -/

/-- The names of the findings are exactly the storable names of the list. -/
def ExactNames (s : FindingScope) (findings : List Finding) (g : Graph) : Prop :=
  ∀ name, (∃ e, IsSystemFinding g s e ∧ nameOf g e = name) ↔ ∃ v, name = some v ∧ IsStorableName findings v

/-- The same save again creates and deletes nothing. -/
def Repeatable (engine : Engine) (s : FindingScope) (findings : List Finding) (g : Graph) : Prop :=
  ∀ g' unresolved, upsertFindings engine s findings g = some (g', unresolved) →
    ∀ e, e ∈ g'.nodes.keys ↔ e ∈ g.nodes.keys

/-- Whatever is not one of the platform's findings of the element and the class keeps its properties, and a
finding among it (a user's, one of another class or of another element) also its links to what is still there. -/
def KeepsOthers (s : FindingScope) (g g' : Graph) : Prop :=
  ∀ x n, g.nodes.get? x = some n → ¬ InScope g s x → g'.nodes.get? x = some n ∧
    (n.label ∉ REFERENCE_LABELS → ∀ r ∈ g.edgeList, r.2.source = x ∨ r.2.target = x →
      (∀ y ∈ [r.2.source, r.2.target], y ∈ g.nodes.keys ∧ y ∈ g'.nodes.keys) → r ∈ g'.edgeList)

structure Saved (engine : Engine) (s : FindingScope) (findings : List Finding) (g g' : Graph) : Prop where
  names : ExactNames s findings g'
  repeatable : Repeatable engine s findings g'
  others : KeepsOthers s g g'

/-- Every finding has a name, and every earlier finding of the class has a storable name of the list or one that
is not in the list by Cypher's `IN`. -/
structure Declared (engine : Engine) (s : FindingScope) (findings : List Finding) (g : Graph) : Prop where
  named : ∀ finding ∈ findings, ∃ j ∈ finding.name, j ≠ .null
  prior : ∀ e, IsSystemFinding g s e →
    (∃ v, nameOf g e = some v ∧ IsStorableName findings v) ∨
      inList engine (nameOf g e) (findings.map nameParam) = some false

lemma isSome_toValue {j : Json} (hstorable : describeNonPrimitiveValue j = none) (hne : j ≠ .null) :
    (toValue j).isSome := by
  match j with
  | .null => exact absurd rfl hne
  | .object _ => cases hstorable
  | .string _ | .number _ | .boolean _ | .array _ => rfl

lemma mem_attributeNames_iff (hnamed : ∀ finding ∈ findings, ∃ j ∈ finding.name, j ≠ .null)
    {kind : FindingKind} {name : Option Value} :
    name ∈ (storableFindings kind findings).map StorableFinding.attributeName ↔
      ∃ v, name = some v ∧ IsStorableName findings v := by
  constructor
  · intro hname
    obtain ⟨finding, hfinding, hstorable, rfl⟩ := mem_attributeNames.1 hname
    obtain ⟨j, hj, hne⟩ := hnamed finding hfinding
    obtain ⟨v, hv⟩ := isSome_iff_exists.1 (isSome_toValue (hstorable j hj) hne)
    exact ⟨v, by rw [mem_def.1 hj]; exact hv, finding, hfinding, j, hj, hstorable j hj, hv⟩
  · rintro ⟨v, rfl, hv⟩
    exact isStorableName_iff.1 hv

lemma upsertFindings_eq_some (h : upsertFindings engine s findings g = some (g', unresolved)) :
    ∃ written, upsertFindingsInTx engine s findings g = some (written, unresolved) ∧
      g' = deleteObsoleteFindings engine s (findings.map nameParam) written := by
  obtain ⟨⟨written, texts⟩, hwritten, h⟩ := bind_eq_some_iff.1 h
  cases h
  exact ⟨written, hwritten, rfl⟩

variable {written : Graph}

lemma not_isObsolete_of_storable {e : ℕ} {v : Value} (hname : nameOf written e = some v)
    (hv : IsStorableName findings v) : ¬ IsObsolete engine s (findings.map nameParam) written e := by
  rintro ⟨-, hobsolete⟩
  rw [hname, inList_of_storable hv] at hobsolete
  cases hobsolete

lemma keepsOthers_save (hsite : Site s g)
    (hwritten : upsertFindingsInTx engine s findings g = some (written, unresolved)) :
    KeepsOthers s g (deleteObsoleteFindings engine s (findings.map nameParam) written) := by
  obtain ⟨hwrote, hkeeps⟩ := wrote_upsertFindingsInTx hsite.bothExist hwritten
  intro x n hn hscope
  have hx := mem_keys_of_get? hn
  have hkept : ¬ IsObsolete engine s (findings.map nameParam) written x := fun h =>
    hscope ((hwrote.inScope_iff hsite.bothExist hx).1 h.1)
  refine ⟨?_, fun hlabel r hr hends hboth => ?_⟩
  · rw [get?_nodes_deleteObsolete, if_neg hkept]
    exact hkeeps.node x n hn hscope
  · obtain ⟨hsource, hsource'⟩ := hboth _ (.head _)
    obtain ⟨-, htarget'⟩ := hboth _ (.tail _ (mem_singleton_self _))
    have hr' : r ∈ written.edgeList := by
      refine hkeeps.edge r hr hsource ?_
      rcases hends with rfl | rfl
      · exact .inl hscope
      · exact .inr ⟨n, hn, hlabel⟩
    exact PropertyGraph.mem_detachDelete.2 ⟨hr', decide_eq_false (mem_keys_deleteObsolete.1 hsource').2,
      decide_eq_false (mem_keys_deleteObsolete.1 htarget').2⟩

lemma exactNames_save (hsite : Site s g) (hdeclared : Declared engine s findings g)
    (hwritten : upsertFindingsInTx engine s findings g = some (written, unresolved)) :
    ExactNames s findings (deleteObsoleteFindings engine s (findings.map nameParam) written) := by
  obtain ⟨hwrote, -⟩ := wrote_upsertFindingsInTx hsite.bothExist hwritten
  have hsite' := hwrote.site hsite
  intro name
  constructor
  · rintro ⟨e, hfinding, rfl⟩
    obtain ⟨hfinding, hkept⟩ := (scopes_deleteObsolete hsite').2.1 hfinding
    rw [nameOf_deleteObsolete hkept]
    by_cases he : e ∈ g.nodes.keys
    · rw [hwrote.nameOf_eq he]
      refine (hdeclared.prior e ((hwrote.isSystemFinding_iff hsite.bothExist he).1 hfinding)).resolve_right ?_
      intro hobsolete
      exact hkept ⟨hfinding.inScope, by rw [hwrote.nameOf_eq he]; exact hobsolete⟩
    · exact (mem_attributeNames_iff hdeclared.named).1 (hwrote.newName e hfinding.mem_keys he)
  · rintro ⟨v, rfl, hv⟩
    obtain ⟨e, hfinding, hname⟩ := hwrote.present _ (isStorableName_iff.1 hv)
    have hkept : ¬ IsObsolete engine s (findings.map nameParam) written e := not_isObsolete_of_storable hname hv
    exact ⟨e, (scopes_deleteObsolete hsite').2.2 ⟨hfinding, hkept⟩,
      (nameOf_deleteObsolete hkept).trans hname⟩

lemma repeatable_save (hsite : Site s g) (hdeclared : Declared engine s findings g)
    (hwritten : upsertFindingsInTx engine s findings g = some (written, unresolved)) :
    Repeatable engine s findings (deleteObsoleteFindings engine s (findings.map nameParam) written) := by
  have hnames := exactNames_save hsite hdeclared hwritten
  obtain ⟨hwrote, -⟩ := wrote_upsertFindingsInTx hsite.bothExist hwritten
  have hsite' : Site s (deleteObsoleteFindings engine s (findings.map nameParam) written) :=
    site_deleteObsolete (hwrote.site hsite)
  intro g'' texts hagain e
  obtain ⟨again, hwrittenAgain, rfl⟩ := upsertFindings_eq_some hagain
  obtain ⟨hwroteAgain, -⟩ := wrote_upsertFindingsInTx hsite'.bothExist hwrittenAgain
  rw [mem_keys_deleteObsolete]
  have hsettled := hwroteAgain.settled fun name hname => by
    obtain ⟨v, rfl, hv⟩ := (mem_attributeNames_iff hdeclared.named).1 hname
    exact ⟨rfl, (hnames (some v)).2 ⟨v, rfl, hv⟩⟩
  refine ⟨fun h => hsettled e h.1, fun he => ⟨hwroteAgain.mem_keys he, ?_⟩⟩
  -- a finding that is obsolete now was so before
  rintro ⟨hscope, hobsolete⟩
  obtain ⟨hscope, hkept⟩ := (scopes_deleteObsolete (hwrote.site hsite)).1.1
    ((hwroteAgain.inScope_iff hsite'.bothExist he).1 hscope)
  rw [hwroteAgain.nameOf_eq he, nameOf_deleteObsolete hkept] at hobsolete
  exact hkept ⟨hscope, hobsolete⟩

lemma declared_of_exactNames (hsite : Site s g)
    (hwritten : upsertFindingsInTx engine s findings g = some (written, unresolved))
    (hnames : ExactNames s findings (deleteObsoleteFindings engine s (findings.map nameParam) written)) :
    Declared engine s findings g := by
  obtain ⟨hwrote, -⟩ := wrote_upsertFindingsInTx hsite.bothExist hwritten
  have hsite' := hwrote.site hsite
  -- what the cleanup leaves has one of the names
  have hleft : ∀ e, IsSystemFinding written s e →
      ¬ IsObsolete engine s (findings.map nameParam) written e →
      ∃ v, nameOf written e = some v ∧ IsStorableName findings v := fun e hfinding hkept =>
    (hnames _).1 ⟨e, (scopes_deleteObsolete hsite').2.2 ⟨hfinding, hkept⟩, nameOf_deleteObsolete hkept⟩
  refine ⟨fun finding hfinding => ?_, fun e hfinding => ?_⟩
  · by_contra hnameless
    have hnull : ∀ j ∈ finding.name, j = .null := fun j hj => by
      by_contra hne
      exact hnameless ⟨j, hj, hne⟩
    have hnone : none ∈ (storableFindings s.kind findings).map StorableFinding.attributeName := by
      refine mem_attributeNames.2 ⟨finding, hfinding, fun j hj => by rw [hnull j hj]; rfl, ?_⟩
      cases hj : finding.name with
      | none => rfl
      | some j => rw [hnull j hj]; rfl
    obtain ⟨e, hsystem, hname⟩ := hwrote.present none hnone
    obtain ⟨v, hv, -⟩ := hleft e hsystem fun hobsolete => by
      have hin := hobsolete.2
      rw [hname] at hin
      exact inList_none_ne_false (ne_nil_of_mem (mem_map_of_mem hfinding)) hin
    cases hname.symm.trans hv
  · by_cases hobsolete : inList engine (nameOf g e) (findings.map nameParam) = some false
    · exact .inr hobsolete
    · refine .inl ?_
      rw [← hwrote.nameOf_eq hfinding.mem_keys] at hobsolete ⊢
      exact hleft e ((hwrote.isSystemFinding_iff hsite.bothExist hfinding.mem_keys).2 hfinding)
        fun h => hobsolete h.2

/-- A save leaves exactly the storable names that the module declares, leaves nothing to do for the same save,
and keeps everything else, exactly when every finding has a name and no earlier finding has a name outside the
list that the cleanup cannot tell to be outside. -/
theorem saved_iff (hsite : Site s g) (h : upsertFindings engine s findings g = some (g', unresolved)) :
    Saved engine s findings g g' ↔ Declared engine s findings g := by
  obtain ⟨written, hwritten, rfl⟩ := upsertFindings_eq_some h
  constructor
  · exact fun hsaved => declared_of_exactNames hsite hwritten hsaved.names
  · exact fun hdeclared => ⟨exactNames_save hsite hdeclared hwritten, repeatable_save hsite hdeclared hwritten,
      keepsOthers_save hsite hwritten⟩

/-- An element, its class and an exposure that the platform wrote. -/
def sampleGraph : Graph where
  nodes := ofList [(0, ⟨"Process", none, ∅⟩), (1, ⟨"ComponentClass", none, ∅⟩),
    (2, ⟨"Exposure", none, ofList [("name", .primitive (.string "Old"))]⟩)]
  edges := ofList [(0, ⟨0, "HAS_EXPOSURE", 2, ∅⟩), (1, ⟨2, "IS_EXPOSURE_OF", 1, ∅⟩)]

def sampleScope : FindingScope :=
  ⟨.exposure, 0, 1⟩

def neo4j : Engine :=
  ⟨none, fun _ => none⟩

lemma site_sampleGraph : Site sampleScope sampleGraph :=
  ⟨by decide +kernel, by decide +kernel, by decide +kernel⟩

theorem saved_sampleGraph : ∃ g' unresolved,
    upsertFindings neo4j sampleScope [ofList [("name", .string "New")]] sampleGraph = some (g', unresolved) ∧
      Saved neo4j sampleScope [ofList [("name", .string "New")]] sampleGraph g' := by
  have hsome : (upsertFindings neo4j sampleScope [ofList [("name", .string "New")]] sampleGraph).isSome := by
    decide +kernel
  obtain ⟨⟨g', unresolved⟩, h⟩ := isSome_iff_exists.1 hsome
  refine ⟨g', unresolved, h, (saved_iff site_sampleGraph h).2 ⟨fun finding hfinding => ?_, fun e he => .inr ?_⟩⟩
  · rw [mem_singleton.1 hfinding]
    exact ⟨.string "New", rfl, fun h => nomatch h⟩
  · have hobsolete : ∀ e ∈ sampleGraph.nodes.keys, IsSystemFinding sampleGraph sampleScope e →
        inList neo4j (nameOf sampleGraph e) [.string "New"] = some false := by
      decide +kernel
    exact hobsolete e he.mem_keys he

/-- One finding without a name: the exposure that the module no longer declares stays. -/
theorem sampleGraph_not_saved : ¬ ∀ g' unresolved,
    upsertFindings neo4j sampleScope [∅] sampleGraph = some (g', unresolved) →
      Saved neo4j sampleScope [∅] sampleGraph g' := by
  intro hall
  have hsome : (upsertFindings neo4j sampleScope [∅] sampleGraph).isSome := by decide +kernel
  obtain ⟨⟨g', unresolved⟩, h⟩ := isSome_iff_exists.1 hsome
  obtain ⟨written, hwritten, rfl⟩ := upsertFindings_eq_some h
  have hdeclared := declared_of_exactNames site_sampleGraph hwritten (hall _ _ h).names
  obtain ⟨j, hj, -⟩ := hdeclared.named ∅ (mem_singleton_self ∅)
  cases hj

end Findings
