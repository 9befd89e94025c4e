import Mathlib.Data.List.Pairwise
import Mathlib.Data.List.Perm.Subperm
import Dethernety.Foundations.Text

/-!
# References to controls

Model of `control-resolver.ts` and of how `dt-update.ts` writes the controls of the model and of its elements.
The resolver reads the catalog of the platform's controls in two fetches, either of which may fail. It attaches a
control by its id, or by a name that only one control bears. An update replaces the controls of an element by
those that the references of the file resolve to; where a name is ambiguous it keeps the ones that the element has.
-/

open List
open String (ofList toLower)

namespace ControlReferences

structure Control where
  id : Option String
  name : Option String
  deriving DecidableEq

/-- A reference of a model file. -/
structure ControlReference where
  id : Option String
  name : Option String

inductive ControlOwnerKind
  | model
  | boundary
  | component
  | dataFlow
  | data

structure ControlOwner where
  kind : ControlOwnerKind
  id : Option String
  name : Option String

inductive Reason
  | notFound
  | ambiguous
  | catalogUnavailable
  deriving DecidableEq

/-- A control that an ambiguous reference matches. -/
structure Candidate where
  id : String
  name : String

structure UnresolvedControl where
  id : Option String
  name : Option String
  reason : Reason
  candidates : Option (List Candidate)
  owner : Option ControlOwner

structure ControlResolution where
  ids : List String
  unresolved : List UnresolvedControl

inductive ControlCatalogStatus
  | complete
  | incomplete
  | unavailable
  deriving DecidableEq

/-- What a value is unless it is absent or empty (`x || undefined`). -/
def orNone : Option String → Option String
  | some text => if text = "" then none else some text
  | none => none

def unlessBlank : Option String → Option String
  | some name => if ecmaTrim name.toList = [] then none else some name
  | none => none

def describeUnresolvedControl (u : UnresolvedControl) : String :=
  let label := ((orNone u.name).or (orNone u.id)).getD "unnamed"
  match u.reason with
  | .ambiguous =>
    let ids := (u.candidates.getD []).map Candidate.id
    label ++ " (" ++ toString ids.length ++ " controls match that name: " ++ ", ".intercalate ids ++ ")"
  | .catalogUnavailable => label ++ " (the control catalog could not be fetched in full)"
  | .notFound => label

def ownerKindLabel : ControlOwnerKind → String
  | .model => "model"
  | .boundary => "boundary"
  | .component => "component"
  | .dataFlow => "data flow"
  | .data => "data item"

def describeControlOwner (owner : ControlOwner) : String :=
  match (orNone owner.name).or (orNone owner.id) with
  | some label => ownerKindLabel owner.kind ++ " \"" ++ label ++ "\""
  | none => "the " ++ ownerKindLabel owner.kind

/-- What the two fetches return, unless they fail: the controls with no folder, and all of them. -/
structure Fetches where
  noFolder : Option (List Control)
  all : Option (List Control)

/-- A round of the loop over the second fetch. -/
def addMissing (merged : List Control) (control : Control) : List Control :=
  if merged.any fun c => c.id = control.id then merged else merged ++ [control]

namespace Fetches

variable (f : Fetches)

def catalog : List Control :=
  (f.all.getD []).foldl addMissing (f.noFolder.getD [])

def catalogStatus : ControlCatalogStatus :=
  if f.all.isSome then .complete else if f.noFolder.isSome then .incomplete else .unavailable

end Fetches

/-- A control that can be attached. -/
def Control.usable (c : Control) : Bool :=
  (orNone c.id).isSome

/-- The id of a control that can be attached. -/
def Control.key (c : Control) : String :=
  c.id.getD ""

section

variable (toLowerCase : String → String)

/-- `normalised`, with `String.prototype.toLowerCase` as a parameter. -/
def normalised (name : String) : String :=
  toLowerCase (ofList (ecmaTrim name.toList))

/-- The controls that a name step finds: by the name as it is, or else up to case and surrounding spaces. -/
def matchesOf (controls : List Control) (name : String) : List Control :=
  let exact := controls.filter fun c => c.name = some name
  if exact.length > 0 then exact
  else controls.filter fun c =>
    (unlessBlank c.name).any fun n => normalised toLowerCase n = normalised toLowerCase name

def report (ref : ControlReference) (reason : Reason) (found : List Control) : UnresolvedControl where
  id := orNone ref.id
  name := unlessBlank ref.name
  reason := reason
  candidates := if reason = .ambiguous then some (found.map fun c => ⟨c.key, c.name.getD ""⟩) else none
  owner := none

/-- The id of a reference, if a control has it. -/
def ownId (f : Fetches) (ref : ControlReference) : Option String :=
  (orNone ref.id).filter fun id => (f.catalog.filter Control.usable).any fun c => c.id = some id

/-- What becomes of one reference: the id of a control, or a report. -/
def resolveReference (f : Fetches) (ref : ControlReference) : String ⊕ UnresolvedControl :=
  match ownId f ref with
  | some id => .inl id
  | none =>
    match unlessBlank ref.name, f.catalogStatus with
    | none, .complete => .inr (report ref .notFound [])
    | some name, .complete =>
      match matchesOf toLowerCase (f.catalog.filter Control.usable) name with
      | [c] => .inl c.key
      | found => .inr (report ref (if found.length = 0 then .notFound else .ambiguous) found)
    | _, _ => .inr (report ref .catalogUnavailable [])

/-- A round of the loop over the references. -/
def resolveStep (f : Fetches) (r : ControlResolution) (ref : ControlReference) : ControlResolution :=
  match resolveReference toLowerCase f ref with
  | .inl id => { r with ids := r.ids ++ [id] }
  | .inr u => { r with unresolved := r.unresolved ++ [u] }

def resolve (f : Fetches) (references : List ControlReference) : ControlResolution :=
  references.foldl (resolveStep toLowerCase f) ⟨[], []⟩

lemma resolve_eq (f : Fetches) (references : List ControlReference) :
    resolve toLowerCase f references =
      ⟨references.filterMap fun ref => (resolveReference toLowerCase f ref).getLeft?,
        references.filterMap fun ref => (resolveReference toLowerCase f ref).getRight?⟩ := by
  suffices h : ∀ r : ControlResolution, references.foldl (resolveStep toLowerCase f) r =
      ⟨r.ids ++ references.filterMap fun ref => (resolveReference toLowerCase f ref).getLeft?,
        r.unresolved ++ references.filterMap fun ref => (resolveReference toLowerCase f ref).getRight?⟩ from
    h ⟨[], []⟩
  induction references with
  | nil => simp
  | cons ref references ih =>
    intro r
    rw [foldl_cons, ih, resolveStep]
    cases href : resolveReference toLowerCase f ref with
    | inl id | inr u => simp [href]

end

section

variable (toLowerCase : String → String)

/-- What an update keeps of the catalog checks, and its errors, warnings and reports about controls. -/
structure SyncState where
  controlCatalogChecked : Bool
  controlCatalogUnavailable : Bool
  errors : List (String × String)
  warnings : List String
  unresolvedControls : List UnresolvedControl

def SyncState.initial : SyncState where
  controlCatalogChecked := false
  controlCatalogUnavailable := false
  errors := []
  warnings := []
  unresolvedControls := []

def checkCatalog (f : Fetches) (st : SyncState) : SyncState :=
  if st.controlCatalogChecked then st
  else
    match f.catalogStatus with
    | .complete => { st with controlCatalogChecked := true }
    | .incomplete => { st with
        controlCatalogChecked := true
        controlCatalogUnavailable := true
        errors := st.errors ++ [("resolve_controls",
          "Control catalog incomplete (the 'all' fetch failed) — controls preserved, not synced")] }
    | .unavailable => { st with
        controlCatalogChecked := true
        controlCatalogUnavailable := true
        errors := st.errors ++ [("resolve_controls",
          "Control catalog unavailable (both fetches failed) — controls preserved, not synced")] }

/-- The candidates of an ambiguous reference that are attached. -/
def keptCandidates (attached : List String) (u : UnresolvedControl) : List String :=
  if u.reason = .ambiguous then ((u.candidates.getD []).map Candidate.id).filter (· ∈ attached) else []

def pushMissing (ids kept : List String) : List String :=
  kept.foldl (fun ids id => if id ∈ ids then ids else ids ++ [id]) ids

/-- A round of the loop over the reports. -/
def reviewStep (owner : ControlOwner) (attached : List String) (s : List String × SyncState)
    (u : UnresolvedControl) : List String × SyncState :=
  let kept := keptCandidates attached u
  if kept.length > 0 then
    (pushMissing s.1 kept, { s.2 with
      warnings := s.2.warnings ++ ["Control " ++ describeUnresolvedControl u ++ ", on " ++
        describeControlOwner owner ++ ": kept " ++ ", ".intercalate kept ++ ", which it already had"] })
  else
    (s.1, { s.2 with
      unresolvedControls := s.2.unresolvedControls ++ [{ u with owner := some owner }]
      warnings := s.2.warnings ++ ["Could not resolve control: " ++ describeUnresolvedControl u ++ ", on " ++
        describeControlOwner owner] })

/-- `resolveControls`; `none` is `undefined`. -/
def resolveControls (f : Fetches) (controls : Option (List ControlReference)) (owner : ControlOwner)
    (attached : List String) (st : SyncState) : Option (List String) × SyncState :=
  match controls with
  | none => (none, st)
  | some [] => (some [], st)
  | some references =>
    let st := checkCatalog f st
    if st.controlCatalogUnavailable then (none, st)
    else
      let r := resolve toLowerCase f references
      let s := r.unresolved.foldl (reviewStep owner attached) (r.ids, st)
      (some s.1, s.2)

/-- The controls that an update sends; `none` where the key is left out. An absent key clears the controls of an
element and leaves those of the model and of a data item. -/
def sentControls (kind : ControlOwnerKind) (controls : Option (List ControlReference)) (existing : List String)
    (resolved : Option (List String)) : Option (List String) :=
  match kind with
  | .model => some (if controls.isSome then resolved.getD existing else existing)
  | .data => resolved
  | .boundary | .component | .dataFlow => if controls = none then some [] else resolved

/-- The write of the controls of the model or of an existing element, which has the attached ones. -/
structure ControlsWrite where
  controls : Option (List ControlReference)
  owner : ControlOwner
  attached : List String

/-- The controls that the platform has for it afterwards. -/
def controlsAfter (f : Fetches) (w : ControlsWrite) (st : SyncState) : List String :=
  (sentControls w.owner.kind w.controls w.attached
    (resolveControls toLowerCase f w.controls w.owner w.attached st).1).getD w.attached

/-- The state after a number of writes. -/
def syncAll (f : Fetches) (writes : List ControlsWrite) : SyncState :=
  writes.foldl (fun st w => (resolveControls toLowerCase f w.controls w.owner w.attached st).2) .initial

end

structure PlatformControl where
  control : Control
  inFolder : Bool

/-- The controls of the platform. No two of them have one id. -/
structure Platform where
  controls : List PlatformControl
  distinct : (controls.map PlatformControl.control).Pairwise fun c c' => ∀ id, c.id = some id → id ≠ "" →
    c'.id ≠ some id

namespace Platform

variable (p : Platform)

/-- The controls that can be attached. -/
def usable : List Control :=
  (p.controls.map PlatformControl.control).filter Control.usable

/-- What is fetched where the first and the second fetch succeed or fail. -/
def fetches (noFolderOk allOk : Bool) : Fetches where
  noFolder := if noFolderOk then some ((p.controls.filter (!·.inFolder)).map PlatformControl.control) else none
  all := if allOk then some (p.controls.map PlatformControl.control) else none

end Platform

variable {c : Control}

lemma usable_iff : c.usable = true ↔ ∃ id, c.id = some id ∧ id ≠ "" := by
  unfold Control.usable orNone
  split
  next text h => simp [h]
  next h => simp [h]

lemma Platform.pairwise_usable (p : Platform) : p.usable.Pairwise fun c c' => c.id ≠ c'.id := by
  refine (p.distinct.filter _).imp_of_mem fun {c c'} hc _ h hid => ?_
  obtain ⟨id, hcid, hne⟩ := usable_iff.1 (mem_filter.1 hc).2
  exact h id hcid hne (hid ▸ hcid)

variable {l : List Control}

lemma filter_foldl_addMissing
    (hl : (l.filter Control.usable).Pairwise fun c c' => c.id ≠ c'.id) (merged : List Control) :
    (l.foldl addMissing merged).filter Control.usable = merged.filter Control.usable ++
      (l.filter Control.usable).filter fun c => ¬ (merged.any fun m => m.id = c.id) := by
  induction l generalizing merged with
  | nil => simp
  | cons c l ih =>
    rw [foldl_cons]
    cases hc : c.usable with
    | false =>
      -- a control without an id is as good as none for the others
      rw [filter_cons_of_neg (by simp [hc])] at hl ⊢
      have hsame : (addMissing merged c).filter Control.usable = merged.filter Control.usable := by
        unfold addMissing
        split_ifs
        · rfl
        · simp [hc]
      rw [ih hl, hsame]
      congr 1
      refine filter_congr fun c' hc' => ?_
      have hne : c.id ≠ c'.id := by
        intro heq
        obtain ⟨id, hid, hne⟩ := usable_iff.1 (mem_filter.1 hc').2
        have husable : c.usable = true := usable_iff.2 ⟨id, heq.trans hid, hne⟩
        cases hc.symm.trans husable
      unfold addMissing
      split_ifs
      · rfl
      · simp [hne]
    | true =>
      rw [filter_cons_of_pos hc] at hl ⊢
      obtain ⟨hnew, hl⟩ := pairwise_cons.1 hl
      rw [ih hl]
      by_cases hin : merged.any fun m => m.id = c.id
      · rw [filter_cons_of_neg (by simpa using hin)]
        simp only [addMissing, if_pos hin]
      · rw [filter_cons_of_pos (by simpa using hin)]
        simp only [addMissing, if_neg hin, filter_append, append_assoc]
        congr 1
        rw [filter_cons_of_pos hc, filter_nil, singleton_append]
        congr 1
        refine filter_congr fun c' hc' => ?_
        simp [hnew c' hc']

lemma catalog_perm (p : Platform) (noFolderOk : Bool) :
    ((p.fetches noFolderOk true).catalog.filter Control.usable).Perm p.usable := by
  have hcatalog : (p.fetches noFolderOk true).catalog =
      (p.controls.map PlatformControl.control).foldl addMissing ((p.fetches noFolderOk true).noFolder.getD []) := rfl
  rw [hcatalog, filter_foldl_addMissing p.pairwise_usable]
  cases noFolderOk with
  | false => simp [Platform.fetches, Platform.usable]
  | true =>
    set l := p.controls.filter fun pc => pc.control.usable with hl
    have husable : p.usable = l.map PlatformControl.control := by
      rw [Platform.usable, filter_map]
      rfl
    have hmap : (l.map PlatformControl.control).Pairwise fun c c' => c.id ≠ c'.id := by
      rw [← husable]
      exact p.pairwise_usable
    have hdistinct : l.Pairwise fun a b => a.control.id ≠ b.control.id := by
      rwa [pairwise_map] at hmap
    have : Std.Symm fun a b : PlatformControl => a.control.id ≠ b.control.id := ⟨fun a b h => h.symm⟩
    have hnoFolder : (((p.fetches true true).noFolder.getD []).filter Control.usable) =
        (l.filter (!·.inFolder)).map PlatformControl.control := by
      show (((p.controls.filter (!·.inFolder)).map PlatformControl.control).filter Control.usable) = _
      rw [filter_map, hl, filter_filter, filter_filter]
      congr 1
      refine filter_congr fun pc _ => ?_
      exact Bool.and_comm _ _
    have hothers : (l.map PlatformControl.control).filter (fun c =>
        ¬ (((p.fetches true true).noFolder.getD []).any fun m => m.id = c.id)) =
        (l.filter fun pc => !(!pc.inFolder)).map PlatformControl.control := by
      rw [filter_map]
      congr 1
      refine filter_congr fun pc hpc => ?_
      have hiff : (((p.fetches true true).noFolder.getD []).any fun m => m.id = pc.control.id) = !pc.inFolder := by
        rw [Bool.eq_iff_iff, any_eq_true]
        constructor
        · rintro ⟨m, hm, hid⟩
          obtain ⟨pc', hpc', rfl⟩ := mem_map.1 hm
          obtain ⟨hmem, hnot⟩ := mem_filter.1 hpc'
          by_contra hin
          have hid' : pc'.control.id = pc.control.id := by simpa using hid
          have hpcUsable := (mem_filter.1 hpc).2
          have hmem' : pc' ∈ l := by
            refine mem_filter.2 ⟨hmem, ?_⟩
            unfold Control.usable at hpcUsable ⊢
            rw [hid']
            exact hpcUsable
          have hne : pc' ≠ pc := by
            rintro rfl
            exact hin hnot
          exact hdistinct.forall hmem' hpc hne hid'
        · intro hnot
          refine ⟨pc.control, mem_map.2 ⟨pc, mem_filter.2 ⟨(mem_filter.1 hpc).1, hnot⟩, rfl⟩, ?_⟩
          simp
      simp only [Function.comp_apply, hiff]
      cases pc.inFolder <;> rfl
    rw [hnoFolder, show (p.controls.map PlatformControl.control).filter Control.usable = _ from husable, hothers,
      husable, ← map_append]
    exact (filter_append_perm _ l).map _

lemma usable_mem_iff (p : Platform) (noFolderOk : Bool) {id : String} :
    (((p.fetches noFolderOk true).catalog.filter Control.usable).any fun c => c.id = some id) =
      p.usable.any fun c => c.id = some id := by
  rw [Bool.eq_iff_iff, any_eq_true, any_eq_true]
  exact exists_congr fun c => and_congr_left fun _ => (catalog_perm p noFolderOk).mem_iff

variable (toLowerCase : String → String)

lemma matchesOf_perm {l' : List Control} (h : l.Perm l') (name : String) :
    (matchesOf toLowerCase l name).Perm (matchesOf toLowerCase l' name) := by
  have hexact := h.filter fun c => decide (c.name = some name)
  unfold matchesOf
  dsimp only
  rw [hexact.length_eq]
  split_ifs
  · exact hexact
  · exact h.filter _

/-- The platform has the control, under an id. -/
def Platform.Has (p : Platform) (c : Control) : Prop :=
  (∃ inFolder, ⟨c, inFolder⟩ ∈ p.controls) ∧ ∃ id, c.id = some id ∧ id ≠ ""

/-- The reference names a control by its id. -/
def NamesById (p : Platform) (ref : ControlReference) : Prop :=
  ∃ c, p.Has c ∧ ref.id = c.id

/-- The name of the control is the one of the reference, and not blank. -/
def Bears (ref : ControlReference) (c : Control) : Prop :=
  ∃ name, ref.name = some name ∧ NonBlank name.toList ∧ c.name = some name

/-- The names of the control and of the reference, which are not blank, differ in case and surrounding spaces only. -/
def BearsLoosely (ref : ControlReference) (c : Control) : Prop :=
  ∃ name n, ref.name = some name ∧ NonBlank name.toList ∧ c.name = some n ∧ NonBlank n.toList ∧
    toLowerCase (ofList (ecmaTrim n.toList)) = toLowerCase (ofList (ecmaTrim name.toList))

/-- The reference can denote the control by its name: the control bears the name, or no control does and it bears the
name loosely. -/
def Denotes (p : Platform) (ref : ControlReference) (c : Control) : Prop :=
  p.Has c ∧ (Bears ref c ∨ (∀ c', p.Has c' → ¬ Bears ref c') ∧ BearsLoosely toLowerCase ref c)

/-- The reference has no id of a control, and can denote several by its name. -/
def Ambiguous (p : Platform) (ref : ControlReference) : Prop :=
  ¬ NamesById p ref ∧ ∃ c c', Denotes toLowerCase p ref c ∧ Denotes toLowerCase p ref c' ∧ c ≠ c'

/-- What the name step finds on the whole platform. -/
def bearers (p : Platform) (ref : ControlReference) : List Control :=
  match unlessBlank ref.name with
  | none => []
  | some name => matchesOf toLowerCase p.usable name

variable {toLowerCase} {p : Platform} {noFolderOk allOk : Bool} {ref : ControlReference}

lemma catalogStatus_fetches : (p.fetches noFolderOk allOk).catalogStatus = .complete ↔ allOk = true := by
  unfold Fetches.catalogStatus Platform.fetches
  cases allOk with
  | true => simp
  | false => cases noFolderOk <;> simp

variable {x : String} {owner : ControlOwner} {attached : List String} {f : Fetches}
  {controls : Option (List ControlReference)} {s : List String × SyncState}

lemma mem_usable_iff : c ∈ p.usable ↔ p.Has c := by
  rw [Platform.usable, mem_filter, usable_iff, mem_map]
  refine and_congr_left fun _ => ⟨?_, fun ⟨inFolder, hc⟩ => ⟨_, hc, rfl⟩⟩
  rintro ⟨⟨c, inFolder⟩, hc, rfl⟩
  exact ⟨inFolder, hc⟩

variable {o : Option String}

lemma eq_some_of_orNone (h : orNone o = some x) : o = some x := by
  unfold orNone at h
  split at h
  · split_ifs at h
    exact h
  · cases h

lemma unlessBlank_eq_some {name : String} :
    unlessBlank o = some name ↔ o = some name ∧ NonBlank name.toList := by
  rw [← ecmaTrim_ne_nil_iff]
  unfold unlessBlank
  split
  next name' =>
    split_ifs with hblank
    · refine iff_of_false nofun ?_
      rintro ⟨heq, hne⟩
      exact hne (Option.some.inj heq ▸ hblank)
    · exact ⟨fun h => ⟨h, Option.some.inj h ▸ hblank⟩, And.left⟩
  next => simp

lemma mem_bearers_iff : c ∈ bearers toLowerCase p ref ↔ Denotes toLowerCase p ref c := by
  unfold bearers Denotes
  split
  next hname =>
    have hblank : ∀ name, ref.name = some name → ¬ NonBlank name.toList := fun name href hne => by
      rw [unlessBlank_eq_some.2 ⟨href, hne⟩] at hname
      cases hname
    refine iff_of_false not_mem_nil ?_
    rintro ⟨-, ⟨name, href, hne, -⟩ | ⟨-, name, _, href, hne, -⟩⟩
    all_goals exact hblank name href hne
  next name hname =>
    obtain ⟨href, hne⟩ := unlessBlank_eq_some.1 hname
    have hbears : ∀ c, Bears ref c ↔ c.name = some name := by simp [Bears, href, hne]
    have hloosely : ∀ c, BearsLoosely toLowerCase ref c ↔
        ((unlessBlank c.name).any fun n => normalised toLowerCase n = normalised toLowerCase name) = true := by
      intro c
      simp [BearsLoosely, href, hne, Option.any_eq_true, unlessBlank_eq_some, and_assoc]
      rfl
    simp only [hbears, hloosely, ← mem_usable_iff]
    unfold matchesOf
    dsimp only
    split_ifs with hexact
    · obtain ⟨c', hc'⟩ := exists_mem_of_length_pos hexact
      obtain ⟨hmem, hc'⟩ := mem_filter.1 hc'
      rw [mem_filter, decide_eq_true_eq]
      exact and_congr_right fun _ => (or_iff_left fun h => h.1 c' hmem (of_decide_eq_true hc')).symm
    · have hnone : ∀ c' ∈ p.usable, c'.name ≠ some name := fun c' hc' heq =>
        hexact (length_pos_of_mem (mem_filter.2 ⟨hc', decide_eq_true heq⟩))
      rw [mem_filter]
      exact and_congr_right fun hc => ⟨fun h => .inr ⟨hnone, h⟩, fun h => (h.resolve_left (hnone c hc)).2⟩

lemma key_eq (hc : c.usable = true) (h : c.key = x) : c.id = some x := by
  obtain ⟨id, hid, -⟩ := usable_iff.1 hc
  rw [hid, ← h, Control.key, hid]
  rfl

lemma usable_of_mem_bearers (h : c ∈ bearers toLowerCase p ref) : c.usable = true := by
  unfold bearers at h
  split at h
  · exact absurd h not_mem_nil
  next name _ =>
    have hmem : c ∈ p.usable := by
      unfold matchesOf at h
      dsimp only at h
      split_ifs at h
      all_goals exact (mem_filter.1 h).1
    exact (mem_filter.1 hmem).2

lemma resolveReference_inl (h : resolveReference toLowerCase (p.fetches noFolderOk allOk) ref = .inl x) :
    orNone ref.id = some x ∧ (∃ c ∈ (p.fetches noFolderOk allOk).catalog, c.id = some x) ∨
      allOk = true ∧ ∃ c, bearers toLowerCase p ref = [c] ∧ c.id = some x := by
  unfold resolveReference at h
  split at h
  next id hid =>
    cases h
    obtain ⟨hown, hany⟩ := Option.filter_eq_some_iff.1 hid
    obtain ⟨c, hc, hcid⟩ := any_eq_true.1 hany
    exact .inl ⟨hown, c, (mem_filter.1 hc).1, by simpa using hcid⟩
  next =>
    split at h
    next => cases h
    next name hname hcomplete =>
      obtain rfl := catalogStatus_fetches.1 hcomplete
      split at h
      next c hfound =>
        refine .inr ⟨rfl, c, ?_⟩
        have hperm := matchesOf_perm toLowerCase (catalog_perm p noFolderOk) name
        have hbearers : bearers toLowerCase p ref = [c] := by
          rw [bearers, hname]
          rw [hfound] at hperm
          exact perm_singleton.1 hperm.symm
        refine ⟨hbearers, key_eq (usable_of_mem_bearers (hbearers ▸ mem_singleton_self c)) ?_⟩
        exact Sum.inl.inj h
      next => cases h
    next => cases h

variable {u : UnresolvedControl}

lemma resolveReference_inr
    (h : resolveReference toLowerCase f ref = .inr u) : u.id = orNone ref.id ∧ u.name = unlessBlank ref.name := by
  unfold resolveReference at h
  split at h
  · cases h
  · split at h
    · cases h
      exact ⟨rfl, rfl⟩
    · split at h <;> cases h
      exact ⟨rfl, rfl⟩
    · cases h
      exact ⟨rfl, rfl⟩

lemma resolveReference_ambiguous (noFolderOk : Bool) (h : Ambiguous toLowerCase p ref) :
    ∃ u, resolveReference toLowerCase (p.fetches noFolderOk true) ref = .inr u ∧ u.reason = .ambiguous ∧
      ((u.candidates.getD []).map Candidate.id).Perm ((bearers toLowerCase p ref).map Control.key) := by
  obtain ⟨hid, c, c', hc, hc', hne⟩ := h
  rw [← mem_bearers_iff] at hc hc'
  have hmany : 2 ≤ (bearers toLowerCase p ref).length := by
    have hpair : [c, c'] ⊆ bearers toLowerCase p ref := cons_subset.2 ⟨hc, cons_subset.2 ⟨hc', nil_subset _⟩⟩
    exact ((by simpa using hne : [c, c'].Nodup).subperm hpair).length_le
  have hown : ownId (p.fetches noFolderOk true) ref = none := by
    rw [ownId, Option.filter_eq_none_iff]
    intro id hown hany
    rw [usable_mem_iff] at hany
    obtain ⟨c, hc, hcid⟩ := any_eq_true.1 hany
    exact hid ⟨c, mem_usable_iff.1 hc, (eq_some_of_orNone hown).trans (of_decide_eq_true hcid).symm⟩
  cases hname : unlessBlank ref.name with
  | none =>
    rw [bearers, hname] at hmany
    exact absurd hmany (Nat.not_succ_le_zero 1)
  | some name =>
    have hbearers : bearers toLowerCase p ref = matchesOf toLowerCase p.usable name := by
      rw [bearers, hname]
    have hperm := matchesOf_perm toLowerCase (catalog_perm p noFolderOk) name
    rw [hbearers] at hmany ⊢
    rw [← hperm.length_eq] at hmany
    have hcomplete : (p.fetches noFolderOk true).catalogStatus = .complete := catalogStatus_fetches.2 rfl
    set found := matchesOf toLowerCase ((p.fetches noFolderOk true).catalog.filter Control.usable) name with hfound
    have hresult : resolveReference toLowerCase (p.fetches noFolderOk true) ref =
        .inr (report ref .ambiguous found) := by
      unfold resolveReference
      rw [hown, hname, hcomplete]
      dsimp only
      rw [← hfound]
      match _ : found with
      | [] | [_] => simp at hmany
      | _ :: _ :: _ => rfl
    refine ⟨_, hresult, rfl, ?_⟩
    have hids : ((report ref .ambiguous found).candidates.getD []).map Candidate.id = found.map Control.key := by
      simp [report]
    rw [hids]
    exact hperm.map _

variable {ids : List String}

lemma mem_pushMissing {kept : List String} : x ∈ pushMissing ids kept ↔ x ∈ ids ∨ x ∈ kept := by
  unfold pushMissing
  induction kept generalizing ids with
  | nil => simp
  | cons _ _ ih =>
    rw [foldl_cons, ih, mem_cons]
    split_ifs with hin
    · constructor
      · rintro (hx | hx)
        · exact .inl hx
        · exact .inr (.inr hx)
      · rintro (hx | rfl | hx)
        · exact .inl hx
        · exact .inl hin
        · exact .inr hx
    · rw [mem_append, mem_singleton, or_assoc]

lemma mem_reviewStep :
    x ∈ (reviewStep owner attached s u).1 ↔ x ∈ s.1 ∨ x ∈ keptCandidates attached u := by
  unfold reviewStep
  dsimp only
  split_ifs with hkept
  · exact mem_pushMissing
  · rw [length_eq_zero_iff.1 (Nat.eq_zero_of_not_pos hkept)]
    simp

variable {reports : List UnresolvedControl}

lemma mem_foldl_reviewStep :
    x ∈ (reports.foldl (reviewStep owner attached) s).1 ↔ x ∈ s.1 ∨ ∃ u ∈ reports, x ∈ keptCandidates attached u := by
  induction reports generalizing s with
  | nil => simp
  | cons u reports ih =>
    rw [foldl_cons, ih, mem_reviewStep, or_assoc]
    simp

/-- A catalog that was checked and not found wanting is complete. -/
def Checked (f : Fetches) (st : SyncState) : Prop :=
  st.controlCatalogChecked = true → st.controlCatalogUnavailable = false → f.catalogStatus = .complete

lemma checked_checkCatalog {st : SyncState} (h : Checked f st) :
    Checked f (checkCatalog f st) ∧ (checkCatalog f st).controlCatalogChecked = true := by
  unfold checkCatalog
  split_ifs with hchecked
  · exact ⟨h, hchecked⟩
  · cases hstatus : f.catalogStatus with
    | complete => exact ⟨fun _ _ => hstatus, rfl⟩
    | incomplete | unavailable => exact ⟨(fun _ hfalse => nomatch hfalse), rfl⟩

lemma checked_foldl_reviewStep (h : Checked f s.2) :
    Checked f (reports.foldl (reviewStep owner attached) s).2 := by
  induction reports generalizing s with
  | nil => exact h
  | cons u _ ih =>
    refine ih ?_
    unfold reviewStep
    dsimp only
    split_ifs
    all_goals exact h

lemma checked_resolveControls {st : SyncState} (h : Checked f st) :
    Checked f (resolveControls toLowerCase f controls owner attached st).2 := by
  unfold resolveControls
  split
  · exact h
  · exact h
  · dsimp only
    split_ifs
    · exact (checked_checkCatalog h).1
    · exact checked_foldl_reviewStep (checked_checkCatalog h).1

lemma checked_syncAll (toLowerCase : String → String) (f : Fetches) (writes : List ControlsWrite) :
    Checked f (syncAll toLowerCase f writes) := by
  unfold syncAll
  induction writes using List.reverseRecOn with
  | nil => exact fun hfalse => nomatch hfalse
  | append_singleton writes w ih =>
    rw [foldl_concat]
    exact checked_resolveControls ih

variable {kind : ControlOwnerKind} {existing : List String}

lemma sentControls_some (h : controls ≠ none) :
    sentControls kind controls existing (some ids) = some ids := by
  cases kind <;> simp [sentControls, Option.isSome_iff_ne_none, h]

lemma sentControls_none (h : controls ≠ none) :
    (sentControls kind controls existing none).getD existing = existing := by
  cases kind <;> simp [sentControls, h]

/-- The controls that an update leaves include those that an ambiguous reference could denote. -/
lemma mem_controlsAfter {w : ControlsWrite} (writes : List ControlsWrite) {references : List ControlReference}
    (hw : w.controls = some references) (href : ref ∈ references)
    (hambiguous : Ambiguous toLowerCase p ref) (hc : Denotes toLowerCase p ref c) (hx : c.id = some x)
    (hattached : x ∈ w.attached) :
    x ∈ controlsAfter toLowerCase (p.fetches noFolderOk allOk) w
      (syncAll toLowerCase (p.fetches noFolderOk allOk) writes) := by
  set st := syncAll toLowerCase (p.fetches noFolderOk allOk) writes
  have hchecked := checked_checkCatalog (checked_syncAll toLowerCase (p.fetches noFolderOk allOk) writes)
  have hne : w.controls ≠ none := by
    rw [hw]
    exact Option.some_ne_none _
  unfold controlsAfter
  have hresolve : (resolveControls toLowerCase (p.fetches noFolderOk allOk) w.controls w.owner w.attached st).1 =
      if (checkCatalog (p.fetches noFolderOk allOk) st).controlCatalogUnavailable then none
      else some (((resolve toLowerCase (p.fetches noFolderOk allOk) references).unresolved.foldl
        (reviewStep w.owner w.attached) ((resolve toLowerCase (p.fetches noFolderOk allOk) references).ids,
          checkCatalog (p.fetches noFolderOk allOk) st)).1) := by
    cases references with
    | nil => exact absurd href not_mem_nil
    | cons r references =>
      rw [hw]
      unfold resolveControls
      dsimp only
      split_ifs <;> rfl
  rw [hresolve]
  split_ifs with hunavailable
  · rw [sentControls_none hne]
    exact hattached
  · have hall : allOk = true :=
      catalogStatus_fetches.1 (hchecked.1 hchecked.2 (Bool.eq_false_iff.2 hunavailable))
    subst hall
    obtain ⟨u, hu, hreason, hcandidates⟩ := resolveReference_ambiguous noFolderOk hambiguous
    rw [sentControls_some hne, Option.getD_some, mem_foldl_reviewStep]
    refine .inr ⟨u, ?_, ?_⟩
    · rw [resolve_eq]
      exact mem_filterMap.2 ⟨ref, href, by rw [hu]; rfl⟩
    · rw [keptCandidates, if_pos hreason]
      exact mem_filter.2 ⟨hcandidates.mem_iff.2 (mem_map.2 ⟨c, mem_bearers_iff.2 hc, by simp [Control.key, hx]⟩),
        by simpa using hattached⟩

/-- What the resolution of control references promises. -/
structure Unambiguous (toLowerCase : String → String) (p : Platform) (f : Fetches) : Prop where
  /-- Each reference yields an id or a report, not both. -/
  one : ∀ references, resolve toLowerCase f references =
    ⟨references.filterMap fun ref => (resolveReference toLowerCase f ref).getLeft?,
      references.filterMap fun ref => (resolveReference toLowerCase f ref).getRight?⟩
  /-- A report says which reference it is about. -/
  reported : ∀ ref u, resolveReference toLowerCase f ref = .inr u →
    u.id = orNone ref.id ∧ u.name = unlessBlank ref.name
  /-- An id that is not the reference's own is the one of the only control that the reference can denote by its name,
  in a catalog that was fetched in full. -/
  byName : ∀ ref x, resolveReference toLowerCase f ref = .inl x → ref.id ≠ some x →
    f.catalogStatus = .complete ∧ ∃ c, c.id = some x ∧ ∀ c', Denotes toLowerCase p ref c' ↔ c' = c
  /-- Whatever was written before, an update keeps the attached controls that an ambiguous reference could denote. -/
  kept : ∀ writes w references ref c x, w.controls = some references → ref ∈ references →
    Ambiguous toLowerCase p ref → Denotes toLowerCase p ref c → c.id = some x → x ∈ w.attached →
    x ∈ controlsAfter toLowerCase f w (syncAll toLowerCase f writes)

/-- References resolve unambiguously whichever of the fetches fail. -/
theorem resolution_unambiguous (toLowerCase : String → String) (p : Platform) (noFolderOk allOk : Bool) :
    Unambiguous toLowerCase p (p.fetches noFolderOk allOk) where
  one := resolve_eq toLowerCase _
  reported ref u h := resolveReference_inr h
  byName ref x h hown := by
    obtain ⟨hid, -⟩ | ⟨hall, c, hc, hcid⟩ := resolveReference_inl h
    · exact absurd (eq_some_of_orNone hid) hown
    · refine ⟨catalogStatus_fetches.2 hall, c, hcid, fun c' => ?_⟩
      rw [← mem_bearers_iff, hc, mem_singleton]
  kept writes w references ref c x hw href hambiguous hc hx hattached :=
    mem_controlsAfter writes hw href hambiguous hc hx hattached

/-- Two controls whose names differ in case. -/
def twoControls : Platform where
  controls := [⟨⟨some "c-1", some "Mfa"⟩, false⟩, ⟨⟨some "c-2", some "MFA "⟩, true⟩]
  distinct := by simp

/-- An element keeps its control when the file names it in capital letters. -/
theorem resolution_unambiguous_twoControls : "c-1" ∈ controlsAfter toLower (twoControls.fetches true true)
    ⟨some [⟨none, some "MFA"⟩], ⟨.component, some "web", none⟩, ["c-1"]⟩
    (syncAll toLower (twoControls.fetches true true) []) := by
  have hname : ∀ c, twoControls.Has c → c.id ≠ none ∧ c.name ≠ some "MFA" := by
    rintro c ⟨⟨inFolder, hc⟩, -⟩
    rcases mem_pair.1 hc with h | h
    all_goals
      cases h
      decide
  have hdenotes : ∀ id name, twoControls.Has ⟨some id, some name⟩ → 'M' ∈ name.toList →
      toLower (ofList (ecmaTrim name.toList)) = "mfa" →
        Denotes toLower twoControls ⟨none, some "MFA"⟩ ⟨some id, some name⟩ := by
    refine fun id name hhas hm hlower => ⟨hhas, .inr ⟨?_, "MFA", name, rfl, ⟨'M', by decide⟩, rfl, ⟨'M', hm, rfl⟩, ?_⟩⟩
    · rintro c hc ⟨_, ⟨⟩, -, hc'⟩
      exact (hname c hc).2 hc'
    · rw [hlower]
      decide +kernel
  have hfirst := hdenotes "c-1" "Mfa" ⟨⟨false, .head _⟩, _, rfl, by decide⟩ (by decide) (by decide +kernel)
  have hsecond := hdenotes "c-2" "MFA " ⟨⟨true, .tail _ (.head _)⟩, _, rfl, by decide⟩ (by decide) (by decide +kernel)
  have hambiguous : Ambiguous toLower twoControls ⟨none, some "MFA"⟩ :=
    ⟨fun ⟨c, hc, hid⟩ => (hname c hc).1 hid.symm, _, _, hfirst, hsecond, by decide⟩
  exact (resolution_unambiguous toLower twoControls true true).kept [] _ _ _ _ _ rfl (.head _) hambiguous hfirst
    rfl (.head _)

end ControlReferences
