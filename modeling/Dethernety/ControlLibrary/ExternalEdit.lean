import Dethernety.ControlLibrary.BrownfieldConvergence

/-!
# Recovering from the external-edit guard

Model of `promoteExternalEdit`, the recovery verb for Step A of a brownfield push: it turns the
divergence of one class entry into a recorded edit. The guard compares the two bags in both
directions, but the promotion looks at local keys only, and a baseline value that is `undefined`
does not survive the file. `promote_recovers_iff` says when the recovery does what it is for.
-/

open List Record

namespace ControlLibrary.Brownfield

variable {J : Type*} [DecidableEq J]

/-! ## The promotion -/

/-- What `promoteExternalEdit` throws. -/
inductive PromoteError
  | outOfRange (id : String) (classIdx : ℤ)
  | alreadyPending (id classId : String) (editedBy : PendingEditAuthor) (editedAt : Timestamp)
  | noDivergence (id classId : String)

def authorName : PendingEditAuthor → String
  | .agent => "agent"
  | .operator => "operator"
  | .external => "external"

/-- The text of the error; `iso` writes an instant. -/
def PromoteError.message (iso : Timestamp → String) : PromoteError → String
  | outOfRange id classIdx =>
    "promoteExternalEdit: classIdx " ++ toString classIdx ++ " out of range for " ++ id
  | alreadyPending id classId editedBy editedAt =>
    "promoteExternalEdit: Control " ++ id ++ " class " ++ classId ++ " " ++
      "already has a pendingEdit (editedBy=" ++ authorName editedBy ++ ", " ++
      "editedAt=" ++ iso editedAt ++ "). The Step A guard would not " ++
      "have fired — push directly via /dethereal:sync push instead."
  | noDivergence id classId =>
    "promoteExternalEdit: Control " ++ id ++ " class " ++ classId ++ " has " ++
      "no divergence between attributes and platformAttributes — Step A guard " ++
      "would not have fired and there is nothing to promote."

/-- The local keys whose value differs from the platform's. -/
def divergingKeys (entry : ControlFileClassEntry J) : List String :=
  entry.attributes.keys.filter fun k => entry.attributes.get? k ≠ (liveOf entry).get? k

/-- The baseline of the promoted edit, as it is read back from the file: a key that the platform
does not have is `undefined` and is not written. -/
def promotedBaseline (entry : ControlFileClassEntry J) : Attributes J :=
  (divergingKeys entry).foldl (fun bag k => bag.put k ((liveOf entry).get? k)) ∅

def promotedEdit (now : Timestamp) (entry : ControlFileClassEntry J) : PendingEditBlock J where
  editedBy := .external
  editedAt := now
  previousAttributes := promotedBaseline entry
  firstWriteKeys := none

/-- The entry with its divergence recorded. -/
def promotedEntry (now : Timestamp) (entry : ControlFileClassEntry J) : ControlFileClassEntry J :=
  { entry with localEditedAt := some now, pendingEdit := some (promotedEdit now entry) }

/-- `promoteExternalEdit`: the file on disk afterwards. -/
def promoteExternalEdit (now : Timestamp) (file : ControlFile J) (classIdx : ℤ) :
    Except PromoteError (ControlFile J) :=
  if classIdx < 0 then .error (.outOfRange file.id classIdx)
  else
    match file.classes[classIdx.toNat]? with
    | none => .error (.outOfRange file.id classIdx)
    | some entry =>
      match entry.pendingEdit with
      | some p => .error (.alreadyPending file.id entry.classId p.editedBy p.editedAt)
      | none =>
        if divergingKeys entry = [] then .error (.noDivergence file.id entry.classId)
        else .ok { file with
          classes := file.classes.set classIdx.toNat (promotedEntry now entry) }

/-! ## The promoted entry -/

section

variable {entry : ControlFileClassEntry J} {now : Timestamp} {k : String}

lemma mem_divergingKeys :
    k ∈ divergingKeys entry ↔
      entry.attributes.get? k ≠ none ∧ entry.attributes.get? k ≠ (liveOf entry).get? k := by
  simp [divergingKeys, mem_keys_iff, Option.isSome_iff_ne_none]

lemma get?_promotedBaseline :
    (promotedBaseline entry).get? k =
      if k ∈ divergingKeys entry then (liveOf entry).get? k else none := by
  rw [promotedBaseline, get?_foldl_put, get?_empty]

lemma mem_changedKeys_promotedEdit :
    k ∈ changedKeys (promotedEdit now entry) ↔
      entry.attributes.get? k ≠ none ∧ (liveOf entry).get? k ≠ none ∧
        entry.attributes.get? k ≠ (liveOf entry).get? k := by
  simp only [changedKeys, firstWrites, promotedEdit, Option.getD_none, append_nil,
    mem_keys_iff, get?_promotedBaseline, mem_divergingKeys]
  by_cases hlocal : entry.attributes.get? k = none
  · simp [hlocal]
  · by_cases heq : entry.attributes.get? k = (liveOf entry).get? k
    · simp [heq]
    · simp [hlocal, heq, Option.isSome_iff_ne_none]

lemma allRevertedToPrevious_promotedEdit :
    allRevertedToPrevious entry.attributes (promotedEdit now entry) = false := by
  rw [Bool.eq_false_iff]
  intro hreverted
  simp only [allRevertedToPrevious, Bool.and_eq_true, all_eq_true, decide_eq_true_eq] at hreverted
  obtain ⟨k, hk⟩ := exists_mem_of_ne_nil _ hreverted.2
  obtain ⟨hlocal, -, hne⟩ := mem_changedKeys_promotedEdit.mp hk
  have hprev := hreverted.1 k hk
  rw [show (promotedEdit now entry).previousAttributes = promotedBaseline entry from rfl,
    get?_promotedBaseline, if_pos (mem_divergingKeys.mpr ⟨hlocal, hne⟩)] at hprev
  exact hne hprev

variable {decision : BrownfieldDecision J} {i : ℕ} {a : ControlFileClassEntry J}

variable (hlive : ∀ k, (liveOf a).get? k = (liveOf entry).get? k)

include hlive

lemma not_isConflict_promotedEdit (hk : k ∈ changedKeys (promotedEdit now entry)) :
    ¬ IsConflict a.attributes (liveOf a) (promotedEdit now entry) k := by
  obtain ⟨hlocal, -, hne⟩ := mem_changedKeys_promotedEdit.mp hk
  rintro ⟨-, -, -, hprev⟩
  apply hprev
  rw [show (promotedEdit now entry).previousAttributes = promotedBaseline entry from rfl,
    get?_promotedBaseline, if_pos (mem_divergingKeys.mpr ⟨hlocal, hne⟩), hlive]

lemma conflictKeys_promotedEdit : conflictKeys a (promotedEdit now entry) = [] := by
  rw [eq_nil_iff_forall_not_mem]
  intro k hk
  obtain ⟨hchanged, hconflict⟩ := mem_conflictKeys.mp hk
  exact not_isConflict_promotedEdit hlive hchanged hconflict

lemma classAdmissible_promotedEdit : ClassAdmissible decision i a (promotedEdit now entry) := by
  refine ⟨fun k hk hblocked => ?_, by simp [conflictKeys_promotedEdit hlive]⟩
  have habsent := hblocked.2
  rw [hlive] at habsent
  exact (mem_changedKeys_promotedEdit.mp hk).2.1 habsent

variable (hattr : a.attributes = entry.attributes)

include hattr

lemma resolvedPayload_promotedEdit (k : String) :
    resolvedPayload decision i a (promotedEdit now entry) k =
      if k ∈ changedKeys (promotedEdit now entry) then some (entry.attributes.get? k)
      else none := by
  by_cases hk : k ∈ changedKeys (promotedEdit now entry)
  · obtain ⟨-, hplatform, hne⟩ := mem_changedKeys_promotedEdit.mp hk
    rw [if_pos hk, resolvedPayload_eq_some_iff]
    refine ⟨hk, .inr ⟨by rwa [hlive], by rw [hlive, hattr]; exact hne.symm⟩, .inl ⟨?_, ?_⟩⟩
    · exact not_isConflict_promotedEdit hlive hk
    · rw [hattr]
  · rw [if_neg hk, resolvedPayload, if_neg fun h => hk h.1]

lemma comesToRest_promotedEdit_iff :
    ComesToRest decision i a (promotedEdit now entry) ↔
      ∀ k, k ∈ entry.attributes.keys ↔ k ∈ (liveOf entry).keys := by
  unfold ComesToRest
  rw [conflictKeys_promotedEdit hlive, hattr, allRevertedToPrevious_promotedEdit]
  have haccepted : (acceptedKeys decision i []).length ≤ 1 := Nat.zero_le 1
  simp only [hlive, mem_changedKeys_promotedEdit, mem_keys_iff, Option.isSome_iff_ne_none,
    haccepted, Bool.false_eq_true, false_imp_iff, implies_true, and_true]
  refine forall_congr' fun k => ?_
  -- outside the edit the values agree exactly when neither side alone has the key
  by_cases hlocal : entry.attributes.get? k = none
  · by_cases hplatform : (liveOf entry).get? k = none
    · simp [hlocal, hplatform]
    · simp [hlocal, hplatform, Ne.symm hplatform]
  · by_cases hplatform : (liveOf entry).get? k = none
    all_goals simp [hlocal, hplatform]

end

/-! ## The guard -/

section

variable {env : Environment J} {req : PushRequest J} {file : ControlFile J} {w : World J}

lemma stepC_eq_error {classes : List (ControlFileClassEntry J)} {error : PushError}
    (h : stepC env req file classes = .error error) : ∃ classId keys, error = .blockedKeys file.id classId keys := by
  induction classes with
  | nil => cases h
  | cons e classes ih =>
    rw [stepC, mapM_cons] at h
    cases hc : classifyEntry env req file e with
    | error err =>
      simp only [hc, bind, Except.bind, Except.error.injEq] at h
      subst h
      unfold classifyEntry at hc
      split at hc
      · cases hc
      · cases hc
      · exact ⟨_, _, (Except.error.inj hc).symm⟩
      all_goals cases hc
    | ok c =>
      cases hrest : stepC env req file classes with
      | error err =>
        rw [stepC] at hrest
        simp only [hc, hrest, bind, Except.bind, Except.error.injEq] at h
        subst h
        exact ih (by rw [stepC]; exact hrest)
      | ok rest =>
        rw [stepC] at hrest
        simp [hc, hrest, bind, Except.bind, pure, Except.pure] at h

/-- Step F only complains about mutations. -/
lemma stepF_eq_error {kind : Option AuditKind} {n : ℕ} {slots : List (Slot J (ResolvedPlan J))}
    {answers : List Answer} {platform : Platform J} {error : PushError}
    (h : (stepF env req file kind n slots answers platform).result = .error (some error)) :
    (∃ classId errorMessage, error = .mutationFailed file.id classId errorMessage) ∨
      ∃ message, error = .mutationThrown message := by
  induction slots generalizing n answers platform with
  | nil => cases h
  | cons slot slots ih =>
    cases hplan : slot.plan with
    | none =>
      simp only [stepF, hplan] at h
      cases hrest : (stepF env req file kind (n + 1) slots answers platform).result with
      | ok r => simp [hrest, Except.map] at h
      | error e =>
        simp only [hrest, Except.map, Except.error.injEq] at h
        subst h
        exact ih hrest
    | some plan =>
      simp only [stepF, hplan] at h
      cases hanswer : answers.headD .merged with
      | rejected errorMessage =>
        simp only [hanswer, Except.error.injEq, Option.some.injEq] at h
        exact .inl ⟨_, _, h.symm⟩
      | thrown =>
        simp only [hanswer, Except.error.injEq, Option.some.injEq] at h
        exact .inr ⟨_, h.symm⟩
      | died applied => simp only [hanswer, Except.error.injEq, reduceCtorEq] at h
      | merged =>
        cases hset : platform.setInstantiationAttributes slot.entry.classId plan.outboundPayload with
        | none =>
          simp only [hanswer, hset, Except.error.injEq, Option.some.injEq] at h
          exact .inl ⟨_, _, h.symm⟩
        | some platform' =>
          simp only [hanswer, hset] at h
          cases hrest : (stepF env req file kind (n + 1) slots answers.tail platform').result with
          | ok r => simp [hrest, Except.map] at h
          | error e =>
            simp only [hrest, Except.map, Except.error.injEq] at h
            subst h
            exact ih hrest

lemma externalEdit?_of_planPush {id classId : String}
    (h : planPush env req file = .error (.externalEditDetected id classId)) :
    file.lifecycle = .brownfield ∧ ∃ e, externalEdit? file = some e ∧ e.classId = classId := by
  unfold planPush at h
  by_cases hlife : file.lifecycle = .brownfield
  swap
  · simp [hlife] at h
  cases hshort : shortCircuits file with
  | true => simp [hlife, hshort] at h
  | false =>
    cases hedit : externalEdit? file with
    | some e =>
      simp only [hlife, hshort, hedit, ne_eq, not_true_eq_false, if_false, Bool.false_eq_true,
        Except.error.injEq, PushError.externalEditDetected.injEq] at h
      exact ⟨hlife, e, rfl, h.2⟩
    | none =>
      exfalso
      simp only [hlife, hshort, hedit, ne_eq, not_true_eq_false, if_false, Bool.false_eq_true] at h
      cases hfetch : fetchLive env req with
      | error e =>
        simp only [hfetch, Except.error.injEq] at h
        subst h
        unfold fetchLive at hfetch
        split at hfetch
        · cases hfetch
        · split at hfetch <;> cases hfetch
      | ok r =>
        simp only [hfetch] at h
        cases hC : stepC env req file (file.classes.map (refresh r.1 req.freshPlatformAttrs)) with
        | error e =>
          simp only [hC, Except.error.injEq] at h
          obtain ⟨_, _, rfl⟩ := stepC_eq_error hC
          cases h
        | ok classified =>
          simp only [hC, planResolved] at h
          repeat' split at h
          all_goals cases h

/-- `ExternalEditDetectedError` comes from Step A. -/
lemma externalEdit?_of_threw {id classId : String} (h : (pushBrownfieldControl env req file w).outcome =
      .threw (.externalEditDetected id classId)) :
    file.lifecycle = .brownfield ∧ ∃ e, externalEdit? file = some e ∧ e.classId = classId := by
  cases hplan : planPush env req file with
  | error e =>
    simp only [pushBrownfieldControl, hplan, Outcome.threw.injEq] at h
    subst h
    exact externalEdit?_of_planPush hplan
  | ok plan =>
    exfalso
    cases plan with
    | unchanged => simp [pushBrownfieldControl, hplan] at h
    | persist =>
      cases hdies : env.diesBeforeWrite <;> simp [pushBrownfieldControl, hplan, hdies] at h
    | mutate slots _ kind =>
      cases hresult : (stepF env req file kind 0 slots env.answers w.platform).result with
      | ok result =>
        cases hdies : env.diesBeforeWrite <;>
          simp [pushBrownfieldControl, hplan, hresult, hdies] at h
      | error e =>
        cases e with
        | none => simp [pushBrownfieldControl, hplan, hresult] at h
        | some e =>
          simp only [pushBrownfieldControl, hplan, hresult, Outcome.threw.injEq] at h
          subst h
          rcases stepF_eq_error hresult with ⟨_, _, herror⟩ | ⟨_, herror⟩
          all_goals cases herror

end

/-! ## The recovery -/

variable {env : Environment J} {req : PushRequest J} {file file' : ControlFile J} {w : World J}
  {now : Timestamp} {i : ℕ} {entry : ControlFileClassEntry J}

/-- What the recovery is for: the promotion succeeds, and the push that follows leaves the entry
without drift and the platform with every local value. -/
def Recovers (now : Timestamp) (env : Environment J) (req : PushRequest J) (file : ControlFile J)
    (w : World J) (i : ℕ) (entry : ControlFileClassEntry J) : Prop :=
  ∃ file', promoteExternalEdit now file i = .ok file' ∧
    let r := pushBrownfieldControl env req file' { w with disk := file' }
    ∃ after, r.world.disk.classes[i]? = some after ∧ isClassDrifted after = false ∧
      ∀ k v, entry.attributes.get? k = some v → valueAt r.world.platform entry.classId k = some v

/-- The other entries let the push pass: no drift, no blocked keys, no undecided conflicts. -/
def OthersPass (req : PushRequest J) (file : ControlFile J) (platform : Platform J) (i : ℕ) :
    Prop :=
  ∀ (j : ℕ) e, j ≠ i → file.classes[j]? = some e →
    isClassDrifted e = false ∧
      ∀ p, e.pendingEdit = some p → allRevertedToPrevious e.attributes p = false →
        ClassAdmissible req.decision j (refresh platform req.freshPlatformAttrs e) p

/-- The file after the promotion. -/
def promotedFile (now : Timestamp) (file : ControlFile J) (i : ℕ)
    (entry : ControlFileClassEntry J) : ControlFile J :=
  { file with classes := file.classes.set i (promotedEntry now entry) }

lemma promoteExternalEdit_eq_ok_iff (hi : file.classes[i]? = some entry) (hpending : entry.pendingEdit = none) :
    promoteExternalEdit now file i = .ok file' ↔ divergingKeys entry ≠ [] ∧ file' = promotedFile now file i entry := by
  unfold promoteExternalEdit promotedFile
  have hnonneg : ¬ ((i : ℤ) < 0) := by omega
  simp only [hnonneg, if_false, Int.toNat_natCast, hi, hpending]
  by_cases hnone : divergingKeys entry = []
  · simp [hnone]
  · simp [hnone, eq_comm]

lemma getElem?_promotedFile_self (hi : file.classes[i]? = some entry) :
    (promotedFile now file i entry).classes[i]? = some (promotedEntry now entry) := by
  have hlt := (List.getElem?_eq_some_iff.mp hi).1
  simp [promotedFile, hlt]

lemma getElem?_promotedFile_ne {j : ℕ} (hj : j ≠ i) :
    (promotedFile now file i entry).classes[j]? = file.classes[j]? := by
  simp [promotedFile, Ne.symm hj]

lemma oneEntryPerClass_promotedFile (hi : file.classes[i]? = some entry)
    (hone : file.OneEntryPerClass) : (promotedFile now file i entry).OneEntryPerClass := by
  have hids : (promotedFile now file i entry).classes.map ControlFileClassEntry.classId =
      file.classes.map ControlFileClassEntry.classId := by
    apply ext_getElem?
    intro j
    by_cases hj : j = i
    · subst hj
      rw [getElem?_map, getElem?_map, getElem?_promotedFile_self hi, hi]
      rfl
    · rw [getElem?_map, getElem?_map, getElem?_promotedFile_ne hj]
  unfold ControlFile.OneEntryPerClass
  rw [hids]
  exact hone

variable (hi : file.classes[i]? = some entry)
  (hserver : ∃ bag, w.platform.get? entry.classId = some bag ∧ bag.SameEntries (liveOf entry))

include hserver in
lemma get?_liveOf_refresh_promotedEntry (k : String) :
    (liveOf (refresh w.platform req.freshPlatformAttrs (promotedEntry now entry))).get? k = (liveOf entry).get? k := by
  obtain ⟨bag, hbag, hsame⟩ := hserver
  have hedit : (promotedEntry now entry).pendingEdit = some (promotedEdit now entry) := rfl
  rw [liveOf_refresh hedit, freshAttributes,
    show (promotedEntry now entry).classId = entry.classId from rfl, hbag]
  exact hsame k

include hi hserver in
lemma takesEffect_promotedFile_iff (hlife : file.lifecycle = .brownfield) (halone : isAlone req = true) :
    TakesEffect req (promotedFile now file i entry) w.platform ↔ OthersPass req file w.platform i := by
  constructor
  · intro h j e hj hje
    have hsame : (promotedFile now file i entry).classes[j]? = file.classes[j]? :=
      getElem?_promotedFile_ne hj
    rw [← hsame] at hje
    exact ⟨externalEdit?_eq_none_iff.mp h.admissible.no_externalEdit e (mem_of_getElem? hje),
      fun p hp hr => h.admissible.classes j e p hje hp hr⟩
  · intro hothers
    refine ⟨⟨hlife, ?_, ?_⟩, ?_, fun _ => ⟨none, by simp [stepE, halone]⟩⟩
    · rw [externalEdit?_eq_none_iff]
      intro e he
      obtain ⟨j, hj⟩ := mem_iff_getElem?.mp he
      by_cases hji : j = i
      · subst hji
        rw [getElem?_promotedFile_self hi] at hj
        cases hj
        exact isClassDrifted_of_pendingEdit rfl
      · rw [getElem?_promotedFile_ne hji] at hj
        exact (hothers j e hji hj).1
    · intro j e p hj hp hr
      by_cases hji : j = i
      · subst hji
        rw [getElem?_promotedFile_self hi] at hj
        cases hj
        cases hp
        exact classAdmissible_promotedEdit (get?_liveOf_refresh_promotedEntry hserver)
      · rw [getElem?_promotedFile_ne hji] at hj
        exact (hothers j e hji hj).2 p hp hr
    · rw [Bool.eq_false_iff]
      intro hshort
      have hpending := (shortCircuits_iff.mp hshort _
        (mem_of_getElem? (getElem?_promotedFile_self hi))).1
      cases hpending

include hi hserver in
/-- What a push of the promoted file leaves of the entry, on disk and on the platform. -/
lemma exists_after_of_wrote (hone : file.OneEntryPerClass) (henv : env.Undisturbed w.platform)
    (hwrote : (pushBrownfieldControl env req (promotedFile now file i entry) w).wrote = true) :
    ∃ after, (pushBrownfieldControl env req (promotedFile now file i entry)
        w).world.disk.classes[i]? = some after ∧
      (isClassDrifted after = false ↔ ∀ k, k ∈ entry.attributes.keys ↔ k ∈ (liveOf entry).keys) ∧
      ∀ k, valueAt (pushBrownfieldControl env req (promotedFile now file i entry)
          w).world.platform entry.classId k =
        if k ∈ changedKeys (promotedEdit now entry) then
          stored ((liveOf entry).get? k) (entry.attributes.get? k)
        else (liveOf entry).get? k := by
  have hi' : (promotedFile now file i entry).classes[i]? = some (promotedEntry now entry) :=
    getElem?_promotedFile_self hi
  have hlive : ∀ k, (liveOf (refresh w.platform req.freshPlatformAttrs
      (promotedEntry now entry))).get? k = (liveOf entry).get? k :=
    get?_liveOf_refresh_promotedEntry hserver
  have hattr : (refresh w.platform req.freshPlatformAttrs (promotedEntry now entry)).attributes =
      entry.attributes := refresh_attributes
  have hedit : (refresh w.platform req.freshPlatformAttrs (promotedEntry now entry)).pendingEdit =
      some (promotedEdit now entry) := refresh_pendingEdit
  obtain ⟨live, stale, classified, slots, hdone⟩ := exists_completed_of_wrote hwrote
  obtain ⟨slot, hslot, -⟩ := hdone.reached.slotCase hi'
  have hcase := hdone.reached.slotCase_of_shows (henv.shows req) hi' hslot
  refine ⟨finishSlot env slot, by simp [hdone.classes_eq, hslot], ?_, fun k => ?_⟩
  · rw [hcase.isClassDrifted_iff hedit (platformAttributes_refresh rfl _ _),
      comesToRest_promotedEdit_iff hlive hattr]
  · have hout := hcase.resolvedOutcome hedit (by rw [hattr]; exact allRevertedToPrevious_promotedEdit)
    have hget := hdone.reached.get?_applyCalls_plannedCalls
      (oneEntryPerClass_promotedFile hi hone) hi' hslot w.platform k
    rw [← hdone.platform_eq, hout.sentFor_eq, resolvedPayload_promotedEdit hlive hattr] at hget
    obtain ⟨bag, hbag, hsame⟩ := hserver
    rw [show (promotedEntry now entry).classId = entry.classId from rfl, hbag, Option.map_some,
      hsame k] at hget
    obtain ⟨bag', hbag', hk⟩ := Option.map_eq_some_iff.mp hget
    rw [valueAt, hbag', Option.bind_some, hk]
    by_cases hchanged : k ∈ changedKeys (promotedEdit now entry)
    · simp [hchanged]
    · simp [hchanged, stored]

/-- The recovery verb does what it is for exactly when the two bags have the same keys, no diverging
value is `null`, and no other entry stops the push. -/
theorem promote_recovers_iff {env₁ : Environment J} {req₁ : PushRequest J} {w₁ : World J}
    (hone : file.OneEntryPerClass) (hi : file.classes[i]? = some entry)
    (hthrow : (pushBrownfieldControl env₁ req₁ file w₁).outcome =
      .threw (.externalEditDetected file.id entry.classId))
    (hserver : ∃ bag, w.platform.get? entry.classId = some bag ∧ bag.SameEntries (liveOf entry))
    (henv : env.Undisturbed w.platform) (halone : isAlone req = true)
    (hok : ∀ file', promoteExternalEdit now file i = .ok file' →
      (pushBrownfieldControl env req file' { w with disk := file' }).calls ≠ [] →
        (pushBrownfieldControl env req file' { w with disk := file' }).wrote = true) :
    Recovers now env req file w i entry ↔
      (∀ k, k ∈ entry.attributes.keys ↔ k ∈ (liveOf entry).keys) ∧
      (∀ k, entry.attributes.get? k ≠ (liveOf entry).get? k →
        entry.attributes.get? k ≠ some .null) ∧
      OthersPass req file w.platform i := by
  obtain ⟨hlife, e, hguard, hid⟩ := externalEdit?_of_threw hthrow
  -- the entry is the one that Step A has found
  obtain rfl : e = entry := by
    obtain ⟨j, hj⟩ := mem_iff_getElem?.mp (mem_of_find?_eq_some hguard)
    obtain rfl := hone.eq_of_classId_eq hj hi hid
    exact Option.some.inj (hj.symm.trans hi)
  have hdrifted : isClassDrifted e = true := find?_some hguard
  obtain ⟨hpending, P, hP, hdiverges⟩ := isClassDrifted_iff.mp hdrifted
  have hlocal : ∀ k, k ∈ divergingKeys e → ∃ v, e.attributes.get? k = some v ∧
      (liveOf e).get? k ≠ some v := by
    intro k hk
    obtain ⟨hsome, hne⟩ := mem_divergingKeys.mp hk
    obtain ⟨v, hv⟩ := Option.ne_none_iff_exists'.mp hsome
    exact ⟨v, hv, fun h => hne (hv.trans h.symm)⟩
  -- the push starts from the promoted file on disk
  let w' : World J := { w with disk := promotedFile now file i e }
  have hserver' : ∃ bag, w'.platform.get? e.classId = some bag ∧ bag.SameEntries (liveOf e) :=
    hserver
  have henv' : env.Undisturbed w'.platform := henv
  constructor
  · rintro ⟨file', hpromote, after, hafter, hrest, hvalues⟩
    obtain ⟨hkeys, rfl⟩ := (promoteExternalEdit_eq_ok_iff hi hpending).mp hpromote
    obtain ⟨k, hk⟩ := exists_mem_of_ne_nil _ hkeys
    obtain ⟨v, hv, hne⟩ := hlocal k hk
    cases hwrote : (pushBrownfieldControl env req (promotedFile now file i e)
        { w with disk := promotedFile now file i e }).wrote with
    | false =>
      -- nothing was sent, and the platform has its old value of a diverging key
      have hcalls : (pushBrownfieldControl env req (promotedFile now file i e)
          { w with disk := promotedFile now file i e }).calls = [] := by
        by_contra hcalls
        rw [hok _ hpromote hcalls] at hwrote
        cases hwrote
      have hvalue := hvalues k v hv
      rw [world_eq_of_no_effect hcalls hwrote, valueAt] at hvalue
      obtain ⟨bag, hbag, hsame⟩ := hserver
      rw [hbag, Option.bind_some, hsame k] at hvalue
      exact absurd hvalue hne
    | true =>
      obtain ⟨after', hafter', hrest_iff, hvalue⟩ :=
        exists_after_of_wrote hi hserver' hone henv' hwrote
      cases hafter.symm.trans hafter'
      have hsame := hrest_iff.mp hrest
      refine ⟨hsame, ?_, ?_⟩
      · -- a `null` removes the key from the platform
        intro k hne hnull
        have hplatform : (liveOf e).get? k ≠ none := by
          rw [← Option.isSome_iff_ne_none, ← mem_keys_iff, ← hsame, mem_keys_iff, hnull]
          rfl
        have hk := hvalues k .null hnull
        rw [hvalue k, if_pos (mem_changedKeys_promotedEdit.mpr
          ⟨by simp [hnull], hplatform, hne⟩), hnull] at hk
        cases hk
      · exact (takesEffect_promotedFile_iff hi hserver' hlife halone).mp
          (takesEffect_of_effect (henv'.shows req) (.inr hwrote))
  · rintro ⟨hsame, hnull, hothers⟩
    have hdefined : ∀ k, e.attributes.get? k = none ↔ (liveOf e).get? k = none := by
      intro k
      rw [← notMem_keys_iff, ← notMem_keys_iff, hsame]
    have hkeys : divergingKeys e ≠ [] := by
      intro hnil
      refine hdiverges fun k => ?_
      by_contra hne
      have hlive : liveOf e = P := by simp [liveOf, hP]
      rw [← hlive] at hne
      have hsome : e.attributes.get? k ≠ none := fun hnone =>
        hne (hnone.trans ((hdefined k).mp hnone).symm)
      have hmem := mem_divergingKeys.mpr ⟨hsome, hne⟩
      rw [hnil] at hmem
      cases hmem
    have hpromote : promoteExternalEdit now file i = .ok (promotedFile now file i e) :=
      (promoteExternalEdit_eq_ok_iff hi hpending).mpr ⟨hkeys, rfl⟩
    have heffect : TakesEffect req (promotedFile now file i e) w'.platform :=
      (takesEffect_promotedFile_iff hi hserver' hlife halone).mpr hothers
    have hwrote : (pushBrownfieldControl env req (promotedFile now file i e) w').wrote = true :=
      (heffect.effect henv').elim (hok _ hpromote) id
    obtain ⟨after, hafter, hrest_iff, hvalue⟩ :=
      exists_after_of_wrote hi hserver' hone henv' hwrote
    refine ⟨_, hpromote, after, hafter, hrest_iff.mpr hsame, fun k v hv => ?_⟩
    rw [hvalue k]
    by_cases hchanged : k ∈ changedKeys (promotedEdit now e)
    · have hne := hnull k (mem_changedKeys_promotedEdit.mp hchanged).2.2
      rw [if_pos hchanged, hv]
      cases v with
      | null => exact absurd hv hne
      | value x => rfl
    · rw [if_neg hchanged, ← hv]
      by_contra hne
      have hsome : e.attributes.get? k ≠ none := by simp [hv]
      exact hchanged (mem_changedKeys_promotedEdit.mpr
        ⟨hsome, fun hnone => hsome ((hdefined k).mpr hnone), Ne.symm hne⟩)

/-- A class entry that was edited in the file, without a record. -/
def driftedEntry (attributes platform : List (String × ℕ)) : ControlFileClassEntry ℕ :=
  { editedEntry "class" attributes platform [] with pendingEdit := none, localEditedAt := none }

/-- One local value was changed by hand. -/
theorem promote_recovers_one_value :
    let entry := driftedEntry [("a", 2), ("b", 5)] [("a", 1), ("b", 5)]
    let platform := platformOf [("class", [("a", 1), ("b", 5)])]
    Recovers 7 (environment platform []) (request .cancel [] []) (brownfieldFile [entry])
      ⟨platform, brownfieldFile [entry], []⟩ 0 entry := by
  intro entry platform
  have hthrow : (pushBrownfieldControl (environment platform []) (request .cancel [] [])
      (brownfieldFile [entry]) ⟨platform, brownfieldFile [entry], []⟩).outcome =
        .threw (.externalEditDetected "control" "class") := by decide +kernel
  have hone : (brownfieldFile [entry]).OneEntryPerClass := by
    unfold ControlFile.OneEntryPerClass
    decide
  have hpromote : ∀ file', promoteExternalEdit 7 (brownfieldFile [entry]) 0 = .ok file' →
      (pushBrownfieldControl (environment platform []) (request .cancel [] []) file'
        ⟨platform, file', []⟩).wrote = true := by
    intro file' h
    obtain ⟨-, rfl⟩ := (promoteExternalEdit_eq_ok_iff (i := 0) rfl rfl).mp h
    decide +kernel
  refine (promote_recovers_iff hone rfl hthrow ⟨numbers [("a", 1), ("b", 5)], ?_, fun _ => rfl⟩
    ⟨rfl, by simp [environment], rfl⟩ rfl fun file' h _ => hpromote file' h).mpr ⟨?_, ?_, ?_⟩
  · decide +kernel
  · intro k
    exact Iff.rfl
  · intro k _
    have hget : entry.attributes.get? k =
        Record.lookup k [("a", JsonValue.value 2), ("b", JsonValue.value 5)] := rfl
    rw [hget]
    unfold Record.lookup Record.lookup Record.lookup
    split
    · simp
    · split <;> simp
  · intro j e hj he
    cases j with
    | zero => exact absurd rfl hj
    | succ j => simp [brownfieldFile] at he

/-- A key was added by hand: the promotion forgets it, and the entry has drifted again after the
push. -/
theorem promoted_key_lost :
    let entry := driftedEntry [("a", 2), ("b", 5)] [("a", 1)]
    let platform := platformOf [("class", [("a", 1)])]
    let file := brownfieldFile [entry]
    (pushBrownfieldControl (environment platform []) (request .cancel [] []) file
        ⟨platform, file, []⟩).outcome = .threw (.externalEditDetected "control" "class") ∧
      ¬ Recovers 7 (environment platform []) (request .cancel [] []) file ⟨platform, file, []⟩ 0
        entry := by
  intro entry platform file
  refine ⟨by decide +kernel, ?_⟩
  rintro ⟨file', hpromote, after, hafter, hrest, -⟩
  obtain ⟨-, rfl⟩ := (promoteExternalEdit_eq_ok_iff (i := 0) rfl rfl).mp hpromote
  have hdrifted : ((pushBrownfieldControl (environment platform []) (request .cancel [] [])
      (promotedFile 7 file 0 entry)
      ⟨platform, promotedFile 7 file 0 entry, []⟩).world.disk.classes[0]?.map isClassDrifted) =
        some true := by decide +kernel
  rw [hafter, Option.map_some, hrest] at hdrifted
  cases hdrifted

end ControlLibrary.Brownfield
