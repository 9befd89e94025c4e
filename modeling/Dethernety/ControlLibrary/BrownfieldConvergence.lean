import Dethernety.ControlLibrary.BrownfieldRetry

/-!
# Atomicity and convergence

A failed push leaves the file and the audit log alone, and a retry ends where a push without
failures would have ended, exactly when no key of the pushed classes is unsafe to send twice.
-/

open List Option

namespace ControlLibrary.Brownfield

variable {J : Type*} [DecidableEq J]

variable {env env₀ env' : Environment J} {req : PushRequest J} {file : ControlFile J} {w : World J}

/-! ## Atomicity -/

lemma world_eq_of_no_effect (hcalls : (pushBrownfieldControl env req file w).calls = [])
    (hwrote : (pushBrownfieldControl env req file w).wrote = false) :
    (pushBrownfieldControl env req file w).world = w := by
  have hcase := push_cases env req file w
  cases hcase with
  | noEffect world_eq => exact world_eq
  | settled _ _ _ wrote_eq =>
    rw [hwrote] at wrote_eq
    cases wrote_eq
  | failed _ _ _ applied_initial _ world_eq =>
    rw [hcalls] at applied_initial
    rw [world_eq, prefix_nil.mp applied_initial]
    rfl
  | mutated _ _ _ _ wrote_eq =>
    rw [hwrote] at wrote_eq
    cases wrote_eq

lemma halfUpdated_of_not_wrote (hshows : env.Shows req w.platform)
    (hone : file.OneEntryPerClass) (h : (pushBrownfieldControl env req file w).wrote = false) :
    HalfUpdated req file w.platform (pushBrownfieldControl env req file w).world.platform := by
  have hcase := push_cases env req file w
  cases hcase with
  | noEffect world_eq =>
    rw [world_eq]
    exact HalfUpdated.refl req file w.platform
  | settled _ _ _ wrote_eq =>
    rw [h] at wrote_eq
    cases wrote_eq
  | failed reached _ calls_initial applied_initial _ world_eq =>
    rw [world_eq]
    exact reached.halfUpdated hshows hone (applied_initial.trans calls_initial)
  | mutated _ _ _ _ wrote_eq =>
    rw [h] at wrote_eq
    cases wrote_eq

/-! ## Convergence -/

omit [DecidableEq J] in
lemma SamePlatform.refl (p : Platform J) : SamePlatform p p :=
  fun _ _ => rfl

omit [DecidableEq J] in
lemma SameFile.refl (f : ControlFile J) : SameFile f f :=
  ⟨rfl, rfl, rfl, rfl, forall₂_same.mpr fun e _ => SameEntry.refl e, rfl⟩

/-- What is promised of a push with failures in the environment `env`: file and log stay as they
are, and a retry in which nothing fails ends like the push `r₀` in which nothing failed. -/
def RetryConverges (env : Environment J) (req : PushRequest J) (w : World J) (r₀ : Push J) :
    Prop :=
  (pushBrownfieldControl env req w.disk w).world.disk = w.disk ∧
  (pushBrownfieldControl env req w.disk w).world.audit = w.audit ∧
  ∀ env' : Environment J, env'.Undisturbed (pushBrownfieldControl env req w.disk w).world.platform →
    SamePlatform
      (pushBrownfieldControl env' req (pushBrownfieldControl env req w.disk w).world.disk
        (pushBrownfieldControl env req w.disk w).world).world.platform r₀.world.platform ∧
    SameFile
      (pushBrownfieldControl env' req (pushBrownfieldControl env req w.disk w).world.disk
        (pushBrownfieldControl env req w.disk w).world).world.disk r₀.world.disk

lemma allRetrySafe_of_not_pushSends (h : ¬ PushSends req file w.platform) : AllRetrySafe req file w.platform := by
  intro i entry p hi hp hr k hk _
  rw [retrySafe_iff hk]
  intro v hv
  refine absurd ⟨i, entry, hi, p, k, ?_, ?_, ?_⟩ h
  · simpa using hp
  · simpa using hr
  · simp [hv]

/-- A failed push and its retry, when all keys may be sent twice. -/
lemma retryConverges (hone : w.disk.OneEntryPerClass) (henv₀ : env₀.Undisturbed w.platform)
    (hok : (pushBrownfieldControl env₀ req w.disk w).calls ≠ [] →
      (pushBrownfieldControl env₀ req w.disk w).wrote = true)
    (hsafe : Admissible req w.disk w.platform → (∃ kind, stepE req = .proceed kind) →
      AllRetrySafe req w.disk w.platform) (hshows : env.Shows req w.platform)
    (hfailed : (pushBrownfieldControl env req w.disk w).wrote = false) :
    RetryConverges env req w (pushBrownfieldControl env₀ req w.disk w) := by
  obtain ⟨hdisk, haudit⟩ := unchanged_of_not_wrote hfailed
  refine ⟨hdisk, haudit, fun env' henv' => ?_⟩
  rw [hdisk]
  cases hwrote : (pushBrownfieldControl env₀ req w.disk w).wrote with
  | true =>
    have heffect := takesEffect_of_effect (henv₀.shows req) (.inr hwrote)
    have hsafe' : AllRetrySafe req w.disk w.platform := by
      by_cases hsends : PushSends req w.disk w.platform
      · exact hsafe heffect.admissible (heffect.proceeds hsends)
      · exact allRetrySafe_of_not_pushSends hsends
    have hhalf := halfUpdated_of_not_wrote hshows hone hfailed
    exact ⟨hhalf.samePlatform hone henv₀ henv' hsafe' hwrote,
      hhalf.sameFile henv₀ henv' hsafe' hwrote⟩
  | false =>
    -- the push without failures has no effect; then neither have the failed push and its retry
    have hcalls : (pushBrownfieldControl env₀ req w.disk w).calls = [] := by
      by_contra hne
      rw [hok hne] at hwrote
      cases hwrote
    have hno : ¬ TakesEffect req w.disk w.platform := by
      intro heffect
      rcases heffect.effect henv₀ with hne | hw
      · exact hne hcalls
      · cases hwrote.symm.trans hw
    have hidle : ∀ env : Environment J, env.Shows req w.platform →
        (pushBrownfieldControl env req w.disk w).world = w := by
      intro env hshows
      refine world_eq_of_no_effect ?_ ?_
      · by_contra hne
        exact hno (takesEffect_of_effect hshows (.inl hne))
      · exact Bool.eq_false_iff.mpr fun hw =>
          hno (takesEffect_of_effect hshows (.inr hw))
    rw [hidle env hshows] at henv' ⊢
    rw [hidle env' (henv'.shows req), hidle env₀ (henv₀.shows req)]
    exact ⟨SamePlatform.refl _, SameFile.refl _⟩

/-! ## Keys that are not safe to send twice -/

section

variable {live : Record String (Attributes J)} {stale : Bool} {classified : List (Classified J)}
  {slots : List (Slot J (ResolvedPlan J))} {i : ℕ} {entry : ControlFileClassEntry J}
  {p : PendingEditBlock J} {k : String} {v : Option (JsonValue J)}

/-- The environment in which the process dies after the last mutation. -/
def dying (env : Environment J) : Environment J :=
  { env with diesBeforeWrite := true }

lemma Reached.dying (h : Reached env req file live stale classified slots) :
    Reached (dying env) req file live stale classified slots :=
  ⟨h.brownfield, h.not_shortCircuits, h.no_externalEdit, h.fetched, h.stepC_eq, h.stepD_eq⟩

/-- A push that has done everything but write the file. -/
lemma Reached.world_of_dies (h : Reached env req file live stale classified slots)
    (hproceeds : plannedCalls 0 slots ≠ [] → ∃ kind, stepE req = .proceed kind)
    (hanswers : ∀ a ∈ env.answers, a = .merged) (hdies : env.diesBeforeWrite = true)
    (hedges : ∀ call ∈ plannedCalls 0 slots, (w.platform.get? call.classId).isSome) :
    (pushBrownfieldControl env req file w).wrote = false ∧ (pushBrownfieldControl env req file w).world.platform =
        applyCalls (plannedCalls 0 slots) w.platform := by
  have hplan := planPush_of_reached h
  by_cases hnil : plannedCalls 0 slots = []
  · rw [if_pos (all_plan_isNone_iff.mpr hnil)] at hplan
    rw [hnil]
    simp [pushBrownfieldControl, hplan, hdies, applyCalls]
  · obtain ⟨kind, hkind⟩ := hproceeds hnil
    rw [if_neg (mt all_plan_isNone_iff.mp hnil), hkind] at hplan
    have hresult : (stepF env req file kind 0 slots env.answers w.platform).result =
        .ok (slots.map (finishSlot env), mutationAudits env req file kind slots) :=
      stepF_eq_ok hanswers hedges
    obtain ⟨-, applied, -, hplatform, hdone⟩ :=
      stepF_spec env req file kind 0 slots env.answers w.platform
    rw [(hdone _ hresult).1] at hplatform
    simp [pushBrownfieldControl, hplan, hresult, hdies, hplatform]

/-- A key that is not safe to send twice, after the platform has merged it: the retry is blocked,
or it sends our value over the merged one. -/
lemma retry_of_unsafe {a b : ControlFileClassEntry J} {decision : BrownfieldDecision J}
    (hattr : b.attributes = a.attributes) (hk : k ∈ changedKeys p) (hfw : k ∉ firstWrites p)
    (hsent : resolvedPayload decision i a p k = some v) (hlive : (liveOf b).get? k = stored ((liveOf a).get? k) v)
    (hnotsafe : ¬ (v ≠ some .null ∧ (v = p.previousAttributes.get? k →
      v = a.attributes.get? k ∨ a.attributes.get? k = none))) :
    IsBlocked (liveOf b) p k ∨
      ∃ v', resolvedPayload decision i b p k = some v' ∧
        stored ((liveOf b).get? k) v' ≠ stored ((liveOf a).get? k) v := by
  by_cases hnull : v = some .null
  · left
    refine ⟨hfw, ?_⟩
    rw [hlive, hnull]
    rfl
  · right
    obtain ⟨hprev, hours, hdefined⟩ : v = p.previousAttributes.get? k ∧
        v ≠ a.attributes.get? k ∧ a.attributes.get? k ≠ none := by
      simp only [hnull, ne_eq, not_false_eq_true, true_and, Classical.not_imp, not_or] at hnotsafe
      exact hnotsafe
    -- the merged value is the one from before the edit, so it is there
    obtain ⟨x, rfl⟩ : ∃ x, v = some (.value x) := by
      have hmem := (mem_append.mp hk).resolve_right hfw
      rw [Record.mem_keys_iff, ← hprev] at hmem
      obtain ⟨y, rfl⟩ := isSome_iff_exists.mp hmem
      cases y with
      | null => exact absurd rfl hnull
      | value x => exact ⟨x, rfl⟩
    have hlive : (liveOf b).get? k = some (.value x) := hlive
    refine ⟨a.attributes.get? k, ?_, ?_⟩
    · rw [resolvedPayload_eq_some_iff]
      refine ⟨hk, .inr ⟨by simp [hlive], by rw [hlive, hattr]; exact hours⟩, .inl ⟨?_, ?_⟩⟩
      · simp [IsConflict, hlive, hprev]
      · rw [hattr]
    · rw [hlive]
      obtain ⟨y, hy⟩ := ne_none_iff_exists'.mp hdefined
      rw [hy] at hours ⊢
      cases y with
      | null => simp [stored]
      | value y => exact fun h => hours h.symm

/-- The bag of a pushed class after all mutations, for a key that was sent. -/
lemma Completed.get?_liveOf_refresh {r : Push J} (hdone : Completed env req file w r live stale classified slots)
    (hshows : env.Shows req w.platform) (hone : file.OneEntryPerClass)
    (hedges : ∀ call ∈ plannedCalls 0 slots, (w.platform.get? call.classId).isSome)
    (hi : file.classes[i]? = some entry) (hp : entry.pendingEdit = some p)
    (hr : allRevertedToPrevious entry.attributes p = false)
    (hsent : resolvedPayload req.decision i (refresh w.platform req.freshPlatformAttrs entry) p k = some v) :
    (liveOf (refresh (applyCalls (plannedCalls 0 slots) w.platform) req.freshPlatformAttrs entry)).get? k =
      stored ((liveOf (refresh w.platform req.freshPlatformAttrs entry)).get? k) v := by
  obtain ⟨slot, hslot, -⟩ := hdone.reached.slotCase hi
  have hcase := hdone.reached.slotCase_of_shows hshows hi hslot
  have hout := hcase.resolvedOutcome (by simpa using hp) (by simpa using hr)
  obtain ⟨bag, hbag⟩ := hdone.reached.exists_bag hshows hedges hi
    ⟨p, k, by simpa using hp, by simpa using hr, by simp [hsent]⟩
  have hget := hdone.reached.get?_applyCalls_plannedCalls hone hi hslot w.platform k
  rw [hbag, hout.sentFor_eq, hsent] at hget
  obtain ⟨bag', hbag', hk⟩ := map_eq_some_iff.mp hget
  rw [liveOf_refresh hp, liveOf_refresh hp]
  simp only [freshAttributes, hbag, hbag', some_or, getD_some]
  exact hk

lemma Completed.not_sameFile {r : Push J} (hdone : Completed env req file w r live stale classified slots)
    (hi : file.classes[i]? = some entry) (hp : entry.pendingEdit = some p) : ¬ SameFile file r.world.disk := by
  intro hfile
  obtain ⟨slot, hslot, hcase⟩ := hdone.reached.slotCase hi
  have hentry' : r.world.disk.classes[i]? = some (finishSlot env slot) := by
    simp [hdone.classes_eq, hslot]
  obtain ⟨hlt, hget⟩ := List.getElem?_eq_some_iff.mp hi
  obtain ⟨hlt', hget'⟩ := List.getElem?_eq_some_iff.mp hentry'
  have hsame := ((List.forall₂_iff_get.mp hfile.classes).2 i hlt hlt').pendingEdit_eq
  rw [List.get_eq_getElem, List.get_eq_getElem, hget, hget', hcase.pendingEdit_eq, hp] at hsame
  cases hsame

/-- If everything was sent, but one key is not safe to send twice, the retry ends elsewhere. -/
lemma Completed.retry_differs {r : Push J} {w' : World J}
    (hdone : Completed env req file w r live stale classified slots)
    (hshows : env.Shows req w.platform) (hone : file.OneEntryPerClass)
    (hedges : ∀ call ∈ plannedCalls 0 slots, (w.platform.get? call.classId).isSome)
    (hplatform : w'.platform = applyCalls (plannedCalls 0 slots) w.platform)
    (hdisk : w'.disk = file) (henv' : env'.Undisturbed w'.platform)
    (hi : file.classes[i]? = some entry) (hp : entry.pendingEdit = some p)
    (hr : allRevertedToPrevious entry.attributes p = false) (hk : k ∈ changedKeys p) (hfw : k ∉ firstWrites p)
    (hsent : resolvedPayload req.decision i (refresh w.platform req.freshPlatformAttrs entry) p k = some v)
    (hnotsafe : ¬ (v ≠ some .null ∧ (v = p.previousAttributes.get? k →
      v = entry.attributes.get? k ∨ entry.attributes.get? k = none))) :
    ¬ (SamePlatform (pushBrownfieldControl env' req file w').world.platform r.world.platform ∧
      SameFile (pushBrownfieldControl env' req file w').world.disk r.world.disk) := by
  rintro ⟨hbags, hfile⟩
  cases hwrote' : (pushBrownfieldControl env' req file w').wrote with
  | false =>
    rw [(unchanged_of_not_wrote hwrote').1, hdisk] at hfile
    exact hdone.not_sameFile hi hp hfile
  | true =>
    obtain ⟨live', stale', classified', slots', hdone'⟩ := exists_completed_of_wrote hwrote'
    obtain ⟨slot, hslot, -⟩ := hdone.reached.slotCase hi
    obtain ⟨slot', hslot', -⟩ := hdone'.reached.slotCase hi
    have hout := (hdone.reached.slotCase_of_shows hshows hi hslot).resolvedOutcome
      (by simpa using hp) (by simpa using hr)
    have hout' := (hdone'.reached.slotCase_of_shows (henv'.shows req) hi hslot').resolvedOutcome
      (by simpa using hp) (by simpa using hr)
    have hlive := hdone.get?_liveOf_refresh hshows hone hedges hi hp hr hsent
    rw [← hplatform] at hlive
    rcases retry_of_unsafe (by simp) hk hfw hsent hlive (by simpa using hnotsafe) with
      hblocked | ⟨v', hsent', hne⟩
    · exact hout'.unblocked k hk hblocked
    · refine hne ?_
      have hbag := hbags entry.classId k
      rw [hdone.platform_eq, hdone'.platform_eq,
        hdone.reached.get?_applyCalls_plannedCalls hone hi hslot,
        hdone'.reached.get?_applyCalls_plannedCalls hone hi hslot', hout.sentFor_eq,
        hout'.sentFor_eq, hsent, hsent'] at hbag
      rw [liveOf_refresh hp, liveOf_refresh hp]
      obtain ⟨bag, hbag₀⟩ := hdone.reached.exists_bag hshows hedges hi
        ⟨p, k, by simpa using hp, by simpa using hr, by simp [hsent]⟩
      rw [hbag₀, map_some] at hbag
      obtain ⟨bag', hbag', hstored⟩ := map_eq_some_iff.mp hbag
      simp only [freshAttributes, hbag₀, hbag', some_or, getD_some]
      exact hstored

end

/-- A failed push leaves file and log alone, and its retry ends like a push in which nothing
failed, whatever fails and wherever, exactly when the push is not admitted to Step F or all its
keys may be sent twice. -/
theorem retry_converges_iff (hone : w.disk.OneEntryPerClass) (henv₀ : env₀.Undisturbed w.platform)
    (hok : (pushBrownfieldControl env₀ req w.disk w).calls ≠ [] →
      (pushBrownfieldControl env₀ req w.disk w).wrote = true) :
    (∀ env : Environment J, env.Shows req w.platform →
      (pushBrownfieldControl env req w.disk w).wrote = false →
        RetryConverges env req w (pushBrownfieldControl env₀ req w.disk w)) ↔
      (Admissible req w.disk w.platform → (∃ kind, stepE req = .proceed kind) →
        AllRetrySafe req w.disk w.platform) := by
  constructor
  swap
  · intro hsafe env hshows hfailed
    exact retryConverges hone henv₀ hok hsafe hshows hfailed
  intro hconverges hadm hproceeds i entry p hi hp hr k hk hfw
  by_contra hnotsafe
  rw [retrySafe_iff hk] at hnotsafe
  obtain ⟨v, hv⟩ := Classical.not_forall.mp hnotsafe
  obtain ⟨hsent, hnotsafe⟩ := Classical.not_imp.mp hv
  -- the push without failures is persisted
  have hsends : PushSends req w.disk w.platform :=
    ⟨i, entry, hi, p, k, by simpa using hp, by simpa using hr, by simp [hsent]⟩
  have hshort : shortCircuits w.disk = false := by
    rw [Bool.eq_false_iff]
    intro hrest
    rw [(shortCircuits_iff.mp hrest entry (mem_of_getElem? hi)).1] at hp
    cases hp
  have hwrote : (pushBrownfieldControl env₀ req w.disk w).wrote = true :=
    (TakesEffect.effect ⟨hadm, hshort, fun _ => hproceeds⟩ henv₀).elim hok id
  obtain ⟨live, stale, classified, slots, hdone⟩ := exists_completed_of_wrote hwrote
  obtain ⟨-, hedges⟩ := hdone.reached.of_wrote hwrote
  -- now the process dies just before it writes the file
  obtain ⟨hfailed, hplatform⟩ := (hdone.reached.dying).world_of_dies (fun _ => hproceeds)
    henv₀.answers_eq rfl hedges
  obtain ⟨hdisk, -, hretry⟩ := hconverges (dying env₀) (henv₀.shows req) hfailed
  rw [hdisk] at hretry
  have henv' : ({ env₀ with
      fetched := .ok (pushBrownfieldControl (dying env₀) req w.disk w).world.platform.rows } :
      Environment J).Undisturbed (pushBrownfieldControl (dying env₀) req w.disk w).world.platform :=
    ⟨rfl, henv₀.answers_eq, henv₀.lives⟩
  exact hdone.retry_differs (henv₀.shows req) hone hedges hplatform hdisk henv' hi hp hr hk hfw
    hsent (by simpa using hnotsafe) (hretry _ henv')

/-- Two classes with one edited key each. -/
def twoClassFile : ControlFile ℕ :=
  brownfieldFile [editedEntry "one" [("a", 2)] [("a", 1)] [("a", 1)],
    editedEntry "two" [("a", 2)] [("a", 1)] [("a", 1)]]

/-- The platform of `twoClassFile`, with a value for the key of the first class. -/
def twoClassPlatform (first : ℕ) : Platform ℕ :=
  platformOf [("one", [("a", first)]), ("two", [("a", 1)])]

/-- Before the push. -/
def twoClassWorld (first : ℕ) : World ℕ :=
  ⟨twoClassPlatform first, twoClassFile, []⟩

/-- The second class is rejected; the retry finds the first one done. -/
theorem retry_converges_second_rejected :
    (pushBrownfieldControl (environment (twoClassPlatform 1) [.merged, .rejected none])
      (request .cancel [] []) twoClassFile (twoClassWorld 1)).wrote = false ∧
    RetryConverges (environment (twoClassPlatform 1) [.merged, .rejected none])
      (request .cancel [] []) (twoClassWorld 1)
      (pushBrownfieldControl (environment (twoClassPlatform 1) []) (request .cancel [] [])
        twoClassFile (twoClassWorld 1)) := by
  have hone : (twoClassWorld 1).disk.OneEntryPerClass := by
    unfold ControlFile.OneEntryPerClass
    decide
  have henv₀ : (environment (twoClassPlatform 1) []).Undisturbed (twoClassWorld 1).platform :=
    ⟨rfl, by simp [environment], rfl⟩
  have hok : (pushBrownfieldControl (environment (twoClassPlatform 1) []) (request .cancel [] [])
      (twoClassWorld 1).disk (twoClassWorld 1)).wrote = true := by decide +kernel
  have hfailed : (pushBrownfieldControl
      (environment (twoClassPlatform 1) [.merged, .rejected none]) (request .cancel [] [])
      (twoClassWorld 1).disk (twoClassWorld 1)).wrote = false := by decide +kernel
  refine ⟨hfailed, (retry_converges_iff hone henv₀ fun _ => hok).mpr ?_ _
    (shows_of_fetched rfl _) hfailed⟩
  intro _ _ i entry p hi hp hr k hk hfw
  have hentry : entry = editedEntry "one" [("a", 2)] [("a", 1)] [("a", 1)] ∨
      entry = editedEntry "two" [("a", 2)] [("a", 1)] [("a", 1)] := by
    simpa [twoClassWorld, twoClassFile, brownfieldFile] using mem_of_getElem? hi
  unfold RetrySafe
  rcases hentry with rfl | rfl
  all_goals
    cases hp
    obtain rfl : k = "a" := mem_singleton.mp hk
    rw [if_neg (by decide +kernel)]
    decide +kernel

/-- The first class is merged to the value from before the edit and the second class is rejected:
the retry takes the platform for unchanged and sends our value over the merged one. -/
theorem retry_overwrites_merge :
    let req := request .cancel [] [("0.a", .merge (some (.value 1)))]
    let env := environment (twoClassPlatform 3) [.merged, .rejected none]
    let r₀ := pushBrownfieldControl (environment (twoClassPlatform 3) []) req twoClassFile
      (twoClassWorld 3)
    twoClassFile.OneEntryPerClass ∧ env.Shows req (twoClassPlatform 3) ∧ r₀.wrote = true ∧
      (pushBrownfieldControl env req twoClassFile (twoClassWorld 3)).outcome =
        .threw (.mutationFailed "control" "two" none) ∧
      ¬ RetryConverges env req (twoClassWorld 3) r₀ := by
  intro req env r₀
  refine ⟨?_, shows_of_fetched rfl _, by decide +kernel, by decide +kernel, ?_⟩
  · unfold ControlFile.OneEntryPerClass
    decide
  · rintro ⟨-, -, hretry⟩
    let w' := (pushBrownfieldControl env req (twoClassWorld 3).disk (twoClassWorld 3)).world
    have hbag := (hretry (environment w'.platform []) ⟨rfl, by simp [environment], rfl⟩).1 "one" "a"
    revert hbag
    decide +kernel

end ControlLibrary.Brownfield
