import Dethernety.ControlLibrary.BrownfieldResolution

/-!
# Pushing again

A push that has written the file leaves no pending edit behind, so a second push of that file
either takes the short circuit of Step 0 or is stopped by the guard of Step A. Which of the two
depends on the keys that the edit did not touch: Step B replaces `platformAttributes` by the whole
live bag, while only edited keys are reconciled with it.
-/

open List

namespace ControlLibrary.Brownfield

variable {J : Type*} [DecidableEq J]

/-! ## Steps 0 and A -/

section

variable {file : ControlFile J}

lemma shortCircuits_iff :
    shortCircuits file = true ↔
      ∀ c ∈ file.classes, c.pendingEdit = none ∧ isClassDrifted c = false := by
  unfold shortCircuits
  simp only [Bool.and_eq_true, Bool.not_eq_true', any_eq_false]
  constructor
  · rintro ⟨hpending, hdivergent⟩ c hc
    have hnone : c.pendingEdit = none := by simpa using hpending c hc
    refine ⟨hnone, ?_⟩
    have hc' := hdivergent c hc
    unfold isClassDrifted
    cases hplatform : c.platformAttributes with
    | none => rfl
    | some platformAttributes => simpa [hplatform, hnone] using hc'
  · intro h
    refine ⟨fun c hc => by simp [(h c hc).1], fun c hc => ?_⟩
    obtain ⟨hnone, hdrift⟩ := h c hc
    unfold isClassDrifted at hdrift
    cases hplatform : c.platformAttributes with
    | none => simp
    | some platformAttributes => simpa [hplatform, hnone] using hdrift

lemma externalEdit?_eq_none_iff : externalEdit? file = none ↔ ∀ c ∈ file.classes, isClassDrifted c = false := by
  simp [externalEdit?, find?_eq_none]

end

/-! ## The second call -/

variable {env : Environment J} {req : PushRequest J} {file : ControlFile J} {w : World J}
  {live : Record String (Attributes J)} {stale : Bool} {i : ℕ} {entry : ControlFileClassEntry J}
  {p : PendingEditBlock J} {slot : Slot J (ResolvedPlan J)} {decision : BrownfieldDecision J}

/-- The call has returned at Step 0: no error, no mutation, nothing written. -/
structure ShortCircuited (file : ControlFile J) (w : World J) (r : Push J) : Prop where
  outcome_eq : r.outcome = .returned ⟨file, [], false, none⟩
  world_eq : r.world = w
  calls_eq : r.calls = []
  wrote_eq : r.wrote = false

lemma shortCircuited_iff (hlife : file.lifecycle = .brownfield)
    (hpending : ∀ c ∈ file.classes, c.pendingEdit = none) :
    ShortCircuited file w (pushBrownfieldControl env req file w) ↔ ∀ c ∈ file.classes, isClassDrifted c = false := by
  cases hshort : shortCircuits file with
  | true =>
    have hplan : planPush env req file = .ok (.unchanged file []) := by
      simp [planPush, hlife, hshort]
    refine iff_of_true ?_ fun c hc => (shortCircuits_iff.mp hshort c hc).2
    constructor <;> simp [pushBrownfieldControl, hplan]
  | false =>
    -- something has drifted, and Step A finds the first such class
    have hdrifted : ¬ ∀ c ∈ file.classes, isClassDrifted c = false := by
      intro h
      have hrest := shortCircuits_iff.mpr fun c hc => ⟨hpending c hc, h c hc⟩
      cases hshort.symm.trans hrest
    refine iff_of_false ?_ hdrifted
    intro h
    obtain ⟨e, he⟩ := Option.ne_none_iff_exists'.mp
      fun hnone => hdrifted (externalEdit?_eq_none_iff.mp hnone)
    have hplan : planPush env req file = .error (.externalEditDetected file.id e.classId) := by
      simp [planPush, hlife, hshort, he]
    have houtcome := h.outcome_eq
    simp [pushBrownfieldControl, hplan] at houtcome

/-- A pending class comes to rest: outside the edit the two bags agree already, and inside it
either the edit was taken back and they agree too, or at most one key was accepted. -/
def ComesToRest (decision : BrownfieldDecision J) (classIdx : ℕ) (entry : ControlFileClassEntry J)
    (p : PendingEditBlock J) : Prop :=
  (∀ k, k ∉ changedKeys p → entry.attributes.get? k = (liveOf entry).get? k) ∧
  (allRevertedToPrevious entry.attributes p = true →
    ∀ k ∈ changedKeys p, entry.attributes.get? k = (liveOf entry).get? k) ∧
  (allRevertedToPrevious entry.attributes p = false →
    (acceptedKeys decision classIdx (conflictKeys entry p)).length ≤ 1)

omit [DecidableEq J] in
lemma platformAttributes_refresh (hp : entry.pendingEdit = some p) (live fresh : Record String (Attributes J)) :
    (refresh live fresh entry).platformAttributes = some (liveOf (refresh live fresh entry)) := by
  simp [refresh, hp, liveOf]

lemma SlotCase.platformAttributes_eq (h : SlotCase env decision i entry slot)
    (hsome : entry.platformAttributes = some (liveOf entry)) :
    (finishSlot env slot).platformAttributes = some (liveOf (finishSlot env slot)) := by
  have hresolved : ∀ q, (resolvedEntry decision i entry q).platformAttributes =
      some (liveOf entry) := by
    intro q
    unfold resolvedEntry workingAfter
    cases (acceptedKeys decision i (conflictKeys entry q)).getLast? with
    | none | some k => exact hsome
  cases h with subst slot_eq
  | untouched pending slot_eq | reverted pending reverts slot_eq =>
    exact hsome
  | alreadyApplied edit sends slot_eq
  | sent _ _ _ _ slot_eq =>
    rfl
  | @allAccepted q _ _ _ slot_eq =>
    simp [finishSlot, liveOf, hresolved q]

lemma SlotCase.pendingEdit_eq (h : SlotCase env decision i entry slot) :
    (finishSlot env slot).pendingEdit = none := by
  cases h with
  | untouched pending slot_eq =>
    subst slot_eq
    exact pending
  | reverted pending reverts slot_eq | alreadyApplied edit sends slot_eq
  | sent edit decided payload nonempty slot_eq
  | allAccepted _ _ _ slot_eq =>
    subst slot_eq
    rfl

/-- Where the bags of a class differ after Steps C to F: at keys that were not sent, except the
last accepted one. -/
lemma ResolvedOutcome.sameEntries_iff (h : ResolvedOutcome env decision i entry p slot) :
    (finishSlot env slot).attributes.SameEntries (liveOf (finishSlot env slot)) ↔
      ∀ k, resolvedPayload decision i entry p k = none →
        (acceptedKeys decision i (conflictKeys entry p)).getLast? = some k ∨
          entry.attributes.get? k = (liveOf entry).get? k := by
  refine forall_congr' fun k => ?_
  rw [h.live_eq k, h.attributes_eq, get?_resolvedEntry]
  cases hpayload : resolvedPayload decision i entry p k with
  | some v => simp
  | none =>
    by_cases hlast : (acceptedKeys decision i (conflictKeys entry p)).getLast? = some k
    all_goals simp [hlast]

lemma ResolvedOutcome.resolvedPayload_eq_none (h : ResolvedOutcome env decision i entry p slot) {k : String}
    (hk : k ∈ changedKeys p) (hnone : resolvedPayload decision i entry p k = none) :
    entry.attributes.get? k = (liveOf entry).get? k ∨ k ∈ acceptedKeys decision i (conflictKeys entry p) := by
  by_cases hconflict : IsConflict entry.attributes (liveOf entry) p k
  · have hmem : k ∈ conflictKeys entry p := mem_conflictKeys.mpr ⟨hk, hconflict⟩
    obtain ⟨d, hd⟩ := Option.ne_none_iff_exists'.mp (h.decided k hmem)
    rw [resolvedPayload, if_pos ⟨hk, hconflict.sends⟩, if_pos hconflict, hd] at hnone
    refine .inr (mem_filter.mpr ⟨hmem, ?_⟩)
    cases d with
    | keep => simp [resolvedValue] at hnone
    | acceptTheirs => simp [hd]
    | merge merged => simp [resolvedValue] at hnone
  · have hsend : ¬ Sends entry.attributes (liveOf entry) p k := by
      intro hsend
      simp [resolvedPayload, hk, hsend, hconflict] at hnone
    left
    by_contra hne
    refine hsend (.inr ⟨?_, fun heq => hne heq.symm⟩)
    -- the key is on the platform, or the class would be blocked
    intro habsent
    exact h.unblocked k hk ⟨fun hfw => hsend (.inl hfw), habsent⟩

lemma SlotCase.isClassDrifted_iff (h : SlotCase env decision i entry slot)
    (hp : entry.pendingEdit = some p) (hsome : entry.platformAttributes = some (liveOf entry)) :
    isClassDrifted (finishSlot env slot) = false ↔ ComesToRest decision i entry p := by
  have hsame : isClassDrifted (finishSlot env slot) = false ↔
      (finishSlot env slot).attributes.SameEntries (liveOf (finishSlot env slot)) := by
    rw [← Bool.not_eq_true, ControlLibrary.isClassDrifted_iff, h.platformAttributes_eq hsome]
    simp [h.pendingEdit_eq]
  rw [hsame]
  cases hreverts : allRevertedToPrevious entry.attributes p with
  | true =>
    -- nothing was reconciled, so all keys have to agree
    rw [h.eq_of_reverted hp hreverts]
    constructor
    · intro hall
      exact ⟨fun k _ => hall k, fun _ k _ => hall k, by simp [hreverts]⟩
    · rintro ⟨houtside, hinside, -⟩ k
      by_cases hk : k ∈ changedKeys p
      · exact hinside hreverts k hk
      · exact houtside k hk
  | false =>
    have hout := h.resolvedOutcome hp hreverts
    rw [hout.sameEntries_iff]
    constructor
    · intro hall
      refine ⟨fun k hk => ?_, by simp [hreverts], fun _ => ?_⟩
      · -- a key outside the edit cannot have been accepted
        refine (hall k (by simp [resolvedPayload, hk])).resolve_left fun hlast => hk ?_
        have hmem := (mem_filter.mp (mem_of_getLast? hlast)).1
        exact (mem_conflictKeys.mp hmem).1
      · rw [length_acceptedKeys_le_one_iff]
        intro k hk
        obtain ⟨hmem, hd⟩ := mem_filter.mp hk
        obtain ⟨hchanged, hconflict⟩ := mem_conflictKeys.mp hmem
        have hd := of_decide_eq_true hd
        refine (hall k ?_).resolve_right fun heq => hconflict.2.2.1 heq.symm
        simp [resolvedPayload, hchanged, hconflict, hconflict.sends, hd, resolvedValue]
    · rintro ⟨houtside, -, haccepted⟩ k hnone
      have hlast := length_acceptedKeys_le_one_iff.mp (haccepted hreverts)
      by_cases hk : k ∈ changedKeys p
      · rcases hout.resolvedPayload_eq_none hk hnone with heq | hmem
        · exact .inr heq
        · exact .inl (hlast k hmem)
      · exact .inr (houtside k hk)

/-- After a push that was persisted, a second push of the file takes the short circuit exactly when
every pending class comes to rest. -/
theorem second_push_shortCircuited_iff
    (hwrote : (pushBrownfieldControl env req file w).wrote = true)
    (hfetch : fetchLive env req = .ok (live, stale)) (env' : Environment J)
    (req' : PushRequest J) :
    let w' := (pushBrownfieldControl env req file w).world
    ShortCircuited w'.disk w' (pushBrownfieldControl env' req' w'.disk w') ↔
      ∀ (i : ℕ) entry p, file.classes[i]? = some entry → entry.pendingEdit = some p →
        ComesToRest req.decision i (refresh live req.freshPlatformAttrs entry) p := by
  intro w'
  obtain ⟨live', stale', classified, slots, hdone⟩ := exists_completed_of_wrote hwrote
  have hreached := hdone.reached
  cases hfetch.symm.trans hreached.fetched
  have hdisk : w'.disk.classes = slots.map (finishSlot env) := hdone.classes_eq
  have hlife : w'.disk.lifecycle = .brownfield := by rw [hdone.disk_eq]; exact hreached.brownfield
  -- the class with index `i` on disk is what Steps C to F have made of the one in the file
  have hcase : ∀ (i : ℕ) entry, file.classes[i]? = some entry → ∃ slot,
      w'.disk.classes[i]? = some (finishSlot env slot) ∧
        SlotCase env req.decision i (refresh live req.freshPlatformAttrs entry) slot := by
    intro i entry hi
    obtain ⟨slot, hslot, hcase⟩ := hreached.slotCase hi
    exact ⟨slot, by simp [hdisk, hslot], hcase⟩
  have hback : ∀ c ∈ w'.disk.classes, ∃ (i : ℕ) (entry : ControlFileClassEntry J),
      file.classes[i]? = some entry ∧ w'.disk.classes[i]? = some c := by
    intro c hc
    obtain ⟨i, hi⟩ := List.mem_iff_getElem?.mp hc
    have hlt : i < file.classes.length := by
      have := (List.getElem?_eq_some_iff.mp hi).1
      rwa [hdisk, List.length_map, hreached.planned.length_eq] at this
    exact ⟨i, file.classes[i], List.getElem?_eq_getElem hlt, hi⟩
  have hpending : ∀ c ∈ w'.disk.classes, c.pendingEdit = none := by
    intro c hc
    obtain ⟨i, entry, hi, hci⟩ := hback c hc
    obtain ⟨slot, hslot, hcase⟩ := hcase i entry hi
    cases hci.symm.trans hslot
    exact hcase.pendingEdit_eq
  rw [shortCircuited_iff hlife hpending]
  constructor
  · intro hdrift i entry p hi hp
    obtain ⟨slot, hslot, hcase⟩ := hcase i entry hi
    exact (hcase.isClassDrifted_iff (by simpa using hp) (platformAttributes_refresh hp _ _)).mp
      (hdrift _ (List.mem_of_getElem? hslot))
  · intro hrest c hc
    obtain ⟨i, entry, hi, hci⟩ := hback c hc
    obtain ⟨slot, hslot, hcase⟩ := hcase i entry hi
    cases hci.symm.trans hslot
    cases hp : entry.pendingEdit with
    | some p =>
      exact (hcase.isClassDrifted_iff (by simpa using hp) (platformAttributes_refresh hp _ _)).mpr
        (hrest i entry p hi hp)
    | none =>
      -- a class without an edit is the one that Step A has let pass
      have hslot_eq := hcase.eq_of_untouched (by simpa using hp)
      have hrefresh : refresh live req.freshPlatformAttrs entry = entry := by
        simp [refresh, hp]
      rw [hslot_eq, hrefresh]
      exact externalEdit?_eq_none_iff.mp hreached.no_externalEdit entry (List.mem_of_getElem? hi)

/-- The edit of one key, next to another key that agrees with the platform. -/
theorem second_push_shortCircuited_one_key :
    let entry := editedEntry "class" [("a", 2), ("b", 5)] [("a", 1), ("b", 5)] [("a", 1)]
    let platform := platformOf [("class", [("a", 1), ("b", 5)])]
    let w' := (pushBrownfieldControl (environment platform []) (request .cancel [] [])
      (brownfieldFile [entry]) ⟨platform, brownfieldFile [entry], []⟩).world
    ShortCircuited w'.disk w'
      (pushBrownfieldControl (environment w'.platform []) (request .cancel [] []) w'.disk w') := by
  intro entry platform w'
  have hwrote : (pushBrownfieldControl (environment platform []) (request .cancel [] [])
      (brownfieldFile [entry]) ⟨platform, brownfieldFile [entry], []⟩).wrote = true := by
    decide +kernel
  have hfetch : fetchLive (environment platform []) (request .cancel [] []) =
      .ok (liveByClass platform.rows, false) := rfl
  refine (second_push_shortCircuited_iff hwrote hfetch (environment w'.platform [])
    (request .cancel [] [])).mpr ?_
  intro i e p hi hp
  cases i with
  | succ i => simp [brownfieldFile] at hi
  | zero =>
    obtain rfl : entry = e := by simpa [brownfieldFile] using hi
    obtain rfl : (⟨.operator, 0, numbers [("a", 1)], none⟩ : PendingEditBlock ℕ) = p := by
      simpa [entry, editedEntry] using hp
    refine ⟨fun k hk => ?_, by decide +kernel, by decide +kernel⟩
    have hbags : shallowEqualAttrs (entry.attributes.erase "a")
        ((liveOf (refresh (liveByClass platform.rows) ∅ entry)).erase "a") = true := by
      decide +kernel
    have hne : "a" ≠ k := by
      rintro rfl
      exact hk (by decide +kernel)
    have := shallowEqualAttrs_iff.mp hbags k
    simpa [Record.get?_erase, hne, request] using this

/-- A key outside the edit changes on the platform: the push is persisted with our old value next
to the platform's new one, and the second push is stopped as if somebody had edited the file. -/
theorem second_push_blocked :
    let entry := editedEntry "class" [("a", 2), ("b", 5)] [("a", 1), ("b", 5)] [("a", 1)]
    let platform := platformOf [("class", [("a", 1), ("b", 6)])]
    let r := pushBrownfieldControl (environment platform []) (request .cancel [] [])
      (brownfieldFile [entry]) ⟨platform, brownfieldFile [entry], []⟩
    let r' := pushBrownfieldControl (environment r.world.platform []) (request .cancel [] [])
      r.world.disk r.world
    r.wrote = true ∧ (platform.get? "class").isSome = true ∧
      r'.outcome = .threw (.externalEditDetected "control" "class") ∧
      ¬ ShortCircuited r.world.disk r.world r' := by
  intro entry platform r r'
  have houtcome : r'.outcome = .threw (.externalEditDetected "control" "class") := by
    decide +kernel
  refine ⟨by decide +kernel, by decide +kernel, houtcome, fun h => ?_⟩
  have hreturned := h.outcome_eq
  cases houtcome.symm.trans hreturned

end ControlLibrary.Brownfield
