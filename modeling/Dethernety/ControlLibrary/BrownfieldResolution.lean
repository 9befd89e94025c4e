import Dethernety.ControlLibrary.BrownfieldSpec

/-!
# Conflicting keys

What a brownfield push does with the keys that changed on both sides: which of them it may send,
and whether the decision on each of them is carried out.
-/

open List

namespace ControlLibrary.Brownfield

variable {J : Type*} [DecidableEq J]

/-! ## A refreshed entry -/

section

variable {live fresh : Record String (Attributes J)} {entry : ControlFileClassEntry J}
  {p : PendingEditBlock J}

omit [DecidableEq J] in
@[simp]
lemma refresh_attributes : (refresh live fresh entry).attributes = entry.attributes := by
  unfold refresh
  split <;> rfl

omit [DecidableEq J] in
@[simp]
lemma refresh_pendingEdit : (refresh live fresh entry).pendingEdit = entry.pendingEdit := by
  unfold refresh
  split <;> rfl

omit [DecidableEq J] in
@[simp]
lemma refresh_classId : (refresh live fresh entry).classId = entry.classId := by
  unfold refresh
  split <;> rfl

omit [DecidableEq J] in
lemma liveOf_refresh (h : entry.pendingEdit = some p) :
    liveOf (refresh live fresh entry) = freshAttributes live fresh entry.classId := by
  simp [refresh, h, liveOf]

end

/-! ## Concrete files -/

def numbers (values : List (String × ℕ)) : Attributes ℕ :=
  Record.ofList (values.map fun e => (e.1, .value e.2))

/-- A class entry with an edit of the keys in `previous`. -/
def editedEntry (classId : String) (attributes platform previous : List (String × ℕ)) :
    ControlFileClassEntry ℕ where
  classId := classId
  className := none
  moduleId := none
  attributes := numbers attributes
  platformAttributes := some (numbers platform)
  localEditedAt := some 0
  pushedAt := none
  pendingEdit := some ⟨.operator, 0, numbers previous, none⟩

def brownfieldFile (classes : List (ControlFileClassEntry ℕ)) : ControlFile ℕ where
  id := "control"
  name := "Control"
  source := .declared
  lifecycle := .brownfield
  classes := classes
  platformState := none

def platformOf (bags : List (String × List (String × ℕ))) : Platform ℕ :=
  Record.ofList (bags.map fun e => (e.1, numbers e.2))

/-- An environment in which the re-fetch answers with what the platform has. -/
def environment (platform : Platform ℕ) (answers : List Answer) : Environment ℕ where
  fetched := .ok platform.rows
  answers := answers
  diesBeforeWrite := false
  noEdge := "no IS_INSTANCE_OF relationship"
  now := 1
  operator := "operator"
  canonical := id

/-- A request with decisions on conflicting keys. -/
def request (shared : SharedOwnership) (models : List String)
    (perKey : List (String × PerKeyDecision ℕ)) : PushRequest ℕ where
  decision := ⟨shared, Record.ofList perKey, none, none⟩
  freshPlatformAttrs := ∅
  liveAssignedModelIds := models
  thisModelId := "model"
  authnOperator := none

/-- A class with two edited keys, `a` changed on the platform meanwhile and `b` not. -/
def conflictEntry : ControlFileClassEntry ℕ :=
  editedEntry "class" [("a", 2), ("b", 2)] [("a", 1), ("b", 1)] [("a", 1), ("b", 1)]

def conflictFile : ControlFile ℕ :=
  brownfieldFile [conflictEntry]

def conflictPlatform : Platform ℕ :=
  platformOf [("class", [("a", 3), ("b", 1)])]

/-- The push of `conflictFile` with one decision. -/
def conflictPush (d : PerKeyDecision ℕ) : Push ℕ :=
  pushBrownfieldControl (environment conflictPlatform []) (request .cancel [] [("0.a", d)])
    conflictFile ⟨conflictPlatform, conflictFile, []⟩

/-! ## Which keys are sent -/

section

variable {decision : BrownfieldDecision J} {classIdx : ℕ} {entry : ControlFileClassEntry J}
  {p : PendingEditBlock J} {k : String}

lemma of_resolvedPayload_ne_none (h : resolvedPayload decision classIdx entry p k ≠ none) :
    k ∈ changedKeys p ∧ Sends entry.attributes (liveOf entry) p k ∧ (IsConflict entry.attributes (liveOf entry) p k →
        decisionFor decision classIdx k = some .keep ∨
          ∃ merged, decisionFor decision classIdx k = some (.merge merged)) := by
  unfold resolvedPayload at h
  by_cases hsend : k ∈ changedKeys p ∧ Sends entry.attributes (liveOf entry) p k
  · refine ⟨hsend.1, hsend.2, fun hconflict => ?_⟩
    rw [if_pos hsend, if_pos hconflict] at h
    cases hd : decisionFor decision classIdx k with
    | none => simp [hd] at h
    | some d =>
      cases d with
      | keep => exact .inl rfl
      | acceptTheirs => simp [hd, resolvedValue] at h
      | merge merged => exact .inr ⟨merged, rfl⟩
  · exact absurd (if_neg hsend) h

lemma SlotCase.pending_of_plan {env : Environment J} {slot : Slot J (ResolvedPlan J)}
    {plan : ResolvedPlan J} (h : SlotCase env decision classIdx entry slot) (hplan : slot.plan = some plan) :
    ∃ p, entry.pendingEdit = some p ∧ allRevertedToPrevious entry.attributes p = false ∧
      slot.entry.classId = entry.classId := by
  cases h with
  | untouched pending slot_eq | reverted pending reverts slot_eq
  | alreadyApplied _ _ slot_eq =>
    subst slot_eq
    cases hplan
  | @sent p _ edit _ _ _ slot_eq =>
    refine ⟨p, edit.pending, edit.reverts, ?_⟩
    subst slot_eq
    unfold resolvedEntry workingAfter
    cases (acceptedKeys decision classIdx (conflictKeys entry p)).getLast? <;> rfl
  | allAccepted _ _ _ slot_eq =>
    subst slot_eq
    cases hplan

end

section

variable {env : Environment J} {req : PushRequest J} {file : ControlFile J} {w : World J}
  {call : Call J}

/-- Every key that is sent was meant to change. If the re-fetch returned a row for the class, the
key is a first write, or the platform still had the value from before the edit, or it was a
conflict with an explicit `keep` or `merge`. -/
theorem no_silent_overwrite (hcall : call ∈ (pushBrownfieldControl env req file w).calls) :
    ∃ entry p, file.classes[call.classIdx]? = some entry ∧ entry.classId = call.classId ∧
      entry.pendingEdit = some p ∧
      (∀ k ∈ call.attributes.keys, k ∈ p.previousAttributes.keys ∨ k ∈ firstWrites p) ∧
      ∀ rows bag, env.fetched = .ok rows → (liveByClass rows).get? call.classId = some bag →
        ∀ k ∈ call.attributes.keys, k ∈ firstWrites p ∨
          (∃ v, bag.get? k = some v ∧ p.previousAttributes.get? k = some v) ∨
          (IsConflict entry.attributes bag p k ∧
            (decisionFor req.decision call.classIdx k = some .keep ∨
              ∃ merged, decisionFor req.decision call.classIdx k = some (.merge merged))) := by
  obtain ⟨live, stale, slots, hfetch, hplanned, hmem⟩ := exists_slots_of_mem_calls hcall
  obtain ⟨i, slot, plan, hi, hplan, rfl⟩ := mem_plannedCalls.mp hmem
  rw [Nat.zero_add]
  have hlt : i < file.classes.length := by
    rw [← hplanned.length_eq]
    exact (List.getElem?_eq_some_iff.mp hi).1
  obtain ⟨c, slot', hC, hD, hi'⟩ :=
    hplanned.slot_eq i file.classes[i] (List.getElem?_eq_getElem hlt)
  cases hi.symm.trans hi'
  have hcase := slot_cases hC hD
  obtain ⟨p, hp, hreverts, hclass⟩ := hcase.pending_of_plan hplan
  have hout := hcase.resolvedOutcome hp hreverts
  simp only [refresh_pendingEdit] at hp
  -- a key of the payload is one that Step D has left in it
  have hkey : ∀ k ∈ plan.outboundPayload.keys, resolvedPayload req.decision i
      (refresh live req.freshPlatformAttrs file.classes[i]) p k ≠ none := by
    intro k hk hnone
    have hsent := hout.sentFor_eq k
    rw [hnone, sentFor, hplan] at hsent
    exact absurd hk (Record.notMem_keys_iff.mpr hsent)
  refine ⟨file.classes[i], p, List.getElem?_eq_getElem hlt, ?_, hp, ?_, ?_⟩
  · rw [hclass, refresh_classId]
  · intro k hk
    exact List.mem_append.mp (of_resolvedPayload_ne_none (hkey k hk)).1
  · intro rows bag hrows hbag k hk
    obtain ⟨hchanged, hsends, hdecided⟩ := of_resolvedPayload_ne_none (hkey k hk)
    have hlive : live = liveByClass rows := by
      simp only [fetchLive, hrows, Except.ok.injEq, Prod.mk.injEq] at hfetch
      exact hfetch.1.symm
    have hbag' : liveOf (refresh live req.freshPlatformAttrs file.classes[i]) = bag := by
      rw [hclass, refresh_classId] at hbag
      rw [liveOf_refresh hp, freshAttributes, hlive, hbag]
      rfl
    rw [hbag', refresh_attributes] at hsends hdecided
    by_cases hfw : k ∈ firstWrites p
    · exact .inl hfw
    · by_cases hconflict : IsConflict file.classes[i].attributes bag p k
      · exact .inr (.inr ⟨hconflict, hdecided hconflict⟩)
      · -- neither a first write nor a conflict: the platform has the value from before the edit
        obtain ⟨hsome, hne⟩ := hsends.resolve_left hfw
        obtain ⟨v, hv⟩ := Option.ne_none_iff_exists'.mp hsome
        refine .inr (.inl ⟨v, hv, ?_⟩)
        by_contra hprev
        exact hconflict ⟨hfw, hsome, hne, by rwa [hv]⟩

/-- A push that sends a kept conflict and a key that had not changed. -/
theorem no_silent_overwrite_keep :
    ∃ entry p, conflictFile.classes[0]? = some entry ∧ entry.classId = "class" ∧
      entry.pendingEdit = some p ∧
      ∀ k ∈ ["a", "b"], k ∈ firstWrites p ∨
        (∃ v, (numbers [("a", 3), ("b", 1)]).get? k = some v ∧
          p.previousAttributes.get? k = some v) ∨
        (IsConflict entry.attributes (numbers [("a", 3), ("b", 1)]) p k ∧
          (decisionFor (request .cancel [] [("0.a", .keep)]).decision 0 k = some .keep ∨
            ∃ merged, decisionFor (request .cancel [] [("0.a", .keep)]).decision 0 k =
              some (.merge merged))) := by
  have hcall : (⟨0, "class", Record.ofList [("a", some (.value 2)), ("b", some (.value 2))]⟩ :
      Call ℕ) ∈ (conflictPush .keep).calls := by decide +kernel
  obtain ⟨entry, p, hentry, hclass, hp, -, hkeys⟩ := no_silent_overwrite hcall
  exact ⟨entry, p, hentry, hclass, hp, hkeys conflictPlatform.rows (numbers [("a", 3), ("b", 1)])
    rfl (by decide +kernel)⟩

end

/-! ## Whether decisions are carried out -/

/-- The call sent `v` for the key. A key whose value is `undefined` is left out of what is sent. -/
def Push.Sent (r : Push J) (classIdx : ℕ) (k : String) (v : Option (JsonValue J)) : Prop :=
  v ≠ none ∧ ∃ call ∈ r.calls, call.classIdx = classIdx ∧ call.attributes.get? k = some v

/-- The call did not send the key. -/
def Push.NotSent (r : Push J) (classIdx : ℕ) (k : String) : Prop :=
  ∀ call ∈ r.calls, call.classIdx = classIdx → (call.attributes.get? k).join = none

/-- What each decision promises about a conflicting key: what is sent, and what the entry on disk
holds afterwards, locally and as the platform's value. -/
def Honours (r : Push J) (classIdx : ℕ) (k : String) (ours live : Option (JsonValue J))
    (after : ControlFileClassEntry J) : PerKeyDecision J → Prop
  | .keep => r.Sent classIdx k ours ∧ after.attributes.get? k = ours ∧ (liveOf after).get? k = ours
  | .acceptTheirs => r.NotSent classIdx k ∧ after.attributes.get? k = live ∧
      (liveOf after).get? k = live
  | .merge merged => r.Sent classIdx k merged ∧ after.attributes.get? k = merged ∧
      (liveOf after).get? k = merged

/-- What decides whether the code carries out a decision: `accepted` are the accepted keys of the
class. -/
def Honourable (accepted : List String) (k : String) (ours : Option (JsonValue J)) :
    PerKeyDecision J → Prop
  | .keep => ours ≠ none
  | .acceptTheirs => accepted.getLast? = some k
  | .merge merged => merged = ours ∧ ours ≠ none

variable {env : Environment J} {req : PushRequest J} {file : ControlFile J} {w : World J}
  {i : ℕ} {entry : ControlFileClassEntry J} {p : PendingEditBlock J}
  {live : Record String (Attributes J)} {stale : Bool} {slots : List (Slot J (ResolvedPlan J))}
  {slot : Slot J (ResolvedPlan J)} {k : String} {r : Push J}

omit [DecidableEq J] in
lemma sent_iff (hcalls : r.calls = plannedCalls 0 slots) (hslot : slots[i]? = some slot)
    (v : Option (JsonValue J)) : r.Sent i k v ↔ v ≠ none ∧ sentFor slot k = some v := by
  unfold Push.Sent sentFor
  rw [hcalls]
  refine and_congr_right fun _ => ?_
  constructor
  · rintro ⟨call, hcall, rfl, hget⟩
    obtain ⟨j, slot', plan, hj, hplan, rfl⟩ := mem_plannedCalls.mp hcall
    simp only [Nat.zero_add] at hslot
    cases hj.symm.trans hslot
    simpa [hplan] using hget
  · intro hget
    cases hplan : slot.plan with
    | none => simp [hplan] at hget
    | some plan =>
      refine ⟨⟨0 + i, slot.entry.classId, plan.outboundPayload⟩,
        mem_plannedCalls.mpr ⟨i, slot, plan, hslot, hplan, rfl⟩, by simp, ?_⟩
      simpa [hplan] using hget

omit [DecidableEq J] in
lemma notSent_iff (hcalls : r.calls = plannedCalls 0 slots) (hslot : slots[i]? = some slot) :
    r.NotSent i k ↔ (sentFor slot k).join = none := by
  unfold Push.NotSent sentFor
  rw [hcalls]
  constructor
  · intro h
    cases hplan : slot.plan with
    | none => rfl
    | some plan =>
      exact h ⟨0 + i, slot.entry.classId, plan.outboundPayload⟩
        (mem_plannedCalls.mpr ⟨i, slot, plan, hslot, hplan, rfl⟩) (by simp)
  · rintro hget call hcall rfl
    obtain ⟨j, slot', plan, hj, hplan, rfl⟩ := mem_plannedCalls.mp hcall
    simp only [Nat.zero_add] at hslot
    cases hj.symm.trans hslot
    simpa [hplan] using hget

/-- The class, its entry on disk and its slot, in a call that has written the file. -/
lemma exists_slot_of_wrote (hwrote : (pushBrownfieldControl env req file w).wrote = true)
    (hfetch : fetchLive env req = .ok (live, stale)) (hi : file.classes[i]? = some entry) :
    ∃ slots slot, (pushBrownfieldControl env req file w).calls = plannedCalls 0 slots ∧ slots[i]? = some slot ∧
      (pushBrownfieldControl env req file w).world.disk.classes[i]? = some (finishSlot env slot) ∧
      SlotCase env req.decision i (refresh live req.freshPlatformAttrs entry) slot := by
  obtain ⟨live', stale', classified, slots, hdone⟩ := exists_completed_of_wrote hwrote
  cases hfetch.symm.trans hdone.reached.fetched
  obtain ⟨slot, hslot, hcase⟩ := hdone.reached.slotCase hi
  exact ⟨slots, slot, hdone.calls_eq, hslot, by simp [hdone.classes_eq, hslot], hcase⟩

lemma length_acceptedKeys_le_one_iff {decision : BrownfieldDecision J} :
    (acceptedKeys decision i (conflictKeys entry p)).length ≤ 1 ↔ ∀ k ∈ acceptedKeys decision i (conflictKeys entry p),
        (acceptedKeys decision i (conflictKeys entry p)).getLast? = some k := by
  have hnodup : (acceptedKeys decision i (conflictKeys entry p)).Nodup :=
    (nodup_scanKeys_conflictKeys entry.attributes (liveOf entry) p).filter _
  generalize acceptedKeys decision i (conflictKeys entry p) = ks at hnodup
  match ks with
  | [] | [k] => simp
  | k :: j :: ks =>
    -- the first of several keys is not the last
    have hne : (k :: j :: ks).getLast? ≠ some k := by
      intro hlast
      exact (nodup_cons.mp hnodup).1 (mem_of_getLast? hlast)
    constructor
    · intro hlen
      simp at hlen
    · intro h
      exact absurd (h k (.head _)) hne

/-- On a class whose edit was not taken back, a `keep` is carried out unless our value is absent, an acceptance only
for the last accepted key, and a merge only when it merges to our value. -/
lemma honours_iff_of_resolved (hcalls : r.calls = plannedCalls 0 slots)
    (hslot : slots[i]? = some slot) (hout : ResolvedOutcome env req.decision i entry p slot)
    (hk : k ∈ conflictKeys entry p) {d : PerKeyDecision J} (hd : decisionFor req.decision i k = some d) :
    Honours r i k (entry.attributes.get? k) ((liveOf entry).get? k) (finishSlot env slot) d ↔
      Honourable (acceptedKeys req.decision i (conflictKeys entry p)) k (entry.attributes.get? k) d := by
  obtain ⟨hchanged, hconflict⟩ := mem_conflictKeys.mp hk
  have hne : (liveOf entry).get? k ≠ entry.attributes.get? k := hconflict.2.2.1
  have hpayload : resolvedPayload req.decision i entry p k =
      resolvedValue (some (entry.attributes.get? k)) d := by
    simp [resolvedPayload, hchanged, hconflict, hconflict.sends, hd]
  have hsent := hout.sentFor_eq k
  have hlive := hout.live_eq k
  have hattr := get?_resolvedEntry req.decision i entry p k
  rw [hpayload] at hsent hlive
  -- a key that was not accepted is not the last accepted key
  have hlast : d ≠ .acceptTheirs →
      (acceptedKeys req.decision i (conflictKeys entry p)).getLast? ≠ some k := by
    intro hne hlast
    have hmem := mem_of_getLast? hlast
    simp only [acceptedKeys, mem_filter, decide_eq_true_eq, hd, Option.some.injEq] at hmem
    exact hne hmem.2
  cases d with
  | keep =>
    rw [if_neg (hlast (by simp))] at hattr
    simp [Honours, Honourable, sent_iff hcalls hslot, hsent, hout.attributes_eq, hlive, hattr,
      resolvedValue]
  | acceptTheirs =>
    simp only [Honours, Honourable, notSent_iff hcalls hslot, hsent, hout.attributes_eq, hlive,
      resolvedValue, hattr]
    by_cases hl : (acceptedKeys req.decision i (conflictKeys entry p)).getLast? = some k
    · simp [hl]
    · simp [hl, hne.symm]
  | merge merged =>
    rw [if_neg (hlast (by simp))] at hattr
    simp only [Honours, Honourable, sent_iff hcalls hslot, hsent, hout.attributes_eq, hlive,
      resolvedValue, hattr]
    constructor
    · rintro ⟨⟨hsome, -⟩, rfl, -⟩
      exact ⟨rfl, hsome⟩
    · rintro ⟨rfl, hsome⟩
      simp [hsome]

/-- After a push that was persisted, the decisions on the conflicting keys of a class have been
carried out exactly when the class has no conflicts, or its edit was not taken back as a whole, at
most one key was accepted from the server, no key that is kept is absent on our side, and every merge gave our own
value, which is there. -/
theorem decisions_honoured_iff (hwrote : (pushBrownfieldControl env req file w).wrote = true)
    (hfetch : fetchLive env req = .ok (live, stale)) (hi : file.classes[i]? = some entry)
    (hp : entry.pendingEdit = some p)
    (hdecided : ∀ k ∈ conflictKeys (refresh live req.freshPlatformAttrs entry) p,
      decisionFor req.decision i k ≠ none) :
    (∀ k ∈ conflictKeys (refresh live req.freshPlatformAttrs entry) p,
      ∀ d, decisionFor req.decision i k = some d →
        ∃ after, (pushBrownfieldControl env req file w).world.disk.classes[i]? = some after ∧
          Honours (pushBrownfieldControl env req file w) i k (entry.attributes.get? k)
            ((freshAttributes live req.freshPlatformAttrs entry.classId).get? k) after d) ↔
      conflictKeys (refresh live req.freshPlatformAttrs entry) p = [] ∨
      (allRevertedToPrevious entry.attributes p = false ∧
        (acceptedKeys req.decision i
          (conflictKeys (refresh live req.freshPlatformAttrs entry) p)).length ≤ 1 ∧
        ∀ k ∈ conflictKeys (refresh live req.freshPlatformAttrs entry) p,
          (decisionFor req.decision i k = some .keep → entry.attributes.get? k ≠ none) ∧
          ∀ merged, decisionFor req.decision i k = some (.merge merged) →
            merged = entry.attributes.get? k ∧ entry.attributes.get? k ≠ none) := by
  obtain ⟨slots, slot, hcalls, hslot, hdisk, hcase⟩ := exists_slot_of_wrote hwrote hfetch hi
  have hattributes : (refresh live req.freshPlatformAttrs entry).attributes = entry.attributes :=
    refresh_attributes
  have hlive : liveOf (refresh live req.freshPlatformAttrs entry) =
      freshAttributes live req.freshPlatformAttrs entry.classId := liveOf_refresh hp
  have hp' : (refresh live req.freshPlatformAttrs entry).pendingEdit = some p := by
    rw [refresh_pendingEdit, hp]
  rw [← hattributes, ← hlive]
  generalize refresh live req.freshPlatformAttrs entry = e at hcase hp' hdecided ⊢
  rw [hdisk]
  cases hreverts : allRevertedToPrevious e.attributes p with
  | true =>
    -- the class was reverted: no decision was looked at
    have hslot_eq := hcase.eq_of_reverted hp' hreverts
    constructor
    · intro h
      by_contra hcond
      rw [not_or] at hcond
      obtain ⟨k, hk⟩ := exists_mem_of_ne_nil _ hcond.1
      obtain ⟨d, hd⟩ := Option.ne_none_iff_exists'.mp (hdecided k hk)
      obtain ⟨after, hafter, hhonour⟩ := h k hk d hd
      cases hafter
      have hne : (liveOf e).get? k ≠ e.attributes.get? k := (mem_conflictKeys.mp hk).2.2.2.1
      have hlive' : (liveOf (finishSlot env slot)).get? k = (liveOf e).get? k := by
        rw [hslot_eq]
        rfl
      have hattr' : (finishSlot env slot).attributes.get? k = e.attributes.get? k := by
        rw [hslot_eq]
        rfl
      cases d with
      | keep => exact hne (hlive'.symm.trans hhonour.2.2)
      | acceptTheirs => exact hne (hhonour.2.1.symm.trans hattr')
      | merge merged =>
        exact hne (hlive'.symm.trans (hhonour.2.2.trans (hhonour.2.1.symm.trans hattr')))
    · rintro (hnil | ⟨hfalse, -⟩)
      · simp [hnil]
      · cases hfalse
  | false =>
    have hout := hcase.resolvedOutcome hp' hreverts
    have hiff : ∀ k ∈ conflictKeys e p, ∀ d, decisionFor req.decision i k = some d →
        ((∃ after, some (finishSlot env slot) = some after ∧
          Honours (pushBrownfieldControl env req file w) i k (e.attributes.get? k)
            ((liveOf e).get? k) after d) ↔
          Honourable (acceptedKeys req.decision i (conflictKeys e p)) k (e.attributes.get? k) d) := by
      intro k hk d hd
      rw [← honours_iff_of_resolved hcalls hslot hout hk hd]
      simp
    rw [length_acceptedKeys_le_one_iff]
    constructor
    · intro h
      refine .inr ⟨rfl, ?_, ?_⟩
      · intro k hk
        obtain ⟨hk, hd⟩ := mem_filter.mp hk
        have hd := of_decide_eq_true hd
        exact (hiff k hk _ hd).mp (h k hk _ hd)
      · exact fun k hk => ⟨fun hd => (hiff k hk _ hd).mp (h k hk _ hd),
          fun merged hd => (hiff k hk _ hd).mp (h k hk _ hd)⟩
    · intro hcond k hk d hd
      apply (hiff k hk d hd).mpr
      have hcond := hcond.resolve_left (ne_nil_of_mem hk)
      cases d with
      | keep => exact (hcond.2.2 k hk).1 hd
      | acceptTheirs =>
        exact hcond.2.1 k (mem_filter.mpr ⟨hk, decide_eq_true hd⟩)
      | merge merged => exact (hcond.2.2 k hk).2 merged hd

/-- An accepted conflict next to a key that is sent. -/
theorem decisions_honoured_accept_one :
    ∃ after, (conflictPush .acceptTheirs).world.disk.classes[0]? = some after ∧
      Honours (conflictPush .acceptTheirs) 0 "a" (conflictEntry.attributes.get? "a")
        ((freshAttributes (liveByClass conflictPlatform.rows) ∅ "class").get? "a") after
        .acceptTheirs := by
  have hwrote : (conflictPush .acceptTheirs).wrote = true := by decide +kernel
  have hfetch : fetchLive (environment conflictPlatform [])
      (request .cancel [] [("0.a", .acceptTheirs)]) =
        .ok (liveByClass conflictPlatform.rows, false) := rfl
  have hi : conflictFile.classes[0]? = some conflictEntry := rfl
  have hkeys : conflictKeys (refresh (liveByClass conflictPlatform.rows) ∅ conflictEntry)
      ⟨.operator, 0, numbers [("a", 1), ("b", 1)], none⟩ = ["a"] := by decide +kernel
  have hd : decisionFor (request .cancel [] [("0.a", .acceptTheirs)]).decision 0 "a" =
      some .acceptTheirs := by decide +kernel
  refine (decisions_honoured_iff hwrote hfetch hi rfl ?_).mpr (.inr ⟨?_, ?_, ?_⟩) "a"
    (hkeys.symm ▸ mem_singleton_self _) .acceptTheirs hd
  · intro k hk
    obtain rfl := mem_singleton.mp (hkeys ▸ hk)
    rw [hd]
    exact Option.some_ne_none _
  · decide +kernel
  · decide +kernel
  · intro k hk
    obtain rfl := mem_singleton.mp (hkeys ▸ hk)
    rw [hd]
    exact ⟨nofun, nofun⟩

/-- Two conflicts, both accepted from the server: the first of them keeps our value locally, with
the server's beside it. -/
theorem first_acceptance_lost :
    let entry := editedEntry "class" [("a", 2), ("b", 2)] [("a", 1), ("b", 1)] [("a", 1), ("b", 1)]
    let platform := platformOf [("class", [("a", 3), ("b", 3)])]
    let req := request .cancel [] [("0.a", .acceptTheirs), ("0.b", .acceptTheirs)]
    let r := pushBrownfieldControl (environment platform []) req (brownfieldFile [entry])
      ⟨platform, brownfieldFile [entry], []⟩
    r.wrote = true ∧
      "a" ∈ conflictKeys (refresh (liveByClass platform.rows) ∅ entry)
        ⟨.operator, 0, numbers [("a", 1), ("b", 1)], none⟩ ∧
      decisionFor req.decision 0 "a" = some .acceptTheirs ∧
      ∀ after, r.world.disk.classes[0]? = some after →
        ¬ Honours r 0 "a" (some (.value 2)) (some (.value 3)) after .acceptTheirs := by
  refine ⟨by decide +kernel, by decide +kernel, by decide +kernel, ?_⟩
  intro after hafter hhonours
  have hlocal : (pushBrownfieldControl
      (environment (platformOf [("class", [("a", 3), ("b", 3)])]) [])
      (request .cancel [] [("0.a", .acceptTheirs), ("0.b", .acceptTheirs)])
      (brownfieldFile [conflictEntry])
      ⟨platformOf [("class", [("a", 3), ("b", 3)])], brownfieldFile [conflictEntry], []⟩
      ).world.disk.classes[0]?.bind (fun e => e.attributes.get? "a") = some (.value 2) := by
    decide +kernel
  have hafter' := hafter
  simp only [conflictEntry] at hlocal
  rw [hafter'] at hlocal
  have hlive := hhonours.2.1
  simp only [Option.bind_some] at hlocal
  rw [hlive] at hlocal
  revert hlocal
  decide

end ControlLibrary.Brownfield
