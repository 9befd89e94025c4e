import Dethernety.ControlLibrary.BrownfieldProgress

/-!
# Failed pushes and retries

A push that fails leaves the file and the audit log as they were, but the platform may have merged
the payload of some classes already. The retry plans again from scratch against that half-updated
platform. It ends where a push without failures would have ended if every key that may be sent
twice is sent the same way the second time; the definitions below work that out key by key, then
for a class, then for the whole push.
-/

open List
open Option (ext getD_some isSome_iff_exists map_some some some_or)

namespace ControlLibrary.Brownfield

variable {J : Type*} [DecidableEq J]

/-! ## One key -/

section

variable {decision : BrownfieldDecision J} {i : ℕ} {a b : ControlFileClassEntry J}
  {p : PendingEditBlock J} {k : String} {v : Option (JsonValue J)}

/-- Sending the key again, after a push that has reached the platform, does no harm: the value is
not `null`, which would remove the key from the platform and block the retry, and a merged value
is not the one from before the edit, which the retry would take for a platform that has not
changed. -/
def RetrySafe (decision : BrownfieldDecision J) (classIdx : ℕ) (entry : ControlFileClassEntry J)
    (p : PendingEditBlock J) (k : String) : Prop :=
  if IsConflict entry.attributes (liveOf entry) p k then
    match decisionFor decision classIdx k with
    | some .keep => entry.attributes.get? k ≠ some .null
    | some (.merge merged) => merged ≠ some .null ∧
        (merged = p.previousAttributes.get? k →
          merged = entry.attributes.get? k ∨ entry.attributes.get? k = none)
    | some .acceptTheirs => True
    | none => True
  else Sends entry.attributes (liveOf entry) p k → entry.attributes.get? k ≠ some .null

/-- Where a value that is sent comes from. -/
lemma resolvedPayload_eq_some_iff :
    resolvedPayload decision i a p k = some v ↔
      k ∈ changedKeys p ∧ Sends a.attributes (liveOf a) p k ∧
        (¬ IsConflict a.attributes (liveOf a) p k ∧ v = a.attributes.get? k ∨ IsConflict a.attributes (liveOf a) p k ∧
            (decisionFor decision i k = some .keep ∧ v = a.attributes.get? k ∨
              decisionFor decision i k = some (.merge v))) := by
  unfold resolvedPayload
  by_cases hsend : k ∈ changedKeys p ∧ Sends a.attributes (liveOf a) p k
  · rw [if_pos hsend]
    by_cases hconflict : IsConflict a.attributes (liveOf a) p k
    · rw [if_pos hconflict]
      cases hd : decisionFor decision i k with
      | none => simp [hconflict]
      | some d => cases d <;> simp [hconflict, hsend, resolvedValue, eq_comm]
    · rw [if_neg hconflict]
      simp [hconflict, hsend, eq_comm]
  · rw [if_neg hsend]
    simp only [reduceCtorEq, false_iff]
    rintro ⟨hk, hs, -⟩
    exact hsend ⟨hk, hs⟩

lemma retrySafe_iff (hk : k ∈ changedKeys p) :
    RetrySafe decision i a p k ↔
      ∀ v, resolvedPayload decision i a p k = some v → v ≠ some .null ∧ (v = p.previousAttributes.get? k →
          v = a.attributes.get? k ∨ a.attributes.get? k = none) := by
  unfold RetrySafe
  simp only [resolvedPayload_eq_some_iff]
  by_cases hconflict : IsConflict a.attributes (liveOf a) p k
  · rw [if_pos hconflict]
    cases hd : decisionFor decision i k with
    | none => simp [hconflict]
    | some d => cases d <;> simp +contextual [hk, hconflict, hconflict.sends]
  · rw [if_neg hconflict]
    by_cases hsend : Sends a.attributes (liveOf a) p k
    · simp [hk, hconflict, hsend]
    · simp [hsend]

omit [DecidableEq J] in
lemma stored_stored (x v : Option (JsonValue J)) : stored (stored x v) v = stored x v := by
  match v with
  | none | some .null | some (.value v) => rfl

lemma resolvedPayload_congr (hattr : b.attributes = a.attributes) (hlive : (liveOf b).get? k = (liveOf a).get? k) :
    resolvedPayload decision i b p k = resolvedPayload decision i a p k := by
  apply ext
  intro v
  simp only [resolvedPayload_eq_some_iff, Sends, IsConflict, hattr, hlive]

/-- A key of two states of a class, `a` before the failed push and `b` before the retry: the retry
treats it as the push did, or finds it done. -/
structure RetriesAlike (decision : BrownfieldDecision J) (i : ℕ) (a b : ControlFileClassEntry J)
    (p : PendingEditBlock J) (k : String) : Prop where
  unblocked : ¬ IsBlocked (liveOf b) p k
  conflict_of_conflict : IsConflict b.attributes (liveOf b) p k →
    IsConflict a.attributes (liveOf a) p k
  conflict_of_accepted : decisionFor decision i k = some .acceptTheirs →
    IsConflict a.attributes (liveOf a) p k →
      IsConflict b.attributes (liveOf b) p k ∧ (liveOf b).get? k = (liveOf a).get? k
  stored_eq : stored ((liveOf b).get? k) ((resolvedPayload decision i b p k).getD none) =
    stored ((liveOf a).get? k) ((resolvedPayload decision i a p k).getD none)
  live_eq : (if (resolvedPayload decision i b p k).isSome then a.attributes.get? k
      else (liveOf b).get? k) =
    if (resolvedPayload decision i a p k).isSome then a.attributes.get? k else (liveOf a).get? k

lemma retriesAlike_of_eq (hattr : b.attributes = a.attributes)
    (hlive : (liveOf b).get? k = (liveOf a).get? k) (hun : ¬ IsBlocked (liveOf a) p k) :
    RetriesAlike decision i a b p k := by
  have hpayload : resolvedPayload decision i b p k = resolvedPayload decision i a p k :=
    resolvedPayload_congr hattr hlive
  have hconflict : IsConflict b.attributes (liveOf b) p k ↔
      IsConflict a.attributes (liveOf a) p k := by
    simp [IsConflict, hattr, hlive]
  refine ⟨?_, hconflict.mp, fun _ h => ⟨hconflict.mpr h, hlive⟩, ?_, ?_⟩
  · simpa [IsBlocked, hlive] using hun
  all_goals rw [hpayload, hlive]

/-- The platform has merged what was sent for the key. -/
lemma retriesAlike_of_sent (hattr : b.attributes = a.attributes) (hk : k ∈ changedKeys p)
    (hun : ¬ IsBlocked (liveOf a) p k) (hsafe : k ∉ firstWrites p → RetrySafe decision i a p k)
    (hsent : resolvedPayload decision i a p k = some v) (hlive : (liveOf b).get? k = stored ((liveOf a).get? k) v) :
    RetriesAlike decision i a b p k := by
  obtain ⟨-, _, hwhence⟩ := resolvedPayload_eq_some_iff.mp hsent
  by_cases hfw : k ∈ firstWrites p
  · -- a first write is sent again as it was
    have hno : ∀ c : ControlFileClassEntry J, ¬ IsConflict c.attributes (liveOf c) p k :=
      fun c hc => hc.1 hfw
    have hv : v = a.attributes.get? k := by
      rcases hwhence with ⟨-, hv⟩ | ⟨hc, -⟩
      · exact hv
      · exact absurd hc (hno a)
    have hsent' : resolvedPayload decision i b p k = some v := by
      rw [resolvedPayload_eq_some_iff, hattr]
      refine ⟨hk, .inl hfw, .inl ⟨?_, hv⟩⟩
      rw [← hattr]
      exact hno b
    refine ⟨fun h => h.1 hfw, fun h => absurd h (hno b), fun _ h => absurd h (hno a), ?_, ?_⟩
    · rw [hsent, hsent', hlive, getD_some, stored_stored]
    · rw [hsent, hsent']
      rfl
  · have hsafe := (retrySafe_iff hk).mp (hsafe hfw) v hsent
    match v with
    | none => exact retriesAlike_of_eq hattr hlive hun
    | some .null => exact absurd rfl hsafe.1
    | some (.value x) =>
      have hlive : (liveOf b).get? k = some (.value x) := hlive
      have hunb : ¬ IsBlocked (liveOf b) p k := by simp [IsBlocked, hlive]
      by_cases hours : some (.value x) = a.attributes.get? k
      · -- the platform has our value now: already applied
        have hnone : resolvedPayload decision i b p k = none := by
          simp [resolvedPayload, Sends, hfw, hlive, hattr, hours]
        have hno : ¬ IsConflict b.attributes (liveOf b) p k := by
          simp [IsConflict, hlive, hattr, hours]
        refine ⟨hunb, fun h => absurd h hno, fun hd hc => ?_, ?_, ?_⟩
        · rcases hwhence with ⟨hnc, -⟩ | ⟨-, ⟨hd', -⟩ | hd'⟩
          · exact absurd hc hnc
          all_goals
            cases hd.symm.trans hd'
        · rw [hnone, hsent, hlive]
          rfl
        · simp [hnone, hsent, hlive, hours]
      · -- a merged value that is not ours
        obtain ⟨hconflict, hd⟩ : IsConflict a.attributes (liveOf a) p k ∧
            decisionFor decision i k = some (.merge (some (.value x))) := by
          rcases hwhence with ⟨-, hv⟩ | ⟨hc, ⟨-, hv⟩ | hd⟩
          · exact absurd hv hours
          · exact absurd hv hours
          · exact ⟨hc, hd⟩
        have hsends' : Sends b.attributes (liveOf b) p k := by
          right
          rw [hlive, hattr]
          exact ⟨by simp, hours⟩
        -- the retry either meets the conflict again, or has nothing of ours to send
        obtain ⟨v', hsent', hstored⟩ : ∃ v', resolvedPayload decision i b p k = some v' ∧
            stored (some (.value x)) v' = some (.value x) := by
          by_cases hprev : some (.value x) = p.previousAttributes.get? k
          · have hundef := (hsafe.2 hprev).resolve_left hours
            refine ⟨none, ?_, rfl⟩
            rw [resolvedPayload_eq_some_iff]
            refine ⟨hk, hsends', .inl ⟨?_, by rw [hattr, hundef]⟩⟩
            simp [IsConflict, hlive, hprev]
          · refine ⟨some (.value x), ?_, rfl⟩
            rw [resolvedPayload_eq_some_iff]
            refine ⟨hk, hsends', .inr ⟨⟨hfw, ?_, ?_, ?_⟩, .inr hd⟩⟩
            · simp [hlive]
            · rw [hlive, hattr]
              exact hours
            · rw [hlive]
              exact fun h => hprev h.symm
        refine ⟨hunb, fun _ => hconflict, fun hd' _ => ?_, ?_, ?_⟩
        · cases hd.symm.trans hd'
        · rw [hsent, hsent', hlive, getD_some, getD_some, hstored]
          rfl
        · simp [hsent, hsent']

end

/-! ## One class -/

/-- Equal but for the order of keys and the times. -/
structure SameEntry (a b : ControlFileClassEntry J) : Prop where
  binding_eq : binding a = binding b
  attributes : a.attributes.SameEntries b.attributes
  platformAttributes : ∀ k,
    a.platformAttributes.map (·.get? k) = b.platformAttributes.map (·.get? k)
  pendingEdit_eq : a.pendingEdit = b.pendingEdit

omit [DecidableEq J] in
lemma SameEntry.refl (a : ControlFileClassEntry J) : SameEntry a a :=
  ⟨rfl, fun _ => rfl, fun _ => rfl, rfl⟩

section

variable {decision : BrownfieldDecision J} {i : ℕ} {a b : ControlFileClassEntry J}
  {p : PendingEditBlock J} {k : String}

/-- `b` is the class `a` after a push that may have reached it on the platform. -/
structure Halfway (decision : BrownfieldDecision J) (i : ℕ) (a b : ControlFileClassEntry J)
    (p : PendingEditBlock J) : Prop where
  attributes_eq : b.attributes = a.attributes
  live_eq : (∀ k, (liveOf b).get? k = (liveOf a).get? k) ∨
    ∀ k, (liveOf b).get? k =
      stored ((liveOf a).get? k) ((resolvedPayload decision i a p k).getD none)

lemma Halfway.live_eq_of_eq_none (h : Halfway decision i a b p) (hnone : resolvedPayload decision i a p k = none) :
    (liveOf b).get? k = (liveOf a).get? k := by
  rcases h.live_eq with hlive | hlive
  · exact hlive k
  · rw [hlive k, hnone]
    rfl

lemma Halfway.retriesAlike (h : Halfway decision i a b p) (hadm : ClassAdmissible decision i a p)
    (hsafe : ∀ k ∈ changedKeys p, k ∉ firstWrites p → RetrySafe decision i a p k)
    (hk : k ∈ changedKeys p) : RetriesAlike decision i a b p k := by
  have hun := hadm.unblocked k hk
  cases hsent : resolvedPayload decision i a p k with
  | none => exact retriesAlike_of_eq h.attributes_eq (h.live_eq_of_eq_none hsent) hun
  | some v =>
    rcases h.live_eq with hlive | hlive
    · exact retriesAlike_of_eq h.attributes_eq (hlive k) hun
    · apply retriesAlike_of_sent h.attributes_eq hk hun (hsafe k hk) hsent
      rw [hlive k, hsent]
      rfl

variable (h : Halfway decision i a b p) (hadm : ClassAdmissible decision i a p)
  (hsafe : ∀ k ∈ changedKeys p, k ∉ firstWrites p → RetrySafe decision i a p k)

include h hadm hsafe

lemma Halfway.classAdmissible : ClassAdmissible decision i b p := by
  refine ⟨fun k hk => (h.retriesAlike hadm hsafe hk).unblocked, fun k hk => ?_⟩
  obtain ⟨hchanged, hconflict⟩ := mem_conflictKeys.mp hk
  exact hadm.decided k (mem_conflictKeys.mpr
    ⟨hchanged, (h.retriesAlike hadm hsafe hchanged).conflict_of_conflict hconflict⟩)

lemma Halfway.acceptedKeys_eq :
    acceptedKeys decision i (conflictKeys b p) = acceptedKeys decision i (conflictKeys a p) := by
  unfold acceptedKeys conflictKeys
  rw [scanKeys_conflictKeys, scanKeys_conflictKeys, filter_filter, filter_filter]
  refine filter_congr fun k hk => ?_
  have hkey := h.retriesAlike hadm hsafe hk
  by_cases hd : decisionFor decision i k = some .acceptTheirs
  · have hiff : IsConflict b.attributes (liveOf b) p k ↔ IsConflict a.attributes (liveOf a) p k :=
      ⟨hkey.conflict_of_conflict, fun hc => (hkey.conflict_of_accepted hd hc).1⟩
    simp [hiff]
  · simp [hd]

lemma Halfway.get?_resolvedEntry_eq (k : String) :
    (resolvedEntry decision i b p).attributes.get? k =
      (resolvedEntry decision i a p).attributes.get? k := by
  rw [get?_resolvedEntry, get?_resolvedEntry, h.acceptedKeys_eq hadm hsafe, h.attributes_eq]
  by_cases hlast : (acceptedKeys decision i (conflictKeys a p)).getLast? = some k
  · obtain ⟨hmem, hd⟩ := mem_filter.mp (mem_of_getLast? hlast)
    obtain ⟨hk, hconflict⟩ := mem_conflictKeys.mp hmem
    have hlive := ((h.retriesAlike hadm hsafe hk).conflict_of_accepted
      (of_decide_eq_true hd) hconflict).2
    rw [if_pos hlast, if_pos hlast, hlive]
  · rw [if_neg hlast, if_neg hlast]

lemma Halfway.stored_eq (k : String) :
    stored ((liveOf b).get? k) ((resolvedPayload decision i b p k).getD none) =
      stored ((liveOf a).get? k) ((resolvedPayload decision i a p k).getD none) := by
  by_cases hk : k ∈ changedKeys p
  · exact (h.retriesAlike hadm hsafe hk).stored_eq
  · have hnone : ∀ c : ControlFileClassEntry J, resolvedPayload decision i c p k = none :=
      fun c => if_neg fun hsend => hk hsend.1
    rw [hnone a, hnone b, h.live_eq_of_eq_none (hnone a)]

omit h hadm hsafe in
lemma get?_resolvedEntry_of_sent (hsent : (resolvedPayload decision i a p k).isSome) :
    (resolvedEntry decision i a p).attributes.get? k = a.attributes.get? k := by
  rw [get?_resolvedEntry, if_neg]
  intro hlast
  obtain ⟨v, hv⟩ := isSome_iff_exists.mp hsent
  obtain ⟨hmem, hd⟩ := mem_filter.mp (mem_of_getLast? hlast)
  have hd := of_decide_eq_true hd
  rcases (resolvedPayload_eq_some_iff.mp hv).2.2 with ⟨hno, -⟩ | ⟨-, ⟨hd', -⟩ | hd'⟩
  · exact hno (mem_conflictKeys.mp hmem).2
  all_goals
    cases hd.symm.trans hd'

/-- The retry leaves the entry that the push would have left. -/
lemma Halfway.sameEntry {env env' : Environment J} {slot slot' : Slot J (ResolvedPlan J)}
    (hbinding : binding b = binding a) (hp : a.pendingEdit = some p) (hp' : b.pendingEdit = some p)
    (hr : allRevertedToPrevious a.attributes p = false)
    (ha : a.platformAttributes = some (liveOf a)) (hb : b.platformAttributes = some (liveOf b))
    (hslot : SlotCase env decision i a slot) (hslot' : SlotCase env' decision i b slot') :
    SameEntry (finishSlot env' slot') (finishSlot env slot) := by
  have hout := hslot.resolvedOutcome hp hr
  have hout' := hslot'.resolvedOutcome hp' (by rw [h.attributes_eq]; exact hr)
  refine ⟨?_, fun k => ?_, fun k => ?_, ?_⟩
  · rw [binding_finishSlot, binding_finishSlot, hslot.binding_eq, hslot'.binding_eq, hbinding]
  · rw [hout.attributes_eq, hout'.attributes_eq]
    exact h.get?_resolvedEntry_eq hadm hsafe k
  · rw [hslot.platformAttributes_eq ha, hslot'.platformAttributes_eq hb, map_some,
      map_some, hout.live_eq, hout'.live_eq]
    congr 1
    -- where a value was sent it is our own on both sides
    have hours : ∀ c : ControlFileClassEntry J, c.attributes = a.attributes →
        (if (resolvedPayload decision i c p k).isSome then
          (resolvedEntry decision i c p).attributes.get? k else (liveOf c).get? k) =
        if (resolvedPayload decision i c p k).isSome then a.attributes.get? k
        else (liveOf c).get? k := by
      intro c hc
      by_cases hsent : (resolvedPayload decision i c p k).isSome
      · rw [if_pos hsent, if_pos hsent, get?_resolvedEntry_of_sent hsent, hc]
      · rw [if_neg hsent, if_neg hsent]
    rw [hours b h.attributes_eq, hours a rfl]
    by_cases hk : k ∈ changedKeys p
    · exact (h.retriesAlike hadm hsafe hk).live_eq
    · have hnone : ∀ c : ControlFileClassEntry J, resolvedPayload decision i c p k = none :=
        fun c => if_neg fun hsend => hk hsend.1
      rw [hnone a, hnone b, h.live_eq_of_eq_none (hnone a)]
  · rw [hslot.pendingEdit_eq, hslot'.pendingEdit_eq]

end

/-! ## What a push depends on -/

section

variable {env : Environment J} {req : PushRequest J} {file : ControlFile J} {w : World J}
  {live live' fresh : Record String (Attributes J)} {stale : Bool}
  {classified : List (Classified J)} {slots : List (Slot J (ResolvedPlan J))} {i : ℕ}
  {entry : ControlFileClassEntry J} {slot : Slot J (ResolvedPlan J)} {platform : Platform J}
  {decision : BrownfieldDecision J}

/-- What Step B compares with, if it does not throw, is what the platform has. -/
def Environment.Shows (env : Environment J) (req : PushRequest J) (platform : Platform J) : Prop :=
  ∀ live stale, fetchLive env req = .ok (live, stale) →
    ∀ classId, live.get? classId = platform.get? classId

/-- Nothing fails: the re-fetch answers, every mutation is merged, and the process lives. -/
structure Environment.Undisturbed (env : Environment J) (platform : Platform J) : Prop where
  fetched_eq : env.fetched = .ok platform.rows
  answers_eq : ∀ a ∈ env.answers, a = .merged
  lives : env.diesBeforeWrite = false

def ClassSends (decision : BrownfieldDecision J) (classIdx : ℕ) (entry : ControlFileClassEntry J) :
    Prop :=
  ∃ p k, entry.pendingEdit = some p ∧ allRevertedToPrevious entry.attributes p = false ∧
    resolvedPayload decision classIdx entry p k ≠ none

def PushSends (req : PushRequest J) (file : ControlFile J) (platform : Platform J) : Prop :=
  ∃ (i : ℕ) (entry : ControlFileClassEntry J), file.classes[i]? = some entry ∧
    ClassSends req.decision i (refresh platform req.freshPlatformAttrs entry)

omit [DecidableEq J] in
lemma shows_of_fetched (h : env.fetched = .ok platform.rows) (req : PushRequest J) : env.Shows req platform := by
  intro live stale hfetch classId
  simp only [fetchLive, h, Except.ok.injEq, Prod.mk.injEq] at hfetch
  rw [← hfetch.1, get?_liveByClass_rows]

omit [DecidableEq J] in
lemma Environment.Undisturbed.shows (h : env.Undisturbed platform) (req : PushRequest J) : env.Shows req platform :=
  shows_of_fetched h.fetched_eq req

omit [DecidableEq J] in
lemma Environment.Undisturbed.fetchLive_eq (h : env.Undisturbed platform) (req : PushRequest J) :
    fetchLive env req = .ok (liveByClass platform.rows, false) := by
  simp [fetchLive, h.fetched_eq]

omit [DecidableEq J] in
lemma refresh_congr (h : live.get? entry.classId = live'.get? entry.classId) :
    refresh live fresh entry = refresh live' fresh entry := by
  simp [refresh, freshAttributes, h]

lemma Admissible.congr (h : Admissible req file live)
    (hlive : ∀ classId, live.get? classId = live'.get? classId) : Admissible req file live' := by
  refine ⟨h.brownfield, h.no_externalEdit, ?_⟩
  intro i e p hi hp hr
  rw [← refresh_congr (hlive e.classId)]
  exact h.classes i e p hi hp hr

lemma Reached.slotCase_of_shows (h : Reached env req file live stale classified slots)
    (hshows : env.Shows req platform) (hi : file.classes[i]? = some entry) (hslot : slots[i]? = some slot) :
    SlotCase env req.decision i (refresh platform req.freshPlatformAttrs entry) slot := by
  obtain ⟨slot', hslot', hcase⟩ := h.slotCase hi
  cases hslot.symm.trans hslot'
  rw [← refresh_congr (hshows live stale h.fetched entry.classId)]
  exact hcase

lemma SlotCase.plan_ne_none_iff (h : SlotCase env decision i entry slot) :
    slot.plan ≠ none ↔ ClassSends decision i entry := by
  constructor
  · intro hplan
    cases h with
    | untouched pending slot_eq | reverted pending reverts slot_eq
    | alreadyApplied _ _ slot_eq => simp [slot_eq] at hplan
    | @sent p _ edit _ payload nonempty =>
      obtain ⟨k, hk⟩ := exists_mem_of_ne_nil _ nonempty
      refine ⟨p, k, edit.pending, edit.reverts, ?_⟩
      rw [← payload k]
      exact fun hnone => Record.notMem_keys_iff.mpr hnone hk
    | allAccepted _ _ _ slot_eq => simp [slot_eq] at hplan
  · rintro ⟨p, k, hp, hr, hsent⟩ hplan
    have hout := h.resolvedOutcome hp hr
    rw [← hout.sentFor_eq k, sentFor, hplan] at hsent
    exact hsent rfl

lemma SlotCase.sentFor_eq_none (h : SlotCase env decision i entry slot)
    (hno : ∀ p, entry.pendingEdit = some p → allRevertedToPrevious entry.attributes p = true)
    (k : String) : sentFor slot k = none := by
  have hplan : slot.plan = none := by
    by_contra hsome
    obtain ⟨p, k, hp, hr, -⟩ := h.plan_ne_none_iff.mp hsome
    rw [hno p hp] at hr
    cases hr
  simp [sentFor, hplan]

lemma Reached.plannedCalls_ne_nil_iff (h : Reached env req file live stale classified slots)
    (hshows : env.Shows req platform) : plannedCalls 0 slots ≠ [] ↔ PushSends req file platform := by
  rw [ne_eq, plannedCalls_eq_nil_iff]
  constructor
  · intro hsome
    obtain ⟨slot, hslot, hplan⟩ : ∃ slot ∈ slots, slot.plan ≠ none := by
      by_contra hno
      exact hsome fun slot hslot => by_contra fun hplan => hno ⟨slot, hslot, hplan⟩
    obtain ⟨i, hi⟩ := mem_iff_getElem?.mp hslot
    obtain ⟨entry, hentry⟩ := h.exists_entry hi
    exact ⟨i, entry, hentry, (h.slotCase_of_shows hshows hentry hi).plan_ne_none_iff.mp hplan⟩
  · rintro ⟨i, entry, hentry, hsends⟩ hnone
    obtain ⟨slot, hslot, -⟩ := h.slotCase hentry
    exact (h.slotCase_of_shows hshows hentry hslot).plan_ne_none_iff.mpr hsends
      (hnone slot (mem_of_getElem? hslot))

/-- With an edge to every class that is to be pushed, a class with something to send has a bag. -/
lemma Reached.exists_bag (h : Reached env req file live stale classified slots) (hshows : env.Shows req platform)
    (hedges : ∀ call ∈ plannedCalls 0 slots, (platform.get? call.classId).isSome) (hi : file.classes[i]? = some entry)
    (hsends : ClassSends req.decision i (refresh platform req.freshPlatformAttrs entry)) :
    ∃ bag, platform.get? entry.classId = some bag := by
  obtain ⟨slot, hslot, -⟩ := h.slotCase hi
  obtain ⟨plan, hplan⟩ := Option.ne_none_iff_exists'.mp
    ((h.slotCase_of_shows hshows hi hslot).plan_ne_none_iff.mpr hsends)
  have hedge := hedges _ (mem_plannedCalls.mpr ⟨i, slot, plan, hslot, hplan, rfl⟩)
  rw [h.classId_eq hi hslot] at hedge
  exact isSome_iff_exists.mp hedge

lemma stepF_calls_ne_nil {kind : Option AuditKind} {n : ℕ} {answers : List Answer} (h : plannedCalls n slots ≠ []) :
    (stepF env req file kind n slots answers platform).calls ≠ [] := by
  induction slots generalizing n with
  | nil => exact absurd rfl h
  | cons slot slots ih =>
    cases hplan : slot.plan with
    | none =>
      simp only [plannedCalls, hplan] at h
      simp only [stepF, hplan]
      exact ih h
    | some plan =>
      simp only [stepF, hplan]
      cases answers.headD .merged with
      | merged =>
        dsimp only
        split <;> simp
      | _ => simp

/-- A push has an effect exactly when it is admissible, not at rest, and has the consent of Step E
for what it sends. -/
structure TakesEffect (req : PushRequest J) (file : ControlFile J) (platform : Platform J) :
    Prop where
  admissible : Admissible req file platform
  not_shortCircuits : shortCircuits file = false
  proceeds : PushSends req file platform → ∃ kind, stepE req = .proceed kind

lemma takesEffect_of_effect (hshows : env.Shows req w.platform)
    (h : (pushBrownfieldControl env req file w).calls ≠ [] ∨ (pushBrownfieldControl env req file w).wrote = true) :
    TakesEffect req file w.platform := by
  have hcase := push_cases env req file w
  cases hcase with
  | noEffect world_eq calls_eq wrote_eq => simp [calls_eq, wrote_eq] at h
  | settled reached nothing =>
    refine ⟨reached.admissible.congr (hshows _ _ reached.fetched), reached.not_shortCircuits, ?_⟩
    intro hsends
    exact absurd (plannedCalls_eq_nil_iff.mpr nothing)
      ((reached.plannedCalls_ne_nil_iff hshows).mpr hsends)
  | failed reached proceeds calls_initial applied_initial wrote_eq world_eq
  | mutated reached proceeds =>
    exact ⟨reached.admissible.congr (hshows _ _ reached.fetched), reached.not_shortCircuits,
      fun _ => ⟨_, proceeds⟩⟩

lemma TakesEffect.exists_reached (h : TakesEffect req file platform)
    (hfetch : fetchLive env req = .ok (live, stale)) (hshows : env.Shows req platform) :
    ∃ classified slots, Reached env req file live stale classified slots :=
  (h.admissible.congr fun classId => (hshows live stale hfetch classId).symm).exists_reached
    h.not_shortCircuits hfetch

lemma TakesEffect.effect (h : TakesEffect req file w.platform) (henv : env.Undisturbed w.platform) :
    (pushBrownfieldControl env req file w).calls ≠ [] ∨ (pushBrownfieldControl env req file w).wrote = true := by
  have hshows := henv.shows req
  obtain ⟨classified, slots, hreached⟩ := h.exists_reached (henv.fetchLive_eq req) hshows
  have hplan := planPush_of_reached hreached
  by_cases hnil : plannedCalls 0 slots = []
  · rw [if_pos (all_plan_isNone_iff.mpr hnil)] at hplan
    exact .inr (by simp [pushBrownfieldControl, hplan, henv.lives])
  · obtain ⟨kind, hkind⟩ := h.proceeds ((hreached.plannedCalls_ne_nil_iff hshows).mp hnil)
    rw [if_neg (mt all_plan_isNone_iff.mp hnil), hkind] at hplan
    left
    have hcalls : (pushBrownfieldControl env req file w).calls =
        (stepF env req file kind 0 slots env.answers w.platform).calls := by
      simp only [pushBrownfieldControl, hplan, henv.lives]
      split <;> rfl
    rw [hcalls]
    exact stepF_calls_ne_nil hnil

end

/-! ## The half-updated platform -/

section

variable {env env' : Environment J} {req : PushRequest J} {file : ControlFile J}
  {live : Record String (Attributes J)} {stale : Bool} {classified : List (Classified J)}
  {slots : List (Slot J (ResolvedPlan J))} {i : ℕ} {entry : ControlFileClassEntry J}
  {p : PendingEditBlock J} {platform platform' : Platform J}

/-- `platform'` has merged the payloads of some classes of the file. -/
structure HalfUpdated (req : PushRequest J) (file : ControlFile J)
    (platform platform' : Platform J) : Prop where
  edges : ∀ classId, (platform'.get? classId).isSome = (platform.get? classId).isSome
  others : ∀ classId, (∀ e ∈ file.classes, e.classId ≠ classId) →
    platform'.get? classId = platform.get? classId
  classes : ∀ (i : ℕ) entry, file.classes[i]? = some entry →
    platform'.get? entry.classId = platform.get? entry.classId ∨
    ∃ p, entry.pendingEdit = some p ∧ allRevertedToPrevious entry.attributes p = false ∧
      ∀ k, (platform'.get? entry.classId).map (·.get? k) =
        (platform.get? entry.classId).map fun bag => stored (bag.get? k)
          ((resolvedPayload req.decision i (refresh platform req.freshPlatformAttrs entry) p k).getD
            none)

lemma HalfUpdated.refl (req : PushRequest J) (file : ControlFile J)
    (platform : Platform J) : HalfUpdated req file platform platform :=
  ⟨fun _ => rfl, fun _ _ => rfl, fun _ _ _ => .inl rfl⟩

lemma Reached.halfUpdated (h : Reached env req file live stale classified slots)
    (hshows : env.Shows req platform) (hone : file.OneEntryPerClass) {applied : List (Call J)}
    (hinitial : applied <+: plannedCalls 0 slots) : HalfUpdated req file platform (applyCalls applied platform) := by
  refine ⟨isSome_get?_applyCalls applied platform, ?_, ?_⟩
  · intro classId hother
    refine get?_applyCalls_of_notMem fun call hcall hid => ?_
    obtain ⟨j, slot, plan, hj, -, rfl⟩ := mem_plannedCalls.mp (hinitial.subset hcall)
    obtain ⟨entry, hentry⟩ := h.exists_entry hj
    exact hother entry (mem_of_getElem? hentry) ((h.classId_eq hentry hj).symm.trans hid)
  · intro i entry hi
    obtain ⟨slot, hslot, -⟩ := h.slotCase hi
    have hcase := h.slotCase_of_shows hshows hi hslot
    rcases h.get?_applyCalls hone hi hslot hinitial platform with heq | ⟨plan, hplan, hget⟩
    · exact .inl heq
    · obtain ⟨p, k, hp, hr, -⟩ := hcase.plan_ne_none_iff.mp (by simp [hplan])
      have hout := hcase.resolvedOutcome hp hr
      refine .inr ⟨p, by simpa using hp, by simpa using hr, fun k => ?_⟩
      rw [hget, Option.map_map]
      congr 1
      funext bag
      rw [← hout.sentFor_eq k, sentFor, hplan]
      exact get?_mergeAttributes bag plan.outboundPayload k

variable (h : HalfUpdated req file platform platform') (hi : file.classes[i]? = some entry)

include h hi

lemma HalfUpdated.get?_eq (hno : ∀ p, entry.pendingEdit = some p → allRevertedToPrevious entry.attributes p = true) :
    platform'.get? entry.classId = platform.get? entry.classId := by
  rcases h.classes i entry hi with heq | ⟨p, hp, hr, -⟩
  · exact heq
  · rw [hno p hp] at hr
    cases hr

lemma HalfUpdated.refresh_eq
    (hno : ∀ p, entry.pendingEdit = some p → allRevertedToPrevious entry.attributes p = true) :
    refresh platform' req.freshPlatformAttrs entry = refresh platform req.freshPlatformAttrs entry :=
  refresh_congr (h.get?_eq hi hno)

lemma HalfUpdated.halfway (hp : entry.pendingEdit = some p) :
    Halfway req.decision i (refresh platform req.freshPlatformAttrs entry)
      (refresh platform' req.freshPlatformAttrs entry) p := by
  refine ⟨by simp, ?_⟩
  rcases h.classes i entry hi with heq | ⟨q, hq, -, hmerged⟩
  · exact .inl fun k => by rw [refresh_congr heq]
  · cases hp.symm.trans hq
    rw [liveOf_refresh hp, liveOf_refresh hp]
    cases hbag : platform.get? entry.classId with
    | none =>
      -- there is no edge, so there was nothing to merge into
      have hnone : platform'.get? entry.classId = none := by
        rw [← Option.not_isSome_iff_eq_none, h.edges, hbag]
        simp
      left
      intro k
      rw [freshAttributes, freshAttributes, hbag, hnone]
    | some bag =>
      right
      intro k
      have hk := hmerged k
      rw [hbag] at hk
      obtain ⟨bag', hbag', hget⟩ := Option.map_eq_some_iff.mp hk
      simp only [freshAttributes, hbag, hbag', some_or, getD_some]
      exact hget

lemma HalfUpdated.classSends (hsends : ClassSends req.decision i (refresh platform' req.freshPlatformAttrs entry)) :
    ClassSends req.decision i (refresh platform req.freshPlatformAttrs entry) := by
  obtain ⟨p, k, hp, hr, hk⟩ := hsends
  rw [refresh_pendingEdit] at hp
  have hhalf := h.halfway hi hp
  by_contra hno
  have hnone : ∀ k, resolvedPayload req.decision i
      (refresh platform req.freshPlatformAttrs entry) p k = none := by
    intro k
    by_contra hsome
    exact hno ⟨p, k, by simpa using hp, by simpa using hr, hsome⟩
  apply hk
  rw [resolvedPayload_congr hhalf.attributes_eq (hhalf.live_eq_of_eq_none (hnone k)), hnone k]

end

/-! ## The retry -/

/-- The same bags, up to the order of keys. -/
def SamePlatform (p q : Platform J) : Prop :=
  ∀ classId k, (p.get? classId).map (·.get? k) = (q.get? classId).map (·.get? k)

/-- What is not a time in the cached platform state. -/
def assignment (state : Option ControlFilePlatformState) : Option ℕ × Option (List String) :=
  (state.bind fun s => s.assignedModelCount, state.bind fun s => s.assignedModelIds)

/-- The same file, up to times and the order of keys. -/
structure SameFile (f g : ControlFile J) : Prop where
  id_eq : f.id = g.id
  name_eq : f.name = g.name
  source_eq : f.source = g.source
  lifecycle_eq : f.lifecycle = g.lifecycle
  classes : List.Forall₂ SameEntry f.classes g.classes
  assignment_eq : assignment f.platformState = assignment g.platformState

variable {env env₀ env' : Environment J} {req : PushRequest J} {file : ControlFile J}
  {w w' : World J}

/-- All keys of all classes may be sent twice. -/
def AllRetrySafe (req : PushRequest J) (file : ControlFile J) (platform : Platform J) : Prop :=
  ∀ (i : ℕ) entry p, file.classes[i]? = some entry → entry.pendingEdit = some p →
    allRevertedToPrevious entry.attributes p = false →
    ∀ k ∈ changedKeys p, k ∉ firstWrites p →
      RetrySafe req.decision i (refresh platform req.freshPlatformAttrs entry) p k

section

variable (h : HalfUpdated req file w.platform w'.platform)
include h

lemma HalfUpdated.admissible
    (hadm : Admissible req file w.platform) (hsafe : AllRetrySafe req file w.platform) :
    Admissible req file w'.platform := by
  refine ⟨hadm.brownfield, hadm.no_externalEdit, ?_⟩
  intro i e p hi hp hr
  exact (h.halfway hi hp).classAdmissible (hadm.classes i e p hi hp hr) (hsafe i e p hi hp hr)

lemma HalfUpdated.wrote (henv₀ : env₀.Undisturbed w.platform) (henv' : env'.Undisturbed w'.platform)
    (hsafe : AllRetrySafe req file w.platform) (hwrote : (pushBrownfieldControl env₀ req file w).wrote = true) :
    (pushBrownfieldControl env' req file w').wrote = true := by
  have heffect := takesEffect_of_effect (henv₀.shows req) (.inr hwrote)
  obtain ⟨live, stale, classified, slots, hdone⟩ := exists_completed_of_wrote hwrote
  obtain ⟨-, hedges⟩ := hdone.reached.of_wrote hwrote
  have hsends : PushSends req file w'.platform → PushSends req file w.platform := by
    rintro ⟨i, entry, hi, hsends⟩
    exact ⟨i, entry, hi, h.classSends hi hsends⟩
  have heffect' : TakesEffect req file w'.platform :=
    ⟨h.admissible heffect.admissible hsafe, heffect.not_shortCircuits,
      fun hs => heffect.proceeds (hsends hs)⟩
  obtain ⟨classified', slots', hreached'⟩ :=
    heffect'.exists_reached (henv'.fetchLive_eq req) (henv'.shows req)
  refine hreached'.wrote ?_ henv'.answers_eq henv'.lives ?_
  · intro hne
    exact heffect'.proceeds ((hreached'.plannedCalls_ne_nil_iff (henv'.shows req)).mp hne)
  · intro call hcall
    obtain ⟨i, slot', plan', hslot', hplan', rfl⟩ := mem_plannedCalls.mp hcall
    obtain ⟨entry, hi⟩ := hreached'.exists_entry hslot'
    -- the push had a plan for the class too, and so an edge
    have hclass := h.classSends hi
      ((hreached'.slotCase_of_shows (henv'.shows req) hi hslot').plan_ne_none_iff.mp
        (by simp [hplan']))
    obtain ⟨bag, hbag⟩ := hdone.reached.exists_bag (henv₀.shows req) hedges hi hclass
    rw [hreached'.classId_eq hi hslot', h.edges, hbag]
    rfl

/-- The retry leaves the platform that the push would have left. -/
theorem HalfUpdated.samePlatform (hone : file.OneEntryPerClass)
    (henv₀ : env₀.Undisturbed w.platform) (henv' : env'.Undisturbed w'.platform)
    (hsafe : AllRetrySafe req file w.platform) (hwrote : (pushBrownfieldControl env₀ req file w).wrote = true) :
    SamePlatform (pushBrownfieldControl env' req file w').world.platform
      (pushBrownfieldControl env₀ req file w).world.platform := by
  have hadm := (takesEffect_of_effect (henv₀.shows req) (.inr hwrote)).admissible
  obtain ⟨live, stale, classified, slots, hdone⟩ := exists_completed_of_wrote hwrote
  obtain ⟨live', stale', classified', slots', hdone'⟩ :=
    exists_completed_of_wrote (h.wrote henv₀ henv' hsafe hwrote)
  intro classId k
  rw [hdone.platform_eq, hdone'.platform_eq]
  by_cases hclass : ∃ e ∈ file.classes, e.classId = classId
  · obtain ⟨entry, hmem, rfl⟩ := hclass
    obtain ⟨i, hi⟩ := mem_iff_getElem?.mp hmem
    obtain ⟨slot, hslot, -⟩ := hdone.reached.slotCase hi
    obtain ⟨slot', hslot', -⟩ := hdone'.reached.slotCase hi
    have hcase := hdone.reached.slotCase_of_shows (henv₀.shows req) hi hslot
    have hcase' := hdone'.reached.slotCase_of_shows (henv'.shows req) hi hslot'
    rw [hdone.reached.get?_applyCalls_plannedCalls hone hi hslot,
      hdone'.reached.get?_applyCalls_plannedCalls hone hi hslot']
    by_cases hedit : ∃ p, entry.pendingEdit = some p ∧
        allRevertedToPrevious entry.attributes p = false
    · obtain ⟨p, hp, hr⟩ := hedit
      have hout := hcase.resolvedOutcome (by simpa using hp) (by simpa using hr)
      have hout' := hcase'.resolvedOutcome (by simpa using hp) (by simpa using hr)
      have hstored := (h.halfway hi hp).stored_eq (hadm.classes i entry p hi hp hr)
        (hsafe i entry p hi hp hr) k
      rw [liveOf_refresh hp, liveOf_refresh hp, ← hout.sentFor_eq k, ← hout'.sentFor_eq k]
        at hstored
      have hedge := h.edges entry.classId
      cases hbag : w.platform.get? entry.classId with
      | none =>
        rw [hbag, Option.isSome_none, Option.isSome_eq_false_iff, Option.isNone_iff_eq_none]
          at hedge
        rw [hedge]
        rfl
      | some bag =>
        rw [hbag, Option.isSome_some] at hedge
        obtain ⟨bag', hbag'⟩ := isSome_iff_exists.mp hedge
        simp only [freshAttributes, hbag, hbag', some_or, getD_some] at hstored
        rw [hbag', map_some, map_some, hstored]
    · have hno : ∀ p, entry.pendingEdit = some p →
          allRevertedToPrevious entry.attributes p = true := fun p hp =>
        by_contra fun hr => hedit ⟨p, hp, Bool.eq_false_iff.mpr hr⟩
      rw [hcase.sentFor_eq_none (by simpa using hno), hcase'.sentFor_eq_none (by simpa using hno),
        h.get?_eq hi hno]
  · -- no call is about the class
    have hother : ∀ e ∈ file.classes, e.classId ≠ classId := fun e he hid => hclass ⟨e, he, hid⟩
    have hpush := (hdone.reached.halfUpdated (henv₀.shows req) hone prefix_rfl).others
      classId hother
    have hretry := (hdone'.reached.halfUpdated (henv'.shows req) hone prefix_rfl).others
      classId hother
    rw [hpush, hretry, h.others classId hother]

/-- The retry leaves the class entry that the push would have left. -/
lemma HalfUpdated.sameEntry
    (hadm : Admissible req file w.platform) (hsafe : AllRetrySafe req file w.platform) {i : ℕ}
    {entry : ControlFileClassEntry J} (hi : file.classes[i]? = some entry) {slot slot' : Slot J (ResolvedPlan J)}
    (hcase : SlotCase env₀ req.decision i (refresh w.platform req.freshPlatformAttrs entry) slot)
    (hcase' : SlotCase env' req.decision i (refresh w'.platform req.freshPlatformAttrs entry) slot') :
    SameEntry (finishSlot env' slot') (finishSlot env₀ slot) := by
  cases hp : entry.pendingEdit with
  | none =>
    rw [h.refresh_eq hi fun p hp' => by cases hp.symm.trans hp'] at hcase'
    rw [hcase.eq_of_untouched (by simpa using hp), hcase'.eq_of_untouched (by simpa using hp)]
    exact SameEntry.refl _
  | some p =>
    cases hr : allRevertedToPrevious entry.attributes p with
    | true =>
      rw [h.refresh_eq hi fun q hq => by
        rw [← some.inj (hp.symm.trans hq)]; exact hr] at hcase'
      rw [hcase.eq_of_reverted (by simpa using hp) (by simpa using hr),
        hcase'.eq_of_reverted (by simpa using hp) (by simpa using hr)]
      exact SameEntry.refl _
    | false =>
      refine (h.halfway hi hp).sameEntry (hadm.classes i entry p hi hp hr)
        (hsafe i entry p hi hp hr) ?_ (by simpa using hp) (by simpa using hp) (by simpa using hr)
        (platformAttributes_refresh hp _ _) (platformAttributes_refresh hp _ _) hcase hcase'
      rw [binding_refresh, binding_refresh]

end

lemma assignment_bumpLastPushedAt (now : Timestamp) (state : Option ControlFilePlatformState) :
    assignment (some (bumpLastPushedAt now state)) = assignment state := by
  cases state <;> rfl

/-- The retry leaves the file that the push would have left. -/
theorem HalfUpdated.sameFile (h : HalfUpdated req file w.platform w'.platform)
    (henv₀ : env₀.Undisturbed w.platform) (henv' : env'.Undisturbed w'.platform)
    (hsafe : AllRetrySafe req file w.platform) (hwrote : (pushBrownfieldControl env₀ req file w).wrote = true) :
    SameFile (pushBrownfieldControl env' req file w').world.disk
      (pushBrownfieldControl env₀ req file w).world.disk := by
  have hadm := (takesEffect_of_effect (henv₀.shows req) (.inr hwrote)).admissible
  obtain ⟨live, stale, classified, slots, hdone⟩ := exists_completed_of_wrote hwrote
  obtain ⟨live', stale', classified', slots', hdone'⟩ :=
    exists_completed_of_wrote (h.wrote henv₀ henv' hsafe hwrote)
  have hstate : ∀ {env : Environment J} {w : World J} {live : Record String (Attributes J)}
      {stale : Bool} {classified : List (Classified J)} {slots : List (Slot J (ResolvedPlan J))}
      {r : Push J}, Completed env req file w r live stale classified slots →
        assignment r.world.disk.platformState = assignment file.platformState := by
    intro env w live stale classified slots r hdone
    rcases hdone.platformState_eq with heq | heq
    · rw [heq]
    · rw [heq, assignment_bumpLastPushedAt]
  refine ⟨?_, ?_, ?_, ?_, ?_, (hstate hdone').trans (hstate hdone).symm⟩
  · rw [hdone.disk_eq, hdone'.disk_eq]
  · rw [hdone.disk_eq, hdone'.disk_eq]
  · rw [hdone.disk_eq, hdone'.disk_eq]
  · rw [hdone.disk_eq, hdone'.disk_eq]
  · rw [hdone.classes_eq, hdone'.classes_eq, List.forall₂_iff_get]
    refine ⟨?_, fun i hi' hi => ?_⟩
    · rw [List.length_map, List.length_map, hdone.reached.planned.length_eq,
        hdone'.reached.planned.length_eq]
    · have hlt : i < file.classes.length := by
        rwa [List.length_map, hdone.reached.planned.length_eq] at hi
      have hentry := List.getElem?_eq_getElem hlt
      obtain ⟨slot, hslot, -⟩ := hdone.reached.slotCase hentry
      obtain ⟨slot', hslot', -⟩ := hdone'.reached.slotCase hentry
      have hget : (slots.map (finishSlot env₀)).get ⟨i, hi⟩ = finishSlot env₀ slot := by
        simpa using congrArg (finishSlot env₀) (List.getElem?_eq_some_iff.mp hslot).2
      have hget' : (slots'.map (finishSlot env')).get ⟨i, hi'⟩ = finishSlot env' slot' := by
        simpa using congrArg (finishSlot env') (List.getElem?_eq_some_iff.mp hslot').2
      rw [hget, hget']
      exact h.sameEntry hadm hsafe hentry
        (hdone.reached.slotCase_of_shows (henv₀.shows req) hentry hslot)
        (hdone'.reached.slotCase_of_shows (henv'.shows req) hentry hslot')

end ControlLibrary.Brownfield
