import Dethernety.ControlLibrary.Brownfield

/-!
# What a brownfield push does to each class

One lemma for each step of `pushBrownfieldControl`. `SlotCase` says what Steps C and D can make of
one refreshed class entry, `Reached` that a call has got through Steps 0 to D, and `PushCase` how a
call can go as a whole. Every later result about a push is derived from `push_cases` and
`slot_cases` and does not open the steps again.
-/

open List Record
open Except (ok)

namespace ControlLibrary.Brownfield

variable {J : Type*} [DecidableEq J]

/-! ## The scan of Step C -/

section

variable (attributes platformAttrs : Attributes J) (p : PendingEditBlock J)

/-- The key is sent unless a conflict is decided otherwise. -/
def Sends (k : String) : Prop :=
  k ∈ firstWrites p ∨ platformAttrs.get? k ≠ none ∧ platformAttrs.get? k ≠ attributes.get? k

/-- The key has a prior value and is not on the platform. -/
def IsBlocked (k : String) : Prop :=
  k ∉ firstWrites p ∧ platformAttrs.get? k = none

/-- The platform has neither the value before the edit nor the one after it. -/
def IsConflict (k : String) : Prop :=
  k ∉ firstWrites p ∧ platformAttrs.get? k ≠ none ∧ platformAttrs.get? k ≠ attributes.get? k ∧
    p.previousAttributes.get? k ≠ platformAttrs.get? k

instance : DecidablePred (Sends attributes platformAttrs p) := fun k =>
  inferInstanceAs (Decidable (k ∈ firstWrites p ∨
    platformAttrs.get? k ≠ none ∧ platformAttrs.get? k ≠ attributes.get? k))

instance : DecidablePred (IsBlocked platformAttrs p) := fun k =>
  inferInstanceAs (Decidable (k ∉ firstWrites p ∧ platformAttrs.get? k = none))

instance : DecidablePred (IsConflict attributes platformAttrs p) := fun k =>
  inferInstanceAs (Decidable (k ∉ firstWrites p ∧ platformAttrs.get? k ≠ none ∧
    platformAttrs.get? k ≠ attributes.get? k ∧
    p.previousAttributes.get? k ≠ platformAttrs.get? k))

lemma scanKey_eq (s : KeyScan J) (k : String) : scanKey attributes platformAttrs p s k =
    { outboundPayload :=
        if Sends attributes platformAttrs p k then s.outboundPayload.set k (attributes.get? k)
        else (s.outboundPayload.set k (attributes.get? k)).erase k
      blockedKeys := s.blockedKeys ++ [k].filter (fun j => IsBlocked platformAttrs p j)
      conflictKeys := s.conflictKeys ++ [k].filter (fun j => IsConflict attributes platformAttrs p j) } := by
  by_cases hfw : k ∈ firstWrites p
  · -- a first write is sent whatever the platform has
    simp [scanKey, hfw, Sends, IsBlocked, IsConflict]
  · cases hplatform : platformAttrs.get? k with
    | none => simp [scanKey, hfw, hplatform, Sends, IsBlocked, IsConflict]
    | some serverCurrent =>
      by_cases happlied : some serverCurrent = attributes.get? k
      · simp [scanKey, hfw, hplatform, ← happlied, Sends, IsBlocked, IsConflict]
      · by_cases hprev : p.previousAttributes.get? k = some serverCurrent
        all_goals simp [scanKey, hfw, hplatform, happlied, hprev, Sends, IsBlocked, IsConflict]

lemma foldl_scanKey (ks : List String) (s : KeyScan J) :
    let s' := ks.foldl (scanKey attributes platformAttrs p) s
    (∀ j, s'.outboundPayload.get? j =
      if j ∈ ks then (if Sends attributes platformAttrs p j then some (attributes.get? j) else none)
      else s.outboundPayload.get? j) ∧
    s'.blockedKeys = s.blockedKeys ++ ks.filter (fun j => IsBlocked platformAttrs p j) ∧
    s'.conflictKeys =
      s.conflictKeys ++ ks.filter (fun j => IsConflict attributes platformAttrs p j) := by
  induction ks generalizing s with
  | nil => simp
  | cons k ks ih =>
    obtain ⟨ihpayload, ihblocked, ihconflict⟩ := ih (scanKey attributes platformAttrs p s k)
    rw [foldl_cons]
    refine ⟨fun j => ?_, ihblocked.trans ?_, ihconflict.trans ?_⟩
    · rw [ihpayload, scanKey_eq]
      by_cases hj : k = j
      · subst hj
        by_cases hmem : k ∈ ks <;> by_cases hsends : Sends attributes platformAttrs p k <;>
          simp [hmem, hsends, get?_set, get?_erase]
      · have hj' : j ≠ k := fun h => hj h.symm
        by_cases hsends : Sends attributes platformAttrs p k <;> simp [hj, hj', hsends, get?_set, get?_erase]
    · rw [scanKey_eq, append_assoc, ← filter_append, singleton_append]
    · rw [scanKey_eq, append_assoc, ← filter_append, singleton_append]

lemma get?_scanKeys_outboundPayload (k : String) :
    (scanKeys attributes platformAttrs p).outboundPayload.get? k =
      if k ∈ changedKeys p ∧ Sends attributes platformAttrs p k then some (attributes.get? k)
      else none := by
  rw [scanKeys, (foldl_scanKey attributes platformAttrs p (changedKeys p) ⟨∅, [], []⟩).1]
  by_cases hk : k ∈ changedKeys p
  all_goals simp [hk]

lemma scanKeys_blockedKeys :
    (scanKeys attributes platformAttrs p).blockedKeys =
      (changedKeys p).filter fun k => IsBlocked platformAttrs p k :=
  (foldl_scanKey attributes platformAttrs p (changedKeys p) ⟨∅, [], []⟩).2.1

lemma scanKeys_conflictKeys :
    (scanKeys attributes platformAttrs p).conflictKeys =
      (changedKeys p).filter fun k => IsConflict attributes platformAttrs p k :=
  (foldl_scanKey attributes platformAttrs p (changedKeys p) ⟨∅, [], []⟩).2.2

/-- Conflicts are about keys with a prior value, each once. -/
theorem nodup_scanKeys_conflictKeys : (scanKeys attributes platformAttrs p).conflictKeys.Nodup := by
  have hfw : (firstWrites p).filter (fun k => IsConflict attributes platformAttrs p k) = [] := by
    rw [filter_eq_nil_iff]
    intro k hk hconflict
    exact (of_decide_eq_true hconflict).1 hk
  rw [scanKeys_conflictKeys, changedKeys, filter_append, hfw, append_nil]
  exact p.previousAttributes.nodup.filter _

lemma mem_scanKeys_conflictKeys {k : String} :
    k ∈ (scanKeys attributes platformAttrs p).conflictKeys ↔
      k ∈ changedKeys p ∧ IsConflict attributes platformAttrs p k := by
  simp [scanKeys_conflictKeys]

end

/-! ## The conflict loop of Step D -/

section

variable {decision : BrownfieldDecision J} {classIdx : ℕ} {entry : ControlFileClassEntry J}

/-- The operator's decision on a key. -/
def decisionFor (decision : BrownfieldDecision J) (classIdx : ℕ) (k : String) :
    Option (PerKeyDecision J) :=
  decision.perKey.get? (decisionKey classIdx k)

/-- The keys on which the server's value was accepted. -/
def acceptedKeys (decision : BrownfieldDecision J) (classIdx : ℕ) (ks : List String) :
    List String :=
  ks.filter fun k => decisionFor decision classIdx k = some .acceptTheirs

/-- What the payload holds for a decided key. -/
def resolvedValue (before : Option (Option (JsonValue J))) :
    PerKeyDecision J → Option (Option (JsonValue J))
  | .keep => before
  | .acceptTheirs => none
  | .merge merged => some merged

/-- The working entry: only the last accepted key counts, since each acceptance starts again from
the entry that was read before the loop. -/
def workingAfter (entry : ControlFileClassEntry J) (accepted : List String)
    (before : ControlFileClassEntry J) : ControlFileClassEntry J :=
  match accepted.getLast? with
  | none => before
  | some k => acceptTheirs entry k ((liveOf entry).get? k)

omit [DecidableEq J] in
lemma workingAfter_cons (accepted : List String) (k : String) (before : ControlFileClassEntry J) :
    workingAfter entry (k :: accepted) before =
      workingAfter entry accepted (acceptTheirs entry k ((liveOf entry).get? k)) := by
  cases accepted with
  | nil => rfl
  | cons j accepted =>
    have hlast := getLast?_eq_some_getLast (cons_ne_nil j accepted)
    simp only [workingAfter, getLast?_cons_cons, hlast]

/-- The loop over the conflicting keys. -/
lemma resolveKeys_eq_ok {ks : List String} {s s' : Resolving J}
    (h : resolveKeys decision classIdx entry ks s = .ok s') :
    (∀ k ∈ ks, decisionFor decision classIdx k ≠ none) ∧
    (∀ j, s'.outboundPayload.get? j =
      if j ∈ ks then
        (decisionFor decision classIdx j).bind (resolvedValue (s.outboundPayload.get? j))
      else s.outboundPayload.get? j) ∧
    s'.working = workingAfter entry (acceptedKeys decision classIdx ks) s.working := by
  induction ks generalizing s with
  | nil =>
    cases h
    simp [acceptedKeys, workingAfter]
  | cons k ks ih =>
    have hdecision : decisionFor decision classIdx k =
      decision.perKey.get? (decisionKey classIdx k) := rfl
    cases hk : decisionFor decision classIdx k with
    | none =>
      rw [hk] at hdecision
      simp [resolveKeys, resolveKey, ← hdecision] at h
    | some d =>
      rw [hk] at hdecision
      -- what one pass does to the payload
      have hpass : ∃ s₁, resolveKeys decision classIdx entry ks s₁ = .ok s' ∧
          (∀ j, s₁.outboundPayload.get? j =
            if k = j then resolvedValue (s.outboundPayload.get? j) d
            else s.outboundPayload.get? j) ∧
          s₁.working = if d = .acceptTheirs then acceptTheirs entry k ((liveOf entry).get? k)
            else s.working := by
        cases d with
        | keep =>
          simp only [resolveKeys, resolveKey, ← hdecision] at h
          exact ⟨_, h, by simp [resolvedValue], by simp⟩
        | acceptTheirs =>
          simp only [resolveKeys, resolveKey, ← hdecision] at h
          exact ⟨_, h, by simp [resolvedValue, get?_erase], by simp⟩
        | merge merged =>
          simp only [resolveKeys, resolveKey, ← hdecision] at h
          exact ⟨_, h, by simp [resolvedValue, get?_set], by simp⟩
      obtain ⟨s₁, hrest, hpayload, hworking⟩ := hpass
      obtain ⟨ihdecided, ihpayload, ihworking⟩ := ih hrest
      refine ⟨?_, ?_, ?_⟩
      · intro j hj
        rcases mem_cons.mp hj with rfl | hj
        · simp [hk]
        · exact ihdecided j hj
      · intro j
        rw [ihpayload j, hpayload j]
        by_cases hj : k = j
        · subst hj
          -- a second occurrence of the key would change nothing
          have htwice : resolvedValue (resolvedValue (s.outboundPayload.get? k) d) d =
              resolvedValue (s.outboundPayload.get? k) d := by cases d <;> rfl
          by_cases hmem : k ∈ ks
          · simp [hmem, hk, htwice]
          · simp [hmem, hk]
        · have hj' : j ≠ k := fun h => hj h.symm
          simp [hj, hj']
      · rw [ihworking, hworking]
        by_cases hd : d = .acceptTheirs
        · have hacc : acceptedKeys decision classIdx (k :: ks) =
              k :: acceptedKeys decision classIdx ks := by simp [acceptedKeys, hk, hd]
          rw [hacc, workingAfter_cons, if_pos hd]
        · have hacc : acceptedKeys decision classIdx (k :: ks) =
              acceptedKeys decision classIdx ks := by simp [acceptedKeys, hk, hd]
          rw [hacc, if_neg hd]

omit [DecidableEq J] in
/-- With a decision on every key the loop gets through. -/
theorem exists_resolveKeys_eq_ok {ks : List String}
    (h : ∀ k ∈ ks, decisionFor decision classIdx k ≠ none) (s : Resolving J) :
    ∃ s', resolveKeys decision classIdx entry ks s = .ok s' := by
  induction ks generalizing s with
  | nil => exact ⟨s, rfl⟩
  | cons k ks ih =>
    have hk := h k (.head _)
    have hrest := fun j hj => h j (mem_cons_of_mem k hj)
    obtain ⟨d, hd⟩ := Option.ne_none_iff_exists'.mp hk
    have hd : decision.perKey.get? (decisionKey classIdx k) = some d := hd
    cases d with
    | keep | acceptTheirs | merge merged => simpa only [resolveKeys, resolveKey, hd] using ih hrest _

end

/-! ## One class -/

/-- The entry that Step F leaves. -/
def finishSlot (env : Environment J) (slot : Slot J (ResolvedPlan J)) : ControlFileClassEntry J :=
  match slot.plan with
  | none => slot.entry
  | some plan => finalise env slot.entry plan.outboundPayload

def conflictKeys (entry : ControlFileClassEntry J) (p : PendingEditBlock J) : List String :=
  (scanKeys entry.attributes (liveOf entry) p).conflictKeys

/-- What the payload of a class holds for a key after Step D. -/
def resolvedPayload (decision : BrownfieldDecision J) (classIdx : ℕ)
    (entry : ControlFileClassEntry J) (p : PendingEditBlock J) (k : String) :
    Option (Option (JsonValue J)) :=
  if k ∈ changedKeys p ∧ Sends entry.attributes (liveOf entry) p k then
    if IsConflict entry.attributes (liveOf entry) p k then
      (decisionFor decision classIdx k).bind (resolvedValue (some (entry.attributes.get? k)))
    else some (entry.attributes.get? k)
  else none

/-- The working entry of a class after Step D. -/
def resolvedEntry (decision : BrownfieldDecision J) (classIdx : ℕ)
    (entry : ControlFileClassEntry J) (p : PendingEditBlock J) : ControlFileClassEntry J :=
  workingAfter entry (acceptedKeys decision classIdx (conflictKeys entry p)) entry

/-- The edit of a class, which was not taken back and has no blocked key. -/
structure Effective (entry : ControlFileClassEntry J) (p : PendingEditBlock J) : Prop where
  pending : entry.pendingEdit = some p
  reverts : allRevertedToPrevious entry.attributes p = false
  unblocked : ∀ k ∈ changedKeys p, ¬ IsBlocked (liveOf entry) p k

/-- What Steps C and D can make of a refreshed entry. -/
inductive SlotCase (env : Environment J) (decision : BrownfieldDecision J) (classIdx : ℕ)
    (entry : ControlFileClassEntry J) (slot : Slot J (ResolvedPlan J)) : Prop
  /-- Nothing was pending. -/
  | untouched (pending : entry.pendingEdit = none) (slot_eq : slot = ⟨entry, none⟩)
  /-- The edit was taken back. -/
  | reverted {p : PendingEditBlock J} (pending : entry.pendingEdit = some p)
      (reverts : allRevertedToPrevious entry.attributes p = true)
      (slot_eq : slot = ⟨{ entry with pendingEdit := none, localEditedAt := none }, none⟩)
  /-- The platform had every value. -/
  | alreadyApplied {p : PendingEditBlock J} (edit : Effective entry p)
      (sends : ∀ k ∈ changedKeys p, ¬ Sends entry.attributes (liveOf entry) p k)
      (slot_eq : slot = ⟨{ entry with
        platformAttributes := some (liveOf entry)
        pushedAt := some env.now
        pendingEdit := none }, none⟩)
  /-- Every conflict was decided, and something is left to send. -/
  | sent {p : PendingEditBlock J} {plan : ResolvedPlan J} (edit : Effective entry p)
      (decided : ∀ k ∈ conflictKeys entry p, decisionFor decision classIdx k ≠ none)
      (payload : ∀ k, plan.outboundPayload.get? k = resolvedPayload decision classIdx entry p k)
      (nonempty : plan.outboundPayload.keys ≠ [])
      (slot_eq : slot = ⟨resolvedEntry decision classIdx entry p, some plan⟩)
  /-- Every conflict was decided, and nothing is left to send. -/
  | allAccepted {p : PendingEditBlock J} (edit : Effective entry p)
      (decided : ∀ k ∈ conflictKeys entry p, decisionFor decision classIdx k ≠ none)
      (payload : ∀ k, resolvedPayload decision classIdx entry p k = none)
      (slot_eq : slot =
        ⟨{ resolvedEntry decision classIdx entry p with pendingEdit := none }, none⟩)

section

variable {env : Environment J} {req : PushRequest J} {file : ControlFile J} {classIdx : ℕ}
  {entry : ControlFileClassEntry J}

omit [DecidableEq J] in
lemma resolveSlot_of_plan_eq_none {decision : BrownfieldDecision J} {classIdx : ℕ}
    {slot : Slot J (ClassPushPlan J)} (h : slot.plan = none) :
    resolveSlot decision classIdx slot = .ok ⟨slot.entry, none⟩ := by
  simp [resolveSlot, h]

variable {p : PendingEditBlock J}

omit [DecidableEq J] in
lemma IsConflict.sends {attributes platformAttrs : Attributes J}
    {k : String} (h : IsConflict attributes platformAttrs p k) : Sends attributes platformAttrs p k :=
  .inr ⟨h.2.1, h.2.2.1⟩

lemma mem_conflictKeys {k : String} :
    k ∈ conflictKeys entry p ↔ k ∈ changedKeys p ∧ IsConflict entry.attributes (liveOf entry) p k :=
  mem_scanKeys_conflictKeys entry.attributes (liveOf entry) p

/-- An empty payload: no key is sent. -/
lemma not_sends_of_keys_eq_nil (h : (scanKeys entry.attributes (liveOf entry) p).outboundPayload.keys = []) :
    ∀ k ∈ changedKeys p, ¬ Sends entry.attributes (liveOf entry) p k := by
  intro k hk hsend
  have hnone := keys_eq_nil_iff.mp h k
  rw [get?_scanKeys_outboundPayload, if_pos ⟨hk, hsend⟩] at hnone
  cases hnone

lemma conflictKeys_eq_nil (h : ∀ k ∈ changedKeys p, ¬ Sends entry.attributes (liveOf entry) p k) :
    conflictKeys entry p = [] := by
  rw [eq_nil_iff_forall_not_mem]
  intro k hk
  obtain ⟨hchanged, hconflict⟩ := mem_conflictKeys.mp hk
  exact h k hchanged hconflict.sends

lemma get?_resolveKeys {s : Resolving J} (h : resolveKeys req.decision classIdx entry (conflictKeys entry p)
      ⟨(scanKeys entry.attributes (liveOf entry) p).outboundPayload, entry, []⟩ = .ok s) (k : String) :
    s.outboundPayload.get? k = resolvedPayload req.decision classIdx entry p k := by
  rw [(resolveKeys_eq_ok h).2.1 k, get?_scanKeys_outboundPayload, resolvedPayload]
  by_cases hchanged : k ∈ changedKeys p
  · by_cases hconflict : IsConflict entry.attributes (liveOf entry) p k
    · simp [mem_conflictKeys, hchanged, hconflict, hconflict.sends]
    · simp [mem_conflictKeys, hconflict]
  · simp [mem_conflictKeys, hchanged]

/-- What Step C can find for a class. -/
inductive Classifies (entry : ControlFileClassEntry J) : Verdict J → Prop
  | untouched (pending : entry.pendingEdit = none) : Classifies entry .untouched
  | reverted {p : PendingEditBlock J} (pending : entry.pendingEdit = some p)
      (reverts : allRevertedToPrevious entry.attributes p = true) : Classifies entry (.reverted p)
  | blocked {p : PendingEditBlock J} {k : String} (keys : List String) (pending : entry.pendingEdit = some p)
      (reverts : allRevertedToPrevious entry.attributes p = false) (changed : k ∈ changedKeys p)
      (is_blocked : IsBlocked (liveOf entry) p k) : Classifies entry (.blocked keys)
  | alreadyApplied {p : PendingEditBlock J} (edit : Effective entry p)
      (sends : ∀ k ∈ changedKeys p, ¬ Sends entry.attributes (liveOf entry) p k) :
      Classifies entry .alreadyApplied
  | planned {p : PendingEditBlock J} (edit : Effective entry p) : Classifies entry
        (.planned ⟨(scanKeys entry.attributes (liveOf entry) p).outboundPayload, conflictKeys entry p⟩)

lemma classify_cases (entry : ControlFileClassEntry J) : Classifies entry (classify entry) := by
  unfold classify
  cases hpending : entry.pendingEdit with
  | none => exact .untouched hpending
  | some p =>
    dsimp only
    split_ifs with hrevert hblocked hpayload hconflicts
    · exact .reverted hpending hrevert
    · obtain ⟨k, hk⟩ := exists_mem_of_ne_nil _ hblocked
      obtain ⟨hchanged, hk⟩ := mem_filter.1 (scanKeys_blockedKeys entry.attributes (liveOf entry) p ▸ hk)
      exact .blocked _ hpending (Bool.eq_false_iff.2 hrevert) hchanged (of_decide_eq_true hk)
    all_goals
      have hunblocked : ∀ k ∈ changedKeys p, ¬ IsBlocked (liveOf entry) p k := by
        intro k hk hblock
        rw [scanKeys_blockedKeys, not_not, filter_eq_nil_iff] at hblocked
        exact hblocked k hk (decide_eq_true hblock)
    · exact .planned ⟨hpending, Bool.eq_false_iff.2 hrevert, hunblocked⟩
    · exact .alreadyApplied ⟨hpending, Bool.eq_false_iff.2 hrevert, hunblocked⟩
        (not_sends_of_keys_eq_nil (not_not.1 hpayload))
    · -- nothing to send, so no conflicts either
      exact absurd (conflictKeys_eq_nil (not_sends_of_keys_eq_nil (not_not.1 hpayload))) hconflicts

lemma slot_cases {c : Classified J} {slot : Slot J (ResolvedPlan J)} (hC : classifyEntry env req file entry = .ok c)
    (hD : resolveSlot req.decision classIdx c.slot = .ok slot) : SlotCase env req.decision classIdx entry slot := by
  unfold classifyEntry at hC
  have hcase := classify_cases entry
  generalize classify entry = verdict at hC hcase
  cases hcase with
  | untouched pending =>
    cases hC
    exact .untouched pending (ok.inj hD).symm
  | reverted pending reverts =>
    cases hC
    exact .reverted pending reverts (ok.inj hD).symm
  | blocked => cases hC
  | alreadyApplied edit sends =>
    cases hC
    exact .alreadyApplied edit sends (ok.inj hD).symm
  | @planned p edit =>
    cases hC
    cases hres : resolveKeys req.decision classIdx entry (conflictKeys entry p)
        ⟨(scanKeys entry.attributes (liveOf entry) p).outboundPayload, entry, []⟩ with
    | error working => simp [resolveSlot, hres] at hD
    | ok s =>
      obtain ⟨hdecided, -, hworking⟩ := resolveKeys_eq_ok hres
      have hget := get?_resolveKeys hres
      simp only [resolveSlot, hres] at hD
      split_ifs at hD with hsent
      · let plan : ResolvedPlan J := ⟨s.outboundPayload, s.conflictResolutions⟩
        have hpayload : ∀ k, plan.outboundPayload.get? k = _ := hget
        refine .sent edit hdecided hpayload hsent ?_
        rw [← ok.inj hD, hworking]
        rfl
      · refine .allAccepted edit hdecided (fun k => ?_) ?_
        · rw [← hget k]
          exact keys_eq_nil_iff.mp (not_not.1 hsent) k
        · rw [← ok.inj hD, hworking]
          rfl

omit [DecidableEq J] in
/-- Assigning the values of `a` under a list of keys. -/
lemma get?_foldl_put (a b : Attributes J) (ks : List String) (j : String) :
    (ks.foldl (fun bag k => bag.put k (a.get? k)) b).get? j =
      if j ∈ ks then a.get? j else b.get? j := by
  induction ks generalizing b with
  | nil => simp
  | cons k ks ih =>
    rw [foldl_cons, ih, get?_put]
    by_cases hmem : j ∈ ks
    · simp [hmem]
    · by_cases hj : k = j
      · simp [hj]
      · have hj' : j ≠ k := fun h => hj h.symm
        simp [hmem, hj, hj']

omit [DecidableEq J] in
lemma get?_liveOf_finalise (env : Environment J) (entry : ControlFileClassEntry J)
    (payload : Payload J) (j : String) :
    (liveOf (finalise env entry payload)).get? j =
      if (payload.get? j).isSome then entry.attributes.get? j else (liveOf entry).get? j := by
  simp only [liveOf, finalise, Option.getD_some]
  rw [get?_foldl_put]
  simp only [mem_keys_iff]

lemma liveOf_resolvedEntry (decision : BrownfieldDecision J) (classIdx : ℕ)
    (entry : ControlFileClassEntry J) (p : PendingEditBlock J) :
    liveOf (resolvedEntry decision classIdx entry p) = liveOf entry := by
  unfold resolvedEntry workingAfter
  cases (acceptedKeys decision classIdx (conflictKeys entry p)).getLast? <;> rfl

/-- The attributes after Step D: the last accepted key has the server's value. -/
theorem get?_resolvedEntry (decision : BrownfieldDecision J) (classIdx : ℕ)
    (entry : ControlFileClassEntry J) (p : PendingEditBlock J) (j : String) :
    (resolvedEntry decision classIdx entry p).attributes.get? j =
      if (acceptedKeys decision classIdx (conflictKeys entry p)).getLast? = some j then
        (liveOf entry).get? j
      else entry.attributes.get? j := by
  unfold resolvedEntry workingAfter
  cases (acceptedKeys decision classIdx (conflictKeys entry p)).getLast? with
  | none => simp
  | some k =>
    simp only [acceptTheirs, get?_put, Option.some.injEq]
    by_cases hk : k = j
    all_goals simp [hk]

/-- What is sent for a key of the class. -/
def sentFor (slot : Slot J (ResolvedPlan J)) (k : String) : Option (Option (JsonValue J)) :=
  slot.plan.bind fun plan => plan.outboundPayload.get? k

variable {decision : BrownfieldDecision J} {slot : Slot J (ResolvedPlan J)} {p : PendingEditBlock J}

/-- The outcome for a class whose edit was not taken back. -/
structure ResolvedOutcome (env : Environment J) (decision : BrownfieldDecision J) (classIdx : ℕ)
    (entry : ControlFileClassEntry J) (p : PendingEditBlock J) (slot : Slot J (ResolvedPlan J)) :
    Prop where
  unblocked : ∀ k ∈ changedKeys p, ¬ IsBlocked (liveOf entry) p k
  decided : ∀ k ∈ conflictKeys entry p, decisionFor decision classIdx k ≠ none
  attributes_eq : (finishSlot env slot).attributes =
    (resolvedEntry decision classIdx entry p).attributes
  live_eq : ∀ k, (liveOf (finishSlot env slot)).get? k =
    if (resolvedPayload decision classIdx entry p k).isSome then
      (resolvedEntry decision classIdx entry p).attributes.get? k
    else (liveOf entry).get? k
  pendingEdit_eq : (finishSlot env slot).pendingEdit = none
  sentFor_eq : ∀ k, sentFor slot k = resolvedPayload decision classIdx entry p k

variable (h : SlotCase env decision classIdx entry slot)
include h

lemma SlotCase.resolvedOutcome
    (hp : entry.pendingEdit = some p) (hr : allRevertedToPrevious entry.attributes p = false) :
    ResolvedOutcome env decision classIdx entry p slot := by
  cases h with
  | untouched pending slot_eq =>
    rw [hp] at pending
    cases pending
  | @reverted q pending reverts slot_eq =>
    obtain rfl := Option.some.inj (pending.symm.trans hp)
    rw [hr] at reverts
    cases reverts
  | @alreadyApplied q edit sends slot_eq =>
    obtain rfl := Option.some.inj (edit.pending.symm.trans hp)
    -- no key is sent, so there are no conflicts and nothing is accepted
    have hconflicts : conflictKeys entry q = [] := conflictKeys_eq_nil sends
    have hnone : ∀ k, resolvedPayload decision classIdx entry q k = none := by
      intro k
      by_cases hk : k ∈ changedKeys q
      · simp [resolvedPayload, hk, sends k hk]
      · simp [resolvedPayload, hk]
    have hentry : resolvedEntry decision classIdx entry q = entry := by
      simp [resolvedEntry, hconflicts, acceptedKeys, workingAfter]
    subst slot_eq
    refine ⟨edit.unblocked, by simp [hconflicts], by simp [finishSlot, hentry], ?_, rfl,
      fun k => (hnone k).symm⟩
    intro k
    simp [hnone, finishSlot, liveOf]
  | @sent q _ edit decided payload _ slot_eq =>
    obtain rfl := Option.some.inj (edit.pending.symm.trans hp)
    subst slot_eq
    refine ⟨edit.unblocked, decided, rfl, ?_, rfl, payload⟩
    intro k
    simp only [finishSlot]
    rw [get?_liveOf_finalise, payload, liveOf_resolvedEntry]
  | @allAccepted q edit decided payload slot_eq =>
    obtain rfl := Option.some.inj (edit.pending.symm.trans hp)
    subst slot_eq
    refine ⟨edit.unblocked, decided, rfl, ?_, rfl, fun k => (payload k).symm⟩
    intro k
    have hlive := liveOf_resolvedEntry decision classIdx entry q
    unfold liveOf at hlive
    simp [payload, finishSlot, liveOf, hlive]

/-- The outcome for a class whose edit was taken back. -/
theorem SlotCase.eq_of_reverted
    (hp : entry.pendingEdit = some p) (hr : allRevertedToPrevious entry.attributes p = true) :
    slot = ⟨{ entry with pendingEdit := none, localEditedAt := none }, none⟩ := by
  cases h with
  | untouched pending slot_eq =>
    rw [hp] at pending
    cases pending
  | reverted _ _ slot_eq => exact slot_eq
  | alreadyApplied edit sends slot_eq
  | sent edit decided payload nonempty slot_eq
  | allAccepted edit =>
    cases edit.pending.symm.trans hp
    cases hr.symm.trans edit.reverts

/-- A class without an edit is left alone. -/
theorem SlotCase.eq_of_untouched (hp : entry.pendingEdit = none) : slot = ⟨entry, none⟩ := by
  cases h with
  | untouched pending slot_eq => exact slot_eq
  | reverted pending => cases pending.symm.trans hp
  | alreadyApplied edit | sent edit | allAccepted edit => cases edit.pending.symm.trans hp

end

variable {env : Environment J} {req : PushRequest J} {file : ControlFile J}

variable {slots : List (Slot J (ResolvedPlan J))} {classified : List (Classified J)} {stale : Bool}
  {live : Record String (Attributes J)}

lemma stepC_eq_ok {classes : List (ControlFileClassEntry J)} (h : stepC env req file classes = .ok classified) :
    classified.length = classes.length ∧ ∀ (i : ℕ) e, classes[i]? = some e →
        ∃ c, classified[i]? = some c ∧ classifyEntry env req file e = .ok c := by
  induction classes generalizing classified with
  | nil =>
    cases h
    simp
  | cons e classes ih =>
    rw [stepC, mapM_cons] at h
    cases hc : classifyEntry env req file e with
    | error err => simp [hc, bind, Except.bind] at h
    | ok c =>
      cases hrest : stepC env req file classes with
      | error err =>
        rw [stepC] at hrest
        simp [hc, hrest, bind, Except.bind] at h
      | ok rest =>
        obtain ⟨ihlen, ihget⟩ := ih hrest
        rw [stepC] at hrest
        simp only [hc, hrest, bind, Except.bind, pure, Except.pure, ok.injEq] at h
        subst h
        refine ⟨by simp [ihlen], ?_⟩
        intro i e' hi
        cases i with
        | zero =>
          obtain rfl : e = e' := by simpa using hi
          exact ⟨c, rfl, hc⟩
        | succ i => simpa using ihget i e' (by simpa using hi)

omit [DecidableEq J] in
lemma stepD_eq_ok {n : ℕ} {slots : List (Slot J (ClassPushPlan J))} {resolved : List (Slot J (ResolvedPlan J))}
    (h : stepD req.decision n slots = .ok resolved) :
    resolved.length = slots.length ∧ ∀ (i : ℕ) s, slots[i]? = some s →
        ∃ r, resolved[i]? = some r ∧ resolveSlot req.decision (n + i) s = .ok r := by
  induction slots generalizing n resolved with
  | nil =>
    cases h
    simp
  | cons s slots ih =>
    cases hs : resolveSlot req.decision n s with
    | error working => simp [stepD, hs] at h
    | ok r =>
      cases hrest : stepD req.decision (n + 1) slots with
      | error rest => simp [stepD, hs, hrest] at h
      | ok rest =>
        obtain ⟨ihlen, ihget⟩ := ih hrest
        simp only [stepD, hs, hrest, ok.injEq] at h
        subst h
        refine ⟨by simp [ihlen], ?_⟩
        intro i s' hi
        cases i with
        | zero =>
          obtain rfl : s = s' := by simpa using hi
          exact ⟨r, rfl, hs⟩
        | succ i =>
          have := ihget i s' (by simpa using hi)
          simpa [Nat.add_assoc, Nat.add_comm 1 i] using this

/-- The mutations that Step F sends when nothing fails. -/
def plannedCalls : ℕ → List (Slot J (ResolvedPlan J)) → List (Call J)
  | _, [] => []
  | classIdx, slot :: slots =>
    match slot.plan with
    | none => plannedCalls (classIdx + 1) slots
    | some plan =>
      ⟨classIdx, slot.entry.classId, plan.outboundPayload⟩ :: plannedCalls (classIdx + 1) slots

/-- The audit entries of Step F. -/
def mutationAudits (env : Environment J) (req : PushRequest J) (file : ControlFile J)
    (kind : Option AuditKind) (slots : List (Slot J (ResolvedPlan J))) : List (AuditLogEntry J) :=
  slots.flatMap fun slot =>
    match slot.plan with
    | none => []
    | some plan => (mutationAudit env req file kind slot.entry plan).toList

/-- The platform after mutations; one without an edge changes nothing. -/
def applyCalls (calls : List (Call J)) (platform : Platform J) : Platform J :=
  calls.foldl (fun p c => (p.setInstantiationAttributes c.classId c.attributes).getD p) platform

lemma stepF_spec (env : Environment J) (req : PushRequest J) (file : ControlFile J)
    (kind : Option AuditKind) (n : ℕ) (slots : List (Slot J (ResolvedPlan J)))
    (answers : List Answer) (platform : Platform J) :
    let m := stepF env req file kind n slots answers platform
    m.calls <+: plannedCalls n slots ∧
    ∃ applied, applied <+: m.calls ∧ m.platform = applyCalls applied platform ∧
      ∀ r, m.result = .ok r →
        applied = plannedCalls n slots ∧
          r = (slots.map (finishSlot env), mutationAudits env req file kind slots) := by
  induction slots generalizing n answers platform with
  | nil =>
    refine ⟨prefix_rfl, [], prefix_rfl, rfl, ?_⟩
    intro r hr
    cases hr
    exact ⟨rfl, rfl⟩
  | cons slot slots ih =>
    cases hplan : slot.plan with
    | none =>
      obtain ⟨hcalls, applied, hinitial, hplatform, hdone⟩ := ih (n + 1) answers platform
      simp only [stepF, hplan, plannedCalls]
      refine ⟨hcalls, applied, hinitial, hplatform, ?_⟩
      intro r hr
      cases hrest : (stepF env req file kind (n + 1) slots answers platform).result with
      | error e => simp [hrest, Except.map] at hr
      | ok r' =>
        obtain ⟨happlied, rfl⟩ := hdone r' hrest
        simp only [hrest, Except.map, ok.injEq] at hr
        subst hr
        refine ⟨happlied, ?_⟩
        simp [finishSlot, hplan, mutationAudits]
    | some plan =>
      -- a call after which the loop stops, whether or not the platform has merged it
      have hstop : ∀ applied : Bool, ∃ calls,
          calls <+: [(⟨n, slot.entry.classId, plan.outboundPayload⟩ : Call J)] ∧
          (if applied then (platform.setInstantiationAttributes slot.entry.classId
            plan.outboundPayload).getD platform else platform) = applyCalls calls platform := by
        intro applied
        cases applied with
        | false => exact ⟨[], List.nil_prefix, rfl⟩
        | true => exact ⟨_, prefix_rfl, rfl⟩
      have hfirst : [(⟨n, slot.entry.classId, plan.outboundPayload⟩ : Call J)] <+:
          ⟨n, slot.entry.classId, plan.outboundPayload⟩ :: plannedCalls (n + 1) slots :=
        cons_prefix_cons.mpr ⟨rfl, List.nil_prefix⟩
      cases hanswer : answers.headD .merged with
      | rejected errorMessage =>
        obtain ⟨calls, hinitial, hplatform⟩ := hstop false
        simp only [stepF, hplan, hanswer, plannedCalls]
        exact ⟨hfirst, calls, hinitial, hplatform, fun r hr => by cases hr⟩
      | thrown message applied | died applied =>
        obtain ⟨calls, hinitial, hplatform⟩ := hstop applied
        simp only [stepF, hplan, hanswer, plannedCalls]
        exact ⟨hfirst, calls, hinitial, hplatform, fun r hr => by cases hr⟩
      | merged =>
        cases hset : platform.setInstantiationAttributes slot.entry.classId plan.outboundPayload with
        | none =>
          obtain ⟨calls, hinitial, hplatform⟩ := hstop false
          simp only [stepF, hplan, hanswer, hset, plannedCalls]
          exact ⟨hfirst, calls, hinitial, hplatform, fun r hr => by cases hr⟩
        | some platform' =>
          obtain ⟨hcalls, applied, hinitial, hplatform, hdone⟩ := ih (n + 1) answers.tail platform'
          simp only [stepF, hplan, hanswer, hset, plannedCalls]
          refine ⟨cons_prefix_cons.mpr ⟨rfl, hcalls⟩,
            ⟨n, slot.entry.classId, plan.outboundPayload⟩ :: applied,
            cons_prefix_cons.mpr ⟨rfl, hinitial⟩, ?_, ?_⟩
          · simp only [applyCalls, foldl_cons, hset, Option.getD_some]
            exact hplatform
          · intro r hr
            cases hrest : (stepF env req file kind (n + 1) slots answers.tail platform').result with
            | error e => simp [hrest, Except.map] at hr
            | ok r' =>
              obtain ⟨happlied, rfl⟩ := hdone r' hrest
              simp only [hrest, Except.map, ok.injEq] at hr
              subst hr
              refine ⟨by rw [happlied], ?_⟩
              simp [finishSlot, hplan, mutationAudits]

omit [DecidableEq J] in
lemma mem_plannedCalls {n : ℕ} {call : Call J} :
    call ∈ plannedCalls n slots ↔
      ∃ (i : ℕ) (slot : Slot J (ResolvedPlan J)) (plan : ResolvedPlan J),
        slots[i]? = some slot ∧ slot.plan = some plan ∧ call = ⟨n + i, slot.entry.classId, plan.outboundPayload⟩ := by
  induction slots generalizing n with
  | nil => simp [plannedCalls]
  | cons slot slots ih =>
    -- the first slot, and the others one place further
    have hshift : (∃ (i : ℕ) (s : Slot J (ResolvedPlan J)) (plan : ResolvedPlan J),
          (slot :: slots)[i]? = some s ∧ s.plan = some plan ∧
            call = ⟨n + i, s.entry.classId, plan.outboundPayload⟩) ↔
        (∃ plan, slot.plan = some plan ∧ call = ⟨n, slot.entry.classId, plan.outboundPayload⟩) ∨
          call ∈ plannedCalls (n + 1) slots := by
      rw [ih]
      constructor
      · rintro ⟨i, s, plan, hi, hplan, rfl⟩
        cases i with
        | zero =>
          obtain rfl : slot = s := by simpa using hi
          exact .inl ⟨plan, hplan, rfl⟩
        | succ i =>
          exact .inr ⟨i, s, plan, by simpa using hi, hplan, by simp; omega⟩
      · rintro (⟨plan, hplan, rfl⟩ | ⟨i, s, plan, hi, hplan, rfl⟩)
        · exact ⟨0, slot, plan, rfl, hplan, rfl⟩
        · exact ⟨i + 1, s, plan, by simpa using hi, hplan, by simp; omega⟩
    rw [hshift]
    cases hplan : slot.plan with
    | none | some plan => simp [plannedCalls, hplan]

/-! ## The plan of a call -/

/-- The slots that a call has planned: for each class, Steps C and D on the refreshed entry. -/
structure Planned (env : Environment J) (req : PushRequest J) (file : ControlFile J)
    (live : Record String (Attributes J)) (slots : List (Slot J (ResolvedPlan J))) : Prop where
  length_eq : slots.length = file.classes.length
  slot_eq : ∀ (i : ℕ) e, file.classes[i]? = some e → ∃ c slot,
    classifyEntry env req file (refresh live req.freshPlatformAttrs e) = .ok c ∧
      resolveSlot req.decision i c.slot = .ok slot ∧ slots[i]? = some slot

lemma planned_of_stepC (hC : stepC env req file (file.classes.map (refresh live req.freshPlatformAttrs)) =
      .ok classified) (hD : stepD req.decision 0 (classified.map Classified.slot) = .ok slots) :
    Planned env req file live slots := by
  obtain ⟨hlenC, hgetC⟩ := stepC_eq_ok hC
  obtain ⟨hlenD, hgetD⟩ := stepD_eq_ok hD
  refine ⟨by simpa [hlenC] using hlenD, ?_⟩
  intro i e hi
  obtain ⟨c, hc, hclassify⟩ := hgetC i (refresh live req.freshPlatformAttrs e) (by simp [hi])
  obtain ⟨slot, hslot, hresolve⟩ := hgetD i c.slot (by simp [hc])
  exact ⟨c, slot, hclassify, by simpa using hresolve, hslot⟩

omit [DecidableEq J] in
lemma stepD_of_no_plan {decision : BrownfieldDecision J} {n : ℕ}
    {slots : List (Slot J (ClassPushPlan J))} (h : ∀ s ∈ slots, s.plan = none) :
    stepD decision n slots = .ok (slots.map fun s => ⟨s.entry, none⟩) := by
  induction slots generalizing n with
  | nil => rfl
  | cons s slots ih =>
    have hs : resolveSlot decision n s = .ok ⟨s.entry, none⟩ :=
      resolveSlot_of_plan_eq_none (h s (.head _))
    have hrest := ih (n := n + 1) fun t ht => h t (mem_cons_of_mem s ht)
    simp [stepD, hs, hrest]

omit [DecidableEq J] in
lemma planResolved_cases {plan : Plan J} (h : planResolved req file classified stale = .ok plan) :
    (∃ working audits, plan = .unchanged working audits) ∨
    ∃ slots, stepD req.decision 0 (classified.map Classified.slot) = .ok slots ∧
      ((plan = .persist { file with classes := slots.map Slot.entry }
            (classified.filterMap Classified.audit) ∧ ∀ slot ∈ slots, slot.plan = none) ∨
        ∃ kind, stepE req = .proceed kind ∧
          plan = .mutate slots (classified.filterMap Classified.audit) kind stale ∧
          ∃ slot ∈ slots, slot.plan ≠ none) := by
  unfold planResolved at h
  simp only at h
  by_cases hnone : (classified.map Classified.slot).all fun s => s.plan.isNone
  · -- no class has a plan
    have hplans : ∀ s ∈ classified.map Classified.slot, s.plan = none := by
      intro s hs
      simpa using all_eq_true.mp hnone s hs
    rw [if_pos hnone] at h
    by_cases hsettled : classified.any Classified.settled
    · rw [if_pos hsettled] at h
      cases h
      refine .inr ⟨_, stepD_of_no_plan hplans, .inl ⟨?_, ?_⟩⟩
      all_goals simp
    · rw [if_neg hsettled] at h
      exact .inl ⟨_, _, (ok.inj h).symm⟩
  · rw [if_neg hnone] at h
    cases hD : stepD req.decision 0 (classified.map Classified.slot) with
    | error classes =>
      simp only [hD, ok.injEq] at h
      exact .inl ⟨_, _, h.symm⟩
    | ok slots =>
      simp only [hD] at h
      by_cases hsent : slots.all fun s => s.plan.isNone
      · rw [if_pos hsent] at h
        refine .inr ⟨slots, rfl, .inl ⟨(ok.inj h).symm, ?_⟩⟩
        intro slot hslot
        simpa using all_eq_true.mp hsent slot hslot
      · rw [if_neg hsent] at h
        cases hE : stepE req with
        | cancelled =>
          simp only [hE, ok.injEq] at h
          exact .inl ⟨_, _, h.symm⟩
        | cloneAndSwap => simp [hE] at h
        | proceed kind =>
          simp only [hE, ok.injEq] at h
          refine .inr ⟨slots, rfl, .inr ⟨kind, rfl, h.symm, ?_⟩⟩
          simpa [all_eq_true] using hsent

/-- The call has got through Steps 0 to D. -/
structure Reached (env : Environment J) (req : PushRequest J) (file : ControlFile J)
    (live : Record String (Attributes J)) (stale : Bool) (classified : List (Classified J))
    (slots : List (Slot J (ResolvedPlan J))) : Prop where
  brownfield : file.lifecycle = .brownfield
  not_shortCircuits : shortCircuits file = false
  no_externalEdit : externalEdit? file = none
  fetched : fetchLive env req = .ok (live, stale)
  stepC_eq : stepC env req file (file.classes.map (refresh live req.freshPlatformAttrs)) =
    .ok classified
  stepD_eq : stepD req.decision 0 (classified.map Classified.slot) = .ok slots

lemma Reached.planned (h : Reached env req file live stale classified slots) : Planned env req file live slots :=
  planned_of_stepC h.stepC_eq h.stepD_eq

/-- The classes of a push that got through Steps 0 to D. -/
theorem Reached.slotCase (h : Reached env req file live stale classified slots) {i : ℕ}
    {entry : ControlFileClassEntry J} (hi : file.classes[i]? = some entry) :
    ∃ slot, slots[i]? = some slot ∧
      SlotCase env req.decision i (refresh live req.freshPlatformAttrs entry) slot := by
  obtain ⟨c, slot, hC, hD, hslot⟩ := h.planned.slot_eq i entry hi
  exact ⟨slot, hslot, slot_cases hC hD⟩

lemma planPush_cases {plan : Plan J} (h : planPush env req file = .ok plan) :
    (∃ working audits, plan = .unchanged working audits) ∨
    ∃ live stale classified slots, Reached env req file live stale classified slots ∧
      ((plan = .persist { file with classes := slots.map Slot.entry }
            (classified.filterMap Classified.audit) ∧ ∀ slot ∈ slots, slot.plan = none) ∨
        ∃ kind, stepE req = .proceed kind ∧
          plan = .mutate slots (classified.filterMap Classified.audit) kind stale ∧
          ∃ slot ∈ slots, slot.plan ≠ none) := by
  by_cases hlife : file.lifecycle = .brownfield
  swap
  · simp [planPush, hlife] at h
  cases hshort : shortCircuits file with
  | true =>
    simp only [planPush, hlife, hshort, ne_eq, not_true_eq_false, if_false, if_true,
      ok.injEq] at h
    exact .inl ⟨_, _, h.symm⟩
  | false =>
    cases hedit : externalEdit? file with
    | some e => simp [planPush, hlife, hshort, hedit] at h
    | none =>
      cases hfetch : fetchLive env req with
      | error e => simp [planPush, hlife, hshort, hedit, hfetch] at h
      | ok r =>
        obtain ⟨live, stale⟩ := r
        cases hC : stepC env req file (file.classes.map (refresh live req.freshPlatformAttrs)) with
        | error e => simp [planPush, hlife, hshort, hedit, hfetch, hC] at h
        | ok classified =>
          simp only [planPush, hlife, hshort, hedit, hfetch, hC, ne_eq, not_true_eq_false,
            if_false, Bool.false_eq_true] at h
          rcases planResolved_cases h with hun | ⟨slots, hD, hplan⟩
          · exact .inl hun
          · exact .inr ⟨live, stale, classified, slots,
              ⟨hlife, hshort, hedit, hfetch, hC, hD⟩, hplan⟩

/-! ## A whole call -/

/-- The ways a call can go. -/
inductive PushCase (env : Environment J) (req : PushRequest J) (file : ControlFile J) (w : World J)
    (r : Push J) : Prop
  /-- It has no effect. -/
  | noEffect (world_eq : r.world = w) (calls_eq : r.calls = []) (wrote_eq : r.wrote = false)
  /-- It persists, but there was nothing to send. -/
  | settled {live stale classified slots : _}
      (reached : Reached env req file live stale classified slots)
      (nothing : ∀ slot ∈ slots, slot.plan = none)
      (calls_eq : r.calls = []) (wrote_eq : r.wrote = true)
      (world_eq : r.world = w.persist { file with classes := slots.map Slot.entry }
        (classified.filterMap Classified.audit))
  /-- The call fails in Step F or dies before it writes; file and log stay as they are. -/
  | failed {live stale classified slots kind applied : _}
      (reached : Reached env req file live stale classified slots)
      (proceeds : stepE req = .proceed kind)
      (calls_initial : r.calls <+: plannedCalls 0 slots) (applied_initial : applied <+: r.calls)
      (wrote_eq : r.wrote = false)
      (world_eq : r.world = { w with platform := applyCalls applied w.platform })
  /-- Step F gets through. -/
  | mutated {live stale classified slots kind : _}
      (reached : Reached env req file live stale classified slots)
      (proceeds : stepE req = .proceed kind)
      (something : ∃ slot ∈ slots, slot.plan ≠ none)
      (calls_eq : r.calls = plannedCalls 0 slots) (wrote_eq : r.wrote = true)
      (world_eq : r.world =
        { platform := applyCalls (plannedCalls 0 slots) w.platform
          disk := { file with
            classes := slots.map (finishSlot env)
            platformState := some (bumpLastPushedAt env.now file.platformState) }
          audit := w.audit ++ (classified.filterMap Classified.audit ++
            mutationAudits env req file kind slots) })

lemma push_cases (env : Environment J) (req : PushRequest J) (file : ControlFile J)
    (w : World J) : PushCase env req file w (pushBrownfieldControl env req file w) := by
  cases hplan : planPush env req file with
  | error e =>
    refine .noEffect ?_ ?_ ?_ <;> simp [pushBrownfieldControl, hplan]
  | ok plan =>
    rcases planPush_cases hplan with ⟨working, audits, rfl⟩ |
      ⟨live, stale, classified, slots, hreached, ⟨rfl, hnone⟩ | ⟨kind, hE, rfl, hsome⟩⟩
    · refine .noEffect ?_ ?_ ?_ <;> simp [pushBrownfieldControl, hplan]
    · cases hdies : env.diesBeforeWrite with
      | true => refine .noEffect ?_ ?_ ?_ <;> simp [pushBrownfieldControl, hplan, hdies]
      | false =>
        refine .settled hreached hnone ?_ ?_ ?_ <;> simp [pushBrownfieldControl, hplan, hdies]
    · obtain ⟨hcalls, applied, hinitial, hplatform, hdone⟩ :=
        stepF_spec env req file kind 0 slots env.answers w.platform
      cases hresult : (stepF env req file kind 0 slots env.answers w.platform).result with
      | error e =>
        -- the loop has stopped at some class
        have hpush : (pushBrownfieldControl env req file w).calls =
              (stepF env req file kind 0 slots env.answers w.platform).calls ∧
            (pushBrownfieldControl env req file w).wrote = false ∧
            (pushBrownfieldControl env req file w).world =
              { w with platform := applyCalls applied w.platform } := by
          cases e <;> simp [pushBrownfieldControl, hplan, hresult, hplatform]
        refine .failed hreached hE ?_ ?_ hpush.2.1 hpush.2.2
        all_goals rwa [hpush.1]
      | ok result =>
        obtain ⟨happlied, rfl⟩ := hdone result hresult
        subst happlied
        have hall : (stepF env req file kind 0 slots env.answers w.platform).calls =
            plannedCalls 0 slots :=
          hcalls.eq_of_length_le hinitial.length_le
        cases hdies : env.diesBeforeWrite with
        | true =>
          have hpush : (pushBrownfieldControl env req file w).calls = plannedCalls 0 slots := by
            simp [pushBrownfieldControl, hplan, hresult, hall, hdies]
          have hworld : (pushBrownfieldControl env req file w).world =
              { w with platform := applyCalls (plannedCalls 0 slots) w.platform } := by
            simp [pushBrownfieldControl, hplan, hresult, hplatform, hdies]
          refine .failed hreached hE ?_ ?_ ?_ hworld
          · rw [hpush]
          · rw [hpush]
          · simp [pushBrownfieldControl, hplan, hresult, hdies]
        | false =>
          refine .mutated hreached hE hsome ?_ ?_ ?_
          · simp [pushBrownfieldControl, hplan, hresult, hall, hdies]
          · simp [pushBrownfieldControl, hplan, hresult, hdies]
          · simp [pushBrownfieldControl, hplan, hresult, hplatform, hdies, World.persist]

/-- The call has got to its end: every planned mutation was merged, and the file was written. -/
structure Completed (env : Environment J) (req : PushRequest J) (file : ControlFile J) (w : World J)
    (r : Push J) (live : Record String (Attributes J)) (stale : Bool)
    (classified : List (Classified J)) (slots : List (Slot J (ResolvedPlan J))) : Prop where
  reached : Reached env req file live stale classified slots
  platform_eq : r.world.platform = applyCalls (plannedCalls 0 slots) w.platform
  disk_eq : r.world.disk = { file with
    classes := slots.map (finishSlot env)
    platformState := r.world.disk.platformState }
  /-- The time of the push is noted only if something was sent. -/
  platformState_eq : r.world.disk.platformState = file.platformState ∨
    r.world.disk.platformState = some (bumpLastPushedAt env.now file.platformState)
  calls_eq : r.calls = plannedCalls 0 slots

lemma Completed.classes_eq {w : World J} {r : Push J} (h : Completed env req file w r live stale classified slots) :
    r.world.disk.classes = slots.map (finishSlot env) := by
  rw [h.disk_eq]

omit [DecidableEq J] in
lemma plannedCalls_eq_nil_iff {n : ℕ} : plannedCalls n slots = [] ↔ ∀ slot ∈ slots, slot.plan = none := by
  rw [eq_nil_iff_forall_not_mem]
  constructor
  · intro h slot hslot
    by_contra hsome
    obtain ⟨plan, hplan⟩ := Option.ne_none_iff_exists'.mp hsome
    obtain ⟨i, hi⟩ := mem_iff_getElem?.mp hslot
    exact h _ (mem_plannedCalls.mpr ⟨i, slot, plan, hi, hplan, rfl⟩)
  · intro h call hcall
    obtain ⟨i, slot, plan, hi, hplan, -⟩ := mem_plannedCalls.mp hcall
    rw [h slot (mem_of_getElem? hi)] at hplan
    cases hplan

/-- A call that has written the file has got to its end. -/
theorem exists_completed_of_wrote {w : World J} (h : (pushBrownfieldControl env req file w).wrote = true) :
    ∃ live stale classified slots, Completed env req file w (pushBrownfieldControl env req file w)
      live stale classified slots := by
  have hcase := push_cases env req file w
  cases hcase with
  | noEffect _ _ wrote_eq =>
    rw [h] at wrote_eq
    cases wrote_eq
  | @settled live stale classified slots reached nothing calls_eq wrote_eq world_eq =>
    have hnil : plannedCalls 0 slots = [] := plannedCalls_eq_nil_iff.mpr nothing
    have hclasses : slots.map Slot.entry = slots.map (finishSlot env) :=
      map_congr_left fun slot hslot => by simp [finishSlot, nothing slot hslot]
    refine ⟨live, stale, classified, slots, reached, ?_, ?_, .inl ?_, ?_⟩
    · rw [world_eq, hnil]
      rfl
    · rw [world_eq, hclasses]
      rfl
    · rw [world_eq]
      rfl
    · rw [calls_eq, hnil]
  | failed _ _ _ _ wrote_eq =>
    rw [h] at wrote_eq
    cases wrote_eq
  | @mutated live stale classified slots _ reached _ _ calls_eq _ world_eq =>
    refine ⟨live, stale, classified, slots, reached, ?_, ?_, .inr ?_, calls_eq⟩
    all_goals rw [world_eq]

/-- A mutation that was sent is the one planned for its class. -/
theorem exists_slots_of_mem_calls {w : World J} {call : Call J}
    (h : call ∈ (pushBrownfieldControl env req file w).calls) :
    ∃ live stale slots, fetchLive env req = .ok (live, stale) ∧
      Planned env req file live slots ∧ call ∈ plannedCalls 0 slots := by
  have hcase := push_cases env req file w
  cases hcase with
  | noEffect world_eq calls_eq wrote_eq | settled reached nothing calls_eq wrote_eq world_eq => simp [calls_eq] at h
  | failed reached _ calls_initial =>
    exact ⟨_, _, _, reached.fetched, reached.planned, calls_initial.subset h⟩
  | mutated reached _ _ calls_eq =>
    rw [calls_eq] at h
    exact ⟨_, _, _, reached.fetched, reached.planned, h⟩

end ControlLibrary.Brownfield
