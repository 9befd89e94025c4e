import Dethernety.Foundations.Transition
import Dethernety.ControlLibrary.BrownfieldProgress

/-!
# The audit log of forced pushes

Attempts to push a shared control, one after the other, as a transition system. The state keeps
the world and, as a ghost, what the attempts so far have changed on the platform. A refused
mutation throws the buffered audit entries of the earlier ones away, and the retry finds their
values already applied and writes no entry. So the log is complete along runs in which no mutation
is refused after one that has changed something (`audit_complete`).
-/

open List

namespace ControlLibrary.Brownfield

variable {J : Type*} [DecidableEq J]

/-! ## Changes -/

/-- The platform has gone over to `v` for the key; a removal is a change to `null`. -/
def Changed (before after : Platform J) (classId k : String) (v : JsonValue J) : Prop :=
  valueAt before classId k ≠ valueAt after classId k ∧ v = (valueAt after classId k).getD .null

instance (before after : Platform J) (classId k : String) (v : JsonValue J) :
    Decidable (Changed before after classId k v) :=
  inferInstanceAs (Decidable (_ ∧ _))

/-- The entry records that the value was pushed. -/
def Records (entry : AuditLogEntry J) (classId k : String) (v : JsonValue J) : Prop :=
  entry.classId = classId ∧ entry.attributesPushed.get? k = some (some v)

instance (entry : AuditLogEntry J) (classId k : String) (v : JsonValue J) :
    Decidable (Records entry classId k v) :=
  inferInstanceAs (Decidable (_ ∧ _))

section

variable {platform : Platform J} {calls : List (Call J)} {classId k : String} {v : JsonValue J}

omit [DecidableEq J] in
lemma exists_call_of_changed (hnodup : (calls.map Call.classId).Nodup)
    (h : Changed platform (applyCalls calls platform) classId k v) :
    ∃ call ∈ calls, call.classId = classId ∧ call.attributes.get? k = some (some v) := by
  obtain ⟨hne, hv⟩ := h
  by_cases hcall : ∃ call ∈ calls, call.classId = classId
  · obtain ⟨call, hcall, rfl⟩ := hcall
    refine ⟨call, hcall, rfl, ?_⟩
    unfold valueAt at hne hv
    rw [get?_applyCalls_of_mem hnodup hcall] at hne hv
    cases hbag : platform.get? call.classId with
    | none => simp [hbag] at hne
    | some bag =>
      simp only [hbag, Option.map_some, Option.bind_some, get?_mergeAttributes] at hne hv
      -- the key is sent, or the value would not have changed
      rcases hsent : call.attributes.get? k with _ | _ | _ | x
      · simp [hsent, stored] at hne
      · simp [hsent, stored] at hne
      all_goals
        simp [hsent, stored] at hv
        rw [hv]
  · refine absurd ?_ hne
    unfold valueAt
    rw [get?_applyCalls_of_notMem fun call hmem hid => hcall ⟨call, hmem, hid⟩]

/-- The mutation changes nothing on the platform. -/
def IsNoop (platform : Platform J) (call : Call J) : Prop :=
  ∀ bag, platform.get? call.classId = some bag →
    (mergeAttributes bag call.attributes).SameEntries bag

omit [DecidableEq J] in
/-- Mutations each of which changes nothing change nothing together. -/
lemma not_changed_of_noops (hnodup : (calls.map Call.classId).Nodup) (hnoop : ∀ call ∈ calls, IsNoop platform call) :
    ¬ Changed platform (applyCalls calls platform) classId k v := by
  intro h
  obtain ⟨call, hcall, rfl, -⟩ := exists_call_of_changed hnodup h
  apply h.1
  unfold valueAt
  rw [get?_applyCalls_of_mem hnodup hcall]
  cases hbag : platform.get? call.classId with
  | none => rfl
  | some bag => exact (hnoop call hcall bag hbag k).symm

end

/-! ## Refused mutations -/

section

variable {env : Environment J} {req : PushRequest J} {file : ControlFile J}
  {kind : Option AuditKind} {n : ℕ} {slots : List (Slot J (ResolvedPlan J))}
  {answers : List Answer} {platform : Platform J}

/-- The mutation with this index returns `success: false`. -/
def Refused (answers : List Answer) (platform : Platform J) (index : ℕ) (call : Call J) : Prop :=
  (∃ errorMessage, answers[index]? = some (.rejected errorMessage)) ∨
    platform.get? call.classId = none

/-- Without crashes, Step F stops at the first mutation that is refused. -/
lemma exists_refused_of_stepF {error : Option PushError}
    (hanswers : ∀ a ∈ answers, a = .merged ∨ ∃ errorMessage, a = .rejected errorMessage)
    (h : (stepF env req file kind n slots answers platform).result = .error error) :
    ∃ before call after, plannedCalls n slots = before ++ call :: after ∧ Refused answers platform before.length call ∧
      (stepF env req file kind n slots answers platform).platform = applyCalls before platform := by
  induction slots generalizing n answers platform error with
  | nil => cases h
  | cons slot slots ih =>
    cases hplan : slot.plan with
    | none =>
      simp only [stepF, hplan, plannedCalls] at h ⊢
      cases hrest : (stepF env req file kind (n + 1) slots answers platform).result with
      | ok r => simp [hrest, Except.map] at h
      | error e => exact ih hanswers hrest
    | some plan =>
      -- an answer other than a merge is on the list
      have hhead : ∀ a, answers.headD .merged = a → a ≠ .merged → answers[0]? = some a := by
        intro a ha hne
        cases answers with
        | nil => exact absurd ha.symm hne
        | cons b answers => exact congrArg some ha
      cases hanswer : answers.headD .merged with
      | rejected errorMessage =>
        simp only [stepF, hplan, hanswer, plannedCalls]
        exact ⟨[], _, _, rfl, .inl ⟨errorMessage, hhead _ hanswer (by simp)⟩, rfl⟩
      | thrown message applied | died applied =>
        have hmem := mem_of_getElem? (hhead _ hanswer (by simp))
        simpa using hanswers _ hmem
      | merged =>
        cases hset : platform.setInstantiationAttributes slot.entry.classId plan.outboundPayload with
        | none =>
          simp only [stepF, hplan, hanswer, hset, plannedCalls]
          refine ⟨[], _, _, rfl, .inr ?_, rfl⟩
          simpa [Platform.setInstantiationAttributes] using hset
        | some platform' =>
          simp only [stepF, hplan, hanswer, hset, plannedCalls] at h ⊢
          cases hrest : (stepF env req file kind (n + 1) slots answers.tail platform').result with
          | ok r => simp [hrest, Except.map] at h
          | error e =>
            obtain ⟨before, call, after, hcalls, hrefused, hplatform⟩ :=
              ih (fun a ha => hanswers a (mem_of_mem_tail ha)) hrest
            refine ⟨_ :: before, call, after, by rw [hcalls, cons_append], ?_, ?_⟩
            · -- the answers are one place further, and the edges are the same
              rcases hrefused with ⟨errorMessage, hrejected⟩ | hnone
              · exact .inl ⟨errorMessage, by simpa using hrejected⟩
              · refine .inr ?_
                rw [← Option.not_isSome_iff_eq_none] at hnone ⊢
                rwa [← isSome_get?_setInstantiationAttributes hset]
            · simp only [applyCalls, foldl_cons, hset, Option.getD_some]
              exact hplatform

lemma exists_mutationAudit_of_mem {sharedAuditKind : AuditKind} {call : Call J} (h : call ∈ plannedCalls 0 slots) :
    ∃ entry ∈ mutationAudits env req file (some sharedAuditKind) slots,
      entry.classId = call.classId ∧ entry.attributesPushed = call.attributes := by
  obtain ⟨i, slot, plan, hslot, hplan, rfl⟩ := mem_plannedCalls.mp h
  unfold mutationAudits
  simp only [mem_flatMap]
  exact ⟨_, ⟨slot, mem_of_getElem? hslot, by simp [hplan, mutationAudit]; rfl⟩, rfl, rfl⟩

end

/-! ## One attempt -/

/-- A call of `pushBrownfieldControl` on the file on disk. -/
structure Attempt (J : Type*) where
  env : Environment J
  req : PushRequest J

/-- The call. -/
def Attempt.push (a : Attempt J) (w : World J) : Push J :=
  pushBrownfieldControl a.env a.req w.disk w

/-- The control is shared and is pushed anyway; a mutation may be refused, but nothing crashes. -/
structure Attempt.Forced (a : Attempt J) : Prop where
  shared : isAlone a.req = false
  pushAnyway : a.req.decision.sharedOwnership = .pushAnyway
  answers : ∀ x ∈ a.env.answers, x = .merged ∨ ∃ errorMessage, x = .rejected errorMessage
  lives : a.env.diesBeforeWrite = false

/-- If the attempt gets to Step F, no mutation is refused there after one that changes the
platform. -/
def Attempt.RefusedInTime (a : Attempt J) (w : World J) : Prop :=
  ∀ slots audits kind stale, planPush a.env a.req w.disk = .ok (.mutate slots audits kind stale) →
    ∀ before call after, plannedCalls 0 slots = before ++ call :: after →
      Refused a.env.answers w.platform before.length call → ∀ c ∈ before, IsNoop w.platform c

section

variable {a : Attempt J} {w : World J}

omit [DecidableEq J] in
lemma not_changed_self {platform : Platform J} {classId k : String} {v : JsonValue J} :
    ¬ Changed platform platform classId k v :=
  fun h => h.1 rfl

omit [DecidableEq J] in
lemma Attempt.Forced.stepE_eq (h : a.Forced) : stepE a.req = .proceed (some .forceShared) := by
  simp [stepE, h.shared, h.pushAnyway]

lemma Attempt.oneEntryPerClass (hone : w.disk.OneEntryPerClass) : (a.push w).world.disk.OneEntryPerClass := by
  unfold ControlFile.OneEntryPerClass Attempt.push
  rw [map_classId_disk]
  exact hone

/-- An attempt whose refusals are in time records in the log whatever it changes. -/
lemma Attempt.exists_appended (hone : w.disk.OneEntryPerClass) (hforced : a.Forced) (htime : a.RefusedInTime w) :
    ∃ appended, (a.push w).world.audit = w.audit ++ appended ∧
      ∀ classId k v, Changed w.platform (a.push w).world.platform classId k v →
        ∃ entry ∈ appended, Records entry classId k v := by
  unfold Attempt.push
  cases hplan : planPush a.env a.req w.disk with
  | error e =>
    refine ⟨[], by simp [pushBrownfieldControl, hplan], fun classId k v hchanged => ?_⟩
    simp only [pushBrownfieldControl, hplan] at hchanged
    exact absurd hchanged not_changed_self
  | ok plan =>
    rcases planPush_cases hplan with ⟨working, audits, rfl⟩ |
      ⟨live, stale, classified, slots, hreached, ⟨rfl, _⟩ | ⟨kind, hE, rfl, hsome⟩⟩
    · refine ⟨[], by simp [pushBrownfieldControl, hplan], fun classId k v hchanged => ?_⟩
      simp only [pushBrownfieldControl, hplan] at hchanged
      exact absurd hchanged not_changed_self
    · refine ⟨classified.filterMap Classified.audit, ?_, fun classId k v hchanged => ?_⟩
      · simp [pushBrownfieldControl, hplan, hforced.lives, World.persist]
      · simp [pushBrownfieldControl, hplan, hforced.lives, World.persist] at hchanged
        exact absurd hchanged not_changed_self
    · obtain rfl : some AuditKind.forceShared = kind := by
        rw [hforced.stepE_eq] at hE
        exact Ownership.proceed.inj hE
      have hnodup := hreached.nodup_classId hone
      cases hresult : (stepF a.env a.req w.disk (some .forceShared) 0 slots a.env.answers
          w.platform).result with
      | error e =>
        -- the mutations before the refused one have changed nothing
        obtain ⟨before, call, after, hcalls, hrefused, hplatform⟩ :=
          exists_refused_of_stepF hforced.answers hresult
        have hnoop := htime _ _ _ _ hplan before call after hcalls hrefused
        rw [hcalls, map_append] at hnodup
        have hworld : (pushBrownfieldControl a.env a.req w.disk w).world =
            { w with platform := applyCalls before w.platform } := by
          cases e <;> simp [pushBrownfieldControl, hplan, hresult, hplatform]
        refine ⟨[], by simp [hworld], fun classId k v hchanged => ?_⟩
        rw [hworld] at hchanged
        exact absurd hchanged (not_changed_of_noops (nodup_append.mp hnodup).1 hnoop)
      | ok result =>
        obtain ⟨-, applied, -, hplatform, hdone⟩ := stepF_spec a.env a.req w.disk
          (some .forceShared) 0 slots a.env.answers w.platform
        obtain ⟨rfl, rfl⟩ := hdone result hresult
        refine ⟨classified.filterMap Classified.audit ++
          mutationAudits a.env a.req w.disk (some .forceShared) slots, ?_, ?_⟩
        · simp [pushBrownfieldControl, hplan, hresult, hforced.lives, World.persist]
        · intro classId k v hchanged
          have hworld : (pushBrownfieldControl a.env a.req w.disk w).world.platform =
              applyCalls (plannedCalls 0 slots) w.platform := by
            simp [pushBrownfieldControl, hplan, hresult, hplatform, hforced.lives, World.persist]
          rw [hworld] at hchanged
          obtain ⟨call, hcall, hid, hsent⟩ := exists_call_of_changed hnodup hchanged
          obtain ⟨entry, hentry, hclass, hpushed⟩ := exists_mutationAudit_of_mem hcall
          exact ⟨entry, mem_append_right _ hentry, hclass.trans hid, by rw [hpushed, hsent]⟩

lemma Attempt.refusedInTime_of_first (hedges : ∀ e ∈ w.disk.classes, (w.platform.get? e.classId).isSome)
    (hfirst : ∀ (i : ℕ) errorMessage, a.env.answers[i]? = some (.rejected errorMessage) → i = 0) :
    a.RefusedInTime w := by
  intro slots audits kind stale hplan before call after hcalls hrefused c hc
  rcases hrefused with ⟨errorMessage, hrejected⟩ | hnone
  · rw [length_eq_zero_iff.mp (hfirst _ _ hrejected)] at hc
    cases hc
  · -- the planned mutations are about classes of the file
    rcases planPush_cases hplan with ⟨working, audits', hplan'⟩ |
      ⟨live, stale', classified, slots', hreached, ⟨hplan', -⟩ | ⟨kind', -, hplan', -⟩⟩
    · cases hplan'
    · cases hplan'
    · cases hplan'
      have hmem : call ∈ plannedCalls 0 slots := by simp [hcalls]
      obtain ⟨i, slot, plan, hslot, -, rfl⟩ := mem_plannedCalls.mp hmem
      obtain ⟨entry, hentry⟩ := hreached.exists_entry hslot
      have hedge := hedges entry (mem_of_getElem? hentry)
      rw [← hreached.classId_eq hentry hslot, hnone] at hedge
      cases hedge

end

/-! ## Sequences of attempts -/

/-- A sequence of attempts: the world it started from, the world now, what was changed on the
platform since, and how the last attempt ended. -/
structure Session (J : Type*) where
  start : World J
  world : World J
  changed : String → String → JsonValue J → Prop
  last : Option (Outcome J)

/-- Before the first attempt. -/
def Session.initial (w : World J) : Session J :=
  ⟨w, w, fun _ _ _ => False, none⟩

def Session.attempt (s : Session J) (a : Attempt J) : Session J where
  start := s.start
  world := (a.push s.world).world
  changed classId k v :=
    s.changed classId k v ∨ Changed s.world.platform (a.push s.world).world.platform classId k v
  last := some (a.push s.world).outcome

/-- The sequences of attempts on a control file with one entry per class. -/
def sessions : TransitionSystem (Session J) (Attempt J) where
  init s := ∃ w : World J, w.disk.OneEntryPerClass ∧ s = Session.initial w
  next s a := some (s.attempt a)

/-- The entries that the attempts have appended to the log. -/
def Session.appended (s : Session J) : List (AuditLogEntry J) :=
  s.world.audit.drop s.start.audit.length

/-- Whatever the attempts have changed on the platform is in the log. -/
def AuditComplete (s : Session J) : Prop :=
  ∀ classId k v, s.changed classId k v → ∃ entry ∈ s.appended, Records entry classId k v

/-- What a sequence of attempts keeps. -/
structure SessionInv (s : Session J) : Prop where
  oneEntryPerClass : s.world.disk.OneEntryPerClass
  start_prefix : s.start.audit <+: s.world.audit
  complete : AuditComplete s

lemma SessionInv.attempt {s : Session J} {a : Attempt J} (h : SessionInv s) (hforced : a.Forced)
    (htime : a.RefusedInTime s.world) : SessionInv (s.attempt a) := by
  obtain ⟨new, haudit, hnew⟩ := Attempt.exists_appended h.oneEntryPerClass hforced htime
  have hlength := h.start_prefix.length_le
  have happended : (s.attempt a).appended = s.appended ++ new := by
    simp only [Session.appended, Session.attempt, haudit]
    rw [drop_append_of_le_length hlength]
  refine ⟨Attempt.oneEntryPerClass h.oneEntryPerClass, ?_, ?_⟩
  · simp only [Session.attempt, haudit]
    exact h.start_prefix.trans (prefix_append _ _)
  · intro classId k v hchanged
    rw [happended]
    rcases hchanged with hchanged | hchanged
    · -- an earlier change: the log only grows
      obtain ⟨entry, hentry, hrecords⟩ := h.complete classId k v hchanged
      exact ⟨entry, mem_append_left _ hentry, hrecords⟩
    · obtain ⟨entry, hentry, hrecords⟩ := hnew classId k v hchanged
      exact ⟨entry, mem_append_right _ hentry, hrecords⟩

/-- Along every sequence of forced pushes in which no mutation is refused after one that has
changed the platform, the log records every change. -/
theorem audit_complete {s : Session J}
    (h : sessions.Reachable (fun s a => a.Forced ∧ a.RefusedInTime s.world) s) :
    AuditComplete s := by
  refine (h.invariant (P := SessionInv) ?_ ?_).complete
  · rintro s ⟨w, hone, rfl⟩
    exact ⟨hone, prefix_rfl, fun classId k v hchanged => absurd hchanged id⟩
  · rintro s a s' hinv ⟨hforced, htime⟩ hnext
    cases hnext
    exact hinv.attempt hforced htime

/-- A forced attempt on `sharedFile` with these answers. -/
def forcedAttempt (platform : Platform ℕ) (answers : List Answer) : Attempt ℕ where
  env := environment platform answers
  req := request .pushAnyway ["model", "other"] []

/-- Two classes with one edited key each. -/
def sharedFile : ControlFile ℕ :=
  brownfieldFile [editedEntry "one" [("a", 2)] [("a", 1)] [("a", 1)],
    editedEntry "two" [("b", 2)] [("b", 1)] [("b", 1)]]

/-- The platform with these values of the two keys. -/
def sharedPlatform (one two : ℕ) : Platform ℕ :=
  platformOf [("one", [("a", one)]), ("two", [("b", two)])]

/-- Before the first attempt. -/
def sharedWorld : World ℕ :=
  ⟨sharedPlatform 1 1, sharedFile, []⟩

lemma sharedWorld_oneEntryPerClass : sharedWorld.disk.OneEntryPerClass := by
  unfold ControlFile.OneEntryPerClass
  decide

lemma forcedAttempt_forced (platform : Platform ℕ) (answers : List Answer)
    (h : ∀ x ∈ answers, x = .merged ∨ ∃ errorMessage, x = .rejected errorMessage) :
    (forcedAttempt platform answers).Forced :=
  ⟨rfl, rfl, h, rfl⟩

/-- The first attempt is refused at once, the second one gets through. -/
theorem audit_complete_refused_at_once :
    AuditComplete (((Session.initial sharedWorld).attempt
      (forcedAttempt (sharedPlatform 1 1) [.rejected none])).attempt
      (forcedAttempt (sharedPlatform 1 1) [])) := by
  apply audit_complete
  have hinit : sessions.Reachable (fun s a => a.Forced ∧ a.RefusedInTime s.world)
      (Session.initial sharedWorld) := .init ⟨_, sharedWorld_oneEntryPerClass, rfl⟩
  refine (hinit.step ⟨forcedAttempt_forced _ _ (by simp), ?_⟩ rfl).step
    ⟨forcedAttempt_forced _ _ (by simp), ?_⟩ rfl
  · apply Attempt.refusedInTime_of_first (by decide +kernel)
    intro i errorMessage hi
    cases i with
    | zero => rfl
    | succ i => simp [forcedAttempt, environment] at hi
  · apply Attempt.refusedInTime_of_first (by decide +kernel)
    intro i errorMessage hi
    simp [forcedAttempt, environment] at hi

/-- The second class is refused after the first one was changed, and the next attempt, which
returns normally, finds the first class already applied: the change is in no entry. -/
theorem forced_push_not_recorded :
    let s := ((Session.initial sharedWorld).attempt
      (forcedAttempt (sharedPlatform 1 1) [.merged, .rejected none])).attempt
      (forcedAttempt (sharedPlatform 2 1) [])
    sessions.Reachable (fun _ a => a.Forced) s ∧
      (∃ result, s.last = some (.returned result) ∧ result.mutated = true) ∧
      ¬ AuditComplete s := by
  intro s
  refine ⟨?_, ?_, ?_⟩
  · have hinit : sessions.Reachable (fun _ a => a.Forced) (Session.initial sharedWorld) :=
      .init ⟨_, sharedWorld_oneEntryPerClass, rfl⟩
    exact (hinit.step (forcedAttempt_forced _ _ (by simp)) rfl).step
      (forcedAttempt_forced _ _ (by simp)) rfl
  · have hlast : ∃ outcome, s.last = some outcome ∧
        (match outcome with | .returned result => result.mutated | _ => false) = true :=
      ⟨_, rfl, by decide +kernel⟩
    obtain ⟨outcome, hlast, hmutated⟩ := hlast
    cases outcome with
    | returned result => exact ⟨result, hlast, hmutated⟩
    | threw error | died => cases hmutated
  · intro h
    have hchanged : s.changed "one" "a" (.value 2) :=
      .inl (.inr (by decide +kernel))
    obtain ⟨entry, hentry, hrecords⟩ := h "one" "a" (.value 2) hchanged
    have hnone : ∀ entry ∈ s.appended, ¬ Records entry "one" "a" (.value 2) := by decide +kernel
    exact hnone entry hentry hrecords

end ControlLibrary.Brownfield
