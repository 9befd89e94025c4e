import Dethernety.ControlLibrary.BrownfieldIdempotence

/-!
# Pushes that get through

The converse of the inversion lemmas: when nothing stops a push before Step E (`Admissible`) it
reaches Step F (`Admissible.exists_reached`), and when the platform answers every mutation it gets
to the end (`stepF_eq_ok`). With one entry per class the platform's bag of a class is then the old
one with the payload of that class merged in (`get?_applyCalls_plannedCalls`).
-/

open List

namespace ControlLibrary.Brownfield

variable {J : Type*} [DecidableEq J]

/-! ## Steps C and D -/

section

variable {env : Environment J} {req : PushRequest J} {file : ControlFile J} {classIdx : ℕ}
  {entry : ControlFileClassEntry J} {live : Record String (Attributes J)} {stale : Bool}

/-- Nothing about the pending edit of a class stops a push: no key is blocked, and every conflict
is decided. -/
structure ClassAdmissible (decision : BrownfieldDecision J) (classIdx : ℕ)
    (entry : ControlFileClassEntry J) (p : PendingEditBlock J) : Prop where
  unblocked : ∀ k ∈ changedKeys p, ¬ IsBlocked (liveOf entry) p k
  decided : ∀ k ∈ conflictKeys entry p, decisionFor decision classIdx k ≠ none

/-- Nothing about the file stops a push before Step E. -/
structure Admissible (req : PushRequest J) (file : ControlFile J)
    (live : Record String (Attributes J)) : Prop where
  brownfield : file.lifecycle = .brownfield
  no_externalEdit : externalEdit? file = none
  classes : ∀ (i : ℕ) entry p, file.classes[i]? = some entry → entry.pendingEdit = some p →
    allRevertedToPrevious entry.attributes p = false →
    ClassAdmissible req.decision i (refresh live req.freshPlatformAttrs entry) p

/-- Step C gets through a class without blocked keys, and leaves Step D its conflicts. -/
lemma exists_classifyEntry_eq_ok
    (h : ∀ p, entry.pendingEdit = some p → allRevertedToPrevious entry.attributes p = false →
      ∀ k ∈ changedKeys p, ¬ IsBlocked (liveOf entry) p k) :
    ∃ c, classifyEntry env req file entry = .ok c ∧
      ∀ plan, c.slot.plan = some plan → c.slot.entry = entry ∧ ∃ p,
        entry.pendingEdit = some p ∧ allRevertedToPrevious entry.attributes p = false ∧
          plan.conflictKeys = conflictKeys entry p := by
  unfold classifyEntry
  have hcase := classify_cases entry
  generalize classify entry = verdict at hcase
  cases hcase with
  | untouched | reverted | alreadyApplied => exact ⟨_, rfl, by simp⟩
  | blocked keys pending reverts changed is_blocked => exact absurd is_blocked (h _ pending reverts _ changed)
  | planned edit =>
    refine ⟨_, rfl, ?_⟩
    rintro plan hplan
    cases hplan
    exact ⟨rfl, _, edit.pending, edit.reverts, rfl⟩

variable {slots : List (Slot J (ResolvedPlan J))} {classified : List (Classified J)} {decision : BrownfieldDecision J}

omit [DecidableEq J] in
lemma exists_resolveSlot_eq_ok {slot : Slot J (ClassPushPlan J)}
    (h : ∀ plan, slot.plan = some plan → ∀ k ∈ plan.conflictKeys, decisionFor decision classIdx k ≠ none) :
    ∃ resolved, resolveSlot decision classIdx slot = .ok resolved := by
  unfold resolveSlot
  cases hplan : slot.plan with
  | none => exact ⟨_, rfl⟩
  | some plan =>
    have hres : ∃ s, resolveKeys decision classIdx slot.entry plan.conflictKeys
        ⟨plan.outboundPayload, slot.entry, []⟩ = .ok s :=
      exists_resolveKeys_eq_ok (h plan hplan) _
    obtain ⟨s, hs⟩ := hres
    simp only [hs]
    split
    all_goals exact ⟨_, rfl⟩

lemma exists_stepC_eq_ok {classes : List (ControlFileClassEntry J)}
    (h : ∀ e ∈ classes, ∃ c, classifyEntry env req file e = .ok c) :
    ∃ classified, stepC env req file classes = .ok classified := by
  induction classes with
  | nil => exact ⟨[], rfl⟩
  | cons e classes ih =>
    obtain ⟨c, hc⟩ := h e (.head _)
    obtain ⟨rest, hrest⟩ := ih fun e' he' => h e' (mem_cons_of_mem e he')
    refine ⟨c :: rest, ?_⟩
    rw [stepC] at hrest ⊢
    rw [mapM_cons, hc, hrest]
    rfl

omit [DecidableEq J] in
lemma exists_stepD_eq_ok {n : ℕ} {slots : List (Slot J (ClassPushPlan J))}
    (h : ∀ (i : ℕ) s, slots[i]? = some s → ∃ r, resolveSlot decision (n + i) s = .ok r) :
    ∃ resolved, stepD decision n slots = .ok resolved := by
  induction slots generalizing n with
  | nil => exact ⟨[], rfl⟩
  | cons s slots ih =>
    obtain ⟨r, hr⟩ := h 0 s rfl
    have hrest : ∀ (i : ℕ) t, slots[i]? = some t →
        ∃ r, resolveSlot decision (n + 1 + i) t = .ok r := by
      intro i t ht
      obtain ⟨r, hr⟩ := h (i + 1) t (by simpa using ht)
      exact ⟨r, by rw [← hr]; congr 1; omega⟩
    obtain ⟨rest, hrest⟩ := ih hrest
    exact ⟨r :: rest, by simp only [stepD, Nat.add_zero] at hr ⊢; rw [hr, hrest]⟩

/-- A push that nothing stops gets through Steps 0 to D. -/
theorem Admissible.exists_reached (h : Admissible req file live)
    (hshort : shortCircuits file = false) (hfetch : fetchLive env req = .ok (live, stale)) :
    ∃ classified slots, Reached env req file live stale classified slots := by
  -- Step C, class by class
  have hclass : ∀ (i : ℕ) e, file.classes[i]? = some e → ∃ c,
      classifyEntry env req file (refresh live req.freshPlatformAttrs e) = .ok c ∧
      ∀ plan, c.slot.plan = some plan → ∀ k ∈ plan.conflictKeys,
        decisionFor req.decision i k ≠ none := by
    intro i e hi
    have hunblocked : ∀ p, (refresh live req.freshPlatformAttrs e).pendingEdit = some p →
        allRevertedToPrevious (refresh live req.freshPlatformAttrs e).attributes p = false →
        ∀ k ∈ changedKeys p,
          ¬ IsBlocked (liveOf (refresh live req.freshPlatformAttrs e)) p k := fun p hp hr =>
      (h.classes i e p hi (by simpa using hp) (by simpa using hr)).unblocked
    obtain ⟨c, hc, hplan⟩ : ∃ c,
        classifyEntry env req file (refresh live req.freshPlatformAttrs e) = .ok c ∧ _ :=
      exists_classifyEntry_eq_ok hunblocked
    refine ⟨c, hc, fun plan hp => ?_⟩
    obtain ⟨-, p, hpending, hrevert, hkeys⟩ := hplan plan hp
    rw [hkeys]
    exact (h.classes i e p hi (by simpa using hpending) (by simpa using hrevert)).decided
  have hC : ∃ classified,
      stepC env req file (file.classes.map (refresh live req.freshPlatformAttrs)) =
        .ok classified := by
    apply exists_stepC_eq_ok
    intro e he
    obtain ⟨e', he', rfl⟩ := List.mem_map.mp he
    obtain ⟨i, hi⟩ := List.mem_iff_getElem?.mp he'
    obtain ⟨c, hc, -⟩ := hclass i e' hi
    exact ⟨c, hc⟩
  obtain ⟨classified, hC⟩ := hC
  obtain ⟨hlen, hget⟩ := stepC_eq_ok hC
  have hD : ∃ slots, stepD req.decision 0 (classified.map Classified.slot) = .ok slots := by
    apply exists_stepD_eq_ok
    intro i s hs
    rw [Nat.zero_add]
    obtain ⟨c, hc, rfl⟩ : ∃ c, classified[i]? = some c ∧ c.slot = s := by
      simpa using hs
    have hlt : i < file.classes.length := by
      have := (List.getElem?_eq_some_iff.mp hc).1
      simpa [hlen] using this
    obtain ⟨c', hc', hdecided⟩ := hclass i file.classes[i] (List.getElem?_eq_getElem hlt)
    obtain ⟨c'', hc'', hclassify⟩ := hget i (refresh live req.freshPlatformAttrs file.classes[i])
      (by simp [hlt])
    cases hc.symm.trans hc''
    cases hclassify.symm.trans hc'
    exact exists_resolveSlot_eq_ok hdecided
  obtain ⟨slots, hD⟩ := hD
  exact ⟨classified, slots, h.brownfield, hshort, h.no_externalEdit, hfetch, hC, hD⟩

/-- Conversely, what got through Steps 0 to D was admissible. -/
theorem Reached.admissible
    (h : Reached env req file live stale classified slots) : Admissible req file live := by
  refine ⟨h.brownfield, h.no_externalEdit, ?_⟩
  intro i e p hi hp hr
  obtain ⟨slot, -, hcase⟩ := h.slotCase hi
  have hout := hcase.resolvedOutcome (by simpa using hp) (by simpa using hr)
  exact ⟨hout.unblocked, hout.decided⟩

lemma settled_of_plan_eq_none {c : Classified J} {p : PendingEditBlock J}
    (h : classifyEntry env req file entry = .ok c) (hp : entry.pendingEdit = some p)
    (hplan : c.slot.plan = none) : c.settled = true := by
  unfold classifyEntry at h
  have hcase := classify_cases entry
  generalize classify entry = verdict at h hcase
  cases hcase with
  | untouched pending => cases pending.symm.trans hp
  | blocked => cases h
  | reverted | alreadyApplied =>
    cases h
    rfl
  | planned =>
    cases h
    cases hplan

lemma planPush_of_reached (h : Reached env req file live stale classified slots) :
    planPush env req file =
      if slots.all fun s => s.plan.isNone then
        .ok (.persist { file with classes := slots.map Slot.entry }
          (classified.filterMap Classified.audit))
      else
        match stepE req with
        | .cancelled => .ok (.unchanged { file with classes := slots.map Slot.entry }
            (classified.filterMap Classified.audit))
        | .cloneAndSwap => .error (.cloneAndSwapNotImplemented file.id)
        | .proceed kind =>
          .ok (.mutate slots (classified.filterMap Classified.audit) kind stale) := by
  have hplan : planPush env req file = planResolved req file classified stale := by
    simp [planPush, h.brownfield, h.not_shortCircuits, h.no_externalEdit, h.fetched, h.stepC_eq]
  rw [hplan, planResolved]
  by_cases hnone : (classified.map Classified.slot).all fun s => s.plan.isNone
  · -- no class has a plan; then some class was settled, as something is pending
    have hplans : ∀ s ∈ classified.map Classified.slot, s.plan = none := by
      intro s hs
      simpa using all_eq_true.mp hnone s hs
    have hslots := Except.ok.inj ((stepD_of_no_plan hplans).symm.trans h.stepD_eq)
    have hsettled : classified.any Classified.settled = true := by
      obtain ⟨e, he, hpending⟩ : ∃ e ∈ file.classes, e.pendingEdit ≠ none := by
        by_contra hno
        have hrest := shortCircuits_iff.mpr fun e he =>
          ⟨by_contra fun hp => hno ⟨e, he, hp⟩, externalEdit?_eq_none_iff.mp h.no_externalEdit e he⟩
        rw [h.not_shortCircuits] at hrest
        cases hrest
      obtain ⟨p, hp⟩ := Option.ne_none_iff_exists'.mp hpending
      obtain ⟨i, hi⟩ := mem_iff_getElem?.mp he
      obtain ⟨c, hc, hclassify⟩ := (stepC_eq_ok h.stepC_eq).2 i
        (refresh live req.freshPlatformAttrs e) (by simp [hi])
      have hmem := mem_of_getElem? hc
      exact any_eq_true.mpr ⟨c, hmem, settled_of_plan_eq_none hclassify (by simpa using hp)
        (hplans c.slot (mem_map_of_mem hmem))⟩
    rw [if_pos hnone, if_pos hsettled, ← hslots]
    simp
  · cases hE : stepE req with
    | cancelled | cloneAndSwap | proceed kind => simp only [if_neg hnone, h.stepD_eq]

end

/-! ## Step F -/

section

variable {env : Environment J} {req : PushRequest J} {file : ControlFile J}
  {kind : Option AuditKind} {n : ℕ} {slots : List (Slot J (ResolvedPlan J))}
  {answers : List Answer} {platform platform' : Platform J} {classId : String}
  {payload : Payload J} {calls : List (Call J)}

omit [DecidableEq J] in
lemma isSome_get?_setInstantiationAttributes
    (h : platform.setInstantiationAttributes classId payload = some platform') (c : String) :
    (platform'.get? c).isSome = (platform.get? c).isSome := by
  obtain ⟨bag, hbag, rfl⟩ := Option.map_eq_some_iff.mp h
  rw [Record.get?_set]
  by_cases hc : classId = c
  · simp [← hc, hbag]
  · simp [hc]

omit [DecidableEq J] in
lemma exists_setInstantiationAttributes_eq_some (payload : Payload J) (h : (platform.get? classId).isSome) :
    ∃ platform', platform.setInstantiationAttributes classId payload = some platform' := by
  obtain ⟨bag, hbag⟩ := Option.isSome_iff_exists.mp h
  exact ⟨_, by rw [Platform.setInstantiationAttributes, hbag]; rfl⟩

/-- With an edge to every class that is to be pushed, and a platform that merges, Step F gets
through. -/
theorem stepF_eq_ok (hanswers : ∀ a ∈ answers, a = .merged)
    (hedges : ∀ call ∈ plannedCalls n slots, (platform.get? call.classId).isSome) :
    (stepF env req file kind n slots answers platform).result =
      .ok (slots.map (finishSlot env), mutationAudits env req file kind slots) := by
  induction slots generalizing n answers platform with
  | nil => rfl
  | cons slot slots ih =>
    cases hplan : slot.plan with
    | none =>
      simp only [plannedCalls, hplan] at hedges
      simp only [stepF, hplan, ih hanswers hedges, Except.map]
      simp [finishSlot, hplan, mutationAudits]
    | some plan =>
      simp only [plannedCalls, hplan, mem_cons, forall_eq_or_imp] at hedges
      have hhead : answers.headD .merged = .merged := by
        cases answers with
        | nil => rfl
        | cons a answers => exact hanswers a (.head _)
      obtain ⟨platform', hset⟩ :=
        exists_setInstantiationAttributes_eq_some plan.outboundPayload hedges.1
      have hedges' : ∀ call ∈ plannedCalls (n + 1) slots, (platform'.get? call.classId).isSome := by
        intro call hcall
        rw [isSome_get?_setInstantiationAttributes hset]
        exact hedges.2 call hcall
      have hrest := ih (fun a ha => hanswers a (mem_of_mem_tail ha)) hedges'
      simp only [stepF, hplan, hhead, hset, hrest, Except.map]
      simp [finishSlot, hplan, mutationAudits]

lemma edges_of_stepF_eq_ok {result : List (ControlFileClassEntry J) × List (AuditLogEntry J)}
    (h : (stepF env req file kind n slots answers platform).result = .ok result) :
    ∀ call ∈ plannedCalls n slots, (platform.get? call.classId).isSome := by
  induction slots generalizing n answers platform result with
  | nil => simp [plannedCalls]
  | cons slot slots ih =>
    cases hplan : slot.plan with
    | none =>
      simp only [stepF, hplan] at h
      cases hrest : (stepF env req file kind (n + 1) slots answers platform).result with
      | error e => simp [hrest, Except.map] at h
      | ok r =>
        simp only [plannedCalls, hplan]
        exact ih hrest
    | some plan =>
      simp only [stepF, hplan] at h
      cases hanswer : answers.headD .merged with
      | rejected errorMessage | thrown message applied | died applied => simp only [hanswer, reduceCtorEq] at h
      | merged =>
        cases hset : platform.setInstantiationAttributes slot.entry.classId plan.outboundPayload with
        | none => simp only [hanswer, hset, reduceCtorEq] at h
        | some platform' =>
          simp only [hanswer, hset] at h
          cases hrest : (stepF env req file kind (n + 1) slots answers.tail platform').result with
          | error e => simp [hrest, Except.map] at h
          | ok r =>
            have hedge : (platform.get? slot.entry.classId).isSome := by
              obtain ⟨bag, hbag, -⟩ := Option.map_eq_some_iff.mp hset
              simp [hbag]
            simp only [plannedCalls, hplan, mem_cons, forall_eq_or_imp]
            refine ⟨hedge, fun call hcall => ?_⟩
            rw [← isSome_get?_setInstantiationAttributes hset]
            exact ih hrest call hcall

/-! ## The platform after mutations -/

omit [DecidableEq J] in
lemma get?_applyCalls_of_notMem (h : ∀ call ∈ calls, call.classId ≠ classId) :
    (applyCalls calls platform).get? classId = platform.get? classId := by
  induction calls generalizing platform with
  | nil => rfl
  | cons call calls ih =>
    have hcall : call.classId ≠ classId := h call (.head _)
    have hrest := fun c hc => h c (mem_cons_of_mem call hc)
    rw [applyCalls, foldl_cons, ← applyCalls, ih hrest]
    cases hset : platform.setInstantiationAttributes call.classId call.attributes with
    | none => rfl
    | some platform' =>
      obtain ⟨bag, _, rfl⟩ := Option.map_eq_some_iff.mp hset
      rw [Option.getD_some, Record.get?_set, if_neg hcall]

omit [DecidableEq J] in
lemma get?_applyCalls_of_mem (hnodup : (calls.map Call.classId).Nodup) {call : Call J} (hcall : call ∈ calls) :
    (applyCalls calls platform).get? call.classId =
      (platform.get? call.classId).map fun bag => mergeAttributes bag call.attributes := by
  induction calls generalizing platform with
  | nil => cases hcall
  | cons c calls ih =>
    obtain ⟨hc, hnodup⟩ := nodup_cons.mp hnodup
    rw [applyCalls, foldl_cons, ← applyCalls]
    rcases mem_cons.mp hcall with rfl | hcall
    · -- no later call is about the class
      rw [get?_applyCalls_of_notMem fun d hd hid => hc (mem_map.mpr ⟨d, hd, hid⟩)]
      unfold Platform.setInstantiationAttributes
      cases hbag : platform.get? call.classId with
      | none => simp [hbag]
      | some bag => simp [Record.get?_set]
    · have hne : c.classId ≠ call.classId := fun hid =>
        hc (mem_map.mpr ⟨call, hcall, hid.symm⟩)
      rw [ih hnodup hcall]
      cases hset : platform.setInstantiationAttributes c.classId c.attributes with
      | none => rfl
      | some platform' =>
        obtain ⟨bag, _, rfl⟩ := Option.map_eq_some_iff.mp hset
        rw [Option.getD_some, Record.get?_set, if_neg hne]

omit [DecidableEq J] in
lemma isSome_get?_applyCalls (calls : List (Call J)) (platform : Platform J) (c : String) :
    ((applyCalls calls platform).get? c).isSome = (platform.get? c).isSome := by
  induction calls generalizing platform with
  | nil => rfl
  | cons call calls ih =>
    rw [applyCalls, foldl_cons, ← applyCalls, ih]
    cases hset : platform.setInstantiationAttributes call.classId call.attributes with
    | none => rfl
    | some platform' => exact isSome_get?_setInstantiationAttributes hset c

omit [DecidableEq J] in
lemma plannedCalls_classId_sublist (n : ℕ) (slots : List (Slot J (ResolvedPlan J))) :
    ((plannedCalls n slots).map Call.classId).Sublist (slots.map fun s => s.entry.classId) := by
  induction slots generalizing n with
  | nil => exact List.Sublist.refl _
  | cons slot slots ih =>
    cases hplan : slot.plan with
    | none =>
      simp only [plannedCalls, hplan, map_cons]
      exact (ih (n + 1)).cons _
    | some plan =>
      simp only [plannedCalls, hplan, map_cons]
      exact (ih (n + 1)).cons_cons _

end

/-! ## A whole push -/

variable {env : Environment J} {req : PushRequest J} {file : ControlFile J} {w : World J}
  {live : Record String (Attributes J)} {stale : Bool} {classified : List (Classified J)}
  {slots : List (Slot J (ResolvedPlan J))} {i : ℕ} {entry : ControlFileClassEntry J}
  {slot : Slot J (ResolvedPlan J)} {platform : Platform J}

/-- What identifies a class entry. -/
def binding (entry : ControlFileClassEntry J) : String × Option String × Option String :=
  (entry.classId, entry.className, entry.moduleId)

omit [DecidableEq J] in
lemma binding_finishSlot (env : Environment J) (slot : Slot J (ResolvedPlan J)) :
    binding (finishSlot env slot) = binding slot.entry := by
  unfold finishSlot
  cases slot.plan <;> rfl

omit [DecidableEq J] in
lemma binding_refresh (live fresh : Record String (Attributes J)) :
    binding (refresh live fresh entry) = binding entry := by
  unfold refresh
  split <;> rfl

lemma SlotCase.binding_eq {decision : BrownfieldDecision J}
    (h : SlotCase env decision i entry slot) : binding slot.entry = binding entry := by
  have hresolved : ∀ p, binding (resolvedEntry decision i entry p) = binding entry := by
    intro p
    unfold resolvedEntry workingAfter
    cases (acceptedKeys decision i (conflictKeys entry p)).getLast? <;> rfl
  cases h with
  | untouched pending slot_eq => rw [slot_eq]
  | reverted pending reverts slot_eq | alreadyApplied edit sends slot_eq =>
    rw [slot_eq]
    rfl
  | @sent p plan edit decided payload nonempty slot_eq
  | @allAccepted p _ _ _ slot_eq =>
    rw [slot_eq]
    exact hresolved p

section

variable (h : Reached env req file live stale classified slots)
include h

lemma Reached.classId_eq
    (hi : file.classes[i]? = some entry) (hslot : slots[i]? = some slot) : slot.entry.classId = entry.classId := by
  obtain ⟨slot', hslot', hcase⟩ := h.slotCase hi
  cases hslot.symm.trans hslot'
  exact congrArg Prod.fst (hcase.binding_eq.trans (binding_refresh live req.freshPlatformAttrs))

lemma Reached.exists_entry
    (hslot : slots[i]? = some slot) : ∃ entry, file.classes[i]? = some entry := by
  have hlt := (List.getElem?_eq_some_iff.mp hslot).1
  rw [h.planned.length_eq] at hlt
  exact ⟨_, List.getElem?_eq_getElem hlt⟩

lemma Reached.map_classId :
    slots.map (fun s => s.entry.classId) = file.classes.map ControlFileClassEntry.classId := by
  apply ext_getElem?
  intro i
  rw [getElem?_map, getElem?_map]
  cases hi : slots[i]? with
  | none =>
    rw [getElem?_eq_none_iff, h.planned.length_eq, ← getElem?_eq_none_iff] at hi
    rw [hi]
    rfl
  | some slot =>
    obtain ⟨entry, hentry⟩ := h.exists_entry hi
    rw [hentry, Option.map_some, Option.map_some, h.classId_eq hentry hi]

lemma Reached.nodup_classId
    (hone : file.OneEntryPerClass) : ((plannedCalls 0 slots).map Call.classId).Nodup := by
  have hsub := plannedCalls_classId_sublist 0 slots
  rw [h.map_classId] at hsub
  exact hsub.nodup hone

/-- The bag of a class after some of the planned mutations. -/
lemma Reached.get?_applyCalls (hone : file.OneEntryPerClass) (hi : file.classes[i]? = some entry)
    (hslot : slots[i]? = some slot) {applied : List (Call J)}
    (hinitial : applied <+: plannedCalls 0 slots) (platform : Platform J) :
    (applyCalls applied platform).get? entry.classId = platform.get? entry.classId ∨ ∃ plan, slot.plan = some plan ∧
      (applyCalls applied platform).get? entry.classId =
        (platform.get? entry.classId).map fun bag => mergeAttributes bag plan.outboundPayload := by
  by_cases hcall : ∃ call ∈ applied, call.classId = entry.classId
  · obtain ⟨call, hcall, hid⟩ := hcall
    obtain ⟨j, slot', plan, hj, hplan, rfl⟩ := mem_plannedCalls.mp (hinitial.subset hcall)
    obtain ⟨entry', hentry'⟩ := h.exists_entry hj
    -- one entry per class: the call is the one of this class
    obtain rfl := hone.eq_of_classId_eq hentry' hi ((h.classId_eq hentry' hj).symm.trans hid)
    cases hj.symm.trans hslot
    have hnodup : (applied.map Call.classId).Nodup :=
      (hinitial.sublist.map Call.classId).nodup (h.nodup_classId hone)
    refine .inr ⟨plan, hplan, ?_⟩
    rw [← hid]
    exact get?_applyCalls_of_mem hnodup hcall
  · exact .inl (get?_applyCalls_of_notMem fun call hmem hid => hcall ⟨call, hmem, hid⟩)

/-- The bag of a class after all planned mutations, key by key. -/
theorem Reached.get?_applyCalls_plannedCalls (hone : file.OneEntryPerClass)
    (hi : file.classes[i]? = some entry) (hslot : slots[i]? = some slot) (platform : Platform J) (k : String) :
    ((applyCalls (plannedCalls 0 slots) platform).get? entry.classId).map (·.get? k) =
      (platform.get? entry.classId).map fun bag => stored (bag.get? k) ((sentFor slot k).getD none) := by
  unfold sentFor
  cases hplan : slot.plan with
  | none =>
    rcases h.get?_applyCalls hone hi hslot prefix_rfl platform with heq | ⟨plan, hplan', -⟩
    · rw [heq]
      rfl
    · cases hplan.symm.trans hplan'
  | some plan =>
    have hmem : (⟨0 + i, slot.entry.classId, plan.outboundPayload⟩ : Call J) ∈
        plannedCalls 0 slots := mem_plannedCalls.mpr ⟨i, slot, plan, hslot, hplan, rfl⟩
    have hget : (applyCalls (plannedCalls 0 slots) platform).get? slot.entry.classId =
        (platform.get? slot.entry.classId).map fun bag =>
          mergeAttributes bag plan.outboundPayload :=
      get?_applyCalls_of_mem (h.nodup_classId hone) hmem
    rw [← h.classId_eq hi hslot, hget, Option.map_map]
    congr 1
    funext bag
    exact get?_mergeAttributes bag plan.outboundPayload k

end

omit [DecidableEq J] in
lemma all_plan_isNone_iff : (slots.all fun s => s.plan.isNone) = true ↔ plannedCalls 0 slots = [] := by
  rw [plannedCalls_eq_nil_iff, all_eq_true]
  simp

/-- A push that got through Steps 0 to D, and that the platform lets through Step F. -/
lemma Reached.wrote (h : Reached env req file live stale classified slots)
    (hproceeds : plannedCalls 0 slots ≠ [] → ∃ kind, stepE req = .proceed kind)
    (hanswers : ∀ a ∈ env.answers, a = .merged) (hlives : env.diesBeforeWrite = false)
    (hedges : ∀ call ∈ plannedCalls 0 slots, (w.platform.get? call.classId).isSome) :
    (pushBrownfieldControl env req file w).wrote = true := by
  have hplan := planPush_of_reached h
  by_cases hnil : plannedCalls 0 slots = []
  · rw [if_pos (all_plan_isNone_iff.mpr hnil)] at hplan
    simp [pushBrownfieldControl, hplan, hlives]
  · obtain ⟨kind, hkind⟩ := hproceeds hnil
    rw [if_neg (mt all_plan_isNone_iff.mp hnil), hkind] at hplan
    simp [pushBrownfieldControl, hplan, stepF_eq_ok hanswers hedges, hlives]

/-- A push that has written the file had the consent of Step E and an edge to every class, if it
had anything to send. -/
theorem Reached.of_wrote (h : Reached env req file live stale classified slots)
    (hwrote : (pushBrownfieldControl env req file w).wrote = true) :
    (plannedCalls 0 slots ≠ [] → ∃ kind, stepE req = .proceed kind) ∧
      ∀ call ∈ plannedCalls 0 slots, (w.platform.get? call.classId).isSome := by
  have hplan := planPush_of_reached h
  by_cases hnil : plannedCalls 0 slots = []
  · simp [hnil]
  · rw [if_neg (mt all_plan_isNone_iff.mp hnil)] at hplan
    cases hkind : stepE req with
    | cancelled | cloneAndSwap =>
      rw [hkind] at hplan
      simp [pushBrownfieldControl, hplan] at hwrote
    | proceed kind =>
      rw [hkind] at hplan
      refine ⟨fun _ => ⟨kind, rfl⟩, ?_⟩
      cases hresult : (stepF env req file kind 0 slots env.answers w.platform).result with
      | error e => cases e <;> simp [pushBrownfieldControl, hplan, hresult] at hwrote
      | ok result => exact edges_of_stepF_eq_ok hresult

lemma unchanged_of_not_wrote (h : (pushBrownfieldControl env req file w).wrote = false) :
    (pushBrownfieldControl env req file w).world.disk = w.disk ∧
      (pushBrownfieldControl env req file w).world.audit = w.audit := by
  have hcase := push_cases env req file w
  cases hcase with
  | noEffect world_eq => simp [world_eq]
  | settled _ _ _ wrote_eq =>
    rw [h] at wrote_eq
    cases wrote_eq
  | failed _ _ _ _ _ world_eq => simp [world_eq]
  | mutated _ _ _ _ wrote_eq =>
    rw [h] at wrote_eq
    cases wrote_eq

/-- A push keeps the class ids of the file on disk. -/
theorem map_classId_disk (env : Environment J) (req : PushRequest J) (w : World J) :
    (pushBrownfieldControl env req w.disk w).world.disk.classes.map
      ControlFileClassEntry.classId = w.disk.classes.map ControlFileClassEntry.classId := by
  cases hwrote : (pushBrownfieldControl env req w.disk w).wrote with
  | false => rw [(unchanged_of_not_wrote hwrote).1]
  | true =>
    obtain ⟨live, stale, classified, slots, hdone⟩ := exists_completed_of_wrote hwrote
    rw [hdone.classes_eq, ← hdone.reached.map_classId, map_map]
    exact map_congr_left fun slot _ => congrArg Prod.fst (binding_finishSlot env slot)

end ControlLibrary.Brownfield
