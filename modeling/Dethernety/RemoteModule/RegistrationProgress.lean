import Dethernety.RemoteModule.Registration

/-!
# A registration comes to an end

Each answer that the registration waits for, a failure or a body, brings it closer to its end (`progress_next`), at
most four answers later; and then every call that waits is answered. No call waits without a registration
(`waits_of_reachable`).
-/

open List Record

namespace RemoteModule

/-- How many more answers a thread may need. -/
def remaining : Awaits → ℕ
  | .origin _ => 4
  | .document => 3
  | .parts _ _ none none => 2
  | .parts _ _ _ _ => 1
  | .hashes _ => 1

def ProcessEvent.isAnswer (t : Thread) : Awaits → ProcessEvent → Bool
  | .origin _, .origin t' _ _ => t' = t
  | .document, .document t' _ _ => t' = t
  | .hashes _, .policyHashes t' _ _ _ _ => t' = t
  | .parts _ models none _, .embeddings t' answer _ _ => t' = t && answer.all (·.length = models)
  | .parts _ _ _ none, .policyHashes t' _ _ _ _ => t' = t
  | _, _ => false

/-- The registration is over, and the calls that waited for it are answered. -/
structure Ended (p p' : Process) : Prop where
  thread : p'.threads.get? .registration = none
  waiting : p'.waiting = []
  answered : ∀ call ∈ p.waiting, ∃ result, ⟨call, result⟩ ∈ p'.answers

/-- The registration is over, or it needs less than a number of answers. -/
def Progress (k : ℕ) (p p' : Process) : Prop :=
  Ended p p' ∨ ∃ a, p'.threads.get? .registration = some a ∧ remaining a < k ∧ p'.waiting = p.waiting

/-- A step that is not one of the registration. -/
structure Aside (p p' : Process) : Prop where
  thread : p'.threads.get? .registration = p.threads.get? .registration
  waiting : p'.waiting = p.waiting

section

variable {p p' : Process} {dir : Directory} {t : Thread} {entry : CachedModule} {hashes : Option Hashes} {now : ℕ}

/-! ## The registration -/

lemma ended_reject (hwaiting : p'.waiting = p.waiting) : Ended p (p'.reject now) where
  thread := by
    rw [Process.reject, get?_erase, if_pos rfl]
  waiting := rfl
  answered call hcall :=
    ⟨none, mem_append_right _ (mem_map.2 ⟨call, hwaiting ▸ hcall, rfl⟩)⟩

lemma ended_finish (hwaiting : p'.waiting = p.waiting) : Ended p (p'.finish .registration entry hashes now) := by
  unfold Process.finish
  cases hadopt : p'.adopt entry hashes with
  | none => exact ended_reject hwaiting
  | some adopted =>
    have hkept : adopted.waiting = p'.waiting := by
      rw [Process.adopt, Option.ite_none_right_eq_some] at hadopt
      cases hadopt.2
      rfl
    refine ⟨?_, rfl, fun call hcall => ?_⟩
    · rw [get?_erase, if_pos rfl]
    · refine ⟨_, mem_append_right _ (mem_map.2 ⟨call, ?_, rfl⟩)⟩
      rw [hkept, hwaiting]
      exact hcall

lemma ended_fail (hwaiting : p'.waiting = p.waiting) : Ended p (p'.fail dir .registration now) := by
  unfold Process.fail
  cases dir.newestFor p'.config.moduleKey with
  | none => exact ended_reject hwaiting
  | some entry => exact ended_finish hwaiting

variable {event : ProcessEvent} {r : Process × Directory} {a : Awaits} {answer : Option JsonTree} {written : Bool}
  {document : JsonTree}

lemma progress_goto {k : ℕ} (hwaiting : p'.waiting = p.waiting) (ha : remaining a < k) :
    Progress k p (p'.goto .registration a) :=
  .inr ⟨a, by rw [Process.goto, get?_set, if_pos rfl], ha, hwaiting⟩

lemma ended_onFetched {embeddings : List JsonTree} (hwaiting : p'.waiting = p.waiting) :
    Ended p (p'.onFetched dir .registration document embeddings hashes written now).1 := by
  unfold Process.onFetched
  split_ifs
  all_goals exact ended_finish hwaiting

lemma progress_registrationAtPin (hwaiting : p'.waiting = p.waiting) :
    Progress 4 p (p'.registrationAtPin dir .registration now).1 := by
  unfold Process.registrationAtPin
  split
  · exact progress_goto hwaiting (by decide)
  · dsimp only
    split
    · exact progress_goto hwaiting (by simp [remaining])
    · exact progress_goto hwaiting (by simp [remaining])
    · split
      · exact .inl (ended_finish hwaiting)
      · exact progress_goto hwaiting (by simp [remaining])

lemma progress_onDocument (hwaiting : p'.waiting = p.waiting) :
    Progress 3 p (p'.onDocument dir .registration answer now) := by
  unfold Process.onDocument
  cases answer with
  | none => exact .inl (ended_fail hwaiting)
  | some document =>
    dsimp only
    split_ifs
    · cases modelsOf document with
      | none => exact .inl (ended_fail hwaiting)
      | some models => exact progress_goto hwaiting (by simp [remaining])
    · exact .inl (ended_fail hwaiting)

/-! ## The other steps -/

lemma Aside.refl (p : Process) : Aside p p :=
  ⟨rfl, rfl⟩

section

variable (h : Aside p p')
include h

lemma Aside.trans {p'' : Process} (h' : Aside p' p'') : Aside p p'' :=
  ⟨h'.thread.trans h.thread, h'.waiting.trans h.waiting⟩

variable (ht : t ≠ .registration)
include ht

lemma Aside.goto (a : Awaits) : Aside p (p'.goto t a) :=
  ⟨by rw [Process.goto, get?_set, if_neg ht, h.thread], h.waiting⟩

lemma Aside.erase : Aside p { p' with threads := p'.threads.erase t } :=
  ⟨by rw [get?_erase, if_neg ht, h.thread], h.waiting⟩

lemma Aside.finish : Aside p (p'.finish t entry hashes now) := by
  cases t with
  | registration => exact absurd rfl ht
  | refresh n =>
    have hwaiting : ((p'.adopt entry hashes).getD p').waiting = p'.waiting := by
      unfold Process.adopt
      split_ifs <;> rfl
    exact ⟨by rw [Process.finish, get?_erase, if_neg ht, h.thread], hwaiting.trans h.waiting⟩

lemma Aside.fail : Aside p (p'.fail dir t now) := by
  cases t with
  | registration => exact absurd rfl ht
  | refresh n => exact h.erase ht

end

lemma Learned.aside (h : Learned p p') : Aside p p' := by
  obtain ⟨_, _, _, rfl⟩ := h
  exact ⟨rfl, rfl⟩

lemma Moves.aside (h : Moves p t p') (ht : t ≠ .registration) : Aside p p' := by
  cases h with
  | goto h => exact h.aside.goto ht _
  | erase h => exact h.aside.erase ht
  | finish h => exact h.aside.finish ht
  | fail => exact (Aside.refl p).fail ht

lemma aside_refreshInBackground : Aside p (p.refreshInBackground entry now) := by
  unfold Process.refreshInBackground
  split_ifs
  · exact .refl p
  · exact .refl p
  · have hgoto : Aside p (p.goto (.refresh p.refreshCount) (.origin (entry.pin = p.config.pin))) :=
      (Aside.refl p).goto (by simp) _
    exact ⟨hgoto.thread, hgoto.waiting⟩

/-! ## Steps -/

/-- The answer for the embeddings or for the policy hashes of a document. -/
lemma progress_parts {models : ℕ} {embeddings : Option (List JsonTree)} {hashes : Option (Option Hashes)}
    (ha : p.threads.get? .registration = some (.parts document models embeddings hashes))
    (hanswer : event.isAnswer .registration (.parts document models embeddings hashes) = true) :
    ∃ r, p.next dir event = some r ∧ Progress (remaining (.parts document models embeddings hashes)) p r.1 := by
  cases event with
  | embeddings t answer written now =>
    cases embeddings with
    | some embeddings => cases hashes <;> cases hanswer
    | none =>
      obtain ⟨rfl, hlength⟩ : t = .registration ∧ answer.all (·.length = models) = true := by
        cases hashes <;> simpa [ProcessEvent.isAnswer] using hanswer
      cases answer with
      | none =>
        have hnext : p.next dir (.embeddings .registration none written now) =
            some (p.fail dir .registration now, dir) := by simp only [Process.next, ha]
        exact ⟨_, hnext, .inl (ended_fail rfl)⟩
      | some responses =>
        have hlength : responses.length = models := by simpa using hlength
        cases hashes with
        | some hashes =>
          have hnext : p.next dir (.embeddings .registration (some responses) written now) =
              some (p.onFetched dir .registration document responses hashes written now) := by
            simp only [Process.next, ha, if_pos hlength]
          exact ⟨_, hnext, .inl (ended_onFetched rfl)⟩
        | none =>
          have hnext : p.next dir (.embeddings .registration (some responses) written now) =
              some (p.goto .registration (.parts document models (some responses) none), dir) := by
            simp only [Process.next, ha, if_pos hlength]
          exact ⟨_, hnext, progress_goto rfl (by simp [remaining])⟩
  | policyHashes t answer hashesWritten entryWritten now =>
    cases hashes with
    | some hashes => cases embeddings <;> cases hanswer
    | none =>
      obtain rfl : t = .registration := by
        cases embeddings <;> simpa [ProcessEvent.isAnswer] using hanswer
      cases embeddings with
      | some responses =>
        refine ⟨((p.onHashes dir (moduleOf document) answer hashesWritten).2.1.onFetched
          (p.onHashes dir (moduleOf document) answer hashesWritten).2.2 .registration document responses
          (p.onHashes dir (moduleOf document) answer hashesWritten).1 entryWritten now), ?_,
          .inl (ended_onFetched learned_onHashes.aside.waiting)⟩
        simp only [Process.next, ha]
      | none =>
        refine ⟨((p.onHashes dir (moduleOf document) answer hashesWritten).2.1.goto .registration
          (.parts document models none (some (p.onHashes dir (moduleOf document) answer hashesWritten).1)),
          (p.onHashes dir (moduleOf document) answer hashesWritten).2.2), ?_,
          progress_goto learned_onHashes.aside.waiting (by simp [remaining])⟩
        simp only [Process.next, ha]
  | getMetadata | origin | document => cases embeddings <;> cases hashes <;> cases hanswer

/-- Any answer that the registration waits for brings it closer to its end. -/
theorem progress_next (dir : Directory) (ha : p.threads.get? .registration = some a)
    (honly : a ≠ .origin true) (hanswer : event.isAnswer .registration a = true) :
    ∃ r, p.next dir event = some r ∧ Progress (remaining a) p r.1 := by
  cases a with
  | origin only =>
    cases event with
    | origin t pinned now =>
      obtain rfl : t = .registration := by simpa [ProcessEvent.isAnswer] using hanswer
      obtain rfl : only = false := by simpa using honly
      have hnext : p.next dir (.origin .registration pinned now) =
          some (p.onOrigin dir .registration false pinned now) := by simp only [Process.next, ha]
      exact ⟨_, hnext, progress_registrationAtPin rfl⟩
    | getMetadata | document | embeddings | policyHashes => cases hanswer
  | document =>
    cases event with
    | document t answer now =>
      obtain rfl : t = .registration := by simpa [ProcessEvent.isAnswer] using hanswer
      have hnext : p.next dir (.document .registration answer now) =
          some (p.onDocument dir .registration answer now, dir) := by simp only [Process.next, ha]
      exact ⟨_, hnext, progress_onDocument rfl⟩
    | getMetadata | origin | embeddings | policyHashes => cases hanswer
  | hashes entry =>
    cases event with
    | policyHashes t answer hashesWritten entryWritten now =>
      obtain rfl : t = .registration := by simpa [ProcessEvent.isAnswer] using hanswer
      refine ⟨((p.onHashes dir entry.module answer hashesWritten).2.1.finish .registration entry
        (p.onHashes dir entry.module answer hashesWritten).1 now,
        (p.onHashes dir entry.module answer hashesWritten).2.2), ?_, .inl (ended_finish learned_onHashes.aside.waiting)⟩
      simp only [Process.next, ha]
    | getMetadata | origin | document | embeddings => cases hanswer
  | parts => exact progress_parts ha hanswer

lemma isAnswer_of_next (ht : event.thread? = some t)
    (hnext : p.next dir event = some r) : ∃ a, p.threads.get? t = some a ∧ event.isAnswer t a = true := by
  cases event with
  | getMetadata => cases ht
  | origin t' pinned now | document t' answer now =>
    cases ht
    simp only [Process.next] at hnext
    split at hnext
    · rename_i ha
      exact ⟨_, ha, by simp [ProcessEvent.isAnswer]⟩
    · cases hnext
  | embeddings _ answer =>
    cases ht
    simp only [Process.next] at hnext
    split at hnext
    · rename_i document models hashes ha
      refine ⟨_, ha, ?_⟩
      cases answer with
      | none => cases hashes <;> simp [ProcessEvent.isAnswer]
      | some responses =>
        dsimp only at hnext
        split_ifs at hnext with hlength
        cases hashes <;> simp [ProcessEvent.isAnswer, hlength]
    · cases hnext
  | policyHashes =>
    cases ht
    simp only [Process.next] at hnext
    split at hnext
    · rename_i ha
      exact ⟨_, ha, by simp [ProcessEvent.isAnswer]⟩
    · rename_i document models embeddings ha
      exact ⟨_, ha, by cases embeddings <;> simp [ProcessEvent.isAnswer]⟩
    · cases hnext

/-- The registration pins the origin only to go on, and a call that waits has a registration to wait for. -/
structure Waits (p : Process) : Prop where
  goesOn : ∀ a, p.threads.get? .registration = some a → a ≠ .origin true
  waiting : p.waiting ≠ [] → ∃ a, p.threads.get? .registration = some a

lemma Waits.aside (h : Waits p) (haside : Aside p p') : Waits p' where
  goesOn := by
    rw [haside.thread]
    exact h.goesOn
  waiting := by
    rw [haside.thread, haside.waiting]
    exact h.waiting

lemma waits_of_progress (hprogress : Progress (remaining a) p p') : Waits p' := by
  have hmost : ∀ a : Awaits, remaining a ≤ 4 := fun a => by
    cases a with
    | parts _ _ embeddings hashes => cases embeddings <;> cases hashes <;> simp [remaining]
    | origin | document | hashes => simp [remaining]
  rcases hprogress with hended | ⟨a', ha', hless, _⟩
  · refine ⟨fun a' ha' => ?_, fun hne => absurd hended.waiting hne⟩
    rw [hended.thread] at ha'
    cases ha'
  · refine ⟨fun a'' ha'' => ?_, fun _ => ⟨a', ha'⟩⟩
    cases ha'.symm.trans ha''
    rintro rfl
    exact absurd (Nat.lt_of_lt_of_le hless (hmost a)) (Nat.lt_irrefl _)

lemma Waits.getMetadata {call : ℕ} (h : Waits p) : Waits (p.getMetadata call now) := by
  unfold Process.getMetadata
  split
  · exact h.aside (aside_refreshInBackground.trans ⟨rfl, rfl⟩)
  · split_ifs
    · exact h.aside ⟨rfl, rfl⟩
    · unfold Process.wait
      dsimp only
      split
      · rename_i a ha
        exact ⟨h.goesOn, fun _ => ⟨a, ha⟩⟩
      · have hthread : ∀ u : Process, (u.goto .registration (.origin false)).threads.get? .registration =
            some (.origin false) := fun u => by rw [Process.goto, get?_set, if_pos rfl]
        refine ⟨fun a ha => ?_, fun _ => ⟨.origin false, hthread _⟩⟩
        rw [hthread] at ha
        cases ha
        simp

lemma Waits.next (h : Waits p) (hnext : p.next dir event = some r) : Waits r.1 := by
  cases ht : event.thread? with
  | none =>
    cases event with
    | getMetadata =>
      cases hnext
      exact h.getMetadata
    | origin | document | embeddings | policyHashes => cases ht
  | some t =>
    by_cases hregistration : t = .registration
    · subst hregistration
      obtain ⟨a, ha, hanswer⟩ := isAnswer_of_next ht hnext
      obtain ⟨r', hnext', hprogress⟩ := progress_next dir ha (h.goesOn a ha) hanswer
      cases hnext.symm.trans hnext'
      exact waits_of_progress hprogress
    · exact h.aside ((moves_of_next ht hnext).aside hregistration)

/-- A call of `getMetadata` is answered, or it waits. -/
theorem answered_or_waits (p : Process) (call now : ℕ) :
    (∃ result, ⟨call, result⟩ ∈ (p.getMetadata call now).answers) ∨ call ∈ (p.getMetadata call now).waiting := by
  unfold Process.getMetadata
  split
  · exact .inl ⟨_, mem_append_right _ (.head _)⟩
  · split_ifs
    · exact .inl ⟨none, mem_append_right _ (.head _)⟩
    · refine .inr ?_
      unfold Process.wait
      dsimp only
      split <;> exact mem_append_right _ (.head _)

/-- Other steps leave the registration and the calls that wait for it alone. -/
theorem keeps_registration (hnext : p.next dir event = some r) (hother : event.thread? ≠ some .registration)
    (ha : p.threads.get? .registration = some a) :
    r.1.threads.get? .registration = some a ∧ p.waiting ⊆ r.1.waiting := by
  cases ht : event.thread? with
  | some t =>
    have haside := (moves_of_next ht hnext).aside fun h => hother (h ▸ ht)
    rw [haside.thread, haside.waiting]
    exact ⟨ha, List.Subset.refl _⟩
  | none =>
    cases event with
    | getMetadata call now =>
      cases hnext
      unfold Process.getMetadata
      split
      · rename_i entry hregistered
        have haside : Aside p ((p.refreshInBackground entry now).servedMetadata entry [call]) :=
          aside_refreshInBackground.trans ⟨rfl, rfl⟩
        rw [haside.thread, haside.waiting]
        exact ⟨ha, List.Subset.refl _⟩
      · split_ifs
        · exact ⟨ha, List.Subset.refl _⟩
        · unfold Process.wait
          dsimp only
          rw [ha]
          exact ⟨ha, subset_append_left _ _⟩
    | origin | document | embeddings | policyHashes => cases ht

end

lemma waits_of_reachable {ok : Deployment → DeploymentEvent → Prop} {d : Deployment}
    (h : deployment.Reachable ok d) {n : ℕ} {p : Process} (hp : d.processes.get? n = some p) : Waits p := by
  refine process_invariant (P := Waits) (fun config => ?_) (fun p dir event r hp hnext => hp.next hnext) h hp
  exact ⟨fun a ha => (by cases ha), fun hne => absurd rfl hne⟩

end RemoteModule
