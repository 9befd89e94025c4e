import Dethernety.RemoteModule.ContentCalls

/-!
# After a recall

The sweep of the caches runs once, when a recall is observed. A request that was sent before may still be answered
with success, and its answer is cached after the sweep. Where no such answer comes (`noLateAnswer`), a call that
starts after the recall returns nothing of the pin (`not_returns_of_late`).
-/

open TransitionSystem

namespace RemoteModule

variable {Value Finding : Type} {settings : Settings Value} {s s' : State Value Finding} {i : ℕ}

/-- An outcome with content of the pin or an evaluation result. -/
def Outcome.Returns : Outcome Finding → Prop
  | .served _ _ => True
  | .evaluated _ => True
  | _ => False

/-- The request that a call waits for was sent after a recall was observed. -/
def sentLate (s : State Value Finding) (i : ℕ) : Bool :=
  match s.phases.get? i with
  | some (.fetching _ _ _ late) => late
  | some (.fetchingSchema _ _ sentLate) => sentLate
  | some (.evaluating _ _ sentLate) => sentLate
  | _ => false

/-- A call waits for content or for an evaluation result, not for a schema. -/
def awaitsResult (s : State Value Finding) (i : ℕ) : Bool :=
  match s.phases.get? i with
  | some (.fetching _ _ _ _) => true
  | some (.evaluating _ _ _) => true
  | _ => false

def isRecalled {α : Type} : Except WireError α → Bool
  | .error .recalled => true
  | _ => false

lemma isRecalled_map {α β : Type} (answer : Except WireError α) (f : α → β) :
    isRecalled (answer.map f) = isRecalled answer := by
  cases answer with
  | ok a => rfl
  | error e => cases e <;> rfl

lemma isOk_map {ε α β : Type} (answer : Except ε α) (f : α → β) : (answer.map f).isOk = answer.isOk := by
  cases answer <;> rfl

/-- The service answers `recalled` to every request that was sent after a recall was observed. -/
def answersRecalled (s : State Value Finding) : Event Value Finding → Bool
  | .template i answer _ => !sentLate s i || isRecalled answer
  | .guide i answer _ => !sentLate s i || isRecalled answer
  | .evaluation i answer => !sentLate s i || isRecalled answer
  | _ => true

/-- After the recall no request for content or for an evaluation result is answered with success. -/
def noLateAnswer (s : State Value Finding) : Event Value Finding → Bool
  | .template i answer _ => !(s.recalled && awaitsResult s i && answer.isOk)
  | .guide i answer _ => !(s.recalled && awaitsResult s i && answer.isOk)
  | .evaluation i answer => !(s.recalled && awaitsResult s i && answer.isOk)
  | _ => true

/-! ## The invariant -/

/-- What is known of a call: it can be late only after a recall, then its requests are, and it returns nothing. -/
def PhaseOk (s : State Value Finding) : Phase Value Finding → Prop
  | .fetching _ _ _ late => late = true → s.recalled = true
  | .readingAttributes evaluation => evaluation.late = true → s.recalled = true
  | .fetchingSchema evaluation _ _ => evaluation.late = true → s.recalled = true
  | .stripping evaluation _ _ => evaluation.late = true → s.recalled = true
  | .evaluating evaluation _ sentLate =>
    (evaluation.late = true → sentLate = true) ∧ (sentLate = true → s.recalled = true)
  | .done outcome late => (late = true → s.recalled = true) ∧ (late = true → ¬ outcome.Returns)

structure RecallInvariant (settings : Settings Value) (s : State Value Finding) : Prop where
  content : s.recalled = true → ∀ kind classId, s.cache.getContent kind classId settings.pin = none
  evals : s.recalled = true → ∀ classId hash, s.cache.getEval classId settings.pin hash = none
  phases : ∀ i phase, s.phases.get? i = some phase → PhaseOk s phase

variable {evaluation : Evaluation} {phase : Phase Value Finding}

lemma PhaseOk.mono (h : PhaseOk s phase) (hrecalled : s.recalled = true → s'.recalled = true) : PhaseOk s' phase := by
  cases phase with
  | fetching kind classId token late | readingAttributes evaluation | fetchingSchema evaluation raw sentLate
  | stripping => exact fun hlate => hrecalled (h hlate)
  | evaluating => exact ⟨h.1, fun hlate => hrecalled (h.2 hlate)⟩
  | done => exact ⟨fun hlate => hrecalled (h.1 hlate), h.2⟩

section

variable (h : RecallInvariant settings s)
include h

/-- One call moves on; the caches of the pin stay empty after a recall. -/
lemma RecallInvariant.move
    (hphases : s'.phases = s.phases.set i phase) (hrecalled : s.recalled = true → s'.recalled = true)
    (hcontent : s'.recalled = true → ∀ kind classId, s'.cache.getContent kind classId settings.pin = none)
    (hevals : s'.recalled = true → ∀ classId hash, s'.cache.getEval classId settings.pin hash = none)
    (hphase : PhaseOk s' phase) : RecallInvariant settings s' where
  content := hcontent
  evals := hevals
  phases j other hj := by
    rw [hphases, Record.get?_set] at hj
    split_ifs at hj
    · cases hj
      exact hphase
    · exact (h.phases j other hj).mono hrecalled

lemma RecallInvariant.goto (hphase : PhaseOk s phase) : RecallInvariant settings (s.goto i phase) :=
  h.move rfl id h.content h.evals (hphase.mono id)

/-- A call that ends with an error, after which the caches are swept if it is a recall. -/
lemma RecallInvariant.thrown {error : WireError} {late : Bool}
    (hlate : late = true → s.recalled = true) :
    RecallInvariant settings ((s.observe settings error).goto i (.done (.thrown error) late)) := by
  by_cases herror : error = .recalled
  · rw [State.observe, if_pos herror]
    exact h.move rfl (fun _ => rfl) (fun _ kind classId => getContent_evictPin kind)
      (fun _ classId hash => getEval_evictPin hash) ⟨fun _ => rfl, fun _ => id⟩
  · rw [State.observe, if_neg herror]
    exact h.goto ⟨hlate, fun _ => id⟩

/-! ## The steps -/

lemma RecallInvariant.serveContent {kind : Kind} {classId : String} {token : Option String} {now : ℕ} :
    RecallInvariant settings (serveContent settings s i kind classId token now) := by
  unfold RemoteModule.serveContent
  cases token with
  | none => exact h.goto ⟨id, fun _ => id⟩
  | some token =>
    dsimp only
    have hdropped : RecallInvariant settings
        { s with cache := s.cache.dropExpired (settings.callerHash token) classId settings.pin now } := by
      refine ⟨fun hrecalled kind classId => ?_, fun hrecalled classId hash => ?_, h.phases⟩
      · unfold ResponseCache.getContent
        rw [content_dropExpired]
        exact h.content hrecalled kind classId
      · unfold ResponseCache.getEval
        rw [evals_dropExpired]
        exact h.evals hrecalled classId hash
    split
    · rename_i cached hcached
      refine hdropped.goto ⟨id, fun hrecalled => ?_⟩
      -- after a recall there is nothing cached to serve
      split_ifs at hcached
      rw [hdropped.content hrecalled] at hcached
      cases hcached
    · exact hdropped.goto fun hlate => hlate

lemma RecallInvariant.onContent {kind : Kind} {classId token : String} {late : Bool}
    {answer : Except WireError String} {now : ℕ}
    (hphase : s.phases.get? i = some (.fetching kind classId token late))
    (hlate : late = true → isRecalled answer = true) (hanswer : s.recalled = true → answer.isOk = false) :
    RecallInvariant settings (onContent settings s i kind classId token late answer now) := by
  have hrecalled : late = true → s.recalled = true := h.phases i _ hphase
  cases answer with
  | ok text =>
    -- neither the call nor the answer is late
    have hearly : late ≠ true := fun hl => by cases hlate hl
    have hnone : s.recalled ≠ true := fun hr => by cases hanswer hr
    exact h.move rfl id (fun hr => absurd hr hnone) (fun hr => absurd hr hnone)
      ⟨fun hl => absurd hl hearly, fun hl => absurd hl hearly⟩
  | error e =>
    cases e with
    | notEntitled denial | unavailable => exact h.goto ⟨hrecalled, fun _ => id⟩
    | recalled | other message => exact h.thrown hrecalled

lemma RecallInvariant.onAttributes {raw : Option (Record String Value)}
    (hphase : s.phases.get? i = some (.readingAttributes evaluation)) :
    RecallInvariant settings (onAttributes settings s i evaluation raw) := by
  have hrecalled : evaluation.late = true → s.recalled = true := h.phases i _ hphase
  unfold RemoteModule.onAttributes
  cases raw with
  | none => exact h.goto ⟨hrecalled, fun _ => id⟩
  | some raw =>
    dsimp only
    split
    all_goals exact h.goto hrecalled

lemma RecallInvariant.onSchema {raw : Record String Value} {sentLate : Bool}
    {answer : Except WireError Template}
    (hphase : s.phases.get? i = some (.fetchingSchema evaluation raw sentLate)) :
    RecallInvariant settings (onSchema settings s i evaluation raw answer) := by
  have hrecalled : evaluation.late = true → s.recalled = true := h.phases i _ hphase
  cases answer with
  | ok template => exact h.move rfl id h.content h.evals hrecalled
  | error e => exact h.thrown hrecalled

lemma RecallInvariant.onResume {raw : Record String Value} {schema : List String}
    (hphase : s.phases.get? i = some (.stripping evaluation raw schema)) :
    RecallInvariant settings (onResume settings s i evaluation raw schema) := by
  have hrecalled : evaluation.late = true → s.recalled = true := h.phases i _ hphase
  unfold RemoteModule.onResume
  dsimp only
  split
  · rename_i cached hcached
    refine h.goto ⟨hrecalled, fun hlate => ?_⟩
    rw [h.evals (hrecalled hlate)] at hcached
    cases hcached
  · exact h.goto ⟨hrecalled, id⟩

lemma RecallInvariant.onEvaluation {hash : String} {sentLate : Bool}
    {answer : Except WireError (EvalResult Finding)}
    (hphase : s.phases.get? i = some (.evaluating evaluation hash sentLate))
    (hlate : sentLate = true → isRecalled answer = true) (hanswer : s.recalled = true → answer.isOk = false) :
    RecallInvariant settings (onEvaluation settings s i evaluation hash answer) := by
  obtain ⟨hsent, hrecalled⟩ := h.phases i _ hphase
  cases answer with
  | ok result =>
    have hearly : sentLate ≠ true := fun hl => by cases hlate hl
    have hnone : s.recalled ≠ true := fun hr => by cases hanswer hr
    exact h.move rfl id (fun hr => absurd hr hnone) (fun hr => absurd hr hnone)
      ⟨fun hl => absurd (hsent hl) hearly, fun hl => absurd (hsent hl) hearly⟩
  | error e => exact h.thrown fun hl => hrecalled (hsent hl)

lemma recallInvariant_next {event : Event Value Finding}
    (hrecalled : answersRecalled s event = true) (hlate : noLateAnswer s event = true)
    (hstep : next settings s event = some s') : RecallInvariant settings s' := by
  cases event with simp only [next] at hstep
  | content i =>
    split_ifs at hstep
    cases hstep
    exact h.serveContent
  | evaluate i _ _ token =>
    split_ifs at hstep
    cases token with
    | none =>
      cases hstep
      exact h.goto ⟨id, fun _ => id⟩
    | some token =>
      cases hstep
      exact h.goto id
  | attributes i raw =>
    split at hstep <;> cases hstep
    rename_i evaluation hphase
    exact h.onAttributes hphase
  | resume i =>
    split at hstep <;> cases hstep
    rename_i evaluation raw schema hphase
    exact h.onResume hphase
  | template i =>
    split at hstep
    · rename_i classId token late hphase
      cases hstep
      refine h.onContent hphase (fun hl => ?_) fun hr => ?_
      · rw [isRecalled_map]
        simpa [answersRecalled, sentLate, hphase, hl] using hrecalled
      · rw [isOk_map]
        simpa [noLateAnswer, awaitsResult, hphase, hr] using hlate
    · rename_i evaluation raw sentLate hphase
      cases hstep
      exact h.onSchema hphase
    · cases hstep
  | guide i =>
    split at hstep <;> cases hstep
    rename_i classId token late hphase
    refine h.onContent hphase (fun hl => ?_) fun hr => ?_
    · simpa [answersRecalled, sentLate, hphase, hl] using hrecalled
    · simpa [noLateAnswer, awaitsResult, hphase, hr] using hlate
  | evaluation i answer =>
    split at hstep <;> cases hstep
    rename_i evaluation hash late hphase
    refine h.onEvaluation hphase (fun hl => ?_) fun hr => ?_
    · simpa [answersRecalled, sentLate, hphase, hl] using hrecalled
    · simpa [noLateAnswer, awaitsResult, hphase, hr] using hlate

end

lemma recallInvariant_initial : RecallInvariant settings (initial : State Value Finding) where
  content h := by cases h
  evals h := by cases h
  phases i phase h := by cases h

/-- While no answer of before comes after the recall, a call that started after it returns nothing. -/
theorem not_returns_of_late
    (h : (remoteModule settings).Reachable (fun s e => answersRecalled s e && noLateAnswer s e) s)
    {outcome : Outcome Finding} (hdone : s.outcome? i = some (outcome, true)) : ¬ outcome.Returns := by
  have hinvariant : RecallInvariant settings s := by
    refine h.invariant (P := RecallInvariant settings) (fun s hs => ?_) fun s e s' hs hok hnext => ?_
    · have hinitial : s = initial := hs
      rw [hinitial]
      exact recallInvariant_initial
    · obtain ⟨hrecalled, hlate⟩ := Bool.and_eq_true_iff.1 hok
      exact recallInvariant_next hs hrecalled hlate hnext
  exact (hinvariant.phases i _ (phase_of_outcome? hdone)).2 rfl

/-- A module whose hashes are not looked at. -/
def sampleSettings : Settings Unit where
  pin := "sha256:1"
  callerHash token := "hash of " ++ token
  attributesHash _ := ""

/-- The template is cached. Of two calls for the guide that overlap the first is answered with the recall, and between
the answers a call for the template starts. -/
def recallEvents : List (Event Unit Unit) :=
  [.content 0 .template "c" (some "ada") 0, .template 0 (.ok ⟨"text", []⟩) 1, .content 1 .guide "c" (some "ada") 2,
    .content 2 .guide "c" (some "ada") 2, .guide 1 (.error .recalled) 3, .content 3 .template "c" (some "ada") 4,
    .guide 2 (.error .recalled) 5, .template 3 (.error .recalled) 6]

/-- Two calls for one template are on the way: one is answered with the recall, and the other after it with the
template. A third call starts after that. -/
def lateEvents : List (Event Unit Unit) :=
  [.content 0 .template "c" (some "ada") 0, .content 1 .template "c" (some "ada") 0,
    .template 0 (.error .recalled) 1, .template 1 (.ok ⟨"text", []⟩) 2, .content 2 .template "c" (some "ada") 3]

theorem recallEvents_not_returns :
    ∃ s, (remoteModule sampleSettings).run (fun s e => answersRecalled s e && noLateAnswer s e) initial recallEvents =
        some s ∧
      s.outcome? 3 = some (.thrown .recalled, true) ∧ ¬ (Outcome.thrown .recalled : Outcome Unit).Returns := by
  have hrun : ((remoteModule sampleSettings).run (fun s e => answersRecalled s e && noLateAnswer s e) initial
      recallEvents).any (fun s => s.outcome? 3 = some (.thrown .recalled, true)) = true := by decide +kernel
  obtain ⟨s, hs, hdone⟩ := (Option.any_eq_true _ _).1 hrun
  have hdone := of_decide_eq_true hdone
  exact ⟨s, hs, hdone, not_returns_of_late
    (reachable_of_run (fun _ _ h => h) (Reachable.init rfl) hs) hdone⟩

/-- The third call is served from the cache. -/
theorem lateEvents_returns :
    ∃ s : State Unit Unit, (remoteModule sampleSettings).Reachable (fun s e => answersRecalled s e) s ∧
      ∃ i outcome, s.outcome? i = some (outcome, true) ∧ outcome.Returns := by
  have hrun : ((remoteModule sampleSettings).run answersRecalled initial lateEvents).any
      (fun s => s.outcome? 2 = some (.served .template "text", true)) = true := by decide +kernel
  obtain ⟨s, hs, hdone⟩ := exists_reachable hrun rfl fun _ _ h => h
  exact ⟨s, hs, 2, _,
    of_decide_eq_true hdone, trivial⟩

end RemoteModule
