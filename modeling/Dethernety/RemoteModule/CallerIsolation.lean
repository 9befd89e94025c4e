import Mathlib.Data.List.Induction
import Dethernety.RemoteModule.Recall

/-!
# Cached content and its callers

Content is cached for every caller, behind a memo of the tokens that the service confirmed. What a caller is served
without a request rests on a confirmation of its own (`confirmed_of_served`). Whether a request goes out at all
depends on the other callers, who fill and push out entries; for a service that keeps to its word for as long as the
memo does, that does not show in what a call ends with (`isolated_of_steady`).
-/

open List Record Function

namespace RemoteModule

variable {Value Finding : Type} {settings : Settings Value} {s s' : State Value Finding}

/-! ## The memo -/

/-- The service answered a token with success for a class, less than the lifetime of an entry before. -/
def Confirmed (s : State Value Finding) (token classId : String) (now : ℕ) : Prop :=
  ∃ c ∈ s.confirmations, c.token = token ∧ c.classId = classId ∧ now < c.time + entitlementTtlMs

/-- Every entry of the memo rests on a confirmation. -/
def MemoOk (settings : Settings Value) (s : State Value Finding) : Prop :=
  ∀ callerHash classId pin expiresAt, s.cache.entitled.get? (callerHash, classId, pin) = some expiresAt →
    ∃ c ∈ s.confirmations, settings.callerHash c.token = callerHash ∧ c.classId = classId ∧
      expiresAt = c.time + entitlementTtlMs

lemma MemoOk.mono (h : MemoOk settings s) (hconfirmations : s.confirmations ⊆ s'.confirmations)
    (hentitled : ∀ key expiresAt, s'.cache.entitled.get? key = some expiresAt →
      s.cache.entitled.get? key = some expiresAt) : MemoOk settings s' := by
  intro callerHash classId pin expiresAt hget
  obtain ⟨c, hc, hrest⟩ := h callerHash classId pin expiresAt (hentitled _ _ hget)
  exact ⟨c, hconfirmations hc, hrest⟩

lemma MemoOk.of_eq (h : MemoOk settings s) (hconfirmations : s'.confirmations = s.confirmations)
    (hentitled : s'.cache.entitled = s.cache.entitled) : MemoOk settings s' :=
  h.mono (by rw [hconfirmations]; exact List.Subset.refl _) fun key expiresAt hget => by rwa [hentitled] at hget

lemma memoOk_observe (h : MemoOk settings s) (error : WireError) : MemoOk settings (s.observe settings error) := by
  unfold State.observe
  split_ifs
  · exact h.of_eq rfl rfl
  · exact h

variable {e : Event Value Finding} {kind : Kind} {now : ℕ} {i : ℕ} {late : Bool} {after : List (Event Value Finding)}
  {classId token : String} {answer : Except WireError String} {classId : String}

lemma MemoOk.serveContent {token : Option String}
    (h : MemoOk settings s) : MemoOk settings (serveContent settings s i kind classId token now) := by
  unfold RemoteModule.serveContent
  cases token with
  | none => exact h.of_eq rfl rfl
  | some token =>
    dsimp only
    have hdropped : MemoOk settings
        { s with cache := s.cache.dropExpired (settings.callerHash token) classId settings.pin now } :=
      h.mono (List.Subset.refl _) fun key expiresAt => get?_entitled_dropExpired
    split
    all_goals exact hdropped.of_eq rfl rfl

lemma MemoOk.onContent (h : MemoOk settings s) :
    MemoOk settings (onContent settings s i kind classId token late answer now) := by
  cases answer with
  | ok text =>
    intro callerHash otherClass pin expiresAt hget
    rcases get?_entitled_rememberEntitled hget with hget | ⟨hkey, hexpires⟩
    · obtain ⟨c, hc, hrest⟩ := h callerHash otherClass pin expiresAt hget
      exact ⟨c, mem_append_left _ hc, hrest⟩
    · cases hkey
      exact ⟨⟨token, classId, now⟩, mem_append_right _ (.head _), rfl, rfl, hexpires⟩
  | error e =>
    cases e with
    | notEntitled denial | unavailable => exact h.of_eq rfl rfl
    | recalled => exact (memoOk_observe h .recalled).of_eq rfl rfl
    | other message => exact (memoOk_observe h (.other message)).of_eq rfl rfl

lemma memoOk_next {event : Event Value Finding} (h : MemoOk settings s) (hstep : next settings s event = some s') :
    MemoOk settings s' := by
  cases event with simp only [next] at hstep
  | content i =>
    split_ifs at hstep
    cases hstep
    exact h.serveContent
  | evaluate i _ _ token =>
    split_ifs at hstep
    cases token <;> cases hstep <;> exact h.of_eq rfl rfl
  | attributes i raw =>
    split at hstep <;> cases hstep
    unfold onAttributes
    cases raw with
    | none => exact h.of_eq rfl rfl
    | some raw =>
      dsimp only
      split <;> exact h.of_eq rfl rfl
  | resume i =>
    split at hstep <;> cases hstep
    unfold onResume
    dsimp only
    split <;> exact h.of_eq rfl rfl
  | template i answer now =>
    split at hstep
    · cases hstep
      exact h.onContent
    · cases hstep
      cases answer with
      | ok template => exact h.of_eq rfl rfl
      | error e => exact (memoOk_observe h e).of_eq rfl rfl
    · cases hstep
  | guide i =>
    split at hstep <;> cases hstep
    exact h.onContent
  | evaluation i answer =>
    split at hstep <;> cases hstep
    cases answer with
    | ok result => exact h.of_eq rfl rfl
    | error e => exact (memoOk_observe h e).of_eq rfl rfl

lemma memoOk_of_reachable (h : (remoteModule settings).Reachable (fun _ _ => True) s) : MemoOk settings s := by
  refine h.invariant (P := MemoOk settings) (fun s hs => ?_) fun s e s' hs _ hnext => memoOk_next hs hnext
  have hinitial : s = initial := hs
  rw [hinitial]
  intro callerHash classId pin expiresAt hget
  cases hget

/-- A call of a caller is served without a request only on a confirmation of the caller's own token. -/
theorem confirmed_of_served (hhash : Injective settings.callerHash) (h : MemoOk settings s)
    {kind kind' : Kind} {classId token text : String}
    (hserved : (serveContent settings s i kind classId (some token) now).outcome? i =
      some (.served kind' text, late)) : Confirmed s token classId now := by
  have hentitled : s.cache.isEntitled (settings.callerHash token) classId settings.pin now = true := by
    by_contra hnot
    simp [serveContent, hnot, State.outcome?, State.goto, get?_set] at hserved
  obtain ⟨expiresAt, hget, hnow⟩ := isEntitled_eq_true hentitled
  obtain ⟨c, hc, htoken, hclass, hexpires⟩ := h _ _ _ _ hget
  exact ⟨c, hc, hhash htoken, hclass, hexpires ▸ hnow⟩

/-! ## A run with the other callers and the run without them -/

def Event.call : Event Value Finding → ℕ
  | .content i _ _ _ _ => i
  | .evaluate i _ _ _ => i
  | .attributes i _ => i
  | .resume i => i
  | .template i _ _ => i
  | .guide i _ _ => i
  | .evaluation i _ => i

/-- An answer of the service that is not a success. -/
def Event.fails : Event Value Finding → Bool
  | .template _ answer _ => !answer.isOk
  | .guide _ answer _ => !answer.isOk
  | _ => false

/-- Template and guide requests, where the calls of a caller are those with its token. -/
structure IsContentRun (token : String) (calls : ℕ → Bool) (events : List (Event Value Finding)) : Prop where
  owned : ∀ i kind classId t now, Event.content i kind classId t now ∈ events →
    (calls i = true ↔ t = some token)
  content : ∀ i half classId t, Event.evaluate i half classId t ∉ events

def runOf (settings : Settings Value) (events : List (Event Value Finding)) : State Value Finding :=
  (remoteModule settings).attempt initial events

def AllSucceed (i : ℕ) (events : List (Event Value Finding)) : Prop :=
  ∀ e ∈ events, e.call = i → e.fails = false

/-- Once it answered a token with success for a class, the service answers the requests of that token for that class
that are sent in the lifetime of an entry with success. -/
def IsSteady (settings : Settings Value) (token : String) (events : List (Event Value Finding)) : Prop :=
  ∀ before i kind classId now after, events = before ++ .content i kind classId (some token) now :: after →
    Confirmed (runOf settings before) token classId now → AllSucceed i after

/-- The same ending, up to the text that is served. -/
def SameEnding (o o' : Outcome Finding) : Prop :=
  (∃ kind text text', o = .served kind text ∧ o' = .served kind text') ∨ o = o'

/-- Leaving the calls of the others out of a run, no call of a caller that ends with served content ends with a
fallback or an error, or the other way round. -/
def Isolated (settings : Settings Value) (calls : ℕ → Bool) (events : List (Event Value Finding)) : Prop :=
  ∀ i, calls i = true → ∀ o o' late late', (runOf settings events).outcome? i = some (o, late) →
    (runOf settings (events.filter (calls ·.call))).outcome? i = some (o', late') → SameEnding o o'

/-- Where a call is in the two runs. -/
inductive Related (i : ℕ) (after : List (Event Value Finding)) :
    Option (Phase Value Finding) → Option (Phase Value Finding) → Prop
  | absent : Related i after none none
  | fetching (kind : Kind) (classId token : String) (late late' : Bool) :
      Related i after (some (.fetching kind classId token late)) (some (.fetching kind classId token late'))
  | done {o o' : Outcome Finding} (late late' : Bool) (h : SameEnding o o') :
      Related i after (some (.done o late)) (some (.done o' late'))
  /-- Served from the cache in the one run, and waiting for a success in the other. -/
  | left (kind : Kind) (classId token text : String) (late late' : Bool) (h : AllSucceed i after) :
      Related i after (some (.done (.served kind text) late)) (some (.fetching kind classId token late'))
  | right (kind : Kind) (classId token text : String) (late late' : Bool) (h : AllSucceed i after) :
      Related i after (some (.fetching kind classId token late)) (some (.done (.served kind text) late'))

lemma Related.mono
    {p p' : Option (Phase Value Finding)} (h : Related i (e :: after) p p') : Related i after p p' := by
  have hafter : AllSucceed i (e :: after) → AllSucceed i after := fun h e' he' => h e' (mem_cons_of_mem e he')
  cases h with
  | absent => exact .absent
  | fetching kind classId token late late' => exact .fetching kind classId token late late'
  | done late late' h => exact .done late late' h
  | left kind classId token text late late' h => exact .left kind classId token text late late' (hafter h)
  | right kind classId token text late late' h => exact .right kind classId token text late late' (hafter h)

lemma phases_observe (error : WireError) : (s.observe settings error).phases = s.phases := by
  unfold State.observe
  split_ifs <;> rfl

lemma exists_phases_next (hstep : next settings s e = some s') : ∃ phase, s'.phases = s.phases.set e.call phase := by
  have hthrown : ∀ i error late, ((s.observe settings error).goto i (.done (.thrown error) late)).phases =
      s.phases.set i (.done (.thrown error) late) := fun i error late => by
    rw [State.goto, phases_observe]
  have hcontent : ∀ i kind classId token late answer now, ∃ phase,
      (onContent settings s i kind classId token late answer now).phases = s.phases.set i phase := by
    intro i kind classId token late answer now
    cases answer with
    | ok text => exact ⟨_, rfl⟩
    | error e =>
      cases e with
      | notEntitled denial | unavailable => exact ⟨_, rfl⟩
      | recalled | other message => exact ⟨_, hthrown i _ late⟩
  cases e with simp only [next] at hstep
  | content i _ _ token =>
    split_ifs at hstep
    cases hstep
    unfold serveContent
    cases token with
    | none => exact ⟨_, rfl⟩
    | some token =>
      dsimp only
      split <;> exact ⟨_, rfl⟩
  | evaluate i _ _ token =>
    split_ifs at hstep
    cases token <;> cases hstep <;> exact ⟨_, rfl⟩
  | attributes i raw =>
    split at hstep <;> cases hstep
    unfold onAttributes
    cases raw with
    | none => exact ⟨_, rfl⟩
    | some raw =>
      dsimp only
      split <;> exact ⟨_, rfl⟩
  | resume i =>
    split at hstep <;> cases hstep
    unfold onResume
    dsimp only
    split <;> exact ⟨_, rfl⟩
  | template i answer now =>
    split at hstep
    · cases hstep
      exact hcontent ..
    · cases hstep
      cases answer with
      | ok template => exact ⟨_, rfl⟩
      | error e => exact ⟨_, hthrown i e _⟩
    · cases hstep
  | guide i =>
    split at hstep <;> cases hstep
    exact hcontent ..
  | evaluation i answer =>
    split at hstep <;> cases hstep
    cases answer with
    | ok result => exact ⟨_, rfl⟩
    | error e => exact ⟨_, hthrown i e _⟩

/-- What an event that may not be enabled leaves. -/
def stepOf (settings : Settings Value) (s : State Value Finding) (e : Event Value Finding) : State Value Finding :=
  (next settings s e).getD s

lemma runOf_concat (before : List (Event Value Finding)) (e : Event Value Finding) :
    runOf settings (before ++ [e]) = stepOf settings (runOf settings before) e :=
  TransitionSystem.attempt_append initial before [e]

lemma get?_phases_stepOf {j : ℕ} (hj : e.call ≠ j) : (stepOf settings s e).phases.get? j = s.phases.get? j := by
  unfold stepOf
  cases hstep : next settings s e with
  | none => rfl
  | some s' =>
    obtain ⟨phase, hphases⟩ := exists_phases_next hstep
    rw [Option.getD_some, hphases, get?_set, if_neg hj]

lemma stepOf_of_none (h : next settings s e = none) : stepOf settings s e = s := by
  rw [stepOf, h]
  rfl

lemma stepOf_of_some (h : next settings s e = some s') : stepOf settings s e = s' := by
  rw [stepOf, h]
  rfl

/-- How a content call ends with an answer. -/
def ending (kind : Kind) : Except WireError String → Outcome Finding
  | .ok text => .served kind text
  | .error (.notEntitled denial) => .fallback kind (.denied denial)
  | .error .unavailable => .fallback kind .unavailable
  | .error e => .thrown e

lemma get?_phases_onContent :
    (onContent settings s i kind classId token late answer now).phases.get? i =
      some (.done (ending kind answer) late) := by
  unfold onContent
  cases answer with
  | ok text => simp [State.goto, get?_set, ending]
  | error e => cases e <;> simp [State.goto, get?_set, ending]

lemma get?_phases_serveContent (hhash : Injective settings.callerHash) (hmemo : MemoOk settings s) (i : ℕ)
    (kind : Kind) (classId token : String) (now : ℕ) :
    (Confirmed s token classId now ∧ ∃ text,
        (serveContent settings s i kind classId (some token) now).phases.get? i =
          some (.done (.served kind text) s.recalled)) ∨
      (serveContent settings s i kind classId (some token) now).phases.get? i =
        some (.fetching kind classId token s.recalled) := by
  have hserved : ∀ text, (serveContent settings s i kind classId (some token) now).outcome? i =
      some (.served kind text, s.recalled) → Confirmed s token classId now :=
    fun text houtcome => confirmed_of_served hhash hmemo houtcome
  unfold serveContent at hserved ⊢
  dsimp only at hserved ⊢
  split
  · rename_i cached hcached
    have hphase : ∀ u : State Value Finding,
        (u.goto i (.done (.served kind cached) s.recalled)).phases.get? i =
          some (.done (.served kind cached) s.recalled) :=
      fun u => by simp [State.goto, get?_set]
    refine .inl ⟨hserved cached ?_, cached, hphase _⟩
    rw [hcached]
    unfold State.outcome?
    rw [hphase]
  · exact .inr (by simp [State.goto, get?_set])

lemma next_content_of_some {token : Option String}
    {phase : Phase Value Finding} (h : s.phases.get? i = some phase) :
    next settings s (.content i kind classId token now) = none := by
  simp only [next]
  rw [if_pos (mem_keys_of_get? h)]

lemma next_content_of_none {token : Option String} (h : s.phases.get? i = none) :
    next settings s (.content i kind classId token now) = some (serveContent settings s i kind classId token now) := by
  simp only [next]
  rw [if_neg (notMem_keys_iff.2 h)]

def Event.answerTo : Event Value Finding → Kind → Option (Except WireError String × ℕ)
  | .template _ answer now, .template => some (answer.map Template.text, now)
  | .guide _ answer now, .guide => some (answer, now)
  | _, _ => none

/-- An event that starts no call. -/
def Event.goesOn : Event Value Finding → Bool
  | .content .. => false
  | .evaluate .. => false
  | _ => true

lemma fails_of_answerTo (h : e.answerTo kind = some (answer, now)) : e.fails = !answer.isOk := by
  cases e <;> cases kind <;> cases h
  · rename_i answer
    cases answer <;> rfl
  · rfl

lemma next_of_absent (he : e.goesOn = true) (hp : s.phases.get? e.call = none) : next settings s e = none := by
  cases e <;> first | exact absurd he Bool.false_ne_true | (dsimp only [Event.call] at hp; simp only [next, hp])

lemma next_of_done (he : e.goesOn = true) {o : Outcome Finding}
    (hp : s.phases.get? e.call = some (.done o late)) : next settings s e = none := by
  cases e <;> first | exact absurd he Bool.false_ne_true | (dsimp only [Event.call] at hp; simp only [next, hp])

lemma next_of_fetching (he : e.goesOn = true) (hp : s.phases.get? e.call = some (.fetching kind classId token late)) :
    next settings s e = (e.answerTo kind).map fun a => onContent settings s e.call kind classId token late a.1 a.2 := by
  cases e <;> cases kind <;>
    first
    | exact absurd he Bool.false_ne_true
    | (dsimp only [Event.call] at hp; simp only [next, hp, Event.answerTo, Option.map]; done)
    | (dsimp only [Event.call] at hp; simp only [next, hp, Event.answerTo, Option.map]; rfl)

lemma AllSucceed.ending (h : AllSucceed e.call (e :: after)) {a : Except WireError String × ℕ}
    (hanswer : e.answerTo kind = some a) :
    ∃ text, (RemoteModule.ending kind a.1 : Outcome Finding) = .served kind text := by
  have hok := h e (.head _) rfl
  rw [fails_of_answerTo hanswer] at hok
  obtain ⟨answer, now⟩ := a
  cases answer with
  | ok text => exact ⟨text, rfl⟩
  | error error => cases hok

lemma Related.step_of_goesOn (he : e.goesOn = true)
    (h : Related e.call (e :: after) (s.phases.get? e.call) (s'.phases.get? e.call)) :
    Related e.call after ((stepOf settings s e).phases.get? e.call) ((stepOf settings s' e).phases.get? e.call) := by
  -- an event that neither run takes
  have hskip : next settings s e = none → next settings s' e = none →
      Related e.call after ((stepOf settings s e).phases.get? e.call) ((stepOf settings s' e).phases.get? e.call) :=
    fun hnone hnone' => by
      rw [stepOf_of_none hnone, stepOf_of_none hnone']
      exact h.mono
  generalize hp : s.phases.get? e.call = p at h
  generalize hp' : s'.phases.get? e.call = p' at h
  cases h with
  | absent =>
    exact hskip (next_of_absent he hp) (next_of_absent he hp')
  | done =>
    exact hskip (next_of_done he hp) (next_of_done he hp')
  | fetching kind _ _ late late' =>
    cases hanswer : e.answerTo kind with
    | none => exact hskip (by rw [next_of_fetching he hp, hanswer]; rfl) (by rw [next_of_fetching he hp', hanswer]; rfl)
    | some a =>
      rw [stepOf_of_some (by rw [next_of_fetching he hp, hanswer]; rfl),
        stepOf_of_some (by rw [next_of_fetching he hp', hanswer]; rfl), get?_phases_onContent, get?_phases_onContent]
      exact .done late late' (.inr rfl)
  | left kind _ _ text late late' hall =>
    have hsettled : next settings s e = none := next_of_done he hp
    cases hanswer : e.answerTo kind with
    | none => exact hskip hsettled (by rw [next_of_fetching he hp', hanswer]; rfl)
    | some a =>
      obtain ⟨text', hending⟩ := hall.ending hanswer
      rw [stepOf_of_none hsettled, stepOf_of_some (by rw [next_of_fetching he hp', hanswer]; rfl),
        get?_phases_onContent, hp, hending]
      exact .done late late' (.inl ⟨kind, text, text', rfl, rfl⟩)
  | right kind _ _ text late late' hall =>
    have hsettled : next settings s' e = none := next_of_done he hp'
    cases hanswer : e.answerTo kind with
    | none => exact hskip (by rw [next_of_fetching he hp, hanswer]; rfl) hsettled
    | some a =>
      obtain ⟨text', hending⟩ := hall.ending hanswer
      rw [stepOf_of_none hsettled, stepOf_of_some (by rw [next_of_fetching he hp, hanswer]; rfl),
        get?_phases_onContent, hp', hending]
      exact .done late late' (.inl ⟨kind, text', text, rfl, rfl⟩)

/-- The start of a call of the caller, in both runs. -/
lemma Related.step_content (hhash : Injective settings.callerHash)
    (hsure : Confirmed s token classId now → AllSucceed i after)
    (hsure' : Confirmed s' token classId now → AllSucceed i after) (hmemo : MemoOk settings s)
    (hmemo' : MemoOk settings s')
    (h : Related i (.content i kind classId (some token) now :: after) (s.phases.get? i) (s'.phases.get? i)) :
    Related i after ((stepOf settings s (.content i kind classId (some token) now)).phases.get? i)
      ((stepOf settings s' (.content i kind classId (some token) now)).phases.get? i) := by
  cases hp : s.phases.get? i with
  | none =>
    have hp' : s'.phases.get? i = none := by
      rw [hp] at h
      generalize s'.phases.get? i = p' at h
      cases h
      rfl
    rw [stepOf_of_some (next_content_of_none hp), stepOf_of_some (next_content_of_none hp')]
    -- the memo of the one run may have an entry of the token, and that of the other none
    rcases get?_phases_serveContent hhash hmemo i kind classId token now with ⟨hconfirmed, text, hphase⟩ | hphase
    · rcases get?_phases_serveContent hhash hmemo' i kind classId token now with ⟨-, text', hphase'⟩ | hphase'
      · rw [hphase, hphase']
        exact .done _ _ (.inl ⟨kind, text, text', rfl, rfl⟩)
      · rw [hphase, hphase']
        exact .left kind classId token text _ _ (hsure hconfirmed)
    · rcases get?_phases_serveContent hhash hmemo' i kind classId token now with
        ⟨hconfirmed, text, hphase'⟩ | hphase'
      · rw [hphase, hphase']
        exact .right kind classId token text _ _ (hsure' hconfirmed)
      · rw [hphase, hphase']
        exact .fetching kind classId token _ _
  | some phase =>
    obtain ⟨phase', hp'⟩ : ∃ phase', s'.phases.get? i = some phase' := by
      rw [hp] at h
      generalize s'.phases.get? i = p' at h
      cases h <;> exact ⟨_, rfl⟩
    rw [stepOf_of_none (next_content_of_some hp), stepOf_of_none (next_content_of_some hp')]
    exact h.mono

/-! ## Whole schedules -/

section

variable {token : String} {calls : ℕ → Bool} {events : List (Event Value Finding)}

lemma memoOk_runOf (events : List (Event Value Finding)) : MemoOk settings (runOf settings events) := by
  have hinitial : (remoteModule settings).Reachable (fun _ _ => True) (initial : State Value Finding) := .init rfl
  exact memoOk_of_reachable (TransitionSystem.reachable_attempt hinitial events)

/-- A request that the service answers with success in the smaller schedule is answered so in the whole one. -/
lemma allSucceed_of_filter {i : ℕ} (hi : calls i = true)
    (h : AllSucceed i (events.filter (calls ·.call))) : AllSucceed i events := by
  intro e he hcall
  exact h e (mem_filter.2 ⟨he, by rw [hcall]; exact hi⟩) hcall

lemma related_runOf (hhash : Injective settings.callerHash) (hrun : IsContentRun token calls events)
    (hsteady : IsSteady settings token events)
    (hsteady' : IsSteady settings token (events.filter (calls ·.call))) {i : ℕ} (hi : calls i = true)
    (before after : List (Event Value Finding)) (hevents : events = before ++ after) :
    Related i after ((runOf settings before).phases.get? i)
      ((runOf settings (before.filter (calls ·.call))).phases.get? i) := by
  induction before using List.reverseRecOn generalizing after with
  | nil => exact .absent
  | append_singleton before e ih =>
    have ih := ih (e :: after) (by rw [hevents, append_assoc]; rfl)
    rw [runOf_concat]
    by_cases hcall : e.call = i
    · subst hcall
      have hfilter : (before ++ [e]).filter (calls ·.call) = before.filter (calls ·.call) ++ [e] := by
        rw [filter_append, filter_cons_of_pos (by simpa using hi), filter_nil]
      rw [hfilter, runOf_concat]
      have hmem : e ∈ events := by rw [hevents]; simp
      cases hgoesOn : e.goesOn with
      | true => exact Related.step_of_goesOn hgoesOn ih
      | false =>
        cases e with
        | content j kind classId t now =>
          obtain rfl : t = some token := (hrun.owned _ _ _ _ _ hmem).1 hi
          have hsplit : events = before ++ .content j kind classId (some token) now :: after := by
            rw [hevents, append_assoc]
            rfl
          refine Related.step_content hhash (hsteady before j kind classId now after hsplit) (fun hconfirmed => ?_)
            (memoOk_runOf _) (memoOk_runOf _) ih
          refine allSucceed_of_filter hi (hsteady' _ j kind classId now _ ?_ hconfirmed)
          rw [hsplit, filter_append, filter_cons_of_pos (by simpa using hi)]
        | evaluate j _ _ t => exact absurd hmem (hrun.content _ _ _ _)
        | attributes | resume | template | guide | evaluation => cases hgoesOn
    · rw [get?_phases_stepOf hcall]
      rw [filter_append]
      cases hkeep : calls e.call with
      | true =>
        rw [filter_cons_of_pos (by simpa using hkeep), filter_nil, runOf_concat, get?_phases_stepOf hcall]
        exact ih.mono
      | false =>
        rw [filter_cons_of_neg (by simp [hkeep]), filter_nil, append_nil]
        exact ih.mono

lemma isolated_of_steady (hhash : Injective settings.callerHash) (hrun : IsContentRun token calls events)
    (hsteady : IsSteady settings token events)
    (hsteady' : IsSteady settings token (events.filter (calls ·.call))) : Isolated settings calls events := by
  intro i hi o o' late late' houtcome houtcome'
  have hrelated := related_runOf hhash hrun hsteady hsteady' hi events [] (by simp)
  rw [phase_of_outcome? houtcome, phase_of_outcome? houtcome'] at hrelated
  cases hrelated with
  | done _ _ hsame => exact hsame

lemma isSteady_of_succeeds (hrun : IsContentRun token calls events)
    (h : ∀ e ∈ events, calls e.call = true → e.fails = false) : IsSteady settings token events := by
  intro before i kind classId now after hevents _ e he hcall
  have hi : calls i = true := (hrun.owned i kind classId (some token) now (by rw [hevents]; simp)).2 rfl
  exact h e (by rw [hevents]; simp [he]) (by rw [hcall]; exact hi)

lemma IsContentRun.filter (h : IsContentRun token calls events) (p : Event Value Finding → Bool) :
    IsContentRun token calls (events.filter p) where
  owned i kind classId t now hmem := h.owned i kind classId t now (mem_of_mem_filter hmem)
  content i half classId t hmem := h.content i half classId t (mem_of_mem_filter hmem)

end

/-- What a caller is served without a request rests on a success of its own token, less than the lifetime of an
entry before; and for a service that keeps to a success for that long, the calls of the others do not show in what a
call ends with. -/
theorem content_isolated (settings : Settings Value) (hhash : Injective settings.callerHash) :
    (∀ (s s' : State Value Finding) i kind kind' classId token now text late,
      (remoteModule settings).Reachable (fun _ _ => True) s →
      next settings s (.content i kind classId token now) = some s' →
      s'.outcome? i = some (.served kind' text, late) →
      ∃ t, token = some t ∧ Confirmed s t classId now) ∧
    ∀ token calls (events : List (Event Value Finding)), IsContentRun token calls events →
      IsSteady settings token events → IsSteady settings token (events.filter (calls ·.call)) →
      Isolated settings calls events := by
  constructor
  · intro s s' i kind kind' classId token now text late hs hnext hserved
    simp only [next] at hnext
    split_ifs at hnext
    cases hnext
    cases token with
    | none => simp [serveContent, State.outcome?, State.goto, get?_set] at hserved
    | some t => exact ⟨t, rfl, confirmed_of_served hhash (memoOk_of_reachable hs) hserved⟩
  · intro token calls events hrun hsteady hsteady'
    exact isolated_of_steady hhash hrun hsteady hsteady'

/-! ## Sample schedules -/

/-- The guide of the class comes with a request of the other caller. -/
def guideOfOther : List (Event Unit Unit) :=
  [.content 0 .template "class" (some "a") 0, .template 0 (.ok ⟨"template", []⟩) 1,
    .content 1 .guide "class" (some "b") 2, .guide 1 (.ok "guide") 3]

lemma sampleSettings_injective : Injective sampleSettings.callerHash :=
  fun _ _ h => by simpa [sampleSettings] using h

def ownCalls (i : ℕ) : Bool := i ≠ 1

lemma isContentRun_guideOfOther (answer : Except WireError String) (now : ℕ) :
    IsContentRun "a" ownCalls
      (guideOfOther ++ [.content 2 .guide "class" (some "a") 4, .guide 2 answer now]) where
  owned i kind classId t now h := by
    simp only [guideOfOther, cons_append, nil_append, mem_cons, Event.content.injEq, not_mem_nil,
      reduceCtorEq, or_false, false_or] at h
    rcases h with ⟨rfl, -, -, rfl, -⟩ | ⟨rfl, -, -, rfl, -⟩ | ⟨rfl, -, -, rfl, -⟩ <;> decide
  content i half classId t := by simp [guideOfOther]

theorem guideOfOther_isolated :
    (runOf sampleSettings (guideOfOther ++ [.content 2 .guide "class" (some "a") 4, .guide 2 (.ok "guide") 5])).outcome?
        2 = some (.served .guide "guide", false) ∧
      Isolated sampleSettings ownCalls
        (guideOfOther ++ [.content 2 .guide "class" (some "a") 4, .guide 2 (.ok "guide") 5]) := by
  refine ⟨by decide +kernel, ?_⟩
  have hrun : IsContentRun "a" ownCalls
      (guideOfOther ++ [.content 2 .guide "class" (some "a") 4, .guide 2 (.ok "guide") 5]) :=
    isContentRun_guideOfOther (.ok "guide") 5
  have hsucceeds : ∀ e ∈ guideOfOther ++ [.content 2 .guide "class" (some "a") 4, .guide 2 (.ok "guide") 5],
      ownCalls e.call = true → e.fails = false := by
    intro e he _
    simp only [guideOfOther, cons_append, nil_append, mem_cons, not_mem_nil, or_false] at he
    rcases he with rfl | rfl | rfl | rfl | rfl | rfl <;> rfl
  exact (content_isolated sampleSettings sampleSettings_injective).2 _ _ _ hrun (isSteady_of_succeeds hrun hsucceeds)
    (isSteady_of_succeeds (hrun.filter _) fun e he => hsucceeds e (mem_of_mem_filter he))

/-- Without the request of the other caller a request goes out, and it may fail. -/
theorem unavailableGuide_not_isolated :
    Injective sampleSettings.callerHash ∧
      ∃ events : List (Event Unit Unit), IsContentRun "a" ownCalls events ∧
        ¬ Isolated sampleSettings ownCalls events := by
  refine ⟨sampleSettings_injective, _, isContentRun_guideOfOther (.error .unavailable) 5, ?_⟩
  intro h
  have hsame := h 2 rfl (.served .guide "guide") (.fallback .guide .unavailable) false false (by decide +kernel)
    (by decide +kernel)
  rcases hsame with ⟨_, _, _, _, h⟩ | h <;> cases h

end RemoteModule
