import Dethernety.Foundations.Record
import Dethernety.Foundations.Script
import Dethernety.Foundations.Transition

/-!
# Threads over a shared state

Requests that run side by side: each is a script whose calls read and change a shared state, one call at a time, in
any order. What a call does besides may depend on the outside. The log keeps the steps of all threads in their order.

A contract says what holds between the steps and what every step has to be. `Safe` says that a script keeps to it
from some point on, whatever the other threads do within it; a triple is that for every point where an assertion
holds, and there is a rule for each way to build a script. When the program of every request is safe, the contract
holds in every run (`Contract.Holds.of_reachable`), and also where one request runs after the other
(`Contract.HoldsAlone.of_reachable`).
-/

open List Record

namespace Threads

variable {Call : Type} {Answer : Call → Type} {ε α β Req Outside σ : Type}

/-- What was asked of a thread, the calls that it made with their answers, and what remains of its program. -/
structure Thread (Answer : Call → Type) (ε α Req : Type) where
  request : Req
  past : List (Script.Event Answer)
  rest : Script Answer ε α

/-- A call of a thread, with what the thread did before. -/
structure Step (Answer : Call → Type) (Req σ : Type) where
  thread : ℕ
  request : Req
  past : List (Script.Event Answer)
  call : Call
  answer : Answer call
  before : σ
  after : σ

/-- The call of a step with its answer. -/
def Step.event (st : Step Answer Req σ) : Script.Event Answer :=
  ⟨st.call, st.answer⟩

structure Pool (Answer : Call → Type) (ε α Req σ : Type) where
  shared : σ
  threads : Record ℕ (Thread Answer ε α Req)
  log : List (Step Answer Req σ)

inductive Event (Req Outside : Type)
  | spawn (i : ℕ) (request : Req)
  | step (i : ℕ) (outside : Outside)

/-- What a call of a thread does; `none` while the call has to wait. -/
abbrev Exec (Answer : Call → Type) (Req Outside σ : Type) :=
  ℕ → Req → (c : Call) → Outside → σ → Option (Answer c × σ)

/-- The program of every request, and the effect of the calls. -/
structure Machine (Answer : Call → Type) (ε α Req Outside σ : Type) where
  program : Req → Script Answer ε α
  exec : Exec Answer Req Outside σ

namespace Machine

variable (M : Machine Answer ε α Req Outside σ)

/-- The step that a thread takes next, and what remains of its program after it. -/
def step? (p : Pool Answer ε α Req σ) (i : ℕ) (o : Outside) : Option (Step Answer Req σ × Script Answer ε α) :=
  match p.threads.get? i with
  | some ⟨request, past, .call c k⟩ =>
    (M.exec i request c o p.shared).map fun r => (⟨i, request, past, c, r.1, p.shared, r.2⟩, k r.1)
  | _ => none

/-- The pool after a step. -/
def after (p : Pool Answer ε α Req σ) (st : Step Answer Req σ) (rest : Script Answer ε α) : Pool Answer ε α Req σ where
  shared := st.after
  threads := p.threads.set st.thread ⟨st.request, st.past ++ [⟨st.call, st.answer⟩], rest⟩
  log := p.log ++ [st]

def next (p : Pool Answer ε α Req σ) : Event Req Outside → Option (Pool Answer ε α Req σ)
  | .spawn i request =>
    if i ∈ p.threads.keys then none
    else some { p with threads := p.threads.set i ⟨request, [], M.program request⟩ }
  | .step i o => (M.step? p i o).map fun r => after p r.1 r.2

/-- The requests side by side, from some shared states on. -/
def system (init : σ → Prop) : TransitionSystem (Pool Answer ε α Req σ) (Event Req Outside) where
  init p := init p.shared ∧ p.threads = ∅ ∧ p.log = []
  next := M.next

/-- The events in which a request of some kind begins, or a step is taken that a condition on the log does not
exclude. -/
def allows (serves : Req → Bool) (ok : List (Step Answer Req σ) → Step Answer Req σ → Bool)
    (p : Pool Answer ε α Req σ) : Event Req Outside → Bool
  | .spawn _ request => serves request
  | .step i o => (M.step? p i o).all fun r => ok p.log r.1

/-- The events of runs in which a request begins only when all others have ended. -/
def alone (p : Pool Answer ε α Req σ) : Event Req Outside → Bool
  | .spawn _ _ => p.threads.entries.all (·.2.rest.isDone)
  | .step _ _ => true

variable {M} {p p' : Pool Answer ε α Req σ} {i : ℕ} {o : Outside} {st : Step Answer Req σ} {rest : Script Answer ε α}
  {init : σ → Prop}

lemma step?_eq_some (h : M.step? p i o = some (st, rest)) :
    ∃ k, p.threads.get? i = some ⟨st.request, st.past, .call st.call k⟩ ∧ st.thread = i ∧ st.before = p.shared ∧
      M.exec i st.request st.call o p.shared = some (st.answer, st.after) ∧ rest = k st.answer := by
  unfold step? at h
  split at h
  · rename_i request past c k hthread
    obtain ⟨r, hexec, heq⟩ := Option.map_eq_some_iff.1 h
    cases heq
    exact ⟨k, hthread, rfl, rfl, hexec, rfl⟩
  · cases h

/-- What an event does to a pool. -/
lemma next_cases {e : Event Req Outside} (h : M.next p e = some p') :
    (∃ i request, e = .spawn i request ∧ i ∉ p.threads.keys ∧
      p' = { p with threads := p.threads.set i ⟨request, [], M.program request⟩ }) ∨
    ∃ i o st rest, e = .step i o ∧ M.step? p i o = some (st, rest) ∧ p' = after p st rest := by
  cases e with
  | spawn i request =>
    simp only [next] at h
    split_ifs at h with hi
    exact .inl ⟨i, request, rfl, hi, (Option.some.inj h).symm⟩
  | step i o =>
    obtain ⟨⟨st, rest⟩, hstep, heq⟩ := Option.map_eq_some_iff.1 h
    exact .inr ⟨i, o, st, rest, rfl, hstep, heq.symm⟩

/-- A step that the calls allow. -/
def Takes (exec : Exec Answer Req Outside σ) (st : Step Answer Req σ) : Prop :=
  ∃ o, exec st.thread st.request st.call o st.before = some (st.answer, st.after)

variable (M) in
/-- The steps of the log were taken by the threads of the pool. -/
def Logged (p : Pool Answer ε α Req σ) : Prop :=
  ∀ st ∈ p.log, Takes M.exec st ∧ ∃ t, p.threads.get? st.thread = some t ∧ t.request = st.request ∧
    st.past ++ [⟨st.call, st.answer⟩] <+: t.past

lemma Logged.of_reachable {ok : Pool Answer ε α Req σ → Event Req Outside → Prop}
    (h : (M.system init).Reachable ok p) : M.Logged p := by
  refine h.invariant (fun p hp st hst => ?_) fun p e p' hp _ hnext => ?_
  · rw [hp.2.2] at hst
    exact absurd hst not_mem_nil
  · rcases next_cases hnext with ⟨i, request, rfl, hi, rfl⟩ | ⟨i, o, st, rest, rfl, hstep, rfl⟩
    · intro st hst
      obtain ⟨htakes, t, ht, hrequest, hpast⟩ := hp st hst
      have hne : i ≠ st.thread := fun heq => hi (heq ▸ mem_keys_of_get? ht)
      exact ⟨htakes, t, by rwa [get?_set, if_neg hne], hrequest, hpast⟩
    · obtain ⟨k, hthread, hi, hbefore, hexec, -⟩ := step?_eq_some hstep
      intro st' hst'
      rcases mem_append.1 hst' with hst' | hst'
      · obtain ⟨htakes, t, ht, hrequest, hpast⟩ := hp st' hst'
        refine ⟨htakes, ?_⟩
        by_cases hne : st.thread = st'.thread
        · rw [← hne, hi, hthread] at ht
          cases ht
          exact ⟨⟨st.request, st.past ++ [⟨st.call, st.answer⟩], rest⟩,
            by rw [after, ← hne, get?_set, if_pos rfl], hrequest, hpast.trans (prefix_append _ _)⟩
        · exact ⟨t, by rwa [after, get?_set, if_neg hne], hrequest, hpast⟩
      · cases mem_singleton.1 hst'
        refine ⟨⟨o, ?_⟩, _, by rw [after, get?_set, if_pos rfl], rfl, prefix_refl _⟩
        rw [hbefore, hi]
        exact hexec

end Machine

/-- What is known at a point of a thread: of its own past, of the log and of the shared state. -/
abbrev Assertion (Answer : Call → Type) (Req σ : Type) :=
  List (Script.Event Answer) → List (Step Answer Req σ) → σ → Prop

/-- Whether threads run side by side, the requests that are served, what holds between the steps, the steps that are
looked at and what is required of them. -/
structure Contract (Answer : Call → Type) (Req σ : Type) where
  interleaved : Bool
  serves : Req → Bool
  inv : List (Step Answer Req σ) → σ → Prop
  ok : List (Step Answer Req σ) → Step Answer Req σ → Bool
  good : List (Step Answer Req σ) → Step Answer Req σ → Prop

namespace Contract

variable (C : Contract Answer Req σ) (exec : Exec Answer Req Outside σ)

/-- What a step after a log keeps to. -/
structure Kept (log : List (Step Answer Req σ)) (st : Step Answer Req σ) : Prop where
  inv : C.inv (log ++ [st]) st.after
  good : C.good log st

/-- Steps of other threads that keep to the contract. -/
inductive Others (i : ℕ) (log : List (Step Answer Req σ)) (s : σ) : List (Step Answer Req σ) → σ → Prop
  | refl : Others i log s log s
  | step {log' : List (Step Answer Req σ)} {st : Step Answer Req σ} : Others i log s log' st.before →
      C.interleaved = true → st.thread ≠ i → C.serves st.request = true → Machine.Takes exec st →
        C.ok log' st = true → C.Kept log' st → Others i log s (log' ++ [st]) st.after

/-- An assertion that no step of another thread ends. -/
def Stable (i : ℕ) (K : Assertion Answer Req σ) : Prop :=
  ∀ past log st, K past log st.before → C.inv log st.before → C.interleaved = true → st.thread ≠ i →
    C.serves st.request = true → Machine.Takes exec st → C.ok log st = true → C.Kept log st →
      K past (log ++ [st]) st.after

/-- A script that keeps to the contract from a point on, and ends in `Q`. -/
def Safe (i : ℕ) (req : Req) (Q : Except ε α → Assertion Answer Req σ) :
    Script Answer ε α → List (Script.Event Answer) → List (Step Answer Req σ) → σ → Prop
  | .ret r, past, log, s => Q r past log s
  | .call c k, past, log, s => ∀ log' s', C.Others exec i log s log' s' → ∀ o a s'',
      exec i req c o s' = some (a, s'') → C.ok log' ⟨i, req, past, c, a, s', s''⟩ = true →
        C.Kept log' ⟨i, req, past, c, a, s', s''⟩ ∧
          Safe i req Q (k a) (past ++ [⟨c, a⟩]) (log' ++ [⟨i, req, past, c, a, s', s''⟩]) s''

/-- The script is safe wherever `K` holds. -/
def Triple (i : ℕ) (req : Req) (K : Assertion Answer Req σ) (script : Script Answer ε α)
    (Q : Except ε α → Assertion Answer Req σ) : Prop :=
  ∀ past log s, C.inv log s → K past log s → C.Safe exec i req Q script past log s

variable {C exec} {i : ℕ} {req : Req} {past : List (Script.Event Answer)} {log log' : List (Step Answer Req σ)}
  {s s' : σ} {K L : Assertion Answer Req σ} {Q R : Except ε α → Assertion Answer Req σ} {script : Script Answer ε α}

lemma Others.inv (h : C.Others exec i log s log' s') (hinv : C.inv log s) : C.inv log' s' := by
  cases h with
  | refl => exact hinv
  | step _ _ _ _ _ _ hkept => exact hkept.inv

lemma Others.trans {log'' : List (Step Answer Req σ)} {s'' : σ} (h : C.Others exec i log s log' s')
    (h' : C.Others exec i log' s' log'' s'') : C.Others exec i log s log'' s'' := by
  induction h' with
  | refl => exact h
  | step _ hinter hne hserves htakes hok hkept ih => exact ih.step hinter hne hserves htakes hok hkept

lemma Stable.others (hK : C.Stable exec i K) (h : C.Others exec i log s log' s') (hinv : C.inv log s)
    (hs : K past log s) : K past log' s' := by
  induction h with
  | refl => exact hs
  | step hbefore hinter hne hserves htakes hok hkept ih =>
    exact hK _ _ _ ih (hbefore.inv hinv) hinter hne hserves htakes hok hkept

lemma Stable.and (hK : C.Stable exec i K) (hL : C.Stable exec i L) :
    C.Stable exec i fun past log s => K past log s ∧ L past log s :=
  fun past log st hs hinv hinter hne hserves htakes hok hkept =>
    ⟨hK past log st hs.1 hinv hinter hne hserves htakes hok hkept,
      hL past log st hs.2 hinv hinter hne hserves htakes hok hkept⟩

/-- What is known of the past of a thread alone stays. -/
theorem stable_past (P : List (Script.Event Answer) → Prop) : C.Stable exec i fun past _ _ => P past :=
  fun _ _ _ hs _ _ _ _ _ _ _ => hs

/-- Where one request runs after the other, nothing comes in between. -/
theorem stable_of_alone (h : C.interleaved = false) : C.Stable exec i K :=
  fun _ _ _ _ _ hinter => absurd (h.symm.trans hinter) nofun

lemma Safe.others (h : C.Safe exec i req Q script past log s) (hothers : C.Others exec i log s log' s')
    (hinv : C.inv log s) (hQ : ∀ r, C.Stable exec i (Q r)) : C.Safe exec i req Q script past log' s' := by
  cases script with
  | ret r => exact (hQ r).others hothers hinv h
  | call c k => exact fun log'' s'' h'' => h log'' s'' (hothers.trans h'')

/-! ## Rules -/

namespace Triple

lemma ret {r : Except ε α} (h : ∀ past log s, C.inv log s → K past log s → Q r past log s) :
    C.Triple exec i req K (.ret r) Q := h

/-- A call, by what it does wherever `K` holds. -/
theorem call {c : Call} {k : Answer c → Script Answer ε α} (R : Answer c → Assertion Answer Req σ)
    (hK : C.Stable exec i K)
    (hstep : ∀ past log s o a s', C.inv log s → K past log s → exec i req c o s = some (a, s') →
      C.ok log ⟨i, req, past, c, a, s, s'⟩ = true → C.Kept log ⟨i, req, past, c, a, s, s'⟩ ∧
        R a (past ++ [⟨c, a⟩]) (log ++ [⟨i, req, past, c, a, s, s'⟩]) s')
    (hrest : ∀ a, C.Triple exec i req (R a) (k a) Q) : C.Triple exec i req K (.call c k) Q := by
  intro past log s hinv hs log' s' hothers o a s'' hexec hok
  obtain ⟨hkept, hR⟩ := hstep past log' s' o a s'' (hothers.inv hinv) (hK.others hothers hinv hs) hexec hok
  exact ⟨hkept, hrest a _ _ _ hkept.inv hR⟩

lemma ask {c : Call} {Q : Except ε (Answer c) → Assertion Answer Req σ} (hK : C.Stable exec i K)
    (hstep : ∀ past log s o a s', C.inv log s → K past log s → exec i req c o s = some (a, s') →
      C.ok log ⟨i, req, past, c, a, s, s'⟩ = true → C.Kept log ⟨i, req, past, c, a, s, s'⟩ ∧
        Q (.ok a) (past ++ [⟨c, a⟩]) (log ++ [⟨i, req, past, c, a, s, s'⟩]) s') :
    C.Triple exec i req K (Script.ask c) Q :=
  call (fun a => Q (.ok a)) hK hstep fun _ => ret fun _ _ _ _ hs => hs

lemma mono (h : C.Triple exec i req L script R) (hK : ∀ past log s, C.inv log s → K past log s → L past log s)
    (hQ : ∀ r past log s, C.inv log s → R r past log s → Q r past log s) : C.Triple exec i req K script Q := by
  intro past log s hinv hs
  have hsafe := h past log s hinv (hK past log s hinv hs)
  clear hs h hK
  induction script generalizing past log s with
  | ret r => exact hQ r past log s hinv hsafe
  | call c k ih =>
    intro log' s' hothers o a s'' hexec hok
    obtain ⟨hkept, hrest⟩ := hsafe log' s' hothers o a s'' hexec hok
    exact ⟨hkept, ih a _ _ _ hkept.inv hrest⟩

lemma weaken (h : C.Triple exec i req L script Q)
    (hK : ∀ past log s, C.inv log s → K past log s → L past log s) : C.Triple exec i req K script Q :=
  fun past log s hinv hs => h past log s hinv (hK past log s hinv hs)

variable {f : β → Script Answer ε α}

lemma bind {R : Except ε β → Assertion Answer Req σ} {first : Script Answer ε β}
    (h : C.Triple exec i req K first R) (hok : ∀ b, C.Triple exec i req (R (.ok b)) (f b) Q)
    (herror : ∀ e past log s, C.inv log s → R (.error e) past log s → Q (.error e) past log s) :
    C.Triple exec i req K (first >>= f) Q := by
  intro past log s hinv hs
  have hsafe := h past log s hinv hs
  clear hs h
  induction first generalizing past log s with
  | ret r =>
    cases r with
    | ok b => exact hok b past log s hinv hsafe
    | error e => exact herror e past log s hinv hsafe
  | call c k ih =>
    intro log' s' hothers o a s'' hexec hok'
    obtain ⟨hkept, hrest⟩ := hsafe log' s' hothers o a s'' hexec hok'
    exact ⟨hkept, ih a _ _ _ hkept.inv hrest⟩

/-- The rest runs when the condition holds. -/
lemma require {b : Bool} {e : ε} {f : PUnit → Script Answer ε α} (h : b = true → C.Triple exec i req K (f ⟨⟩) Q)
    (herror : ∀ past log s, C.inv log s → K past log s → Q (.error e) past log s) :
    C.Triple exec i req K (Script.require b e >>= f) Q := by
  cases b with
  | true => exact h rfl
  | false => exact herror

/-- The rest runs with a value that is there. -/
lemma orThrow {x : Option β} {e : ε} (h : ∀ b, x = some b → C.Triple exec i req K (f b) Q)
    (herror : ∀ past log s, C.inv log s → K past log s → Q (.error e) past log s) :
    C.Triple exec i req K (Script.orThrow x e >>= f) Q := by
  cases x with
  | some b => exact h b rfl
  | none => exact herror

/-- The rest runs when there is nothing to throw. -/
lemma throwSome {x : Option ε} {f : PUnit → Script Answer ε α} (h : x = none → C.Triple exec i req K (f ⟨⟩) Q)
    (herror : ∀ e past log s, C.inv log s → K past log s → Q (.error e) past log s) :
    C.Triple exec i req K (Script.throwSome x >>= f) Q := by
  cases x with
  | some e => exact herror e
  | none => exact h rfl

/-- The rest runs with the value of a pure computation. -/
lemma lift {r : Except ε β} (h : ∀ b, r = .ok b → C.Triple exec i req K (f b) Q)
    (herror : ∀ e past log s, C.inv log s → K past log s → Q (.error e) past log s) :
    C.Triple exec i req K (Script.lift r >>= f) Q := by
  cases r with
  | ok b => exact h b rfl
  | error e => exact herror e

lemma attempt (h : C.Triple exec i req K script Q) :
    C.Triple exec i req K script.attempt fun r past log s => ∃ r', r = .ok r' ∧ Q r' past log s := by
  intro past log s hinv hs
  have hsafe := h past log s hinv hs
  clear hs h
  induction script generalizing past log s with
  | ret r => exact ⟨r, rfl, hsafe⟩
  | call c k ih =>
    intro log' s' hothers o a s'' hexec hok
    obtain ⟨hkept, hrest⟩ := hsafe log' s' hothers o a s'' hexec hok
    exact ⟨hkept, ih a _ _ _ hkept.inv hrest⟩

/-- A deferred script runs after whatever the body ends in, and throws nothing. -/
lemma deferring {deferred : Script Answer ε PUnit} (h : C.Triple exec i req K script R)
    (hdeferred : ∀ r, C.Triple exec i req (R r) deferred fun r' past log s => r' = .ok ⟨⟩ ∧ Q r past log s) :
    C.Triple exec i req K (script.deferring deferred) Q := by
  refine h.attempt.bind (fun r => ?_) fun e past log s _ hs => ?_
  · refine Triple.bind (R := fun r' past log s => r' = .ok ⟨⟩ ∧ Q r past log s) ?_ (fun _ => ?_) ?_
    · refine (hdeferred r).weaken fun past log s _ hs => ?_
      obtain ⟨r', hr', hs⟩ := hs
      cases hr'
      exact hs
    · exact ret fun _ _ _ _ hs => hs.2
    · exact fun e past log s _ hs => absurd hs.1 nofun
  · obtain ⟨r', hr', -⟩ := hs
    cases hr'

/-- A script whose calls all keep what is known ends as their answers allow. -/
theorem yields {P : Call → Prop} {A : ∀ c, Answer c → Prop} (past : List (Script.Event Answer))
    (hK : C.Stable exec i K)
    (hstep : ∀ c, P c → ∀ past log s o a s', C.inv log s → K past log s → exec i req c o s = some (a, s') →
      C.ok log ⟨i, req, past, c, a, s, s'⟩ = true → C.Kept log ⟨i, req, past, c, a, s, s'⟩ ∧
        K (past ++ [⟨c, a⟩]) (log ++ [⟨i, req, past, c, a, s, s'⟩]) s' ∧ A c a) (h : script.Every P) :
    C.Triple exec i req (fun past' log s => past' = past ∧ K past' log s) script fun r past' log s =>
      K past' log s ∧ ∃ events, past' = past ++ events ∧ script.Yields A events r := by
  induction script generalizing past with
  | ret r => exact ret fun _ _ _ _ hs => ⟨hs.2, [], by rw [hs.1, append_nil], rfl, rfl⟩
  | call c k ih =>
    refine call (fun a past' log s => A c a ∧ past' = past ++ [⟨c, a⟩] ∧ K past' log s)
      ((stable_past (· = past)).and hK) (fun past' log s o a s' hinv hs hexec hok => ?_) fun a past' log s hinv hs => ?_
    · obtain ⟨hkept, hs', hA⟩ := hstep c h.1 past' log s o a s' hinv hs.2 hexec hok
      exact ⟨hkept, hA, by rw [hs.1], hs'⟩
    · refine (ih a _ (h.2 a)).mono (fun _ _ _ _ hs => hs) (fun r _ _ _ _ hr => ⟨hr.1, ?_⟩) past' log s hinv hs.2
      obtain ⟨events, rfl, hyields⟩ := hr.2
      exact ⟨_, append_assoc _ _ _, a, events, hs.1, rfl, hyields⟩

/-- A script whose calls all keep what is known. -/
theorem every {P : Call → Prop} (hK : C.Stable exec i K)
    (hstep : ∀ c, P c → ∀ past log s o a s', C.inv log s → K past log s → exec i req c o s = some (a, s') →
      C.ok log ⟨i, req, past, c, a, s, s'⟩ = true → C.Kept log ⟨i, req, past, c, a, s, s'⟩ ∧
        K (past ++ [⟨c, a⟩]) (log ++ [⟨i, req, past, c, a, s, s'⟩]) s') (h : script.Every P) :
    C.Triple exec i req K script fun _ => K := by
  intro past log s hinv hs
  refine (yields (A := fun _ _ => True) past hK (fun c hc past log s o a s' hinv hs hexec hok => ?_) h).mono
    (fun _ _ _ _ hs => hs) (fun _ _ _ _ _ hs => hs.1) past log s hinv ⟨rfl, hs⟩
  obtain ⟨hkept, hs'⟩ := hstep c hc past log s o a s' hinv hs hexec hok
  exact ⟨hkept, hs', trivial⟩

end Triple

/-! ## Scripts that matter when they return -/

/-- What holds when a value is returned; of an exception nothing is said. -/
def Returns (G : α → Assertion Answer Req σ) (r : Except ε α) : Assertion Answer Req σ :=
  fun past log s => ∀ a, r = .ok a → G a past log s

variable {G : α → Assertion Answer Req σ} {H : β → Assertion Answer Req σ}

namespace Returns

lemma pure {a : α} (h : ∀ past log s, C.inv log s → K past log s → G a past log s) :
    C.Triple exec i req K (.ret (.ok a)) (Returns (ε := ε) G) := by
  refine .ret fun past log s hinv hs a' ha' => ?_
  cases ha'
  exact h past log s hinv hs

lemma throw {e : ε} : C.Triple exec i req K (.ret (.error e)) (Returns G) :=
  .ret fun _ _ _ _ _ _ => nofun

lemma weaken {script : Script Answer ε α} (h : C.Triple exec i req L script (Returns G))
    (hK : ∀ past log s, C.inv log s → K past log s → L past log s) : C.Triple exec i req K script (Returns G) :=
  Triple.weaken h hK

variable {f : α → Script Answer ε β}

lemma bind {first : Script Answer ε α} (h : C.Triple exec i req K first (Returns G))
    (hf : ∀ a, C.Triple exec i req (G a) (f a) (Returns H)) : C.Triple exec i req K (first >>= f) (Returns H) :=
  Triple.bind h (fun a => (hf a).weaken fun _ _ _ _ hs => hs a rfl) fun _ _ _ _ _ _ _ => nofun

lemma require {b : Bool} {e : ε} {f : PUnit → Script Answer ε β}
    (h : b = true → C.Triple exec i req K (f ⟨⟩) (Returns H)) :
    C.Triple exec i req K (Script.require b e >>= f) (Returns H) :=
  Triple.require h fun _ _ _ _ _ _ => nofun

lemma lift {r : Except ε α}
    (h : ∀ a, r = .ok a → C.Triple exec i req K (f a) (Returns H)) :
    C.Triple exec i req K (Script.lift r >>= f) (Returns H) :=
  Triple.lift h fun _ _ _ _ _ _ _ => nofun

end Returns

/-! ## Runs -/

variable (C) (M : Machine Answer ε α Req Outside σ) (Q : ℕ → Req → Except ε α → Assertion Answer Req σ)

/-- The contract in a pool: of the shared state, of every step of the log, of every thread, and of the requests that
did not come yet. -/
structure Holds (p : Pool Answer ε α Req σ) : Prop where
  inv : C.inv p.log p.shared
  good : ∀ log st log', p.log = log ++ st :: log' → C.good log st
  threads : ∀ i t, p.threads.get? i = some t →
    C.serves t.request = true ∧ C.Safe M.exec i t.request (Q i t.request) t.rest t.past p.log p.shared
  unstarted : ∀ i, i ∉ p.threads.keys → ∀ req, C.serves req = true →
    C.Safe M.exec i req (Q i req) (M.program req) [] p.log p.shared

variable {C M Q}

/-- What holds of every step of a log, and of one more. -/
lemma good_concat {good : List (Step Answer Req σ) → Step Answer Req σ → Prop} {l : List (Step Answer Req σ)}
    {st : Step Answer Req σ} (h : ∀ log st log', l = log ++ st :: log' → good log st) (hst : good l st) :
    ∀ log st' log', l ++ [st] = log ++ st' :: log' → good log st' := by
  intro log st' log' heq
  rcases eq_nil_or_concat log' with rfl | ⟨log'', st'', rfl⟩
  · obtain ⟨hlog, heq⟩ := append_inj' heq rfl
    cases heq
    exact hlog ▸ hst
  · rw [concat_eq_append, ← cons_append, ← append_assoc] at heq
    exact h log st' log'' (append_inj' heq rfl).1

variable {p : Pool Answer ε α Req σ}

lemma Holds.of_reachable {init : σ → Prop} (hinter : C.interleaved = true)
    (hQ : ∀ i req r, C.Stable M.exec i (Q i req r)) (hinit : ∀ s, init s → C.inv [] s)
    (hprogram : ∀ i req s, init s → C.serves req = true → C.Safe M.exec i req (Q i req) (M.program req) [] [] s)
    (h : (M.system init).Reachable (fun p e => M.allows C.serves C.ok p e = true) p) : C.Holds M Q p := by
  refine h.invariant (fun p hp => ?_) fun p e p' hp hok hnext => ?_
  · obtain ⟨hshared, hthreads, hlog⟩ := hp
    refine ⟨by rw [hlog]; exact hinit _ hshared, fun log st log' heq => ?_, fun i t ht => ?_, fun i _ req hreq => ?_⟩
    · rw [hlog] at heq
      exact absurd heq.symm (append_ne_nil_of_right_ne_nil _ (cons_ne_nil _ _))
    · rw [hthreads] at ht
      cases ht
    · rw [hlog]
      exact hprogram i req _ hshared hreq
  · rcases Machine.next_cases hnext with ⟨i, request, rfl, hi, rfl⟩ | ⟨i, o, st, rest, rfl, hstep, rfl⟩
    · refine ⟨hp.inv, hp.good, fun j t ht => ?_, fun j hj req hreq => ?_⟩
      · rw [get?_set] at ht
        split_ifs at ht with hij
        · cases ht
          exact ⟨hok, hij ▸ hp.unstarted i hi request hok⟩
        · exact hp.threads j t ht
      · exact hp.unstarted j (fun hj' => hj (mem_keys_set.2 (.inr hj'))) req hreq
    · obtain ⟨k, hthread, hi, hbefore, hexec, hrest⟩ := Machine.step?_eq_some hstep
      obtain ⟨i', request, past, c, a, before, after⟩ := st
      cases hi
      cases hbefore
      cases hrest
      have hok : C.ok p.log ⟨i', request, past, c, a, p.shared, after⟩ = true := by
        simpa only [Machine.allows, hstep, Option.all_some] using hok
      obtain ⟨hserves, hsafe⟩ := hp.threads i' _ hthread
      obtain ⟨hkept, hsafe⟩ := hsafe p.log p.shared .refl o a after hexec hok
      have hothers : ∀ j, j ≠ i' → C.Others M.exec j p.log p.shared
          (p.log ++ [⟨i', request, past, c, a, p.shared, after⟩]) after :=
        fun j hj => Others.refl.step hinter hj.symm hserves ⟨o, hexec⟩ hok hkept
      refine ⟨hkept.inv, good_concat hp.good hkept.good, fun j t ht => ?_, fun j hj req hreq => ?_⟩
      · rw [Machine.after, get?_set] at ht
        split_ifs at ht with hij
        · cases ht
          exact ⟨hserves, hij ▸ hsafe⟩
        · obtain ⟨hreq, hother⟩ := hp.threads j t ht
          exact ⟨hreq, hother.others (hothers j (Ne.symm hij)) hp.inv (hQ j t.request)⟩
      · have hj' : j ∉ p.threads.keys := fun hj' => hj (mem_keys_set.2 (.inr hj'))
        have hne : j ≠ i' := fun hji => hj' (hji ▸ mem_keys_of_get? hthread)
        exact (hp.unstarted j hj' req hreq).others (hothers j hne) hp.inv (hQ j req)

variable (C M Q)

/-- The contract in a pool whose requests run one after the other. -/
structure HoldsAlone (p : Pool Answer ε α Req σ) : Prop where
  inv : C.inv p.log p.shared
  good : ∀ log st log', p.log = log ++ st :: log' → C.good log st
  thread : ∀ i t, p.threads.get? i = some t → t.rest.isDone = false →
    C.Safe M.exec i t.request (Q i t.request) t.rest t.past p.log p.shared
  one : ∀ i j t t', p.threads.get? i = some t → t.rest.isDone = false → p.threads.get? j = some t' →
    t'.rest.isDone = false → i = j

variable {C M Q}

lemma HoldsAlone.of_reachable {init : σ → Prop} (hinit : ∀ s, init s → C.inv [] s)
    (hprogram : ∀ i req log s, C.inv log s → C.serves req = true →
      C.Safe M.exec i req (Q i req) (M.program req) [] log s) (h : (M.system init).Reachable
      (fun p e => (Machine.alone p e && M.allows C.serves C.ok p e) = true) p) : C.HoldsAlone M Q p := by
  refine h.invariant (fun p hp => ?_) fun p e p' hp hok hnext => ?_
  · obtain ⟨hshared, hthreads, hlog⟩ := hp
    have hnone : ∀ i t, p.threads.get? i = some t → False := fun i t ht => by
      rw [hthreads] at ht
      cases ht
    refine ⟨by rw [hlog]; exact hinit _ hshared, fun log st log' heq => ?_, fun i t ht => (hnone i t ht).elim,
      fun i j t t' ht => (hnone i t ht).elim⟩
    rw [hlog] at heq
    exact absurd heq.symm (append_ne_nil_of_right_ne_nil _ (cons_ne_nil _ _))
  · rcases Machine.next_cases hnext with ⟨i, request, rfl, _, rfl⟩ | ⟨i, o, st, rest, rfl, hstep, rfl⟩
    · obtain ⟨halone, hserves⟩ := Bool.and_eq_true_iff.1 hok
      have hdone : ∀ j t, (p.threads.set i ⟨request, [], M.program request⟩).get? j = some t →
          t.rest.isDone = false → i = j ∧ t = ⟨request, [], M.program request⟩ := by
        intro j t ht hrest
        rw [get?_set] at ht
        split_ifs at ht with hij
        · exact ⟨hij, (Option.some.inj ht).symm⟩
        · have hended := all_eq_true.1 halone (j, t) (mem_entries_iff.2 ht)
          exact absurd (hrest.symm.trans hended) nofun
      refine ⟨hp.inv, hp.good, fun j t ht hrest => ?_, fun j j' t t' ht hrest ht' hrest' => ?_⟩
      · obtain ⟨rfl, rfl⟩ := hdone j t ht hrest
        exact hprogram i request _ _ hp.inv hserves
      · exact (hdone j t ht hrest).1.symm.trans (hdone j' t' ht' hrest').1
    · obtain ⟨k, hthread, hi, hbefore, hexec, hrest⟩ := Machine.step?_eq_some hstep
      obtain ⟨i', request, past, c, a, before, after⟩ := st
      cases hi
      cases hbefore
      cases hrest
      have hok : C.ok p.log ⟨i', request, past, c, a, p.shared, after⟩ = true := by
        simpa only [Machine.alone, Bool.true_and, Machine.allows, hstep, Option.all_some] using hok
      obtain ⟨hkept, hsafe⟩ := hp.thread i' _ hthread rfl p.log p.shared .refl o a after hexec hok
      have hself : ∀ j t, (p.threads.set i' ⟨request, past ++ [⟨c, a⟩], k a⟩).get? j = some t →
          t.rest.isDone = false → i' = j ∧ t = ⟨request, past ++ [⟨c, a⟩], k a⟩ := by
        intro j t ht hrest
        rw [get?_set] at ht
        split_ifs at ht with hij
        · exact ⟨hij, (Option.some.inj ht).symm⟩
        · exact absurd (hp.one i' j _ t hthread rfl ht hrest) hij
      refine ⟨hkept.inv, good_concat hp.good hkept.good, fun j t ht hrest => ?_,
        fun j j' t t' ht hrest ht' hrest' => ?_⟩
      · obtain ⟨rfl, rfl⟩ := hself j t ht hrest
        exact hsafe
      · exact (hself j t ht hrest).1.symm.trans (hself j' t' ht' hrest').1

end Contract

end Threads
