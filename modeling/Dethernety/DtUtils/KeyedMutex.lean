import Dethernety.Foundations.Record
import Dethernety.Foundations.Transition

/-!
# The mutex of one client

Model of `withMutex` of `dt-utils.ts` with the promises of each call: the promise that `fn` returns, `run`,
`tail`, and the promise of the call itself. A reaction to a settled promise waits in the queue of the event
loop and runs once, as a step of its own. Which of the waiting reactions runs next, and whether new calls come
before it, is left open: what holds in every order holds in the order of the queue.
-/

open Option

namespace DtUtils

/-- What has become of `fn`; `O` is the type of outcomes, a value or an error. -/
inductive FnState (O : Type*)
  /-- `prev.then` has not called it. -/
  | waiting
  /-- It has been called and has not returned. -/
  | running
  /-- It has returned a promise, which may have settled. -/
  | returned (outcome : Option O)

structure MutexCall (O : Type*) where
  key : String
  /-- The call whose tail is `prev`; `none` is `Promise.resolve()`. -/
  prev : Option ℕ
  fn : FnState O
  /-- `run` follows the promise that `fn` returned. -/
  adopted : Bool
  /-- The outcome of `run`. -/
  run : Option O
  /-- `tail` is fulfilled. -/
  tail : Bool
  /-- The outcome of the promise of the call. -/
  result : Option O

/-- The calls in the order in which they were made, and the call whose tail is stored under a key. -/
structure KeyedMutex (O : Type*) where
  calls : List (MutexCall O)
  mutex : Record String ℕ

inductive Reaction
  /-- `prev.then(() => fn(), () => fn())` calls `fn`. -/
  | start
  /-- `run` subscribes to the promise that `fn` returned. -/
  | adopt
  /-- `run` settles as that promise did. -/
  | settleRun
  /-- `run.then(() => {}, () => {})` -/
  | settleTail
  /-- `await run` goes on, with `finally`. -/
  | resume

inductive MutexEvent (O : Type*)
  | call (key : String)
  | react (reaction : Reaction) (c : ℕ)
  /-- `fn` returns its promise. -/
  | returns (c : ℕ)
  /-- `fn` ends with an outcome at once: it throws, or it returns no promise. -/
  | ends (c : ℕ) (outcome : O)
  /-- The promise that `fn` returned settles. -/
  | settles (c : ℕ) (outcome : O)

namespace KeyedMutex

variable {O : Type*} (s : KeyedMutex O)

/-- `prev` is settled. -/
def ready (r : MutexCall O) : Bool :=
  match r.prev with
  | none => true
  | some c => s.calls[c]?.any MutexCall.tail

/-- `withMutex` until it awaits `run`. -/
def withMutex (key : String) : KeyedMutex O where
  calls := s.calls ++ [{
    key := key
    prev := s.mutex.get? key
    fn := .waiting
    adopted := false
    run := none
    tail := false
    result := none }]
  mutex := s.mutex.set key s.calls.length

/-- A call with something changed. -/
def put (c : ℕ) (r : MutexCall O) : KeyedMutex O :=
  { s with calls := s.calls.set c r }

/-- `finally`: the entry goes if it is the own one. -/
def leave (key : String) (c : ℕ) : Record String ℕ :=
  if s.mutex.get? key = some c then s.mutex.erase key else s.mutex

/-- A reaction of call `c`, if it waits in the queue. -/
def react (c : ℕ) (r : MutexCall O) : Reaction → Option (KeyedMutex O)
  | .start =>
    match r.fn with
    | .waiting => if s.ready r then some (s.put c { r with fn := .running }) else none
    | _ => none
  | .adopt =>
    match r.fn with
    | .returned _ => if r.adopted then none else some (s.put c { r with adopted := true })
    | _ => none
  | .settleRun =>
    match r.fn with
    | .returned (some outcome) =>
      if r.adopted ∧ r.run.isNone then some (s.put c { r with run := some outcome }) else none
    | _ => none
  | .settleTail => if r.run.isSome ∧ ¬ r.tail then some (s.put c { r with tail := true }) else none
  | .resume =>
    match r.run with
    | some outcome =>
      if r.result.isNone then some { s.put c { r with result := some outcome } with mutex := s.leave r.key c }
      else none
    | none => none

/-- One event. -/
def next : MutexEvent O → Option (KeyedMutex O)
  | .call key => some (s.withMutex key)
  | .react reaction c => s.calls[c]?.bind fun r => s.react c r reaction
  | .returns c => s.calls[c]?.bind fun r =>
    match r.fn with
    | .running => some (s.put c { r with fn := .returned none })
    | _ => none
  | .ends c outcome => s.calls[c]?.bind fun r =>
    match r.fn with
    | .running => some (s.put c { r with fn := .returned (some outcome), adopted := true, run := some outcome })
    | _ => none
  | .settles c outcome => s.calls[c]?.bind fun r =>
    match r.fn with
    | .returned none => some (s.put c { r with fn := .returned (some outcome) })
    | _ => none

/-- One client. -/
def system : TransitionSystem (KeyedMutex O) (MutexEvent O) where
  init s := s = ⟨[], ∅⟩
  next := next

end KeyedMutex

section

variable {O : Type*}

/-- `fn` has been called and its promise has not settled. -/
def MutexCall.InFlight (r : MutexCall O) : Prop :=
  r.fn = .running ∨ r.fn = .returned none

/-- What the promises of a call have to do with each other. -/
structure MutexCall.Sound (r : MutexCall O) : Prop where
  run_eq : ∀ o, r.run = some o → r.fn = .returned (some o)
  run_of_tail : r.tail = true → r.run.isSome
  result_eq : ∀ o, r.result = some o → r.run = some o

/-- As long as `fn` has no outcome, `run` has none. -/
lemma MutexCall.Sound.run_eq_none {r : MutexCall O} (h : r.Sound) (hfn : ∀ o, r.fn ≠ .returned (some o)) :
    r.run = none := by
  cases hrun : r.run with
  | none => rfl
  | some o => exact absurd (h.run_eq o hrun) (hfn o)

/-- What an event may change about a call. -/
structure MutexCall.Grows (r r' : MutexCall O) : Prop where
  key_eq : r'.key = r.key
  prev_eq : r'.prev = r.prev
  run_some : r.run.isSome → r'.run.isSome
  tail_true : r.tail = true → r'.tail = true
  sound : r.Sound → r'.Sound

end

namespace KeyedMutex

variable {O : Type*} {s s' : KeyedMutex O} {e : MutexEvent O}

/-- An event that changes a call: what becomes of the call and of the map. -/
structure Changes (s : KeyedMutex O) (e : MutexEvent O) (s' : KeyedMutex O) (c : ℕ) (r r' : MutexCall O) : Prop where
  call_eq : s.calls[c]? = some r
  calls_eq : s'.calls = s.calls.set c r'
  grows : r.Grows r'
  started : r'.fn ≠ .waiting → r.fn ≠ .waiting ∨ s.ready r = true
  mutex_eq : s'.mutex = s.mutex ∧ r'.result = r.result ∨
    e = .react .resume c ∧ r.result = none ∧ r'.result.isSome ∧ s'.mutex = s.leave r.key c

variable {c : ℕ} {r r' : MutexCall O}

lemma put_changes (hc : s.calls[c]? = some r) (hgrows : r.Grows r')
    (hstarted : r'.fn ≠ .waiting → r.fn ≠ .waiting ∨ s.ready r = true) (hresult : r'.result = r.result) :
    Changes s e (s.put c r') c r r' where
  call_eq := hc
  calls_eq := rfl
  grows := hgrows
  started := hstarted
  mutex_eq := .inl ⟨rfl, hresult⟩

/-- Whatever becomes of `fn` while `run` has no outcome. -/
lemma grows_of_fn {fn : FnState O} (hfn : ∀ o, r.fn ≠ .returned (some o)) :
    r.Grows { r with fn := fn } where
  key_eq := rfl
  prev_eq := rfl
  run_some := id
  tail_true := id
  sound hr := {
    run_eq := fun _ ho => absurd ((hr.run_eq_none hfn).symm.trans ho) nofun
    run_of_tail := hr.run_of_tail
    result_eq := hr.result_eq }

/-- `run` takes the outcome of `fn`. -/
lemma grows_of_run {o : O} (hnew : r.Sound → r.run = none)
    (heq : r' = { r with fn := .returned (some o), adopted := r'.adopted, run := some o }) : r.Grows r' := by
  rw [heq]
  refine ⟨rfl, rfl, fun _ => rfl, id, fun hr => ⟨fun o' ho => ?_, fun _ => rfl, fun o' ho => ?_⟩⟩
  · rw [Option.some.inj ho]
  · have hrun := hr.result_eq o' ho
    rw [hnew hr] at hrun
    cases hrun

lemma react_changes {x : Reaction} (hc : s.calls[c]? = some r)
    (h : s.react c r x = some s') : ∃ r', Changes s (.react x c) s' c r r' := by
  cases x with simp only [react] at h
  | start =>
    split at h
    next hfn =>
      split_ifs at h with hready
      cases h
      have hnone : ∀ o, r.fn ≠ .returned (some o) := fun o => hfn ▸ nofun
      exact ⟨_, put_changes hc (grows_of_fn hnone) (fun _ => .inr hready) rfl⟩
    next => cases h
  | adopt =>
    split at h
    next _ =>
      split_ifs at h
      cases h
      exact ⟨_, put_changes hc ⟨rfl, rfl, id, id, fun hr => ⟨hr.1, hr.2, hr.3⟩⟩ .inl rfl⟩
    next => cases h
  | settleRun =>
    split at h
    next o hfn =>
      split_ifs at h with hguard
      cases h
      refine ⟨_, put_changes hc (grows_of_run (o := o) (fun _ => isNone_iff_eq_none.1 hguard.2) ?_) .inl rfl⟩
      rw [← hfn]
    next => cases h
  | settleTail =>
    split_ifs at h with hguard
    cases h
    exact ⟨_, put_changes hc ⟨rfl, rfl, id, fun _ => rfl, fun hr => ⟨hr.1, fun _ => hguard.1, hr.3⟩⟩ .inl rfl⟩
  | resume =>
    split at h
    next o hrun =>
      split_ifs at h with hguard
      cases h
      refine ⟨_, hc, rfl, ⟨rfl, rfl, id, id, fun hr => ⟨hr.1, hr.2, fun o' ho => ?_⟩⟩, .inl,
        .inr ⟨rfl, isNone_iff_eq_none.1 hguard, rfl, rfl⟩⟩
      exact hrun.trans ho
    next => cases h

/-- What an event does: it is a new call, or it changes one call. -/
lemma next_cases (h : s.next e = some s') :
    (∃ key, e = .call key ∧ s' = s.withMutex key) ∨ ∃ c r r', Changes s e s' c r r' := by
  cases e with
  | call key => exact .inl ⟨key, rfl, (Option.some.inj h).symm⟩
  | react x c =>
    obtain ⟨r, hc, hr⟩ := bind_eq_some_iff.1 h
    exact .inr ⟨c, r, react_changes hc hr⟩
  | returns c =>
    obtain ⟨r, hc, hr⟩ := bind_eq_some_iff.1 h
    split at hr
    next hfn =>
      cases hr
      have hnone : ∀ o, r.fn ≠ .returned (some o) := fun o => hfn ▸ nofun
      exact .inr ⟨c, r, _, put_changes hc (grows_of_fn hnone) (fun _ => .inl (hfn ▸ nofun)) rfl⟩
    next => cases hr
  | ends c o =>
    obtain ⟨r, hc, hr⟩ := bind_eq_some_iff.1 h
    split at hr
    next hfn =>
      cases hr
      have hnone : ∀ o, r.fn ≠ .returned (some o) := fun o => hfn ▸ nofun
      exact .inr ⟨c, r, _, put_changes hc (grows_of_run (fun hr => hr.run_eq_none hnone) rfl)
        (fun _ => .inl (hfn ▸ nofun)) rfl⟩
    next => cases hr
  | settles c o =>
    obtain ⟨r, hc, hr⟩ := bind_eq_some_iff.1 h
    split at hr
    next hfn =>
      cases hr
      have hnone : ∀ o, r.fn ≠ .returned (some o) := fun o => hfn ▸ nofun
      exact .inr ⟨c, r, _, put_changes hc (grows_of_fn hnone) (fun _ => .inl (hfn ▸ nofun)) rfl⟩
    next => cases hr

lemma grows_refl (r : MutexCall O) : r.Grows r :=
  ⟨rfl, rfl, id, id, id⟩

namespace Changes

variable {c : ℕ} {r r' : MutexCall O} {x' : MutexCall O}

lemma back (h : Changes s e s' c r r') {d : ℕ} (hd : s'.calls[d]? = some x') :
    ∃ x, s.calls[d]? = some x ∧ x.Grows x' ∧ (d = c ∧ x = r ∧ x' = r' ∨ d ≠ c ∧ x' = x) := by
  rw [h.calls_eq, List.getElem?_set] at hd
  split_ifs at hd with hcd hlt
  · subst hcd
    exact ⟨r, h.call_eq, Option.some.inj hd ▸ h.grows, .inl ⟨rfl, rfl, (Option.some.inj hd).symm⟩⟩
  · exact ⟨x', hd, grows_refl x', .inr ⟨Ne.symm hcd, rfl⟩⟩

variable {x : MutexCall O}

lemma forth (h : Changes s e s' c r r') {d : ℕ} (hd : s.calls[d]? = some x) :
    ∃ x', s'.calls[d]? = some x' ∧ x.Grows x' := by
  rw [h.calls_eq, List.getElem?_set]
  split_ifs with hcd hlt
  · subst hcd
    have hx : r = x := Option.some.inj (h.call_eq.symm.trans hd)
    exact ⟨r', rfl, hx ▸ h.grows⟩
  · exact absurd (List.getElem?_eq_some_iff.1 hd).1 (hcd ▸ hlt)
  · exact ⟨x, hd, grows_refl x⟩

lemma ready (h : Changes s e s' c r r') (hprev : x'.prev = x.prev) (hx : s.ready x = true) :
    s'.ready x' = true := by
  unfold KeyedMutex.ready at hx ⊢
  rw [hprev]
  cases hp : x.prev with
  | none => rfl
  | some d =>
    rw [hp] at hx
    obtain ⟨y, hy, htail⟩ := (any_eq_true _ _).1 hx
    obtain ⟨y', hy', hgrows⟩ := h.forth hy
    exact (any_eq_true _ _).2 ⟨y', hy', hgrows.tail_true htail⟩

end Changes

/-- No call with the key was made after `c`. -/
def Latest (s : KeyedMutex O) (key : String) (c : ℕ) : Prop :=
  ∀ (d : ℕ) (r : MutexCall O), s.calls[d]? = some r → r.key = key → d ≤ c

/-- What holds between events. -/
structure Inv (s : KeyedMutex O) : Prop where
  sound : ∀ (c : ℕ) (r : MutexCall O), s.calls[c]? = some r → r.Sound
  /-- `fn` is called when `prev` is settled. -/
  started : ∀ (c : ℕ) (r : MutexCall O), s.calls[c]? = some r → r.fn ≠ .waiting → s.ready r = true
  /-- A call waits for the one before it with the same key. -/
  prev_some : ∀ (d : ℕ) (r : MutexCall O) (c : ℕ), s.calls[d]? = some r → r.prev = some c → c < d ∧
    (∃ r', s.calls[c]? = some r' ∧ r'.key = r.key) ∧
    ∀ (i : ℕ) (x : MutexCall O), s.calls[i]? = some x → x.key = r.key → i < d → i ≤ c
  /-- A call that waits for none came when those before it were done. -/
  prev_none : ∀ (d : ℕ) (r : MutexCall O), s.calls[d]? = some r → r.prev = none →
    ∀ (c : ℕ) (r' : MutexCall O), s.calls[c]? = some r' → r'.key = r.key → c < d → r'.run.isSome
  /-- The entry is the latest call, until that one has its result. -/
  entry : ∀ (key : String) (c : ℕ), s.mutex.get? key = some c ↔
    (∃ r, s.calls[c]? = some r ∧ r.key = key ∧ r.result = none) ∧ s.Latest key c

lemma Changes.latest_iff {d : ℕ} (hs : Changes s e s' c r r') {key : String} :
    s'.Latest key d ↔ s.Latest key d := by
  constructor
  · intro h i x hx hkey
    obtain ⟨x', hx', hgrows⟩ := hs.forth hx
    exact h i x' hx' (hgrows.key_eq.trans hkey)
  · intro h i x' hx' hkey
    obtain ⟨x, hx, hgrows, -⟩ := hs.back hx'
    exact h i x hx (hgrows.key_eq.symm.trans hkey)

namespace Inv

variable {r r' : MutexCall O} {c : ℕ}

lemma run_of_ready (h : s.Inv) {d : ℕ} (hd : s.calls[d]? = some r) (hready : s.ready r = true)
    (hc : s.calls[c]? = some r') (hkey : r'.key = r.key) (hlt : c < d) : r'.run.isSome := by
  induction d using Nat.strongRecOn generalizing r with
  | _ d ih =>
    cases hprev : r.prev with
    | none => exact h.prev_none d r hd hprev c r' hc hkey hlt
    | some p =>
      obtain ⟨hpd, ⟨x, hx, hxkey⟩, hbetween⟩ := h.prev_some d r p hd hprev
      unfold KeyedMutex.ready at hready
      rw [hprev] at hready
      obtain ⟨y, hy, htail⟩ := (any_eq_true _ _).1 hready
      cases hx.symm.trans hy
      have hrun := (h.sound p x hx).run_of_tail htail
      obtain rfl | hcp := Nat.eq_or_lt_of_le (hbetween c r' hc hkey hlt)
      · rwa [Option.some.inj (hc.symm.trans hx)]
      · -- the call before it was started in its turn
        obtain ⟨o, ho⟩ := isSome_iff_exists.1 hrun
        have hstarted : x.fn ≠ .waiting := by
          rw [(h.sound p x hx).run_eq o ho]
          exact nofun
        exact ih p hpd hx (h.started p x hx hstarted) (hkey.trans hxkey.symm) hcp

lemma run_of_no_entry (h : s.Inv) {key : String} (hnone : s.mutex.get? key = none)
    (hc : s.calls[c]? = some r) (hkey : r.key = key) : r.run.isSome := by
  induction hn : s.calls.length - c using Nat.strongRecOn generalizing c r with
  | _ n ih =>
    by_cases hlater : ∃ d x, s.calls[d]? = some x ∧ x.key = key ∧ c < d
    · obtain ⟨d, x, hd, hxkey, hlt⟩ := hlater
      have hdlen := (List.getElem?_eq_some_iff.1 hd).1
      obtain ⟨o, ho⟩ := isSome_iff_exists.1 (ih _ (by omega) hd hxkey rfl)
      have hstarted : x.fn ≠ .waiting := by
        rw [(h.sound d x hd).run_eq o ho]
        exact nofun
      exact h.run_of_ready hd (h.started d x hd hstarted) hc (hkey.trans hxkey.symm) hlt
    · -- The latest call has no entry any more, so it has its result.
      have hlatest : s.Latest key c := fun d x hd hxkey =>
        Nat.not_lt.1 fun hlt => hlater ⟨d, x, hd, hxkey, hlt⟩
      cases hresult : r.result with
      | none =>
        have hentry := (h.entry key c).2 ⟨⟨r, hc, hkey, hresult⟩, hlatest⟩
        cases hnone.symm.trans hentry
      | some o =>
        rw [(h.sound c r hc).result_eq o hresult]
        rfl

lemma initial : Inv (⟨[], ∅⟩ : KeyedMutex O) where
  sound c r h := by simp at h
  started c r h := by simp at h
  prev_some d r c h := by simp at h
  prev_none d r h := by simp at h
  entry key c := by simp

lemma changes (h : s.Inv) (hs : Changes s e s' c r r') : s'.Inv where
  sound d x' hd := by
    obtain ⟨x, hx, hgrows, -⟩ := hs.back hd
    exact hgrows.sound (h.sound d x hx)
  started d x' hd hfn := by
    obtain ⟨x, hx, hgrows, hwhich⟩ := hs.back hd
    apply hs.ready hgrows.prev_eq
    obtain ⟨rfl, rfl, rfl⟩ | ⟨-, rfl⟩ := hwhich
    · exact (hs.started hfn).elim (h.started d x hx) id
    · exact h.started d x' hx hfn
  prev_some d x' p hd hp := by
    obtain ⟨x, hx, hgrows, -⟩ := hs.back hd
    obtain ⟨hlt, ⟨y, hy, hykey⟩, hbetween⟩ := h.prev_some d x p hx (hgrows.prev_eq ▸ hp)
    obtain ⟨y', hy', hgrows'⟩ := hs.forth hy
    refine ⟨hlt, ⟨y', hy', ?_⟩, fun i z' hi hzkey hid => ?_⟩
    · rw [hgrows'.key_eq, hykey, hgrows.key_eq]
    · obtain ⟨z, hz, hgrowsz, -⟩ := hs.back hi
      refine hbetween i z hz ?_ hid
      rw [← hgrowsz.key_eq, hzkey, hgrows.key_eq]
  prev_none d x' hd hp i z' hi hzkey hid := by
    obtain ⟨x, hx, hgrows, -⟩ := hs.back hd
    obtain ⟨z, hz, hgrowsz, -⟩ := hs.back hi
    refine hgrowsz.run_some (h.prev_none d x hx (hgrows.prev_eq ▸ hp) i z hz ?_ hid)
    rw [← hgrowsz.key_eq, hzkey, hgrows.key_eq]
  entry key d := by
    rw [hs.latest_iff]
    obtain ⟨hmutex, hresult⟩ | ⟨-, _, hsome, hmutex⟩ := hs.mutex_eq
    · rw [hmutex, h.entry]
      refine and_congr_left fun _ => ⟨fun ⟨x, hx, hkey, hxnone⟩ => ?_, fun ⟨x', hx', hkey, hxnone⟩ => ?_⟩
      · obtain ⟨x', hx', hgrows⟩ := hs.forth hx
        obtain ⟨y, hy, -, hwhich⟩ := hs.back hx'
        cases hx.symm.trans hy
        refine ⟨x', hx', hgrows.key_eq.trans hkey, ?_⟩
        obtain ⟨-, rfl, rfl⟩ | ⟨-, rfl⟩ := hwhich
        · exact hresult.trans hxnone
        · exact hxnone
      · obtain ⟨x, hx, hgrows, hwhich⟩ := hs.back hx'
        refine ⟨x, hx, hgrows.key_eq.symm.trans hkey, ?_⟩
        obtain ⟨-, rfl, rfl⟩ | ⟨-, rfl⟩ := hwhich
        · exact hresult.symm.trans hxnone
        · exact hxnone
    · -- `finally` of call `c`: only its own entry goes.
      have hown : ∀ key', s.mutex.get? key' = some c → key' = r.key := by
        intro key' hentry
        obtain ⟨⟨x, hx, hkey, -⟩, -⟩ := (h.entry key' c).1 hentry
        rw [← hkey, Option.some.inj (hx.symm.trans hs.call_eq)]
      have hleave : s'.mutex.get? key = some d ↔ s.mutex.get? key = some d ∧ d ≠ c := by
        rw [hmutex, leave]
        split_ifs with hentry
        · rw [Record.get?_erase]
          split_ifs with hkey
          · subst hkey
            rw [hentry]
            exact ⟨nofun, fun ⟨heq, hne⟩ => absurd (Option.some.inj heq).symm hne⟩
          · exact (and_iff_left_of_imp fun hd (hdc : d = c) => hkey (hown key (hdc ▸ hd)).symm).symm
        · refine (and_iff_left_of_imp fun hd hdc => hentry ?_).symm
          subst hdc
          rwa [← hown key hd]
      rw [hleave, h.entry, and_right_comm]
      refine and_congr_left fun _ => ⟨fun ⟨⟨x, hx, hkey, hxnone⟩, hne⟩ => ?_, fun ⟨x', hx', hkey, hxnone⟩ => ?_⟩
      · refine ⟨x, ?_, hkey, hxnone⟩
        rw [hs.calls_eq, List.getElem?_set_ne (Ne.symm hne)]
        exact hx
      · obtain ⟨x, hx, hgrows, hwhich⟩ := hs.back hx'
        obtain ⟨-, -, rfl⟩ | ⟨hne, rfl⟩ := hwhich
        · rw [hxnone] at hsome
          cases hsome
        · exact ⟨⟨x', hx, hkey, hxnone⟩, hne⟩

/-- A new call. -/
theorem withMutex (h : s.Inv) (key : String) : (s.withMutex key).Inv := by
  set new : MutexCall O := ⟨key, s.mutex.get? key, .waiting, false, none, false, none⟩ with hnew
  have hback : ∀ {d : ℕ} {x : MutexCall O}, (s.withMutex key).calls[d]? = some x →
      d < s.calls.length ∧ s.calls[d]? = some x ∨ d = s.calls.length ∧ x = new := by
    intro d x hd
    replace hd : (s.calls ++ [new])[d]? = some x := hd
    obtain hlt | hge := Nat.lt_or_ge d s.calls.length
    · rw [List.getElem?_append_left hlt] at hd
      exact .inl ⟨hlt, hd⟩
    · rw [List.getElem?_append_right hge, List.getElem?_singleton] at hd
      split_ifs at hd with hzero
      exact .inr ⟨by omega, (Option.some.inj hd).symm⟩
  have hforth : ∀ {d : ℕ} {x : MutexCall O}, s.calls[d]? = some x → (s.withMutex key).calls[d]? = some x := by
    intro d x hd
    exact (List.getElem?_append_left (List.getElem?_eq_some_iff.1 hd).1).trans hd
  have hlast : (s.withMutex key).calls[s.calls.length]? = some new := List.getElem?_concat_length
  have hready : ∀ {x : MutexCall O}, s.ready x = true → (s.withMutex key).ready x = true := by
    intro x hx
    unfold KeyedMutex.ready at hx ⊢
    cases hp : x.prev with
    | none => rfl
    | some d =>
      rw [hp] at hx
      obtain ⟨y, hy, htail⟩ := (any_eq_true _ _).1 hx
      exact (any_eq_true _ _).2 ⟨y, hforth hy, htail⟩
  refine {
    sound := fun d x hd => ?_
    started := fun d x hd hfn => ?_
    prev_some := fun d x p hd hp => ?_
    prev_none := fun d x hd hp i z hi hzkey hid => ?_
    entry := fun key' d => ?_ }
  · obtain ⟨-, hd⟩ | ⟨-, rfl⟩ := hback hd
    · exact h.sound d x hd
    · exact ⟨nofun, nofun, nofun⟩
  · obtain ⟨-, hd⟩ | ⟨-, rfl⟩ := hback hd
    · exact hready (h.started d x hd hfn)
    · exact absurd rfl hfn
  · obtain ⟨hdlen, hd⟩ | ⟨rfl, rfl⟩ := hback hd
    · obtain ⟨hlt, ⟨y, hy, hykey⟩, hbetween⟩ := h.prev_some d x p hd hp
      refine ⟨hlt, ⟨y, hforth hy, hykey⟩, fun i z hi hzkey hid => ?_⟩
      obtain ⟨-, hi⟩ | ⟨rfl, -⟩ := hback hi
      · exact hbetween i z hi hzkey hid
      · omega
    · obtain ⟨⟨y, hy, hykey, -⟩, hlatest⟩ := (h.entry key p).1 hp
      refine ⟨(List.getElem?_eq_some_iff.1 hy).1, ⟨y, hforth hy, hykey⟩, fun i z hi hzkey hid => ?_⟩
      obtain ⟨-, hi⟩ | ⟨rfl, -⟩ := hback hi
      · exact hlatest i z hi hzkey
      · omega
  · obtain ⟨hdlen, hd⟩ | ⟨rfl, rfl⟩ := hback hd
    · obtain ⟨-, hi⟩ | ⟨rfl, -⟩ := hback hi
      · exact h.prev_none d x hd hp i z hi hzkey hid
      · omega
    · obtain ⟨-, hi⟩ | ⟨rfl, -⟩ := hback hi
      · exact h.run_of_no_entry hp hi hzkey
      · omega
  · show (s.mutex.set key s.calls.length).get? key' = some d ↔ _
    rw [Record.get?_set]
    split_ifs with hkey
    · -- the new call is the latest with its key
      subst hkey
      constructor
      · intro hd
        cases hd
        refine ⟨⟨new, hlast, rfl, rfl⟩, fun i x hi _ => ?_⟩
        obtain ⟨hlt, -⟩ | ⟨rfl, -⟩ := hback hi
        · exact Nat.le_of_lt hlt
        · exact Nat.le_refl _
      · rintro ⟨⟨x, hd, -, -⟩, hlatest⟩
        have hle := hlatest _ new hlast rfl
        obtain ⟨hlt, -⟩ | ⟨rfl, -⟩ := hback hd
        · omega
        · rfl
    · rw [h.entry]
      refine and_congr ⟨fun ⟨x, hd, hx⟩ => ⟨x, hforth hd, hx⟩, fun ⟨x, hd, hxkey, hx⟩ => ?_⟩
        ⟨fun hlatest i x hi hxkey => ?_, fun hlatest i x hi => hlatest i x (hforth hi)⟩
      · obtain ⟨-, hd⟩ | ⟨-, rfl⟩ := hback hd
        · exact ⟨x, hd, hxkey, hx⟩
        · exact absurd hxkey hkey
      · obtain ⟨-, hi⟩ | ⟨-, rfl⟩ := hback hi
        · exact hlatest i x hi hxkey
        · exact absurd hxkey hkey

lemma of_reachable (h : (system (O := O)).Reachable (fun _ _ => True) s) : s.Inv := by
  refine h.invariant (fun s hs => ?_) fun s e s' hs _ hnext => ?_
  · rw [show s = _ from hs]
    exact initial
  · obtain ⟨key, rfl, rfl⟩ | ⟨c, r, r', hchanges⟩ := next_cases hnext
    · exact hs.withMutex key
    · exact hs.changes hchanges

lemma run_of_started (h : s.Inv) {d : ℕ} (hc : s.calls[c]? = some r)
    (hd : s.calls[d]? = some r') (hkey : r.key = r'.key) (hlt : c < d) (hfn : r'.fn ≠ .waiting) : r.run.isSome :=
  h.run_of_ready hd (h.started d r' hd hfn) hc hkey hlt

end Inv

/-- What the mutex promises in a state. -/
structure Fair (s : KeyedMutex O) : Prop where
  /-- At most one `fn` of a key is in flight. -/
  exclusive : ∀ (c d : ℕ) (r r' : MutexCall O), s.calls[c]? = some r → s.calls[d]? = some r' →
    r.key = r'.key → r.InFlight → r'.InFlight → c = d
  /-- Where an `fn` was called, those of the earlier calls with its key have ended. -/
  ordered : ∀ (c d : ℕ) (r r' : MutexCall O), s.calls[c]? = some r → s.calls[d]? = some r' →
    r.key = r'.key → c < d → r'.fn ≠ .waiting → ∃ o, r.fn = .returned (some o)
  /-- A caller gets the outcome of its own `fn`. -/
  own : ∀ (c : ℕ) (r : MutexCall O) (o : O), s.calls[c]? = some r → r.result = some o → r.fn = .returned (some o)
  /-- Where no reaction waits and no `fn` of a key is in flight, every caller with the key has its outcome. -/
  served : ∀ key, (∀ x c, s.next (.react x c) = none) →
    (∀ (c : ℕ) (r : MutexCall O), s.calls[c]? = some r → r.key = key → ¬ r.InFlight) →
    ∀ (c : ℕ) (r : MutexCall O), s.calls[c]? = some r → r.key = key → r.result.isSome
  /-- When every call with a key has its outcome, there is no entry for the key. -/
  cleared : ∀ key, (∀ (c : ℕ) (r : MutexCall O), s.calls[c]? = some r → r.key = key → r.result.isSome) →
    s.mutex.get? key = none
  /-- While the latest call with a key has no outcome, the next one finds its tail. -/
  found : ∀ (c : ℕ) (r : MutexCall O), s.calls[c]? = some r → r.result = none → s.Latest r.key c →
    s.mutex.get? r.key = some c
  /-- An entry is replaced by a call with its key, or goes when its own call ends and no call awaits it. -/
  kept : ∀ e s' key c, s.next e = some s' → s.mutex.get? key = some c → s'.mutex.get? key ≠ some c →
    e = .call key ∨
      e = .react .resume c ∧ ∀ (d : ℕ) (r : MutexCall O), s.calls[d]? = some r → r.prev ≠ some c

namespace Inv

variable {c d : ℕ} {r r' : MutexCall O}

lemma ordered (h : s.Inv) (hc : s.calls[c]? = some r)
    (hd : s.calls[d]? = some r') (hkey : r.key = r'.key) (hlt : c < d) (hfn : r'.fn ≠ .waiting) :
    ∃ o, r.fn = .returned (some o) := by
  obtain ⟨o, ho⟩ := isSome_iff_exists.1 (h.run_of_started hc hd hkey hlt hfn)
  exact ⟨o, (h.sound c r hc).run_eq o ho⟩

lemma exclusive (h : s.Inv) (hc : s.calls[c]? = some r)
    (hd : s.calls[d]? = some r') (hkey : r.key = r'.key) (hflight : r.InFlight) (hflight' : r'.InFlight) : ¬ c < d := by
  intro hlt
  have hfn : r'.fn ≠ .waiting := by
    obtain hfn | hfn := hflight'
    all_goals exact hfn ▸ nofun
  obtain ⟨o, ho⟩ := h.ordered hc hd hkey hlt hfn
  obtain hfn | hfn := hflight
  all_goals cases ho.symm.trans hfn

variable {key : String}

lemma result_of_quiet (h : s.Inv) (hquiet : ∀ x c, s.next (.react x c) = none)
    (hflight : ∀ (c : ℕ) (r : MutexCall O), s.calls[c]? = some r → r.key = key → ¬ r.InFlight)
    (hc : s.calls[c]? = some r) (hkey : r.key = key) : r.result.isSome := by
  have hreact : ∀ {d : ℕ} {x : MutexCall O}, s.calls[d]? = some x → ∀ y, s.react d x y = none := by
    intro d x hd y
    have hnone := hquiet y d
    rwa [next, hd, bind_some] at hnone
  -- a call whose `fn` has been called has gone all the way
  have hdone : ∀ {d : ℕ} {x : MutexCall O}, s.calls[d]? = some x → x.key = key → x.fn ≠ .waiting →
      x.tail = true ∧ x.result.isSome := by
    intro d x hd hxkey hfn
    have hrun : x.run.isSome := by
      cases hfnx : x.fn with
      | waiting => exact absurd hfnx hfn
      | running => exact absurd (.inl hfnx) (hflight d x hd hxkey)
      | returned outcome =>
        cases outcome with
        | none => exact absurd (.inr hfnx) (hflight d x hd hxkey)
        | some o =>
          have hadopted : x.adopted = true := by
            have hadopt := hreact hd .adopt
            rw [react, hfnx] at hadopt
            by_contra hno
            simp [hno] at hadopt
          have hsettle := hreact hd .settleRun
          rw [react, hfnx] at hsettle
          by_contra hno
          simp [hadopted, not_isSome_iff_eq_none.1 hno] at hsettle
    obtain ⟨o, ho⟩ := isSome_iff_exists.1 hrun
    have htail := hreact hd .settleTail
    have hresume := hreact hd .resume
    constructor
    · by_contra hno
      simp [react, hno, hrun] at htail
    · by_contra hno
      simp [react, ho, not_isSome_iff_eq_none.1 hno] at hresume
  induction c using Nat.strongRecOn generalizing r with
  | _ c ih =>
    refine (hdone hc hkey fun hfn => ?_).2
    have hready : s.ready r = true := by
      unfold KeyedMutex.ready
      cases hprev : r.prev with
      | none => rfl
      | some p =>
        -- the call before it has its result, so its tail has settled
        obtain ⟨hlt, ⟨x, hx, hxkey⟩, -⟩ := h.prev_some c r p hc hprev
        obtain ⟨o, ho⟩ := isSome_iff_exists.1 (ih p hlt hx (hxkey.trans hkey))
        have hstarted : x.fn ≠ .waiting := by
          rw [(h.sound p x hx).run_eq o ((h.sound p x hx).result_eq o ho)]
          exact nofun
        exact (any_eq_true _ _).2 ⟨x, hx, (hdone hx (hxkey.trans hkey) hstarted).1⟩
    have hstart := hreact hc .start
    simp [react, hfn, hready] at hstart

lemma not_awaited (h : s.Inv) (hentry : s.mutex.get? key = some c) (hd : s.calls[d]? = some r) : r.prev ≠ some c := by
  intro hprev
  obtain ⟨⟨x, hx, hxkey, -⟩, hlatest⟩ := (h.entry key c).1 hentry
  obtain ⟨hlt, ⟨y, hy, hykey⟩, -⟩ := h.prev_some d r c hd hprev
  cases hx.symm.trans hy
  exact absurd (hlatest d r hd (hykey.symm.trans hxkey)) (Nat.not_le.2 hlt)

lemma kept (h : s.Inv) (hnext : s.next e = some s')
    (hentry : s.mutex.get? key = some c) (hgone : s'.mutex.get? key ≠ some c) :
    e = .call key ∨
      e = .react .resume c ∧ ∀ (d : ℕ) (r : MutexCall O), s.calls[d]? = some r → r.prev ≠ some c := by
  obtain ⟨key', rfl, rfl⟩ | ⟨c', r, r', hchanges⟩ := next_cases hnext
  · refine .inl (congrArg _ ?_)
    by_contra hne
    apply hgone
    show (s.mutex.set key' _).get? key = some c
    rw [Record.get?_set, if_neg hne]
    exact hentry
  · obtain ⟨hmutex, -⟩ | ⟨he, -, -, hmutex⟩ := hchanges.mutex_eq
    · exact absurd (hmutex ▸ hentry) hgone
    · rw [hmutex, leave] at hgone
      split_ifs at hgone with hown
      · rw [Record.get?_erase] at hgone
        split_ifs at hgone with hkey
        · subst hkey
          cases hown.symm.trans hentry
          exact .inr ⟨he, fun d r => h.not_awaited hentry⟩
        · exact absurd hentry hgone
      · exact absurd hentry hgone

end Inv

/-- The mutex is fair in every state that a client comes to, whatever the order of the events. -/
theorem withMutex_fair (h : (system (O := O)).Reachable (fun _ _ => True) s) : s.Fair := by
  have hinv := Inv.of_reachable h
  refine {
    exclusive := fun c d r r' hc hd hkey hflight hflight' => ?_
    ordered := fun c d r r' hc hd hkey hlt hfn => hinv.ordered hc hd hkey hlt hfn
    own := fun c r o hc ho => (hinv.sound c r hc).run_eq o ((hinv.sound c r hc).result_eq o ho)
    served := fun key hquiet hflight c r hc hkey => hinv.result_of_quiet hquiet hflight hc hkey
    cleared := fun key hall => ?_
    found := fun c r hc hresult hlatest => (hinv.entry r.key c).2 ⟨⟨r, hc, rfl, hresult⟩, hlatest⟩
    kept := fun e s' key c hnext hentry hgone => hinv.kept hnext hentry hgone }
  · exact Nat.le_antisymm (Nat.not_lt.1 (hinv.exclusive hd hc hkey.symm hflight' hflight))
      (Nat.not_lt.1 (hinv.exclusive hc hd hkey hflight hflight'))
  · cases hentry : s.mutex.get? key with
    | none => rfl
    | some c =>
      obtain ⟨⟨r, hc, hkey, hnone⟩, -⟩ := (hinv.entry key c).1 hentry
      have hsome := hall c r hc hkey
      rw [hnone] at hsome
      cases hsome

/-- A call is made while another with its key is in flight, which fails. -/
def twoCalls : List (MutexEvent (Except String ℕ)) :=
  [.call "key", .react .start 0, .call "key", .returns 0, .react .adopt 0, .settles 0 (.error "failed"),
    .react .settleRun 0, .react .settleTail 0, .react .resume 0, .react .start 1, .returns 1,
    .settles 1 (.ok 2), .react .adopt 1, .react .settleRun 1, .react .settleTail 1, .react .resume 1]

/-- Each of the two calls ends with the outcome of its own `fn`. -/
theorem withMutex_twoCalls :
    (system.attempt (⟨[], ∅⟩ : KeyedMutex (Except String ℕ)) twoCalls).Fair ∧
      (system.attempt (⟨[], ∅⟩ : KeyedMutex (Except String ℕ)) twoCalls).calls.map MutexCall.result =
        [some (.error "failed"), some (.ok 2)] := by
  constructor
  · exact withMutex_fair (TransitionSystem.reachable_attempt (.init rfl) twoCalls)
  · rfl

end KeyedMutex

end DtUtils
