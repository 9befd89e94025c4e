import Dethernety.RemoteModule.CallerIsolation

/-!
# After a denial

The calls of a module, side by side, with the callers that were denied. A denial leaves what was cached and remembered,
and a request that is on the way beside it may still be answered with success. The first request of a caller after a
denial is sent as long as no confirmation of the caller is younger than a memo entry lives, or what it asks for is not
cached (`unsent_of_reachable`).
-/

open List Record TransitionSystem

namespace RemoteModule

/-- A module, the tokens and classes of the denials after which no request of the token for the class has come yet, and
the calls that came first after a denial and were not sent. -/
structure Watch (Value Finding : Type) where
  state : State Value Finding
  denied : List (String × String)
  unsent : List ℕ

variable {Value Finding : Type}

/-- The token and the class of the request that an event answers with a denial. -/
def denialOf (s : State Value Finding) : Event Value Finding → Option (String × String)
  | .template i (.error (.notEntitled _)) _ =>
    match s.phases.get? i with
    | some (.fetching .template classId token _) => some (token, classId)
    | _ => none
  | .guide i (.error (.notEntitled _)) _ =>
    match s.phases.get? i with
    | some (.fetching .guide classId token _) => some (token, classId)
    | _ => none
  | _ => none

/-- A call waits for content from the content service. -/
def State.isFetching (s : State Value Finding) (i : ℕ) : Bool :=
  match s.phases.get? i with
  | some (.fetching _ _ _ _) => true
  | _ => false

def Watch.next (settings : Settings Value) (w : Watch Value Finding) (event : Event Value Finding) :
    Option (Watch Value Finding) :=
  (RemoteModule.next settings w.state event).map fun s =>
    match event with
    | .content i _ classId (some token) _ =>
      { state := s
        denied := w.denied.filter (· ≠ (token, classId))
        unsent := if w.denied.contains (token, classId) && !s.isFetching i then w.unsent ++ [i] else w.unsent }
    | _ => { w with state := s, denied := (denialOf w.state event).toList ++ w.denied }

def watch (settings : Settings Value) : TransitionSystem (Watch Value Finding) (Event Value Finding) where
  init w := w = ⟨initial, [], []⟩
  next := Watch.next settings

/-- A confirmation of the caller for the class is younger than a memo entry lives. -/
def State.isConfirmed (settings : Settings Value) (s : State Value Finding) (token classId : String) (now : ℕ) : Bool :=
  s.confirmations.any fun c =>
    settings.callerHash c.token = settings.callerHash token && c.classId = classId && now < c.time + entitlementTtlMs

/-- The first request of a caller after a denial comes when the caller is not confirmed, or what it asks for is not
cached. -/
def asksUnconfirmed (settings : Settings Value) (w : Watch Value Finding) : Event Value Finding → Bool
  | .content _ kind classId (some token) now =>
    !(w.denied.contains (token, classId) && w.state.isConfirmed settings token classId now &&
      (w.state.cache.getContent kind classId settings.pin).isSome)
  | _ => true

variable {settings : Settings Value} {s : State Value Finding} {w w' : Watch Value Finding}
  {event : Event Value Finding} {i now : ℕ} {kind : Kind} {classId token : String}

lemma MemoOk.isConfirmed (h : MemoOk settings s)
    (hentitled : s.cache.isEntitled (settings.callerHash token) classId settings.pin now = true) :
    s.isConfirmed settings token classId now = true := by
  obtain ⟨expiresAt, hget, hnow⟩ := isEntitled_eq_true hentitled
  obtain ⟨c, hc, htoken, hclass, hexpires⟩ := h _ _ _ _ hget
  refine any_eq_true.2 ⟨c, hc, ?_⟩
  rw [hexpires] at hnow
  simp only [htoken, hclass, hnow, decide_true, Bool.and_self]

/-- A request that finds no memo or no content is sent. -/
lemma isFetching_serveContent
    (h : ¬ (s.cache.isEntitled (settings.callerHash token) classId settings.pin now = true ∧
      (s.cache.getContent kind classId settings.pin).isSome = true)) :
    (serveContent settings s i kind classId (some token) now).isFetching i = true := by
  have hcontent : (s.cache.dropExpired (settings.callerHash token) classId settings.pin now).getContent kind classId
      settings.pin = s.cache.getContent kind classId settings.pin := by
    rw [ResponseCache.getContent, content_dropExpired]
    rfl
  unfold serveContent
  dsimp only
  rw [hcontent]
  split
  · rename_i cached hcached
    split_ifs at hcached with hentitled
    exact (h ⟨hentitled, Option.isSome_iff_exists.2 ⟨cached, hcached⟩⟩).elim
  · rw [State.isFetching, State.goto, get?_set, if_pos rfl]

lemma unsent_next (hmemo : MemoOk settings w.state) (hok : asksUnconfirmed settings w event = true)
    (hnext : w.next settings event = some w') : w'.unsent = w.unsent := by
  obtain ⟨s', hs', rfl⟩ := Option.map_eq_some_iff.1 hnext
  split
  · rename_i i kind classId token now
    refine if_neg fun hskipped => ?_
    obtain ⟨hdenied, hfetching⟩ := Bool.and_eq_true_iff.1 hskipped
    simp only [next] at hs'
    split_ifs at hs'
    cases hs'
    rw [isFetching_serveContent fun hrecalls => ?_] at hfetching
    · cases hfetching
    · rw [asksUnconfirmed, hdenied, hmemo.isConfirmed hrecalls.1, hrecalls.2] at hok
      cases hok
  · rfl

/-- Where no denied caller asks again for what is cached within the lifetime of a confirmation, the first request after
a denial is sent to the content service. -/
theorem unsent_of_reachable (h : (watch settings).Reachable (fun w e => asksUnconfirmed settings w e = true) w) :
    w.unsent = [] := by
  have hinvariant : MemoOk settings w.state ∧ w.unsent = [] := by
    refine h.invariant (P := fun w => MemoOk settings w.state ∧ w.unsent = []) (fun w hw => ?_)
      fun w e w' hw hok hnext => ⟨?_, (unsent_next hw.1 hok hnext).trans hw.2⟩
    · have hinitial : w = ⟨initial, [], []⟩ := hw
      rw [hinitial]
      exact ⟨memoOk_of_reachable (.init rfl), rfl⟩
    · obtain ⟨s', hs', rfl⟩ := Option.map_eq_some_iff.1 hnext
      have hmemo := memoOk_next hw.1 hs'
      split <;> exact hmemo
  exact hinvariant.2

/-- The template and the guide are asked for side by side, and only the guide is denied; then the guide is asked for
again, and after a minute, when it was denied again, the template. -/
def deniedGuide : List (Event Unit Unit) :=
  [.content 0 .template "c" (some "ada") 0, .content 1 .guide "c" (some "ada") 0, .template 0 (.ok ⟨"text", []⟩) 5,
    .guide 1 (.error (.notEntitled "revoked")) 10, .content 2 .guide "c" (some "ada") 20,
    .guide 2 (.error (.notEntitled "revoked")) 30, .content 3 .template "c" (some "ada") 60005]

theorem deniedGuide_sent :
    ∃ w, (watch sampleSettings).run (asksUnconfirmed sampleSettings) ⟨initial, [], []⟩ deniedGuide = some w ∧
      w.state.isFetching 2 = false ∧ w.state.isFetching 3 = true ∧ w.unsent = [] := by
  have hrun : ((watch sampleSettings).run (asksUnconfirmed sampleSettings) ⟨initial, [], []⟩ deniedGuide).any
      (fun w => w.state.isFetching 2 = false ∧ w.state.isFetching 3 = true) = true := by decide +kernel
  obtain ⟨w, hw, hfetching⟩ := (Option.any_eq_true _ _).1 hrun
  obtain ⟨hdone, hfetching⟩ := of_decide_eq_true hfetching
  exact ⟨w, hw, hdone, hfetching, unsent_of_reachable
    (reachable_of_run (fun _ _ h => h) (Reachable.init rfl) hw)⟩

/-- The template is served, the guide is denied after 10 ms, and the template is served again from the cache. -/
theorem not_unsent_otherKind : ¬ ∀ (settings : Settings Unit) (w : Watch Unit Unit),
    (watch settings).Reachable (fun _ _ => True) w → w.unsent = [] := by
  intro h
  have hrun : ((watch sampleSettings).run (fun _ _ => true) ⟨initial, [], []⟩
      [.content 0 .template "c" (some "ada") 0, .template 0 (.ok ⟨"text", []⟩) 0, .content 1 .guide "c" (some "ada") 10,
        .guide 1 (.error (.notEntitled "revoked")) 10, .content 2 .template "c" (some "ada") 20]).any
      (fun w : Watch Unit Unit => w.unsent = [2]) = true := by decide +kernel
  obtain ⟨w, hw, hunsent⟩ := exists_reachable hrun rfl fun _ _ _ => trivial
  have hnone := h sampleSettings w hw
  rw [hnone] at hunsent
  cases of_decide_eq_true hunsent

end RemoteModule
