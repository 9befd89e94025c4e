import Dethernety.DtUtils.Mutations

/-!
# The last writer

A call that joins a request gets the answer to its own variables, since the key that it joins under ends in their text.
But a request that is joined may have been sent before one that writes the same field and was called for in between, and
a request that waits on the mutex may be sent after one that was called for later: then the call made last is not the
one whose value stays. `lastWriterWins_of_reachable` has both as a condition on the steps of a run.
-/

open List Nat

namespace DtUtils

variable {M D Field Value : Type*}

section

-- what a mutation with its variables writes
variable (writes : M → String → Field → Option Value)

/-- Two mutations write different values to a field. -/
def Clash (m : M) (vars : String) (m' : M) (vars' : String) : Prop :=
  ∃ f v v', writes m vars f = some v ∧ writes m' vars' f = some v' ∧ v ≠ v'

namespace Client

/-- The value that the server has for a field, if a mutation has written it. -/
def value (s : Client M D) (f : Field) : Option Value :=
  s.applied.findSome? fun r => writes r.mutation r.vars f

/-- The requests that have been sent and not refused, the latest first. -/
def sentOrder (s : Client M D) : List (Request M) :=
  s.inbox.reverse ++ s.applied

/-- All calls have resolved successfully. -/
def Resolved (s : Client M D) : Prop :=
  ∀ c ∈ s.calls, ∃ e ∈ s.settled, e.1.id = c.request ∧ e.2.isSome

/-- Each field has the value of the call that was made last among those that write it. -/
def LastWriterWins (s : Client M D) : Prop :=
  ∀ later c earlier f v, s.calls = later ++ c :: earlier →
    (∀ c' ∈ later, writes c'.args.mutation c'.args.vars.text f = none) →
    writes c.args.mutation c.args.vars.text f = some v → s.value writes f = some v

/-- Requests are joined and sent in the order of the calls: a call joins a request for its own mutation and, if it has
been sent, one that none sent since clashes with; and when a request is sent, each one sent before that clashes with it
has its last call before the last call of this one. -/
def InCallOrder (s : Client M D) : ClientEvent M D → Prop
  | .call args => ∀ request, s.joined args = some request →
      (∀ c ∈ s.calls, c.request = request → c.args.mutation = args.mutation) ∧
      s.sentOrder.Pairwise fun r r' => r'.id = request → ¬Clash writes r.mutation r.vars r'.mutation r'.vars
  | .send => ∀ r rest, s.microtasks = r :: rest →
      ∀ r' ∈ s.sentOrder, Clash writes r.mutation r.vars r'.mutation r'.vars →
        ∀ c' ∈ s.calls, c'.request = r'.id → ∃ c ∈ s.calls, c.request = r.id ∧ c'.number < c.number
  | _ => True

end Client

end

namespace Client

/-- The requests that have been made, wherever they are. -/
def requests (s : Client M D) : List (Request M) :=
  s.waiting.map Prod.snd ++ s.microtasks ++ s.inbox ++ s.executed.map Prod.fst ++ s.settled.map Prod.fst ++ s.applied

/-- What holds of the requests, keys and calls in every run. -/
structure Linked (s : Client M D) : Prop where
  below : ∀ r ∈ s.requests, r.id < s.created
  made : ∀ c ∈ s.calls, c.request < s.created
  vars : ∀ r ∈ s.requests, ∀ c ∈ s.calls, c.request = r.id → c.args.vars.text = r.vars
  dedup : ∀ key request, s.requestDeduplicator.get? key = some request →
    ∃ c ∈ s.calls, c.request = request ∧ c.args.dedupKey = some key
  numbers : ∀ c ∈ s.calls, c.number < s.calls.length
  ordered : s.calls.Pairwise fun c c' => c'.number < c.number
  done : ∀ r, (r, true) ∈ s.executed → r ∈ s.applied
  succeeded : ∀ e ∈ s.settled, e.2.isSome → e.1 ∈ s.applied

/-- How the requests that have been sent stand to the calls in a run whose steps are in the order of the calls. -/
structure Lasting (writes : M → String → Field → Option Value) (s : Client M D) : Prop where
  mutation : ∀ r ∈ s.requests, ∀ c ∈ s.calls, c.request = r.id → c.args.mutation = r.mutation
  last : s.sentOrder.Pairwise fun r r' => Clash writes r.mutation r.vars r'.mutation r'.vars →
    ∀ c' ∈ s.calls, c'.request = r'.id → ∃ c ∈ s.calls, c.request = r.id ∧ c'.number < c.number

end Client

/-! ### Keys -/

lemma text_eq_of_dedupKey {args args' : MutationArgs M} {key : String} (h : args.dedupKey = some key)
    (h' : args'.dedupKey = some key) : args.vars.text = args'.vars.text := by
  have hread : ∀ {args : MutationArgs M}, args.dedupKey = some key →
      ∃ s, key.toList = s ++ '-' :: JsonText.stringify (.object args.vars.fields) := by
    intro args hkey
    unfold MutationArgs.dedupKey at hkey
    split at hkey
    · rename_i prefixKey _
      split at hkey <;> cases hkey
      refine ⟨prefixKey.toList ++ "::".toList ++ args.action.toList, ?_⟩
      simp [MutationArgs.mutexKey, Variables.text]
    · cases hkey
  obtain ⟨s, hs⟩ := hread h
  obtain ⟨s', hs'⟩ := hread h'
  apply congrArg String.ofList
  exact JsonText.object_eq_of_append (hs.symm.trans hs') args.vars.numeric args'.vars.numeric

namespace Client

/-! ### What an event changes -/

variable {s : Client M D}

lemma mem_requests {r : Request M} :
    r ∈ s.requests ↔ (∃ prev, (prev, r) ∈ s.waiting) ∨ r ∈ s.microtasks ∨ r ∈ s.inbox ∨
      (∃ ok, (r, ok) ∈ s.executed) ∨ (∃ data, (r, data) ∈ s.settled) ∨ r ∈ s.applied := by
  simp only [requests, mem_append, mem_map, Prod.exists, exists_and_right, exists_eq_right, or_assoc]

/-- The request that a call makes. -/
def newRequest (s : Client M D) (args : MutationArgs M) : Request M :=
  ⟨s.created, args.mutation, args.vars.text, args.dataPath⟩

lemma exec_eq (s : Client M D) (args : MutationArgs M) :
    ∃ waiting microtasks, s.exec args =
        { s with
          calls := ⟨args, s.created, s.calls.length⟩ :: s.calls
          created := s.created + 1
          mutex := s.mutex.set args.mutexKey s.created
          waiting := waiting
          microtasks := microtasks } ∧
      (∀ e ∈ waiting, e ∈ s.waiting ∨ e.2 = s.newRequest args) ∧
      ∀ r ∈ microtasks, r ∈ s.microtasks ∨ r = s.newRequest args := by
  have hadd : ∀ r ∈ s.microtasks ++ [s.newRequest args], r ∈ s.microtasks ∨ r = s.newRequest args :=
    fun r hr => (mem_append.1 hr).imp_right mem_singleton.1
  unfold exec
  split
  · exact ⟨_, _, rfl, fun e he => .inl he, hadd⟩
  · split
    · exact ⟨_, _, rfl, fun e he => .inl he, hadd⟩
    · rename_i prev _ _
      refine ⟨_, _, rfl, fun e he => (mem_append.1 he).imp_right fun hmem => ?_, fun r hr => .inl hr⟩
      rw [mem_singleton.1 hmem]
      rfl

/-- What a call that makes a request leaves. -/
structure Makes (s s' : Client M D) (args : MutationArgs M) : Prop where
  calls : s'.calls = ⟨args, s.created, s.calls.length⟩ :: s.calls
  created : s'.created = s.created + 1
  requests : ∀ r ∈ s'.requests, r ∈ s.requests ∨ r = s.newRequest args
  dedup : ∀ key request, s'.requestDeduplicator.get? key = some request →
    s.requestDeduplicator.get? key = some request ∨ args.dedupKey = some key ∧ request = s.created
  inbox : s'.inbox = s.inbox
  executed : s'.executed = s.executed
  settled : s'.settled = s.settled
  applied : s'.applied = s.applied

lemma performMutation_cases (s : Client M D) (args : MutationArgs M) :
    (∃ request, s.joined args = some request ∧ s.performMutation args = s.await args request) ∨
      s.Makes (s.performMutation args) args := by
  unfold performMutation
  cases hjoined : s.joined args with
  | some request => exact .inl ⟨request, rfl, rfl⟩
  | none =>
    right
    obtain ⟨waiting, microtasks, heq, hwaiting, hmicrotasks⟩ := s.exec_eq args
    have hrequests : ∀ r ∈ (s.exec args).requests, r ∈ s.requests ∨ r = s.newRequest args := by
      intro r hr
      rw [heq, mem_requests] at hr
      rw [mem_requests]
      obtain ⟨prev, hr⟩ | hr | hr | hr | hr | hr := hr
      · exact (hwaiting _ hr).imp (fun h => .inl ⟨prev, h⟩) id
      · exact (hmicrotasks _ hr).imp (fun h => .inr (.inl h)) id
      · exact .inl (.inr (.inr (.inl hr)))
      · exact .inl (.inr (.inr (.inr (.inl hr))))
      · exact .inl (.inr (.inr (.inr (.inr (.inl hr)))))
      · exact .inl (.inr (.inr (.inr (.inr (.inr hr)))))
    cases hkey : args.dedupKey with
    | none =>
      exact ⟨by rw [heq], by rw [heq], hrequests, fun key request hget => .inl (by rwa [heq] at hget),
        by rw [heq], by rw [heq], by rw [heq], by rw [heq]⟩
    | some key =>
      refine ⟨by rw [heq], by rw [heq], hrequests, fun key' request hget => ?_,
        by rw [heq], by rw [heq], by rw [heq], by rw [heq]⟩
      rw [Record.get?_set] at hget
      split_ifs at hget with hkeys
      · exact .inr ⟨hkeys ▸ hkey, (Option.some.inj hget).symm⟩
      · exact .inl hget

/-- What an event that is no call leaves. -/
structure Moves (s s' : Client M D) : Prop where
  calls : s'.calls = s.calls := by rfl
  created : s'.created = s.created := by rfl
  requests : s'.requests ⊆ s.requests := by exact List.Subset.refl _
  dedup : ∀ key request, s'.requestDeduplicator.get? key = some request →
    s.requestDeduplicator.get? key = some request := by exact fun _ _ h => h
  done : ∀ r, (r, true) ∈ s'.executed → (r, true) ∈ s.executed ∨ r ∈ s'.applied := by exact fun _ => .inl
  succeeded : ∀ e ∈ s'.settled, e.2.isSome → e ∈ s.settled ∨ (e.1, true) ∈ s.executed := by
    exact fun e he _ => .inl he
  applied : s.applied ⊆ s'.applied := by exact List.Subset.refl _

variable [DecidableEq M]

variable {s s' : Client M D} {a : ClientEvent M D}

lemma moves_of_next (h : next s a = some s') (ha : ∀ args, a ≠ .call args) : s.Moves s' := by
  have herase : ∀ key key' request, (s.requestDeduplicator.erase key).get? key' = some request →
      s.requestDeduplicator.get? key' = some request := by
    intro key key' request hget
    rw [Record.get?_erase] at hget
    split_ifs at hget
    exact hget
  cases a with rw [next] at h
  | call args => exact absurd rfl (ha args)
  | send =>
    split at h <;> cases h
    rename_i request microtasks hmicrotasks
    refine { requests := fun r hr => ?_ }
    rw [mem_requests] at hr ⊢
    rw [hmicrotasks]
    simp only [mem_append, mem_cons, not_mem_nil, or_false] at hr ⊢
    tauto
  | execute ok =>
    split at h <;> cases h
    rename_i request inbox hinbox
    refine { requests := fun r hr => ?_, done := fun r hr => ?_, applied := fun r hr => ?_ }
    · rw [mem_requests] at hr ⊢
      rw [hinbox]
      cases ok with
      | true | false =>
        grind
    · obtain heq | hr := mem_cons.1 hr
      · cases heq
        exact .inr (.head _)
      · exact .inl hr
    · cases ok with
      | true => exact .tail _ hr
      | false => exact hr
  | answer request ok data =>
    split_ifs at h with hanswer
    cases h
    refine
      { requests := fun r hr => ?_
        done := fun r hr => .inl (mem_of_mem_erase hr)
        succeeded := fun e he hsome => ?_ }
    · rw [mem_requests] at hr ⊢
      obtain hr | hr | hr | ⟨ok', hr⟩ | ⟨data', hr⟩ | hr := hr
      · exact .inl hr
      · exact .inr (.inl hr)
      · exact .inr (.inr (.inl hr))
      · exact .inr (.inr (.inr (.inl ⟨ok', mem_of_mem_erase hr⟩)))
      · obtain heq | hr := mem_cons.1 hr
        · exact .inr (.inr (.inr (.inl ⟨ok, (Prod.mk.inj heq).1 ▸ hanswer.1⟩)))
        · exact .inr (.inr (.inr (.inr (.inl ⟨data', hr⟩))))
      · exact .inr (.inr (.inr (.inr (.inr hr))))
    · obtain rfl | he := mem_cons.1 he
      · -- only what the server has done is answered with data
        obtain rfl := hanswer.2 hsome
        exact .inr hanswer.1
      · exact .inl he
  | settleTail request =>
    split_ifs at h
    cases h
    refine { requests := fun r hr => ?_ }
    rw [mem_requests] at hr ⊢
    grind
  | leaveMutex key =>
    split at h <;> [split_ifs at h; skip] <;> cases h
    exact {}
  | leaveDeduplicator key =>
    split at h <;> [split_ifs at h; skip] <;> cases h
    exact { dedup := herase key }
  | expire key =>
    split at h <;> cases h
    exact { dedup := herase key }

/-! ### The runs -/

omit [DecidableEq M] in
lemma linked_initial : (initial : Client M D).Linked where
  below r hr := by cases hr
  made c hc := by cases hc
  vars r hr := by cases hr
  dedup key request hget := by cases hget
  numbers c hc := by cases hc
  ordered := List.Pairwise.nil
  done r hr := by cases hr
  succeeded e he := by cases he

variable {args : MutationArgs M}

omit [DecidableEq M] in
lemma Linked.await (h : s.Linked) {request : ℕ}
    (hjoined : s.joined args = some request) : (s.await args request).Linked := by
  obtain ⟨key, hkey, hget⟩ := Option.bind_eq_some_iff.1 hjoined
  obtain ⟨c, hc, hrequest, hckey⟩ := h.dedup key request hget
  exact
    { below := h.below
      made := forall_mem_cons.2 ⟨hrequest ▸ h.made c hc, h.made⟩
      vars := fun r hr => forall_mem_cons.2 ⟨fun heq => by
        rw [text_eq_of_dedupKey hkey hckey]
        exact h.vars r hr c hc (hrequest.trans heq), h.vars r hr⟩
      dedup := fun key' request' hget' => by
        obtain ⟨c', hc', hfacts⟩ := h.dedup key' request' hget'
        exact ⟨c', .tail _ hc', hfacts⟩
      numbers := forall_mem_cons.2 ⟨lt_succ_self _, fun c hc => lt_succ_of_lt (h.numbers c hc)⟩
      ordered := pairwise_cons.2 ⟨h.numbers, h.ordered⟩
      done := h.done
      succeeded := h.succeeded }

omit [DecidableEq M] in
lemma Linked.of_makes (h : s.Linked) (hmakes : s.Makes s' args) :
    s'.Linked where
  below r hr := by
    rw [hmakes.created]
    obtain hr | rfl := hmakes.requests r hr
    · exact Nat.lt_succ_of_lt (h.below r hr)
    · exact Nat.lt_succ_self _
  made := by
    rw [hmakes.calls, hmakes.created]
    exact forall_mem_cons.2 ⟨Nat.lt_succ_self _, fun c hc => Nat.lt_succ_of_lt (h.made c hc)⟩
  vars r hr := by
    rw [hmakes.calls]
    obtain hr | rfl := hmakes.requests r hr
    · refine forall_mem_cons.2 ⟨fun heq => ?_, h.vars r hr⟩
      -- the new request is above the others
      exact absurd (h.below r hr) (Nat.not_lt.2 (Nat.le_of_eq heq))
    · exact forall_mem_cons.2 ⟨fun _ => rfl, fun c hc heq => absurd heq (Nat.ne_of_lt (h.made c hc))⟩
  dedup key request hget := by
    rw [hmakes.calls]
    obtain hget | ⟨hkey, rfl⟩ := hmakes.dedup key request hget
    · obtain ⟨c, hc, hfacts⟩ := h.dedup key request hget
      exact ⟨c, .tail _ hc, hfacts⟩
    · exact ⟨_, .head _, rfl, hkey⟩
  numbers := by
    rw [hmakes.calls]
    exact forall_mem_cons.2 ⟨Nat.lt_succ_self _, fun c hc => Nat.lt_succ_of_lt (h.numbers c hc)⟩
  ordered := by
    rw [hmakes.calls]
    exact pairwise_cons.2 ⟨h.numbers, h.ordered⟩
  done := by
    rw [hmakes.executed, hmakes.applied]
    exact h.done
  succeeded := by
    rw [hmakes.settled, hmakes.applied]
    exact h.succeeded

omit [DecidableEq M] in
lemma Linked.of_moves (h : s.Linked) (hmoves : s.Moves s') : s'.Linked where
  below r hr := hmoves.created ▸ h.below r (hmoves.requests hr)
  made := by
    rw [hmoves.calls, hmoves.created]
    exact h.made
  vars r hr := by
    rw [hmoves.calls]
    exact h.vars r (hmoves.requests hr)
  dedup key request hget := by
    rw [hmoves.calls]
    exact h.dedup key request (hmoves.dedup key request hget)
  numbers := by
    rw [hmoves.calls]
    exact h.numbers
  ordered := by
    rw [hmoves.calls]
    exact h.ordered
  done r hr := (hmoves.done r hr).elim (fun hr => hmoves.applied (h.done r hr)) id
  succeeded e he hsome := by
    obtain he | he := hmoves.succeeded e he hsome
    · exact hmoves.applied (h.succeeded e he hsome)
    · exact hmoves.applied (h.done e.1 he)

lemma Linked.next (h : s.Linked) (hnext : next s a = some s') : s'.Linked := by
  cases a with
  | call args =>
    cases hnext
    obtain ⟨request, hjoined, heq⟩ | hmakes := s.performMutation_cases args
    · rw [heq]
      exact h.await hjoined
    · exact h.of_makes hmakes
  | _ => exact h.of_moves (moves_of_next hnext nofun)

lemma linked_of_reachable {ok : Client M D → ClientEvent M D → Prop}
    (h : system.Reachable ok s) : s.Linked :=
  h.invariant (fun _ hs => hs ▸ linked_initial) fun _ _ _ hs _ hnext => hs.next hnext

omit [DecidableEq M] in
lemma sentOrder_subset (s : Client M D) : s.sentOrder ⊆ s.requests := by
  intro r hr
  rw [mem_requests]
  obtain hr | hr := mem_append.1 hr
  · exact .inr (.inr (.inl (mem_reverse.1 hr)))
  · exact .inr (.inr (.inr (.inr (.inr hr))))

lemma sentOrder_of_next (h : next s a = some s') (ha : ∀ args, a ≠ .call args) :
    s'.sentOrder.Sublist s.sentOrder ∨
      a = .send ∧ ∃ r rest, s.microtasks = r :: rest ∧ s'.sentOrder = r :: s.sentOrder := by
  cases a with rw [next] at h
  | call args => exact absurd rfl (ha args)
  | send =>
    split at h <;> cases h
    rename_i r rest hmicrotasks
    refine .inr ⟨rfl, r, rest, hmicrotasks, ?_⟩
    rw [sentOrder, reverse_append]
    rfl
  | execute ok =>
    split at h <;> cases h
    rename_i hinbox
    left
    rw [sentOrder, sentOrder, hinbox, reverse_cons, append_assoc]
    apply List.Sublist.append (List.Sublist.refl _)
    cases ok with
    | true => exact List.Sublist.refl _
    | false => exact sublist_cons_self _ _
  | answer request ok data | settleTail request =>
    split_ifs at h
    cases h
    exact .inl (List.Sublist.refl _)
  | leaveMutex key | leaveDeduplicator key =>
    split at h <;> [split_ifs at h; skip] <;> cases h
    exact .inl (List.Sublist.refl _)
  | expire key =>
    split at h <;> cases h
    exact .inl (List.Sublist.refl _)

section

variable {writes : M → String → Field → Option Value}

omit [DecidableEq M] in
lemma lasting_initial : (initial : Client M D).Lasting writes where
  mutation r hr := by cases hr
  last := List.Pairwise.nil

variable {s : Client M D} {args : MutationArgs M}

omit [DecidableEq M] in
lemma Lasting.await (h : s.Lasting writes) (hlinked : s.Linked)
    {request : ℕ} (hjoined : s.joined args = some request) (horder : s.InCallOrder writes (.call args)) :
    (s.await args request).Lasting writes := by
  obtain ⟨hmutation, hnewest⟩ := horder request hjoined
  obtain ⟨key, -, hget⟩ := Option.bind_eq_some_iff.1 hjoined
  obtain ⟨c, hc, hrequest, -⟩ := hlinked.dedup key request hget
  refine ⟨fun r hr => forall_mem_cons.2 ⟨fun heq => ?_, h.mutation r hr⟩, ?_⟩
  · exact (hmutation c hc hrequest).symm.trans (h.mutation r hr c hc (hrequest.trans heq))
  · refine h.last.imp₂ ?_ hnewest
    intro r r' hlast hnew hclash
    refine forall_mem_cons.2 ⟨fun heq => absurd hclash (hnew heq.symm), fun c' hc' heq => ?_⟩
    obtain ⟨c₀, hc₀, hfacts⟩ := hlast hclash c' hc' heq
    exact ⟨c₀, .tail _ hc₀, hfacts⟩

variable {s' : Client M D}

omit [DecidableEq M] in
lemma Lasting.of_makes (h : s.Lasting writes) (hlinked : s.Linked)
    (hmakes : s.Makes s' args) : s'.Lasting writes where
  mutation r hr := by
    rw [hmakes.calls]
    obtain hr | rfl := hmakes.requests r hr
    · refine forall_mem_cons.2 ⟨fun heq => ?_, h.mutation r hr⟩
      exact absurd (hlinked.below r hr) (Nat.not_lt.2 (Nat.le_of_eq heq))
    · exact forall_mem_cons.2 ⟨fun _ => rfl, fun c hc heq => absurd heq (Nat.ne_of_lt (hlinked.made c hc))⟩
  last := by
    rw [sentOrder, hmakes.inbox, hmakes.applied, hmakes.calls]
    apply h.last.imp_of_mem
    intro r r' _ hr' hlast hclash
    refine forall_mem_cons.2 ⟨fun heq => ?_, fun c' hc' heq => ?_⟩
    · -- what has been sent is below the new request
      exact absurd (hlinked.below r' (s.sentOrder_subset hr')) (Nat.not_lt.2 (Nat.le_of_eq heq))
    · obtain ⟨c₀, hc₀, hfacts⟩ := hlast hclash c' hc' heq
      exact ⟨c₀, .tail _ hc₀, hfacts⟩

lemma Lasting.next {a : ClientEvent M D} (h : s.Lasting writes) (hlinked : s.Linked)
    (horder : s.InCallOrder writes a) (hnext : next s a = some s') : s'.Lasting writes := by
  by_cases hcall : ∃ args, a = .call args
  · obtain ⟨args, rfl⟩ := hcall
    cases hnext
    obtain ⟨request, hjoined, heq⟩ | hmakes := s.performMutation_cases args
    · rw [heq]
      exact h.await hlinked hjoined horder
    · exact h.of_makes hlinked hmakes
  · have ha : ∀ args, a ≠ .call args := fun args heq => hcall ⟨args, heq⟩
    have hmoves := moves_of_next hnext ha
    refine ⟨fun r hr => ?_, ?_⟩
    · rw [hmoves.calls]
      exact h.mutation r (hmoves.requests hr)
    · rw [hmoves.calls]
      obtain hsub | ⟨rfl, r, rest, hmicrotasks, hsent⟩ := sentOrder_of_next hnext ha
      · exact h.last.sublist hsub
      · rw [hsent]
        exact pairwise_cons.2 ⟨horder r rest hmicrotasks, h.last⟩

lemma lasting_of_reachable (h : system.Reachable (InCallOrder writes) s) : s.Lasting writes := by
  have hinv : s.Linked ∧ s.Lasting writes := by
    refine h.invariant (P := fun s => s.Linked ∧ s.Lasting writes) (fun s hs => ?_) fun s a s' hs horder hnext => ?_
    · rw [show s = initial from hs]
      exact ⟨linked_initial, lasting_initial⟩
    · exact ⟨hs.1.next hnext, hs.2.next hs.1 horder hnext⟩
  exact hinv.2

omit [DecidableEq M] in
lemma Lasting.lastWriterWins (h : s.Lasting writes) (hlinked : s.Linked) (hresolved : s.Resolved) :
    s.LastWriterWins writes := by
  intro later c earlier f v hcalls hlater hwrites
  have hc : c ∈ s.calls := hcalls ▸ mem_append_right _ (.head _)
  obtain ⟨⟨r, data⟩, he, hid, hsome⟩ := hresolved c hc
  have hr := hlinked.succeeded (r, data) he hsome
  have happlied : s.applied ⊆ s.requests := fun r hr => s.sentOrder_subset (mem_append_right _ hr)
  have hown : ∀ r ∈ s.applied, ∀ c ∈ s.calls, c.request = r.id →
      writes c.args.mutation c.args.vars.text = writes r.mutation r.vars := by
    intro r hr c hc heq
    rw [h.mutation r (happlied hr) c hc heq, hlinked.vars r (happlied hr) c hc heq]
  have hwritesR : writes r.mutation r.vars f = some v := hown r hr c hc hid.symm ▸ hwrites
  -- the latest request that writes the field
  cases hvalue : s.value writes f with
  | none =>
    have hnone := findSome?_eq_none_iff.1 hvalue r hr
    cases hwritesR.symm.trans hnone
  | some w =>
    obtain ⟨newer, r₀, older, happliedEq, hw, hnewer⟩ := findSome?_eq_some_iff.1 hvalue
    refine congrArg some (by_contra fun hne => ?_)
    -- it was sent after the last call's, which it clashes with
    have hafter : r ∈ older := by
      rw [happliedEq] at hr
      obtain hr | hr := mem_append.1 hr
      · have hnone := hnewer r hr
        cases hwritesR.symm.trans hnone
      · obtain rfl | hr := mem_cons.1 hr
        · exact absurd (Option.some.inj (hw.symm.trans hwritesR)) hne
        · exact hr
    have hpair := (pairwise_append.1 h.last).2.1
    rw [happliedEq] at hpair
    have hlast := (pairwise_cons.1 (pairwise_append.1 hpair).2.1).1 r hafter
    obtain ⟨c₀, hc₀, hid₀, hnumber⟩ := hlast ⟨f, w, v, hw, hwritesR, hne⟩ c hc hid.symm
    -- so one of its calls was made after the last call that writes the field
    have hr₀ : r₀ ∈ s.applied := by
      rw [happliedEq]
      exact mem_append_right _ (.head _)
    have hwrites₀ : writes c₀.args.mutation c₀.args.vars.text f = some w := by
      rw [hown r₀ hr₀ c₀ hc₀ hid₀]
      exact hw
    have hordered := hlinked.ordered
    rw [hcalls] at hordered hc₀
    obtain hmem | hmem := mem_append.1 hc₀
    · rw [hlater c₀ hmem] at hwrites₀
      cases hwrites₀
    · obtain rfl | hmem := mem_cons.1 hmem
      · exact lt_irrefl _ hnumber
      · have hless := (pairwise_cons.1 (pairwise_append.1 hordered).2.1).1 c₀ hmem
        exact lt_asymm hnumber hless

/-- In a run whose requests are joined and sent in the order of the calls, the last call that writes a field has its
value stay when all calls have resolved; and in every run a call gets the answer to its own variables. -/
theorem lastWriterWins_of_reachable {s : Client M D} (h : system.Reachable (InCallOrder writes) s) :
    (s.Resolved → s.LastWriterWins writes) ∧
      ∀ c ∈ s.calls, ∀ e ∈ s.settled, e.1.id = c.request → e.1.vars = c.args.vars.text := by
  have hlinked := linked_of_reachable h
  refine ⟨(lasting_of_reachable h).lastWriterWins hlinked, fun c hc e he hid => ?_⟩
  exact (hlinked.vars e.1 (mem_requests.2 (.inr (.inr (.inr (.inr (.inl ⟨e.2, he⟩)))))) c hc hid.symm).symm

end

/-! ### Two runs -/

/-- A server that keeps the variables that it is sent. -/
def keepVars (_ : Unit) (vars : String) (_ : Unit) : Option String :=
  some vars

/-- A call that names a boundary. -/
def rename (name : String) : MutationArgs Unit where
  mutation := ()
  vars := ⟨[("name", .string name)], rfl⟩
  dataPath := ""
  action := "updateBoundary"
  deduplicationKey := some "update-boundary-b1"

instance (s : Client M D) : Decidable s.Resolved :=
  inferInstanceAs (Decidable (∀ c ∈ s.calls, ∃ e ∈ s.settled, e.1.id = c.request ∧ e.2.isSome))

/-- A name, another one, and the first again while the request with it is on the way. -/
def returning : List (ClientEvent Unit Unit) :=
  [.call (rename "Alpha"), .send, .call (rename "Beta"), .send, .call (rename "Alpha"), .execute true, .execute true,
    .answer ⟨0, (), (rename "Alpha").vars.text, ""⟩ true (some ()),
    .answer ⟨1, (), (rename "Beta").vars.text, ""⟩ true (some ())]

/-- The call made last has joined a request that was sent before another one. -/
theorem not_lastWriterWins_returning :
    ¬∀ s : Client Unit Unit, system.Reachable (fun _ _ => True) s → s.Resolved → s.LastWriterWins keepVars := by
  intro hclaim
  have hrun : ((system.run (fun _ _ => true) initial returning).any fun s => decide (s.Resolved ∧
      s.value keepVars () = some (rename "Beta").vars.text ∧
        s.calls.head?.map (·.args.vars.text) = some (rename "Alpha").vars.text)) = true := by
    decide +kernel
  obtain ⟨s, hreach, hcheck⟩ := TransitionSystem.exists_reachable hrun rfl fun _ _ _ => trivial
  obtain ⟨hresolved, hvalue, hhead⟩ := of_decide_eq_true hcheck
  obtain ⟨c, hc, htext⟩ := Option.map_eq_some_iff.1 hhead
  obtain ⟨earlier, hcalls⟩ := head?_eq_some_iff.1 hc
  have hlast := hclaim s hreach hresolved [] c earlier () _ hcalls (fun _ h => absurd h not_mem_nil) rfl
  rw [hvalue, htext] at hlast
  exact absurd hlast (by decide +kernel)

/-- A sufficient check of a step, with every two requests taken to clash. -/
def inCallOrder (s : Client Unit Unit) : ClientEvent Unit Unit → Bool
  | .call args => (s.joined args).isNone || s.sentOrder.isEmpty
  | .send => s.microtasks.head?.all fun r => s.sentOrder.all fun r' => s.calls.all fun c' =>
      c'.request ≠ r'.id || s.calls.any fun c => c.request = r.id && c'.number < c.number
  | _ => true

lemma inCallOrder_spec {s : Client Unit Unit} {a : ClientEvent Unit Unit} (h : s.inCallOrder a = true) :
    s.InCallOrder keepVars a := by
  cases a with
  | call args =>
    intro request hjoined
    rw [inCallOrder, hjoined] at h
    refine ⟨fun _ _ _ => rfl, ?_⟩
    rw [List.isEmpty_iff.1 h]
    exact List.Pairwise.nil
  | send =>
    intro r rest hmicrotasks r' hr' _ c' hc' heq
    rw [inCallOrder, hmicrotasks] at h
    have hcheck := all_eq_true.1 (all_eq_true.1 h r' hr') c' hc'
    rw [Bool.or_eq_true, decide_eq_true_iff] at hcheck
    obtain ⟨c, hc, hfacts⟩ := any_eq_true.1 (hcheck.resolve_left (not_not.2 heq))
    rw [Bool.and_eq_true, decide_eq_true_iff, decide_eq_true_iff] at hfacts
    exact ⟨c, hc, hfacts⟩
  | _ => trivial

/-- A name given twice in a row and another one. -/
theorem lastWriterWins_renamed : ∃ s : Client Unit Unit, s.Resolved ∧ s.LastWriterWins keepVars ∧
    s.calls.length = 3 ∧ s.value keepVars () = some (rename "Beta").vars.text := by
  have hrun : ((system.run inCallOrder initial
      [.call (rename "Alpha"), .call (rename "Alpha"), .send, .call (rename "Beta"), .send, .execute true,
        .execute true, .answer ⟨0, (), (rename "Alpha").vars.text, ""⟩ true (some ()),
        .answer ⟨1, (), (rename "Beta").vars.text, ""⟩ true (some ())]).any fun s => decide (s.Resolved ∧
      s.calls.length = 3 ∧ s.value keepVars () = some (rename "Beta").vars.text)) = true := by
    decide +kernel
  obtain ⟨s, hreach, hcheck⟩ := TransitionSystem.exists_reachable hrun rfl fun _ _ => inCallOrder_spec
  obtain ⟨hresolved, hrest⟩ := of_decide_eq_true hcheck
  exact ⟨s, hresolved, (lastWriterWins_of_reachable hreach).1 hresolved, hrest⟩

end Client

end DtUtils
