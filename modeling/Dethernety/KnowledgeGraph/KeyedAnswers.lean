import Dethernety.KnowledgeGraph.Answers

/-!
# What a query returns

A query of the client answers with the distinct keys that it was asked for, in the order of their first requests, each
with the rows of its matches, and the answer depends neither on the bound nor on what was cached
(`queries_answered`). While it is not done one of its own steps is enabled, and unless a request fails that step brings
it nearer to its end.
-/

open List Record Function

namespace KnowledgeGraph

variable {Match Row : Type} {settings : Settings Match Row} {service : Service Match} {s s' : State Match Row}
  {i : ℕ} {call : Call Row}

/-- A query that was answered has its keys with their rows; one that throws has no token, or a request of it failed, or
a match of a key has no row. -/
structure Call.ReturnsMatches (settings : Settings Match Row) (service : Service Match) (call : Call Row) : Prop where
  keys : ∀ out, call.phase = .answered out → IsFirstRequestOrder out.keys call.request.allKeys
  rows : ∀ out, call.phase = .answered out →
    ∀ key rows, out.get? key = some rows → call.expected settings service key = some rows
  errors : ∀ error, call.phase = .thrown error → error = .noToken ∧ call.token = "" ∨
    (∃ failure, error = .request failure) ∨
    error = .malformedRow ∧ ∃ key ∈ call.request.allKeys, call.expected settings service key = none

lemma Call.OnCourse.returnsMatches (h : call.OnCourse settings service) : call.ReturnsMatches settings service where
  keys out hphase := by
    unfold Call.OnCourse at h
    rw [hphase] at h
    rw [h.keys_eq]
    exact isFirstRequestOrder_distinct _
  rows out hphase key rows hrows := by
    unfold Call.OnCourse at h
    rw [hphase] at h
    exact h.entries key rows (mem_entries_iff.2 hrows)
  errors error hphase := by
    unfold Call.OnCourse at h
    rw [hphase] at h
    cases error with
    | noToken => exact .inl ⟨rfl, h⟩
    | request failure => exact .inr (.inl ⟨failure, rfl⟩)
    | malformedRow =>
      obtain ⟨key, hkey, hnone⟩ := h
      exact .inr (.inr ⟨rfl, key, mem_distinct.1 hkey, hnone⟩)
    | truncated | incomplete => exact absurd h id

/-- Two queries for the same keys and caller have the same answer. -/
lemma answered_unique {call' : Call Row} {out out' : Record String (List Row)}
    (h : call.OnCourse settings service) (h' : call'.OnCourse settings service)
    (hrequest : call.request = call'.request)
    (htoken : call.token = call'.token) (hphase : call.phase = .answered out) (hphase' : call'.phase = .answered out') :
    out = out' := by
  unfold Call.OnCourse at h h'
  rw [hphase] at h
  rw [hphase'] at h'
  have hexpected : call'.expected settings service = call.expected settings service := by
    funext key
    rw [Call.expected, Call.expected, hrequest, htoken]
  rw [← hrequest, hexpected] at h'
  refine eq_of_get? (h.keys_eq.trans h'.keys_eq.symm) fun key hkey => ?_
  rw [h.keys_eq] at hkey
  rw [h.get?_eq key hkey, h'.get?_eq key hkey]

/-! ## Progress -/

/-- The query that an event belongs to. -/
def Event.index : Event Match → ℕ
  | .query i _ _ => i
  | .bound i _ => i
  | .goOn i _ => i
  | .answer i _ _ => i

def Event.fails : Event Match → Bool
  | .answer _ (.error _) _ => true
  | _ => false

/-- How many steps a query takes at most until it is done. -/
def Call.left (call : Call Row) : ℕ :=
  match call.phase with
  | .awaitingBound => 2 * call.request.keys.length + 2
  | .asking _ chunks _ => 2 * chunks.length + 1
  | .awaitingAnswer _ _ chunks _ => 2 * chunks.length + 2
  | .answered _ => 0
  | .thrown _ => 0

/-- A query that is not done can go on, each step of it that is no failed request leaves it with fewer steps, and the
steps of other queries leave it alone. -/
structure Proceeds (settings : Settings Match Row) (service : Service Match) (s : State Match Row) (i : ℕ)
    (call : Call Row) : Prop where
  enabled : call.left ≠ 0 →
    ∃ e, e.index = i ∧ e.fails = false ∧ answersWell service s e ∧ (next settings s e).isSome = true
  nearer : ∀ e s', e.index = i → e.fails = false → answersWell service s e → next settings s e = some s' →
    ∃ call', s'.calls.get? i = some call' ∧ call'.request = call.request ∧ call'.token = call.token ∧
      call'.left < call.left ∧ ∀ failure, call'.phase ≠ .thrown (.request failure)
  apart : ∀ e s', e.index ≠ i → next settings s e = some s' → s'.calls.get? i = some call

lemma exists_enabled (hcall : s.calls.get? i = some call) (hleft : call.left ≠ 0) :
    ∃ e, e.index = i ∧ e.fails = false ∧ answersWell service s e ∧ (next settings s e).isSome = true := by
  obtain ⟨request, token, phase⟩ := call
  cases phase with
  | awaitingBound =>
    refine ⟨.bound i none, rfl, rfl, trivial, ?_⟩
    unfold next
    dsimp only
    rw [hcall]
    rfl
  | asking _ chunks =>
    refine ⟨.goOn i 0, rfl, rfl, trivial, ?_⟩
    unfold next
    dsimp only
    rw [hcall]
    cases chunks <;> rfl
  | awaitingAnswer _ chunk =>
    -- the service answers each key of the chunk
    let results := chunk.map fun key => (key, service token request.name request.kind key)
    refine ⟨.answer i (.ok ⟨false, some (results.map some)⟩) 0, rfl, rfl, ?_, ?_⟩
    · intro call' bound' chunk' chunks' out' hcall' hphase'
      cases hcall.symm.trans hcall'
      obtain ⟨-, rfl, -, -⟩ := Phase.awaitingAnswer.inj hphase'
      refine ⟨rfl, results, rfl, ?_, fun r hr => ?_⟩
      · rw [map_map]
        exact List.Perm.of_eq (map_id _)
      · obtain ⟨key, -, rfl⟩ := mem_map.1 hr
        rfl
    · unfold next
      dsimp only
      rw [hcall]
      rfl
  | answered out | thrown error => exact absurd rfl hleft

/-- The call of a merged chunk. -/
lemma exists_call_use (settings : Settings Match Row) (s : State Match Row) (i : ℕ) (call : Call Row) (bound : ℕ)
    (chunks : List (List String)) (out : Record String (List Row)) (results : List (String × List Match))
    (owner : String) :
    ∃ phase, (use settings s i call bound chunks out results owner).calls =
        s.calls.set i { call with phase := phase } ∧
      (phase = .thrown .malformedRow ∨ ∃ out, phase = .asking bound chunks out) := by
  unfold use
  split
  · exact ⟨_, rfl, .inl rfl⟩
  · exact ⟨_, rfl, .inr ⟨_, rfl⟩⟩

lemma nearer_of_use {owner : String} {bound n : ℕ} {chunks : List (List String)} {out : Record String (List Row)}
    {results : List (String × List Match)} (hleft : 2 * chunks.length + 1 < n) :
    ∃ call', (use settings s i call bound chunks out results owner).calls.get? i = some call' ∧
      call'.request = call.request ∧ call'.token = call.token ∧ call'.left < n ∧
      ∀ failure, call'.phase ≠ .thrown (.request failure) := by
  obtain ⟨phase, hcalls, hphase⟩ := exists_call_use settings s i call bound chunks out results owner
  refine ⟨{ call with phase := phase }, ?_, rfl, rfl, ?_⟩
  · rw [hcalls, get?_set, if_pos rfl]
  · rcases hphase with rfl | ⟨out', rfl⟩
    · exact ⟨Nat.lt_of_le_of_lt (Nat.zero_le _) hleft, fun failure h => (by cases h)⟩
    · exact ⟨hleft, fun failure h => (by cases h)⟩

lemma nearer_of_next {e : Event Match}
    (hbounds : ∀ i call, s.calls.get? i = some call → call.InBounds) (hcall : s.calls.get? i = some call)
    (he : e.index = i) (hfails : e.fails = false) (hok : answersWell service s e)
    (hnext : next settings s e = some s') :
    ∃ call', s'.calls.get? i = some call' ∧ call'.request = call.request ∧ call'.token = call.token ∧
      call'.left < call.left ∧ ∀ failure, call'.phase ≠ .thrown (.request failure) := by
  subst he
  have hset : ∀ (calls : Record ℕ (Call Row)) call', (calls.set e.index call').get? e.index = some call' :=
    fun calls call' => by rw [get?_set, if_pos rfl]
  cases step_of_next hnext with
  | query hnew => cases hcall.symm.trans hnew
  | bound published hphase =>
    cases hcall.symm.trans hphase
    refine ⟨_, hset _ _, rfl, rfl, ?_, fun failure h => (by cases h)⟩
    -- there are no more chunks than keys
    have hpos := maxItems_pos published
    have hlength := length_le_of_flatten fun chunk hchunk => (of_mem_chunked hpos (hbounds _ _ hphase) hchunk).1
    rw [flatten_chunked hpos] at hlength
    dsimp only at hlength
    simp only [Call.left]
    omega
  | finish hphase =>
    cases hcall.symm.trans hphase
    exact ⟨_, hset _ _, rfl, rfl, Nat.succ_pos _, fun failure h => (by cases h)⟩
  | send hphase hanswers =>
    cases hcall.symm.trans hphase
    refine ⟨_, hset _ _, rfl, rfl, ?_, fun failure h => (by cases h)⟩
    simp only [Call.left, length_cons]
    omega
  | «recall» hphase hcached =>
    cases hcall.symm.trans hphase
    refine nearer_of_use ?_
    simp only [Call.left, length_cons]
    omega
  | fail hphase hanswers herror =>
    rcases herror with ⟨failure, rfl, -⟩ | ⟨body, rfl, hunusable⟩
    · cases hfails
    · exact absurd hunusable (not_isUnusable_of_answersWell hok hphase)
  | answer hphase =>
    cases hcall.symm.trans hphase
    refine nearer_of_use ?_
    simp only [Call.left]
    omega

lemma get?_calls_of_next {e : Event Match} (he : e.index ≠ i) (hnext : next settings s e = some s') :
    s'.calls.get? i = s.calls.get? i := by
  have hset : ∀ call', (s.calls.set e.index call').get? i = s.calls.get? i := fun call' => by
    rw [get?_set, if_neg he]
  have huse : ∀ (s₁ : State Match Row) call bound chunks out results owner, s₁.calls = s.calls →
      (use settings s₁ e.index call bound chunks out results owner).calls.get? i = s.calls.get? i := by
    intro s₁ call bound chunks out results owner hcalls
    obtain ⟨phase, hphase, -⟩ := exists_call_use settings s₁ e.index call bound chunks out results owner
    rw [hphase, hcalls]
    exact hset _
  cases step_of_next hnext with
  | query hnew =>
    unfold start
    split_ifs
    all_goals exact hset _
  | bound published hphase | finish hphase | send hphase hanswers => exact hset _
  | «recall» hphase hcached => exact huse s _ _ _ _ _ _ rfl
  | fail => exact hset _
  | answer => exact huse _ _ _ _ _ _ _ rfl

/-- The client hides chunks and cache: with a service that answers each key it is asked for, a query gives each of its
distinct keys with the rows of its matches, in the order of the first requests, and a second query for the same gives
the same, whatever the bounds. In every run no request is empty or over its bound and no answer to another caller is
used; a truncated or incomplete answer ends its query and is not cached. -/
theorem queries_answered (service : Service Match) (hcaller : Injective settings.callerHash)
    (hsha : Injective settings.sha256) :
    (∀ s, (cloudClient settings).Reachable (answersWell service) s → ∀ i call, s.calls.get? i = some call →
      call.ReturnsMatches settings service ∧ Proceeds settings service s i call) ∧
    (∀ s s', (cloudClient settings).Reachable (answersWell service) s →
      (cloudClient settings).Reachable (answersWell service) s' →
      ∀ i j call call' out out', s.calls.get? i = some call → s'.calls.get? j = some call' →
        call.request = call'.request → call.token = call'.token → call.phase = .answered out →
        call'.phase = .answered out' → out = out') ∧
    (∀ s, (cloudClient settings).Reachable (fun _ _ => True) s →
      (∀ r ∈ s.sent, r.parameters.keys ≠ [] ∧ r.parameters.keys.length ≤ r.bound) ∧ ∀ u ∈ s.used, u.1 = u.2) ∧
    ∀ (s : State Match Row) i call bound chunk chunks out body now, s.calls.get? i = some call →
      call.phase = .awaitingAnswer bound chunk chunks out → Body.IsUnusable body chunk →
      ∃ s' error, next settings s (.answer i (.ok body) now) = some s' ∧
        s'.calls.get? i = some { call with phase := .thrown error } ∧ s'.kgAnswers = s.kgAnswers := by
  refine ⟨fun s hs i call hcall => ⟨?_, ?_, ?_, ?_⟩, ?_, fun s hs => ?_, ?_⟩
  · exact (onCourse_of_reachable hcaller hsha hs i call hcall).returnsMatches
  · exact exists_enabled hcall
  · intro e s' he hfails hok hnext
    have hinv := clientInvariant_of_reachable hcaller (fun s e => answersMeet_of_answersWell) hs
    exact nearer_of_next hinv.calls hcall he hfails hok hnext
  · intro e s' he hnext
    rw [get?_calls_of_next he hnext]
    exact hcall
  · intro s s' hs hs' i j call call' out out' hcall hcall' hrequest htoken hphase hphase'
    exact answered_unique (onCourse_of_reachable hcaller hsha hs i call hcall)
      (onCourse_of_reachable hcaller hsha hs' j call' hcall') hrequest htoken hphase hphase'
  · have hinv : ClientInvariant settings (fun _ _ _ => True) s :=
      clientInvariant_of_reachable hcaller (fun s e _ => answersMeet_true) hs
    exact ⟨hinv.sent, hinv.used⟩
  · intro s i call bound chunk chunks out body now hcall hphase h
    exact next_of_isUnusable hcall hphase h

/-- A service with the matches of two keys; a match is its own row. -/
def sampleSettings : Settings ℕ ℕ where
  version := "sha256:1"
  callerHash := id
  sha256 := String.ofList
  toRow _ m := some m

def sampleService : Service ℕ := fun token _ _ key =>
  if token = "ada" ∧ key = "a" then [1, 2] else if key = "c" then [3] else []

/-- The answer of the service to a chunk. -/
def sampleBody (chunk : List String) : Body ℕ :=
  ⟨false, some (chunk.map fun key => some (key, sampleService "ada" .threatsByTechniqueId none key))⟩

/-- A body of an event is the answer to the chunk that its query waits for. -/
def answersSample (s : State ℕ ℕ) : Event ℕ → Bool
  | .answer i (.ok body) _ =>
    match s.calls.get? i with
    | some ⟨.threatsByTechniqueId _, token, .awaitingAnswer _ chunk _ _⟩ =>
      token = "ada" && !body.truncated && body.results = (sampleBody chunk).results
    | some ⟨_, _, .awaitingAnswer _ _ _ _⟩ => false
    | _ => true
  | _ => true

/-- A query in chunks of two keys, and one for the same keys whose first chunk is cached. -/
def sampleEvents : List (Event ℕ) :=
  [.query 0 (.threatsByTechniqueId ["c", "b", "c", "a"]) "ada", .bound 0 (some 2), .goOn 0 0,
    .answer 0 (.ok (sampleBody ["c", "b"])) 1, .goOn 0 1, .answer 0 (.ok (sampleBody ["a"])) 2, .goOn 0 2,
    .query 1 (.threatsByTechniqueId ["c", "b", "c", "a"]) "ada", .bound 1 (some 2), .goOn 1 3, .goOn 1 3, .goOn 1 3]

def Call.out? (call : Call ℕ) : Option (Record String (List ℕ)) :=
  match call.phase with
  | .answered out => some out
  | _ => none

lemma answersWell_of_answersSample {s : State ℕ ℕ} {e : Event ℕ} (h : answersSample s e = true) :
    answersWell sampleService s e := by
  cases e with
  | answer i answer now =>
    cases answer with
    | error failure => exact trivial
    | ok body =>
      rintro ⟨request, token, phase⟩ bound chunk chunks out hcall rfl
      unfold answersSample at h
      dsimp only at h
      rw [hcall] at h
      cases request with
      | threatsByTechniqueId techniqueIds =>
        simp only [Bool.and_eq_true, decide_eq_true_eq, Bool.not_eq_true'] at h
        obtain ⟨⟨rfl, htruncated⟩, hresults⟩ := h
        let results := chunk.map fun key => (key, sampleService "ada" .threatsByTechniqueId none key)
        refine ⟨htruncated, results, ?_, ?_, fun r hr => ?_⟩
        · rw [hresults, sampleBody, map_map]
          rfl
        · rw [map_map]
          exact List.Perm.of_eq (map_id _)
        · obtain ⟨key, -, rfl⟩ := mem_map.1 hr
          rfl
      | rulesByClassId classIds kind | threatsByRuleId refs => cases h
  | query i request token | bound i published | goOn i now => exact trivial

/-- The second query, which is answered from the cache, gives the keys in the order of the first requests. -/
theorem sampleEvents_answered :
    ∃ s call out, (cloudClient sampleSettings).run answersSample ⟨∅, ∅, [], []⟩ sampleEvents = some s ∧
      s.calls.get? 1 = some call ∧ call.phase = .answered out ∧ s.sent.length = 2 ∧
      out.entries = [("c", [3]), ("b", []), ("a", [1, 2])] ∧
      IsFirstRequestOrder out.keys call.request.allKeys := by
  have hrun : ((cloudClient sampleSettings).run answersSample ⟨∅, ∅, [], []⟩ sampleEvents).any (fun s =>
      s.sent.length = 2 ∧ ((s.calls.get? 1).bind Call.out?).any fun out =>
        out.entries = [("c", [3]), ("b", []), ("a", [1, 2])]) = true := by decide +kernel
  obtain ⟨s, hs, hdone⟩ := (Option.any_eq_true _ _).1 hrun
  obtain ⟨hsent, hout⟩ := of_decide_eq_true hdone
  obtain ⟨out, hbind, hentries⟩ := (Option.any_eq_true _ _).1 hout
  obtain ⟨call, hcall, hphase⟩ := Option.bind_eq_some_iff.1 hbind
  have hanswered : call.phase = .answered out := by
    unfold Call.out? at hphase
    split at hphase
    · rename_i hphase'
      rw [hphase', Option.some.inj hphase]
    · cases hphase
  have hreach : (cloudClient sampleSettings).Reachable (answersWell sampleService) s :=
    TransitionSystem.reachable_of_run (fun _ _ => answersWell_of_answersSample) (.init rfl) hs
  have hsha : Injective sampleSettings.sha256 := fun l l' h => by
    have htext : (String.ofList l).toList = (String.ofList l').toList := congrArg String.toList h
    rwa [String.toList_ofList, String.toList_ofList] at htext
  exact ⟨s, call, out, hs, hcall, hanswered, hsent, of_decide_eq_true hentries,
    ((queries_answered sampleService (show Injective sampleSettings.callerHash from injective_id) hsha).1 s hreach
      1 call
      hcall).1.keys out hanswered⟩

end KnowledgeGraph
