import Dethernety.KnowledgeGraph.KeyedMaps

/-!
# The answers of the knowledge-graph client

What a query returns, whatever was cached before and however its keys are split: the service is a function of caller,
query and key, and each request that is answered is answered for its keys (`answersWell`). A query then ends with the
rows of all its keys (`Call.OnCourse`), and each of its own steps brings it nearer to its end (`Proceeds`).
-/

open List Record Function

namespace KnowledgeGraph

variable {Match Row : Type} {settings : Settings Match Row} {s s' : State Match Row} {i : ℕ} {call : Call Row}
  {token : String} {bound : ℕ} {chunk : List String} {chunks : List (List String)} {out : Record String (List Row)}
  {results : List (String × List Match)}

/-! ## Complete answers -/

/-- A body that is truncated, or that is not a list of entries with one for each key of the chunk. -/
def Body.IsUnusable (body : Body Match) (chunk : List String) : Prop :=
  body.truncated = true ∨ ∀ results : List (String × List Match), body.results = some (results.map some) →
    ∃ key ∈ chunk, key ∉ results.map Prod.fst

lemma mapM_id_eq_some {α : Type} {l : List (Option α)} {r : List α} : l.mapM id = some r ↔ l = r.map some := by
  induction l generalizing r with
  | nil => simp
  | cons a l ih =>
    rw [mapM_cons, Option.bind_eq_bind, Option.bind_eq_some_iff]
    simp only [Option.bind_eq_bind, Option.bind_eq_some_iff, ih]
    cases r with
    | nil => simp
    | cons b r =>
      rw [map_cons, List.cons.injEq]
      constructor
      · rintro ⟨c, hc, r', hr, heq⟩
        cases heq
        exact ⟨hc, hr⟩
      · rintro ⟨ha, hl⟩
        exact ⟨b, ha, r, hl, rfl⟩

lemma completeAnswer_eq_some {read : Option (List (Option (String × List Match)))} :
    completeAnswer read chunk = some results ↔ read = some (results.map some) ∧ ∀ key ∈ chunk,
      key ∈ results.map Prod.fst := by
  rw [completeAnswer, Option.filter_eq_some_iff, Option.bind_eq_some_iff, all_eq_true]
  simp only [mapM_id_eq_some, decide_eq_true_eq]
  constructor
  · rintro ⟨⟨entries, hread, rfl⟩, hall⟩
    exact ⟨hread, hall⟩
  · rintro ⟨hread, hall⟩
    exact ⟨⟨_, hread, rfl⟩, hall⟩

variable {e : Event Match} {body : Body Match} {request : Request}

lemma completeAnswer_of_isUnusable (h : body.IsUnusable chunk) (htruncated : body.truncated = false) :
    completeAnswer body.results chunk = none := by
  rw [Option.eq_none_iff_forall_ne_some]
  intro results hresults
  obtain ⟨hread, hall⟩ := completeAnswer_eq_some.1 hresults
  rcases h with htrue | h
  · cases htruncated.symm.trans htrue
  · obtain ⟨key, hkey, hmissing⟩ := h results hread
    exact hmissing (hall key hkey)

/-- Such an answer ends its query, and the cache is as before. -/
theorem next_of_isUnusable {now : ℕ} (hcall : s.calls.get? i = some call)
    (hphase : call.phase = .awaitingAnswer bound chunk chunks out) (h : body.IsUnusable chunk) :
    ∃ s' error, next settings s (.answer i (.ok body) now) = some s' ∧
      s'.calls.get? i = some { call with phase := .thrown error } ∧ s'.kgAnswers = s.kgAnswers := by
  obtain ⟨request, token, phase⟩ := call
  obtain rfl : phase = _ := hphase
  have hthrown : ∀ error, (s.goto i ⟨request, token, .awaitingBound⟩ (.thrown error)).calls.get? i =
      some ⟨request, token, .thrown error⟩ := fun error => by
    rw [State.goto, get?_set, if_pos rfl]
  unfold next
  dsimp only
  rw [hcall]
  dsimp only
  rw [onAnswer]
  split_ifs with htruncated
  · exact ⟨_, _, rfl, hthrown _, rfl⟩
  · rw [completeAnswer_of_isUnusable h (Bool.eq_false_iff.2 htruncated)]
    exact ⟨_, _, rfl, hthrown _, rfl⟩

/-! ## Steps -/

/-- What a step can do. A step that sends a request, or one whose request fails, can drop cached answers. -/
inductive Step (settings : Settings Match Row) (s : State Match Row) : Event Match → State Match Row → Prop
  | query {i request token : _} (hnew : s.calls.get? i = none) :
      Step settings s (.query i request token) (start s i request token)
  | bound {i request token : _} (published : Option ℕ)
      (hcall : s.calls.get? i = some ⟨request, token, .awaitingBound⟩) :
      Step settings s (.bound i published) (s.goto i ⟨request, token, .awaitingBound⟩
        (.asking (maxItems published) (chunked request.keys (maxItems published)) (seededMap request.keys)))
  | finish {i now bound request token out : _}
      (hcall : s.calls.get? i = some ⟨request, token, .asking bound [] out⟩) :
      Step settings s (.goOn i now) (s.goto i ⟨request, token, .awaitingBound⟩ (.answered out))
  | send {i now bound request token chunk chunks out answers : _}
      (hcall : s.calls.get? i = some ⟨request, token, .asking bound (chunk :: chunks) out⟩)
      (hanswers : ∀ key entry, answers.get? key = some entry → s.kgAnswers.get? key = some entry) :
      Step settings s (.goOn i now) ⟨answers, s.calls.set i ⟨request, token, .awaitingAnswer bound chunk chunks out⟩,
        s.sent ++ [⟨token, ⟨request.name, chunk, request.kind⟩, bound⟩], s.used⟩
  | «recall» {i now bound request token chunk chunks out cached : _}
      (hcall : s.calls.get? i = some ⟨request, token, .asking bound (chunk :: chunks) out⟩)
      (hcached : s.kgAnswers.get? (kgKey settings token ⟨request.name, chunk, request.kind⟩) = some cached) :
      Step settings s (.goOn i now)
        (use settings s i ⟨request, token, .awaitingBound⟩ bound chunks out cached.results cached.token)
  | fail {i now bound request token chunk chunks out answers answer error : _}
      (hcall : s.calls.get? i = some ⟨request, token, .awaitingAnswer bound chunk chunks out⟩)
      (hanswers : ∀ key entry, answers.get? key = some entry → s.kgAnswers.get? key = some entry)
      (herror : (∃ failure, answer = .error failure ∧ error = .request failure) ∨
        ∃ body, answer = .ok body ∧ body.IsUnusable chunk) :
      Step settings s (.answer i answer now)
        ⟨answers, s.calls.set i ⟨request, token, .thrown error⟩, s.sent, s.used⟩
  | answer {i now bound request token chunk chunks out body results : _}
      (hcall : s.calls.get? i = some ⟨request, token, .awaitingAnswer bound chunk chunks out⟩)
      (htruncated : body.truncated = false) (hresults : completeAnswer body.results chunk = some results) :
      Step settings s (.answer i (.ok body) now)
        (use settings (putKgQuery settings s token ⟨request.name, chunk, request.kind⟩ results now) i
          ⟨request, token, .awaitingBound⟩ bound chunks out results token)

lemma step_ask {now : ℕ} (hcall : s.calls.get? i = some ⟨request, token, .asking bound (chunk :: chunks) out⟩) :
    Step settings s (.goOn i now) (ask settings s i ⟨request, token, .awaitingBound⟩ bound chunk chunks out now) := by
  unfold ask
  dsimp only
  split
  · exact .send hcall fun _ _ h => h
  · rename_i cached hcached
    split_ifs
    · refine .send hcall fun key entry h => ?_
      have hget : (s.kgAnswers.erase _).get? key = some entry := h
      rw [get?_erase] at hget
      split_ifs at hget
      exact hget
    · exact .«recall» hcall hcached

lemma step_onAnswer {answer : Except Failure (Body Match)} {now : ℕ}
    (hcall : s.calls.get? i = some ⟨request, token, .awaitingAnswer bound chunk chunks out⟩) :
    Step settings s (.answer i answer now)
      (onAnswer settings s i ⟨request, token, .awaitingBound⟩ bound chunk chunks out answer now) := by
  unfold onAnswer
  split
  · refine .fail hcall (fun key entry h => ?_) (.inl ⟨_, rfl, rfl⟩)
    have hget : (s.kgAnswers.filterKeys _).get? key = some entry := h
    rw [get?_filterKeys] at hget
    split_ifs at hget
    exact hget
  · exact .fail hcall (fun _ _ h => h) (.inl ⟨_, rfl, rfl⟩)
  · rename_i body
    split_ifs with htruncated
    · exact .fail hcall (fun _ _ h => h) (.inr ⟨body, rfl, .inl htruncated⟩)
    · split
      · rename_i hnone
        refine .fail hcall (fun _ _ h => h) (.inr ⟨body, rfl, .inr fun results hread => ?_⟩)
        by_contra hall
        push Not at hall
        rw [completeAnswer_eq_some.2 ⟨hread, hall⟩] at hnone
        cases hnone
      · rename_i results hresults
        exact .answer hcall (Bool.eq_false_iff.2 htruncated) hresults

lemma step_of_next (h : next settings s e = some s') : Step settings s e s' := by
  cases e with
  | query i =>
    rw [next] at h
    split_ifs at h with hmem
    cases h
    exact .query (notMem_keys_iff.1 hmem)
  | bound i published =>
    unfold next at h
    dsimp only at h
    split at h <;> cases h
    rename_i hcall
    exact .bound published hcall
  | goOn i now =>
    unfold next at h
    dsimp only at h
    split at h
    · rename_i hcall
      cases h
      exact .finish hcall
    · rename_i hcall
      cases h
      exact step_ask hcall
    · cases h
  | answer i =>
    unfold next at h
    dsimp only at h
    split at h <;> cases h
    rename_i hcall
    exact step_onAnswer hcall

/-! ## Every run -/

/-- Chunks that may be sent. -/
def Bounded (bound : ℕ) (chunks : List (List String)) : Prop :=
  ∀ chunk ∈ chunks, chunk ≠ [] ∧ chunk.length ≤ bound

def Call.InBounds (call : Call Row) : Prop :=
  match call.phase with
  | .awaitingBound => call.request.keys ≠ []
  | .asking bound chunks _ => Bounded bound chunks
  | .awaitingAnswer bound _ chunks _ => Bounded bound chunks
  | _ => True

/-- Answers to requests for chunks satisfy `A`. -/
def answersMeet (A : String → Parameters → List (String × List Match) → Prop) (s : State Match Row) : Event Match → Prop
  | .answer i (.ok body) _ => ∀ call bound chunk chunks out, s.calls.get? i = some call →
    call.phase = .awaitingAnswer bound chunk chunks out → ∀ results, completeAnswer body.results chunk = some results →
    A call.token (call.parameters chunk) results
  | _ => True

/-- What holds in every run in which the answers satisfy `A`. -/
structure ClientInvariant (settings : Settings Match Row) (A : String → Parameters → List (String × List Match) → Prop)
    (s : State Match Row) : Prop where
  calls : ∀ i call, s.calls.get? i = some call → call.InBounds
  sent : ∀ r ∈ s.sent, r.parameters.keys ≠ [] ∧ r.parameters.keys.length ≤ r.bound
  cached : ∀ key entry, s.kgAnswers.get? key = some entry →
    ∃ p, key = kgKey settings entry.token p ∧ A entry.token p entry.results
  used : ∀ u ∈ s.used, u.1 = u.2

lemma forall_calls_set {P : Call Row → Prop} (h : ∀ i call, s.calls.get? i = some call → P call) (hcall : P call) :
    ∀ j other, (s.calls.set i call).get? j = some other → P other := by
  intro j other hj
  rw [get?_set] at hj
  split_ifs at hj
  · cases hj
    exact hcall
  · exact h j other hj

section

variable {A : String → Parameters → List (String × List Match) → Prop}

section

variable (h : ClientInvariant settings A s)
include h

lemma ClientInvariant.goto {phase : Phase Row}
    (hphase : Call.InBounds { call with phase := phase }) : ClientInvariant settings A (s.goto i call phase) where
  calls := forall_calls_set h.calls hphase
  sent := h.sent
  cached := h.cached
  used := h.used

lemma ClientInvariant.use {owner : String} (howner : call.token = owner)
    (hchunks : Bounded bound chunks) :
    ClientInvariant settings A (use settings s i call bound chunks out results owner) := by
  have hused : ClientInvariant settings A { s with used := s.used ++ [(call.token, owner)] } :=
    { h with
      used := fun u hu => by
        rcases mem_append.1 hu with hu | hu
        · exact h.used u hu
        · rw [mem_singleton.1 hu]
          exact howner }
  unfold KnowledgeGraph.use
  split
  · exact hused.goto trivial
  · exact hused.goto hchunks

lemma ClientInvariant.putKgQuery {p : Parameters} {now : ℕ}
    (hresults : A token p results) : ClientInvariant settings A (putKgQuery settings s token p results now) where
  calls := h.calls
  sent := h.sent
  cached key entry hget := by
    have hget := RemoteModule.get?_of_get?_capFifo hget
    rw [get?_set] at hget
    split_ifs at hget with hkey
    · cases hget
      exact ⟨p, hkey.symm, hresults⟩
    · exact h.cached key entry hget
  used := h.used

lemma clientInvariant_start {request : Request} :
    ClientInvariant settings A (start s i request token) := by
  unfold start
  split_ifs with hkeys htoken
  · exact h.goto trivial
  · exact h.goto trivial
  · exact h.goto hkeys

end

lemma clientInvariant_next {e : Event Match} (hcaller : Injective settings.callerHash)
    (h : ClientInvariant settings A s) (hok : answersMeet A s e) (hnext : next settings s e = some s') :
    ClientInvariant settings A s' := by
  cases step_of_next hnext with
  | query hnew => exact clientInvariant_start h
  | bound published hcall =>
    have hkeys : Request.keys _ ≠ [] := h.calls _ _ hcall
    exact h.goto fun chunk hchunk => of_mem_chunked (maxItems_pos published) hkeys hchunk
  | finish hcall => exact h.goto trivial
  | send hcall hanswers =>
    obtain ⟨hchunk, hchunks⟩ := forall_mem_cons.1 (h.calls _ _ hcall)
    refine ⟨forall_calls_set h.calls hchunks, fun r hr => ?_, fun key entry hget =>
      h.cached key entry (hanswers key entry hget),
      h.used⟩
    rcases mem_append.1 hr with hr | hr
    · exact h.sent r hr
    · rw [mem_singleton.1 hr]
      exact hchunk
  | «recall» hcall hcached =>
    -- the key of the entry has the hash of its caller
    obtain ⟨p, hkey, -⟩ := h.cached _ _ hcached
    exact h.use (hcaller (Prod.mk.inj hkey).1) (forall_mem_cons.1 (h.calls _ _ hcall)).2
  | fail _ hanswers =>
    exact ⟨forall_calls_set h.calls trivial, h.sent, fun key entry hget =>
      h.cached key entry (hanswers key entry hget), h.used⟩
  | answer hcall htruncated hresults =>
    have hanswer := hok _ _ _ _ _ hcall rfl _ hresults
    exact (h.putKgQuery hanswer).use rfl (h.calls _ _ hcall)

lemma clientInvariant_of_reachable {ok : State Match Row → Event Match → Prop}
    (hcaller : Injective settings.callerHash) (hok : ∀ s e, ok s e → answersMeet A s e)
    (h : (cloudClient settings).Reachable ok s) : ClientInvariant settings A s := by
  refine h.invariant (fun s hinit => ?_) fun s e s' hs he hnext => clientInvariant_next hcaller hs (hok s e he) hnext
  obtain rfl : s = _ := hinit
  exact ⟨fun i call hcall => (by cases hcall), fun r hr => absurd hr not_mem_nil,
    fun key entry hget => (by cases hget), fun u hu => absurd hu not_mem_nil⟩

end

/-! ## A service that answers -/

/-- The matches of a key, for a caller and a query with its kind. -/
abbrev Service (Match : Type) := String → QueryName → Option RuleKind → String → List Match

/-- Each key once, with its matches. -/
structure Answers (service : Service Match) (token : String) (p : Parameters) (results : List (String × List Match)) :
    Prop where
  keys_perm : (results.map Prod.fst).Perm p.keys
  matches_eq : ∀ r ∈ results, r.2 = service token p.query p.kind r.1

/-- A request fails, or is answered for its keys. -/
def answersWell (service : Service Match) (s : State Match Row) : Event Match → Prop
  | .answer i (.ok body) _ => ∀ call bound chunk chunks out, s.calls.get? i = some call →
    call.phase = .awaitingAnswer bound chunk chunks out → body.truncated = false ∧
      ∃ results, body.results = some (results.map some) ∧ Answers service call.token (call.parameters chunk) results
  | _ => True

variable {service : Service Match}

lemma answersMeet_of_answersWell (h : answersWell service s e) : answersMeet (Answers service) s e := by
  cases e with
  | answer i answer now =>
    cases answer with
    | error failure => exact trivial
    | ok body =>
      intro call bound chunk chunks out hcall hphase results hresults
      obtain ⟨-, results', hread, hanswers⟩ := h call bound chunk chunks out hcall hphase
      rw [(completeAnswer_eq_some.1 hresults).1, Option.some.injEq] at hread
      rw [map_injective_iff.2 (Option.some_injective _) hread]
      exact hanswers
  | query i request token | bound i published | goOn i now => exact trivial

lemma not_isUnusable_of_answersWell {now : ℕ} (h : answersWell service s (.answer i (.ok body) now))
    (hcall : s.calls.get? i = some ⟨request, token, .awaitingAnswer bound chunk chunks out⟩) :
    ¬ body.IsUnusable chunk := by
  intro hunusable
  obtain ⟨htruncated, results, hread, hanswers⟩ := h _ _ _ _ _ hcall rfl
  have hcomplete := completeAnswer_eq_some.2 ⟨hread, fun key hkey => hanswers.keys_perm.mem_iff.2 hkey⟩
  cases hcomplete.symm.trans (completeAnswer_of_isUnusable hunusable htruncated)

lemma answersMeet_true : answersMeet (fun _ _ _ => True) s e := by
  unfold answersMeet
  split
  · exact fun _ _ _ _ _ _ _ _ _ => trivial
  · exact trivial

/-- The rows of a key, if all its matches have one. -/
def Call.expected (settings : Settings Match Row) (service : Service Match) (call : Call Row) (key : String) :
    Option (List Row) :=
  (service call.token call.request.name call.request.kind key).mapM (settings.toRow call.request.name)

/-- The keys of the chunks that are left come after those whose rows the map has; a query ends with the rows of all its
keys, unless it has no token, a request failed or a match has no row. -/
def Call.OnCourse (settings : Settings Match Row) (service : Service Match) (call : Call Row) : Prop :=
  match call.phase with
  | .awaitingBound => call.token ≠ ""
  | .asking _ chunks out => ∃ done, call.request.keys = done ++ chunks.flatten ∧
    Filled (call.expected settings service) call.request.keys done out
  | .awaitingAnswer _ chunk chunks out => ∃ done, call.request.keys = done ++ (chunk ++ chunks.flatten) ∧
    Filled (call.expected settings service) call.request.keys done out
  | .answered out => Filled (call.expected settings service) call.request.keys call.request.keys out
  | .thrown .noToken => call.token = ""
  | .thrown (.request _) => True
  | .thrown .malformedRow => ∃ key ∈ call.request.keys, call.expected settings service key = none
  | .thrown _ => False

/-- The chunk is merged. -/
lemma forall_calls_use {owner : String} {done : List String}
    (h : ∀ i call, s.calls.get? i = some call → call.OnCourse settings service)
    (hkeys : call.request.keys = done ++ (chunk ++ chunks.flatten))
    (hfilled : Filled (call.expected settings service) call.request.keys done out)
    (hanswers : Answers service call.token (call.parameters chunk) results) :
    ∀ j other, (use settings s i call bound chunks out results owner).calls.get? j = some other →
      other.OnCourse settings service := by
  have hperm : (results.map Prod.fst).Perm chunk := hanswers.keys_perm
  have hnodup : (done ++ (chunk ++ chunks.flatten)).Nodup := hkeys ▸ nodup_distinct _
  rw [← append_assoc] at hnodup
  have hresults : ∀ r ∈ results, r.1 ∈ call.request.keys ∧
      r.2.mapM (settings.toRow call.request.name) = call.expected settings service r.1 := by
    intro r hr
    refine ⟨?_, by rw [hanswers.matches_eq r hr]; rfl⟩
    rw [hkeys]
    exact mem_append_right _ (mem_append_left _ (hperm.subset (mem_map_of_mem hr)))
  unfold use
  split
  · rename_i hmerge
    refine forall_calls_set h ?_
    obtain ⟨r, hr, hrow⟩ := exists_of_merge_none hmerge
    obtain ⟨hkey, hexpected⟩ := hresults r hr
    exact ⟨r.1, hkey, hexpected ▸ hrow⟩
  · rename_i out' hmerge
    refine forall_calls_set h ⟨done ++ chunk, ?_, ?_⟩
    · rw [hkeys, append_assoc]
    · have hnew : (done ++ results.map Prod.fst).Nodup :=
        (hperm.append_left done).nodup_iff.2 (nodup_append.1 hnodup).1
      exact (hfilled.merge hmerge hnew hresults).congr fun key => (hperm.append_left done).mem_iff

lemma onCourse_next (hcaller : Injective settings.callerHash)
    (hsha : Injective settings.sha256) (hinv : ClientInvariant settings (Answers service) s)
    (h : ∀ i call, s.calls.get? i = some call → call.OnCourse settings service) (hok : answersWell service s e)
    (hnext : next settings s e = some s') : ∀ i call, s'.calls.get? i = some call → call.OnCourse settings service := by
  cases step_of_next hnext with
  | query hnew =>
    unfold start
    split_ifs with hkeys htoken
    · refine forall_calls_set h ?_
      show Filled _ _ _ ∅
      rw [hkeys]
      exact ⟨rfl, fun key hkey => absurd hkey not_mem_nil⟩
    all_goals exact forall_calls_set h htoken
  | bound published hcall =>
    refine forall_calls_set h ⟨[], ?_, Filled.seeded (nodup_distinct _)⟩
    exact (flatten_chunked (maxItems_pos published) _).symm
  | finish hcall =>
    obtain ⟨done, hkeys, hfilled⟩ := h _ _ hcall
    refine forall_calls_set h (hfilled.congr fun key => ?_)
    rw [hkeys, flatten_nil, append_nil]
  | send hcall hanswers =>
    obtain ⟨done, hkeys, hfilled⟩ := h _ _ hcall
    exact forall_calls_set h ⟨done, hkeys, hfilled⟩
  | «recall» hcall hcached =>
    obtain ⟨done, hkeys, hfilled⟩ := h _ _ hcall
    -- what is cached for this caller and these parameters answers them
    obtain ⟨p, hkey, hanswers⟩ := hinv.cached _ _ hcached
    obtain ⟨htoken, rfl⟩ := kgKey_inj hcaller hsha hkey
    rw [← htoken] at hanswers
    exact forall_calls_use h hkeys hfilled hanswers
  | fail hcall hanswers herror =>
    refine forall_calls_set h ?_
    rcases herror with ⟨failure, -, rfl⟩ | ⟨body, rfl, hunusable⟩
    · exact trivial
    · exact absurd hunusable (not_isUnusable_of_answersWell hok hcall)
  | answer hcall htruncated hresults =>
    obtain ⟨done, hkeys, hfilled⟩ := h _ _ hcall
    exact forall_calls_use h hkeys hfilled (answersMeet_of_answersWell hok _ _ _ _ _ hcall rfl _ hresults)

lemma onCourse_of_reachable (hcaller : Injective settings.callerHash)
    (hsha : Injective settings.sha256) (h : (cloudClient settings).Reachable (answersWell service) s) :
    ∀ i call, s.calls.get? i = some call → call.OnCourse settings service := by
  induction h with
  | init hinit =>
    obtain rfl := hinit
    exact fun i call hcall => (by cases hcall)
  | step hreach hok hnext ih =>
    have hinv := clientInvariant_of_reachable hcaller (fun s e => answersMeet_of_answersWell) hreach
    exact onCourse_next hcaller hsha hinv ih hok hnext

end KnowledgeGraph
