import Dethernety.RemoteModule.Registration

/-!
# Served metadata and policy hashes

The served copy, the registered entry and its hashes are replaced at different points (`Consistent` relates them).
While a module is registered, its metadata and `getPolicyHash` agree on every class of a served array
(`agrees_metadata`), and a module that served its own pin stays with it.
-/

open List Option

namespace RemoteModule

/-- Each hash comes from a body that the module read or was answered. -/
def Sourced (p : Process) (hashes : Hashes) : Prop :=
  ∀ classId hash, hashes.get? classId = some hash →
    ∃ body ∈ p.bodies, IsHashOf p.config.moduleKey p.config.pin body classId hash

/-- The metadata carries the hashes that `getPolicyHash` answers, on the classes of the served arrays only. -/
def Agrees (p : Process) (module : JsonTree) : Prop :=
  ∀ key ∈ allClassArrays, ∀ cls ∈ classesOf module key,
    cls.get? "policyHash" =
      if key ∈ servedClassArrays then ((classId? cls).bind p.getPolicyHash).map JsonTree.string else none

/-- The hashes that go into the metadata of an entry. -/
def Process.hashesFor (p : Process) (entry : CachedModule) : Option Hashes :=
  if entry.pin = p.config.pin then p.registeredHashes else none

def AwaitsOk (p : Process) : Awaits → Prop
  | .hashes entry => entry.pin = p.config.pin
  | .parts _ _ _ hashes => ∀ h, hashes = some (some h) → Sourced p h
  | _ => True

/-- The module is registered at its own pin. -/
def Process.AtPin (p : Process) : Prop :=
  ∃ entry, p.registered = some entry ∧ entry.pin = p.config.pin

/-- After an answer of an entry of the pin there is none of another pin. -/
def KeepsPin (pin : String) (a b : Answer) : Prop :=
  ∀ entry module, a.result = some (entry, module) → entry.pin = pin →
    ∀ entry' module', b.result = some (entry', module') → entry'.pin = pin

structure Consistent (p : Process) : Prop where
  atPin : ∀ h, p.registeredHashes = some h → p.AtPin
  sourced : ∀ h, p.registeredHashes = some h → Sourced p h
  served : ∀ entry module, p.served = some (entry, module) →
    p.registered = some entry ∧ module = withPolicyHashes entry.module (p.hashesFor entry)
  memo : ∀ entry, p.memo = some entry → entry.pin = p.config.pin
  awaits : ∀ t a, p.threads.get? t = some a → AwaitsOk p a
  /-- Registration goes on until a module is registered, and refreshes only then. -/
  threads : ∀ t a, p.threads.get? t = some a → (t = .registration ↔ p.registered = none)
  answered : ∀ a ∈ p.answers, ∀ entry module, a.result = some (entry, module) → p.registered ≠ none ∧
    (entry.pin = p.config.pin → p.AtPin)
  answers : p.answers.Pairwise (KeepsPin p.config.pin)

section

variable {p : Process} {dir : Directory} {t : Thread} {entry : CachedModule} {hashes : Option Hashes} {now : ℕ}

variable {p' : Process} {a : Awaits} {call : ℕ} {written : Bool}

lemma Sourced.mono {h : Hashes} (hs : Sourced p h) (hconfig : p'.config = p.config)
    (hbodies : p.bodies ⊆ p'.bodies) : Sourced p' h := by
  intro classId hash hget
  obtain ⟨body, hbody, hhash⟩ := hs classId hash hget
  rw [hconfig]
  exact ⟨body, hbodies hbody, hhash⟩

lemma AwaitsOk.mono (h : AwaitsOk p a) (hconfig : p'.config = p.config)
    (hbodies : p.bodies ⊆ p'.bodies) : AwaitsOk p' a := by
  cases a with
  | origin only | document => trivial
  | hashes entry => exact h.trans (congrArg Config.pin hconfig).symm
  | parts => exact fun h' hh' => (h h' hh').mono hconfig hbodies

lemma start_consistent (config : Config) : Consistent (.start config) where
  atPin h hh := by cases hh
  sourced h hh := by cases hh
  served entry module h := by cases h
  memo entry h := by cases h
  awaits t a h := by cases h
  threads t a h := by cases h
  answered a h := by cases h
  answers := List.Pairwise.nil

section

variable (h : Consistent p)
include h

/-- What does not touch the registration, the answers or the threads. -/
lemma Consistent.of_eq (hconfig : p'.config = p.config)
    (hregistered : p'.registered = p.registered) (hhashes : p'.registeredHashes = p.registeredHashes)
    (hserved : p'.served = p.served) (hmemo : ∀ entry, p'.memo = some entry → entry.pin = p.config.pin)
    (hthreads : ∀ t a, p'.threads.get? t = some a → p.threads.get? t = some a ∨
      (AwaitsOk p' a ∧ (t = .registration ↔ p.registered = none)))
    (hanswers : ∀ a ∈ p'.answers, ∀ entry module, a.result = some (entry, module) → a ∈ p.answers)
    (hpairwise : p'.answers.Pairwise (KeepsPin p.config.pin)) (hbodies : p.bodies ⊆ p'.bodies) : Consistent p' := by
  have hatPin : p.AtPin → p'.AtPin := fun ⟨entry, he, hpin⟩ =>
    ⟨entry, hregistered.trans he, by rw [hconfig]; exact hpin⟩
  refine ⟨fun h' hh' => ?_, fun h' hh' => ?_, fun entry module hm => ?_, ?_, fun t a ha => ?_, fun t a ha => ?_,
    fun a ha entry module hr => ?_, ?_⟩
  · rw [hhashes] at hh'
    exact hatPin (h.atPin h' hh')
  · rw [hhashes] at hh'
    exact (h.sourced h' hh').mono hconfig hbodies
  · rw [hserved] at hm
    obtain ⟨hr, hmodule⟩ := h.served entry module hm
    refine ⟨hregistered.trans hr, ?_⟩
    rw [hmodule, Process.hashesFor, Process.hashesFor, hconfig, hhashes]
  · rw [hconfig]
    exact hmemo
  · rcases hthreads t a ha with hold | hnew
    · exact (h.awaits t a hold).mono hconfig hbodies
    · exact hnew.1
  · rw [hregistered]
    rcases hthreads t a ha with hold | hnew
    · exact h.threads t a hold
    · exact hnew.2
  · obtain ⟨hr', hpin⟩ := h.answered a (hanswers a ha entry module hr) entry module hr
    rw [hregistered, hconfig]
    exact ⟨hr', fun hp => hatPin (hpin hp)⟩
  · rw [hconfig]
    exact hpairwise

lemma Consistent.goto (ha : AwaitsOk p a)
    (ht : t = .registration ↔ p.registered = none) : Consistent (p.goto t a) := by
  refine h.of_eq rfl rfl rfl rfl h.memo (fun t' a' hget => ?_) (fun a ha _ _ _ => ha) h.answers (List.Subset.refl _)
  rw [Process.goto, Record.get?_set] at hget
  split_ifs at hget with htt
  · cases hget
    exact .inr ⟨ha.mono rfl (List.Subset.refl _), htt ▸ ht⟩
  · exact .inl hget

lemma Consistent.erase (t : Thread) : Consistent { p with threads := p.threads.erase t } := by
  refine h.of_eq rfl rfl rfl rfl h.memo (fun t' a' hget => ?_) (fun a ha _ _ _ => ha) h.answers (List.Subset.refl _)
  rw [Record.get?_erase] at hget
  split_ifs at hget
  exact .inl hget

lemma Consistent.reject (now : ℕ) : Consistent (p.reject now) := by
  refine h.of_eq rfl rfl rfl rfl h.memo (fun t' a' hget => ?_) (fun a ha entry module hr => ?_) ?_ (List.Subset.refl _)
  · dsimp only [Process.reject] at hget
    rw [Record.get?_erase] at hget
    split_ifs at hget
    exact .inl hget
  · rcases mem_append.1 ha with hold | hnew
    · exact hold
    · obtain ⟨call, -, rfl⟩ := mem_map.1 hnew
      cases hr
  · refine pairwise_append.2 ⟨h.answers, ?_, fun a _ b hb => ?_⟩
    · refine pairwise_map.2 (pairwise_of_forall fun call call' => ?_)
      intro entry module hr
      cases hr
    · obtain ⟨call, -, rfl⟩ := mem_map.1 hb
      intro _ _ _ _ entry module hr
      cases hr

/-- `served` is what would be built anew. -/
lemma metadataFor_eq (hr : p.registered = some entry) :
    p.metadataFor entry = withPolicyHashes entry.module (p.hashesFor entry) := by
  have hhashes : (if p.registered = some entry ∧ entry.pin = p.config.pin then p.registeredHashes else none) =
      p.hashesFor entry := by
    simp [Process.hashesFor, hr]
  unfold Process.metadataFor
  rw [hhashes]
  cases hserved : p.served with
  | none => rfl
  | some served =>
    obtain ⟨other, module⟩ := served
    dsimp only
    split_ifs with hother
    · rw [(h.served other module hserved).2, hother]
    · rfl

lemma Consistent.servedMetadata (hr : p.registered = some entry) (calls : List ℕ) :
    Consistent (p.servedMetadata entry calls) := by
  have hregistered : (p.servedMetadata entry calls).registered = some entry := hr
  refine ⟨fun h' hh' => ?_, fun h' hh' => ?_, fun entry' module hm => ?_, h.memo, fun t a ha => ?_, fun t a ha => ?_,
    fun a ha entry' module hr' => ?_, ?_⟩
  · exact h.atPin h' hh'
  · exact h.sourced h' hh'
  · cases hm
    exact ⟨hr, metadataFor_eq h hr⟩
  · exact (h.awaits t a ha).mono rfl (List.Subset.refl _)
  · exact h.threads t a ha
  · rcases mem_append.1 ha with hold | hnew
    · exact h.answered a hold entry' module hr'
    · obtain ⟨call, -, rfl⟩ := mem_map.1 hnew
      cases hr'
      exact ⟨by rw [hregistered]; exact some_ne_none _, fun hpin => ⟨entry, hr, hpin⟩⟩
  · refine pairwise_append.2 ⟨h.answers, ?_, fun a ha b hb => ?_⟩
    · refine pairwise_map.2 (pairwise_of_forall fun call call' => ?_)
      intro entry' module hr' hpin entry'' module' hr''
      cases hr'
      cases hr''
      exact hpin
    · obtain ⟨call, -, rfl⟩ := mem_map.1 hb
      intro entry' module hr' hpin entry'' module' hr''
      cases hr''
      -- the module was registered at its pin before this answer
      obtain ⟨registered, hregistered', hpin'⟩ := (h.answered a ha entry' module hr').2 hpin
      cases hr.symm.trans hregistered'
      exact hpin'

end

lemma adopt_eq_some (h : p.adopt entry hashes = some p') :
    p' = { p with
      registered := some entry
      registeredHashes := if entry.pin = p.config.pin then hashes else none
      served := none } := by
  rw [Process.adopt, ite_none_right_eq_some] at h
  exact (Option.some.inj h.2).symm

/-- An entry is adopted, by a thread that ends: of the pin, or by the registration. -/
lemma Consistent.adopt (h : Consistent p) (hadopt : p.adopt entry hashes = some p')
    (hget : ∃ a, p.threads.get? t = some a) (hpin : entry.pin = p.config.pin ∨ t = .registration)
    (hhashes : ∀ h', hashes = some h' → Sourced p h') : Consistent { p' with threads := p.threads.erase t } := by
  rw [adopt_eq_some hadopt]
  obtain ⟨a, ha⟩ := hget
  -- a thread that is left is a refresh
  have hleft : ∀ t' a', (p.threads.erase t).get? t' = some a' → p.threads.get? t' = some a' ∧ t' ≠ .registration := by
    intro t' a' hget'
    rw [Record.get?_erase] at hget'
    split_ifs at hget' with htt
    refine ⟨hget', fun ht' => htt ?_⟩
    have hnone := (h.threads t' a' hget').1 ht'
    rw [ht', (h.threads t a ha).2 hnone]
  refine ⟨fun h' hh' => ?_, fun h' hh' => ?_, fun entry' module hm => ?_, h.memo, fun t' a' ha' => ?_,
    fun t' a' ha' => ?_, fun b hb entry' module hr' => ?_, h.answers⟩
  · split_ifs at hh' with hp
    exact ⟨entry, rfl, hp⟩
  · split_ifs at hh'
    exact (hhashes h' hh').mono rfl (List.Subset.refl _)
  · cases hm
  · exact (h.awaits t' a' (hleft t' a' ha').1).mono rfl (List.Subset.refl _)
  · exact ⟨fun ht' => absurd ht' (hleft t' a' ha').2, fun hnone => by cases hnone⟩
  · refine ⟨some_ne_none _, fun _ => ⟨entry, rfl, ?_⟩⟩
    rcases hpin with hpin | hregistration
    · exact hpin
    · -- a registration goes on, so no call got an entry yet
      exact absurd ((h.threads t a ha).1 hregistration) (h.answered b hb entry' module hr').1

lemma Consistent.finish (h : Consistent p) (hget : ∃ a, p.threads.get? t = some a)
    (hpin : entry.pin = p.config.pin ∨ t = .registration) (hhashes : ∀ h', hashes = some h' → Sourced p h') :
    Consistent (p.finish t entry hashes now) := by
  unfold Process.finish
  cases t with
  | registration =>
    cases hadopt : p.adopt entry hashes with
    | none => exact h.reject now
    | some p' =>
      have hregistered : p'.registered = some entry := by rw [adopt_eq_some hadopt]
      have hthreads : p'.threads = p.threads := by rw [adopt_eq_some hadopt]
      have hserved := (h.adopt hadopt hget hpin hhashes).servedMetadata hregistered p'.waiting
      dsimp only
      rw [hthreads]
      exact hserved.of_eq rfl rfl rfl rfl hserved.memo (fun _ _ ha => .inl ha) (fun _ ha _ _ _ => ha) hserved.answers
        (List.Subset.refl _)
  | refresh n =>
    cases hadopt : p.adopt entry hashes with
    | none => exact h.erase (.refresh n)
    | some p' => exact h.adopt hadopt hget hpin hhashes

lemma Consistent.fail (h : Consistent p) (hget : ∃ a, p.threads.get? t = some a) : Consistent (p.fail dir t now) := by
  unfold Process.fail
  cases t with
  | registration =>
    cases dir.newestFor p.config.moduleKey with
    | none => exact h.reject now
    | some entry => exact h.finish hget (.inr rfl) fun h' hh' => by cases hh'
  | refresh n => exact h.erase (.refresh n)

lemma pin_of_cached (h : Consistent p) (hcached : p.cached dir = some entry) : entry.pin = p.config.pin := by
  unfold Process.cached at hcached
  cases hmemo : p.memo with
  | some memo =>
    rw [hmemo] at hcached
    cases hcached
    exact h.memo _ hmemo
  | none =>
    rw [hmemo] at hcached
    obtain ⟨-, hchecked⟩ := filter_eq_some_iff.1 hcached
    simp only [Bool.and_eq_true, decide_eq_true_eq] at hchecked
    exact hchecked.2

lemma Consistent.learn (h : Consistent p) {bodies : List JsonTree} {memo : Option CachedModule} {portalOrigin : Bool}
    (hmemo : ∀ entry, memo = some entry → entry.pin = p.config.pin) (hbodies : p.bodies ⊆ bodies) :
    Consistent { p with bodies := bodies, memo := memo, portalOrigin := portalOrigin } :=
  h.of_eq rfl rfl rfl rfl hmemo (fun _ _ ha => .inl ha) (fun _ ha _ _ _ => ha) h.answers hbodies

lemma sourced_of_parse {body : JsonTree} {classIds : List String} {h : Hashes} (hbody : body ∈ p.bodies)
    (hparse : parsePolicyHashes body p.config.moduleKey p.config.pin classIds = some h) : Sourced p h :=
  fun _ _ hget => ⟨body, hbody, isHashOf_of_parsePolicyHashes hparse hget⟩

section

variable (h : Consistent p)
include h

lemma Consistent.registrationAtPin (ha : p.threads.get? t = some a) :
    Consistent (p.registrationAtPin dir t now).1 := by
  have ht := h.threads t a ha
  unfold Process.registrationAtPin
  cases hcached : p.cached dir with
  | none => exact h.goto trivial ht
  | some entry =>
    have hpin := pin_of_cached h hcached
    have hmemo : ∀ other, some entry = some other → other.pin = p.config.pin := fun other hother => by
      cases hother
      exact hpin
    have hlearned : Consistent { p with memo := some entry } := h.learn hmemo (List.Subset.refl _)
    dsimp only
    split
    · exact hlearned.goto hpin ht
    · exact hlearned.goto hpin ht
    · rename_i stored _ _
      have hread : Consistent { p with memo := some entry, bodies := p.bodies ++ [stored] } :=
        h.learn hmemo (subset_append_left _ _)
      split
      · rename_i hashes hparse
        refine hread.finish ⟨a, ha⟩ (.inl hpin) fun h' hh' => ?_
        cases hh'
        exact sourced_of_parse (mem_append_right _ (.head _)) hparse
      · exact hread.goto hpin ht

lemma Consistent.onOrigin {only pinned : Bool} (ha : p.threads.get? t = some a) :
    Consistent (p.onOrigin dir t only pinned now).1 := by
  have hpinned : Consistent { p with portalOrigin := p.portalOrigin || pinned } := h.learn h.memo (List.Subset.refl _)
  unfold Process.onOrigin
  split_ifs
  · exact hpinned.erase t
  · exact hpinned.registrationAtPin ha

lemma Consistent.onDocument {answer : Option JsonTree}
    (ha : p.threads.get? t = some a) : Consistent (p.onDocument dir t answer now) := by
  unfold Process.onDocument
  cases answer with
  | none => exact h.fail ⟨a, ha⟩
  | some document =>
    dsimp only
    split_ifs
    · cases modelsOf document with
      | none => exact h.fail ⟨a, ha⟩
      | some models => exact h.goto (fun h' hh' => by cases hh') (h.threads t a ha)
    · exact h.fail ⟨a, ha⟩

lemma Consistent.onFetched {document : JsonTree} {embeddings : List JsonTree} (ha : p.threads.get? t = some a)
    (hhashes : ∀ h', hashes = some h' → Sourced p h') :
    Consistent (p.onFetched dir t document embeddings hashes written now).1 := by
  unfold Process.onFetched
  split_ifs
  · refine (h.learn (fun entry hentry => ?_) (List.Subset.refl _)).finish ⟨a, ha⟩ (.inl rfl) hhashes
    cases hentry
    rfl
  · exact h.finish ⟨a, ha⟩ (.inl rfl) hhashes

lemma onHashes_spec (dir : Directory) (module : JsonTree) (answer : Option JsonTree)
    (written : Bool) :
    Consistent (p.onHashes dir module answer written).2.1 ∧
      (p.onHashes dir module answer written).2.1.threads = p.threads ∧
      (p.onHashes dir module answer written).2.1.config = p.config ∧
      ∀ h', (p.onHashes dir module answer written).1 = some h' →
        Sourced (p.onHashes dir module answer written).2.1 h' := by
  unfold Process.onHashes
  cases answer with
  | none => exact ⟨h, rfl, rfl, fun h' hh' => by cases hh'⟩
  | some body =>
    have hread : Consistent { p with bodies := p.bodies ++ [body] } := h.learn h.memo (subset_append_left _ _)
    dsimp only
    split
    · exact ⟨hread, rfl, rfl, fun h' hh' => by cases hh'⟩
    · rename_i hashes hparse
      refine ⟨hread, rfl, rfl, fun h' hh' => ?_⟩
      cases hh'
      exact sourced_of_parse (mem_append_right _ (.head _)) hparse

lemma Consistent.refreshInBackground (hregistered : p.registered = some entry) (now : ℕ) :
    Consistent (p.refreshInBackground entry now) ∧ (p.refreshInBackground entry now).registered = some entry := by
  unfold Process.refreshInBackground
  split_ifs
  · exact ⟨h, hregistered⟩
  · exact ⟨h, hregistered⟩
  · have hgoto : Consistent (p.goto (.refresh p.refreshCount) (.origin (entry.pin = p.config.pin))) :=
      h.goto trivial (by simp [hregistered])
    exact ⟨hgoto.of_eq rfl rfl rfl rfl hgoto.memo (fun _ _ ha => .inl ha) (fun _ ha _ _ _ => ha) hgoto.answers
      (List.Subset.refl _), hregistered⟩

lemma Consistent.wait (hregistered : p.registered = none) : Consistent (p.wait call) := by
  have hwaits : Consistent { p with waiting := p.waiting ++ [call] } :=
    h.of_eq rfl rfl rfl rfl h.memo (fun _ _ ha => .inl ha) (fun _ ha _ _ _ => ha) h.answers (List.Subset.refl _)
  unfold Process.wait
  dsimp only
  split
  · exact hwaits
  · exact hwaits.goto trivial (by simp [hregistered])

lemma Consistent.failAgain : Consistent { p with answers := p.answers ++ [⟨call, none⟩] } := by
  refine h.of_eq rfl rfl rfl rfl h.memo (fun _ _ ha => .inl ha) (fun a ha entry module hr => ?_) ?_
    (List.Subset.refl _)
  · rcases mem_append.1 ha with hold | hnew
    · exact hold
    · obtain rfl := mem_singleton.1 hnew
      cases hr
  · refine pairwise_append.2 ⟨h.answers, pairwise_singleton _ _, fun a _ b hb => ?_⟩
    obtain rfl := mem_singleton.1 hb
    intro _ _ _ _ entry module hr
    cases hr

lemma Consistent.getMetadata : Consistent (p.getMetadata call now) := by
  unfold Process.getMetadata
  split
  · rename_i entry hregistered
    obtain ⟨hrefresh, hregistered⟩ := h.refreshInBackground hregistered now
    exact hrefresh.servedMetadata hregistered [call]
  · rename_i hregistered
    split_ifs
    · exact h.failAgain
    · exact h.wait hregistered

lemma Consistent.next {event : ProcessEvent} {r : Process × Directory}
    (hnext : p.next dir event = some r) : Consistent r.1 := by
  cases event with simp only [Process.next] at hnext
  | getMetadata =>
    cases hnext
    exact h.getMetadata
  | origin t =>
    split at hnext <;> cases hnext
    rename_i ha
    exact h.onOrigin ha
  | document t =>
    split at hnext <;> cases hnext
    rename_i ha
    exact h.onDocument ha
  | embeddings t answer =>
    split at hnext
    · rename_i document models hashes ha
      cases answer with
      | none =>
        cases hnext
        exact h.fail ⟨_, ha⟩
      | some embeddings =>
        dsimp only at hnext
        split_ifs at hnext
        cases hashes with
        | some hashes =>
          cases hnext
          exact h.onFetched ha fun h' hh' => h.awaits t _ ha h' (by rw [hh'])
        | none =>
          cases hnext
          exact h.goto (fun h' hh' => by cases hh') (h.threads t _ ha)
    · cases hnext
  | policyHashes t answer hashesWritten =>
    split at hnext
    · rename_i entry ha
      cases hnext
      obtain ⟨hread, hthreads, hconfig, hsourced⟩ := onHashes_spec h dir entry.module answer hashesWritten
      refine hread.finish ⟨_, by rw [hthreads]; exact ha⟩ (.inl ?_) hsourced
      rw [hconfig]
      exact h.awaits t _ ha
    · rename_i document models embeddings ha
      obtain ⟨hread, hthreads, _, hsourced⟩ := onHashes_spec h dir (moduleOf document) answer hashesWritten
      cases embeddings with
      | some embeddings =>
        cases hnext
        exact hread.onFetched (by rw [hthreads]; exact ha) hsourced
      | none =>
        cases hnext
        refine hread.goto (fun h' hh' => hsourced h' (Option.some.inj hh'))
          (hread.threads t (.parts document models none none) ?_)
        rw [hthreads]
        exact ha
    · cases hnext

end

/-! ## What a step answers -/

/-- An answer is the metadata of the module as it is. -/
def Served (p : Process) (a : Answer) : Prop :=
  ∀ entry module, a.result = some (entry, module) → p.registered = some entry ∧ module = p.metadataFor entry

/-- The answers of a step are of the module as the step leaves it. -/
def AnswersAnew (p p' : Process) : Prop :=
  ∀ a ∈ p'.answers, a ∈ p.answers ∨ Served p' a

lemma AnswersAnew.of_eq {p p' : Process} (h : p'.answers = p.answers) : AnswersAnew p p' :=
  fun _ ha => .inl (h ▸ ha)

section

variable (hanswers : p'.answers = p.answers)
include hanswers

lemma answersAnew_servedMetadata
    (hr : p'.registered = some entry) (calls : List ℕ) : AnswersAnew p (p'.servedMetadata entry calls) := by
  intro a ha
  rcases mem_append.1 ha with hold | hnew
  · exact .inl (hanswers ▸ hold)
  · obtain ⟨call, -, rfl⟩ := mem_map.1 hnew
    refine .inr fun entry' module hr' => ?_
    cases hr'
    refine ⟨hr, ?_⟩
    have hserved : (p'.servedMetadata entry calls).served = some (entry, p'.metadataFor entry) := rfl
    conv_rhs => rw [Process.metadataFor, hserved]
    simp

lemma answersAnew_reject : AnswersAnew p (p'.reject now) := by
  intro a ha
  rcases mem_append.1 ha with hold | hnew
  · exact .inl (hanswers ▸ hold)
  · obtain ⟨call, -, rfl⟩ := mem_map.1 hnew
    exact .inr fun entry module hr => by cases hr

lemma answersAnew_finish : AnswersAnew p (p'.finish t entry hashes now) := by
  unfold Process.finish
  cases t with
  | registration =>
    cases hadopt : p'.adopt entry hashes with
    | none => exact answersAnew_reject hanswers
    | some adopted =>
      have hregistered : adopted.registered = some entry := by rw [adopt_eq_some hadopt]
      have hkept : adopted.answers = p.answers := by rw [adopt_eq_some hadopt]; exact hanswers
      exact answersAnew_servedMetadata hkept hregistered adopted.waiting
  | refresh n =>
    refine .of_eq ?_
    cases hadopt : p'.adopt entry hashes with
    | none => exact hanswers
    | some adopted =>
      rw [getD_some, adopt_eq_some hadopt]
      exact hanswers

lemma answersAnew_fail : AnswersAnew p (p'.fail dir t now) := by
  unfold Process.fail
  cases t with
  | registration =>
    cases dir.newestFor p'.config.moduleKey with
    | none => exact answersAnew_reject hanswers
    | some entry => exact answersAnew_finish hanswers
  | refresh n => exact .of_eq hanswers

end

lemma Moves.answersAnew (h : Moves p t p') : AnswersAnew p p' := by
  cases h with
  | goto h | erase h =>
    obtain ⟨_, _, _, rfl⟩ := h
    exact .of_eq rfl
  | finish h =>
    obtain ⟨_, _, _, rfl⟩ := h
    exact answersAnew_finish rfl
  | fail => exact answersAnew_fail rfl

lemma answersAnew_getMetadata : AnswersAnew p (p.getMetadata call now) := by
  unfold Process.getMetadata
  split
  · rename_i entry hregistered
    have hrefresh : (p.refreshInBackground entry now).answers = p.answers ∧
        (p.refreshInBackground entry now).registered = some entry := by
      unfold Process.refreshInBackground
      split_ifs <;> exact ⟨rfl, hregistered⟩
    exact answersAnew_servedMetadata hrefresh.1 hrefresh.2 [call]
  · split_ifs
    · intro a ha
      rcases mem_append.1 ha with hold | hnew
      · exact .inl hold
      · obtain rfl := mem_singleton.1 hnew
        exact .inr fun entry module hr => by cases hr
    · refine .of_eq ?_
      unfold Process.wait
      dsimp only
      split <;> rfl

lemma answersAnew_next {event : ProcessEvent} {r : Process × Directory} (hnext : p.next dir event = some r) :
    AnswersAnew p r.1 := by
  cases event with
  | getMetadata =>
    cases hnext
    exact answersAnew_getMetadata
  | origin | document | embeddings | policyHashes => exact (moves_of_next rfl hnext).answersAnew

end

/-! ## Every module of a deployment -/

variable {d d' : Deployment}

lemma consistent_of_reachable {ok : Deployment → DeploymentEvent → Prop} (h : deployment.Reachable ok d) {n : ℕ}
    {p : Process} (hp : d.processes.get? n = some p) : Consistent p :=
  process_invariant start_consistent (fun _ _ _ _ hp hnext => hp.next hnext) h hp

lemma isHash_of_isHashOf {moduleKey pin : String} {body : JsonTree} {classId hash : String}
    (h : IsHashOf moduleKey pin body classId hash) : isHash hash = true := by
  obtain ⟨served, hbody, hmem⟩ := h
  obtain ⟨hash', heq, hhash⟩ := hbody.hashes _ hmem
  cases heq
  exact hhash

/-- What `getMetadata` answers carries the hashes that `getPolicyHash` answers. -/
theorem agrees_metadata {p : Process} (h : Consistent p) {entry : CachedModule} (hr : p.registered = some entry) :
    Agrees p (p.metadataFor entry) := by
  intro key hkey cls hcls
  rw [metadataFor_eq h hr, classesOf_withPolicyHashes _ _ hkey] at hcls
  obtain ⟨cls, -, rfl⟩ := mem_map.1 hcls
  have hhash : ∀ h' classId hash, p.hashesFor entry = some h' → h'.get? classId = some hash → isHash hash = true := by
    intro h' classId hash hh' hget
    unfold Process.hashesFor at hh'
    split_ifs at hh'
    obtain ⟨body, -, hbody⟩ := h.sourced h' hh' classId hash hget
    exact isHash_of_isHashOf hbody
  have hown : ∀ classId, p.getPolicyHash classId = (p.hashesFor entry).bind fun h' => h'.get? classId := by
    intro classId
    unfold Process.getPolicyHash Process.hashesFor
    rw [hr]
    simp only [map_some, Option.some.injEq]
    split_ifs <;> rfl
  rw [policyHash_withHash hhash, classId?_withHash]
  unfold hashOf?
  simp only [decide_eq_true_eq]
  split_ifs
  · cases classId? cls with
    | none => rfl
    | some classId => rw [bind_some, bind_some, hown]
  · rfl

/-- The metadata and `getPolicyHash` agree on the served arrays, a hash comes from a body of the pin that checks out
and is reported at the pin only, and a module that served its pin stays with it. -/
theorem policyHashes_agree (h : deployment.Reachable (fun _ _ => True) d) {n : ℕ} {p : Process}
    (hp : d.processes.get? n = some p) :
    (∀ entry, p.registered = some entry → Agrees p (p.metadataFor entry)) ∧
      (∀ event r, p.next d.directory event = some r → ∀ a ∈ r.1.answers, a ∈ p.answers ∨
        ∀ entry module, a.result = some (entry, module) → r.1.registered = some entry ∧ Agrees r.1 module) ∧
      (∀ classId hash, p.getPolicyHash classId = some hash →
        p.AtPin ∧ ∃ body ∈ p.bodies, IsHashOf p.config.moduleKey p.config.pin body classId hash) ∧
      p.answers.Pairwise (KeepsPin p.config.pin) := by
  have hc := consistent_of_reachable h hp
  refine ⟨fun entry hr => agrees_metadata hc hr, fun event r hnext a ha => ?_, fun classId hash hget => ?_, hc.answers⟩
  · refine (answersAnew_next hnext a ha).imp_right fun hserved entry module hresult => ?_
    obtain ⟨hr, rfl⟩ := hserved entry module hresult
    exact ⟨hr, agrees_metadata (hc.next hnext) hr⟩
  · unfold Process.getPolicyHash at hget
    split_ifs at hget
    obtain ⟨h', hh', hget⟩ := bind_eq_some_iff.1 hget
    exact ⟨hc.atPin h' hh', hc.sourced h' hh' classId hash hget⟩

/-! ## A sample run -/

/-- A class entry that a served array and `analysisClasses` both have. -/
def sampleClass : JsonTree := .object [("id", .string "class"), ("name", .string "Class")]

def sampleHash : String := String.ofList (List.replicate 64 'a')

/-- The module registers from the content service, and is asked again. -/
def sampleRegistration : List DeploymentEvent :=
  [.start 0 ⟨"module", "pin"⟩, .process 0 (.getMetadata 0 0), .process 0 (.origin .registration true 0),
    .process 0 (.document .registration (some (.object [("module", .object [("name", .string "Module"),
      ("componentClasses", .array [sampleClass]), ("analysisClasses", .array [sampleClass])])])) 0),
    .process 0 (.embeddings .registration (some []) true 0),
    .process 0 (.policyHashes .registration (some (policyHashesBody "module" "pin" (Record.set ∅ "class" sampleHash)))
      true true 0),
    .process 0 (.getMetadata 1 0)]

def sampleDeployment : Deployment :=
  deployment.attempt ⟨⟨∅, ∅⟩, ∅⟩ sampleRegistration

lemma sampleDeployment_reachable : deployment.Reachable (fun _ _ => True) sampleDeployment := by
  have hinitial : deployment.Reachable (fun _ _ => True) (⟨⟨∅, ∅⟩, ∅⟩ : Deployment) := .init rfl
  exact TransitionSystem.reachable_attempt hinitial sampleRegistration

theorem sampleDeployment_agrees :
    ∃ p entry, sampleDeployment.processes.get? 0 = some p ∧ p.registered = some entry ∧
      p.getPolicyHash "class" = some sampleHash ∧ p.AtPin ∧ Agrees p (p.metadataFor entry) := by
  have hrun : (sampleDeployment.processes.get? 0).any (fun p =>
      p.registered.isSome ∧ p.getPolicyHash "class" = some sampleHash) = true := by decide +kernel
  obtain ⟨p, hp, hregistered⟩ := (any_eq_true _ _).1 hrun
  obtain ⟨hsome, hhash⟩ := of_decide_eq_true hregistered
  obtain ⟨entry, hentry⟩ := isSome_iff_exists.1 hsome
  obtain ⟨hagrees, -, hsource, -⟩ := policyHashes_agree sampleDeployment_reachable hp
  exact ⟨p, entry, hp, hentry, hhash, (hsource _ _ hhash).1, hagrees entry hentry⟩

/-- The entry of `analysisClasses` carries no hash, and `getPolicyHash` answers that of the served class. -/
theorem analysisClass_not_agrees :
    ∃ d p entry, deployment.Reachable (fun _ _ => True) d ∧ d.processes.get? 0 = some p ∧ p.registered = some entry ∧
      ∃ key ∈ allClassArrays, ∃ cls ∈ classesOf (p.metadataFor entry) key, ∃ classId, classId? cls = some classId ∧
        cls.get? "policyHash" ≠ (p.getPolicyHash classId).map JsonTree.string := by
  have hrun : (sampleDeployment.processes.get? 0).any (fun p => p.registered.any fun entry =>
      sampleClass ∈ classesOf (p.metadataFor entry) "analysisClasses" ∧
        p.getPolicyHash "class" = some sampleHash) = true := by decide +kernel
  obtain ⟨p, hp, hrun⟩ := (any_eq_true _ _).1 hrun
  obtain ⟨entry, hentry, hrun⟩ := (any_eq_true _ _).1 hrun
  obtain ⟨hcls, hhash⟩ := of_decide_eq_true hrun
  refine ⟨sampleDeployment, p, entry, sampleDeployment_reachable, hp, hentry, "analysisClasses", by decide, sampleClass,
    hcls, "class", rfl, ?_⟩
  rw [hhash]
  decide

end RemoteModule
