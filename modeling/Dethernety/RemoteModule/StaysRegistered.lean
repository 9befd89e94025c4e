import Dethernety.RemoteModule.RegistrationProgress

/-!
# A registered module stays registered

Once an entry of a module key is in the cache directory, a module of the key that starts later answers every call of
`getMetadata` with metadata of the key, whatever the content service answers: as long as an accepted document and its
embeddings can be loaded, also once they were written to the file and read again, and no entry takes the file of an
entry of another key (`registered_of_reachable`). `adopt` runs outside the fallback, and `safeName` maps different keys
to one file.
-/

open List Record Option

namespace RemoteModule

/-- An entry that a module can register from. -/
structure Usable (config : Config) (entry : CachedModule) : Prop where
  moduleKey : entry.moduleKey = config.moduleKey
  classes : countClasses entry.module ≠ 0
  loads : entry.loads = true

def AwaitsUsable (config : Config) : Awaits → Prop
  | .hashes entry => Usable config entry
  | .parts document _ _ _ => countClasses (moduleOf document) ≠ 0
  | _ => True

/-- What a process has at hand is usable. -/
structure Stays (p : Process) : Prop where
  memo : ∀ entry, p.memo = some entry → Usable p.config entry
  registered : ∀ entry, p.registered = some entry → Usable p.config entry
  served : ∀ entry module, p.served = some (entry, module) → countClasses module ≠ 0
  awaits : ∀ t a, p.threads.get? t = some a → AwaitsUsable p.config a

/-- A call got metadata of a key, with a class. -/
def Resolved (moduleKey : String) (a : Answer) : Prop :=
  ∃ entry module, a.result = some (entry, module) ∧ entry.moduleKey = moduleKey ∧ countClasses module ≠ 0

/-- No call of a process failed. -/
structure Warm (p : Process) : Prop where
  lastFailure : p.lastFailure = none
  answers : ∀ a ∈ p.answers, Resolved p.config.moduleKey a

/-- Every file has the name of its entry, whose classes and embeddings can be loaded. -/
def DirectoryOk (dir : Directory) : Prop :=
  ∀ file entry, dir.entries.get? file = some entry →
    file = fileFor entry.moduleKey entry.pin ∧ countClasses entry.module ≠ 0 ∧ entry.loads = true

/-- There is an entry of a key with a class. -/
def HasEntry (dir : Directory) (moduleKey : String) : Prop :=
  ∃ file entry, dir.entries.get? file = some entry ∧ entry.moduleKey = moduleKey ∧ countClasses entry.module ≠ 0

lemma countClasses_withPolicyHashes (module : JsonTree) (hashes : Option Hashes) :
    countClasses (withPolicyHashes module hashes) = countClasses module := by
  refine foldl_ext _ _ 0 fun n key hkey => ?_
  rw [classesOf_withPolicyHashes module hashes (mem_append_left _ hkey), length_map]

/-! ## The newest entry -/

section

/-- A round of `newestFor`. -/
def takeNewer (moduleKey : String) (newest : Option CachedModule) (e : (String × String) × CachedModule) :
    Option CachedModule :=
  if countClasses e.2.module ≠ 0 ∧ e.2.moduleKey = moduleKey ∧ newest.all (·.fetchedAt < e.2.fetchedAt) then some e.2
  else newest

variable {moduleKey : String} {l : List ((String × String) × CachedModule)}
  {newest : Option CachedModule}

lemma foldl_takeNewer_isSome
    (h : newest.isSome ∨ ∃ e ∈ l, countClasses e.2.module ≠ 0 ∧ e.2.moduleKey = moduleKey) :
    (l.foldl (takeNewer moduleKey) newest).isSome := by
  induction l generalizing newest with
  | nil =>
    rcases h with h | ⟨e, he, -⟩
    · exact h
    · cases he
  | cons e l ih =>
    refine ih ?_
    unfold takeNewer
    split_ifs with htake
    · exact .inl rfl
    · rcases h with h | ⟨e', he', hkey⟩
      · exact .inl h
      · rcases mem_cons.1 he' with rfl | he'
        · refine .inl (isSome_iff_ne_none.2 fun hnone => htake ⟨hkey.1, hkey.2, ?_⟩)
          rw [hnone]
          rfl
        · exact .inr ⟨e', he', hkey⟩

variable {entry : CachedModule}

lemma foldl_takeNewer_spec (h : l.foldl (takeNewer moduleKey) newest = some entry) :
    newest = some entry ∨ ∃ e ∈ l, e.2 = entry ∧ countClasses entry.module ≠ 0 ∧ entry.moduleKey = moduleKey := by
  induction l generalizing newest with
  | nil => exact .inl h
  | cons e l ih =>
    rcases ih h with hnewest | ⟨e', he', hspec⟩
    · unfold takeNewer at hnewest
      split_ifs at hnewest with htake
      · cases hnewest
        exact .inr ⟨e, .head _, rfl, htake.1, htake.2.1⟩
      · exact .inl hnewest
    · exact .inr ⟨e', .tail _ he', hspec⟩

variable {dir : Directory}

lemma usable_of_newestFor {config : Config} (hdir : DirectoryOk dir)
    (h : dir.newestFor config.moduleKey = some entry) : Usable config entry := by
  rcases foldl_takeNewer_spec h with h | ⟨e, he, rfl, hclasses, hkey⟩
  · cases h
  · have hget : dir.entries.get? e.1 = some e.2 := mem_entries_iff.1 (mem_of_mem_filter he)
    exact ⟨hkey, hclasses, (hdir e.1 e.2 hget).2.2⟩

lemma newestFor_isSome (hdir : DirectoryOk dir)
    (h : HasEntry dir moduleKey) : (dir.newestFor moduleKey).isSome := by
  obtain ⟨file, entry, hget, hkey, hclasses⟩ := h
  refine foldl_takeNewer_isSome (.inr ⟨(file, entry), mem_filter.2 ⟨mem_entries_iff.2 hget, ?_⟩,
    hclasses, hkey⟩)
  rw [(hdir file entry hget).1, hkey]
  exact decide_eq_true rfl

end

/-! ## Steps -/

/-- What a step of a process keeps. -/
structure Kept (p : Process) (dir : Directory) (r : Process × Directory) : Prop where
  config : r.1.config = p.config
  stays : Stays r.1
  directory : DirectoryOk r.2
  entries : ∀ moduleKey, HasEntry dir moduleKey → HasEntry r.2 moduleKey
  warm : HasEntry dir p.config.moduleKey → Warm p → Warm r.1

section

variable {p p' : Process} {dir dir' : Directory} {t : Thread} {entry : CachedModule} {hashes : Option Hashes} {now : ℕ}
  {r : Process × Directory}

lemma Kept.trans (h : Kept p dir (p', dir')) (h' : Kept p' dir' r) : Kept p dir r where
  config := h'.config.trans h.config
  stays := h'.stays
  directory := h'.directory
  entries moduleKey hentry := h'.entries moduleKey (h.entries moduleKey hentry)
  warm hentry hwarm := by
    have hconfig : p'.config = p.config := h.config
    exact h'.warm (by rw [hconfig]; exact h.entries _ hentry) (h.warm hentry hwarm)

section

variable (h : Stays p)
include h

/-- A step that leaves the entries of the directory, the registration and the answers alone. -/
lemma Stays.keep (hdir : DirectoryOk dir) (hentries : dir'.entries = dir.entries)
    (hconfig : p'.config = p.config) (hregistered : p'.registered = p.registered) (hserved : p'.served = p.served)
    (hfailure : p'.lastFailure = p.lastFailure) (hanswers : p'.answers = p.answers)
    (hmemo : ∀ entry, p'.memo = some entry → Usable p.config entry)
    (hthreads : ∀ t a, p'.threads.get? t = some a → AwaitsUsable p.config a) : Kept p dir (p', dir') where
  config := hconfig
  stays := ⟨by rw [hconfig]; exact hmemo, by rw [hconfig, hregistered]; exact h.registered,
    by rw [hserved]; exact h.served, by rw [hconfig]; exact hthreads⟩
  directory file entry hget := hdir file entry (by rwa [hentries] at hget)
  entries moduleKey := by
    rintro ⟨file, entry, hget, hrest⟩
    exact ⟨file, entry, by rw [hentries]; exact hget, hrest⟩
  warm _ hwarm := ⟨hfailure.trans hwarm.lastFailure, by rw [hconfig, hanswers]; exact hwarm.answers⟩

lemma Stays.goto {a : Awaits} (hdir : DirectoryOk dir) (ha : AwaitsUsable p.config a) :
    Kept p dir (p.goto t a, dir) := by
  refine h.keep hdir rfl rfl rfl rfl rfl rfl h.memo fun t' a' hget => ?_
  rw [Process.goto, get?_set] at hget
  split_ifs at hget
  · cases hget
    exact ha
  · exact h.awaits t' a' hget

lemma Stays.erase (hdir : DirectoryOk dir) (t : Thread) :
    Kept p dir ({ p with threads := p.threads.erase t }, dir) := by
  refine h.keep hdir rfl rfl rfl rfl rfl rfl h.memo fun t' a' hget => ?_
  rw [get?_erase] at hget
  split_ifs at hget
  exact h.awaits t' a' hget

lemma Stays.countClasses_metadataFor (hentry : Usable p.config entry) :
    countClasses (p.metadataFor entry) ≠ 0 := by
  have hbuilt : ∀ hashes, countClasses (withPolicyHashes entry.module hashes) ≠ 0 := fun hashes => by
    rw [countClasses_withPolicyHashes]
    exact hentry.classes
  unfold Process.metadataFor
  cases hserved : p.served with
  | none => exact hbuilt _
  | some served =>
    obtain ⟨other, module⟩ := served
    dsimp only
    by_cases hother : other = entry
    · rw [if_pos hother]
      exact h.served other module hserved
    · rw [if_neg hother]
      exact hbuilt _

variable (hdir : DirectoryOk dir)
include hdir

lemma Stays.servedMetadata (hentry : Usable p.config entry) (calls : List ℕ) :
    Kept p dir (p.servedMetadata entry calls, dir) where
  config := rfl
  stays := ⟨h.memo, h.registered, fun entry' module hm => by
    cases hm
    exact h.countClasses_metadataFor hentry, h.awaits⟩
  directory := hdir
  entries _ hentry := hentry
  warm _ hwarm := by
    refine ⟨hwarm.lastFailure, fun a ha => ?_⟩
    rcases mem_append.1 ha with hold | hnew
    · exact hwarm.answers a hold
    · obtain ⟨call, -, rfl⟩ := mem_map.1 hnew
      exact ⟨entry, _, rfl, hentry.moduleKey, h.countClasses_metadataFor hentry⟩

/-- A usable entry is adopted. -/
theorem Stays.adopt (hentry : Usable p.config entry)
    (hashes : Option Hashes) : ∃ p', p.adopt entry hashes = some p' ∧ p'.registered = some entry ∧
      p'.threads = p.threads ∧ Kept p dir (p', dir) := by
  refine ⟨_, if_pos hentry.loads, rfl, rfl, rfl, ⟨h.memo, fun entry' he => ?_, fun entry' module hm => ?_, h.awaits⟩,
    hdir, fun _ hentry => hentry, fun _ hwarm => ⟨hwarm.lastFailure, hwarm.answers⟩⟩
  · cases he
    exact hentry
  · cases hm

lemma Stays.finish (hentry : Usable p.config entry) :
    Kept p dir (p.finish t entry hashes now, dir) := by
  obtain ⟨p', hadopt, -, hthreads, hkept⟩ := h.adopt hdir hentry hashes
  have hconfig : p'.config = p.config := hkept.config
  have hstays : Stays p' := hkept.stays
  unfold Process.finish
  cases t with
  | registration =>
    rw [hadopt]
    have hserved := hstays.servedMetadata hdir (hconfig.symm ▸ hentry) p'.waiting
    have hstays' : Stays (p'.servedMetadata entry p'.waiting) := hserved.stays
    refine (hkept.trans hserved).trans (hstays'.keep hdir rfl rfl rfl rfl rfl rfl hstays'.memo fun t' a' hget => ?_)
    rw [get?_erase] at hget
    split_ifs at hget
    exact hstays'.awaits t' a' hget
  | refresh n =>
    rw [hadopt, getD_some, ← hthreads]
    exact hkept.trans (hstays.erase hdir (.refresh n))

lemma Stays.reject (hcold : ¬ HasEntry dir p.config.moduleKey) :
    Kept p dir (p.reject now, dir) where
  config := rfl
  stays := by
    refine ⟨h.memo, h.registered, h.served, fun t' a' hget => ?_⟩
    dsimp only [Process.reject] at hget
    rw [get?_erase] at hget
    split_ifs at hget
    exact h.awaits t' a' hget
  directory := hdir
  entries _ hentry := hentry
  warm hentry _ := absurd hentry hcold

lemma Stays.fail : Kept p dir (p.fail dir t now, dir) := by
  unfold Process.fail
  cases t with
  | registration =>
    cases hnewest : dir.newestFor p.config.moduleKey with
    | none =>
      refine h.reject hdir fun hentry => ?_
      have hsome := newestFor_isSome hdir hentry
      rw [hnewest] at hsome
      cases hsome
    | some entry => exact h.finish hdir (usable_of_newestFor hdir hnewest)
  | refresh n => exact h.erase hdir (.refresh n)

lemma Stays.usable_of_cached (hcached : p.cached dir = some entry) : Usable p.config entry := by
  unfold Process.cached at hcached
  cases hmemo : p.memo with
  | some memo =>
    rw [hmemo] at hcached
    cases hcached
    exact h.memo _ hmemo
  | none =>
    rw [hmemo] at hcached
    obtain ⟨hget, hchecked⟩ := filter_eq_some_iff.1 hcached
    simp only [Bool.and_eq_true, decide_eq_true_eq] at hchecked
    exact ⟨hchecked.1.2, hchecked.1.1, (hdir _ entry hget).2.2⟩

lemma Stays.registrationAtPin : Kept p dir (p.registrationAtPin dir t now) := by
  unfold Process.registrationAtPin
  cases hcached : p.cached dir with
  | none => exact h.goto hdir trivial
  | some entry =>
    have hentry := h.usable_of_cached hdir hcached
    -- the entry is in the memo, and a body may have been read
    have hread : ∀ bodies, Kept p dir ({ p with memo := some entry, bodies := bodies }, dir) := fun bodies =>
      h.keep hdir rfl rfl rfl rfl rfl rfl (fun other hother => by cases hother; exact hentry) h.awaits
    have hstays : ∀ bodies, Stays { p with memo := some entry, bodies := bodies } := fun bodies => (hread bodies).stays
    dsimp only
    split
    · exact (hread p.bodies).trans ((hstays p.bodies).goto hdir hentry)
    · exact (hread p.bodies).trans ((hstays p.bodies).goto hdir hentry)
    · rename_i stored _ _
      split
      · exact (hread _).trans ((hstays _).finish hdir hentry)
      · refine (hread (p.bodies ++ [stored])).trans ((hstays _).keep hdir rfl rfl rfl rfl rfl rfl (hstays _).memo ?_)
        have hgoto := (hstays (p.bodies ++ [stored])).goto (t := t) (a := .hashes entry) hdir hentry
        exact hgoto.stays.awaits

lemma Stays.onOrigin {only pinned : Bool} : Kept p dir (p.onOrigin dir t only pinned now) := by
  have hpinned : Kept p dir ({ p with portalOrigin := p.portalOrigin || pinned }, dir) :=
    h.keep hdir rfl rfl rfl rfl rfl rfl h.memo h.awaits
  have hstays : Stays { p with portalOrigin := p.portalOrigin || pinned } := hpinned.stays
  unfold Process.onOrigin
  split_ifs
  · exact hpinned.trans (hstays.erase hdir t)
  · exact hpinned.trans (hstays.registrationAtPin hdir)

lemma Stays.onDocument {answer : Option JsonTree} :
    Kept p dir (p.onDocument dir t answer now, dir) := by
  unfold Process.onDocument
  cases answer with
  | none => exact h.fail hdir
  | some document =>
    dsimp only
    split_ifs with haccepts
    · cases modelsOf document with
      | none => exact h.fail hdir
      | some models =>
        rw [acceptsDocument, Bool.and_eq_true, decide_eq_true_eq] at haccepts
        exact h.goto hdir haccepts.1
    · exact h.fail hdir

end

/-- The file of a fetched entry is free, or that of an entry of the same key. -/
def Process.storesApart (p : Process) (dir : Directory) : Bool :=
  (dir.entries.get? (fileFor p.config.moduleKey p.config.pin)).all fun entry => entry.moduleKey = p.config.moduleKey

/-- The entry that an event completes, and whether it is persisted. -/
def Process.fetched (p : Process) : ProcessEvent → Option (CachedModule × Bool)
  | .embeddings t (some embeddings) written now =>
    match p.threads.get? t with
    | some (.parts document _ none (some _)) =>
      some (⟨p.config.moduleKey, p.config.pin, now, document, embeddings⟩, written)
    | _ => none
  | .policyHashes t _ _ written now =>
    match p.threads.get? t with
    | some (.parts document _ (some embeddings) none) =>
      some (⟨p.config.moduleKey, p.config.pin, now, document, embeddings⟩, written)
    | _ => none
  | _ => none

/-- An entry can be loaded, and if it is persisted, it can be loaded as it is read again, and its file is free or that
of an entry of the same key. -/
def Process.mayAdopt (p : Process) (dir : Directory) (fetched : CachedModule × Bool) : Bool :=
  fetched.1.loads && (!fetched.2 || fetched.1.reread.loads && p.storesApart dir)

lemma countClasses_module_reread (entry : CachedModule) :
    countClasses entry.reread.module = countClasses entry.module := by
  unfold CachedModule.module moduleOf CachedModule.reread
  rw [JsonTree.get?_reread]
  cases entry.document.get? "module" with
  | none => rfl
  | some module => exact countClasses_reread module

lemma Stays.put (h : Stays p) (hdir : DirectoryOk dir) (hentry : Usable p.config entry)
    (hpin : entry.pin = p.config.pin) (hloads : entry.reread.loads = true) (hapart : p.storesApart dir = true) :
    Kept p dir ({ p with memo := some entry }, dir.put entry) := by
  have hclasses : countClasses entry.reread.module ≠ 0 := by
    rw [countClasses_module_reread]
    exact hentry.classes
  have hfile : fileFor entry.moduleKey entry.pin = fileFor p.config.moduleKey p.config.pin := by
    rw [hentry.moduleKey, hpin]
  have hkept : ∀ moduleKey, HasEntry dir moduleKey → HasEntry (dir.put entry) moduleKey := by
    rintro moduleKey ⟨file, other, hget, hkey, hother⟩
    by_cases hsame : fileFor entry.moduleKey entry.pin = file
    · -- the entry that is replaced has the key of the new one
      rw [hfile] at hsame
      rw [Process.storesApart, hsame, hget, all_some, decide_eq_true_eq] at hapart
      refine ⟨file, entry.reread, ?_, ?_, hclasses⟩
      · rw [Directory.put, get?_set, if_pos (hfile.trans hsame)]
      · exact hentry.moduleKey.trans (hapart.symm.trans hkey)
    · refine ⟨file, other, ?_, hkey, hother⟩
      rw [Directory.put, get?_set, if_neg hsame]
      exact hget
  refine ⟨rfl, ⟨fun other hother => ?_, h.registered, h.served, h.awaits⟩, fun file other hget => ?_, hkept,
    fun _ hwarm => ⟨hwarm.lastFailure, hwarm.answers⟩⟩
  · cases hother
    exact hentry
  · rw [Directory.put, get?_set] at hget
    split_ifs at hget with hsame
    · cases hget
      exact ⟨hsame.symm, hclasses, hloads⟩
    · exact hdir file other hget

lemma Stays.onFetched {document : JsonTree} {embeddings : List JsonTree} {written : Bool} (h : Stays p)
    (hdir : DirectoryOk dir) (hclasses : countClasses (moduleOf document) ≠ 0)
    (hmay : p.mayAdopt dir (⟨p.config.moduleKey, p.config.pin, now, document, embeddings⟩, written) = true) :
    Kept p dir (p.onFetched dir t document embeddings hashes written now) := by
  obtain ⟨hloads, hput⟩ := Bool.and_eq_true_iff.1 hmay
  have hentry : Usable p.config ⟨p.config.moduleKey, p.config.pin, now, document, embeddings⟩ := ⟨rfl, hclasses, hloads⟩
  unfold Process.onFetched
  split_ifs with hwritten
  · rw [hwritten] at hput
    obtain ⟨hreread, hapart⟩ := Bool.and_eq_true_iff.1 hput
    have hput := h.put hdir hentry rfl hreread hapart
    have hstays : Stays { p with memo := some ⟨p.config.moduleKey, p.config.pin, now, document, embeddings⟩ } :=
      hput.stays
    exact hput.trans (hstays.finish hput.directory hentry)
  · exact h.finish hdir hentry

lemma Stays.onHashes (h : Stays p) (hdir : DirectoryOk dir) (module : JsonTree) (answer : Option JsonTree)
    (written : Bool) :
    Kept p dir (p.onHashes dir module answer written).2 ∧
      (p.onHashes dir module answer written).2.1.threads = p.threads ∧
      (p.onHashes dir module answer written).2.2.entries = dir.entries := by
  unfold Process.onHashes
  cases answer with
  | none => exact ⟨h.keep hdir rfl rfl rfl rfl rfl rfl h.memo h.awaits, rfl, rfl⟩
  | some body =>
    dsimp only
    have hentries : ∀ b : Bool, ∀ json, (if b = true then dir.putPolicyHashes p.config.moduleKey p.config.pin json
        else dir).entries = dir.entries := fun b json => by
      unfold Directory.putPolicyHashes
      split_ifs
      · split <;> rfl
      · rfl
    split
    · exact ⟨h.keep hdir rfl rfl rfl rfl rfl rfl h.memo h.awaits, rfl, rfl⟩
    · exact ⟨h.keep hdir (hentries _ _) rfl rfl rfl rfl rfl h.memo h.awaits, rfl, hentries _ _⟩

lemma Stays.getMetadata {call : ℕ} (h : Stays p) (hdir : DirectoryOk dir) :
    Kept p dir (p.getMetadata call now, dir) := by
  unfold Process.getMetadata
  split
  · rename_i entry hregistered
    have hentry := h.registered entry hregistered
    have hrefresh : Kept p dir (p.refreshInBackground entry now, dir) := by
      unfold Process.refreshInBackground
      split_ifs
      · exact h.keep hdir rfl rfl rfl rfl rfl rfl h.memo h.awaits
      · exact h.keep hdir rfl rfl rfl rfl rfl rfl h.memo h.awaits
      · have hgoto := h.goto (t := .refresh p.refreshCount) (a := .origin (entry.pin = p.config.pin)) hdir trivial
        exact h.keep hdir rfl rfl rfl rfl rfl rfl h.memo hgoto.stays.awaits
    have hconfig : (p.refreshInBackground entry now).config = p.config := hrefresh.config
    have hstays : Stays (p.refreshInBackground entry now) := hrefresh.stays
    exact hrefresh.trans (hstays.servedMetadata hdir (hconfig.symm ▸ hentry) [call])
  · rename_i hregistered
    split_ifs with hfailed
    · -- a process that is warm had no failure
      refine ⟨rfl, ⟨h.memo, h.registered, h.served, h.awaits⟩, hdir, fun _ hentry => hentry, fun _ hwarm => ?_⟩
      rw [hwarm.lastFailure] at hfailed
      cases hfailed
    · have hwaits : Kept p dir ({ p with waiting := p.waiting ++ [call] }, dir) :=
        h.keep hdir rfl rfl rfl rfl rfl rfl h.memo h.awaits
      have hstays : Stays { p with waiting := p.waiting ++ [call] } := hwaits.stays
      unfold Process.wait
      dsimp only
      split
      · exact hwaits
      · exact hwaits.trans (hstays.goto hdir trivial)

lemma Stays.next {event : ProcessEvent} (h : Stays p) (hdir : DirectoryOk dir)
    (hmay : ∀ fetched, p.fetched event = some fetched → p.mayAdopt dir fetched = true)
    (hnext : p.next dir event = some r) : Kept p dir r := by
  cases event with simp only [Process.next] at hnext
  | getMetadata =>
    cases hnext
    exact h.getMetadata hdir
  | origin t =>
    split at hnext <;> cases hnext
    exact h.onOrigin hdir
  | document t =>
    split at hnext <;> cases hnext
    exact h.onDocument hdir
  | embeddings t answer =>
    split at hnext
    · rename_i document models hashes ha
      have hparts := h.awaits t _ ha
      cases answer with
      | none =>
        cases hnext
        exact h.fail hdir
      | some embeddings =>
        dsimp only at hnext
        split_ifs at hnext
        cases hashes with
        | some hashes =>
          cases hnext
          refine h.onFetched hdir hparts (hmay _ ?_)
          rw [Process.fetched, ha]
        | none =>
          cases hnext
          exact h.goto hdir hparts
    · cases hnext
  | policyHashes t answer hashesWritten entryWritten now =>
    split at hnext
    · rename_i entry ha
      have hentry : Usable p.config entry := h.awaits t _ ha
      obtain ⟨hread, _, _⟩ := h.onHashes hdir entry.module answer hashesWritten
      have hconfig := hread.config
      cases hnext
      exact hread.trans (hread.stays.finish hread.directory (hconfig.symm ▸ hentry))
    · rename_i document models embeddings ha
      have hparts := h.awaits t _ ha
      obtain ⟨hread, _, hentries⟩ := h.onHashes hdir (moduleOf document) answer hashesWritten
      cases embeddings with
      | some embeddings =>
        cases hnext
        refine hread.trans (hread.stays.onFetched hread.directory hparts ?_)
        rw [Process.mayAdopt, Process.storesApart, hread.config, hentries]
        refine hmay (_, entryWritten) ?_
        rw [Process.fetched, ha]
      | none =>
        cases hnext
        exact hread.trans (hread.stays.goto hread.directory hparts)
    · cases hnext

end

/-! ## Whole runs -/

/-- A deployment, the module keys of which an entry with a class was stored so far, and the processes that started
after an entry of their key was stored. -/
structure Watched where
  deployment : Deployment
  stored : List String
  warm : List ℕ

def Directory.storedKeys (dir : Directory) : List String :=
  (dir.entries.entries.filter fun e => countClasses e.2.module ≠ 0).map fun e => e.2.moduleKey

def Watched.next (w : Watched) (event : DeploymentEvent) : Option Watched :=
  (w.deployment.next event).map fun d =>
    { deployment := d
      stored := w.stored ++ d.directory.storedKeys
      warm :=
        match event with
        | .start n config => if config.moduleKey ∈ w.stored then w.warm ++ [n] else w.warm
        | _ => w.warm }

def watched : TransitionSystem Watched DeploymentEvent where
  init w := w = ⟨⟨⟨∅, ∅⟩, ∅⟩, [], []⟩
  next := Watched.next

/-- What is fetched can be loaded, and loaded again, and no entry takes the file of an entry of another module key. -/
def loadsAndStoresApart (w : Watched) : DeploymentEvent → Bool
  | .process n event =>
    (w.deployment.processes.get? n).all fun p => (p.fetched event).all (p.mayAdopt w.deployment.directory)
  | _ => true

variable {w w' : Watched}

lemma mem_storedKeys {dir : Directory} {moduleKey : String} :
    moduleKey ∈ dir.storedKeys ↔ HasEntry dir moduleKey := by
  unfold Directory.storedKeys HasEntry
  simp only [List.mem_map, mem_filter, decide_eq_true_eq]
  constructor
  · rintro ⟨e, ⟨he, hclasses⟩, hkey⟩
    exact ⟨e.1, e.2, mem_entries_iff.1 he, hkey, hclasses⟩
  · rintro ⟨file, entry, hget, hkey, hclasses⟩
    exact ⟨(file, entry), ⟨mem_entries_iff.2 hget, hclasses⟩, hkey⟩

/-- What holds of every state of a run. -/
structure Durable (w : Watched) : Prop where
  directory : DirectoryOk w.deployment.directory
  stays : ∀ n p, w.deployment.processes.get? n = some p → Stays p
  stored : ∀ moduleKey ∈ w.stored, HasEntry w.deployment.directory moduleKey
  known : ∀ n ∈ w.warm, n ∈ w.deployment.processes.keys
  warm : ∀ n ∈ w.warm, ∀ p, w.deployment.processes.get? n = some p → p.config.moduleKey ∈ w.stored ∧ Warm p

lemma Durable.start {n : ℕ} {config : Config} (h : Durable w)
    (hnext : w.next (.start n config) = some w') : Durable w' := by
  obtain ⟨d, hd, rfl⟩ := map_eq_some_iff.1 hnext
  simp only [Deployment.next] at hd
  split_ifs at hd with hknown
  cases hd
  -- another process than the one that starts
  have hother : ∀ m ∈ w.warm, m ≠ n := fun m hm hmn => hknown (hmn ▸ h.known m hm)
  refine ⟨h.directory, fun m p hp => ?_, fun moduleKey hkey => ?_, fun m hm => ?_, fun m hm p hp => ?_⟩
  · rw [get?_set] at hp
    split_ifs at hp
    · cases hp
      exact ⟨fun _ h => (by cases h), fun _ h => (by cases h), fun _ _ h => (by cases h), fun _ _ h => (by cases h)⟩
    · exact h.stays m p hp
  · rcases mem_append.1 hkey with hold | hnew
    · exact h.stored moduleKey hold
    · exact mem_storedKeys.1 hnew
  · dsimp only at hm ⊢
    rw [mem_keys_set]
    split_ifs at hm
    · rcases mem_append.1 hm with hold | hnew
      · exact .inr (h.known m hold)
      · exact .inl (mem_singleton.1 hnew)
    · exact .inr (h.known m hm)
  · dsimp only at hm hp ⊢
    have hold : m ∈ w.warm → p.config.moduleKey ∈ w.stored ++ w.deployment.directory.storedKeys ∧ Warm p := fun hm => by
      rw [get?_set, if_neg (hother m hm).symm] at hp
      exact ⟨mem_append_left _ (h.warm m hm p hp).1, (h.warm m hm p hp).2⟩
    split_ifs at hm with hstored
    · rcases mem_append.1 hm with hm | hnew
      · exact hold hm
      · obtain rfl := mem_singleton.1 hnew
        rw [get?_set, if_pos rfl] at hp
        cases hp
        exact ⟨mem_append_left _ hstored, rfl, fun a ha => (by cases ha)⟩
    · exact hold hm

lemma Durable.process {n : ℕ} {event : ProcessEvent} (h : Durable w)
    (hok : loadsAndStoresApart w (.process n event) = true) (hnext : w.next (.process n event) = some w') :
    Durable w' := by
  obtain ⟨d, hd, rfl⟩ := map_eq_some_iff.1 hnext
  obtain ⟨p, hp, hd⟩ := bind_eq_some_iff.1 hd
  obtain ⟨r, hr, rfl⟩ := map_eq_some_iff.1 hd
  rw [loadsAndStoresApart, hp, all_some] at hok
  have hkept : Kept p w.deployment.directory r := by
    refine (h.stays n p hp).next h.directory (fun fetched hfetched => ?_) hr
    rwa [hfetched, all_some] at hok
  have hstored : ∀ moduleKey ∈ w.stored, HasEntry r.2 moduleKey := fun moduleKey hkey =>
    hkept.entries moduleKey (h.stored moduleKey hkey)
  refine ⟨hkept.directory, fun m q hq => ?_, fun moduleKey hkey => ?_, fun m hm => ?_, fun m hm q hq => ?_⟩
  · rw [get?_set] at hq
    split_ifs at hq
    · cases hq
      exact hkept.stays
    · exact h.stays m q hq
  · rcases mem_append.1 hkey with hold | hnew
    · exact hstored moduleKey hold
    · exact mem_storedKeys.1 hnew
  · exact mem_keys_set.2 (.inr (h.known m hm))
  · rw [get?_set] at hq
    split_ifs at hq with hmn
    · cases hq
      subst hmn
      obtain ⟨hkey, hwarm⟩ := h.warm n hm p hp
      rw [hkept.config]
      exact ⟨mem_append_left _ hkey, hkept.warm (h.stored _ hkey) hwarm⟩
    · obtain ⟨hkey, hwarm⟩ := h.warm m hm q hq
      exact ⟨mem_append_left _ hkey, hwarm⟩

lemma durable_of_reachable (h : watched.Reachable (fun w e => loadsAndStoresApart w e = true) w) : Durable w := by
  refine h.invariant (P := Durable) (fun w hw => ?_) fun w event w' hw hok hnext => ?_
  · have hinitial : w = ⟨⟨⟨∅, ∅⟩, ∅⟩, [], []⟩ := hw
    rw [hinitial]
    exact ⟨fun _ _ h => (by cases h), fun _ _ h => (by cases h), fun _ h => (by cases h), fun _ h => (by cases h),
      fun _ h => (by cases h)⟩
  · cases event with
    | start n config => exact hw.start hnext
    | process n event => exact hw.process hok hnext
    | hashesFile file body =>
      have hnext : w.next (.hashesFile file body) = some w' := hnext
      obtain ⟨d, hd, rfl⟩ := map_eq_some_iff.1 hnext
      cases hd
      refine ⟨hw.directory, hw.stays, fun moduleKey hkey => ?_, hw.known, fun n hn p hp => ?_⟩
      · rcases mem_append.1 hkey with hold | hnew
        · exact hw.stored moduleKey hold
        · exact mem_storedKeys.1 hnew
      · exact ⟨mem_append_left _ (hw.warm n hn p hp).1, (hw.warm n hn p hp).2⟩

lemma deployment_of_watched {ok : Watched → DeploymentEvent → Prop} (h : watched.Reachable ok w) :
    deployment.Reachable (fun _ _ => True) w.deployment := by
  refine h.invariant (P := fun w => deployment.Reachable (fun _ _ => True) w.deployment) (fun w hw => ?_)
    fun w event w' hw _ hnext => ?_
  · have hinitial : w = ⟨⟨⟨∅, ∅⟩, ∅⟩, [], []⟩ := hw
    rw [hinitial]
    exact .init rfl
  · obtain ⟨d, hd, rfl⟩ := map_eq_some_iff.1 hnext
    exact hw.step trivial hd

/-- A module that starts after an entry of its key was stored answers with metadata of the key; a call is answered, or
waits for a registration; and the registration comes to an end with any answers, which other steps leave alone. -/
theorem registered_of_reachable (h : watched.Reachable (fun w e => loadsAndStoresApart w e = true) w) {n : ℕ}
    {p : Process} (hn : n ∈ w.warm) (hp : w.deployment.processes.get? n = some p) :
    (∀ a ∈ p.answers, Resolved p.config.moduleKey a) ∧
      (∀ call now, (∃ result, ⟨call, result⟩ ∈ (p.getMetadata call now).answers) ∨
        call ∈ (p.getMetadata call now).waiting) ∧
      (p.waiting ≠ [] → ∃ a, p.threads.get? .registration = some a) ∧
      ∀ a, p.threads.get? .registration = some a →
        (∀ event, event.isAnswer .registration a = true →
          ∃ r, p.next w.deployment.directory event = some r ∧ Progress (remaining a) p r.1) ∧
        ∀ event r, p.next w.deployment.directory event = some r → event.thread? ≠ some .registration →
          r.1.threads.get? .registration = some a ∧ p.waiting ⊆ r.1.waiting := by
  have hwaits := waits_of_reachable (deployment_of_watched h) hp
  refine ⟨((durable_of_reachable h).warm n hn p hp).2.answers, fun call now => answered_or_waits p call now,
    hwaits.waiting, fun a ha => ⟨fun event hanswer => progress_next _ ha (hwaits.goesOn a ha) hanswer, ?_⟩⟩
  intro event r hnext hother
  exact keeps_registration hnext hother ha

/-! ## Sample runs -/

/-- A document with a class, and embeddings for one model or for none. -/
def documentWith (models : List JsonTree) : JsonTree :=
  .object [("module", .object [("name", .string "Module"), ("componentClasses", .array [.object []])]),
    ("embeddings", .object [("models", .array models)])]

/-- A module registers at one pin, and one of the same key starts at another. -/
def secondPin : List DeploymentEvent :=
  [.start 0 ⟨"module", "one"⟩, .process 0 (.getMetadata 0 0), .process 0 (.origin .registration true 0),
    .process 0 (.document .registration (some (documentWith [])) 0),
    .process 0 (.embeddings .registration (some []) true 0),
    .process 0 (.policyHashes .registration none true true 0),
    .start 1 ⟨"module", "two"⟩, .process 1 (.getMetadata 0 0), .process 1 (.origin .registration false 0)]

/-- The second pin is not there. -/
theorem offline_registered :
    ∃ w p, watched.run loadsAndStoresApart ⟨⟨⟨∅, ∅⟩, ∅⟩, [], []⟩
        (secondPin ++ [.process 1 (.document .registration none 0)]) = some w ∧
      w.deployment.processes.get? 1 = some p ∧ p.answers.length = 1 ∧
      p.answers.head?.any (fun a => a.result.any fun r => r.1.pin = "one") = true ∧
      ∃ a, p.answers = [a] ∧ Resolved "module" a := by
  have hrun : (watched.run loadsAndStoresApart ⟨⟨⟨∅, ∅⟩, ∅⟩, [], []⟩
      (secondPin ++ [.process 1 (.document .registration none 0)])).any (fun w => 1 ∈ w.warm ∧
        (w.deployment.processes.get? 1).any fun p => p.config.moduleKey = "module" ∧ p.answers.length = 1 ∧
          p.answers.head?.any (fun a => a.result.any fun r => r.1.pin = "one") = true) = true := by decide +kernel
  obtain ⟨w, hw, hdone⟩ := (any_eq_true _ _).1 hrun
  obtain ⟨hwarm, hdone⟩ := of_decide_eq_true hdone
  obtain ⟨p, hp, hdone⟩ := (any_eq_true _ _).1 hdone
  obtain ⟨hkey, hlength, hhead⟩ := of_decide_eq_true hdone
  have hinitial : watched.Reachable (fun w e => loadsAndStoresApart w e = true) ⟨⟨⟨∅, ∅⟩, ∅⟩, [], []⟩ := .init rfl
  obtain ⟨hresolved, -⟩ := registered_of_reachable
    (TransitionSystem.reachable_of_run (fun _ _ h => h) hinitial hw) hwarm hp
  obtain ⟨a, ha⟩ := length_eq_one_iff.1 hlength
  refine ⟨w, p, hw, hp, hlength, hhead, a, ha, ?_⟩
  rw [← hkey]
  exact hresolved a (by rw [ha]; exact mem_singleton_self a)

/-- The embeddings of the second pin are `null`: the entry is persisted, and `adopt` throws. -/
theorem nullEmbeddings_rejected :
    ∃ w n p a, watched.Reachable (fun _ _ => True) w ∧ n ∈ w.warm ∧ w.deployment.processes.get? n = some p ∧
      a ∈ p.answers ∧ ¬ Resolved p.config.moduleKey a := by
  have hrun : (watched.run (fun _ _ => true) ⟨⟨⟨∅, ∅⟩, ∅⟩, [], []⟩
      (secondPin ++ [.process 1 (.document .registration (some (documentWith [.string "model"])) 0),
        .process 1 (.embeddings .registration (some [.null]) true 0),
        .process 1 (.policyHashes .registration none true true 0)])).any (fun w => 1 ∈ w.warm ∧
        (w.deployment.processes.get? 1).any fun p => p.answers.any fun a => a.result.isNone) = true := by
    decide +kernel
  obtain ⟨w, hw, hdone⟩ := (any_eq_true _ _).1 hrun
  obtain ⟨hwarm, hdone⟩ := of_decide_eq_true hdone
  obtain ⟨p, hp, hdone⟩ := (any_eq_true _ _).1 hdone
  obtain ⟨a, ha, hnone⟩ := any_eq_true.1 hdone
  have hinitial : watched.Reachable (fun _ _ => True) ⟨⟨⟨∅, ∅⟩, ∅⟩, [], []⟩ := .init rfl
  refine ⟨w, 1, p, a, TransitionSystem.reachable_of_run (fun _ _ _ => trivial) hinitial hw, hwarm, hp, ha, ?_⟩
  rintro ⟨entry, module, hresult, -⟩
  rw [hresult] at hnone
  cases hnone

end RemoteModule
