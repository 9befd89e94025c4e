import Mathlib.Data.List.Range
import Dethernety.FileModule.RegoEngine

/-!
# Who frees the engines of the policies

The registry over the heap of the WASM engines, which nobody else frees, with the answer of `addPolicy` left open at
each call. However `register`, `evaluate`, `prune` and `dispose` follow on each other, the claims on packages are the
inverse of the registrations, and every engine is either registered or freed, once (`owns_after`). `register` and
`prune` do with the registrations what they do in `FileModule.RegoEngine` (`Shows.register`, `Shows.prune`).
-/

open List Record

namespace FileModule.EngineHeap

/-- A policy that is registered, with the engine that was created for it. -/
structure Registration (Hash : Type) where
  engine : ℕ
  packagePath : Text
  sourceHash : Hash

/-- The registry and the heap: how many engines have been created, and the ones that were freed, the last one first. -/
structure RegoEngine (Hash : Type) where
  registrations : Record Text (Registration Hash)
  owners : Record Text Text
  disposed : Bool
  created : ℕ
  freed : List ℕ

inductive Refusal
  | disposed
  | emptyKey
  | noPackage
  | notSelfContained
  | notParsed
  | packageTaken (packagePath owner : Text)
  | invalidRule
  | notRegistered
  | notSerialisable

def isRuleName : Text → Bool
  | [] => false
  | c :: rest => (c.isAlpha || c = '_') && rest.all fun c => c.isAlphanum || c = '_'

inductive Call
  | register (key source : Text) (answer : Option Text)
  | evaluate (key rule : Text) (inputJson : Option Text)
  | prune (keepKeys : List Text)
  | dispose

variable {Hash : Type}

namespace RegoEngine

def empty : RegoEngine Hash := ⟨∅, ∅, false, 0, []⟩

/-- The engines of the registrations. -/
def registeredEngines (s : RegoEngine Hash) : List ℕ :=
  s.registrations.entries.map (·.2.engine)

/-- `engine.free()` -/
def free (s : RegoEngine Hash) (engine : ℕ) : RegoEngine Hash :=
  { s with freed := engine :: s.freed }

/-- `compile`, where `addPolicy` answers the path of the package, or throws. -/
def compile (s : RegoEngine Hash) (source : Text) (answer : Option Text) :
    Except Refusal (ℕ × Text) × RegoEngine Hash :=
  match extractPackage source with
  | none => (.error .noPackage, s)
  | some packageName =>
    if hasIsolationViolations source packageName then (.error .notSelfContained, s)
    else
      let engine := s.created
      let s := { s with created := engine + 1 }
      match answer with
      | none => (.error .notParsed, s.free engine)
      | some packagePath => (.ok (engine, packagePath), s)

/-- The new engine takes the place of the one that is registered under the key. -/
def replace (s : RegoEngine Hash) (key : Text) (registration : Registration Hash) : RegoEngine Hash :=
  let s := match s.registrations.get? key with
    | none => s
    | some existing => ({ s with owners := s.owners.erase existing.packagePath }).free existing.engine
  { s with
    registrations := s.registrations.set key registration
    owners := s.owners.set registration.packagePath key }

def register [DecidableEq Hash] (sha256 : Text → Hash) (s : RegoEngine Hash) (key source : Text)
    (answer : Option Text) : Except Refusal Text × RegoEngine Hash :=
  if s.disposed then (.error .disposed, s)
  else if key = [] then (.error .emptyKey, s)
  else
    match (s.registrations.get? key).filter (·.sourceHash = sha256 source) with
    | some existing => (.ok existing.packagePath, s)
    | none =>
      match s.compile source answer with
      | (.error e, s) => (.error e, s)
      | (.ok (engine, packagePath), s) =>
        let owner := (s.owners.get? packagePath).getD key
        if owner ≠ key then (.error (.packageTaken packagePath owner), s.free engine)
        else (.ok packagePath, s.replace key ⟨engine, packagePath, sha256 source⟩)

/-- `evaluate`: the engine that is asked, and the query. -/
def evaluate (s : RegoEngine Hash) (key rule : Text) (inputJson : Option Text) : Except Refusal (ℕ × Text) :=
  if s.disposed then .error .disposed
  else if !isRuleName rule then .error .invalidRule
  else
    match s.registrations.get? key, inputJson with
    | none, _ => .error .notRegistered
    | some _, none => .error .notSerialisable
    | some registration, some _ => .ok (registration.engine, registration.packagePath ++ '.' :: rule)

/-- What `prune` does with a key that is not kept. -/
def drop (s : RegoEngine Hash) (entry : Text × Registration Hash) : RegoEngine Hash :=
  { s.free entry.2.engine with
    registrations := s.registrations.erase entry.1
    owners := s.owners.erase entry.2.packagePath }

def prune (s : RegoEngine Hash) (keepKeys : List Text) : Except Refusal ℕ × RegoEngine Hash :=
  if s.disposed then (.error .disposed, s)
  else
    let gone := s.registrations.entries.filter (!keepKeys.contains ·.1)
    (.ok gone.length, gone.foldl drop s)

def dispose (s : RegoEngine Hash) : RegoEngine Hash :=
  if s.disposed then s
  else
    { s with
      registrations := ∅
      owners := ∅
      disposed := true
      freed := s.registeredEngines.reverse ++ s.freed }

/-- What a call leaves; an evaluation only looks. -/
def next [DecidableEq Hash] (sha256 : Text → Hash) (s : RegoEngine Hash) : Call → RegoEngine Hash
  | .register key source answer => (s.register sha256 key source answer).2
  | .evaluate _ _ _ => s
  | .prune keepKeys => (s.prune keepKeys).2
  | .dispose => s.dispose

end RegoEngine

/-- What a sequence of calls leaves. -/
def after [DecidableEq Hash] (sha256 : Text → Hash) (calls : List Call) : RegoEngine Hash :=
  calls.foldl (RegoEngine.next sha256) .empty

/-- The claims are the inverse of the registrations, and the engines that were created are the freed and the registered
ones, each once. -/
structure Owns (s : RegoEngine Hash) : Prop where
  owner_iff : ∀ path key, s.owners.get? path = some key ↔
    (s.registrations.get? key).map Registration.packagePath = some path
  engines : (s.freed ++ s.registeredEngines).Perm (List.range s.created)

variable {s : RegoEngine Hash} {key path : Text} {r : Registration Hash}

lemma perm_created {l : List ℕ} {n : ℕ} (h : l.Perm (List.range n)) : (n :: l).Perm (List.range (n + 1)) := by
  rw [range_succ]
  exact (h.cons n).trans (perm_append_singleton n _).symm

lemma engines_perm_of_get? (hr : s.registrations.get? key = some r) :
    (s.freed ++ s.registeredEngines).Perm
      (r.engine :: (s.freed ++ (s.registrations.erase key).entries.map (·.2.engine))) :=
  (((perm_erase hr).map _).append_left _).trans perm_middle

lemma Owns.discard (h : Owns s) : Owns ({ s with created := s.created + 1 }.free s.created) :=
  ⟨h.owner_iff, perm_created h.engines⟩

lemma Owns.drop (h : Owns s) (hr : s.registrations.get? key = some r) : Owns (s.drop (key, r)) := by
  refine ⟨fun path key' => ?_, (engines_perm_of_get? hr).symm.trans h.engines⟩
  have := h.owner_iff path key'
  have := h.owner_iff path key
  simp only [RegoEngine.drop, get?_erase]
  grind

lemma Owns.replace {sourceHash : Hash} (h : Owns s) (hpath : (s.owners.get? path).getD key = key) :
    Owns ({ s with created := s.created + 1 }.replace key ⟨s.created, path, sourceHash⟩) := by
  unfold RegoEngine.replace
  cases hkey : s.registrations.get? key with
  | none =>
    refine ⟨fun path' key' => ?_, ?_⟩
    · have := h.owner_iff path' key'
      simp only [get?_set]
      grind
    · have hentries := entries_set_of_notMem (v := ⟨s.created, path, sourceHash⟩) (notMem_keys_iff.2 hkey)
      simp only [RegoEngine.registeredEngines, hentries, map_append, ← append_assoc]
      exact (perm_append_singleton _ _).trans (perm_created h.engines)
  | some existing =>
    refine ⟨fun path' key' => ?_, ?_⟩
    · have := h.owner_iff path' key'
      have := h.owner_iff path' key
      simp only [get?_set, RegoEngine.free, get?_erase]
      grind
    · refine (((s.registrations.perm_set key _).map _).append_left _).trans (perm_middle.trans (perm_created ?_))
      exact (engines_perm_of_get? hkey).symm.trans h.engines

section

variable [DecidableEq Hash] {sha256 : Text → Hash}

lemma Owns.register (h : Owns s) (source : Text) (answer : Option Text) :
    Owns (s.register sha256 key source answer).2 ∧ ∀ e, (s.register sha256 key source answer).1 = .error e →
      (s.register sha256 key source answer).2.registrations = s.registrations ∧
        (s.register sha256 key source answer).2.owners = s.owners := by
  unfold RegoEngine.register RegoEngine.compile
  split_ifs
  · exact ⟨h, fun _ _ => ⟨rfl, rfl⟩⟩
  · exact ⟨h, fun _ _ => ⟨rfl, rfl⟩⟩
  cases (s.registrations.get? key).filter (·.sourceHash = sha256 source) with
  | some existing => exact ⟨h, fun _ _ => ⟨rfl, rfl⟩⟩
  | none =>
    cases extractPackage source with
    | none => exact ⟨h, fun _ _ => ⟨rfl, rfl⟩⟩
    | some packageName =>
      dsimp only
      split_ifs
      · exact ⟨h, fun _ _ => ⟨rfl, rfl⟩⟩
      cases answer with
      | none => exact ⟨h.discard, fun _ _ => ⟨rfl, rfl⟩⟩
      | some path =>
        dsimp only
        split_ifs with hpath
        · exact ⟨h.discard, fun _ _ => ⟨rfl, rfl⟩⟩
        · exact ⟨h.replace (not_not.1 hpath), fun _ he => by cases he⟩

omit [DecidableEq Hash] in
lemma Owns.foldl_drop {l : List (Text × Registration Hash)} (hl : (l.map Prod.fst).Nodup) (h : Owns s)
    (hmem : ∀ entry ∈ l, s.registrations.get? entry.1 = some entry.2) : Owns (l.foldl RegoEngine.drop s) := by
  induction l generalizing s with
  | nil => exact h
  | cons entry l ih =>
    obtain ⟨hentry, hl⟩ := nodup_cons.1 hl
    refine ih hl (h.drop (hmem _ (.head _))) fun other hother => ?_
    have hne : entry.1 ≠ other.1 := fun heq => hentry (heq ▸ mem_map_of_mem hother)
    exact (get?_erase ..).trans ((if_neg hne).trans (hmem other (.tail _ hother)))

lemma Owns.next (h : Owns s) (call : Call) : Owns (s.next sha256 call) := by
  cases call with
  | register key source answer => exact (h.register source answer).1
  | evaluate => exact h
  | prune keepKeys =>
    show Owns (s.prune keepKeys).2
    unfold RegoEngine.prune
    split_ifs
    · exact h
    · refine h.foldl_drop (s.registrations.nodup_keys.sublist (filter_sublist.map _)) fun entry hentry => ?_
      exact mem_entries_iff.1 (mem_of_mem_filter hentry)
  | dispose =>
    show Owns s.dispose
    unfold RegoEngine.dispose
    split_ifs
    · exact h
    · refine ⟨fun path key => by simp [get?_empty], ?_⟩
      refine (List.Perm.of_eq (append_nil _)).trans (List.Perm.trans ?_ h.engines)
      exact ((reverse_perm _).append_right _).trans perm_append_comm

/-- After every sequence of calls the registry owns its engines, an evaluation asks one that is not freed, and a
registration that throws changes neither the registrations nor the claims. -/
theorem owns_after (calls : List Call) : Owns (after sha256 calls) ∧
    (∀ key rule inputJson engine query, (after sha256 calls).evaluate key rule inputJson = .ok (engine, query) →
      engine ∉ (after sha256 calls).freed) ∧
    ∀ key source answer e, ((after sha256 calls).register sha256 key source answer).1 = .error e →
      ((after sha256 calls).register sha256 key source answer).2.registrations = (after sha256 calls).registrations ∧
        ((after sha256 calls).register sha256 key source answer).2.owners = (after sha256 calls).owners := by
  have hall : Owns (after sha256 calls) :=
    List.foldlRecOn calls _ ⟨fun _ _ => by simp [RegoEngine.empty, get?_empty], .refl _⟩
      fun s h call _ => h.next call
  refine ⟨hall, fun key rule inputJson engine query hquery => ?_,
    fun key source answer => (hall.register source answer).2⟩
  unfold RegoEngine.evaluate at hquery
  split_ifs at hquery
  split at hquery
  · cases hquery
  · cases hquery
  · rename_i hr
    cases hquery
    have hnodup := hall.engines.nodup_iff.2 nodup_range
    exact fun hfreed => (nodup_append.1 hnodup).2.2 _ hfreed _
      (mem_map_of_mem (mem_entries_iff.2 hr)) rfl

/-! ## The registry without its engines -/

/-- What the registry of `FileModule.RegoEngine` has under a key, this one has under the text of the key, where
different keys have different texts. -/
structure Shows (text : Key → Text) (s : RegoEngine Hash) (engine : FileModule.RegoEngine Hash) : Prop where
  disposed : s.disposed = false
  registered : ∀ key, (s.registrations.get? (text key)).map (fun r => (r.packagePath, r.sourceHash)) =
    (engine.registrations.get? key).map fun r => (r.packagePath, r.sourceHash)
  keys : ∀ k ∈ s.registrations.keys, ∃ key, text key = k

variable {rt : Runtime Hash} {text : Key → Text} {engine : FileModule.RegoEngine Hash} {key : Key} {source : Text}

omit [DecidableEq Hash] in
lemma Shows.owner (h : Shows text s engine) (hs : Owns s) (he : Consistent rt engine) (path : Text) :
    s.owners.get? path = (engine.owners.get? path).map text := by
  refine Option.ext fun k => ?_
  rw [hs.owner_iff, Option.map_eq_some_iff, Option.map_eq_some_iff]
  constructor
  · rintro ⟨r, hr, rfl⟩
    obtain ⟨key, rfl⟩ := h.keys k (mem_keys_of_get? hr)
    obtain ⟨r', hr', heq⟩ := Option.map_eq_some_iff.1 ((h.registered key).symm.trans (congrArg _ hr))
    exact ⟨key, (he.owner_iff _ _).2 ⟨r', hr', congrArg Prod.fst heq⟩, rfl⟩
  · rintro ⟨key, howner, rfl⟩
    obtain ⟨r', hr', rfl⟩ := (he.owner_iff _ _).1 howner
    obtain ⟨r, hr, heq⟩ := Option.map_eq_some_iff.1 ((h.registered key).trans (congrArg _ hr'))
    exact ⟨r, hr, congrArg Prod.fst heq⟩

omit [DecidableEq Hash] in
lemma Shows.replace (htext : Function.Injective text) (h : Shows text s engine) (n : ℕ) :
    Shows text (s.replace (text key) ⟨n, path, rt.sha256 source⟩) (engine.replace rt key source path) := by
  have hstate : (s.replace (text key) ⟨n, path, rt.sha256 source⟩).disposed = s.disposed ∧
      (s.replace (text key) ⟨n, path, rt.sha256 source⟩).registrations =
        s.registrations.set (text key) ⟨n, path, rt.sha256 source⟩ := by
    unfold RegoEngine.replace
    cases s.registrations.get? (text key) <;> exact ⟨rfl, rfl⟩
  refine ⟨hstate.1.trans h.disposed, fun other => ?_, fun k hk => ?_⟩
  · rw [hstate.2, get?_set, get?_registrations_replace]
    simp only [htext.eq_iff]
    split_ifs
    · rfl
    · exact h.registered other
  · rw [hstate.2, mem_keys_set] at hk
    exact hk.elim (fun hk => ⟨key, hk.symm⟩) (h.keys k)

/-- A registration does in the registry without engines what it does here. -/
theorem Shows.register (htext : Function.Injective text) (hne : text key ≠ []) (h : Shows text s engine)
    (hs : Owns s) (he : Consistent rt engine) :
    match engine.register rt key source with
    | .ok engine' => ∃ path s', s.register rt.sha256 (text key) source (rt.addPolicy key source) = (.ok path, s') ∧
        Shows text s' engine'
    | .error _ => ∃ e s', s.register rt.sha256 (text key) source (rt.addPolicy key source) = (.error e, s') ∧
        Shows text s' engine := by
  have hcreated : Shows text { s with created := s.created + 1 } engine := ⟨h.disposed, h.registered, h.keys⟩
  have hsame := congrArg (Option.any (·.2 = rt.sha256 source)) (h.registered key)
  simp only [Option.any_map] at hsame
  unfold RegoEngine.register FileModule.RegoEngine.register RegoEngine.compile FileModule.compile
  rw [if_neg (show ¬s.disposed by simp [h.disposed]), if_neg hne, ← hsame, ← Option.isSome_filter]
  cases (s.registrations.get? (text key)).filter (·.sourceHash = rt.sha256 source) with
  | some existing => exact ⟨_, _, rfl, h⟩
  | none =>
    cases extractPackage source with
    | none => exact ⟨_, _, rfl, h⟩
    | some packageName =>
      simp only [Option.isSome_none, Bool.false_eq_true, if_false]
      split_ifs
      · exact ⟨_, _, rfl, h⟩
      cases rt.addPolicy key source with
      | none => exact ⟨_, _, rfl, h.disposed, h.registered, h.keys⟩
      | some path =>
        dsimp only
        rw [h.owner hs he]
        cases engine.owners.get? path with
        | none => exact ⟨_, _, if_neg (not_not.2 rfl), hcreated.replace htext _⟩
        | some owner =>
          dsimp only
          by_cases howner : owner = key
          · rw [if_neg (not_not.2 howner)]
            exact ⟨_, _, if_neg (not_not.2 (congrArg text howner)), hcreated.replace htext _⟩
          · rw [if_pos howner]
            exact ⟨_, _, if_pos (htext.ne howner), h.disposed, h.registered, h.keys⟩

omit [DecidableEq Hash] in
lemma foldl_drop (l : List (Text × Registration Hash)) (s : RegoEngine Hash) :
    (l.foldl RegoEngine.drop s).disposed = s.disposed ∧
      (l.foldl RegoEngine.drop s).registrations = l.foldl (fun r e => r.erase e.1) s.registrations := by
  induction l generalizing s with
  | nil => exact ⟨rfl, rfl⟩
  | cons e l ih => exact ih _

omit [DecidableEq Hash] in
/-- Pruning does so too. -/
theorem Shows.prune (htext : Function.Injective text) (h : Shows text s engine) (keepKeys : List Key) :
    Shows text (s.prune (keepKeys.map text)).2 (engine.prune keepKeys) := by
  unfold RegoEngine.prune
  rw [if_neg (by simp [h.disposed])]
  obtain ⟨hdisposed, hregistrations⟩ :=
    foldl_drop (s.registrations.entries.filter (!(keepKeys.map text).contains ·.1)) s
  have hkept (k : Text) : (foldl RegoEngine.drop s
      (s.registrations.entries.filter (!(keepKeys.map text).contains ·.1))).registrations.get? k =
        if k ∈ keepKeys.map text then s.registrations.get? k else none := by
    rw [hregistrations, get?_foldl_erase Prod.fst]
    cases hr : s.registrations.get? k with
    | none => simp
    | some r =>
      have hgone : k ∈ (s.registrations.entries.filter (!(keepKeys.map text).contains ·.1)).map Prod.fst ↔
          k ∉ keepKeys.map text := by
        simp [mem_entries_iff, hr]
      simp only [hgone, ite_not]
  refine ⟨hdisposed.trans h.disposed, fun key => ?_, fun k hk => ?_⟩
  · rw [hkept, get?_registrations_prune]
    simp only [mem_map_of_injective htext]
    split_ifs
    · exact h.registered key
    · rfl
  · rw [mem_keys_iff, hkept] at hk
    split_ifs at hk
    · exact h.keys k (mem_keys_iff.2 hk)
    · cases hk

end

end FileModule.EngineHeap
