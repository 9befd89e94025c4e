import Dethernety.Foundations.Record
import Dethernety.FileModule.PolicySource

/-!
# The policy engine of a file-backed module

`register` and `prune` over the registrations and the claims on packages. Between the calls a package is claimed
by the key whose policy declares it and by no other (`Consistent`); under that the outcome of `register` depends on
the claim on the package that the source declares (`register_of_compile`).
-/

open Record Option

namespace FileModule

/-- The key of a class: the names between the separators of its path. -/
abbrev Key := List Text

/-- `RegoEngine.keyFor`, or `none` for an empty path, which is refused. -/
def keyFor (classDataPath : Text) : Option Key :=
  let names := ((classDataPath.map fun c => if c = '\\' then '/' else c).splitOn '/').filter (· ≠ [])
  if names = [] then none else some names

/-- What the module uses from elsewhere. -/
structure Runtime (Hash : Type) where
  sha256 : Text → Hash
  /-- `engine.addPolicy` of a new engine: the path of the package, or `none` for a policy that does not parse. -/
  addPolicy : Key → Text → Option Text
  /-- `validateModulePath`: the path stays within the data directory. -/
  validateModulePath : Text → Bool
  toUpperCase : Text → Text

inductive PolicyError
  | noPackage
  | notSelfContained
  | notParsed
  | packageTaken (packagePath : Text) (owner : Key)
  deriving DecidableEq

/-- A policy with its engine, of which the source is what it evaluates. -/
structure Registration (Hash : Type) where
  source : Text
  packagePath : Text
  sourceHash : Hash

structure RegoEngine (Hash : Type) where
  registrations : Record Key (Registration Hash)
  owners : Record Text Key

variable {Hash : Type}

section

variable (rt : Runtime Hash)

def compile (key : Key) (source : Text) : Except PolicyError Text :=
  match extractPackage source with
  | none => .error .noPackage
  | some packageName =>
    if hasIsolationViolations source packageName then .error .notSelfContained
    else
      match rt.addPolicy key source with
      | none => .error .notParsed
      | some packagePath => .ok packagePath

namespace RegoEngine

def empty : RegoEngine Hash := ⟨∅, ∅⟩

def sources (engine : RegoEngine Hash) (key : Key) : Option Text :=
  (engine.registrations.get? key).map Registration.source

/-- Put a compiled policy in the place of the one under its key. -/
def replace (engine : RegoEngine Hash) (key : Key) (source packagePath : Text) : RegoEngine Hash where
  registrations := engine.registrations.set key ⟨source, packagePath, rt.sha256 source⟩
  owners :=
    match engine.registrations.get? key with
    | some existing => (engine.owners.erase existing.packagePath).set packagePath key
    | none => engine.owners.set packagePath key

def register [DecidableEq Hash] (engine : RegoEngine Hash) (key : Key) (source : Text) :
    Except PolicyError (RegoEngine Hash) :=
  if (engine.registrations.get? key).any (·.sourceHash = rt.sha256 source) then .ok engine
  else
    match compile rt key source with
    | .error e => .error e
    | .ok packagePath =>
      match engine.owners.get? packagePath with
      | some owner =>
        if owner ≠ key then .error (.packageTaken packagePath owner)
        else .ok (engine.replace rt key source packagePath)
      | none => .ok (engine.replace rt key source packagePath)

def prune (engine : RegoEngine Hash) (keepKeys : List Key) : RegoEngine Hash where
  registrations := engine.registrations.filterKeys fun key => key ∈ keepKeys
  owners :=
    (engine.registrations.entries.filter fun entry => entry.1 ∉ keepKeys).foldl
      (fun (owners : Record Text Key) entry => owners.erase entry.2.packagePath) engine.owners

end RegoEngine

end

/-! ## Claims on packages -/

variable {rt : Runtime Hash} {engine engine' : RegoEngine Hash} {key : Key} {source packagePath : Text}

/-- The registrations are compiled from their sources, and the claims are theirs. -/
structure Consistent (rt : Runtime Hash) (engine : RegoEngine Hash) : Prop where
  compiled : ∀ key r, engine.registrations.get? key = some r →
    compile rt key r.source = .ok r.packagePath ∧ r.sourceHash = rt.sha256 r.source
  owner_iff : ∀ packagePath key, engine.owners.get? packagePath = some key ↔
    ∃ r, engine.registrations.get? key = some r ∧ r.packagePath = packagePath

lemma consistent_empty : Consistent rt (RegoEngine.empty : RegoEngine Hash) where
  compiled key r h := by cases h
  owner_iff packagePath key := ⟨fun h => (by cases h), fun ⟨r, h, _⟩ => (by cases h)⟩

/-- A source that compiles has something in it. -/
theorem ne_nil_of_compile (h : compile rt key source = .ok packagePath) : source ≠ [] := by
  rintro rfl
  have hnone : extractPackage [] = none := by decide
  cases h

lemma get?_owners_replace (h : Consistent rt engine) (path : Text) :
    (engine.replace rt key source packagePath).owners.get? path =
      if packagePath = path then some key
      else if engine.owners.get? path = some key then none else engine.owners.get? path := by
  have howner := h.owner_iff path key
  unfold RegoEngine.replace
  cases hexisting : engine.registrations.get? key with
  | none =>
    have hfree : engine.owners.get? path ≠ some key := fun howned => by
      obtain ⟨r, hr, -⟩ := howner.1 howned
      cases hexisting.symm.trans hr
    rw [get?_set, if_neg hfree]
  | some existing =>
    rw [get?_set, get?_erase]
    by_cases hpath : existing.packagePath = path
    · rw [if_pos hpath, if_pos (howner.2 ⟨existing, hexisting, hpath⟩)]
    · have hfree : engine.owners.get? path ≠ some key := fun howned => by
        obtain ⟨r, hr, hrpath⟩ := howner.1 howned
        cases hexisting.symm.trans hr
        exact hpath hrpath
      rw [if_neg hpath, if_neg hfree]

lemma get?_registrations_replace (other : Key) :
    (engine.replace rt key source packagePath).registrations.get? other =
      if key = other then some ⟨source, packagePath, rt.sha256 source⟩ else engine.registrations.get? other :=
  get?_set ..

lemma Consistent.replace (h : Consistent rt engine) (hcompile : compile rt key source = .ok packagePath)
    (howner : ∀ owner, engine.owners.get? packagePath = some owner → owner = key) :
    Consistent rt (engine.replace rt key source packagePath) where
  compiled other r hr := by
    rw [get?_registrations_replace] at hr
    split_ifs at hr with hkey
    · cases hr
      rw [← hkey]
      exact ⟨hcompile, rfl⟩
    · exact h.compiled other r hr
  owner_iff path other := by
    rw [get?_owners_replace h, get?_registrations_replace]
    have hold := h.owner_iff path other
    by_cases hkey : key = other
    · -- the new policy declares the one package
      subst hkey
      rw [if_pos rfl]
      split_ifs with hpath howned
      · exact ⟨fun _ => ⟨_, rfl, hpath⟩, fun _ => rfl⟩
      · refine ⟨fun h => (by cases h), ?_⟩
        rintro ⟨r, hr, hrpath⟩
        cases hr
        exact absurd hrpath hpath
      · refine ⟨fun h => absurd h howned, ?_⟩
        rintro ⟨r, hr, hrpath⟩
        cases hr
        exact absurd hrpath hpath
    · rw [if_neg hkey]
      split_ifs with hpath howned
      · refine ⟨fun heq => absurd (some.inj heq) hkey, fun hr => ?_⟩
        have hother := howner other (by rw [hpath]; exact hold.2 hr)
        exact absurd hother.symm hkey
      · refine ⟨fun h => (by cases h), fun hr => ?_⟩
        have hother := hold.2 hr
        rw [howned] at hother
        exact absurd (some.inj hother) hkey
      · exact hold

lemma get?_registrations_prune (keepKeys : List Key) (other : Key) :
    (engine.prune keepKeys).registrations.get? other =
      if other ∈ keepKeys then engine.registrations.get? other else none := by
  unfold RegoEngine.prune
  rw [get?_filterKeys]
  by_cases hkeep : other ∈ keepKeys
  all_goals simp [hkeep]

lemma Consistent.prune (h : Consistent rt engine) (keepKeys : List Key) :
    Consistent rt (engine.prune keepKeys) where
  compiled other r hr := by
    rw [get?_registrations_prune] at hr
    split_ifs at hr
    exact h.compiled other r hr
  owner_iff path other := by
    rw [get?_registrations_prune]
    unfold RegoEngine.prune
    rw [get?_foldl_erase (fun entry : Key × Registration Hash => entry.2.packagePath)]
    have hremoved : path ∈ (engine.registrations.entries.filter fun entry => entry.1 ∉ keepKeys).map
        (fun entry => entry.2.packagePath) ↔ ∃ k, k ∉ keepKeys ∧ engine.owners.get? path = some k := by
      rw [List.mem_map]
      constructor
      · rintro ⟨⟨k, r⟩, hmem, rfl⟩
        obtain ⟨hmem, hk⟩ := List.mem_filter.1 hmem
        exact ⟨k, by simpa using hk, (h.owner_iff _ k).2 ⟨r, mem_entries_iff.1 hmem, rfl⟩⟩
      · rintro ⟨k, hk, howner⟩
        obtain ⟨r, hr, hpath⟩ := (h.owner_iff path k).1 howner
        exact ⟨(k, r), List.mem_filter.2 ⟨mem_entries_iff.2 hr, by simpa using hk⟩, hpath⟩
    split_ifs with hpath hkeep hkeep
    · obtain ⟨k, hk, howner⟩ := hremoved.1 hpath
      refine ⟨fun h => (by cases h), fun hr => ?_⟩
      rw [(h.owner_iff path other).2 hr] at howner
      exact absurd (some.inj howner ▸ hkeep) hk
    · refine ⟨fun h => (by cases h), ?_⟩
      rintro ⟨r, hr, -⟩
      cases hr
    · exact h.owner_iff path other
    · refine ⟨fun howner => absurd (hremoved.2 ⟨other, hkeep, howner⟩) hpath, ?_⟩
      rintro ⟨r, hr, -⟩
      cases hr

/-! ## What `register` does -/

/-- A package that is free for a key. -/
def FreeFor (engine : RegoEngine Hash) (key : Key) (packagePath : Text) : Prop :=
  ∀ owner, engine.owners.get? packagePath = some owner → owner = key

/-- A policy that a key has registered. -/
def Holds (rt : Runtime Hash) (engine : RegoEngine Hash) (key : Key) (source packagePath : Text) : Prop :=
  engine.registrations.get? key = some ⟨source, packagePath, rt.sha256 source⟩

variable [DecidableEq Hash]

/-- A source that compiles is registered exactly if its package is free for the key; the other keys keep what they
have. -/
theorem register_of_compile (hsha : Function.Injective rt.sha256) (h : Consistent rt engine)
    (hcompile : compile rt key source = .ok packagePath) :
    (FreeFor engine key packagePath ∧ ∃ engine', engine.register rt key source = .ok engine' ∧
        Consistent rt engine' ∧ Holds rt engine' key source packagePath ∧
        ∀ other ≠ key, engine'.registrations.get? other = engine.registrations.get? other) ∨
      (¬ FreeFor engine key packagePath ∧ ∃ e, engine.register rt key source = .error e) := by
  unfold RegoEngine.register
  by_cases hsame : (engine.registrations.get? key).any (·.sourceHash = rt.sha256 source) = true
  · -- the policy is there already
    obtain ⟨r, hr, hhash⟩ := (any_eq_true _ _).1 hsame
    obtain ⟨hrcompile, hrhash⟩ := h.compiled key r hr
    obtain rfl : r.source = source := hsha (hrhash.symm.trans (by simpa using hhash))
    obtain rfl : r.packagePath = packagePath := Except.ok.inj (hrcompile.symm.trans hcompile)
    refine .inl ⟨fun owner howner => ?_, engine, if_pos hsame, h, ?_, fun _ _ => rfl⟩
    · have hself := (h.owner_iff r.packagePath key).2 ⟨r, hr, rfl⟩
      exact some.inj (howner.symm.trans hself)
    · rw [Holds, hr, ← hrhash]
  · have hreplaced : FreeFor engine key packagePath →
        Consistent rt (engine.replace rt key source packagePath) ∧
          Holds rt (engine.replace rt key source packagePath) key source packagePath ∧
          ∀ other ≠ key, (engine.replace rt key source packagePath).registrations.get? other =
            engine.registrations.get? other := fun hfree =>
      ⟨h.replace hcompile hfree, by rw [Holds, get?_registrations_replace, if_pos rfl],
        fun other hother => by rw [get?_registrations_replace, if_neg hother.symm]⟩
    rw [if_neg hsame, hcompile]
    dsimp only
    cases howner : engine.owners.get? packagePath with
    | none =>
      have hfree : FreeFor engine key packagePath := fun owner h => by
        cases howner.symm.trans h
      exact .inl ⟨hfree, _, rfl, hreplaced hfree⟩
    | some owner =>
      by_cases hkey : owner = key
      · have hfree : FreeFor engine key packagePath := fun other h =>
          (some.inj (h.symm.trans howner)).trans hkey
        exact .inl ⟨hfree, _, if_neg (not_not.2 hkey), hreplaced hfree⟩
      · exact .inr ⟨fun hfree => hkey (hfree owner howner), _, if_pos hkey⟩

/-- A source that does not compile is refused. -/
theorem register_of_not_compile (hsha : Function.Injective rt.sha256) (h : Consistent rt engine) {e : PolicyError}
    (hcompile : compile rt key source = .error e) : engine.register rt key source = .error e := by
  unfold RegoEngine.register
  rw [if_neg, hcompile]
  intro hsame
  obtain ⟨r, hr, hhash⟩ := (any_eq_true _ _).1 hsame
  obtain ⟨hrcompile, hrhash⟩ := h.compiled key r hr
  obtain rfl : r.source = source := hsha (hrhash.symm.trans (by simpa using hhash))
  cases hcompile.symm.trans hrcompile

lemma Consistent.register (h : Consistent rt engine) (hok : engine.register rt key source = .ok engine') :
    Consistent rt engine' := by
  unfold RegoEngine.register at hok
  split_ifs at hok
  · cases hok
    exact h
  · cases hcompile : compile rt key source with
    | error e =>
      rw [hcompile] at hok
      cases hok
    | ok packagePath =>
      rw [hcompile] at hok
      cases howner : engine.owners.get? packagePath with
      | none =>
        simp only [howner] at hok
        cases hok
        exact h.replace hcompile fun owner h => by
          rw [howner] at h
          cases h
      | some owner =>
        simp only [howner] at hok
        split_ifs at hok with hkey
        cases hok
        exact h.replace hcompile fun other h =>
          (some.inj (h.symm.trans howner)).trans (not_not.1 hkey)

end FileModule
