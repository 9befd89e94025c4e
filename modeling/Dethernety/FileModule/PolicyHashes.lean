import Dethernety.FileModule.FreshLoad

/-!
# What a policy hash names

`getPolicyHash` answers from the engine, and `evaluatePolicy` looks at the file first. The two agree on a class as
long as the policy that the engine holds for it is still in the directory (`namesEvaluated_iff`). Right after a load
the answers are those of the metadata, if no two class directories have one key.
-/

open List Option

namespace FileModule

variable {M J Hash : Type} [DecidableEq Hash] (rt : Runtime Hash)

/-- A hash that is answered is that of what an evaluation of the class evaluates. -/
def NamesEvaluated (s : State M J Hash) (path : Text) : Prop :=
  ∀ hash, getPolicyHash rt s.dir s.engine path = some hash →
    ((evaluatePolicy rt s.dir s.engine path true).2 = .noPolicy ∧ hash = noPolicyHash rt) ∨
      ∃ source, (evaluatePolicy rt s.dir s.engine path true).2 = .evaluates source ∧ rt.sha256 source = hash ∧
        hash ≠ noPolicyHash rt

/-- Where the engine holds a policy for a class, there is still one in the directory. -/
def KeepsPolicy (s : State M J Hash) (path : Text) : Prop :=
  ∀ key, keyFor path = some key → key ∈ s.engine.registrations.keys →
    rt.validateModulePath path = true ∧
      ∃ text source, s.dir.policies path = .found text ∧ decodePolicySource (ecmaTrim text) = some source

def typeKeys (dir : DataDir M J) (type : ClassType × String) : List (Option Key) :=
  match dir.classDirs type.1 with
  | .found classDirs => if type.1 = .issue then [] else classDirs.map fun c => keyFor (classPath dir type.2 c.name)
  | _ => []

/-- No two class directories have one key. -/
def DistinctKeys (dir : DataDir M J) : Prop :=
  (classTypes.flatMap (typeKeys dir)).Nodup

/-- After a load, the answer for a class is the hash that the metadata report. -/
def AnswersReported (s : State M J Hash) : Prop :=
  ∀ metadata, (getMetadata rt s.dir s.engine).2 = .ok metadata →
    ∀ type classes, (type, classes) ∈ metadata.classes → type ≠ .issue →
      ∀ c ∈ classes, getPolicyHash rt s.dir (getMetadata rt s.dir s.engine).1 c.path = c.policyHash

section

variable {rt} {s : State M J Hash} {path : Text}

lemma namesEvaluated_of_keepsPolicy (hsha : ∀ source, rt.sha256 source = noPolicyHash rt → source = [])
    (hs : Consistent rt s.engine) (h : KeepsPolicy rt s path) : NamesEvaluated rt s path := by
  intro hash hanswer
  unfold getPolicyHash at hanswer
  unfold evaluatePolicy
  cases hkey : keyFor path with
  | none =>
    rw [hkey] at hanswer
    cases hanswer
  | some key =>
    rw [hkey] at hanswer
    dsimp only at hanswer
    cases hr : s.engine.registrations.get? key with
    | some r =>
      -- the engine answers, and the file is there
      rw [hr] at hanswer
      obtain ⟨hpath, text, source, htext, hsource⟩ := h key hkey (Record.mem_keys_of_get? hr)
      obtain ⟨hcompile, hhash⟩ := hs.compiled key r hr
      refine .inr ⟨r.source, ?_, ?_, fun hno => ?_⟩
      · simp [hpath, htext, hsource, hr]
      · rw [← hhash]
        exact some.inj hanswer
      · rw [← some.inj hanswer, hhash] at hno
        exact ne_nil_of_compile hcompile (hsha r.source hno)
    | none =>
      rw [hr] at hanswer
      split_ifs at hanswer with hpath
      refine .inl ?_
      cases hentry : s.dir.policies path with
      | missing =>
        rw [hentry] at hanswer
        exact ⟨by simp [hpath], (some.inj hanswer).symm⟩
      | unreadable =>
        rw [hentry] at hanswer
        cases hanswer
      | found text =>
        rw [hentry] at hanswer
        dsimp only at hanswer
        cases hsource : decodePolicySource (ecmaTrim text) with
        | none =>
          rw [hsource] at hanswer
          exact ⟨by simp [hpath, hsource], (some.inj hanswer).symm⟩
        | some source =>
          rw [hsource] at hanswer
          cases hanswer

lemma keepsPolicy_of_namesEvaluated (hsha : ∀ source, rt.sha256 source = noPolicyHash rt → source = [])
    (hs : Consistent rt s.engine) (h : NamesEvaluated rt s path) : KeepsPolicy rt s path := by
  intro key hkey hmem
  obtain ⟨r, hr⟩ := isSome_iff_exists.1 (Record.mem_keys_iff.1 hmem)
  obtain ⟨hcompile, hhash⟩ := hs.compiled key r hr
  have hanswer : getPolicyHash rt s.dir s.engine path = some r.sourceHash := by
    simp [getPolicyHash, hkey, hr]
  rcases h r.sourceHash hanswer with ⟨-, hno⟩ | ⟨source, hevaluates, -⟩
  · rw [hhash] at hno
    exact absurd (hsha r.source hno) (ne_nil_of_compile hcompile)
  · unfold evaluatePolicy at hevaluates
    by_cases hpath : rt.validateModulePath path = true
    · refine ⟨hpath, ?_⟩
      cases hentry : s.dir.policies path with
      | missing | unreadable => simp [hpath, hentry] at hevaluates
      | found text =>
        cases hsource : decodePolicySource (ecmaTrim text) with
        | none => simp [hpath, hentry, hsource] at hevaluates
        | some source => exact ⟨text, source, rfl, hsource⟩
    · simp [hpath] at hevaluates

end

section

variable {rt} {dir : DataDir M J} {load load' : Load Hash} {key : Key}

omit [DecidableEq Hash] in
lemma exists_keyFor {path : Text} (h : ∃ c ∈ path, c ≠ '/' ∧ c ≠ '\\') : ∃ key, keyFor path = some key := by
  have hpiece : ∀ l : Text, (∃ c ∈ l, c ≠ '/') → ∃ piece ∈ l.splitOn '/', piece ≠ [] := by
    intro l
    induction l with
    | nil =>
      rintro ⟨c, hc, -⟩
      cases hc
    | cons a l ih =>
      rintro ⟨c, hc, hne⟩
      rw [splitOn_cons_eq_if_modifyHead]
      split_ifs with ha
      · have hl : ∃ c ∈ l, c ≠ '/' := by
          rcases mem_cons.1 hc with rfl | hc
          · exact absurd (eq_of_beq ha) hne
          · exact ⟨c, hc, hne⟩
        obtain ⟨piece, hpiece, hpne⟩ := ih hl
        exact ⟨piece, .tail _ hpiece, hpne⟩
      · obtain ⟨first, rest, hpieces⟩ := exists_cons_of_ne_nil (splitOn_ne_nil '/' l)
        rw [hpieces, modifyHead_cons]
        exact ⟨a :: first, .head _, cons_ne_nil a first⟩
  obtain ⟨c, hc, hslash, hback⟩ := h
  obtain ⟨piece, hmem, hne⟩ := hpiece (path.map fun c => if c = '\\' then '/' else c)
    ⟨c, mem_map.2 ⟨c, hc, if_neg hback⟩, hslash⟩
  refine ⟨_, if_neg fun hnil => ?_⟩
  have hkept : piece ∈ ((path.map fun c => if c = '\\' then '/' else c).splitOn '/').filter (· ≠ []) :=
    mem_filter.2 ⟨hmem, decide_eq_true hne⟩
  rw [hnil] at hkept
  cases hkept

/-- A load leaves the keys outside of a list alone. -/
def Untouched (keys : List (Option Key)) (load load' : Load Hash) : Prop :=
  ∀ key, some key ∉ keys → load'.engine.registrations.get? key = load.engine.registrations.get? key ∧
    (key ∈ load'.registeredKeys ↔ key ∈ load.registeredKeys)

/-- What is answered for a class at the end of a load is what the load reports. -/
def Reports (rt : Runtime Hash) (dir : DataDir M J) (load : Load Hash) (c : ClassMetadata J Hash) : Prop :=
  getPolicyHash rt dir (load.engine.prune load.registeredKeys) c.path = c.policyHash

omit [DecidableEq Hash] in
lemma Untouched.refl (keys : List (Option Key)) (load : Load Hash) : Untouched keys load load :=
  fun _ _ => ⟨rfl, Iff.rfl⟩

omit [DecidableEq Hash] in
lemma Untouched.trans {keys keys' : List (Option Key)} {load'' : Load Hash} (h : Untouched keys load load')
    (h' : Untouched keys' load' load'') : Untouched (keys ++ keys') load load'' := by
  intro key hkey
  obtain ⟨hkeys, hkeys'⟩ := not_or.1 fun hor => hkey (mem_append.2 hor)
  exact ⟨(h' key hkeys').1.trans (h key hkeys).1, (h' key hkeys').2.trans (h key hkeys).2⟩

omit [DecidableEq Hash] in
lemma Reports.of_untouched {keys : List (Option Key)} {c : ClassMetadata J Hash} (h : Reports rt dir load c)
    (hkeys : Untouched keys load load') (hc : keyFor c.path ∉ keys) : Reports rt dir load' c := by
  unfold Reports getPolicyHash at *
  cases hkey : keyFor c.path with
  | none =>
    rwa [hkey] at h
  | some key =>
    rw [hkey] at h hc
    obtain ⟨hregistration, hmem⟩ := hkeys key hc
    dsimp only at h ⊢
    rw [get?_registrations_prune] at h ⊢
    rw [hregistration]
    by_cases hin : key ∈ load.registeredKeys
    · rw [if_pos hin] at h
      rw [if_pos (hmem.2 hin)]
      exact h
    · rw [if_neg hin] at h
      rw [if_neg fun hin' => hin (hmem.1 hin')]
      exact h

/-- What `register` leaves under its key, and elsewhere. -/
lemma register_eq_ok {engine engine' : RegoEngine Hash} {source : Text}
    (h : engine.register rt key source = .ok engine') :
    (∃ r, engine'.registrations.get? key = some r ∧ r.sourceHash = rt.sha256 source) ∧
      ∀ other ≠ key, engine'.registrations.get? other = engine.registrations.get? other := by
  unfold RegoEngine.register at h
  split_ifs at h with hsame
  · cases h
    obtain ⟨r, hr, hhash⟩ := (any_eq_true _ _).1 hsame
    exact ⟨⟨r, hr, by simpa using hhash⟩, fun _ _ => rfl⟩
  · have hreplaced : ∀ packagePath, engine.replace rt key source packagePath = engine' →
        (∃ r, engine'.registrations.get? key = some r ∧ r.sourceHash = rt.sha256 source) ∧
          ∀ other ≠ key, engine'.registrations.get? other = engine.registrations.get? other := by
      rintro packagePath rfl
      refine ⟨⟨_, by rw [get?_registrations_replace, if_pos rfl], rfl⟩, fun other hother => ?_⟩
      rw [get?_registrations_replace, if_neg hother.symm]
    cases hcompile : compile rt key source with
    | error e =>
      rw [hcompile] at h
      cases h
    | ok packagePath =>
      rw [hcompile] at h
      cases howner : engine.owners.get? packagePath with
      | none =>
        simp only [howner] at h
        exact hreplaced packagePath (Except.ok.inj h)
      | some owner =>
        simp only [howner] at h
        split_ifs at h
        exact hreplaced packagePath (Except.ok.inj h)

lemma loadPolicy_reports {path : Text} {policyHash : Option Hash} (hpath : rt.validateModulePath path = true)
    (hkey : keyFor path = some key) (hnew : key ∉ load.registeredKeys)
    (h : loadPolicy rt dir.policies load path = (load', .ok policyHash)) :
    Untouched [some key] load load' ∧
      getPolicyHash rt dir (load'.engine.prune load'.registeredKeys) path = policyHash := by
  unfold loadPolicy at h
  cases hentry : dir.policies path with
  | missing =>
    rw [hentry] at h
    cases h
    exact ⟨.refl _ _, by simp [getPolicyHash, hkey, get?_registrations_prune, hnew, hpath, hentry]⟩
  | unreadable =>
    rw [hentry] at h
    cases h
  | found text =>
    rw [hentry] at h
    dsimp only at h
    cases hraw : decodePolicySource (ecmaTrim text) with
    | none =>
      rw [hraw] at h
      cases h
      exact ⟨.refl _ _, by simp [getPolicyHash, hkey, get?_registrations_prune, hnew, hpath, hentry, hraw]⟩
    | some raw =>
      rw [hraw, hkey] at h
      dsimp only at h
      cases hregister : load.engine.register rt key raw with
      | error e =>
        rw [hregister] at h
        cases h
        exact ⟨.refl _ _, by simp [getPolicyHash, hkey, get?_registrations_prune, hnew, hpath, hentry, hraw]⟩
      | ok engine =>
        rw [hregister] at h
        cases h
        obtain ⟨⟨r, hr, hhash⟩, hother⟩ := register_eq_ok hregister
        refine ⟨fun other hne => ?_, ?_⟩
        · have hne' : other ≠ key := fun heq => hne (mem_singleton.2 (congrArg some heq))
          exact ⟨hother other hne', by simp [hne']⟩
        · simp [getPolicyHash, hkey, get?_registrations_prune, hr, hhash, policySourceHash, hraw]

variable {classType : ClassType} {typeDir : String}

/-- A load over some keys leaves the others alone and reports the classes as they are. -/
def Loads (rt : Runtime Hash) (dir : DataDir M J) (keys : List (Option Key)) (load load' : Load Hash)
    (classes : List (ClassMetadata J Hash)) : Prop :=
  Untouched keys load load' ∧ ∀ c ∈ classes, keyFor c.path ∈ keys ∧ Reports rt dir load' c

/-- Keys that a load has not registered. -/
def Fresh (keys : List (Option Key)) (load : Load Hash) : Prop :=
  ∀ key ∈ load.registeredKeys, some key ∉ keys

section

variable {keys keys' : List (Option Key)} {load'' : Load Hash} {classes classes' : List (ClassMetadata J Hash)}
  (hdisjoint : ∀ k ∈ keys, ∀ k' ∈ keys', k ≠ k')
include hdisjoint

omit [DecidableEq Hash] in
lemma Fresh.tail (h : Fresh (keys ++ keys') load) (huntouched : Untouched keys load load') : Fresh keys' load' :=
  fun key hkey hmem =>
    h key ((huntouched key fun hin => hdisjoint _ hin _ hmem rfl).2.1 hkey) (mem_append_right _ hmem)

omit [DecidableEq Hash] in
lemma Loads.append (h : Loads rt dir keys load load' classes) (h' : Loads rt dir keys' load' load'' classes') :
    Loads rt dir (keys ++ keys') load load'' (classes ++ classes') := by
  refine ⟨h.1.trans h'.1, fun c hc => ?_⟩
  obtain hc | hc := mem_append.1 hc
  · obtain ⟨hkey, hc⟩ := h.2 c hc
    exact ⟨mem_append_left _ hkey, hc.of_untouched h'.1 fun hin => hdisjoint _ hkey _ hin rfl⟩
  · obtain ⟨hkey, hc⟩ := h'.2 c hc
    exact ⟨mem_append_right _ hkey, hc⟩

end

lemma loadClass_reports {classDir : ClassDir J}
    {metadata : Option (ClassMetadata J Hash)} (hissue : classType ≠ .issue)
    (hkey : keyFor (classPath dir typeDir classDir.name) = some key) (hnew : key ∉ load.registeredKeys)
    (h : loadClass rt dir classType typeDir load classDir = (load', .ok metadata)) :
    Loads rt dir [some key] load load' metadata.toList := by
  unfold loadClass at h
  dsimp only at h
  split at h
  · cases h
  · rename_i hpath
    rw [Bool.not_eq_true', Bool.not_eq_false] at hpath
    split at h
    · cases h
      exact ⟨.refl _ _, fun c hc => by cases hc⟩
    · obtain ⟨load₁, policyHash, hpolicy, h⟩ := Load.andThen_eq_ok h
      cases h
      obtain ⟨huntouched, hreports⟩ := loadPolicy_reports hpath hkey hnew hpolicy
      refine ⟨huntouched, fun c hc => ?_⟩
      cases mem_singleton.1 hc
      exact ⟨mem_singleton.2 hkey, hreports⟩

variable {classDirs : List (ClassDir J)}

lemma loadClasses_reports {classes : List (ClassMetadata J Hash)} (hissue : classType ≠ .issue)
    (htype : ∃ c ∈ typeDir.toList, c ≠ '/' ∧ c ≠ '\\')
    (hdistinct : (classDirs.map fun c => keyFor (classPath dir typeDir c.name)).Nodup)
    (hnew : Fresh (classDirs.map fun c => keyFor (classPath dir typeDir c.name)) load)
    (h : loadClasses rt dir classType typeDir load classDirs = (load', .ok classes)) :
    Loads rt dir (classDirs.map fun c => keyFor (classPath dir typeDir c.name)) load load' classes := by
  induction classDirs generalizing load classes with
  | nil =>
    cases h
    exact ⟨.refl _ _, fun c hc => by cases hc⟩
  | cons classDir classDirs ih =>
    obtain ⟨sep, hsep, hne⟩ := htype
    have hin : sep ∈ classPath dir typeDir classDir.name := by
      simp [classPath, hsep]
    obtain ⟨key, hkey⟩ := exists_keyFor ⟨sep, hin, hne⟩
    rw [map_cons, hkey, ← singleton_append] at hdistinct hnew ⊢
    obtain ⟨-, hrestDistinct, hdisjoint⟩ := nodup_append.1 hdistinct
    obtain ⟨load₁, metadata, hclass, h⟩ := Load.andThen_eq_ok h
    obtain ⟨load₂, rest, hrest, h⟩ := Load.andThen_eq_ok h
    cases h
    have hloads := loadClass_reports hissue hkey (fun hmem => hnew key hmem (.head _)) hclass
    exact hloads.append hdisjoint (ih hrestDistinct (hnew.tail hdisjoint hloads.1) hrest)

lemma loadClasses_issue : (loadClasses rt dir .issue typeDir load classDirs).1 = load := by
  induction classDirs with
  | nil => rfl
  | cons classDir classDirs ih =>
    have hclass : (loadClass rt dir .issue typeDir load classDir).1 = load := by
      unfold loadClass
      dsimp only
      split
      · rfl
      · split <;> rfl
    refine Load.keep_andThen (P := (· = load)) hclass fun _ load' hload => ?_
    rw [hload]
    exact Load.keep_andThen (P := (· = load)) ih fun _ _ h => h

lemma loadTypes_reports {types : List (ClassType × String)} {lists : List (ClassType × List (ClassMetadata J Hash))}
    (htypes : ∀ type ∈ types, ∃ c ∈ type.2.toList, c ≠ '/' ∧ c ≠ '\\')
    (hdistinct : (types.flatMap (typeKeys dir)).Nodup) (hnew : Fresh (types.flatMap (typeKeys dir)) load)
    (h : loadTypes rt dir load types = (load', .ok lists)) :
    Loads rt dir (types.flatMap (typeKeys dir)) load load'
      (lists.flatMap fun list => if list.1 = .issue then [] else list.2) := by
  induction types generalizing load lists with
  | nil =>
    cases h
    exact ⟨.refl _ _, fun _ hmem => by cases hmem⟩
  | cons type types ih =>
    obtain ⟨classType, typeDir⟩ := type
    have htypes' : ∀ type ∈ types, ∃ c ∈ type.2.toList, c ≠ '/' ∧ c ≠ '\\' := fun type hmem =>
      htypes type (.tail _ hmem)
    rw [flatMap_cons] at hdistinct hnew ⊢
    obtain ⟨hhead, htail, hdisjoint⟩ := nodup_append.1 hdistinct
    -- without any class of this type
    have hnone : Loads rt dir (typeKeys dir (classType, typeDir)) load load [] :=
      ⟨.refl _ _, fun _ hmem => by cases hmem⟩
    have hskip : loadTypes rt dir load types = (load', .ok lists) → Loads rt dir
        (typeKeys dir (classType, typeDir) ++ types.flatMap (typeKeys dir)) load load'
        (lists.flatMap fun list => if list.1 = .issue then [] else list.2) := fun h =>
      hnone.append hdisjoint (ih htypes' htail (hnew.tail hdisjoint (.refl _ _)) h)
    unfold loadTypes at h
    split at h
    · exact hskip h
    · cases h
    · exact hskip h
    · rename_i classDirs _ hdirs
      obtain ⟨load₁, classes, hclasses, h⟩ := Load.andThen_eq_ok h
      obtain ⟨load₂, rest, hrest, h⟩ := Load.andThen_eq_ok h
      cases h
      have hhere : Loads rt dir (typeKeys dir (classType, typeDir)) load load₁
          (if classType = .issue then [] else classes) := by
        split_ifs with hissue
        · subst hissue
          have hsame : (loadClasses rt dir .issue typeDir load classDirs).1 = load := loadClasses_issue
          rw [hclasses] at hsame
          rw [show load₁ = load from hsame]
          exact ⟨.refl _ _, fun _ hmem => by cases hmem⟩
        · have hkeys : typeKeys dir (classType, typeDir) =
              classDirs.map fun c => keyFor (classPath dir typeDir c.name) := by
            simp [typeKeys, hdirs, hissue]
          rw [hkeys] at hhead hnew ⊢
          exact loadClasses_reports hissue (htypes _ (.head _)) hhead
            (fun key hkey hmem => hnew key hkey (mem_append_left _ hmem)) hclasses
      exact hhere.append hdisjoint (ih htypes' htail (hnew.tail hdisjoint hhere.1) hrest)

lemma answersReported_of_distinctKeys {s : State M J Hash} (h : DistinctKeys s.dir) : AnswersReported rt s := by
  intro metadata hmetadata type classes hmem hissue c hc
  unfold getMetadata at hmetadata ⊢
  cases hmodule : s.dir.moduleJson with
  | none =>
    rw [hmodule] at hmetadata
    cases hmetadata
  | some moduleJson =>
    rw [hmodule] at hmetadata
    cases hload : loadTypes rt s.dir ⟨s.engine, []⟩ classTypes with
    | mk load answer =>
      rw [hload] at hmetadata
      cases answer with
      | error e => cases hmetadata
      | ok lists =>
        cases hmetadata
        have hall : (classTypes.all fun type => type.2.toList.any fun c => c ≠ '/' ∧ c ≠ '\\') = true := by decide
        have htypes : ∀ type ∈ classTypes, ∃ c ∈ type.2.toList, c ≠ '/' ∧ c ≠ '\\' := fun type hmem => by
          obtain ⟨c, hc, hne⟩ := any_eq_true.1 (all_eq_true.1 hall type hmem)
          exact ⟨c, hc, of_decide_eq_true hne⟩
        exact ((loadTypes_reports htypes h (fun key hkey => absurd hkey not_mem_nil) hload).2 c
          (mem_flatMap.2 ⟨_, hmem, by rwa [if_neg hissue]⟩)).2

end

/-- In every state that calls and changes lead to, a policy hash names what is evaluated, exactly where the engine
holds no policy that the directory has lost; after a load it is the one that the metadata report. -/
theorem namesEvaluated_iff {rt : Runtime Hash} (hsha : ∀ source, rt.sha256 source = noPolicyHash rt → source = [])
    {s : State M J Hash} (h : (opaModule rt).Reachable (fun _ _ => True) s) :
    (∀ path, NamesEvaluated rt s path ↔ KeepsPolicy rt s path) ∧ (DistinctKeys s.dir → AnswersReported rt s) :=
  ⟨fun _ => ⟨keepsPolicy_of_namesEvaluated hsha (consistent_of_reachable h),
    namesEvaluated_of_keepsPolicy hsha (consistent_of_reachable h)⟩, answersReported_of_distinctKeys⟩

/-- The hash of the policy that is loaded and still there. -/
theorem sample_namesEvaluated :
    getPolicyHash sampleRuntime (sampleDir "server" "package a") (sampleEngine (sampleDir "server" "package a"))
        "web/component/server".toList = some (sampleSha256 "package a".toList) ∧
      NamesEvaluated sampleRuntime ⟨sampleDir "server" "package a", sampleEngine (sampleDir "server" "package a")⟩
        "web/component/server".toList ∧
      AnswersReported sampleRuntime ⟨sampleDir "server" "package a", sampleEngine (sampleDir "server" "package a")⟩
        := by
  have hsha : ∀ source, sampleRuntime.sha256 source = noPolicyHash sampleRuntime → source = [] := fun source h =>
    sampleSha256_injective h
  obtain ⟨hnames, hreported⟩ := namesEvaluated_iff hsha
    (sampleReachable (sampleDir "server" "package a") (sampleDir "server" "package a"))
  have hdistinct : DistinctKeys (sampleDir "server" "package a") := by
    unfold DistinctKeys
    decide +kernel
  have hpolicy : (sampleDir "server" "package a").policies "web/component/server".toList =
      .found "package a".toList := by
    have hpath : "web/component/server".toList = "web/component/".toList ++ "server".toList := by decide +kernel
    rw [hpath]
    exact sampleDir_policies "server" "package a"
  exact ⟨by decide +kernel, (hnames _).2 fun key _ _ =>
    ⟨by decide +kernel, "package a".toList, "package a".toList, hpolicy, by decide +kernel⟩, hreported hdistinct⟩

/-- The file is empty when it is evaluated, and the hash is the one of the registration. -/
theorem removedPolicy_not_namesEvaluated :
    ∃ s : State Unit Unit Text, (opaModule sampleRuntime).Reachable (fun _ _ => True) s ∧
      ¬ NamesEvaluated sampleRuntime s "web/component/server".toList := by
  refine ⟨_, sampleReachable (sampleDir "server" "package a") (sampleDir "server" ""), fun h => ?_⟩
  have hanswer : getPolicyHash sampleRuntime (sampleDir "server" "") (sampleEngine (sampleDir "server" "package a"))
      "web/component/server".toList = some (sampleSha256 "package a".toList) := by decide +kernel
  have hevaluation : (evaluatePolicy sampleRuntime (sampleDir "server" "")
      (sampleEngine (sampleDir "server" "package a")) "web/component/server".toList true).2 = .noPolicy := by
    decide +kernel
  rcases h _ hanswer with ⟨-, hno⟩ | ⟨source, hsource, -⟩
  · have hempty : "package a".toList = [] := sampleSha256_injective hno
    exact absurd hempty (by decide)
  · cases hsource

end FileModule
