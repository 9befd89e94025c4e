import Dethernety.FileModule.OpaModule

/-!
# A load and what came before it

Until the prune at its end a load has the claims of earlier loads next to its own. It comes out as the load of a new
instance where no such claim is in its way (`Unclaimed`): the class that first declares a package finds it free, or
claimed by itself or by a class that the load has registered before.
-/

open List

namespace FileModule

variable {M J Hash : Type} (rt : Runtime Hash)

/-! ## The policies of a directory -/

/-- The policy under a class path. -/
def policyAt (policies : Text → Entry Text) (path : Text) : Option (Key × Text) :=
  match policies path with
  | .found text => (decodePolicySource (ecmaTrim text)).bind fun raw => (keyFor path).map (·, raw)
  | _ => none

/-- The policy that a class directory declares. -/
def declaration (dir : DataDir M J) (classType : ClassType) (typeDir : String) (classDir : ClassDir J) :
    Option (Key × Text) :=
  if classType = .issue then none
  else (listedClass rt classType classDir).bind fun _ => policyAt dir.policies (classPath dir typeDir classDir.name)

def typeDeclarations (dir : DataDir M J) (type : ClassType × String) : List (Key × Text) :=
  match dir.classDirs type.1 with
  | .found classDirs => classDirs.filterMap (declaration rt dir type.1 type.2)
  | _ => []

/-- The policies in the order in which they are loaded. -/
def declarations (dir : DataDir M J) : List (Key × Text) :=
  classTypes.flatMap (typeDeclarations rt dir)

/-- A key declares a package, and no policy before it does. -/
def FirstDeclares (policies : List (Key × Text)) (key : Key) (packagePath : Text) : Prop :=
  ∃ before source after, policies = before ++ (key, source) :: after ∧ compile rt key source = .ok packagePath ∧
    ∀ p ∈ before, compile rt p.1 p.2 ≠ .ok packagePath

/-- The class that first declares a package finds it free, or claimed by itself or by a class that first declares
another package before it. -/
def Unclaimed (engine : RegoEngine Hash) (policies : List (Key × Text)) : Prop :=
  ∀ before key source after packagePath, policies = before ++ (key, source) :: after →
    compile rt key source = .ok packagePath → (∀ p ∈ before, compile rt p.1 p.2 ≠ .ok packagePath) →
      ∀ owner, engine.owners.get? packagePath = some owner → owner = key ∨ ∃ other, FirstDeclares rt before owner other

/-- A load comes out as that of a new instance. -/
def LoadsFresh [DecidableEq Hash] (dir : DataDir M J) (engine : RegoEngine Hash) : Prop :=
  (getMetadata rt dir engine).2 = (getMetadata rt dir .empty).2 ∧
    ((getMetadata rt dir .empty).2.isOk = true →
      (getMetadata rt dir engine).1.sources = (getMetadata rt dir .empty).1.sources)

section

variable {rt} {dir : DataDir M J} {old : RegoEngine Hash} {before policies : List (Key × Text)}
  {loaded fresh : Load Hash} {key : Key} {source packagePath : Text}

lemma FirstDeclares.append (h : FirstDeclares rt before key packagePath) (after : List (Key × Text)) :
    FirstDeclares rt (before ++ after) key packagePath := by
  obtain ⟨front, source, rest, rfl, hcompile, hfront⟩ := h
  exact ⟨front, source, rest ++ after, by simp, hcompile, hfront⟩

lemma exists_firstDeclares (h : ∃ p ∈ before, compile rt p.1 p.2 = .ok packagePath) :
    ∃ key, FirstDeclares rt before key packagePath := by
  obtain ⟨p, hp, hcompile⟩ := h
  induction before with
  | nil => cases hp
  | cons q before ih =>
    by_cases hq : compile rt q.1 q.2 = .ok packagePath
    · exact ⟨q.1, [], q.2, before, rfl, hq, fun p hp => absurd hp not_mem_nil⟩
    · rcases mem_cons.1 hp with rfl | hp
      · exact absurd hcompile hq
      · obtain ⟨key, front, source, rest, rfl, hsource, hfront⟩ := ih hp
        refine ⟨key, q :: front, source, rest, rfl, hsource, fun r hr => ?_⟩
        rcases mem_cons.1 hr with rfl | hr
        · exact hq
        · exact hfront r hr

/-- The load after some policies, next to that of a new instance. -/
structure Tracks (rt : Runtime Hash) (old : RegoEngine Hash) (before : List (Key × Text))
    (loaded fresh : Load Hash) : Prop where
  registeredKeys : loaded.registeredKeys = fresh.registeredKeys
  loaded_consistent : Consistent rt loaded.engine
  fresh_consistent : Consistent rt fresh.engine
  /-- What this load registered is the same, and the rest is as before, or not there. -/
  of_mem : ∀ key ∈ fresh.registeredKeys,
    loaded.engine.registrations.get? key = fresh.engine.registrations.get? key
  of_notMem : ∀ key ∉ fresh.registeredKeys,
    loaded.engine.registrations.get? key = old.registrations.get? key ∧ fresh.engine.registrations.get? key = none
  of_firstDeclares : ∀ key packagePath, FirstDeclares rt before key packagePath → key ∈ fresh.registeredKeys
  of_owner : ∀ packagePath key, fresh.engine.owners.get? packagePath = some key →
    ∃ p ∈ before, compile rt p.1 p.2 = .ok packagePath

lemma tracks_empty (h : Consistent rt old) : Tracks rt old [] ⟨old, []⟩ ⟨.empty, []⟩ where
  registeredKeys := rfl
  loaded_consistent := h
  fresh_consistent := consistent_empty
  of_mem key hkey := absurd hkey not_mem_nil
  of_notMem key _ := ⟨rfl, rfl⟩
  of_firstDeclares key packagePath := by
    rintro ⟨front, source, rest, heq, -⟩
    exact absurd heq.symm (append_ne_nil_of_right_ne_nil front (cons_ne_nil _ _))
  of_owner packagePath key howner := by cases howner

variable {after : List (Key × Text)}

lemma Tracks.mem_of_owner (h : Tracks rt old before loaded fresh)
    (hunclaimed : Unclaimed rt old (before ++ (key, source) :: after))
    (hcompile : compile rt key source = .ok packagePath) {owner : Key}
    (howner : old.owners.get? packagePath = some owner) : owner = key ∨ owner ∈ fresh.registeredKeys := by
  by_cases hdeclared : ∃ p ∈ before, compile rt p.1 p.2 = .ok packagePath
  · obtain ⟨first, hfirst⟩ := exists_firstDeclares hdeclared
    obtain ⟨front, firstSource, rest, rfl, hfirstCompile, hfront⟩ := id hfirst
    rcases hunclaimed front first firstSource (rest ++ (key, source) :: after) packagePath
      (by simp) hfirstCompile hfront
      owner howner with rfl | ⟨other, hother⟩
    · exact .inr (h.of_firstDeclares owner packagePath hfirst)
    · exact .inr (h.of_firstDeclares owner other (hother.append _))
  · have hnone : ∀ p ∈ before, compile rt p.1 p.2 ≠ .ok packagePath := fun p hp hp' => hdeclared ⟨p, hp, hp'⟩
    rcases hunclaimed before key source after packagePath rfl hcompile hnone owner howner with
      rfl | ⟨other, hother⟩
    · exact .inl rfl
    · exact .inr (h.of_firstDeclares owner other hother)

lemma Tracks.freeFor_iff (h : Tracks rt old before loaded fresh) (hold : Consistent rt old)
    (hclaim : ∀ owner, old.owners.get? packagePath = some owner → owner = key ∨ owner ∈ fresh.registeredKeys) :
    FreeFor loaded.engine key packagePath ↔ FreeFor fresh.engine key packagePath := by
  constructor
  · intro hfree owner howner
    obtain ⟨r, hr, hpath⟩ := (h.fresh_consistent.owner_iff packagePath owner).1 howner
    refine hfree owner ((h.loaded_consistent.owner_iff packagePath owner).2 ⟨r, ?_, hpath⟩)
    by_cases hmem : owner ∈ fresh.registeredKeys
    · rw [h.of_mem owner hmem, hr]
    · rw [(h.of_notMem owner hmem).2] at hr
      cases hr
  · intro hfree owner howner
    obtain ⟨r, hr, hpath⟩ := (h.loaded_consistent.owner_iff packagePath owner).1 howner
    have hnew : owner ∈ fresh.registeredKeys → owner = key := fun hmem => by
      rw [h.of_mem owner hmem] at hr
      exact hfree owner ((h.fresh_consistent.owner_iff packagePath owner).2 ⟨r, hr, hpath⟩)
    by_cases hmem : owner ∈ fresh.registeredKeys
    · exact hnew hmem
    · -- the claim is one of an earlier load
      rw [(h.of_notMem owner hmem).1] at hr
      rcases hclaim owner ((hold.owner_iff packagePath owner).2 ⟨r, hr, hpath⟩) with hkey | hmem
      · exact hkey
      · exact hnew hmem

/-- The same answer of two loads, which track each other over some more policies if there is no error. -/
def TracksResult {α : Type} (rt : Runtime Hash) (old : RegoEngine Hash) (before : List (Key × Text))
    (loaded fresh : Load Hash × Except LoadError α) : Prop :=
  loaded.2 = fresh.2 ∧ (fresh.2.isOk = true → Tracks rt old before loaded.1 fresh.1)

lemma TracksResult.of_tracks {α : Type} {a : α} (h : Tracks rt old before loaded fresh) :
    TracksResult rt old before (loaded, .ok a) (fresh, .ok a) :=
  ⟨rfl, fun _ => h⟩

lemma TracksResult.of_error {α : Type} {e : LoadError} :
    TracksResult rt old before (loaded, (.error e : Except LoadError α)) (fresh, .error e) :=
  ⟨rfl, fun hok => by cases hok⟩

/-- Loads that go on in the same way. -/
lemma TracksResult.andThen {α β : Type} {result result' : Load Hash × Except LoadError α}
    {f : Load Hash → α → Load Hash × Except LoadError β} (h : TracksResult rt old before result result')
    (hf : ∀ a load load', Tracks rt old before load load' → TracksResult rt old policies (f load a) (f load' a)) :
    TracksResult rt old policies (Load.andThen result f) (Load.andThen result' f) := by
  obtain ⟨load, answer⟩ := result
  obtain ⟨load', answer'⟩ := result'
  obtain ⟨rfl, htracks⟩ := h
  cases answer with
  | error e => exact .of_error
  | ok a => exact hf a load load' (htracks rfl)

variable [DecidableEq Hash]

variable (hsha : Function.Injective rt.sha256)
include hsha

/-- One policy is registered in both loads or refused in both. -/
lemma Tracks.register (hold : Consistent rt old)
    (h : Tracks rt old before loaded fresh) (hunclaimed : Unclaimed rt old (before ++ (key, source) :: after)) :
    (∃ engine engine', loaded.engine.register rt key source = .ok engine ∧
        fresh.engine.register rt key source = .ok engine' ∧
        Tracks rt old (before ++ [(key, source)]) ⟨engine, loaded.registeredKeys ++ [key]⟩
          ⟨engine', fresh.registeredKeys ++ [key]⟩) ∨
      (∃ e e', loaded.engine.register rt key source = .error e ∧ fresh.engine.register rt key source = .error e' ∧
        Tracks rt old (before ++ [(key, source)]) loaded fresh) := by
  -- what is first declared is declared before, or it is the package of this policy
  have hfirst : ∀ k path, FirstDeclares rt (before ++ [(key, source)]) k path →
      FirstDeclares rt before k path ∨
        (k = key ∧ compile rt key source = .ok path ∧ ∀ p ∈ before, compile rt p.1 p.2 ≠ .ok path) := by
    rintro k path ⟨front, s, rest, heq, hcompile, hfront⟩
    rcases eq_nil_or_concat rest with rfl | ⟨rest, last, rfl⟩
    · obtain ⟨rfl, hlast⟩ := append_inj' heq rfl
      cases hlast
      exact .inr ⟨rfl, hcompile, hfront⟩
    · rw [concat_eq_append, ← cons_append, ← append_assoc] at heq
      exact .inl ⟨front, s, rest, (append_inj' heq rfl).1, hcompile, hfront⟩
  have hdeclared : ∀ path k, fresh.engine.owners.get? path = some k →
      ∃ p ∈ before ++ [(key, source)], compile rt p.1 p.2 = .ok path := fun path k howner =>
    let ⟨p, hp, hcompile⟩ := h.of_owner path k howner
    ⟨p, mem_append_left _ hp, hcompile⟩
  cases hcompile : compile rt key source with
  | error e =>
    refine .inr ⟨e, e, register_of_not_compile hsha h.loaded_consistent hcompile,
      register_of_not_compile hsha h.fresh_consistent hcompile,
        { h with of_firstDeclares := ?_, of_owner := hdeclared }⟩
    intro k path hk
    rcases hfirst k path hk with hk | ⟨-, hother, -⟩
    · exact h.of_firstDeclares k path hk
    · cases hcompile.symm.trans hother
  | ok packagePath =>
    have hfree := h.freeFor_iff hold fun owner => h.mem_of_owner hunclaimed hcompile
    rcases register_of_compile hsha h.fresh_consistent hcompile with
      ⟨hfreshFree, engine', hengine', hconsistent', hholds', hrest'⟩ | ⟨htaken, e', he'⟩
    · rcases register_of_compile hsha h.loaded_consistent hcompile with
        ⟨-, engine, hengine, hconsistent, hholds, hrest⟩ | ⟨htaken, -⟩
      · refine .inl ⟨engine, engine', hengine, hengine', ?_⟩
        refine ⟨by rw [h.registeredKeys], hconsistent, hconsistent', fun k hk => ?_, fun k hk => ?_,
          fun k path hk => ?_, fun path k howner => ?_⟩
        · by_cases hkey : k = key
          · rw [hkey]
            exact hholds.trans hholds'.symm
          · rw [hrest k hkey, hrest' k hkey]
            apply h.of_mem k
            rcases mem_append.1 hk with hk | hk
            · exact hk
            · exact absurd (mem_singleton.1 hk) hkey
        · obtain ⟨hmem, hkey⟩ := not_or.1 fun hor => hk (mem_append.2 hor)
          have hkey' : k ≠ key := fun heq => hkey (mem_singleton.2 heq)
          rw [hrest k hkey', hrest' k hkey']
          exact h.of_notMem k hmem
        · rcases hfirst k path hk with hk | ⟨rfl, -, -⟩
          · exact mem_append_left _ (h.of_firstDeclares k path hk)
          · exact mem_append_right _ (.head _)
        · obtain ⟨r, hr, hpath⟩ := (hconsistent'.owner_iff path k).1 howner
          by_cases hkey : k = key
          · rw [hkey, hholds'] at hr
            cases hr
            exact ⟨_, mem_append_right _ (.head _), hpath ▸ hcompile⟩
          · rw [hrest' k hkey] at hr
            exact hdeclared path k ((h.fresh_consistent.owner_iff path k).2 ⟨r, hr, hpath⟩)
      · exact absurd (hfree.2 hfreshFree) htaken
    · rcases register_of_compile hsha h.loaded_consistent hcompile with ⟨hloadedFree, -⟩ | ⟨-, e, he⟩
      · exact absurd (hfree.1 hloadedFree) htaken
      · refine .inr ⟨e, e', he, he', { h with of_firstDeclares := ?_, of_owner := hdeclared }⟩
        intro k path hk
        rcases hfirst k path hk with hk | ⟨-, hother, hnone⟩
        · exact h.of_firstDeclares k path hk
        · -- a package that nothing declared before is free
          obtain rfl : packagePath = path := Except.ok.inj (hcompile.symm.trans hother)
          refine absurd (fun owner howner => ?_) htaken
          obtain ⟨p, hp, hp'⟩ := h.of_owner packagePath owner howner
          exact absurd hp' (hnone p hp)

/-! ## The loops of `getMetadata` -/

lemma Tracks.loadPolicy (hold : Consistent rt old)
    (h : Tracks rt old before loaded fresh) {policies : Text → Entry Text} {path : Text}
    (hunclaimed : Unclaimed rt old (before ++ (policyAt policies path).toList ++ after)) :
    TracksResult rt old (before ++ (policyAt policies path).toList) (loadPolicy rt policies loaded path)
      (loadPolicy rt policies fresh path) := by
  unfold FileModule.loadPolicy policyAt at *
  cases hentry : policies path with
  | missing => exact .of_tracks (by simpa using h)
  | unreadable => exact .of_error
  | found text =>
    rw [hentry] at hunclaimed
    dsimp only at hunclaimed ⊢
    cases hraw : decodePolicySource (ecmaTrim text) with
    | none => exact .of_tracks (by simpa using h)
    | some raw =>
      cases hkey : keyFor path with
      | none => exact .of_error
      | some key =>
        rw [hraw, hkey] at hunclaimed
        have hunclaimed' : Unclaimed rt old (before ++ (key, raw) :: after) := by simpa using hunclaimed
        dsimp only
        rcases h.register hsha hold hunclaimed' with
          ⟨engine, engine', hengine, hengine', htracks⟩ | ⟨e, e', he, he', htracks⟩
        · rw [hengine, hengine']
          exact .of_tracks htracks
        · rw [he, he']
          exact .of_tracks htracks

lemma Tracks.loadClass (hold : Consistent rt old)
    (h : Tracks rt old before loaded fresh) {classType : ClassType} {typeDir : String} {classDir : ClassDir J}
    (hunclaimed : Unclaimed rt old (before ++ (declaration rt dir classType typeDir classDir).toList ++ after)) :
    TracksResult rt old (before ++ (declaration rt dir classType typeDir classDir).toList)
      (loadClass rt dir classType typeDir loaded classDir) (loadClass rt dir classType typeDir fresh classDir) := by
  unfold FileModule.loadClass declaration at *
  by_cases hpath : (!rt.validateModulePath (classPath dir typeDir classDir.name)) = true
  · rw [if_pos hpath, if_pos hpath]
    exact .of_error
  · rw [if_neg hpath, if_neg hpath]
    cases hlisted : listedClass rt classType classDir with
    | none =>
      refine .of_tracks ?_
      split_ifs <;> simpa using h
    | some listed =>
      obtain ⟨type, fields⟩ := listed
      by_cases hissue : classType = .issue
      · simp only [if_pos hissue]
        exact .of_tracks (by simpa using h)
      · rw [hlisted, if_neg hissue] at hunclaimed
        simp only [if_neg hissue]
        exact (h.loadPolicy hsha hold hunclaimed).andThen fun _ _ _ htracks => .of_tracks htracks

lemma Tracks.loadClasses (hold : Consistent rt old) {classType : ClassType}
    {typeDir : String} {classDirs : List (ClassDir J)} (h : Tracks rt old before loaded fresh)
    (hunclaimed : Unclaimed rt old (before ++ classDirs.filterMap (declaration rt dir classType typeDir) ++ after)) :
    TracksResult rt old (before ++ classDirs.filterMap (declaration rt dir classType typeDir))
      (loadClasses rt dir classType typeDir loaded classDirs)
      (loadClasses rt dir classType typeDir fresh classDirs) := by
  induction classDirs generalizing before loaded fresh with
  | nil =>
    rw [filterMap_nil, append_nil]
    exact .of_tracks h
  | cons classDir classDirs ih =>
    have hsplit : (classDir :: classDirs).filterMap (declaration rt dir classType typeDir) =
        (declaration rt dir classType typeDir classDir).toList ++
          classDirs.filterMap (declaration rt dir classType typeDir) := by
      rw [filterMap_cons]
      cases declaration rt dir classType typeDir classDir <;> rfl
    rw [hsplit, ← append_assoc] at hunclaimed ⊢
    have hclass := h.loadClass hsha hold (by rwa [append_assoc] at hunclaimed)
    exact hclass.andThen fun _ _ _ htracks =>
      (ih htracks hunclaimed).andThen fun _ _ _ htracks => .of_tracks htracks

lemma Tracks.loadTypes (hold : Consistent rt old)
    {types : List (ClassType × String)} (h : Tracks rt old before loaded fresh)
    (hunclaimed : Unclaimed rt old (before ++ types.flatMap (typeDeclarations rt dir) ++ after)) :
    TracksResult rt old (before ++ types.flatMap (typeDeclarations rt dir)) (loadTypes rt dir loaded types)
      (loadTypes rt dir fresh types) := by
  induction types generalizing before loaded fresh with
  | nil =>
    rw [flatMap_nil, append_nil]
    exact .of_tracks h
  | cons type types ih =>
    obtain ⟨classType, typeDir⟩ := type
    rw [flatMap_cons, ← append_assoc] at hunclaimed ⊢
    unfold FileModule.loadTypes
    unfold typeDeclarations at hunclaimed ⊢
    cases hdirs : dir.classDirs classType with
    | missing =>
      rw [hdirs] at hunclaimed
      exact ih (by simpa using h) hunclaimed
    | unreadable => exact .of_error
    | found classDirs =>
      rw [hdirs] at hunclaimed
      cases classDirs with
      | nil => exact ih (by simpa using h) hunclaimed
      | cons =>
        have hclasses := h.loadClasses hsha hold (by rwa [append_assoc] at hunclaimed)
        exact hclasses.andThen fun _ _ _ htracks =>
          (ih htracks hunclaimed).andThen fun _ _ _ htracks => .of_tracks htracks

lemma loadsFresh_of_unclaimed (hold : Consistent rt old)
    (hunclaimed : Unclaimed rt old (declarations rt dir)) : LoadsFresh rt dir old := by
  unfold LoadsFresh getMetadata
  cases dir.moduleJson with
  | none => exact ⟨rfl, fun hok => by cases hok⟩
  | some moduleJson =>
    have hall : Unclaimed rt old ([] ++ classTypes.flatMap (typeDeclarations rt dir) ++ []) := by
      simpa [declarations] using hunclaimed
    obtain ⟨hanswer, htracks⟩ := (tracks_empty hold).loadTypes hsha hold hall
    generalize FileModule.loadTypes rt dir ⟨old, []⟩ classTypes = result at hanswer htracks
    generalize FileModule.loadTypes rt dir ⟨.empty, []⟩ classTypes = result' at hanswer htracks
    obtain ⟨load, answer⟩ := result
    obtain ⟨load', answer'⟩ := result'
    obtain rfl : answer = answer' := hanswer
    cases answer with
    | error e => exact ⟨rfl, fun hok => by cases hok⟩
    | ok classes =>
      refine ⟨rfl, fun _ => funext fun key => ?_⟩
      have h := htracks rfl
      unfold RegoEngine.sources
      rw [get?_registrations_prune, get?_registrations_prune, h.registeredKeys]
      split_ifs with hkey
      · rw [h.of_mem key hkey]
      · rfl

end

/-- After any calls and changes, a load that finds its packages unclaimed comes out as the load of a new instance. -/
theorem loadsFresh_of_reachable [DecidableEq Hash] {rt : Runtime Hash} (hsha : Function.Injective rt.sha256)
    {s : State M J Hash} (h : (opaModule rt).Reachable (fun _ _ => True) s)
    (hunclaimed : Unclaimed rt s.engine (declarations rt s.dir)) : LoadsFresh rt s.dir s.engine :=
  loadsFresh_of_unclaimed hsha (consistent_of_reachable h) hunclaimed

/-- SHA-256 on the sources of the samples; on other texts something that cannot be mistaken for it. -/
def sampleSha256 (text : Text) : Text :=
  if text = [] then "e3b0c44298fc1c149afbf4c8996fb92427ae41e4649b934ca495991b7852b855".toList
  else if text = "package a".toList then "7663fa2eaf2e6846391a250cc37947941ffda1650e53cdee850c32f56e277971".toList
  else if text = "package b".toList then "09cc4f3bf8af8bd809dc1d3be96131068b189f0a5305a87d348222c2ed92db3f".toList
  else ':' :: text

def sampleSource (hash : Text) : Text :=
  if hash.head? = some 'e' then []
  else if hash.head? = some '7' then "package a".toList
  else if hash.head? = some '0' then "package b".toList
  else hash.tail

lemma sampleSha256_injective : Function.Injective sampleSha256 := by
  refine Function.LeftInverse.injective (g := sampleSource) fun text => ?_
  unfold sampleSha256
  split_ifs with hempty ha hb
  · exact hempty.symm
  · exact ha.symm
  · exact hb.symm
  · rfl

def sampleRuntime : Runtime Text where
  sha256 := sampleSha256
  addPolicy _ source := (extractPackage source).map ("data.".toList ++ ·)
  validateModulePath path := (path.splitOn '/').all (· ≠ "..".toList)
  toUpperCase text := text.map Char.toUpper

/-- A module with one component class. -/
def sampleDir (name policy : String) : DataDir Unit Unit where
  moduleJson := some ()
  moduleDir := "web".toList
  classDirs
    | .component => .found [⟨name.toList, some ⟨"process".toList, ()⟩⟩]
    | _ => .missing
  policies path := if path = "web/component/".toList ++ name.toList then .found policy.toList else .missing

lemma sampleDir_policies (name policy : String) :
    (sampleDir name policy).policies ("web/component/".toList ++ name.toList) = .found policy.toList :=
  if_pos rfl

/-- The engine after a load of a directory. -/
def sampleEngine (dir : DataDir Unit Unit) : RegoEngine Text :=
  (getMetadata sampleRuntime dir .empty).1

lemma sampleReachable (dir dir' : DataDir Unit Unit) :
    (opaModule sampleRuntime).Reachable (fun _ _ => True) ⟨dir', sampleEngine dir⟩ := by
  have hinit : (opaModule sampleRuntime).Reachable (fun _ _ => True) ⟨dir, .empty⟩ :=
    TransitionSystem.Reachable.init rfl
  have hloaded : (opaModule sampleRuntime).Reachable (fun _ _ => True) ⟨dir, sampleEngine dir⟩ :=
    .step (a := .getMetadata) hinit trivial rfl
  exact .step (a := .edit dir') hloaded trivial rfl

theorem movedPackage_loadsFresh :
    LoadsFresh sampleRuntime (sampleDir "server" "package b") (sampleEngine (sampleDir "server" "package a")) := by
  refine loadsFresh_of_reachable sampleSha256_injective (sampleReachable (sampleDir "server" "package a") _)
    fun before key source after packagePath hsplit _ _ owner howner => ?_
  have hkeys : ∀ d ∈ declarations sampleRuntime (sampleDir "server" "package b"),
      ∀ claim ∈ (sampleEngine (sampleDir "server" "package a")).owners.entries, d.1 = claim.2 := by decide +kernel
  have hmem : (key, source) ∈ before ++ (key, source) :: after := mem_append_right _ (.head _)
  rw [← hsplit] at hmem
  exact .inl (hkeys (key, source) hmem (packagePath, owner) (Record.mem_entries_iff.2 howner)).symm

/-- A class directory has another name: the claim of the old one is in the way of the new one. -/
theorem renamedClass_not_loadsFresh :
    ∃ s : State Unit Unit Text,
      (opaModule sampleRuntime).Reachable (fun _ _ => True) s ∧ ¬ LoadsFresh sampleRuntime s.dir s.engine := by
  refine ⟨_, sampleReachable (sampleDir "server" "package a") (sampleDir "gateway" "package a"), fun h => ?_⟩
  have hdiffer : (getMetadata sampleRuntime (sampleDir "gateway" "package a")
      (sampleEngine (sampleDir "server" "package a"))).2 ≠
        (getMetadata sampleRuntime (sampleDir "gateway" "package a") .empty).2 := by decide +kernel
  exact hdiffer h.1

end FileModule
