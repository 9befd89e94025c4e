import Dethernety.Foundations.Transition
import Mathlib.Data.List.Infix

/-!
# The template cache

Requests for the template of a module and for the template and guide of a class, as the template resolver serves them
from the cache of `template-cache.service.ts`, while module instances are replaced and `invalidateModuleCache` is
called. A request that finds nothing in the cache first checks the health of the module, then takes the instance that
is registered, and caches what this one answers. Entries expire, and are evicted, at any time.
-/

open List Function Option

namespace TemplateCache

abbrev Text := List Char

inductive ContentKind
  | template
  | guide
  deriving DecidableEq

/-- Content, by where it comes from; the instances of a module are numbered as they are registered. -/
structure Content where
  moduleName : Text
  inst : ℕ

structure Request where
  kind : ContentKind
  moduleName : Text
  /-- A request for the template of a module has no class id. -/
  id : Option Text
  callerVariant : Bool
  /-- The instance that was registered when the cache of the module was last invalidated before the request. -/
  since : ℕ
  deriving DecidableEq

structure State where
  registry : Text → Option ℕ
  cache : Text → Option Content
  /-- Requests that check the health of the module. -/
  checking : List Request
  /-- Requests that await what an instance answers. -/
  fetching : List (Request × ℕ)
  answers : List (Request × Content)
  /-- The instance that was registered when the cache of a module was last invalidated. -/
  floor : Text → ℕ

inductive Event
  | request (kind : ContentKind) (moduleName : Text) (id : Option Text)
  | fetch (r : Request)
  | answer (r : Request) (inst : ℕ) (isEmpty : Bool)
  | replace (moduleName : Text) (inst : ℕ)
  | invalidateModuleCache (moduleName : Text)
  | drop (key : Text)

def ContentKind.text : ContentKind → Text
  | .template => "template".toList
  | .guide => "guide".toList

def generateKey (type : ContentKind) (moduleName : Text) (id : Option Text) : Text :=
  match id with
  | none | some [] => type.text ++ ':' :: moduleName
  | some id => type.text ++ ':' :: moduleName ++ ':' :: id

/-- `key.includes` of `invalidateModule` -/
def includesModule (moduleName key : Text) : Bool :=
  decide (':' :: moduleName ++ [':'] <:+: key)

variable (isContentCallerVariant : ℕ → Bool)

def next (s : State) : Event → Option State
  | .request kind moduleName id =>
    let callerVariant := id.isSome && (s.registry moduleName).any isContentCallerVariant
    let r : Request := ⟨kind, moduleName, id, callerVariant, s.floor moduleName⟩
    match if callerVariant then none else s.cache (generateKey kind moduleName id) with
    | some content => some { s with answers := (r, content) :: s.answers }
    | none => some { s with checking := r :: s.checking }
  | .fetch r =>
    if r ∈ s.checking then
      (s.registry r.moduleName).map fun inst =>
        { s with checking := s.checking.erase r, fetching := (r, inst) :: s.fetching }
    else none
  | .answer r inst isEmpty =>
    if (r, inst) ∈ s.fetching then
      let content : Content := ⟨r.moduleName, inst⟩
      some { s with
        fetching := s.fetching.erase (r, inst)
        answers := (r, content) :: s.answers
        cache := if isEmpty || r.callerVariant then s.cache
          else update s.cache (generateKey r.kind r.moduleName r.id) (some content) }
    else none
  | .replace moduleName inst =>
    if (s.registry moduleName).all (· < inst) then
      some { s with registry := update s.registry moduleName (some inst) }
    else none
  | .invalidateModuleCache moduleName =>
    some { s with
      cache := fun key => if includesModule moduleName key then none else s.cache key
      floor := update s.floor moduleName ((s.registry moduleName).getD (s.floor moduleName)) }
  | .drop key => some { s with cache := update s.cache key none }

def empty : State :=
  ⟨fun _ => none, fun _ => none, [], [], [], fun _ => 0⟩

def system : TransitionSystem State Event where
  init s := s = empty
  next := next isContentCallerVariant

/-- What is cached for the module as a whole comes from the instance that is registered, no request awaits an older
one, and no entry of another module has a key with the name of the module between colons. -/
def Invalidates (s : State) : Event → Prop
  | .invalidateModuleCache moduleName =>
    (∀ kind id content, id = none ∨ id = some [] → s.cache (generateKey kind moduleName id) = some content →
      content.moduleName = moduleName → (s.registry moduleName).all (· ≤ content.inst) = true) ∧
    (∀ e ∈ s.fetching, e.1.moduleName = moduleName → (s.registry moduleName).all (· ≤ e.2) = true) ∧
    ∀ key content, includesModule moduleName key = true → s.cache key = some content → content.moduleName = moduleName
  | _ => True

/-- No request has been answered with what an instance before the last invalidation produced. -/
def Fresh (s : State) : Prop :=
  ∀ e ∈ s.answers, e.2.moduleName = e.1.moduleName → e.1.since ≤ e.2.inst

/-- The call removes no entry of another module. -/
def KeepsOthers (s : State) (moduleName : Text) (s' : State) : Prop :=
  ∀ key content, s.cache key = some content → content.moduleName ≠ moduleName → s'.cache key = some content

variable {isContentCallerVariant} {s s' : State} {a : Event}

lemma id_of_not_includesModule {kind : ContentKind} {moduleName : Text} {id : Option Text}
    (h : includesModule moduleName (generateKey kind moduleName id) = false) : id = none ∨ id = some [] := by
  match id with
  | none | some [] => simp
  | some (c :: id) => exact absurd ⟨kind.text, c :: id, by simp [generateKey]⟩ (of_decide_eq_false h)

/-- What is cached or on its way is no older than the last invalidation of its module. -/
structure Inv (s : State) : Prop where
  fresh : Fresh s
  cached : ∀ key content, s.cache key = some content → s.floor content.moduleName ≤ content.inst ∧
    ∃ kind id, key = generateKey kind content.moduleName id
  registered : ∀ moduleName, s.floor moduleName ≤ (s.registry moduleName).getD 0
  checking : ∀ r ∈ s.checking, r.since ≤ s.floor r.moduleName
  fetching : ∀ e ∈ s.fetching, e.1.since ≤ s.floor e.1.moduleName ∧ s.floor e.1.moduleName ≤ e.2

/-- One case per event; an invalidation raises `floor`, and drops what it would outdate. -/
lemma Inv.next (h : Inv s) (hok : Invalidates s a) (hnext : next isContentCallerVariant s a = some s') : Inv s' := by
  cases a with
  | request =>
    simp only [TemplateCache.next] at hnext
    split at hnext
    · rename_i content hcontent
      cases hnext
      split_ifs at hcontent
      refine ⟨forall_mem_cons.2 ⟨fun heq => ?_, h.fresh⟩, h.cached, h.registered, h.checking, h.fetching⟩
      exact (congrArg s.floor heq).ge.trans (h.cached _ _ hcontent).1
    · cases hnext
      exact ⟨h.fresh, h.cached, h.registered, forall_mem_cons.2 ⟨le_rfl, h.checking⟩, h.fetching⟩
  | fetch r =>
    obtain ⟨hmem, hnext⟩ := ite_none_right_eq_some.1 hnext
    obtain ⟨inst, hinst, rfl⟩ := map_eq_some_iff.1 hnext
    have hfloor := h.registered r.moduleName
    rw [hinst] at hfloor
    exact ⟨h.fresh, h.cached, h.registered, fun q hq => h.checking q (mem_of_mem_erase hq),
      forall_mem_cons.2 ⟨⟨h.checking r hmem, hfloor⟩, h.fetching⟩⟩
  | answer r =>
    obtain ⟨hmem, hnext⟩ := ite_none_right_eq_some.1 hnext
    cases hnext
    have hfetched := h.fetching _ hmem
    refine ⟨forall_mem_cons.2 ⟨fun _ => hfetched.1.trans hfetched.2, h.fresh⟩, fun key content hcontent => ?_,
      h.registered, h.checking, fun e he => h.fetching e (mem_of_mem_erase he)⟩
    dsimp only at hcontent ⊢
    split_ifs at hcontent
    · exact h.cached _ _ hcontent
    · by_cases hkey : key = generateKey r.kind r.moduleName r.id
      · rw [hkey, update_self] at hcontent
        cases hcontent
        exact ⟨hfetched.2, _, _, hkey⟩
      · rw [update_of_ne hkey] at hcontent
        exact h.cached _ _ hcontent
  | replace moduleName inst =>
    obtain ⟨hold, hnext⟩ := ite_none_right_eq_some.1 hnext
    cases hnext
    refine ⟨h.fresh, h.cached, fun m => ?_, h.checking, h.fetching⟩
    by_cases hm : m = moduleName
    · subst hm
      have hfloor := h.registered m
      cases hreg : s.registry m <;> simp [hreg] at hold hfloor ⊢ <;> omega
    · simp only [update_of_ne hm, h.registered m]
  | invalidateModuleCache moduleName =>
    cases hnext
    obtain ⟨hwhole, hawaited, -⟩ := hok
    -- the bound goes up to the instance that is registered
    have hmono (m : Text) : s.floor m ≤
        update s.floor moduleName ((s.registry moduleName).getD (s.floor moduleName)) m := by
      have hfloor := h.registered m
      by_cases hm : m = moduleName
      · subst hm
        cases hreg : s.registry m <;> simp_all
      · rw [update_of_ne hm]
    have hreached (m : Text) (i : ℕ) (hi : s.floor m ≤ i)
        (hcurrent : m = moduleName → (s.registry moduleName).all (· ≤ i) = true) :
        update s.floor moduleName ((s.registry moduleName).getD (s.floor moduleName)) m ≤ i := by
      by_cases hm : m = moduleName
      · subst hm
        rw [update_self]
        cases hreg : s.registry m with
        | none => exact hi
        | some j => simpa [hreg] using hcurrent rfl
      · rwa [update_of_ne hm]
    refine ⟨h.fresh, fun key content hcontent => ?_, fun m => hreached m _ (h.registered m) ?_,
      fun r hr => (h.checking r hr).trans (hmono _), fun e he => ⟨(h.fetching e he).1.trans (hmono _),
        hreached _ _ (h.fetching e he).2 (hawaited e he)⟩⟩
    · dsimp only at hcontent
      split_ifs at hcontent with hincludes
      obtain ⟨hfloor, kind, id, rfl⟩ := h.cached key content hcontent
      refine ⟨hreached _ _ hfloor fun hm => ?_, kind, id, rfl⟩
      rw [hm, Bool.not_eq_true] at hincludes
      rw [hm] at hcontent
      exact hwhole kind id content (id_of_not_includesModule hincludes) hcontent hm
    · rintro rfl
      cases s.registry m <;> simp
  | drop key =>
    cases hnext
    refine ⟨h.fresh, fun key' content hcontent => h.cached key' content ?_, h.registered, h.checking, h.fetching⟩
    by_cases hkey : key' = key
    · simp [hkey] at hcontent
    · exact (update_of_ne hkey _ _).symm.trans hcontent

/-- The call spares the other modules if its substring test meets entries of this module only. -/
lemma keepsOthers_iff {moduleName : Text}
    (hnext : next isContentCallerVariant s (.invalidateModuleCache moduleName) = some s') :
    KeepsOthers s moduleName s' ↔ ∀ key content, includesModule moduleName key = true → s.cache key = some content →
      content.moduleName = moduleName := by
  cases hnext
  refine ⟨fun h key content hincludes hcontent => ?_, fun h key content hcontent hother => ?_⟩
  · by_contra hother
    have hkept := h key content hcontent hother
    simp [hincludes] at hkept
  · exact (if_neg fun hincludes => hother (h key content hincludes hcontent)).trans hcontent

/-- In a run in which every invalidation finds nothing of an older instance that it would leave behind, and nothing of
another module under the keys that it removes, no request is answered with what an instance before the last
invalidation produced, and an invalidation removes entries of its module only. -/
theorem fresh_of_reachable (h : (system isContentCallerVariant).Reachable Invalidates s) :
    Fresh s ∧ ∀ moduleName s', Invalidates s (.invalidateModuleCache moduleName) →
      next isContentCallerVariant s (.invalidateModuleCache moduleName) = some s' → KeepsOthers s moduleName s' := by
  have hinv : Inv s := by
    refine h.invariant (fun s hs => ?_) fun s a s' hs hok hnext => hs.next hok hnext
    obtain rfl : s = _ := hs
    exact ⟨by simp [Fresh, empty], by simp [empty], by simp [empty], by simp [empty], by simp [empty]⟩
  exact ⟨hinv.fresh, fun moduleName s' hok hnext => (keepsOthers_iff hnext).2 hok.2.2⟩

/-- The template of a module is cached, and then the module is replaced. -/
def replaced : List Event :=
  let r : Request := ⟨.template, ['m'], none, false, 0⟩
  [.replace ['m'] 0, .request .template ['m'] none, .fetch r, .answer r 0 false, .replace ['m'] 1,
    .invalidateModuleCache ['m'], .request .template ['m'] none]

/-- The template is still served. -/
theorem not_fresh_replaced :
    ¬∀ s, (system fun _ => false).Reachable (fun _ _ => True) s → Fresh s := by
  intro hclaim
  have hrun : ((system fun _ => false).run (fun _ _ => true) empty replaced).any
      (fun s => s.answers.any fun e => e.2.moduleName = e.1.moduleName && e.2.inst < e.1.since) = true := by
    decide +kernel
  obtain ⟨s, hs, hcheck⟩ := TransitionSystem.exists_reachable hrun rfl fun _ _ _ => trivial
  obtain ⟨e, he, hstale⟩ := any_eq_true.1 hcheck
  rw [Bool.and_eq_true, decide_eq_true_eq, decide_eq_true_eq] at hstale
  have hfresh := hclaim s hs
  exact absurd (hfresh e he hstale.1) hstale.2.not_ge

/-- A class template is cached from instance 0, the module is replaced and invalidated, and instance 1 answers. -/
theorem fresh_served : ∃ s : State, (s.answers.map fun e => (e.1.since, e.2.inst)) = [(1, 1), (0, 0)] ∧ Fresh s := by
  let r (since : ℕ) : Request := ⟨.template, ['m'], some ['c'], false, since⟩
  let key := generateKey .template ['m'] (some ['c'])
  let noCall (_ : State) (a : Event) : Bool := !(a matches .invalidateModuleCache _)
  have hnoCall : ∀ s a, noCall s a = true → Invalidates s a := by
    intro s a ha
    cases a <;> trivial
  let cached : State := ⟨update (update (fun _ => none) ['m'] (some 0)) ['m'] (some 1),
    update (fun _ => none) key (some ⟨['m'], 0⟩), [], [], [(r 0, ⟨['m'], 0⟩)], fun _ => 0⟩
  have hcached : (system fun _ => false).run noCall empty [.replace ['m'] 0, .request .template ['m'] (some ['c']),
      .fetch (r 0), .answer (r 0) 0 false, .replace ['m'] 1] = some cached := rfl
  have hcontent : ∀ k content, cached.cache k = some content → k = key ∧ content = ⟨['m'], 0⟩ := by
    intro k content hk
    simp only [cached, update_apply] at hk
    split_ifs at hk with hkey
    exact ⟨hkey, (some.inj hk).symm⟩
  have hcall : Invalidates cached (.invalidateModuleCache ['m']) := by
    refine ⟨fun kind id content hid hk => ?_, nofun, fun k content _ hk => (hcontent k content hk).2 ▸ rfl⟩
    -- a key without a class id is another one
    have hkey : generateKey kind ['m'] none ≠ key := by cases kind <;> decide
    exact absurd (hcontent _ _ hk).1 (by rcases hid with rfl | rfl <;> exact hkey)
  let called := (next (fun _ => false) cached (.invalidateModuleCache ['m'])).getD cached
  have hcalled : (system fun _ => false).Reachable Invalidates called :=
    (TransitionSystem.reachable_of_run hnoCall (.init rfl) hcached).step hcall rfl
  obtain ⟨s, hserved, hanswers⟩ : ∃ s, (system fun _ => false).run noCall called
      [.request .template ['m'] (some ['c']), .fetch (r 1), .answer (r 1) 1 false] = some s ∧
        (s.answers.map fun e => (e.1.since, e.2.inst)) = [(1, 1), (0, 0)] := ⟨_, rfl, rfl⟩
  exact ⟨s, hanswers, (fresh_of_reachable (TransitionSystem.reachable_of_run hnoCall hcalled hserved)).1⟩

end TemplateCache
