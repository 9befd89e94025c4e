import Dethernety.ModuleRegistry.Instances
import Mathlib.Tactic.SplitIfs

/-!
# Every instance is registered or disposed

Each instance is in one place: in an entry, disposed of, with a call that has loaded it, or with a late load. A call
that enters its module takes the entry out that it read at its start; when that is the entry that is there, every
instance keeps its one place (`accounted_of_reachable`). When another call has entered the same module meanwhile, one
instance is disposed of twice and another is lost.
-/

open List Record Option Bool

namespace ModuleRegistry

/-- The call has this instance. -/
def Phase.holds (inst : ℕ) : Phase → Bool
  | .loading (some held) | .received held _ | .attaching held _ => held = inst
  | .starting | .scanning | .loading none => false

namespace Registry

/-- The number of calls that have an instance. -/
def heldBy (calls : Record ℕ Call) (inst : ℕ) : ℕ :=
  calls.countValues fun c => c.phase.holds inst

/-- The number of places of an instance. -/
def places (s : Registry) (inst : ℕ) : ℕ :=
  s.customModules.countValues (· = inst) + s.disposed.count inst + heldBy s.calls inst + s.late.count (some inst)

/-- Each instance that has been constructed has one place. -/
def Balanced (s : Registry) : Prop :=
  ∀ inst, s.places inst = if inst < s.constructed then 1 else 0

lemma balanced_initial : initial.Balanced := fun _ => rfl

section

variable {s : Registry} {call : ℕ} {c : Call}

lemma held_goTo (hc : s.calls.get? call = some c) (kind : Kind) (phase : Phase) (inst : ℕ) :
    heldBy (s.calls.set call ⟨kind, phase⟩) inst + (if c.phase.holds inst then 1 else 0) =
      heldBy s.calls inst + if phase.holds inst then 1 else 0 := by
  have hset := s.calls.countValues_set call ⟨kind, phase⟩ fun c => c.phase.holds inst
  rwa [hc, any_some] at hset

lemma held_erase (hc : s.calls.get? call = some c) (inst : ℕ) :
    heldBy (s.calls.erase call) inst + (if c.phase.holds inst then 1 else 0) = heldBy s.calls inst := by
  have herase := s.calls.countValues_erase call fun c => c.phase.holds inst
  rwa [hc, any_some] at herase

lemma held_new (hc : s.calls.get? call = none) (kind : Kind) {phase : Phase} (inst : ℕ)
    (hphase : phase.holds inst = false) : heldBy (s.calls.set call ⟨kind, phase⟩) inst = heldBy s.calls inst := by
  have hset := s.calls.countValues_set call ⟨kind, phase⟩ fun c => c.phase.holds inst
  rw [hc] at hset
  simpa [heldBy, hphase] using hset

lemma registered_set (s : Registry) (moduleName : String) (new inst : ℕ) :
    (s.customModules.set moduleName new).countValues (· = inst) +
        (if s.customModules.get? moduleName = some inst then 1 else 0) =
      s.customModules.countValues (· = inst) + if new = inst then 1 else 0 := by
  have hset := s.customModules.countValues_set moduleName new fun held => held = inst
  cases hget : s.customModules.get? moduleName with
  | none | some held => simpa [hget] using hset

lemma count_disposed (inst? : Option ℕ) (disposed : List ℕ) (inst : ℕ) :
    (inst?.toList ++ disposed).count inst = disposed.count inst + if inst? = some inst then 1 else 0 := by
  cases inst? with
  | none => simp
  | some held => simp [count_cons]

end

variable {s s' : Registry}

lemma Balanced.of_places (h : s.Balanced) (hconstructed : s'.constructed = s.constructed)
    (hplaces : ∀ inst, s'.places inst = s.places inst) : s'.Balanced := by
  intro inst
  rw [hplaces, hconstructed]
  exact h inst

lemma Balanced.of_construct (h : s.Balanced) (hconstructed : s'.constructed = s.constructed + 1)
    (hplaces : ∀ inst, s'.places inst = s.places inst + if s.constructed = inst then 1 else 0) : s'.Balanced := by
  intro inst
  have hbefore := h inst
  rw [hplaces, hconstructed, hbefore]
  split_ifs <;> omega

lemma Balanced.le_one (h : s.Balanced) (inst : ℕ) : s.places inst ≤ 1 := by
  rw [h inst]
  split_ifs
  · exact Nat.le_refl 1
  · exact Nat.zero_le 1

variable {call : ℕ} {c : Call}

lemma Balanced.not_registered (h : s.Balanced)
    (hc : s.calls.get? call = some c) (inst : ℕ) (hholds : c.phase.holds inst = true) (moduleName : String) :
    s.customModules.get? moduleName ≠ some inst := by
  intro hget
  have hle := h.le_one inst
  have hcall : 0 < heldBy s.calls inst := countValues_pos hc hholds
  have hentry := countValues_pos (p := fun held => decide (held = inst)) hget (decide_eq_true rfl)
  rw [places] at hle
  omega

lemma Balanced.goTo (h : s.Balanced) (hc : s.calls.get? call = some c)
    {kind : Kind} {phase : Phase} (hholds : ∀ inst, phase.holds inst = c.phase.holds inst) :
    (s.goTo call kind phase).Balanced := by
  refine h.of_places rfl fun inst => ?_
  have hcalls := held_goTo hc kind phase inst
  rw [hholds] at hcalls
  simp only [places, Registry.goTo]
  omega

lemma Balanced.disposeModule (h : s.Balanced)
    (hc : s.calls.get? call = some c) {inst? : Option ℕ}
    (hholds : ∀ inst, c.phase.holds inst = true ↔ inst? = some inst) (kind : Kind) :
    ((s.disposeModule inst?).goTo call kind .scanning).Balanced := by
  refine h.of_places rfl fun inst => ?_
  have hcalls := held_goTo hc kind .scanning inst
  have hdisposed := count_disposed inst? s.disposed inst
  simp only [hholds, show Phase.scanning.holds inst = false from rfl, false_eq_true, if_false] at hcalls
  simp only [places, Registry.goTo, Registry.disposeModule]
  omega

lemma Balanced.next {a : RegistryEvent} (h : s.Balanced) (hundisturbed : Undisturbed s a)
    (hnext : s.next a = some s') : s'.Balanced := by
  cases a with rw [Registry.next] at hnext
  | loadModules call =>
    split_ifs at hnext with hcall hloaded
    · cases hnext
      exact h
    · cases hnext
      refine h.of_places rfl fun inst => ?_
      have hnew := held_new (not_isSome_iff_eq_none.1 hcall) .loadModules inst
        (show Phase.starting.holds inst = false from rfl)
      simp only [places, Registry.goTo]
      omega
  | reloadModule call moduleName =>
    split_ifs at hnext with hcall
    cases hnext
    refine h.of_places rfl fun inst => ?_
    have hnew := held_new (not_isSome_iff_eq_none.1 hcall)
      (.reloadModule moduleName (s.customModules.get? moduleName)) inst
      (show Phase.scanning.holds inst = false from rfl)
    simp only [places, Registry.goTo]
    omega
  | clear call =>
    split at hnext <;> cases hnext
    rename_i kind hc
    refine h.of_places rfl fun inst => ?_
    have hcalls := held_goTo hc kind .scanning inst
    -- there is no entry to be lost
    have hnone : s.customModules.countValues (fun held => decide (held = inst)) = 0 := by
      refine Nat.eq_zero_of_not_pos fun hpos => ?_
      obtain ⟨moduleName, held, hget, -⟩ := exists_of_countValues_pos hpos
      have hmem := mem_keys_of_get? hget
      rw [show s.customModules.keys = [] from hundisturbed] at hmem
      exact not_mem_nil hmem
    simp only [Phase.holds, false_eq_true, if_false] at hcalls
    simp only [places, Registry.goTo, hnone, countValues_empty]
    omega
  | leave call =>
    split at hnext <;> cases hnext
    all_goals
      rename_i kind hc
      refine h.of_places rfl fun inst => ?_
      have hcalls := held_erase hc inst
      simp only [Phase.holds, false_eq_true, if_false] at hcalls
      simp only [places]
      omega
  | load call =>
    split at hnext <;> cases hnext
    rename_i kind hc
    exact h.goTo hc fun _ => rfl
  | construct call =>
    split at hnext <;> cases hnext
    rename_i kind hc
    refine h.of_construct rfl fun inst => ?_
    have hcalls := held_goTo hc kind (.loading (some s.constructed)) inst
    simp only [Phase.holds, decide_eq_true_iff, false_eq_true, if_false] at hcalls
    simp only [places, Registry.goTo]
    omega
  | succeed =>
    split at hnext <;> cases hnext
    rename_i kind inst hc
    exact h.goTo hc fun _ => rfl
  | fail call =>
    split at hnext <;> cases hnext
    rename_i kind inst? hc
    refine h.disposeModule hc (fun inst => ?_) kind
    cases inst? with
    | none | some held => simp [Phase.holds]
  | timeout call =>
    split at hnext <;> cases hnext
    rename_i kind inst? hc
    refine h.of_places rfl fun inst => ?_
    have hcalls := held_goTo hc kind .scanning inst
    cases inst? with
    | none =>
      simp only [Phase.holds, false_eq_true, if_false] at hcalls
      simp only [places, Registry.goTo, count_cons]
      simpa using hcalls
    | some held =>
      simp only [Phase.holds, decide_eq_true_iff, false_eq_true, if_false] at hcalls
      simp only [places, Registry.goTo, count_cons, beq_iff_eq, some_inj]
      omega
  | constructLate =>
    split_ifs at hnext with hlate
    cases hnext
    refine h.of_construct rfl fun inst => ?_
    simp only [places, count_cons, count_erase_of_ne (some_ne_none inst), beq_iff_eq, some_inj]
    omega
  | endLate load =>
    split_ifs at hnext with hlate
    cases hnext
    refine h.of_places rfl fun inst => ?_
    have hdisposed := count_disposed load s.disposed inst
    have hcount := (perm_cons_erase hlate).count_eq (some inst)
    rw [count_cons] at hcount
    simp only [beq_iff_eq] at hcount
    simp only [places, Registry.disposeModule]
    omega
  | proceed call =>
    split at hnext <;> cases hnext
    rename_i kind inst loadedName hc
    have hheld : ∀ other, (Phase.received inst loadedName).holds other = true ↔ some inst = some other := by
      simp [Phase.holds]
    unfold Registry.proceed
    split
    all_goals
      split_ifs
      · exact h.disposeModule hc hheld _
      · exact h.goTo hc fun _ => rfl
  | enter call =>
    split at hnext <;> cases hnext
    rename_i kind inst loadedName hc
    have hnot := h.not_registered hc inst (decide_eq_true rfl)
    refine h.of_places ?_ fun other => ?_
    · cases kind <;> rfl
    cases kind with
    | loadModules =>
      have hregistered := registered_set s loadedName inst other
      have hcalls := held_goTo hc .loadModules .scanning other
      simp only [Phase.holds, decide_eq_true_iff, false_eq_true, if_false] at hcalls
      have hentry : s.customModules.get? loadedName = none := by
        refine hundisturbed (loadedName, none) ?_
        rw [Registry.taken, hc]
        rfl
      rw [hentry] at hregistered
      simp only [places, Registry.enter, Registry.goTo]
      simp only [reduceCtorEq, if_false] at hregistered
      omega
    | reloadModule moduleName existing =>
      -- the entry that is taken out is the one that is disposed of
      have hexisting : s.customModules.get? moduleName = existing := by
        refine hundisturbed (moduleName, existing) ?_
        rw [Registry.taken, hc]
        rfl
      have hregistered := registered_set s moduleName inst other
      have hcalls := held_erase hc other
      have hfilter : existing.filter (· ≠ inst) = existing := by
        cases existing with
        | none => rfl
        | some held =>
          have hne : held ≠ inst := fun heq => hnot moduleName (heq ▸ hexisting)
          rw [filter_some, if_pos (decide_eq_true hne)]
      have hdisposed := count_disposed existing s.disposed other
      rw [hexisting] at hregistered
      simp only [Phase.holds, decide_eq_true_iff] at hcalls
      simp only [places, Registry.enter, Registry.disposeModule, hfilter]
      omega

lemma Balanced.accounted (h : s.Balanced) (hquiet : s.Quiet) {inst : ℕ}
    (hinst : inst < s.constructed) : s.Accounted inst := by
  have hplaces := h inst
  rw [if_pos hinst, places] at hplaces
  have hcalls : s.calls.countValues (fun c => c.phase.holds inst) = 0 := by
    refine Nat.eq_zero_of_not_pos fun hpos => ?_
    obtain ⟨call, c, hget, -⟩ := exists_of_countValues_pos hpos
    exact not_mem_nil (hquiet.1 ▸ mem_keys_of_get? hget)
  rw [heldBy, hcalls, hquiet.2, count_nil] at hplaces
  by_cases hpos : 0 < s.customModules.countValues fun held => decide (held = inst)
  · obtain ⟨moduleName, held, hget, hheld⟩ := exists_of_countValues_pos hpos
    obtain rfl : held = inst := of_decide_eq_true hheld
    refine .inl ⟨moduleName, hget, count_eq_zero.1 (by omega), fun other hother => by_contra fun hne => ?_⟩
    have htwo := one_lt_countValues (p := fun other => decide (other = held)) hother hget hne
      (decide_eq_true rfl) (decide_eq_true rfl)
    omega
  · refine .inr ⟨by omega, fun moduleName hget => hpos ?_⟩
    exact countValues_pos hget (decide_eq_true rfl)

end Registry

/-- In a run in which a call enters its module in the place of the entry that it disposes of, an instance that is
registered has never been disposed of, and when no call and no load is running each instance is registered once or has
been disposed of once. -/
theorem accounted_of_reachable {s : Registry} (h : system.Reachable Undisturbed s) :
    (∀ moduleName inst, s.customModules.get? moduleName = some inst → inst ∉ s.disposed) ∧
      (s.Quiet → ∀ inst < s.constructed, s.Accounted inst) := by
  have hbalanced : s.Balanced := by
    refine h.invariant (fun s hs => ?_) fun s a s' hs hundisturbed hnext => hs.next hundisturbed hnext
    rw [show s = initial from hs]
    exact Registry.balanced_initial
  refine ⟨fun moduleName inst hget hmem => ?_, fun hquiet inst hinst => hbalanced.accounted hquiet hinst⟩
  have hle := hbalanced.le_one inst
  have hentry := countValues_pos (p := fun held => decide (held = inst)) hget (decide_eq_true rfl)
  have hdisposed := count_pos_iff.2 hmem
  rw [Registry.places] at hle
  omega

/-- A module that is loaded and then reloaded by two calls at once. -/
def reloadedTwice : List RegistryEvent :=
  [.loadModules 0, .clear 0, .load 0, .construct 0, .succeed 0 "core", .proceed 0, .enter 0, .leave 0,
    .reloadModule 1 "core", .reloadModule 2 "core", .load 1, .construct 1, .succeed 1 "core", .load 2, .construct 2,
    .succeed 2 "core", .proceed 1, .proceed 2, .enter 1, .enter 2]

/-- Both calls dispose of the first instance. -/
theorem not_accounted_reloadedTwice :
    ¬∀ s, system.Reachable (fun _ _ => True) s →
      (∀ moduleName inst, s.customModules.get? moduleName = some inst → inst ∉ s.disposed) ∧
        (s.Quiet → ∀ inst < s.constructed, s.Accounted inst) := by
  intro hclaim
  have hrun : ((system.run (fun _ _ => true) initial reloadedTwice).any fun s => decide
      (s.customModules.entries = [("core", 2)] ∧ s.disposed = [0, 0] ∧ s.constructed = 3 ∧ s.calls.keys = [] ∧
        s.late = [])) = true := by
    decide +kernel
  obtain ⟨s, hreach, hcheck⟩ := TransitionSystem.exists_reachable hrun rfl fun _ _ _ => trivial
  obtain ⟨hentries, hdisposed, hconstructed, hcalls, hlate⟩ := of_decide_eq_true hcheck
  obtain ⟨moduleName, hget, -⟩ | ⟨hcount, -⟩ := (hclaim s hreach).2 ⟨hcalls, hlate⟩ 0 (by omega)
  · have hmem := mem_entries_iff.2 hget
    rw [hentries] at hmem
    simp at hmem
  · rw [hdisposed] at hcount
    cases hcount

/-- A module that is reloaded by one call after another, the second time with a load that comes too late. -/
theorem accounted_reloaded : ∃ s : Registry, s.disposed = [1, 0] ∧ s.constructed = 3 ∧
    ∀ inst < s.constructed, s.Accounted inst := by
  have hrun : ((system.run (fun s a => decide (Undisturbed s a)) initial
      [.loadModules 0, .clear 0, .load 0, .construct 0, .succeed 0 "core", .proceed 0, .enter 0, .leave 0,
        .reloadModule 1 "core", .reloadModule 2 "core", .load 2, .construct 2, .timeout 2, .leave 2, .load 1,
        .construct 1, .succeed 1 "core", .proceed 1, .enter 1, .endLate (some 1)]).any fun s => decide
      (s.disposed = [1, 0] ∧ s.constructed = 3 ∧ s.calls.keys = [] ∧ s.late = [])) = true := by
    decide +kernel
  obtain ⟨s, hreach, hcheck⟩ := TransitionSystem.exists_reachable hrun rfl fun _ _ => of_decide_eq_true
  obtain ⟨hdisposed, hconstructed, hquiet⟩ := of_decide_eq_true hcheck
  exact ⟨s, hdisposed, hconstructed, (accounted_of_reachable hreach).2 hquiet⟩

end ModuleRegistry
