import Dethernety.ClassIdentity.Recovery

/-!
# Live work under recovery

A recovery call decides in read transactions and acts in a later write, which matches on less. What it relies on in
between is `relied`: that no class of the id is held, that it has few enough instances, that the edge to revive is
there. Deletions spare live work and events tell of changes in every run in which no other transaction ends what a
call under way relies on (`liveWork_of_reachable`); a revival between the reads and the write of a deletion ends it,
and the deletion takes an active class (`not_liveWork_revivedBetween`).
-/

open List Bool

namespace ClassIdentity.Recovery

open Threads

namespace Database

variable (g : Database)

/-- The classes of the label and the id that have a `HAS_CLASS` edge. -/
def heldClasses (label : ClassLabel) (classId : String) : List ℕ :=
  g.classes.keys.filter fun c => g.isClass label classId c && g.isHeld c

/-- The elements that are instances of the classes of the label and the id. -/
def elementsOf (label : ClassLabel) (classId : String) : List ℕ :=
  g.elements.keys.filter fun x => x ∈ g.instancesOf label classId

end Database

/-- The nodes that are no longer there. -/
def lost {V : Type} (before after : Record ℕ V) : List ℕ :=
  before.keys.filter fun x => x ∉ after.keys

/-- A deletion that takes no class in use, and no more instances than it may. -/
structure Spares (cascade : Bool) (before after : Database) : Prop where
  held : ∀ c ∈ lost before.classes after.classes, before.isHeld c = false
  elements : cascade = false → lost before.elements after.elements = []
  unbound : cascade = false → ∀ c ∈ lost before.classes after.classes, ∀ e ∈ before.instances, e.2 ≠ c
  bounded : cascade = true → (lost before.elements after.elements).length ≤ CASCADE_HARD_LIMIT

/-- Whether a call asks for the instances too: `args.cascade === true` -/
def DeleteOrphanedArgs.cascades (args : DeleteOrphanedArgs) : Bool :=
  args.cascade = some true

/-- Every step of a deletion spares live work, and an event comes after a write of the same call that changed the
database. -/
structure KeepsLiveWork (log : List LogStep) (st : LogStep) : Prop where
  spares : ∀ args, st.request = .deleteOrphanedClass args → Spares args.cascades st.before st.after
  emits : ∀ event, st.call = .emit event →
    ∃ w ∈ log, w.thread = st.thread ∧ w.request = st.request ∧ w.before ≠ w.after

/-! ## The condition -/

/-- How many instances a deletion may find. -/
def instanceLimit (cascade : Bool) : ℕ :=
  if cascade then CASCADE_HARD_LIMIT else 0

/-- What a call goes on from after a read that lets it go on. -/
def relied (st : LogStep) : Database → Bool :=
  match st.request, st.event with
  | .deleteOrphanedClass _, ⟨.orphaned label classId, some _⟩ => fun g => (g.heldClasses label classId).isEmpty
  | .deleteOrphanedClass args, ⟨.incidentCount label classId, count⟩ =>
    if (refusal args.cascades label classId count).isSome then fun _ => true
    else fun g => (g.elementsOf label classId).length ≤ instanceLimit args.cascades
  | .reviveOrphanedClass _, ⟨.orphaned label classId, some (moduleName, _)⟩ =>
    fun g => g.holds.any (g.isOwned .hasOrphanedClass moduleName label classId)
  | _, _ => fun _ => true

/-- The call has acted, or it was refused. -/
def closes (st : LogStep) : Bool :=
  match st.request, st.event with
  | _, ⟨.deleteClass _ _, _⟩ | _, ⟨.reviveClass _ _ _, _⟩ => true
  | .deleteOrphanedClass args, ⟨.incidentCount label classId, count⟩ =>
    (refusal args.cascades label classId count).isSome
  | _, _ => false

def closed (log : List LogStep) (i : ℕ) : Bool :=
  log.any fun st => st.thread = i && closes st

/-- A deletion finds no class of the id held when it looks, and no step ends what another call under way relies on. -/
def undisturbing (log : List LogStep) (st : LogStep) : Bool :=
  relied st st.before && log.all fun q =>
    q.thread = st.thread || closed log q.thread || !relied q st.before || relied q st.after

def recoveryContract : Contract Answer Request Database where
  interleaved := true
  serves _ := true
  inv _ _ := True
  ok := undisturbing
  good := KeepsLiveWork

variable {i : ℕ} {req : Request} {o : ℕ} {g g' : Database} {c : Call} {a : Answer c} {log : List LogStep}
  {past : List (Script.Event Answer)} {label : ClassLabel} {classId : String} {P : Database → Bool}

/-! ## Single writes -/

lemma lost_self {V : Type} (r : Record ℕ V) : lost r r = [] :=
  filter_eq_nil_iff.2 fun x hx => by simpa using hx

lemma Spares.refl (cascade : Bool) (g : Database) : Spares cascade g g where
  held := by
    rw [lost_self]
    exact fun _ hc => absurd hc not_mem_nil
  elements _ := lost_self _
  unbound _ := by
    rw [lost_self]
    exact fun _ hc => absurd hc not_mem_nil
  bounded _ := by
    rw [lost_self]
    exact Nat.zero_le _

lemma mem_lost_classes {x : ℕ} (h : x ∈ lost g.classes (g.deleteOrphaned label classId).classes) :
    x ∈ g.classes.keys ∧ g.isClass label classId x = true := by
  obtain ⟨hx, hlost⟩ := mem_filter.1 h
  have hnot : x ∉ (g.classes.filterKeys fun c => !g.isClass label classId c).keys := of_decide_eq_true hlost
  rw [Record.keys_filterKeys, mem_filter] at hnot
  refine ⟨hx, ?_⟩
  by_contra hclass
  exact hnot ⟨hx, by simpa using hclass⟩

lemma lost_elements : lost g.elements (g.deleteOrphaned label classId).elements = g.elementsOf label classId := by
  refine filter_congr fun x hx => ?_
  have hkeys : (g.deleteOrphaned label classId).elements.keys =
      g.elements.keys.filter fun x => !decide (x ∈ g.instancesOf label classId) :=
    Record.keys_filterKeys _ _
  simp [hkeys, hx]

lemma spares_deleteOrphaned {cascade : Bool} (hheld : g.heldClasses label classId = [])
    (hcount : (g.elementsOf label classId).length ≤ instanceLimit cascade) :
    Spares cascade g (g.deleteOrphaned label classId) where
  held x hx := by
    obtain ⟨hkey, hclass⟩ := mem_lost_classes hx
    have hnot := filter_eq_nil_iff.1 hheld x hkey
    simpa [hclass] using hnot
  elements hcascade := by
    rw [lost_elements]
    rw [hcascade] at hcount
    exact eq_nil_of_length_eq_zero (Nat.le_zero.1 hcount)
  unbound hcascade x hx e he heq := by
    obtain ⟨-, hclass⟩ := mem_lost_classes hx
    have hmem : e.1 ∈ g.elementsOf label classId := by
      refine mem_filter.2 ⟨(g.instances_ends e he).1, decide_eq_true ?_⟩
      exact mem_map.2 ⟨e, mem_filter.2 ⟨he, by rw [heq]; exact hclass⟩, rfl⟩
    rw [hcascade] at hcount
    rw [eq_nil_of_length_eq_zero (Nat.le_zero.1 hcount)] at hmem
    exact not_mem_nil hmem
  bounded hcascade := by
    rw [lost_elements]
    rwa [hcascade] at hcount

variable {moduleName : String}

/-- A revival that matches an edge changes the database: no such edge is left. -/
lemma renameEdge_ne
    (h : g.holds.any (g.isOwned .hasOrphanedClass moduleName label classId) = true) :
    g.renameEdge moduleName label classId .hasOrphanedClass .hasClass ≠ g := by
  intro heq
  have hnone : ∀ e ∈ (g.renameEdge moduleName label classId .hasOrphanedClass .hasClass).holds,
      g.isOwned .hasOrphanedClass moduleName label classId e = false := by
    intro e he
    obtain ⟨e', _, rfl⟩ := mem_map.1 he
    split_ifs with howned
    · simp [Database.isOwned]
    · exact eq_false_iff.2 howned
  rw [heq] at hnone
  obtain ⟨e, he, howned⟩ := any_eq_true.1 h
  exact absurd (howned.symm.trans (hnone e he)) nofun

lemma setClassId_ne {className oldId newId : String} (hne : oldId ≠ newId)
    (h : (g.migrating moduleName label className oldId).length ≠ 0) :
    g.setClassId moduleName label className oldId newId ≠ g := by
  intro heq
  obtain ⟨e, he⟩ := exists_mem_of_length_pos (Nat.pos_of_ne_zero h)
  have hclass := (mem_filter.1 he).2
  obtain ⟨node, hnode, hid⟩ := (Option.any_eq_true _ _).1 hclass
  have hget : (g.setClassId moduleName label className oldId newId).classes.get? e.target =
      some (Database.withId oldId newId node) := by
    refine (Record.get?_mapValues _ _ _).trans ?_
    have hany : ((g.migrating moduleName label className oldId).any (·.target = e.target)) = true :=
      any_eq_true.2 ⟨e, he, decide_eq_true rfl⟩
    rw [hnode, Option.map_some, if_pos hany]
  rw [heq, hnode] at hget
  have hsame : node.id = newId := congrArg ClassNode.id (Option.some.inj hget)
  simp only [and_eq_true, decide_eq_true_eq] at hid
  exact hne (hid.2.symm.trans hsame)

/-! ## What a call knows -/

/-- A call that did not begin. -/
def Untouched (i : ℕ) : Assertion Answer Request Database :=
  fun _ log _ => ∀ q ∈ log, q.thread ≠ i

/-- A call that goes on from something that still holds. -/
def Relying (i : ℕ) (P : Database → Bool) : Assertion Answer Request Database :=
  fun _ log g => closed log i = false ∧ P g = true ∧ ∃ q ∈ log, q.thread = i ∧ relied q = P

/-- A call that has changed the database. -/
def Changed (i : ℕ) (req : Request) : Assertion Answer Request Database :=
  fun _ log _ => ∃ w ∈ log, w.thread = i ∧ w.request = req ∧ w.before ≠ w.after

variable {st : LogStep}

lemma closed_append_of_ne (h : st.thread ≠ i) : closed (log ++ [st]) i = closed log i := by
  unfold closed
  rw [any_append, any_cons, any_nil, decide_eq_false h, Bool.false_and, Bool.or_false, Bool.or_false]

lemma stable_untouched : recoveryContract.Stable exec i (Untouched i) := by
  intro past log st hs _ _ hne _ _ _ _ q hq
  rcases mem_append.1 hq with hq | hq
  · exact hs q hq
  · cases mem_singleton.1 hq
    exact hne

lemma stable_changed : recoveryContract.Stable exec i (Changed i req) := by
  intro past log st hs _ _ _ _ _ _ _
  obtain ⟨w, hw, hchanged⟩ := hs
  exact ⟨w, mem_append_left _ hw, hchanged⟩

lemma stable_relying : recoveryContract.Stable exec i (Relying i P) := by
  rintro past log st ⟨hclosed, hP, q, hq, hthread, rfl⟩ _ _ hne _ _ hok _
  obtain ⟨-, hothers⟩ := and_eq_true_iff.1 hok
  have hkept := all_eq_true.1 hothers q hq
  rw [hthread, decide_eq_false (Ne.symm hne), hclosed, hP] at hkept
  exact ⟨(closed_append_of_ne hne).trans hclosed, by simpa using hkept, q, mem_append_left _ hq, hthread, rfl⟩

lemma Untouched.not_closed (h : Untouched i past log g) : closed log i = false :=
  any_eq_false.2 fun q hq => by simp [h q hq]

lemma closed_append_of_read (h : closed log i = false) (hst : closes st = false) :
    closed (log ++ [st]) i = false := by
  unfold closed at h ⊢
  rw [any_append, h, any_cons, hst, Bool.and_false, any_nil]
  rfl

lemma relying_of_read (hok : undisturbing log ⟨i, req, past, c, a, g, g⟩ = true) (h : closed log i = false)
    (hread : closes ⟨i, req, past, c, a, g, g⟩ = false) :
    Relying i (relied ⟨i, req, past, c, a, g, g⟩) (past ++ [⟨c, a⟩]) (log ++ [⟨i, req, past, c, a, g, g⟩]) g :=
  ⟨closed_append_of_read h hread, (and_eq_true_iff.1 hok).1, _,
    mem_append_right _ (mem_singleton_self _), rfl, rfl⟩

lemma Relying.append (h : Relying i P past log g) (hst : closes st = false)
    (past' : List (Script.Event Answer)) : Relying i P past' (log ++ [st]) g := by
  obtain ⟨hclosed, hP, q, hq, hrelied⟩ := h
  exact ⟨closed_append_of_read hclosed hst, hP, q, mem_append_left _ hq, hrelied⟩

lemma kept_read (hemit : ∀ event, c ≠ .emit event) : recoveryContract.Kept log ⟨i, req, past, c, a, g, g⟩ where
  inv := trivial
  good :=
    { spares := fun _ _ => .refl _ _
      emits := fun event hevent => absurd hevent (hemit event) }

lemma kept_write (hreq : ∀ args, req ≠ .deleteOrphanedClass args) (hemit : ∀ event, c ≠ .emit event) :
    recoveryContract.Kept log ⟨i, req, past, c, a, g, g'⟩ where
  inv := trivial
  good :=
    { spares := fun args hargs => absurd hargs (hreq args)
      emits := fun event hevent => absurd hevent (hemit event) }

variable {event : ClassIdentityEvent}

lemma kept_emit {a : Answer (.emit event)} (h : Changed i req past log g) :
    recoveryContract.Kept log ⟨i, req, past, .emit event, a, g, g⟩ where
  inv := trivial
  good :=
    { spares := fun _ _ => .refl _ _
      emits := fun _ _ => h }

/-! ## The calls -/

/-- What a script does of which nothing needs to be known afterwards. -/
abbrev Keeps (i : ℕ) (req : Request) (K : Assertion Answer Request Database) {α : Type} (script : Mutation α) : Prop :=
  recoveryContract.Triple exec i req K script fun _ _ _ _ => True

variable {α : Type} {K : Assertion Answer Request Database}

lemma keeps_ret (r : Except Refusal α) : Keeps i req K (.ret r) :=
  .ret fun _ _ _ _ _ => trivial

variable {f : Answer c → Mutation α}

/-- A call and the rest, by what the call leaves. -/
lemma keeps_ask {R : Answer c → Assertion Answer Request Database} (hK : recoveryContract.Stable exec i K)
    (hstep : ∀ past log g o a g', K past log g → exec i req c o g = some (a, g') →
      undisturbing log ⟨i, req, past, c, a, g, g'⟩ = true → recoveryContract.Kept log ⟨i, req, past, c, a, g, g'⟩ ∧
        R a (past ++ [⟨c, a⟩]) (log ++ [⟨i, req, past, c, a, g, g'⟩]) g')
    (hrest : ∀ a, Keeps i req (R a) (f a)) : Keeps i req K (ask c >>= f) :=
  .call R hK (fun past log g o a g' _ hs hexec hok => hstep past log g o a g' hs hexec hok) hrest

lemma keeps_emit (b : Bool) :
    Keeps i req (Changed i req) (do let _ ← ask (.emit event); return b) := by
  refine keeps_ask (R := fun _ _ _ _ => True) stable_changed (fun past log g o a g' hs hexec hok => ?_)
    fun _ => keeps_ret _
  cases hexec
  exact ⟨kept_emit hs, trivial⟩

lemma keeps_read (hread : ∀ o g a g', exec i req c o g = some (a, g') → g' = g)
    (hemit : ∀ event, c ≠ .emit event) (hrest : ∀ a, Keeps i req (fun _ _ _ => True) (f a)) :
    Keeps i req (fun _ _ _ => True) (ask c >>= f) := by
  refine keeps_ask (R := fun _ _ _ _ => True) (Contract.stable_past fun _ => True)
    (fun past log g o a g' _ hexec hok => ?_) hrest
  cases hread o g a g' hexec
  exact ⟨kept_read hemit, trivial⟩

lemma keeps_doMigrateClassId (args : MigrateClassIdArgs) (hreq : ∀ args, req ≠ .deleteOrphanedClass args) :
    Keeps i req (fun _ _ _ => True) (doMigrateClassId args) := by
  refine .orThrow (fun label _ => ?_) fun _ _ _ _ _ => trivial
  refine keeps_read (fun o g a g' h => by cases h; rfl) (fun _ h => by cases h) fun current => ?_
  refine .orThrow (fun oldId _ => ?_) fun _ _ _ _ _ => trivial
  split_ifs with hne
  · exact keeps_ret _
  refine keeps_read (fun o g a g' h => by cases h; rfl) (fun _ h => by cases h) fun collision => ?_
  refine .throwSome (fun _ => ?_) fun _ _ _ _ _ _ => trivial
  -- The number of confirmed rows tells whether the write has changed anything.
  refine keeps_ask (R := fun confirmed past log g => confirmed ≠ 0 → Changed i req past log g)
    (Contract.stable_past fun _ => True) (fun past log g o a g' _ hexec hok => ?_) fun confirmed => ?_
  · cases hexec
    refine ⟨kept_write hreq fun _ h => (by cases h), fun hconfirmed => ?_⟩
    exact ⟨_, mem_append_right _ (mem_singleton_self _), rfl, rfl, (setClassId_ne hne hconfirmed).symm⟩
  · refine .require (fun hconfirmed => ?_) fun _ _ _ _ _ => trivial
    exact .weaken (keeps_emit true) fun past log g _ hs => hs (of_decide_eq_true hconfirmed)

lemma keeps_doRevive (args : ReviveOrphanedArgs) (hreq : req = .reviveOrphanedClass args) :
    Keeps i req (Untouched i) (doRevive args) := by
  subst hreq
  refine .orThrow (fun label _ => ?_) fun _ _ _ _ _ => trivial
  refine keeps_ask (R := fun row past log g => ∀ r, row = some r →
      Relying i (fun g => g.holds.any (g.isOwned .hasOrphanedClass r.1 label args.classId)) past log g)
    stable_untouched (fun past log g o a g' hs hexec hok => ?_) fun row => ?_
  · cases hexec
    refine ⟨kept_read fun _ h => (by cases h), fun r hr => ?_⟩
    have hrelying := relying_of_read hok hs.not_closed rfl
    rw [hr] at hrelying ⊢
    exact hrelying
  · cases row with
    | none =>
      refine .weaken (keeps_read (fun o g a g' h => by cases h; rfl) (fun _ h => by cases h) fun active => ?_)
        fun _ _ _ _ _ => trivial
      exact .orThrow (fun _ _ => keeps_ret _) fun _ _ _ _ _ => trivial
    | some r =>
      refine .weaken (keeps_ask (R := fun _ => Changed i (.reviveOrphanedClass args)) stable_relying
        (fun past log g o a g' hs hexec hok => ?_) fun _ => keeps_emit true) fun past log g _ hs => hs r rfl
      cases hexec
      refine ⟨kept_write (fun _ h => by cases h) fun _ h => (by cases h), ?_⟩
      exact ⟨_, mem_append_right _ (mem_singleton_self _), rfl, rfl, (renameEdge_ne hs.2.1).symm⟩

lemma keeps_doDelete (args : DeleteOrphanedArgs) (hreq : req = .deleteOrphanedClass args) :
    Keeps i req (Untouched i) (doDelete args) := by
  subst hreq
  refine .orThrow (fun label _ => ?_) fun _ _ _ _ _ => trivial
  refine keeps_ask (R := fun row past log g => ∀ r, row = some r →
      Relying i (fun g => (g.heldClasses label args.classId).isEmpty) past log g)
    stable_untouched (fun past log g o a g' hs hexec hok => ?_) fun row => ?_
  · cases hexec
    refine ⟨kept_read fun _ h => (by cases h), fun r hr => ?_⟩
    have hrelying := relying_of_read hok hs.not_closed rfl
    rw [hr] at hrelying ⊢
    exact hrelying
  · cases row with
    | none =>
      refine .weaken (keeps_read (fun o g a g' h => by cases h; rfl) (fun _ h => by cases h) fun active => ?_)
        fun _ _ _ _ _ => trivial
      exact .throwSome (fun _ => keeps_ret _) fun _ _ _ _ _ _ => trivial
    | some r =>
      refine .weaken ?_ fun past log g _ hs => hs r rfl
      refine keeps_ask (R := fun count past log g => refusal args.cascades label args.classId count = none →
          Relying i (fun g => (g.heldClasses label args.classId).isEmpty) past log g ∧
            Relying i (fun g => (g.elementsOf label args.classId).length ≤ instanceLimit args.cascades) past log g)
        stable_relying (fun past log g o a g' hs hexec hok => ?_) fun count => ?_
      · cases hexec
        refine ⟨kept_read fun _ h => (by cases h), fun hnone => ?_⟩
        have hopen : closes ⟨i, .deleteOrphanedClass args, past, .incidentCount label args.classId,
            (g.instancesOf label args.classId).length, g, g⟩ = false := by
          show (refusal args.cascades label args.classId _).isSome = false
          rw [hnone]
          rfl
        refine ⟨hs.append hopen _, ?_⟩
        have hrelying := relying_of_read hok hs.1 hopen
        have hrelied : relied ⟨i, .deleteOrphanedClass args, past, .incidentCount label args.classId,
            (g.instancesOf label args.classId).length, g, g⟩ =
            fun g => decide ((g.elementsOf label args.classId).length ≤ instanceLimit args.cascades) := by
          show (if (refusal args.cascades label args.classId _).isSome then fun _ => true else _) = _
          rw [hnone]
          rfl
        rwa [hrelied] at hrelying
      · refine .throwSome (fun hnone => ?_) fun _ _ _ _ _ _ => trivial
        refine .weaken (keeps_ask (R := fun _ _ _ _ => True) (stable_relying.and stable_relying)
          (fun past log g o a g' hs hexec hok => ?_) fun _ => keeps_ret _) fun past log g _ hs => hs hnone
        cases hexec
        refine ⟨⟨trivial, ⟨fun args' hargs => ?_, fun _ h => (by cases h)⟩⟩, trivial⟩
        cases hargs
        exact spares_deleteOrphaned (List.isEmpty_iff.1 hs.1.2.1) (of_decide_eq_true hs.2.2.1)

lemma keeps_program (req : Request) : Keeps i req (Untouched i) (program req) := by
  cases req with
  | migrateClassId args =>
    exact .weaken (keeps_doMigrateClassId args fun _ h => by cases h) fun _ _ _ _ _ => trivial
  | reviveOrphanedClass args => exact keeps_doRevive args rfl
  | deleteOrphanedClass args => exact keeps_doDelete args rfl
  | install writes | createElement id | bindElement element label classIds =>
    refine keeps_ask (R := fun _ _ _ _ => True) stable_untouched (fun past log g o a g' _ _ _ => ?_)
      fun _ => keeps_ret _
    exact ⟨kept_write (fun _ h => by cases h) fun _ h => (by cases h), trivial⟩

/-- While no other transaction ends what a call under way relies on, no deletion takes live work, and events tell of
changes. -/
theorem liveWork_of_reachable {p : Pool Answer Refusal Bool Request Database}
    (h : (machine.system fun _ => True).Reachable (fun p e => machine.allows (fun _ => true) undisturbing p e = true)
      p) : ∀ log st log', p.log = log ++ st :: log' → KeepsLiveWork log st := by
  have hholds : recoveryContract.Holds machine (fun _ _ _ _ _ _ => True) p := by
    refine Contract.Holds.of_reachable rfl (fun i _ _ => Contract.stable_past fun _ => True) (fun _ _ => trivial)
      (fun i req g _ _ => ?_) h
    exact keeps_program req [] [] g trivial fun q hq => absurd hq not_mem_nil
  exact hholds.good

/-! ## Runs -/

/-- A module with an orphaned class that has no instances. -/
def orphanedDatabase : Database where
  modules := Record.ofList [(0, "m")]
  classes := Record.ofList [(0, ⟨.componentClass, "c", "C", []⟩)]
  elements := ∅
  holds := [⟨0, .hasOrphanedClass, 0⟩]
  instances := []
  holds_ends := by decide
  instances_ends := by decide

def orphanedPool : Pool Answer Refusal Bool Request Database :=
  ⟨orphanedDatabase, ∅, []⟩

def deletion : Request :=
  .deleteOrphanedClass ⟨"c", "ComponentClass", none⟩

def revival : Request :=
  .reviveOrphanedClass ⟨"c", "ComponentClass"⟩

/-- The class is deleted, and a module that declares it again is installed. -/
def deletedAndInstalled : List (Event Request ℕ) :=
  [.spawn 0 deletion, .step 0 0, .step 0 0, .step 0 0,
    .spawn 1 (.install [.createClass "m" .componentClass "c" "C"]), .step 1 0]

/-- The class is revived after the reads of a deletion. -/
def revivedBetween : List (Event Request ℕ) :=
  [.spawn 0 deletion, .step 0 0, .step 0 0, .spawn 1 revival, .step 1 0, .step 1 0, .step 1 0, .step 0 0]

theorem liveWork_deletedAndInstalled : ∃ p : Pool Answer Refusal Bool Request Database,
    ((p.log.map fun st => lost st.before.classes st.after.classes) = [[], [], [0], []] ∧ p.shared.isHeld 1 = true) ∧
      ∀ log st log', p.log = log ++ st :: log' → KeepsLiveWork log st := by
  have hrun : (((machine.system fun _ => True).run (fun p e => machine.allows (fun _ => true) undisturbing p e)
      orphanedPool deletedAndInstalled).any fun p =>
        decide ((p.log.map fun st => lost st.before.classes st.after.classes) = [[], [], [0], []] ∧
          p.shared.isHeld 1 = true)) = true := by
    decide +kernel
  obtain ⟨p, hp, hend⟩ := TransitionSystem.exists_reachable hrun ⟨trivial, rfl, rfl⟩ fun _ _ h => h
  exact ⟨p, of_decide_eq_true hend,
    liveWork_of_reachable hp⟩

/-- A deletion takes a class that was revived after its reads. -/
theorem not_liveWork_revivedBetween : ¬ ∀ p : Pool Answer Refusal Bool Request Database,
    (machine.system fun _ => True).Reachable (fun _ _ => True) p →
      ∀ log st log', p.log = log ++ st :: log' → KeepsLiveWork log st := by
  intro h
  have hrun : (((machine.system fun _ => True).run (fun _ _ => true) orphanedPool revivedBetween).any fun p =>
      p.log.any fun st => st.request = deletion &&
        (lost st.before.classes st.after.classes).any fun c => st.before.isHeld c) = true := by
    decide +kernel
  obtain ⟨p, hp, hend⟩ := TransitionSystem.exists_reachable hrun ⟨trivial, rfl, rfl⟩ fun _ _ _ => trivial
  obtain ⟨st, hst, htakes⟩ := any_eq_true.1 hend
  obtain ⟨hrequest, hheld⟩ := and_eq_true_iff.1 htakes
  obtain ⟨c, hc, hheld⟩ := any_eq_true.1 hheld
  obtain ⟨log, log', hlog⟩ := append_of_mem hst
  have hgood := h p hp log st
    log' hlog
  exact absurd (hheld.symm.trans ((hgood.spares _ (of_decide_eq_true hrequest)).held c hc)) nofun

end ClassIdentity.Recovery
