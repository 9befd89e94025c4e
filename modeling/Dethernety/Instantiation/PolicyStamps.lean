import Mathlib.Data.Fintype.Basic
import Dethernety.Foundations.Transition

/-!
# Policy stamps

Model of the transactions on one element of `set-instantiation-attributes.service.ts`,
`element-binding.service.ts` and `finding-reevaluation.service.ts`, made by any number of processes, and
of installs. A save is four steps (the attribute write with the read of the class's `policyHash`, the
evaluation by the module, the findings transaction, the stamp transaction, before which the module is
asked for its hash); a binding change evaluates the target classes one by one and then runs one
transaction. Transactions do not fail; validation and modules may.

Each process holds modules of its own: an install changes the class's `policyHash` in the database, and
the policy that a process evaluates with changes on its own (`install`, `load`).
-/

open List Function Nat

namespace PolicyStamps

/-- `ElementBindingInput` -/
inductive Target (Class Model : Type)
  | classes (classIds : List Class)
  | representedModel (modelId : Model)
  | none

inductive Kind (Class Model Answers : Type)
  /-- `setInstantiationAttributes`; the request maps the stored answers to the written ones. -/
  | save (classId : Class) (request : Answers → Answers)
  /-- `reevaluate` of a sweep -/
  | reevaluation (classId : Class)
  /-- `changeElementBinding` -/
  | binding (target : Target Class Model)

/-- What a binding change knows of a target class after its evaluation. -/
structure Derived (Class Hash Findings : Type) where
  classId : Class
  findings : Findings
  /-- The hash to stamp. -/
  policyHash : Option Hash
  deriving DecidableEq

/-- Where an operation stands. -/
inductive Phase (Class Hash Findings : Type)
  | idle
  | started
  /-- A re-evaluation that found its binding stale. -/
  | due
  | attributesWritten (classId : Class) (hash : Option Hash) (changed : Bool)
  /-- The module has evaluated the answers, with the policy that the process held. -/
  | evaluated (classId : Class) (hash : Option Hash) (changed : Bool) (findings : Findings)
      (policy : Hash)
  | findingsWritten (classId : Class) (hash : Option Hash) (policy : Hash)
  | stamping (classId : Class) (hash : Option Hash)
  /-- A binding change between the evaluations of its target classes. -/
  | binding (todo : List Class) (derived : List (Derived Class Hash Findings))
  | classRead (classId : Class) (hash : Option Hash) (todo : List Class)
      (derived : List (Derived Class Hash Findings))
  | classEvaluated (classId : Class) (hash : Option Hash) (findings : Findings) (policy : Hash)
      (todo : List Class) (derived : List (Derived Class Hash Findings))
  | ended
  deriving DecidableEq

/-- What a run is about: the operations on the element, and what the modules do. -/
structure Setting (ι Process Class Model Hash Answers Findings : Type) where
  process : ι → Process
  kind : ι → Kind Class Model Answers
  /-- The element is a Control, which may be bound to several classes. -/
  isControl : Bool
  /-- The findings that the policy with a hash derives from answers. -/
  derive : Class → Hash → Answers → Findings
  /-- The module of the class has `getPolicyHash`. -/
  getPolicyHash : Process → Class → Bool
  /-- The answers on a new binding. -/
  noAnswers : Answers
  noFindings : Findings

structure State (ι Process Class Model Hash Answers Findings : Type) where
  /-- The classes that the element is an instance of. -/
  classIds : List Class
  /-- The model that the element represents. -/
  modelId : Option Model
  /-- The answers on the bindings. -/
  answers : Class → Answers
  /-- The element's SYSTEM findings for each class. -/
  findings : Class → Findings
  /-- `classPolicyStamps` -/
  stamps : Class → Option Hash
  /-- `policyHash` of the classes -/
  policyHash : Class → Option Hash
  /-- The policy that each process evaluates a class with. -/
  policy : Process → Class → Hash
  /-- The element is taken within the process (`runExclusive`). -/
  taken : Process → Bool
  phase : ι → Phase Class Hash Findings

inductive Event (ι Process Class Hash : Type)
  /-- The operation takes the element within its process. -/
  | start (o : ι)
  /-- The operation is refused, or fails before it writes anything. -/
  | refuse (o : ι)
  /-- The read of the binding by a re-evaluation. -/
  | check (o : ι)
  /-- The first transaction of `setAttributes` -/
  | writeAttributes (o : ι)
  /-- The module evaluates, or fails to. -/
  | evaluate (o : ι) (ok : Bool)
  /-- The findings transaction -/
  | writeFindings (o : ι)
  /-- `policyHashToStamp`; a module that has `getPolicyHash` answers with its hash, or fails to. -/
  | report (o : ι) (ok : Bool)
  /-- The stamp transaction -/
  | stamp (o : ι)
  /-- The reads of a binding change up to its first class. -/
  | preflight (o : ι)
  /-- `lookupClassStatus` of the next target class. -/
  | readClass (o : ι)
  /-- The write transaction of a binding change -/
  | bind (o : ι)
  /-- A module install writes the hash of a class. -/
  | install (classId : Class) (hash : Option Hash)
  /-- A process changes the policy that it evaluates a class with. -/
  | load (p : Process) (classId : Class) (hash : Hash)

section

variable {ι Process Class Model Hash Answers Findings : Type} [DecidableEq ι] [DecidableEq Process]
  [DecidableEq Class] [DecidableEq Model] [DecidableEq Hash] [DecidableEq Answers]

/-- The class and the request of a save or of a re-evaluation. -/
def Kind.saves : Kind Class Model Answers → Option (Class × (Answers → Answers))
  | save classId request => some (classId, request)
  | reevaluation classId => some (classId, id)
  | binding _ => none

/-- `validateTargetForElementType`: only a Control takes other than one class. -/
def Target.valid (isControl : Bool) : Target Class Model → Bool
  | classes classIds => isControl || classIds.length == 1
  | representedModel _ => !isControl
  | none => true

def Target.classIds : Target Class Model → List Class
  | classes classIds => classIds
  | _ => []

/-- `policyHashToStamp`: the stored hash, if the module evaluates with it. -/
def policyHashToStamp (hasGetPolicyHash ok : Bool) (policy : Hash) (storedHash : Option Hash) :
    Option Hash :=
  match storedHash with
  | .none => .none
  | some hash => if !hasGetPolicyHash then some hash
      else if ok ∧ policy = hash then some hash else .none

namespace State

variable (S : Setting ι Process Class Model Hash Answers Findings)
  (s : State ι Process Class Model Hash Answers Findings)

def isIdentityTransition : Target Class Model → Bool
  | .none => s.classIds = [] ∧ s.modelId = .none
  | .representedModel modelId => s.classIds = [] ∧ s.modelId = some modelId
  | .classes classIds => s.modelId = .none ∧ classIds.isPerm s.classIds

def goto (o : ι) (phase : Phase Class Hash Findings) : State ι Process Class Model Hash Answers Findings :=
  { s with phase := update s.phase o phase }

/-- The operation ends and gives the element back. -/
def finish (o : ι) : State ι Process Class Model Hash Answers Findings :=
  { s.goto o .ended with taken := update s.taken (S.process o) false }

/-- The first transaction of `setAttributes`, which needs the binding. -/
def writeAttributes (o : ι) (classId : Class) (request : Answers → Answers) :
    State ι Process Class Model Hash Answers Findings :=
  if classId ∈ s.classIds then
    { s.goto o (.attributesWritten classId (s.policyHash classId)
        (request (s.answers classId) ≠ s.answers classId)) with
      answers := update s.answers classId (request (s.answers classId)) }
  else s.finish S o

/-- `STAMP_POLICY_CYPHER`, which needs the binding, or `UNSTAMP_POLICY_CYPHER`. -/
def stampPolicy (classId : Class) (hash : Option Hash) : State ι Process Class Model Hash Answers Findings :=
  if hash.isNone ∨ classId ∈ s.classIds then
    { s with stamps := update s.stamps classId hash }
  else s

/-- The class edges after the rewire: by difference for a Control, the one target class otherwise. -/
def rewire (target : Target Class Model) : State ι Process Class Model Hash Answers Findings :=
  let kept := if S.isControl then s.classIds.filter (· ∈ target.classIds) else []
  let added := (target.classIds.filter (· ∉ kept)).dedup
  { s with
    classIds := kept ++ added
    modelId := match target with
      | .representedModel modelId => some modelId
      | _ => if S.isControl then s.modelId else .none
    answers := fun classId => if classId ∈ kept then s.answers classId else S.noAnswers }

/-- The findings and the stamp of one target class, as the write transaction rebuilds them. -/
def rebuild (d : Derived Class Hash Findings) :
    State ι Process Class Model Hash Answers Findings :=
  { s with findings := update s.findings d.classId d.findings }.stampPolicy d.classId d.policyHash

/-- The write transaction of a binding change: the sweep leaves no finding but those that are rebuilt. -/
def bind (target : Target Class Model) (derived : List (Derived Class Hash Findings)) :
    State ι Process Class Model Hash Answers Findings :=
  if s.isIdentityTransition target then s
  else derived.foldl rebuild { s.rewire S target with findings := fun _ => S.noFindings }

end State

variable (S : Setting ι Process Class Model Hash Answers Findings)
  (s : State ι Process Class Model Hash Answers Findings)

/-- The effect of an event. -/
def next :
    Event ι Process Class Hash → Option (State ι Process Class Model Hash Answers Findings)
  | .start o =>
    match s.phase o with
    | .idle =>
      if s.taken (S.process o) then none
      else some { s.goto o .started with taken := update s.taken (S.process o) true }
    | _ => none
  | .refuse o =>
    match s.phase o with
    | .started => some (s.finish S o)
    | .due => some (s.finish S o)
    | .binding _ _ => some (s.finish S o)
    | _ => none
  | .check o =>
    match s.phase o, S.kind o with
    | .started, .reevaluation classId =>
      if classId ∈ s.classIds ∧ s.policyHash classId ≠ none ∧ s.stamps classId ≠ s.policyHash classId then
        some (s.goto o .due)
      else some (s.finish S o)
    | _, _ => none
  | .writeAttributes o =>
    match s.phase o, S.kind o with
    | .started, .save classId request => some (s.writeAttributes S o classId request)
    | .due, .reevaluation classId => some (s.writeAttributes S o classId id)
    | _, _ => none
  | .evaluate o ok =>
    match s.phase o with
    | .attributesWritten classId hash changed =>
      let policy := s.policy (S.process o) classId
      some (if ok then
          s.goto o (.evaluated classId hash changed (S.derive classId policy (s.answers classId)) policy)
        else s.finish S o)
    | .classRead classId hash todo derived =>
      let policy := s.policy (S.process o) classId
      some (if ok then
          s.goto o (.classEvaluated classId hash (S.derive classId policy (s.answers classId)) policy todo
            derived)
        else s.finish S o)
    | _ => none
  | .writeFindings o =>
    match s.phase o with
    | .evaluated classId hash _ findings policy =>
      some { s.goto o (.findingsWritten classId hash policy) with
        findings := update s.findings classId findings }
    | _ => none
  | .report o ok =>
    match s.phase o with
    | .findingsWritten classId hash _ =>
      some (s.goto o (.stamping classId (policyHashToStamp (S.getPolicyHash (S.process o) classId) ok
        (s.policy (S.process o) classId) hash)))
    | .classEvaluated classId hash findings _ todo derived =>
      some (s.goto o (.binding todo (derived ++ [⟨classId, findings,
        policyHashToStamp (S.getPolicyHash (S.process o) classId) ok (s.policy (S.process o) classId)
          hash⟩])))
    | _ => none
  | .stamp o =>
    match s.phase o with
    | .stamping classId hash => some ((s.stampPolicy classId hash).finish S o)
    | _ => none
  | .preflight o =>
    match s.phase o, S.kind o with
    | .started, .binding target =>
      if !target.valid S.isControl || s.isIdentityTransition target then some (s.finish S o)
      else some (s.goto o (.binding target.classIds []))
    | _, _ => none
  | .readClass o =>
    match s.phase o with
    | .binding (classId :: todo) derived =>
      some (s.goto o (.classRead classId (s.policyHash classId) todo derived))
    | _ => none
  | .bind o =>
    match s.phase o, S.kind o with
    | .binding [] derived, .binding target => some ((s.bind S target derived).finish S o)
    | _, _ => none
  | .install classId hash => some { s with policyHash := update s.policyHash classId hash }
  | .load p classId hash =>
    some { s with policy := update s.policy p (update (s.policy p) classId hash) }

/-- The operations on an element and the installs, in any order of steps. At the start no operation is
in flight, and no stamp stands beside findings that it does not describe. -/
def system : TransitionSystem (State ι Process Class Model Hash Answers Findings)
    (Event ι Process Class Hash) where
  init s := (∀ o, s.phase o = .idle) ∧ (∀ p, s.taken p = false) ∧
    (S.isControl = false → s.classIds.length ≤ 1 ∧ (s.modelId ≠ none → s.classIds = [])) ∧
    (∀ classId, classId ∉ s.classIds → s.answers classId = S.noAnswers ∧ s.stamps classId = none) ∧
    ∀ classId hash, s.stamps classId = some hash →
      s.findings classId = S.derive classId hash (s.answers classId)
  next := next S

/-- No operation is in flight. -/
def Quiescent : Prop :=
  ∀ o, s.phase o = .idle ∨ s.phase o = .ended

/-- A stamp that equals the class's hash vouches for the findings: they are those that the policy with
that hash derives. -/
def Vouched (classId : Class) : Prop :=
  ∀ hash, s.stamps classId = some hash → s.policyHash classId = some hash →
    s.findings classId = S.derive classId hash (s.answers classId)

/-- The operation rests on what it has read or written of the class. -/
def Phase.critical (classId : Class) : Phase Class Hash Findings → Bool
  | attributesWritten c _ _ => c = classId
  | evaluated c _ _ _ _ => c = classId
  | findingsWritten c _ _ => c = classId
  | stamping c _ => c = classId
  | binding _ derived => classId ∈ derived.map Derived.classId
  | classRead c _ _ derived => c = classId ∨ classId ∈ derived.map Derived.classId
  | classEvaluated c _ _ _ _ derived => c = classId ∨ classId ∈ derived.map Derived.classId
  | _ => false

/-- The module has evaluated the class for the operation and is still to be asked for its hash. -/
def Phase.awaitsHash (classId : Class) : Phase Class Hash Findings → Bool
  | evaluated c _ _ _ _ => c = classId
  | findingsWritten c _ _ => c = classId
  | classEvaluated c _ _ _ _ _ => c = classId
  | _ => false

/-- No other operation rests on the class. -/
def Alone (o : ι) (classId : Class) : Prop :=
  ∀ o', o' ≠ o → (s.phase o').critical classId = false

/-- The module of a class evaluates with a policy that it can name, or that is the stored one. -/
def Names (p : Process) (classId : Class) (hash : Option Hash) (policy : Hash) : Prop :=
  S.getPolicyHash p classId = true ∨ hash = none ∨ hash = some policy

/-- The condition on a step: what is written of a class is not what another operation rests on; no module
fails after a write that changed the answers; and between an evaluation and the module's answer about its
hash, the policy stays. -/
def Undisturbed : Event ι Process Class Hash → Prop
  | .writeAttributes o =>
    match (S.kind o).saves with
    | some (c, request) => request (s.answers c) ≠ s.answers c → Alone s o c
    | .none => True
  | .writeFindings o =>
    match s.phase o with
    | .evaluated c _ _ _ _ => Alone s o c
    | _ => True
  | .bind o =>
    match S.kind o with
    | .binding target => s.isIdentityTransition target = false → ∀ c, Alone s o c
    | _ => True
  | .evaluate o ok =>
    match s.phase o with
    | .attributesWritten c hash changed =>
      (changed = true → ok = true) ∧ Names S (S.process o) c hash (s.policy (S.process o) c)
    | .classRead c hash _ _ => Names S (S.process o) c hash (s.policy (S.process o) c)
    | _ => True
  | .load p c _ => ∀ o, S.process o = p → (s.phase o).awaitsHash c = false
  | _ => True

/-- A binding change does not unbind a class that has a stamp: the stamp would stay, and the findings go. -/
def KeepsStamped : Event ι Process Class Hash → Prop
  | .bind o =>
    match S.kind o with
    | .binding target => s.isIdentityTransition target = false →
      ∀ c ∈ s.classIds, c ∉ target.classIds → s.stamps c = .none
    | _ => True
  | _ => True

variable {S s} [Fintype ι] [Fintype Class]

instance {o : ι} {classId : Class} : Decidable (Alone s o classId) :=
  inferInstanceAs (Decidable (∀ o', o' ≠ o → (s.phase o').critical classId = false))

instance {p : Process} {classId : Class} {hash : Option Hash} {policy : Hash} :
    Decidable (Names S p classId hash policy) :=
  inferInstanceAs (Decidable (_ ∨ _ ∨ _))

instance : (e : Event ι Process Class Hash) → Decidable (Undisturbed S s e)
  | .writeAttributes o =>
    match h : (S.kind o).saves with
    | some (c, request) =>
      decidable_of_iff (request (s.answers c) ≠ s.answers c → Alone s o c) (by simp only [Undisturbed, h])
    | none => isTrue (by simp only [Undisturbed, h])
  | .writeFindings o =>
    match h : s.phase o with
    | .evaluated c _ _ _ _ => decidable_of_iff (Alone s o c) (by simp only [Undisturbed, h])
    | .idle | .started | .due | .attributesWritten _ _ _ | .findingsWritten _ _ _ | .stamping _ _
    | .binding _ _ | .classRead _ _ _ _ | .classEvaluated _ _ _ _ _ _ | .ended =>
      isTrue (by simp only [Undisturbed, h])
  | .bind o =>
    match h : S.kind o with
    | .binding target =>
      decidable_of_iff (s.isIdentityTransition target = false → ∀ c, Alone s o c)
        (by simp only [Undisturbed, h])
    | .save _ _ | .reevaluation _ => isTrue (by simp only [Undisturbed, h])
  | .evaluate o ok =>
    match h : s.phase o with
    | .attributesWritten c hash changed =>
      decidable_of_iff
        ((changed = true → ok = true) ∧ Names S (S.process o) c hash (s.policy (S.process o) c))
        (by simp only [Undisturbed, h])
    | .classRead c hash _ _ =>
      decidable_of_iff (Names S (S.process o) c hash (s.policy (S.process o) c))
        (by simp only [Undisturbed, h])
    | .idle | .started | .due | .evaluated _ _ _ _ _ | .findingsWritten _ _ _ | .stamping _ _
    | .binding _ _ | .classEvaluated _ _ _ _ _ _ | .ended => isTrue (by simp only [Undisturbed, h])
  | .load p c _ =>
    inferInstanceAs (Decidable (∀ o, S.process o = p → (s.phase o).awaitsHash c = false))
  | .start _ | .refuse _ | .check _ | .report _ _ | .stamp _ | .preflight _ | .readClass _
  | .install _ _ => isTrue trivial

instance : (e : Event ι Process Class Hash) → Decidable (KeepsStamped S s e)
  | .bind o =>
    match h : S.kind o with
    | .binding target =>
      decidable_of_iff (s.isIdentityTransition target = false →
        ∀ c ∈ s.classIds, c ∉ target.classIds → s.stamps c = none) (by simp only [KeepsStamped, h])
    | .save _ _ | .reevaluation _ => isTrue (by simp only [KeepsStamped, h])
  | .start _ | .refuse _ | .check _ | .writeAttributes _ | .evaluate _ _ | .writeFindings _ | .report _ _
  | .stamp _ | .preflight _ | .readClass _ | .install _ _ | .load _ _ _ => isTrue trivial

end

/-! ## The invariant -/

section

set_option linter.unusedSectionVars false

variable {ι Process Class Model Hash Answers Findings : Type} [DecidableEq ι] [DecidableEq Process]
  [DecidableEq Class] [DecidableEq Model] [DecidableEq Hash] [DecidableEq Answers]
  {S : Setting ι Process Class Model Hash Answers Findings}
  {s s' : State ι Process Class Model Hash Answers Findings} {o o' : ι} {c : Class}
  {ph : Phase Class Hash Findings}

section

variable (S s)

/-- The findings of a target class are those of the policy that is to be stamped. -/
def SoundDerived (d : Derived Class Hash Findings) : Prop :=
  ∀ hash, d.policyHash = some hash → d.findings = S.derive d.classId hash (s.answers d.classId)

/-- The target of a binding change, and how far it has come with its classes. -/
def Targets (o : ι) (classIds : List Class) : Prop :=
  ∃ target, S.kind o = .binding target ∧ target.valid S.isControl = true ∧ target.classIds = classIds

/-- What an operation may rely on in its phase. -/
def Sound (o : ι) : Phase Class Hash Findings → Prop
  | .evaluated c hash _ findings policy =>
    findings = S.derive c policy (s.answers c) ∧ s.policy (S.process o) c = policy ∧
      Names S (S.process o) c hash policy
  | .findingsWritten c hash policy =>
    s.findings c = S.derive c policy (s.answers c) ∧ s.policy (S.process o) c = policy ∧
      Names S (S.process o) c hash policy
  | .stamping c hash => ∀ h, hash = some h → s.findings c = S.derive c h (s.answers c)
  | .binding todo derived =>
    Targets S o (derived.map Derived.classId ++ todo) ∧ ∀ d ∈ derived, SoundDerived S s d
  | .classRead c _ todo derived =>
    Targets S o (derived.map Derived.classId ++ c :: todo) ∧ ∀ d ∈ derived, SoundDerived S s d
  | .classEvaluated c hash findings policy todo derived =>
    (findings = S.derive c policy (s.answers c) ∧ s.policy (S.process o) c = policy ∧
      Names S (S.process o) c hash policy) ∧
      Targets S o (derived.map Derived.classId ++ c :: todo) ∧ ∀ d ∈ derived, SoundDerived S s d
  | _ => True

/-- The operation has changed the answers or the findings of the class and is still to stamp it. -/
def Phase.dirty (classId : Class) : Phase Class Hash Findings → Bool
  | .attributesWritten c _ changed => c = classId ∧ changed = true
  | .evaluated c _ changed _ _ => c = classId ∧ changed = true
  | .findingsWritten c _ _ => c = classId
  | .stamping c _ => c = classId
  | _ => false

/-- A stamp of a bound class vouches for the findings. -/
def Consistent (c : Class) : Prop :=
  c ∈ s.classIds → ∀ hash, s.stamps c = some hash → s.findings c = S.derive c hash (s.answers c)

structure Inv : Prop where
  sound : ∀ o, Sound S s o (s.phase o)
  consistent : ∀ c, Consistent S s c ∨ ∃ o, (s.phase o).dirty c = true
  /-- Answers are on bindings. -/
  unbound : ∀ c, c ∉ s.classIds → s.answers c = S.noAnswers
  /-- An element other than a Control has one class, or represents a model, or neither. -/
  single : S.isControl = false → s.classIds.length ≤ 1 ∧ (s.modelId ≠ none → s.classIds = [])

end

lemma Sound.frame (h : Sound S s o ph)
    (hdata : ∀ c, ph.critical c = true → s'.answers c = s.answers c ∧ s'.findings c = s.findings c)
    (hpolicy : ∀ c, ph.awaitsHash c = true → s'.policy (S.process o) c = s.policy (S.process o) c) :
    Sound S s' o ph := by
  have hderived : ∀ {derived : List (Derived Class Hash Findings)},
      (∀ c ∈ derived.map Derived.classId, ph.critical c = true) →
      (∀ d ∈ derived, SoundDerived S s d) → ∀ d ∈ derived, SoundDerived S s' d := by
    intro derived hcritical hsound d hd hash hhash
    rw [(hdata d.classId (hcritical _ (mem_map_of_mem hd))).1]
    exact hsound d hd hash hhash
  cases ph with
  | evaluated c =>
    obtain ⟨hfindings, hpol, hnames⟩ := h
    have hself := decide_eq_true (rfl : c = c)
    exact ⟨by rw [(hdata c hself).1]; exact hfindings, (hpolicy c hself).trans hpol, hnames⟩
  | findingsWritten c =>
    obtain ⟨hfindings, hpol, hnames⟩ := h
    have hself := decide_eq_true (rfl : c = c)
    refine ⟨?_, (hpolicy c hself).trans hpol, hnames⟩
    rw [(hdata c hself).1, (hdata c hself).2]
    exact hfindings
  | stamping c hash =>
    intro h' hh'
    have hself := decide_eq_true (rfl : c = c)
    rw [(hdata c hself).1, (hdata c hself).2]
    exact h h' hh'
  | binding => exact ⟨h.1, hderived (fun c hc => decide_eq_true hc) h.2⟩
  | classRead c =>
    exact ⟨h.1, hderived (fun c hc => decide_eq_true (.inr hc)) h.2⟩
  | classEvaluated c _ _ _ _ derived =>
    obtain ⟨⟨hfindings, hpol, hnames⟩, htargets, hrest⟩ := h
    have hself := decide_eq_true (.inl (rfl : c = c) : c = c ∨ c ∈ derived.map Derived.classId)
    refine ⟨⟨?_, (hpolicy c (decide_eq_true rfl)).trans hpol, hnames⟩, htargets,
      hderived (fun c hc => decide_eq_true (.inr hc)) hrest⟩
    rw [(hdata c hself).1]
    exact hfindings
  | idle | started | due | attributesWritten | ended => trivial

/-- A step of one operation keeps the invariant, if it leaves alone what the others rest on, and stamps
stay consistent up to the classes that the operation is still to stamp. -/
lemma Inv.move (h : Inv S s) (hself : s'.phase o = ph)
    (hother : ∀ o', o' ≠ o → s'.phase o' = s.phase o') (hpolicy : s'.policy = s.policy)
    (hdata : ∀ o', o' ≠ o → ∀ c, (s.phase o').critical c = true →
      s'.answers c = s.answers c ∧ s'.findings c = s.findings c)
    (hsound : Sound S s' o ph)
    (hconsistent : ∀ c, ph.dirty c = true ∨ Consistent S s' c ∨
      ((s.phase o).dirty c = false ∧ (Consistent S s c → Consistent S s' c)))
    (hunbound : ∀ c, c ∉ s'.classIds → s'.answers c = S.noAnswers)
    (hsingle : S.isControl = false → s'.classIds.length ≤ 1 ∧ (s'.modelId ≠ none → s'.classIds = [])) :
    Inv S s' where
  sound o' := by
    by_cases ho : o' = o
    · rw [ho, hself]
      exact hsound
    · rw [hother o' ho]
      exact (h.sound o').frame (hdata o' ho) fun c _ => by rw [hpolicy]
  consistent c := by
    rcases hconsistent c with hdirty | hc | ⟨hclean, hkeeps⟩
    · exact .inr ⟨o, by rw [hself]; exact hdirty⟩
    · exact .inl hc
    · rcases h.consistent c with hc | ⟨o', hdirty⟩
      · exact .inl (hkeeps hc)
      · have ho : o' ≠ o := by
          rintro rfl
          cases hclean.symm.trans hdirty
        exact .inr ⟨o', by rw [hother o' ho]; exact hdirty⟩
  unbound := hunbound
  single := hsingle

/-- A step that changes nothing but the phase of a clean operation. -/
lemma Inv.goto (h : Inv S s) (hsound : Sound S s o ph)
    (hdirty : ∀ c, (s.phase o).dirty c = true → ph.dirty c = true) : Inv S (s.goto o ph) := by
  refine h.move (by simp [State.goto]) (fun o' ho => by simp [State.goto, ho]) rfl
    (fun o' _ c _ => ⟨rfl, rfl⟩) (hsound.frame (fun c _ => ⟨rfl, rfl⟩) fun c _ => rfl)
    (fun c => ?_) h.unbound h.single
  cases hc : (s.phase o).dirty c with
  | true => exact .inl (hdirty c hc)
  | false => exact .inr (.inr ⟨rfl, id⟩)

lemma Inv.finish (h : Inv S s) (hdirty : ∀ c, (s.phase o).dirty c = false) : Inv S (s.finish S o) := by
  have hgoto : Inv S (s.goto o .ended) := by
    refine h.goto trivial fun c hc => ?_
    rw [hdirty c] at hc
    cases hc
  exact ⟨hgoto.sound, hgoto.consistent, hgoto.unbound, hgoto.single⟩

lemma eq_of_policyHashToStamp {p : Process} {ok : Bool} {policy hash : Hash} {stored : Option Hash}
    (hnames : Names S p c stored policy)
    (h : policyHashToStamp (S.getPolicyHash p c) ok policy stored = some hash) : policy = hash := by
  cases stored with
  | none => cases h
  | some storedHash =>
    rw [policyHashToStamp] at h
    split_ifs at h with hhas hsame
    · rcases hnames with hget | hnone | hsome
      · rw [hget] at hhas
        cases hhas
      · cases hnone
      · exact (Option.some.inj hsome).symm.trans (Option.some.inj h)
    · exact hsame.2.trans (Option.some.inj h)

variable (s) in
/-- A stamp changes the stamps only, and of the class only. -/
lemma State.stampPolicy_eq (c : Class) (hash : Option Hash) :
    ∃ stamps, s.stampPolicy c hash = { s with stamps := stamps } ∧ (∀ c', c' ≠ c → stamps c' = s.stamps c') ∧
      (c ∈ s.classIds → stamps c = hash) := by
  rw [State.stampPolicy]
  split_ifs with hwrites
  · exact ⟨_, rfl, fun c' hc' => update_of_ne hc' _ _, fun _ => update_self _ _ _⟩
  · exact ⟨s.stamps, rfl, fun _ _ => rfl, fun hbound => absurd (.inr hbound) hwrites⟩

section

variable (h : Inv S s)
include h

lemma Inv.writeAttributes {request : Answers → Answers} (hclean : ∀ c, (s.phase o).dirty c = false)
    (halone : request (s.answers c) ≠ s.answers c → Alone s o c) : Inv S (s.writeAttributes S o c request) := by
  rw [State.writeAttributes]
  split_ifs with hbound
  · have hne : ∀ c', c' ≠ c →
        update s.answers c (request (s.answers c)) c' = s.answers c' := fun c' hc' =>
      update_of_ne hc' _ _
    refine h.move (o := o) (update_self o _ s.phase)
      (fun o' ho => update_of_ne ho _ s.phase) rfl (fun o' ho c' hcritical => ⟨?_, rfl⟩) trivial
      (fun c' => ?_) (fun c' hc' => ?_) h.single
    · show update s.answers c (request (s.answers c)) c' = s.answers c'
      by_cases hc' : c' = c
      · rw [hc', update_self]
        by_contra hchanged
        rw [hc', halone hchanged o' ho] at hcritical
        cases hcritical
      · exact hne c' hc'
    · by_cases hc' : c' = c
      · by_cases hchanged : request (s.answers c) = s.answers c
        · -- a request that changes no answer
          refine .inr (.inr ⟨hclean c', fun hconsistent hmem hash hstamp => ?_⟩)
          rw [hchanged, update_eq_self]
          exact hconsistent hmem hash hstamp
        · exact .inl (decide_eq_true ⟨hc'.symm, decide_eq_true hchanged⟩)
      · refine .inr (.inr ⟨hclean c', fun hconsistent hmem hash hstamp => ?_⟩)
        show s.findings c' = S.derive c' hash (update s.answers c _ c')
        rw [hne c' hc']
        exact hconsistent hmem hash hstamp
    · have hcc : c' ≠ c := fun hcc => hc' (by rw [hcc]; exact hbound)
      show update s.answers c _ c' = S.noAnswers
      rw [hne c' hcc]
      exact h.unbound c' hc'
  · exact h.finish hclean

lemma Inv.writeFindings {hash : Option Hash} {changed : Bool} {findings : Findings} {policy : Hash}
    (hphase : s.phase o = .evaluated c hash changed findings policy) (halone : Alone s o c) :
    Inv S { s.goto o (.findingsWritten c hash policy) with
      findings := update s.findings c findings } := by
  have hsound := h.sound o
  rw [hphase] at hsound
  obtain ⟨hfindings, hpolicy, hnames⟩ := hsound
  have hne : ∀ c', c' ≠ c → update s.findings c findings c' = s.findings c' := fun c' hc' =>
    update_of_ne hc' _ _
  refine h.move (o := o) (update_self o _ s.phase)
    (fun o' ho => update_of_ne ho _ s.phase) rfl (fun o' ho c' hcritical => ⟨rfl, ?_⟩)
    ⟨?_, hpolicy, hnames⟩ (fun c' => ?_) h.unbound h.single
  · refine hne c' ?_
    rintro rfl
    rw [halone o' ho] at hcritical
    cases hcritical
  · show update s.findings c findings c = _
    rw [update_self]
    exact hfindings
  · by_cases hc' : c = c'
    · exact .inl (decide_eq_true hc')
    · refine .inr (.inr ⟨?_, fun hconsistent hmem hash' hstamp => ?_⟩)
      · rw [hphase]
        exact decide_eq_false fun hdirty => hc' hdirty.1
      · show update s.findings c findings c' = _
        rw [hne c' (Ne.symm hc')]
        exact hconsistent hmem hash' hstamp

/-- The stamp transaction of a save. -/
theorem Inv.stamp {hash : Option Hash} (hphase : s.phase o = .stamping c hash) :
    Inv S ((s.stampPolicy c hash).finish S o) := by
  have hsound := h.sound o
  rw [hphase] at hsound
  obtain ⟨stamps, heq, hother, hbound⟩ := s.stampPolicy_eq c hash
  rw [heq]
  refine h.move (o := o) (update_self o _ s.phase) (fun o' ho => update_of_ne ho _ s.phase) rfl
    (fun o' _ c' _ => ⟨rfl, rfl⟩) trivial (fun c' => ?_) h.unbound h.single
  by_cases hc' : c' = c
  · rw [hc']
    exact .inr (.inl fun hmem hash' hstamp => hsound hash' ((hbound hmem).symm.trans hstamp))
  · refine .inr (.inr ⟨?_, fun hconsistent hmem hash' hstamp => ?_⟩)
    · rw [hphase]
      exact decide_eq_false (Ne.symm hc')
    · exact hconsistent hmem hash' ((hother c' hc').symm.trans hstamp)

lemma Inv.evaluate {ok : Bool} (hok : Undisturbed S s (.evaluate o ok))
    (hnext : next S s (.evaluate o ok) = some s') : Inv S s' := by
  have hsound := h.sound o
  simp only [next] at hnext
  simp only [Undisturbed] at hok
  split at hnext
  · rename_i c hash changed hphase
    rw [hphase] at hok
    cases hnext
    split_ifs with hevaluates
    · refine h.goto ⟨rfl, rfl, hok.2⟩ fun c' hdirty => ?_
      rwa [hphase] at hdirty
    · refine h.finish fun c' => ?_
      rw [hphase]
      exact decide_eq_false fun hdirty => hevaluates (hok.1 hdirty.2)
  · rename_i c hash todo derived hphase
    rw [hphase] at hok hsound
    cases hnext
    split_ifs with hevaluates
    · refine h.goto ⟨⟨rfl, rfl, hok⟩, hsound.1, hsound.2⟩ fun c' hdirty => ?_
      rw [hphase] at hdirty
      cases hdirty
    · exact h.finish fun c' => by rw [hphase]; rfl
  · cases hnext

lemma Inv.report {ok : Bool} (hnext : next S s (.report o ok) = some s') : Inv S s' := by
  have hsound := h.sound o
  simp only [next] at hnext
  split at hnext
  · rename_i c hash policy hphase
    rw [hphase] at hsound
    obtain ⟨hfindings, hpolicy, hnames⟩ := hsound
    cases hnext
    refine h.goto (fun hash' hstamped => ?_) fun c' hdirty => ?_
    · rw [hpolicy] at hstamped
      rw [← eq_of_policyHashToStamp hnames hstamped]
      exact hfindings
    · rwa [hphase] at hdirty
  · rename_i c hash findings policy todo derived hphase
    rw [hphase] at hsound
    obtain ⟨⟨hfindings, hpolicy, hnames⟩, htargets, hderived⟩ := hsound
    cases hnext
    refine h.goto ⟨?_, fun d hd => ?_⟩ fun c' hdirty => ?_
    · rw [map_append, append_assoc]
      exact htargets
    · rcases mem_append.1 hd with hd | hd
      · exact hderived d hd
      · obtain rfl := mem_singleton.1 hd
        intro hash' hstamped
        rw [hpolicy] at hstamped
        rw [← eq_of_policyHashToStamp hnames hstamped]
        exact hfindings
    · rw [hphase] at hdirty
      cases hdirty
  · cases hnext

lemma Inv.preflight (hnext : next S s (.preflight o) = some s') : Inv S s' := by
  simp only [next] at hnext
  split at hnext
  · rename_i target hphase hkind
    have hclean : ∀ c, (s.phase o).dirty c = false := fun c => by rw [hphase]; rfl
    split_ifs at hnext with hends
    · cases hnext
      exact h.finish hclean
    · cases hnext
      rw [Bool.or_eq_true, not_or, Bool.not_eq_true', Bool.not_eq_false] at hends
      refine h.goto ⟨⟨target, hkind, hends.1, rfl⟩, fun d hd => absurd hd not_mem_nil⟩ fun c hdirty => ?_
      rw [hclean c] at hdirty
      cases hdirty
  · cases hnext

lemma Inv.readClass (hnext : next S s (.readClass o) = some s') : Inv S s' := by
  have hsound := h.sound o
  simp only [next] at hnext
  split at hnext <;> cases hnext
  rename_i c todo derived hphase
  rw [hphase] at hsound
  refine h.goto hsound fun c' hdirty => ?_
  rw [hphase] at hdirty
  cases hdirty

/-- A process changes a policy that none of its operations is to be asked about. -/
theorem Inv.load {p : Process} {hash : Hash} (hok : Undisturbed S s (.load p c hash)) :
    Inv S { s with policy := update s.policy p (update (s.policy p) c hash) } where
  sound o := by
    refine (h.sound o).frame (fun c' _ => ⟨rfl, rfl⟩) fun c' hawaits => ?_
    show update s.policy p (update (s.policy p) c hash) (S.process o) c' = _
    by_cases hp : S.process o = p
    · have hc : c' ≠ c := by
        rintro rfl
        rw [hok o hp] at hawaits
        cases hawaits
      rw [hp, update_self, update_of_ne hc]
    · rw [update_of_ne hp]
  consistent := h.consistent
  unbound := h.unbound
  single := h.single

end

variable (s) in
/-- The rebuild of the target classes changes findings and stamps only. -/
lemma rebuild_eq (derived : List (Derived Class Hash Findings)) : ∃ findings stamps,
    derived.foldl State.rebuild s = { s with findings := findings, stamps := stamps } := by
  induction derived generalizing s with
  | nil => exact ⟨_, _, rfl⟩
  | cons d derived ih =>
    obtain ⟨findings, stamps, heq⟩ := ih (s.rebuild d)
    obtain ⟨stamps', hstamp, -⟩ := State.stampPolicy_eq { s with findings := update s.findings d.classId d.findings }
      d.classId d.policyHash
    rw [foldl_cons, heq, State.rebuild, hstamp]
    exact ⟨findings, stamps, rfl⟩

variable {derived : List (Derived Class Hash Findings)} {target : Target Class Model} {e : Event ι Process Class Hash}

lemma rebuild_of_notMem (hc : c ∉ derived.map Derived.classId) :
    (derived.foldl State.rebuild s).findings c = s.findings c ∧
      (derived.foldl State.rebuild s).stamps c = s.stamps c := by
  induction derived generalizing s with
  | nil => exact ⟨rfl, rfl⟩
  | cons d derived ih =>
    rw [map_cons, mem_cons, not_or] at hc
    obtain ⟨hfindings, hstamps⟩ := ih hc.2
    rw [foldl_cons, hfindings, hstamps, State.rebuild, State.stampPolicy]
    split_ifs
    · exact ⟨update_of_ne hc.1 _ _, update_of_ne hc.1 _ _⟩
    · exact ⟨update_of_ne hc.1 _ _, rfl⟩

lemma rebuild_of_mem (hc : c ∈ derived.map Derived.classId)
    (hbound : c ∈ s.classIds) :
    ∃ d ∈ derived, d.classId = c ∧ (derived.foldl State.rebuild s).findings c = d.findings ∧
      (derived.foldl State.rebuild s).stamps c = d.policyHash := by
  induction derived generalizing s with
  | nil => cases hc
  | cons d derived ih =>
    obtain ⟨findings, stamps, hrebuild⟩ := rebuild_eq s [d]
    have hbound' : c ∈ ([d].foldl State.rebuild s).classIds := by rwa [hrebuild]
    by_cases hlater : c ∈ derived.map Derived.classId
    · obtain ⟨d', hd', hrest⟩ := ih hlater hbound'
      exact ⟨d', mem_cons_of_mem d hd', hrest⟩
    · have hdc : d.classId = c := ((mem_cons.1 hc).resolve_right hlater).symm
      obtain ⟨hfindings, hstamps⟩ := rebuild_of_notMem (s := s.rebuild d) hlater
      refine ⟨d, .head _, hdc, ?_⟩
      rw [foldl_cons, hfindings, hstamps, State.rebuild, State.stampPolicy,
        if_pos (.inr (by rw [hdc]; exact hbound)), ← hdc]
      exact ⟨update_self _ _ _, update_self _ _ _⟩

lemma mem_rewire_classIds : c ∈ (s.rewire S target).classIds ↔ c ∈ target.classIds := by
  have hkept : ∀ c', c' ∈ (if S.isControl then s.classIds.filter (· ∈ target.classIds) else []) →
      c' ∈ target.classIds := by
    intro c' hc'
    split_ifs at hc'
    · exact of_decide_eq_true (mem_filter.1 hc').2
    · cases hc'
  simp only [State.rewire, mem_append, mem_dedup, mem_filter, decide_eq_true_eq]
  constructor
  · rintro (hc | ⟨hc, -⟩)
    · exact hkept c hc
    · exact hc
  · intro hc
    by_cases hmem : c ∈ (if S.isControl then s.classIds.filter (· ∈ target.classIds) else [])
    · exact .inl hmem
    · exact .inr ⟨hc, hmem⟩

lemma eq_singleton_of_mem {classIds : List Class} (hc : c ∈ classIds) (hlength : classIds.length ≤ 1) :
    classIds = [c] := by
  obtain ⟨c', rfl⟩ := length_eq_one_iff.1 (le_antisymm hlength (length_pos_of_mem hc))
  rw [mem_singleton.1 hc]

/-- A change of binding that is no identity keeps the answers of every class of its target: a binding is
kept with its answers, and a new one has none. -/
lemma rewire_answers (h : Inv S s)
    (hvalid : target.valid S.isControl = true) (hchanges : s.isIdentityTransition target = false)
    (hc : c ∈ target.classIds) : (s.rewire S target).answers c = s.answers c := by
  simp only [State.rewire]
  split_ifs with hcontrol hkept hkept
  · rfl
  · refine (h.unbound c fun hbound => hkept ?_).symm
    exact mem_filter.2 ⟨hbound, decide_eq_true hc⟩
  · rfl
  · refine (h.unbound c fun hbound => ?_).symm
    -- the one class of the element is the one class of the target
    have hsingle := h.single (Bool.eq_false_iff.2 hcontrol)
    have hmodelId : s.modelId = none := by
      by_contra hmodel
      rw [hsingle.2 hmodel] at hbound
      cases hbound
    have hbindings : s.classIds = [c] := eq_singleton_of_mem hbound hsingle.1
    cases target with
    | classes classIds =>
      rw [Bool.eq_false_iff.2 hcontrol, Target.valid, Bool.false_or, beq_iff_eq] at hvalid
      have htarget : classIds = [c] := eq_singleton_of_mem hc (le_of_eq hvalid)
      rw [State.isIdentityTransition, decide_eq_false_iff_not] at hchanges
      exact hchanges ⟨hmodelId, by rw [htarget, hbindings]; exact isPerm_iff.2 (List.Perm.refl _)⟩
    | representedModel modelId | none => cases hc

/-- The write transaction of a binding change, which stamps its target classes with what it derived. -/
lemma Inv.bind (h : Inv S s) (hphase : s.phase o = .binding [] derived) (hkind : S.kind o = .binding target)
    (halone : s.isIdentityTransition target = false → ∀ c, Alone s o c) :
    Inv S ((s.bind S target derived).finish S o) := by
  have hclean : ∀ c, (s.phase o).dirty c = false := fun c => by rw [hphase]; rfl
  rw [State.bind]
  split_ifs with hidentity
  · exact h.finish hclean
  have hchanges := Bool.eq_false_iff.2 hidentity
  have hsound := h.sound o
  rw [hphase] at hsound
  obtain ⟨⟨target', hkind', hvalid, htargets⟩, hderived⟩ := hsound
  obtain rfl : target' = target := by
    rw [hkind] at hkind'
    exact (Kind.binding.inj hkind').symm
  rw [append_nil] at htargets
  set rewired : State ι Process Class Model Hash Answers Findings :=
    { s.rewire S target' with findings := fun _ => S.noFindings } with hrewired
  obtain ⟨findings, stamps, heq⟩ := rebuild_eq rewired derived
  have hofMem : ∀ c ∈ derived.map Derived.classId, c ∈ rewired.classIds → _ := fun _ => rebuild_of_mem
  rw [heq] at hofMem ⊢
  refine h.move (o := o) (update_self o _ s.phase) (fun o' ho => update_of_ne ho _ s.phase) rfl
    (fun o' ho c hcritical => ?_) trivial (fun c => .inr (.inl fun hmem hash hstamp => ?_))
    (fun c hc => if_neg fun hkept => hc (mem_append_left _ hkept)) (fun hcontrol => ?_)
  · rw [halone hchanges c o' ho] at hcritical
    cases hcritical
  · -- a bound class is one of the target, and has been derived from the answers that it has now
    have htarget : c ∈ target'.classIds := mem_rewire_classIds.1 hmem
    obtain ⟨d, hd, rfl, hfindings, hstamps⟩ := hofMem c (htargets ▸ htarget) hmem
    refine hfindings.trans ?_
    show d.findings = S.derive d.classId hash ((s.rewire S target').answers d.classId)
    rw [rewire_answers h hvalid hchanges htarget]
    exact hderived d hd hash (hstamps.symm.trans hstamp)
  · show (s.rewire S target').classIds.length ≤ 1 ∧
      ((s.rewire S target').modelId ≠ none → (s.rewire S target').classIds = [])
    simp only [State.rewire, hcontrol, Bool.false_eq_true, if_false, nil_append,
      not_mem_nil, not_false_eq_true, decide_true, filter_true]
    rw [hcontrol] at hvalid
    cases target' with
    | classes classIds =>
      have hlength : classIds.length = 1 := beq_iff_eq.1 hvalid
      exact ⟨le_trans (dedup_sublist classIds).length_le (le_of_eq hlength), fun hmodel => absurd rfl hmodel⟩
    | representedModel modelId | none => exact ⟨zero_le 1, fun _ => rfl⟩

lemma inv_next (h : Inv S s) (hok : Undisturbed S s e) (hnext : next S s e = some s') : Inv S s' := by
  cases e with
  | start o =>
    simp only [next] at hnext
    split at hnext
    · rename_i hphase
      split_ifs at hnext
      cases hnext
      have hgoto : Inv S (s.goto o .started) := h.goto trivial fun c hdirty => by
        rw [hphase] at hdirty
        cases hdirty
      exact ⟨hgoto.sound, hgoto.consistent, hgoto.unbound, hgoto.single⟩
    · cases hnext
  | refuse o =>
    simp only [next] at hnext
    split at hnext
    all_goals first
      | rename_i hphase
        cases hnext
        exact h.finish fun c => by rw [hphase]; rfl
      | cases hnext
  | check o =>
    simp only [next] at hnext
    split at hnext
    · rename_i c hphase hkind
      have hclean : ∀ c, (s.phase o).dirty c = false := fun c => by rw [hphase]; rfl
      split_ifs at hnext
      · cases hnext
        exact h.goto trivial fun c hdirty => by
          rw [hclean c] at hdirty
          cases hdirty
      · cases hnext
        exact h.finish hclean
    · cases hnext
  | writeAttributes o =>
    simp only [next] at hnext
    simp only [Undisturbed] at hok
    split at hnext
    · rename_i c request hphase hkind
      rw [hkind] at hok
      cases hnext
      exact h.writeAttributes (fun c => by rw [hphase]; rfl) hok
    · rename_i c hphase hkind
      rw [hkind] at hok
      cases hnext
      exact h.writeAttributes (fun c => by rw [hphase]; rfl) hok
    · cases hnext
  | evaluate o ok => exact h.evaluate hok hnext
  | writeFindings o =>
    simp only [next] at hnext
    simp only [Undisturbed] at hok
    split at hnext <;> cases hnext
    rename_i c hash changed findings policy hphase
    rw [hphase] at hok
    exact h.writeFindings hphase hok
  | report o ok => exact h.report hnext
  | stamp o =>
    simp only [next] at hnext
    split at hnext <;> cases hnext
    rename_i c hash hphase
    exact h.stamp hphase
  | preflight o => exact h.preflight hnext
  | readClass o => exact h.readClass hnext
  | bind o =>
    simp only [next] at hnext
    simp only [Undisturbed] at hok
    split at hnext <;> cases hnext
    rename_i derived target hphase hkind
    rw [hkind] at hok
    exact h.bind hphase hkind hok
  | install c hash =>
    cases hnext
    -- the hash of a class concerns no operation
    exact ⟨fun o => (h.sound o).frame (fun _ _ => ⟨rfl, rfl⟩) fun _ _ => rfl, h.consistent, h.unbound,
      h.single⟩
  | load p c hash =>
    cases hnext
    exact h.load hok

lemma inv_of_init (h : (system S).init s) : Inv S s := by
  obtain ⟨hidle, -, hsingle, hunbound, hvouched⟩ := h
  refine ⟨fun o => ?_, fun c => .inl fun _ => hvouched c, fun c hc => (hunbound c hc).1, hsingle⟩
  rw [hidle o]
  trivial

lemma Inv.vouched (h : Inv S s) (hquiescent : Quiescent s) (hc : c ∈ s.classIds) : Vouched S s c := by
  intro hash hstamp _
  rcases h.consistent c with hconsistent | ⟨o, hdirty⟩
  · exact hconsistent hc hash hstamp
  · rcases hquiescent o with hphase | hphase <;> rw [hphase] at hdirty <;> cases hdirty

/-! ### Stamps of unbound classes -/

def Stamped (s : State ι Process Class Model Hash Answers Findings) : Prop :=
  ∀ c, s.stamps c ≠ none → c ∈ s.classIds

lemma data_of_next (hnext : next S s e = some s') (hstamp : ∀ o, e ≠ .stamp o) (hbind : ∀ o, e ≠ .bind o) :
    s'.stamps = s.stamps ∧ s'.classIds = s.classIds := by
  have hwrite : ∀ (o : ι) (c : Class) (request : Answers → Answers),
      (s.writeAttributes S o c request).stamps = s.stamps ∧
        (s.writeAttributes S o c request).classIds = s.classIds := by
    intro o c request
    rw [State.writeAttributes]
    split_ifs <;> exact ⟨rfl, rfl⟩
  cases e with
  | stamp o => exact absurd rfl (hstamp o)
  | bind o => exact absurd rfl (hbind o)
  | writeAttributes o =>
    simp only [next] at hnext
    split at hnext
    · cases hnext
      exact hwrite _ _ _
    · cases hnext
      exact hwrite _ _ _
    · cases hnext
  | evaluate o ok =>
    simp only [next] at hnext
    split at hnext
    · cases hnext
      split_ifs <;> exact ⟨rfl, rfl⟩
    · cases hnext
      split_ifs <;> exact ⟨rfl, rfl⟩
    · cases hnext
  | install c hash | load p c hash =>
    cases hnext
    exact ⟨rfl, rfl⟩
  | start o | refuse o | check o | writeFindings o | report o ok | preflight o | readClass o =>
    simp only [next] at hnext
    split at hnext
    all_goals try split_ifs at hnext
    all_goals first
      | obtain rfl := Option.some.inj hnext
        exact ⟨rfl, rfl⟩
      | cases hnext

lemma stamped_next (h : Inv S s) (hstamped : Stamped s)
    (hkeeps : KeepsStamped S s e) (hnext : next S s e = some s') : Stamped s' := by
  by_cases hstamp : ∃ o, e = .stamp o
  · obtain ⟨o, rfl⟩ := hstamp
    simp only [next] at hnext
    split at hnext <;> cases hnext
    rename_i c hash hphase
    intro c' hc'
    replace hc' : (s.stampPolicy c hash).stamps c' ≠ none := hc'
    rw [State.stampPolicy] at hc' ⊢
    split_ifs at hc' ⊢ with hwrites
    · by_cases hcc : c' = c
      · rw [hcc] at hc' ⊢
        refine hwrites.resolve_left fun hnone => hc' ?_
        rw [Option.isNone_iff_eq_none] at hnone
        exact (update_self c hash s.stamps).trans hnone
      · exact hstamped c' (by rwa [← update_of_ne hcc hash s.stamps])
    · exact hstamped c' hc'
  by_cases hbind : ∃ o, e = .bind o
  · obtain ⟨o, rfl⟩ := hbind
    have hsound := h.sound o
    simp only [next] at hnext
    simp only [KeepsStamped] at hkeeps
    split at hnext <;> cases hnext
    rename_i derived target hphase hkind
    rw [hkind] at hkeeps
    rw [hphase] at hsound
    obtain ⟨⟨target', hkind', -, htargets⟩, -⟩ := hsound
    obtain rfl : target' = target := by
      rw [hkind] at hkind'
      exact (Kind.binding.inj hkind').symm
    rw [append_nil] at htargets
    intro c hc
    replace hc : (s.bind S target' derived).stamps c ≠ none := hc
    show c ∈ (s.bind S target' derived).classIds
    rw [State.bind] at hc ⊢
    split_ifs at hc ⊢ with hidentity
    · exact hstamped c hc
    · have htarget : c ∈ target'.classIds := by
        by_contra htarget
        -- a class that is not rebuilt has the stamp that it had
        rw [(rebuild_of_notMem (by rw [← htargets]; exact htarget)).2] at hc
        exact hc (hkeeps (Bool.eq_false_iff.2 hidentity) c (hstamped c hc) htarget)
      obtain ⟨findings, stamps, heq⟩ := rebuild_eq { s.rewire S target' with findings := fun _ => S.noFindings } derived
      rw [heq]
      exact mem_rewire_classIds.2 htarget
  obtain ⟨hstamps, hclassIds⟩ := data_of_next hnext (fun o ho => hstamp ⟨o, ho⟩) fun o ho => hbind ⟨o, ho⟩
  intro c hc
  rw [hclassIds]
  exact hstamped c (by rwa [← hstamps])

/-- In runs in which the operations do not disturb each other, a stamp that equals the class's hash
vouches for the findings of a bound class whenever no operation is in flight, and of every class if no
stamped class is unbound. -/
theorem vouched_of_reached (S : Setting ι Process Class Model Hash Answers Findings)
    (s : State ι Process Class Model Hash Answers Findings) (hquiescent : Quiescent s) :
    ((system S).Reachable (Undisturbed S) s → ∀ c ∈ s.classIds, Vouched S s c) ∧
      ((system S).Reachable (fun s e => Undisturbed S s e ∧ KeepsStamped S s e) s →
        ∀ c, Vouched S s c) := by
  refine ⟨fun hreached c hc => ?_, fun hreached c => ?_⟩
  · have hinv : Inv S s := hreached.invariant (fun _ => inv_of_init) fun _ _ _ => inv_next
    exact hinv.vouched hquiescent hc
  · have hinv : Inv S s ∧ Stamped s := by
      refine hreached.invariant (P := fun s => Inv S s ∧ Stamped s)
        (fun s hinit => ⟨inv_of_init hinit, fun c hc => ?_⟩) fun s e s' hs hok hnext =>
          ⟨inv_next hs.1 hok.1 hnext, stamped_next hs.1 hs.2 hok.2 hnext⟩
      by_contra hbound
      exact hc (hinit.2.2.2.1 c hbound).2
    by_cases hc : c ∈ s.classIds
    · exact hinv.1.vouched hquiescent hc
    · intro hash hstamp _
      refine absurd (hinv.2 c ?_) hc
      rw [hstamp]
      exact Option.some_ne_none hash

end

/-! ## Two processes -/

/-- A save by each of two processes, or, in the place of the second save, a re-evaluation: one class,
whose policy with hash `h` derives the finding `h + a` from the answer `a`. -/
def sampleSetting (second : Kind Unit Unit ℕ) : Setting (Fin 2) (Fin 2) Unit Unit ℕ ℕ ℕ where
  process o := o
  kind o := if o = 0 then .save () (fun _ => 10) else second
  isControl := false
  derive _ hash answers := hash + answers
  getPolicyHash _ _ := true
  noAnswers := 0
  noFindings := 0

def sampleInitial : State (Fin 2) (Fin 2) Unit Unit ℕ ℕ ℕ where
  classIds := [()]
  modelId := none
  answers _ := 0
  findings _ := 0
  stamps _ := none
  policyHash _ := some 1
  policy _ _ := 1
  taken _ := false
  phase _ := .idle

lemma sampleInitial_init (second : Kind Unit Unit ℕ) : (system (sampleSetting second)).init sampleInitial :=
  ⟨fun _ => rfl, fun _ => rfl, fun _ => ⟨le_refl 1, fun h => absurd rfl h⟩,
    fun _ hc => absurd (.head _) hc, fun _ _ h => by cases h⟩

/-- The save of the first process, an install, and a re-evaluation by the second. -/
def installEvents : List (Event (Fin 2) (Fin 2) Unit ℕ) :=
  [.start 0, .writeAttributes 0, .evaluate 0 true, .writeFindings 0, .report 0 true, .stamp 0,
    .install () (some 2), .load 1 () 2,
    .start 1, .check 1, .writeAttributes 1, .evaluate 1 true, .writeFindings 1, .report 1 true, .stamp 1]

/-- Both processes save, before and after an install; the second evaluates the answers of both, and the
first writes its findings over those of the second. -/
def raceEvents : List (Event (Fin 2) (Fin 2) Unit ℕ) :=
  [.start 0, .writeAttributes 0, .evaluate 0 true, .install () (some 2), .load 1 () 2,
    .start 1, .writeAttributes 1, .evaluate 1 true, .writeFindings 1, .writeFindings 0, .report 0 true,
    .stamp 0, .report 1 true, .stamp 1]

/-- The end of a schedule, or the start if it cannot be followed. -/
def sampleEnd (second : Kind Unit Unit ℕ) (events : List (Event (Fin 2) (Fin 2) Unit ℕ)) :
    State (Fin 2) (Fin 2) Unit Unit ℕ ℕ ℕ :=
  ((system (sampleSetting second)).run (fun _ _ => true) sampleInitial events).getD sampleInitial

theorem installEvents_vouched :
    (sampleEnd (.reevaluation ()) installEvents).stamps () = some 2 ∧
      ∀ c, Vouched (sampleSetting (.reevaluation ())) (sampleEnd (.reevaluation ()) installEvents) c := by
  have hrun : ((system (sampleSetting (.reevaluation ()))).run
      (fun s e => decide (Undisturbed (sampleSetting (.reevaluation ())) s e ∧
        KeepsStamped (sampleSetting (.reevaluation ())) s e))
      sampleInitial installEvents).isSome = true := by
    decide +kernel
  obtain ⟨s, hs⟩ := Option.isSome_iff_exists.1 hrun
  have hreached := TransitionSystem.reachable_of_run (fun _ _ => of_decide_eq_true)
    (.init (sampleInitial_init (.reevaluation ()))) hs
  have hend : sampleEnd (.reevaluation ()) installEvents = s := by
    rw [sampleEnd, TransitionSystem.run_mono (fun _ _ _ => rfl) hs]
    rfl
  have hquiescent : Quiescent (sampleEnd (.reevaluation ()) installEvents) := by
    intro o
    exact .inr ((by decide : ∀ o, (sampleEnd (.reevaluation ()) installEvents).phase o = .ended) o)
  refine ⟨by decide, (vouched_of_reached _ _ hquiescent).2 ?_⟩
  rw [hend]
  exact hreached

/-- The stamp equals the hash of the class, and the findings are those of the policy before. -/
theorem raceEvents_not_vouched :
    ¬ ∀ s, (system (sampleSetting (.save () fun _ => 10))).Reachable (fun _ _ => True) s →
      Quiescent s → ∀ c, Vouched (sampleSetting (.save () fun _ => 10)) s c := by
  intro h
  have hrun : ((system (sampleSetting (.save () fun _ => 10))).run (fun _ _ => true) sampleInitial
      raceEvents).isSome = true := by
    decide
  obtain ⟨s, hs⟩ := Option.isSome_iff_exists.1 hrun
  have hend : sampleEnd (.save () fun _ => 10) raceEvents = s := by
    rw [sampleEnd, hs]
    rfl
  have hreached : (system (sampleSetting (.save () fun _ => 10))).Reachable (fun _ _ => True) s :=
    TransitionSystem.reachable_of_run (fun _ _ _ => trivial) (.init (sampleInitial_init _)) hs
  have hquiescent : Quiescent s := by
    rw [← hend]
    exact fun o => .inr
      ((by decide : ∀ o, (sampleEnd (.save () fun _ => 10) raceEvents).phase o = .ended) o)
  have hvouched := h s hreached hquiescent ()
  rw [← hend] at hvouched
  exact absurd (hvouched 2 (by decide) (by decide)) (by decide)

end PolicyStamps
