import Dethernety.Foundations.RecordCount
import Dethernety.Foundations.Transition

/-!
# Instances of the module registry

`loadModules` and `reloadModule` of `module-registry.service.ts`, with `loadModuleWithRetry` and `loadModuleInternal`
under them, for what becomes of the module instances. A call keeps the instance that it has loaded while it awaits the
schema extension, the resolvers or the frontend of the module; a load that has lost the race with its timeout goes on
by itself. Instances are numbered as they are constructed. Calls run interleaved at their awaits.

The walk over the directories is left open: a call loads any file, or the same one again, as often as it comes to it.
Of an entry the instance is kept. The check of the security of a file, the import and what a module itself answers show
in whether and when a load constructs an instance, succeeds with a name, or fails.
-/

namespace ModuleRegistry

/-- What a call is doing. -/
inductive Phase
  /-- `loadModules` until it has found the directory. -/
  | starting
  | scanning
  /-- A load is awaited, with the instance that it has constructed. -/
  | loading (instance? : Option ℕ)
  /-- A load has succeeded, with the name in the metadata. -/
  | received (inst : ℕ) (moduleName : String)
  /-- The schema extension, the resolvers or the frontend of a loaded module is awaited. -/
  | attaching (inst : ℕ) (moduleName : String)

inductive Kind
  | loadModules
  /-- `reloadModule`, with the instance of the entry that it has found at its start. -/
  | reloadModule (moduleName : String) (existing : Option ℕ)

structure Call where
  kind : Kind
  phase : Phase

structure Registry where
  /-- The instances of `customModules`. -/
  customModules : Record String ℕ
  modulesLoaded : Bool
  /-- The number of instances constructed. -/
  constructed : ℕ
  /-- What `disposeModule` has been called with, the latest first. -/
  disposed : List ℕ
  calls : Record ℕ Call
  /-- Loads that have lost the race with their timeout and run on, with the instances that they have constructed. -/
  late : List (Option ℕ)

inductive RegistryEvent
  | loadModules (call : ℕ)
  | reloadModule (call : ℕ) (moduleName : String)
  /-- `loadModules` has found the directory and clears the registry. -/
  | clear (call : ℕ)
  /-- A call returns. -/
  | leave (call : ℕ)
  | load (call : ℕ)
  /-- The awaited load of a call constructs its instance. -/
  | construct (call : ℕ)
  | succeed (call : ℕ) (moduleName : String)
  | fail (call : ℕ)
  | timeout (call : ℕ)
  | constructLate
  /-- A late load ends, by success or failure. -/
  | endLate (load : Option ℕ)
  /-- A call goes on with the module that it has loaded. -/
  | proceed (call : ℕ)
  /-- A call enters its module. -/
  | enter (call : ℕ)

namespace Registry

variable (s : Registry)

def disposeModule (inst : Option ℕ) : Registry :=
  { s with disposed := inst.toList ++ s.disposed }

/-- The call is in this phase now. -/
def goTo (call : ℕ) (kind : Kind) (phase : Phase) : Registry :=
  { s with calls := s.calls.set call ⟨kind, phase⟩ }

/-- What a call does with a module that has loaded. -/
def proceed (call : ℕ) (kind : Kind) (inst : ℕ) (loadedName : String) : Registry :=
  match kind with
  | .loadModules =>
    if loadedName ∈ s.customModules.keys then (s.disposeModule (some inst)).goTo call kind .scanning
    else s.goTo call kind (.attaching inst loadedName)
  | .reloadModule moduleName _ =>
    if loadedName ≠ moduleName then (s.disposeModule (some inst)).goTo call kind .scanning
    else s.goTo call kind (.attaching inst loadedName)

/-- What a call does with a module whose parts have been collected. -/
def enter (call : ℕ) (kind : Kind) (inst : ℕ) (loadedName : String) : Registry :=
  match kind with
  | .loadModules =>
    { s.goTo call kind .scanning with customModules := s.customModules.set loadedName inst }
  | .reloadModule moduleName existing =>
    { s.disposeModule (existing.filter (· ≠ inst)) with
      customModules := s.customModules.set moduleName inst
      calls := s.calls.erase call }

/-- One event. -/
def next : RegistryEvent → Option Registry
  | .loadModules call =>
    if (s.calls.get? call).isSome then none
    else if s.modulesLoaded then some s
    else some { s.goTo call .loadModules .starting with modulesLoaded := true }
  | .reloadModule call moduleName =>
    if (s.calls.get? call).isSome then none
    else some (s.goTo call (.reloadModule moduleName (s.customModules.get? moduleName)) .scanning)
  | .clear call =>
    match s.calls.get? call with
    | some ⟨kind, .starting⟩ => some { s.goTo call kind .scanning with customModules := ∅ }
    | _ => none
  | .leave call =>
    match s.calls.get? call with
    | some ⟨_, .starting⟩ | some ⟨_, .scanning⟩ => some { s with calls := s.calls.erase call }
    | _ => none
  | .load call =>
    match s.calls.get? call with
    | some ⟨kind, .scanning⟩ => some (s.goTo call kind (.loading none))
    | _ => none
  | .construct call =>
    match s.calls.get? call with
    | some ⟨kind, .loading none⟩ =>
      some { s.goTo call kind (.loading (some s.constructed)) with constructed := s.constructed + 1 }
    | _ => none
  | .succeed call moduleName =>
    match s.calls.get? call with
    | some ⟨kind, .loading (some inst)⟩ => some (s.goTo call kind (.received inst moduleName))
    | _ => none
  | .fail call =>
    match s.calls.get? call with
    | some ⟨kind, .loading inst⟩ => some ((s.disposeModule inst).goTo call kind .scanning)
    | _ => none
  | .timeout call =>
    match s.calls.get? call with
    | some ⟨kind, .loading inst⟩ => some { s.goTo call kind .scanning with late := inst :: s.late }
    | _ => none
  | .constructLate =>
    if none ∈ s.late then
      some { s with late := some s.constructed :: s.late.erase none, constructed := s.constructed + 1 }
    else none
  | .endLate load =>
    if load ∈ s.late then some { s.disposeModule load with late := s.late.erase load } else none
  | .proceed call =>
    match s.calls.get? call with
    | some ⟨kind, .received inst moduleName⟩ => some (s.proceed call kind inst moduleName)
    | _ => none
  | .enter call =>
    match s.calls.get? call with
    | some ⟨kind, .attaching inst moduleName⟩ => some (s.enter call kind inst moduleName)
    | _ => none

/-- No call and no load is running. -/
def Quiet : Prop :=
  s.calls.keys = [] ∧ s.late = []

/-- The instance is that of exactly one entry and has not been disposed, or has been disposed exactly once. -/
def Accounted (inst : ℕ) : Prop :=
  (∃ moduleName, s.customModules.get? moduleName = some inst ∧ inst ∉ s.disposed ∧
    ∀ other, s.customModules.get? other = some inst → other = moduleName) ∨
  s.disposed.count inst = 1 ∧ ∀ moduleName, s.customModules.get? moduleName ≠ some inst

end Registry

/-- A registry before its first call. -/
def initial : Registry where
  customModules := ∅
  modulesLoaded := false
  constructed := 0
  disposed := []
  calls := ∅
  late := []

def system : TransitionSystem Registry RegistryEvent where
  init s := s = initial
  next := Registry.next

/-- The name that a call is about to enter, with the instance that it takes to be there. -/
def Registry.taken (s : Registry) (call : ℕ) : Option (String × Option ℕ) :=
  match s.calls.get? call with
  | some ⟨.loadModules, .attaching _ moduleName⟩ => some (moduleName, none)
  | some ⟨.reloadModule moduleName existing, .attaching _ _⟩ => some (moduleName, existing)
  | _ => none

/-- A call enters its module in the place of the instance that it takes to be there, and the registry is cleared while
it has no entry. -/
def Undisturbed (s : Registry) : RegistryEvent → Prop
  | .clear _ => s.customModules.keys = []
  | .enter call => ∀ e ∈ s.taken call, s.customModules.get? e.1 = e.2
  | _ => True

instance (s : Registry) : DecidablePred (Undisturbed s)
  | .clear _ => inferInstanceAs (Decidable (s.customModules.keys = []))
  | .enter call => inferInstanceAs (Decidable (∀ e ∈ s.taken call, s.customModules.get? e.1 = e.2))
  | .loadModules _ | .reloadModule .. | .leave _ | .load _ | .construct _ | .succeed .. | .fail _ | .timeout _
  | .constructLate | .endLate _ | .proceed _ => inferInstanceAs (Decidable True)

end ModuleRegistry
