import Dethernety.Console.Handlers

/-!
# What a call leaves alone

Every call changes at most one part of the world (`act_frame`), and the parts that a proof rests on change only by the
calls that are named here.
-/

namespace Console.Daemon

open ModuleInstall

namespace Call

def changesFile : Call → Bool
  | writeModeLayerLocked _ => true
  | _ => false

/-- The calls on `modeLayerMu`. -/
def isModeLayerLock : Call → Bool
  | lockModeLayer | unlockModeLayer => true
  | _ => false

/-- The calls on `modulesOps`. -/
def isModulesLock : Call → Bool
  | tryLockModules | unlockModules => true
  | _ => false

/-- The calls that change what lies in the modules directory. -/
def changesModules : Call → Bool
  | mkdir _ | remove _ | writeFile _ _ _ | removeAll _ | rename _ _ | extract _ _ => true
  | _ => false

/-- The calls on the modules directory. -/
def onModules : Call → Bool
  | readDir | stat _ | lstat _ | hasMarkerNamed _ _ | readFile _ _ | stubPresent _ _ | compute _ | readStamp _ => true
  | c => c.changesModules

def changesSessions : Call → Bool
  | valid _ | record _ _ | keepOnly _ _ => true
  | _ => false

end Call

/-- The parts of the world that a call leaves alone. -/
structure Frame (c : Call) (w w' : World) : Prop where
  file : c.changesFile = false → w'.file = w.file := by first | exact fun _ => rfl | nofun
  modeLayerMu : c.isModeLayerLock = false → w'.modeLayerMu = w.modeLayerMu := by first | exact fun _ => rfl | nofun
  modulesOps : c.isModulesLock = false → w'.modulesOps = w.modulesOps := by first | exact fun _ => rfl | nofun
  modules : c.changesModules = false → w'.modules = w.modules := by first | exact fun _ => rfl | nofun
  live : c.changesSessions = false → w'.live = w.live := by first | exact fun _ => rfl | nofun
  clock : w'.clock = w.clock := by rfl

variable {env : Platform} {i : ℕ} {o : Outside} {w w' : World} {c : Call} {a : Answer c} {req : Request}

lemma act_files (h : act env i o w c = some (a, w')) (hc : c.onModules = true) :
    ∃ d, actFiles env o w.modules c = some (a, d) ∧ w' = { w with modules := d } := by
  cases c with
  | readDir | stat _ | lstat _ | hasMarkerNamed _ _ | readFile _ _ | stubPresent _ _ | mkdir _ | remove _
  | writeFile _ _ _ | removeAll _ | rename _ _ | extract _ _ | compute _ | readStamp =>
    simp only [act] at h
    obtain ⟨⟨a', d⟩, hr, heq⟩ := Option.map_eq_some_iff.1 h
    cases heq
    exact ⟨d, hr, rfl⟩
  | _ => cases hc

lemma act_frame (h : act env i o w c = some (a, w')) : Frame c w w' := by
  cases c with
  | valid session =>
    simp only [act] at h
    split at h
    · cases h
      exact {}
    · split_ifs at h <;> cases h <;> exact {}
  | identityOf _ | now | readModeLayer | registeredModules _ | config | readKgListing _ | entitledGet _ _ _ _
  | resolveEntitlements _ _ _ | record _ _ | unlockModeLayer | release | unlockModules =>
    cases h
    exact {}
  | keepOnly =>
    cases h
    unfold World.keepOnly
    split <;> exact {}
  | randomID | lockModeLayer | tryAcquire | tryLockModules =>
    simp only [act] at h
    split_ifs at h <;> cases h <;> exact {}
  | writeModeLayerLocked =>
    simp only [act] at h
    split at h <;> cases h <;> exact {}
  | readDir | stat _ | lstat _ | hasMarkerNamed _ _ | readFile _ _ | stubPresent _ _ | compute _ | readStamp =>
    obtain ⟨d, hd, rfl⟩ := act_files h rfl
    cases hd
    exact {}
  | mkdir _ | remove _ | writeFile _ _ _ | removeAll _ | rename _ _ | extract =>
    obtain ⟨d, -, rfl⟩ := act_files h rfl
    exact {}

/-- The call of a step, in the world when its time has come. -/
theorem act_of_exec (h : (machine env).exec i req c o w = some (a, w')) :
    act env i o { w with clock := w.clock + o.elapsed } c = some (a, w') := h

lemma exec_frame (h : (machine env).exec i req c o w = some (a, w')) :
    Frame c { w with clock := w.clock + o.elapsed } w' :=
  act_frame h

end Console.Daemon
