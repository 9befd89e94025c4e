import Dethernety.Console.GuardedWrites
import Dethernety.Console.HandlerCalls

/-!
# Sessions across a change of posture

A connect or a disconnect writes the mode file and then drops all live sessions but the one of its caller, which is
left a quarter of an hour. A mint reads the file and records its session later. While no session of the local branch
is recorded too late, every live session of a cloud deployment is accounted for (`sessions_accounted`); without that
a run can leave one without a deadline (`lateMint_unaccounted`).
-/

open List Bool

namespace Console.Daemon

open Threads Script

abbrev LogStep := Threads.Step Answer Request World

/-- A connect or a disconnect. -/
def Request.changesPosture : Request → Bool
  | cloudApply _ _ _ _ | cloudDisable _ _ => true
  | _ => false

def Request.sessionId : Request → String
  | session _ => ""
  | cloudApply id _ _ _ | cloudDisable id _ | cloudAllowlist id _ _ | cloudKgUpdate id _ _ | mountModule id _ _ _ _
  | unmountModule id _ _ | installArtifact id _ _ _ _ | removeArtifact id _ _ => id

/-! ## What the log says -/

def isWritten : Script.Event Answer → Bool
  | ⟨.writeModeLayerLocked _, done⟩ => done
  | _ => false

def isDrop : Call → Bool
  | .keepOnly _ _ => true
  | _ => false

/-- A connect or a disconnect writes the mode file. -/
def lands (st : LogStep) : Bool :=
  st.request.changesPosture && isWritten st.event

/-- A connect or a disconnect drops the sessions. -/
def drops (st : LogStep) : Bool :=
  st.request.changesPosture && isDrop st.call

/-- One step of `unsettled`. -/
def settle (l : List ℕ) (st : LogStep) : List ℕ :=
  if lands st then st.thread :: l else if drops st then l.filter (· ≠ st.thread) else l

/-- The changes that wrote the mode file and did not drop the sessions yet. -/
def unsettled (log : List LogStep) : List ℕ :=
  log.foldl settle []

/-- The steps since sessions were last dropped. -/
def sinceDrop (log : List LogStep) : List LogStep :=
  log.rtakeWhile fun st => !drops st

/-- The last change that dropped the sessions. -/
def lastDrop (log : List LogStep) : Option LogStep :=
  (log.filter drops).getLast?

def readsCloud : Script.Event Answer → Bool
  | ⟨.readModeLayer, file⟩ => isCloudModeFile file
  | _ => false

def signsIn : Script.Event Answer → Bool
  | ⟨.registeredModules _, accepted⟩ => accepted
  | _ => false

/-- The mint read a cloud file, and the platform accepted the sign-in. -/
def byCloudBranch (past : List (Script.Event Answer)) : Bool :=
  past.any readsCloud && past.any signsIn

/-- A session that was minted by the cloud branch since the last change, or the one that the last change kept, with
little time left. -/
def Accounted (log : List LogStep) (id : String) (s : Session) : Prop :=
  (∃ st ∈ sinceDrop log, st.call = .record id s ∧ byCloudBranch st.past = true) ∨
    ∃ st d, lastDrop log = some st ∧ id = st.request.sessionId ∧ s.expiresAt = some d ∧
      d ≤ st.after.clock + postureGraceTTL

/-- A session of the local branch is recorded only while the file is not a cloud file, or while a change that wrote
it is still to drop the sessions. -/
def recordsInTime (log : List LogStep) (st : LogStep) : Bool :=
  match st.call with
  | .record _ _ => byCloudBranch st.past || !isCloudModeFile st.before.file || unsettled log ≠ []
  | _ => true

lemma unsettled_concat (log : List LogStep) (st : LogStep) : unsettled (log ++ [st]) = settle (unsettled log) st :=
  foldl_concat ..

lemma sinceDrop_concat (log : List LogStep) (st : LogStep) :
    sinceDrop (log ++ [st]) = if drops st then [] else sinceDrop log ++ [st] := by
  unfold sinceDrop
  cases hst : drops st with
  | true | false => simp [hst]

lemma lastDrop_concat (log : List LogStep) (st : LogStep) :
    lastDrop (log ++ [st]) = if drops st then some st else lastDrop log := by
  unfold lastDrop
  rw [filter_append]
  cases hst : drops st with
  | true | false => simp [hst]

variable {log : List LogStep} {st : LogStep} {id : String} {s : Session}

lemma Accounted.concat (h : Accounted log id s) (hst : drops st = false) : Accounted (log ++ [st]) id s := by
  rcases h with ⟨st', hst', hcall, hbranch⟩ | ⟨st', d, hlast, hid, hd, hle⟩
  · refine .inl ⟨st', ?_, hcall, hbranch⟩
    rw [sinceDrop_concat, if_neg (by rw [hst]; exact nofun)]
    exact mem_append_left _ hst'
  · refine .inr ⟨st', d, ?_, hid, hd, hle⟩
    rwa [lastDrop_concat, if_neg (by rw [hst]; exact nofun)]

lemma mem_settle {l : List ℕ} {i : ℕ} (hi : st.thread ≠ i) : i ∈ settle l st ↔ i ∈ l := by
  unfold settle
  split_ifs
  · exact ⟨fun h => (mem_cons.1 h).resolve_left (Ne.symm hi), mem_cons_of_mem _⟩
  · simp [Ne.symm hi]
  · exact Iff.rfl

/-! ## The discipline of the handlers -/

/-- What the handlers keep to: the mode file is written and its lock let go only by the one who holds it, a write
that is not one of a connect or a disconnect finds a cloud file, and only these drop the sessions. -/
def Disciplined (st : LogStep) : Prop :=
  match st.call with
  | .writeModeLayerLocked _ => st.before.modeLayerMu = some st.thread ∧
      (st.request.changesPosture = true ∨ isCloudModeFile st.before.file = true)
  | .unlockModeLayer => st.before.modeLayerMu = some st.thread
  | .keepOnly keep ttl => st.request.changesPosture = true ∧ keep = st.request.sessionId ∧ ttl = postureGraceTTL
  | _ => True

/-- Between the steps: when the file is a cloud file and every change has dropped the sessions. -/
def AllAccounted (log : List LogStep) (w : World) : Prop :=
  isCloudModeFile w.file = true → unsettled log = [] → ∀ id s, w.live.get? id = some s → Accounted log id s

def sessionContract : Contract Answer Request World where
  interleaved := true
  serves _ := true
  inv := AllAccounted
  ok := recordsInTime
  good _ st := Disciplined st

variable {env : Platform}

/-- A step that neither lands a change nor drops sessions, makes no cloud file and no session. -/
lemma AllAccounted.keep (hinv : AllAccounted log st.before) (hlands : lands st = false) (hdrops : drops st = false)
    (hfile : isCloudModeFile st.after.file = true → isCloudModeFile st.before.file = true)
    (hlive : ∀ id s, st.after.live.get? id = some s → st.before.live.get? id = some s) :
    AllAccounted (log ++ [st]) st.after := by
  intro hcloud hsettled id s hs
  rw [unsettled_concat, settle, hlands, hdrops, if_neg nofun, if_neg nofun] at hsettled
  exact (hinv (hfile hcloud) hsettled id s (hlive id s hs)).concat hdrops

variable {w : World}

/-- The session that `keepOnly` leaves. -/
lemma get?_keepOnly {keep : String} {ttl : ℕ} (h : (w.keepOnly keep ttl).live.get? id = some s) :
    id = keep ∧ ∃ d, s.expiresAt = some d ∧ d ≤ w.clock + ttl := by
  unfold World.keepOnly at h
  split at h
  · cases h
  · rw [Record.get?_set] at h
    split_ifs at h with hid
    · cases h
      exact ⟨hid.symm, _, rfl, Nat.min_le_right _ _⟩
    · cases h

variable {c : Call} {a : Answer c}

lemma isWritten_eq_false (hc : c.changesFile = false) : isWritten ⟨c, a⟩ = false := by
  cases c with
  | writeModeLayerLocked => cases hc
  | _ => rfl

lemma file_of_not_written {i : ℕ} {req : Request} {o : Outside} {w' : World}
    (hexec : (machine env).exec i req c o w = some (a, w')) (h : isWritten ⟨c, a⟩ = false) : w'.file = w.file := by
  cases hc : c.changesFile with
  | false => exact (exec_frame hexec).file hc
  | true =>
    cases c with
    | writeModeLayerLocked vars =>
      have hact := act_of_exec hexec
      simp only [act] at hact
      split at hact <;> cases hact
      · rfl
      · cases h
    | _ => cases hc

lemma isDrop_eq_false (hc : c.changesSessions = false) : isDrop c = false := by
  cases c with
  | keepOnly => cases hc
  | _ => rfl

lemma AllAccounted.step (hinv : AllAccounted log st.before) (htakes : Machine.Takes (machine env).exec st)
    (hok : recordsInTime log st = true) (hst : Disciplined st) : AllAccounted (log ++ [st]) st.after := by
  obtain ⟨o, hexec⟩ := htakes
  obtain ⟨i, req, past, c, a, w, w'⟩ := st
  have hact : act env i o { w with clock := w.clock + o.elapsed } c = some (a, w') := hexec
  have hframe := act_frame hact
  by_cases hquiet : c.changesFile = false ∧ c.changesSessions = false
  · obtain ⟨hfile, hsessions⟩ := hquiet
    refine hinv.keep ?_ ?_ (fun h => ?_) fun id s h => ?_
    · simp only [lands, Step.event, isWritten_eq_false hfile, Bool.and_false]
    · simp only [drops, isDrop_eq_false hsessions, Bool.and_false]
    · rwa [hframe.file hfile] at h
    · rwa [hframe.live hsessions] at h
  cases c with
  | valid session =>
    refine hinv.keep (Bool.and_false _) (Bool.and_false _) (fun h => ?_) fun id s h => ?_
    · rwa [hframe.file rfl] at h
    · simp only [act] at hact
      split at hact
      · cases hact
        exact h
      · split_ifs at hact <;> cases hact
        · exact h
        · rw [Record.get?_erase] at h
          split_ifs at h
          exact h
  | record id s =>
    have hlands : lands ⟨i, req, past, .record id s, a, w, w'⟩ = false := Bool.and_false _
    have hdrops : drops ⟨i, req, past, .record id s, a, w, w'⟩ = false := Bool.and_false _
    have hlive : w'.live = w.live.set id s := by
      cases hact
      rfl
    intro hcloud hsettled id' s' hs'
    have hcloud : isCloudModeFile w.file = true := hframe.file rfl ▸ hcloud
    rw [unsettled_concat, settle, hlands, hdrops, if_neg (by simp), if_neg (by simp)] at hsettled
    rw [hlive, Record.get?_set] at hs'
    split_ifs at hs' with hid
    · -- the new session: in a cloud file without a change to settle it is one of the cloud branch
      cases hs'
      subst hid
      have hbranch : byCloudBranch past = true := by
        simpa only [recordsInTime, hsettled, hcloud, ne_eq, not_true_eq_false, decide_false, Bool.not_true,
          Bool.or_false] using hok
      refine .inl ⟨⟨i, req, past, .record id s, a, w, w'⟩, ?_, rfl, hbranch⟩
      rw [sinceDrop_concat, hdrops, if_neg (by simp)]
      exact mem_append_right _ (mem_singleton_self _)
    · exact (hinv hcloud hsettled id' s' hs').concat hdrops
  | keepOnly =>
    obtain ⟨hposture, hkeep, httl⟩ := hst
    cases hact
    intro hcloud hsettled id' s' hs'
    obtain ⟨rfl, d, hd, hle⟩ := get?_keepOnly hs'
    refine .inr ⟨_, d, ?_, hkeep, hd, ?_⟩
    · rw [lastDrop_concat, if_pos (by simp only [drops, hposture, isDrop, Bool.and_self])]
    · rw [httl] at hle
      exact hframe.clock ▸ hle
  | writeModeLayerLocked vars =>
    by_cases hlands : lands ⟨i, req, past, .writeModeLayerLocked vars, a, w, w'⟩ = true
    · intro _ hsettled
      rw [unsettled_concat, settle, if_pos hlands] at hsettled
      cases hsettled
    · refine hinv.keep (Bool.eq_false_iff.2 hlands) (Bool.and_false _) (fun h => ?_) fun id s h => ?_
      · rcases hst.2 with hposture | hcloud
        · -- the write of a change that does not land
          simp only [lands, hposture, Step.event, Bool.true_and, Bool.not_eq_true] at hlands
          exact file_of_not_written hexec hlands ▸ h
        · exact hcloud
      · rwa [hframe.live rfl] at h
  | _ => exact absurd ⟨rfl, rfl⟩ hquiet

/-! ## The handlers -/

/-- The request has no change left to settle, when a condition holds. -/
def SettledIf (b : Prop) (i : ℕ) : Assertion Answer Request World :=
  fun _ log _ => b → i ∉ unsettled log

/-- What is known while a request holds `modeLayerMu`. -/
def HoldsMode (i : ℕ) : Assertion Answer Request World :=
  fun _ _ w => w.modeLayerMu = some i

def ReadsMode (file : Option Text) : Assertion Answer Request World :=
  fun _ _ w => file = none ∨ file = w.file

variable {i : ℕ} {req : Request} {o : Outside}

lemma kept_of_disciplined (hinv : AllAccounted log st.before) (htakes : Machine.Takes (machine env).exec st)
    (hok : recordsInTime log st = true) (hst : Disciplined st) : sessionContract.Kept log st :=
  ⟨hinv.step htakes hok hst, hst⟩

lemma stable_settledIf (b : Prop) : sessionContract.Stable (machine env).exec i (SettledIf b i) := by
  intro past log st hs _ _ hne _ _ _ _ hb
  rw [unsettled_concat, mem_settle hne]
  exact hs hb

lemma stable_holdsMode : sessionContract.Stable (machine env).exec i (HoldsMode i) := by
  intro past log st hs _ _ hne _ htakes _ hkept
  obtain ⟨o, hexec⟩ := htakes
  have hgood := hkept.good
  obtain ⟨j, req, past', c, a, w, w'⟩ := st
  have hact : act env j o { w with clock := w.clock + o.elapsed } c = some (a, w') := hexec
  have hframe := act_frame hact
  have hheld : w.modeLayerMu = some i := hs
  cases c with
  | lockModeLayer =>
    simp only [act] at hact
    rw [if_pos (by rw [hheld]; rfl)] at hact
    cases hact
  | unlockModeLayer =>
    have howner : w.modeLayerMu = some j := hgood
    exact absurd (Option.some.inj (howner.symm.trans hheld)) hne
  | _ => exact (hframe.modeLayerMu rfl).trans hheld

lemma stable_readsMode (file : Option Text) : sessionContract.Stable (machine env).exec i
    fun past log w => HoldsMode i past log w ∧ ReadsMode file past log w := by
  intro past log st hs hinv hinter hne hserves htakes hok hkept
  refine ⟨stable_holdsMode past log st hs.1 hinv hinter hne hserves htakes hok hkept, ?_⟩
  obtain ⟨o, hexec⟩ := htakes
  have hgood := hkept.good
  obtain ⟨j, req, past', c, a, w, w'⟩ := st
  have hframe : Frame c { w with clock := w.clock + o.elapsed } w' := act_frame hexec
  cases hc : c.changesFile with
  | false =>
    refine hs.2.imp_right fun h => ?_
    exact h.trans (hframe.file hc).symm
  | true =>
    -- only the holder writes
    cases c with
    | writeModeLayerLocked vars =>
      have howner : w.modeLayerMu = some j := hgood.1
      exact absurd (Option.some.inj (howner.symm.trans hs.1)) hne
    | _ => cases hc

/-- A call that is none of the mode layer's and drops no session. -/
def Call.isTame : Call → Bool
  | .keepOnly _ _ | .lockModeLayer | .unlockModeLayer | .writeModeLayerLocked _ => false
  | _ => true

lemma Call.isTame_of_isQuiet (h : c.isQuiet = true) : c.isTame = true := by
  cases c with
  | record _ _ | keepOnly _ _ | lockModeLayer | unlockModeLayer | writeModeLayerLocked => cases h
  | _ => rfl

/-- A tame call is disciplined and leaves what a request has to settle. -/
lemma tame_step {past : List (Script.Event Answer)} {w' : World}
    (hc : c.isTame = true) (hinv : AllAccounted log w) (hexec : (machine env).exec i req c o w = some (a, w'))
    (hok : recordsInTime log ⟨i, req, past, c, a, w, w'⟩ = true) :
    sessionContract.Kept log ⟨i, req, past, c, a, w, w'⟩ ∧
      unsettled (log ++ [⟨i, req, past, c, a, w, w'⟩]) = unsettled log ∧ w'.modeLayerMu = w.modeLayerMu ∧
      w'.file = w.file := by
  have hframe : Frame c { w with clock := w.clock + o.elapsed } w' := act_frame hexec
  have hdisciplined : Disciplined ⟨i, req, past, c, a, w, w'⟩ := by
    cases c with
    | keepOnly _ _ | lockModeLayer | unlockModeLayer | writeModeLayerLocked => cases hc
    | _ => trivial
  refine ⟨kept_of_disciplined hinv ⟨o, hexec⟩ hok hdisciplined, ?_, hframe.modeLayerMu ?_, hframe.file ?_⟩
  · rw [unsettled_concat]
    cases c with
    | keepOnly _ _ | lockModeLayer | unlockModeLayer | writeModeLayerLocked => cases hc
    | _ => simp [settle, lands, drops, Step.event, isWritten, isDrop]
  · cases c with
    | lockModeLayer | unlockModeLayer => cases hc
    | _ => rfl
  · cases c with
    | writeModeLayerLocked => cases hc
    | _ => rfl

/-- What a script leaves of the changes to settle. -/
abbrev Settles {α : Type} (env : Platform) (i : ℕ) (req : Request) (K : Assertion Answer Request World)
    (script : Handler α) (R : Except Denied α → Assertion Answer Request World) : Prop :=
  sessionContract.Triple (machine env).exec i req K script R

variable {α : Type} {K : Assertion Answer Request World} {script : Handler α}

/-- A tame script keeps what rests on the lock, the file and the changes to settle alone. -/
lemma tame_triple (h : script.Every fun c => c.isTame = true)
    (hK : sessionContract.Stable (machine env).exec i K)
    (hkeep : ∀ past log w past' log' w', K past log w → unsettled log' = unsettled log →
      w'.modeLayerMu = w.modeLayerMu → w'.file = w.file → K past' log' w') : Settles env i req K script fun _ => K := by
  refine .every hK (fun c hc past log w o a w' hinv hs hexec hok => ?_) h
  obtain ⟨hkept, hunsettled, hlock, hfile⟩ := tame_step hc hinv hexec hok
  exact ⟨hkept, hkeep _ _ _ _ _ _ hs hunsettled hlock hfile⟩

lemma quiet_settledIf (h : Quiet script) (b : Prop) :
    Settles env i req (SettledIf b i) script fun _ => SettledIf b i := by
  apply tame_triple (h.mono fun _ => Call.isTame_of_isQuiet) (stable_settledIf b)
  intro past log w _ log' w' hs hunsettled _ _ hb
  rw [hunsettled]
  exact hs hb

def Locked (b : Prop) (i : ℕ) : Assertion Answer Request World :=
  fun past log w => HoldsMode i past log w ∧ SettledIf b i past log w

lemma stable_locked (b : Prop) : sessionContract.Stable (machine env).exec i (Locked b i) :=
  stable_holdsMode.and (stable_settledIf b)

lemma withModeLayer_triple {body : Handler α} {b : Except Denied α → Prop}
    (h : Settles env i req (Locked True i) body fun r => Locked (b r) i) :
    Settles env i req (SettledIf True i) (withModeLayer body) fun r => SettledIf (b r) i := by
  refine Contract.Triple.bind (R := fun _ => Locked True i) ?_ (fun _ => ?_) ?_
  · refine .ask (stable_settledIf True) fun past log w o a w' hinv hs hexec hok => ?_
    refine ⟨kept_of_disciplined hinv ⟨o, hexec⟩ hok trivial, ?_, ?_⟩
    · have hact : act env i o { w with clock := w.clock + o.elapsed } .lockModeLayer = some (a, w') := hexec
      simp only [act] at hact
      split_ifs at hact
      cases hact
      rfl
    · intro hb
      rw [unsettled_concat]
      simpa [settle, lands, drops, Step.event, isWritten, isDrop] using hs hb
  · refine Contract.Triple.deferring h fun r => ?_
    refine .ask (stable_locked (b r)) fun past log w o a w' hinv hs hexec hok => ?_
    refine ⟨kept_of_disciplined hinv ⟨o, hexec⟩ hok hs.1, rfl, fun hb => ?_⟩
    rw [unsettled_concat]
    simpa [settle, lands, drops, Step.event, isWritten, isDrop] using hs.2 hb
  · exact fun e past log w _ hs _ => hs.2 trivial

/-- The write of a connect or a disconnect: when it does not land there is nothing to settle. -/
lemma changeWrite_triple (hreq : req.changesPosture = true) (vars : Vars) :
    Settles env i req (Locked True i) (writeModeLayerLocked vars) fun r => Locked (r ≠ .ok ⟨⟩) i := by
  refine Contract.Triple.bind (R := fun r => Locked (r ≠ .ok true) i) ?_ (fun written => ?_) ?_
  · refine .ask (stable_locked True) fun past log w o a w' hinv hs hexec hok => ?_
    refine ⟨kept_of_disciplined hinv ⟨o, hexec⟩ hok ⟨hs.1, .inl hreq⟩, ?_, fun ha => ?_⟩
    · exact ((exec_frame hexec).modeLayerMu rfl).trans hs.1
    · cases a with
      | true => exact absurd rfl ha
      | false =>
        rw [unsettled_concat]
        simpa [settle, lands, drops, Step.event, isWritten, isDrop] using hs.2 trivial
  · cases written with
    | true => exact .ret fun past log w _ hs => ⟨hs.1, fun hb => absurd rfl hb⟩
    | false => exact .ret fun past log w _ hs => ⟨hs.1, fun _ => hs.2 nofun⟩
  · exact fun e past log w _ hs => ⟨hs.1, fun _ => hs.2 nofun⟩

/-- The end of a change drops the sessions, and so settles it. -/
lemma keepOnly_triple (hreq : req.changesPosture = true) (response : Response) (b : Prop) :
    Settles env i req (SettledIf b i)
      (do ask (.keepOnly req.sessionId postureGraceTTL); return response) fun _ => SettledIf True i := by
  refine Contract.Triple.bind (R := fun _ => SettledIf True i) ?_ (fun _ => .ret fun _ _ _ _ hs => hs)
    fun _ _ _ _ _ hs => hs
  refine .ask (stable_settledIf b) fun past log w o a w' hinv _ hexec hok => ?_
  refine ⟨kept_of_disciplined hinv ⟨o, hexec⟩ hok ⟨hreq, rfl, rfl⟩, fun _ => ?_⟩
  rw [unsettled_concat]
  simp [settle, lands, drops, Step.event, isWritten, isDrop, hreq]

lemma writeModeLayer_triple (hreq : req.changesPosture = true) (vars : Vars) {rest : Handler Response}
    (hrest : Settles env i req (SettledIf False i) rest fun _ => SettledIf True i) :
    Settles env i req (SettledIf True i) (do writeModeLayer vars; rest)
      fun _ => SettledIf True i := by
  refine (withModeLayer_triple (changeWrite_triple hreq vars)).bind (fun _ => ?_) fun e past log w _ hs _ => hs nofun
  exact hrest.weaken fun _ _ _ _ _ hb => hb.elim

lemma applyKgMount_triple (vars : Vars) (b : Prop) :
    Settles env i req (SettledIf b i) (applyKgMount env vars)
      fun r past log w => r = .ok ⟨⟩ ∧ SettledIf b i past log w := by
  refine Contract.Triple.bind (Contract.Triple.attempt (quiet_settledIf ?_ b)) (fun _ => ?_) fun e _ _ _ _ hs => ?_
  · exact every_ite work_unmountKg.quiet work_mountKg.quiet
  · refine .ret fun past log w _ hs => ⟨rfl, ?_⟩
    obtain ⟨_, _, hs⟩ := hs
    exact hs
  · obtain ⟨_, he, _⟩ := hs
    cases he

lemma cloudApply_triple (id token : String) (recipe : Text) (redirectURI : String) :
    Settles env i (.cloudApply id token recipe redirectURI) (SettledIf True i)
      (cloudApply env id recipe redirectURI) fun _ => SettledIf True i := by
  refine (quiet_settledIf (every_ask rfl) True).bind (fun file => ?_) fun _ _ _ _ _ hs => hs
  refine .lift (fun vars _ => ?_) fun _ _ _ _ _ hs => hs
  refine (quiet_settledIf (quiet_pinKnowledgeGraph vars) True).bind (fun vars => ?_) fun _ _ _ _ _ hs => hs
  apply writeModeLayer_triple rfl vars
  refine (applyKgMount_triple vars False).bind (fun _ => ?_) fun e _ _ _ _ hs => absurd hs.1 nofun
  exact (keepOnly_triple rfl _ _).weaken fun _ _ _ _ hs => hs.2

lemma cloudDisable_triple (id token : String) :
    Settles env i (.cloudDisable id token) (SettledIf True i) (cloudDisable id) fun _ => SettledIf True i := by
  refine (quiet_settledIf quiet_teardown True).bind (fun swept => ?_) fun _ _ _ _ _ hs => hs
  exact writeModeLayer_triple rfl pureOSSModeVars (keepOnly_triple rfl _ _)

/-! ## The writes of a connected deployment -/

lemma readLocked_triple :
    Settles env i req (Locked True i) (ask .readModeLayer) fun r past log w =>
      Locked True i past log w ∧ ∀ file, r = .ok file → ReadsMode file past log w := by
  refine .ask (stable_locked True) fun past log w o a w' hinv hs hexec hok => ?_
  obtain ⟨hkept, hunsettled, hlock, -⟩ := tame_step rfl hinv hexec hok
  refine ⟨hkept, ⟨hlock.trans hs.1, fun hb => ?_⟩, fun file hfile => ?_⟩
  · rw [hunsettled]
    exact hs.2 hb
  · cases hfile
    have hact := act_of_exec hexec
    cases hact
    cases o.fails with
    | true => exact .inl rfl
    | false => exact .inr rfl

lemma stable_lockedReads (file : Option Text) : sessionContract.Stable (machine env).exec i
    fun past log w => Locked True i past log w ∧ ReadsMode file past log w :=
  fun past log st hs hinv hinter hne hserves htakes hok hkept =>
    ⟨stable_locked True past log st hs.1 hinv hinter hne hserves htakes hok hkept,
      (stable_readsMode file past log st ⟨hs.1.1, hs.2⟩ hinv hinter hne hserves htakes hok hkept).2⟩

lemma cloudWrite_triple (hreq : req.changesPosture = false) {file : Option Text}
    (hfile : isCloudModeFile file = true) (vars : Vars) :
    Settles env i req
      (fun past log w => Locked True i past log w ∧ ReadsMode file past log w) (writeModeLayerLocked vars)
      fun _ => Locked True i := by
  refine Contract.Triple.bind (R := fun _ => Locked True i) ?_ (fun written => ?_) fun _ _ _ _ _ hs => hs
  · refine .ask (stable_lockedReads file) fun past log w o a w' hinv hs hexec hok => ?_
    have hcloud : isCloudModeFile w.file = true := by
      rcases hs.2 with hnone | hsame
      · rw [hnone] at hfile
        cases hfile
      · rwa [← hsame]
    refine ⟨kept_of_disciplined hinv ⟨o, hexec⟩ hok ⟨hs.1.1, .inr hcloud⟩, ?_, fun hb => ?_⟩
    · exact ((exec_frame hexec).modeLayerMu rfl).trans hs.1.1
    · rw [unsettled_concat]
      simpa [settle, lands, drops, hreq] using hs.1.2 hb
  · cases written with
    | true | false => exact .ret fun _ _ _ _ hs => hs

lemma cloudAllowlist_triple (id token allowlist : String) :
    Settles env i (.cloudAllowlist id token allowlist) (SettledIf True i)
      (cloudAllowlist env id allowlist) fun _ => SettledIf True i := by
  refine (quiet_settledIf (every_ask rfl) True).bind (fun sub => ?_) fun _ _ _ _ _ hs => hs
  refine (withModeLayer_triple (b := fun _ => True) ?_).bind (fun _ => .ret fun _ _ _ _ hs => hs) fun _ _ _ _ _ hs => hs
  refine readLocked_triple.bind (fun file => ?_) fun _ _ _ _ _ hs => hs.1
  refine .lift (fun vars hvars => ?_) fun _ _ _ _ _ hs => hs.1
  obtain ⟨current, hcurrent, -⟩ := cloudAllowlistVars_eq_ok (Except.eq_ok_of_mapError hvars)
  exact (cloudWrite_triple rfl (isCloudModeFile_of_some hcurrent) vars).weaken fun _ _ _ _ hs => ⟨hs.1, hs.2 file rfl⟩

lemma kgUpdateLocked_triple (hreq : req.changesPosture = false) (version base : String) :
    Settles env i req (Locked True i) (kgUpdateLocked env version base) fun _ => Locked True i := by
  refine readLocked_triple.bind (fun file => ?_) fun _ _ _ _ _ hs => hs.1
  refine Contract.Triple.weaken ?_ fun past log w _ hs => And.intro hs.1 (hs.2 file rfl)
  refine Contract.Triple.bind (tame_triple (quiet_kgMounted.mono fun _ => Call.isTame_of_isQuiet)
    (stable_lockedReads file) ?_) (fun mounted => ?_) fun _ _ _ _ _ hs => hs.1
  · intro past log w past' log' w' hs hunsettled hlock hfile
    refine ⟨⟨hlock.trans hs.1.1, fun hb => ?_⟩, hs.2.imp_right fun h => h.trans hfile.symm⟩
    rw [hunsettled]
    exact hs.1.2 hb
  · refine .lift (fun vars hvars => ?_) fun _ _ _ _ _ hs => hs.1
    cases vars with
    | none => exact .ret fun _ _ _ _ hs => hs.1
    | some vars =>
      obtain ⟨current, hcurrent, -⟩ := cloudKgUpdateVars_eq_ok (Except.eq_ok_of_mapError hvars)
      refine (cloudWrite_triple hreq (isCloudModeFile_of_some hcurrent) vars).bind (fun _ => ?_) fun _ _ _ _ _ hs => hs
      exact .ret fun _ _ _ _ hs => hs

lemma cloudKgUpdate_triple (id token version : String) :
    Settles env i (.cloudKgUpdate id token version) (SettledIf True i)
      (cloudKgUpdate env version) fun _ => SettledIf True i := by
  refine (quiet_settledIf (every_ask rfl) True).bind (fun file => ?_) fun _ _ _ _ _ hs => hs
  refine (quiet_settledIf quiet_kgMounted True).bind (fun mounted => ?_) fun _ _ _ _ _ hs => hs
  refine .lift (fun base _ => ?_) fun _ _ _ _ _ hs => hs
  refine (quiet_settledIf (every_ask rfl) True).bind (fun list => ?_) fun _ _ _ _ _ hs => hs
  refine .lift (fun _ _ => ?_) fun _ _ _ _ _ hs => hs
  exact withModeLayer_triple (b := fun _ => True) (kgUpdateLocked_triple rfl version base)

/-! ## The mint -/

lemma Call.isTame_of_isMint (h : c.isMint = true) : c.isTame = true := by
  cases c with
  | keepOnly _ _ | lockModeLayer | unlockModeLayer | writeModeLayerLocked => cases h
  | _ => rfl

/-! ## The daemon -/

lemma gated_triple {next : Handler Response} (id : String) (recoveryPath : Bool) (token : String)
    (h : Settles env i req (SettledIf True i) next fun _ => SettledIf True i) :
    Settles env i req (SettledIf True i)
      (requireSession id (gate env recoveryPath token next)) fun _ => SettledIf True i := by
  refine (quiet_settledIf (every_ask rfl) True).bind (fun valid => ?_) fun _ _ _ _ _ hs => hs
  refine .require (fun _ => ?_) fun _ _ _ _ hs => hs
  exact (quiet_settledIf (quiet_gateCheck recoveryPath token) True).bind (fun _ => h) fun _ _ _ _ _ hs => hs

lemma routes_triple : Settles env i req (SettledIf True i) ((machine env).program req) fun _ => SettledIf True i := by
  cases req with
  | session idToken =>
    apply tame_triple ((mint_session idToken).mono fun _ => Call.isTame_of_isMint) (stable_settledIf True)
    intro past log w _ log' w' hs hunsettled _ _ hb
    rw [hunsettled]
    exact hs hb
  | cloudApply id token recipe redirectURI =>
    refine (quiet_settledIf (every_ask rfl) True).bind (fun valid => ?_) fun _ _ _ _ _ hs => hs
    exact .require (fun _ => cloudApply_triple id token recipe redirectURI) fun _ _ _ _ hs => hs
  | cloudDisable id token => exact gated_triple id true token (cloudDisable_triple id token)
  | cloudAllowlist id token allowlist => exact gated_triple id false token (cloudAllowlist_triple id token allowlist)
  | cloudKgUpdate id token version => exact gated_triple id false token (cloudKgUpdate_triple id token version)
  | mountModule id token =>
    exact gated_triple id false token (quiet_settledIf (quiet_mountModule ..) True)
  | unmountModule id token key => exact gated_triple id false token (quiet_settledIf (quiet_unmountModule key) True)
  | installArtifact id token =>
    exact gated_triple id false token (quiet_settledIf (quiet_installArtifact ..) True)
  | removeArtifact id token key => exact gated_triple id false token (quiet_settledIf (quiet_removeArtifact key) True)

/-- The connects and the disconnects have all been answered. -/
def NoChangeInFlight (p : Pool) : Prop :=
  ∀ i t, p.threads.get? i = some t → t.request.changesPosture = true → t.rest.isDone = true

/-- No session crosses a change of posture, and a session that is reported valid is live and has time left. -/
def SessionsKept (p : Pool) : Prop :=
  (NoChangeInFlight p → isCloudModeFile p.shared.file = true →
    ∀ id s, p.shared.live.get? id = some s → Accounted p.log id s) ∧
  ∀ st ∈ p.log, ∀ id, st.event = ⟨.valid id, true⟩ →
    ∃ s, st.after.live.get? id = some s ∧ s.lives st.after.clock = true

lemma live_of_valid (htakes : Machine.Takes (machine env).exec st) (h : st.event = ⟨.valid id, true⟩) :
    ∃ s, st.after.live.get? id = some s ∧ s.lives st.after.clock = true := by
  obtain ⟨o, hexec⟩ := htakes
  obtain ⟨i, req, past, c, a, w, w'⟩ := st
  cases h
  have hact : act env i o { w with clock := w.clock + o.elapsed } (.valid id) = some (true, w') := hexec
  simp only [act] at hact
  split at hact
  · cases hact
  · rename_i s hs
    split_ifs at hact with hlives <;> cases hact
    exact ⟨s, hs, hlives⟩

lemma exists_lands_of_mem_unsettled (h : i ∈ unsettled log) : ∃ st ∈ log, lands st = true ∧ st.thread = i := by
  induction log using List.reverseRecOn with
  | nil => cases h
  | append_singleton log st ih =>
    rw [unsettled_concat, settle] at h
    split_ifs at h with hlands
    · rcases mem_cons.1 h with rfl | h
      · exact ⟨st, mem_append_right _ (mem_singleton_self _), hlands, rfl⟩
      · obtain ⟨st', hst', hst''⟩ := ih h
        exact ⟨st', mem_append_left _ hst', hst''⟩
    · obtain ⟨st', hst', hst''⟩ := ih (mem_of_mem_filter h)
      exact ⟨st', mem_append_left _ hst', hst''⟩
    · obtain ⟨st', hst', hst''⟩ := ih h
      exact ⟨st', mem_append_left _ hst', hst''⟩

/-- In every run in which no session of the local branch is recorded too late, no session crosses a change. -/
theorem sessions_accounted {p : Pool} (h : (system env).Reachable
    (fun p e => (machine env).allows (fun _ => true) recordsInTime p e = true) p) : SessionsKept p := by
  have hlogged := Machine.Logged.of_reachable h
  have hholds : sessionContract.Holds (machine env) (fun i _ _ => SettledIf True i) p := by
    refine .of_reachable rfl (fun i _ _ => stable_settledIf True) (fun w hw _ _ id s hs => ?_) ?_ h
    · rw [hw.2.2.1] at hs
      cases hs
    · intro i req w hw _
      refine routes_triple [] [] w ?_ fun _ => not_mem_nil
      intro _ _ id s hs
      rw [hw.2.2.1] at hs
      cases hs
  refine ⟨fun hidle hcloud => ?_, fun st hst id hvalid => live_of_valid (hlogged st hst).1 hvalid⟩
  refine hholds.inv hcloud (eq_nil_iff_forall_not_mem.2 fun i hi => ?_)
  obtain ⟨st, hst, hlands, rfl⟩ := exists_lands_of_mem_unsettled hi
  obtain ⟨-, t, ht, hrequest, -⟩ := hlogged st hst
  have hdone := hidle _ t ht (hrequest ▸ (and_eq_true_iff.1 hlands).1)
  obtain ⟨-, hsafe⟩ := hholds.threads _ t ht
  cases hrest : t.rest with
  | ret r =>
    rw [hrest] at hsafe
    exact hsafe trivial hi
  | call c k =>
    rw [hrest] at hdone
    cases hdone

def samplePlatform : Platform where
  checks := sampleChecks
  tools := ⟨fun _ _ _ _ => false, fun _ => "", fun _ => none, fun _ => none, fun _ => none⟩
  contentCacheDir := "/cache"
  identityFromJWT _ := ""
  decodeArtifactMarker _ := none
  encodeArtifactMarker _ := []
  decodeKgMarker _ := none
  encodeKgMarker _ := []
  encodeMountMarker _ := []
  decodeDescriptor _ := none
  decodeBase64 _ := none
  kgStub := []
  renderStub _ _ := []

def sampleWorld : World := ⟨none, none, none, ∅, ∅, [], 0, 0⟩

def sampleOutside (id : String) : Outside := ⟨1, false, none, [], id, false, none, none, none, none⟩

/-- One step after the other of the same thread. -/
def stepsOf (i n : ℕ) : List (Threads.Event Request Outside) :=
  List.replicate n (.step i (sampleOutside ""))

def sampleConnect : Request :=
  .cloudApply "a" "" (sampleRecipe "one") "https://localhost:8443/callback"

def mintThenConnect : List (Threads.Event Request Outside) :=
  [.spawn 0 (.session "")] ++ [.step 0 (sampleOutside "a"), .step 0 (sampleOutside "a"), .step 0 (sampleOutside "a")] ++
    [.spawn 1 sampleConnect] ++ stepsOf 1 7

/-- A second mint has read the file before the connect, and records its session after it. -/
def lateMint : List (Threads.Event Request Outside) :=
  [.spawn 0 (.session "")] ++ [.step 0 (sampleOutside "a"), .step 0 (sampleOutside "a"), .step 0 (sampleOutside "a")] ++
    [.spawn 2 (.session ""), .step 2 (sampleOutside "")] ++ [.spawn 1 sampleConnect] ++ stepsOf 1 7 ++
    [.step 2 (sampleOutside "b"), .step 2 (sampleOutside "b")]

def samplePool : Pool := ⟨sampleWorld, ∅, []⟩

/-- All changes are answered, the file is a cloud file, and a session is live. -/
def quietlyLive (id : String) (p : Pool) : Bool :=
  p.threads.entries.all (fun e => !e.2.request.changesPosture || e.2.rest.isDone) && isCloudModeFile p.shared.file &&
    (p.shared.live.get? id).isSome

lemma started_samplePool : (system samplePlatform).init samplePool :=
  ⟨⟨rfl, rfl, rfl, rfl, rfl⟩, rfl, rfl⟩

lemma noChangeInFlight_of_all {p : Pool}
    (h : p.threads.entries.all (fun e => !e.2.request.changesPosture || e.2.rest.isDone) = true) :
    NoChangeInFlight p := by
  intro i t ht hreq
  have hdone := all_eq_true.1 h (i, t) (Record.mem_entries_iff.2 ht)
  simpa [hreq] using hdone

theorem mintThenConnect_accounted : ∃ (p : Pool) (s : Session), (system samplePlatform).Reachable
    (fun p e => (machine samplePlatform).allows (fun _ => true) recordsInTime p e = true) p ∧
      p.shared.live.get? "a" = some s ∧ Accounted p.log "a" s := by
  have hrun : ((system samplePlatform).run ((machine samplePlatform).allows (fun _ => true) recordsInTime) samplePool
      mintThenConnect).any (quietlyLive "a") = true := by decide +kernel
  obtain ⟨p, hreach, hlive⟩ := TransitionSystem.exists_reachable hrun started_samplePool fun _ _ hok => hok
  obtain ⟨hidle, hsome⟩ := and_eq_true_iff.1 hlive
  obtain ⟨hidle, hcloud⟩ := and_eq_true_iff.1 hidle
  obtain ⟨s, hs⟩ := Option.isSome_iff_exists.1 hsome
  exact ⟨p, s, hreach, hs, (sessions_accounted hreach).1 (noChangeInFlight_of_all hidle) hcloud "a" s hs⟩

/-- The file is a cloud file, and a session has no deadline, though nobody signed in. -/
def unaccounted (id : String) (p : Pool) : Bool :=
  p.threads.entries.all (fun e => !e.2.request.changesPosture || e.2.rest.isDone) && isCloudModeFile p.shared.file &&
    (p.shared.live.get? id = some ⟨none, ""⟩) && p.log.all fun st => !byCloudBranch st.past

/-- A mint that reads the file before a connect and records its session after it. -/
theorem lateMint_unaccounted :
    ∃ p : Pool, (system samplePlatform).Reachable (fun _ _ => True) p ∧ ¬ SessionsKept p := by
  have hrun : ((system samplePlatform).run (fun _ _ => true) samplePool lateMint).any (unaccounted "b") = true := by
    decide +kernel
  obtain ⟨p, hp, hlive⟩ := TransitionSystem.exists_reachable hrun started_samplePool fun _ _ _ => trivial
  obtain ⟨hlive, hnobody⟩ := and_eq_true_iff.1 hlive
  obtain ⟨hidle, hlive⟩ := and_eq_true_iff.1 hlive
  obtain ⟨hidle, hcloud⟩ := and_eq_true_iff.1 hidle
  refine ⟨p, hp, fun hkept => ?_⟩
  rcases hkept.1 (noChangeInFlight_of_all hidle) hcloud "b" _ (of_decide_eq_true hlive) with
    ⟨st, hst, -, hbranch⟩ | ⟨st, d, -, -, hd, -⟩
  · have hlogged : st ∈ p.log := (rtakeWhile_suffix _ _).subset hst
    exact absurd (all_eq_true.1 hnobody st hlogged) (by simp [hbranch])
  · cases hd

end Console.Daemon
