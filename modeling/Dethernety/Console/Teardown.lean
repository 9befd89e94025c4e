import Dethernety.Console.AdminGate

/-!
# What a disconnect leaves in the modules directory

A disconnect sweeps the marked directories and then writes the mode file; mounts and installs look at the mode file
before they begin. While no directory gets a marker in between, or after the file has changed, nothing with a marker
is left behind a disconnect that did not say so (`tornDown_of_reachable`); a mount that has passed its look leaves one
(`lateMount_left`).
-/

open List Option Bool

namespace Console.Daemon

open Threads ModuleInstall

def markerNames : List String :=
  [mountMarkerName, artifactMarkerName, kgMarkerName]

/-- A directory of the modules has a marker in it. -/
def carries (d : Disk) (name marker : String) : Bool :=
  match d.get? (.moduleDir name) with
  | some (.dir tree) => marker ∈ tree.keys
  | _ => false

/-- A step after which a directory has a marker that it did not have. -/
def marks (st : LogStep) : Bool :=
  (st.after.modules.keys.filterMap Path.moduleName?).any fun name =>
    markerNames.any fun marker => carries st.after.modules name marker && !carries st.before.modules name marker

/-- No directory of the modules has two markers. -/
def singlyMarked (d : Disk) : Bool :=
  (d.keys.filterMap Path.moduleName?).all fun name =>
    markerNames.all fun marker => markerNames.all fun marker' =>
      !(carries d name marker && carries d name marker') || marker = marker'

def Request.isDisconnect : Request → Bool
  | cloudDisable _ _ => true
  | _ => false

def isListing : Call → Bool
  | .readDir => true
  | _ => false

/-- One step of `sweeping`. -/
def sweep (l : List ℕ) (st : LogStep) : List ℕ :=
  if st.request.isDisconnect && isListing st.call then st.thread :: l
  else if isWritten st.event then l.filter (· ≠ st.thread) else l

/-- The disconnects that have listed the modules directory and not written the mode file yet. -/
def sweeping (log : List LogStep) : List ℕ :=
  log.foldl sweep []

/-- The step that wrote the mode file as it is. -/
def lastWrite (log : List LogStep) : Option LogStep :=
  (log.filter fun st => isWritten st.event).getLast?

def isRenamed : Script.Event Answer → Bool
  | ⟨.rename _ _, done⟩ => done
  | _ => true

/-- Renames are done, a directory gets a marker only while the file is a cloud file and no disconnect is sweeping, and a
disconnect finds no directory with two markers. -/
def marksInTime (log : List LogStep) (st : LogStep) : Bool :=
  isRenamed st.event && (!marks st || (isCloudModeFile st.before.file && sweeping log = [])) &&
    (!(st.request.isDisconnect && isListing st.call) || singlyMarked st.before.modules)

/-- A disconnect did not get `modulesOps`. -/
def notSwept : Script.Event Answer → Bool
  | ⟨.tryLockModules, locked⟩ => !locked
  | _ => false

/-- No directory has a marker. -/
def Unmarked (d : Disk) : Prop :=
  ∀ name, ∀ marker ∈ markerNames, carries d name marker = false

/-- What a disconnect writes when it has swept. -/
def SweptFirst (st : LogStep) : Prop :=
  isWritten st.event = true → st.request.isDisconnect = true →
    isCloudModeFile st.after.file = false ∧ (Unmarked st.after.modules ∨ st.past.any notSwept = true)

/-- Between the steps: what the disconnect that wrote the file has left. -/
def SweptBehind (log : List LogStep) (w : World) : Prop :=
  ∀ st, lastWrite log = some st → st.request.isDisconnect = true →
    isCloudModeFile w.file = false ∧ (Unmarked w.modules ∨ st.past.any notSwept = true)

def teardownContract : Contract Answer Request World where
  interleaved := true
  serves _ := true
  inv := SweptBehind
  ok := marksInTime
  good _ := SweptFirst

/-- The daemon while no file-system step fails. -/
def reliableMachine (env : Platform) : Machine Answer Denied Response Request Outside World where
  program := routes env
  exec i req c o w := (machine env).exec i req c { o with fails := false } w

def reliableSystem (env : Platform) : TransitionSystem Pool (Threads.Event Request Outside) :=
  (reliableMachine env).system Started

variable {env : Platform} {i : ℕ} {req : Request} {o : Outside} {w w' : World} {c : Call} {a : Answer c}
  {past : List (Script.Event Answer)} {log : List LogStep} {st : LogStep}

lemma sweeping_concat (log : List LogStep) (st : LogStep) : sweeping (log ++ [st]) = sweep (sweeping log) st :=
  foldl_concat ..

lemma lastWrite_concat (log : List LogStep) (st : LogStep) :
    lastWrite (log ++ [st]) = if isWritten st.event then some st else lastWrite log := by
  unfold lastWrite
  rw [filter_append]
  cases hst : isWritten st.event with
  | true | false => simp [hst]

lemma mem_sweep {l : List ℕ} (hi : st.thread ≠ i) : i ∈ sweep l st ↔ i ∈ l := by
  unfold sweep
  split_ifs
  · exact ⟨fun h => (mem_cons.1 h).resolve_left (Ne.symm hi), mem_cons_of_mem _⟩
  · simp [Ne.symm hi]
  · exact Iff.rfl

lemma exec_of_reliable (h : (reliableMachine env).exec i req c o w = some (a, w')) :
    (machine env).exec i req c { o with fails := false } w = some (a, w') := h

variable {name marker : String} {names : List String}

lemma mem_keys_of_carries {d : Disk} (h : carries d name marker = true) :
    ∃ tree, d.get? (.moduleDir name) = some (.dir tree) ∧ marker ∈ tree.keys := by
  unfold carries at h
  split at h
  · rename_i tree htree
    exact ⟨tree, htree, of_decide_eq_true h⟩
  · cases h

lemma carries_of_marks (h : marks st = false) (hmarker : marker ∈ markerNames)
    (hcarries : carries st.after.modules name marker = true) : carries st.before.modules name marker = true := by
  obtain ⟨tree, htree, -⟩ := mem_keys_of_carries hcarries
  have hname : name ∈ st.after.modules.keys.filterMap Path.moduleName? :=
    mem_filterMap.2 ⟨_, Record.mem_keys_of_get? htree, rfl⟩
  have hnone := any_eq_false.1 (eq_false_iff.2 (any_eq_false.1 h name hname)) marker hmarker
  simpa [hcarries] using hnone

lemma Unmarked.of_marks (h : Unmarked st.before.modules) (hst : marks st = false) : Unmarked st.after.modules := by
  intro name marker hmarker
  cases hcarries : carries st.after.modules name marker with
  | false => rfl
  | true => exact absurd (h name marker hmarker) (by rw [carries_of_marks hst hmarker hcarries]; exact nofun)

lemma sweptBehind_nil (w : World) : SweptBehind [] w :=
  fun _ hlast => absurd hlast (some_ne_none _).symm

lemma SweptBehind.step (hinv : SweptBehind log st.before) (htakes : Machine.Takes (reliableMachine env).exec st)
    (hok : marksInTime log st = true) (hst : SweptFirst st) : SweptBehind (log ++ [st]) st.after := by
  intro st' hlast hreq
  rw [lastWrite_concat] at hlast
  split_ifs at hlast with hwritten
  · cases hlast
    exact hst hwritten hreq
  · obtain ⟨hfile, hleft⟩ := hinv st' hlast hreq
    obtain ⟨o, hexec⟩ := htakes
    have hsame : st.after.file = st.before.file := 
      file_of_not_written (exec_of_reliable hexec) (Bool.eq_false_iff.2 hwritten)
    rw [hsame]
    refine ⟨hfile, hleft.imp_left fun h => h.of_marks ?_⟩
    simp only [marksInTime, hfile, Bool.false_and, Bool.or_false, Bool.and_eq_true, Bool.not_eq_true'] at hok
    exact hok.1.2

lemma kept_of_sweptFirst (hinv : SweptBehind log st.before)
    (htakes : Machine.Takes (reliableMachine env).exec st) (hok : marksInTime log st = true) (hst : SweptFirst st) :
    teardownContract.Kept log st :=
  ⟨hinv.step htakes hok hst, hst⟩

lemma sweptFirst_of_not_written (h : isWritten st.event = false) : SweptFirst st :=
  fun hwritten => absurd (h.symm.trans hwritten) nofun

/-! ## The sweep -/

/-- What a disconnect knows since its listing: the marked directories are among some, and none has two markers. -/
structure Sweeps (i : ℕ) (names : List String) (log : List LogStep) (w : World) : Prop where
  mem : i ∈ sweeping log
  single : ∀ name, ∀ marker ∈ markerNames, ∀ marker' ∈ markerNames, carries w.modules name marker = true →
    carries w.modules name marker' = true → marker = marker'
  listed : ∀ name, ∀ marker ∈ markerNames, carries w.modules name marker = true → name ∈ names

lemma marks_eq_false (hi : i ∈ sweeping log) (hok : marksInTime log st = true) : marks st = false := by
  simp only [marksInTime, and_eq_true, or_eq_true, not_eq_true', decide_eq_true_eq] at hok
  refine hok.1.2.resolve_right fun h => ?_
  rw [h.2] at hi
  cases hi

lemma eq_of_singlyMarked {d : Disk} (h : singlyMarked d = true) {name marker marker' : String}
    (hmarker : marker ∈ markerNames) (hmarker' : marker' ∈ markerNames) (hcarries : carries d name marker = true)
    (hcarries' : carries d name marker' = true) : marker = marker' := by
  obtain ⟨tree, htree, -⟩ := mem_keys_of_carries hcarries
  have hname : name ∈ d.keys.filterMap Path.moduleName? := mem_filterMap.2 ⟨_, Record.mem_keys_of_get? htree, rfl⟩
  have hone := all_eq_true.1 (all_eq_true.1 (all_eq_true.1 h name hname) marker hmarker) marker' hmarker'
  simpa [hcarries, hcarries'] using hone

lemma Sweeps.step (h : Sweeps i names log st.before) (hok : marksInTime log st = true)
    (hi : i ∈ sweeping (log ++ [st])) : Sweeps i names (log ++ [st]) st.after := by
  have hmarks := marks_eq_false h.mem hok
  refine ⟨hi, fun name marker hm marker' hm' hc hc' => ?_, fun name marker hm hc => ?_⟩
  · exact h.single name marker hm marker' hm' (carries_of_marks hmarks hm hc) (carries_of_marks hmarks hm' hc')
  · exact h.listed name marker hm (carries_of_marks hmarks hm hc)

lemma mem_sweeping_of_not_written (hi : i ∈ sweeping log) (hst : isWritten st.event = false) :
    i ∈ sweeping (log ++ [st]) := by
  rw [sweeping_concat, sweep, hst]
  split_ifs with hlists hwritten
  · exact .tail _ hi
  · exact absurd hwritten nofun
  · exact hi

lemma Sweeps.mono {names names' : List String} {log : List LogStep} {w : World} (h : Sweeps i names log w)
    (hsub : ∀ name, ∀ marker ∈ markerNames, carries w.modules name marker = true → name ∈ names → name ∈ names') :
    Sweeps i names' log w :=
  ⟨h.mem, h.single, fun name marker hm hc => hsub name marker hm hc (h.listed name marker hm hc)⟩

lemma stable_sweeps (names : List String) (P : List (Script.Event Answer) → Prop) :
    teardownContract.Stable (reliableMachine env).exec i fun past log w => P past ∧ Sweeps i names log w := by
  intro past log st hs _ _ hne _ _ hok _
  refine ⟨hs.1, hs.2.step hok ?_⟩
  rw [sweeping_concat, mem_sweep hne]
  exact hs.2.mem

/-- What a disconnect has not done yet. -/
def Unwritten (past : List (Script.Event Answer)) : Prop :=
  past.any isWritten = false ∧ past.any notSwept = false

/-- A call that neither writes the mode file nor tries the lock of the modules. -/
def Call.isCalm : Call → Bool
  | .writeModeLayerLocked _ | .tryLockModules => false
  | _ => true

lemma isWritten_of_isCalm (hc : c.isCalm = true) (a : Answer c) : isWritten ⟨c, a⟩ = false := by
  cases c with
  | writeModeLayerLocked => cases hc
  | _ => rfl

lemma notSwept_of_isCalm (hc : c.isCalm = true) (a : Answer c) : notSwept ⟨c, a⟩ = false := by
  cases c with
  | tryLockModules => cases hc
  | _ => rfl

lemma Unwritten.append (h : Unwritten past) (hc : c.isCalm = true) (a : Answer c) : Unwritten (past ++ [⟨c, a⟩]) := by
  simp only [Unwritten, any_append, any_cons, any_nil, Bool.or_false, isWritten_of_isCalm hc,
    notSwept_of_isCalm hc] at h ⊢
  exact h

/-- Between the steps of a sweep. -/
def Sweeping (i : ℕ) (names : List String) : Assertion Answer Request World :=
  fun past log w => Unwritten past ∧ Sweeps i names log w

lemma stable_sweeping (names : List String) :
    teardownContract.Stable (reliableMachine env).exec i (Sweeping i names) :=
  stable_sweeps names Unwritten

lemma kept_of_isCalm (hinv : SweptBehind log w) (hexec : (reliableMachine env).exec i req c o w = some (a, w'))
    (hok : marksInTime log ⟨i, req, past, c, a, w, w'⟩ = true) (hc : c.isCalm = true) :
    teardownContract.Kept log ⟨i, req, past, c, a, w, w'⟩ :=
  kept_of_sweptFirst hinv ⟨o, hexec⟩ hok (sweptFirst_of_not_written (isWritten_of_isCalm hc a))

/-- What a script leaves when the calls of the machine do not fail. -/
abbrev Tears {α : Type} (env : Platform) (i : ℕ) (req : Request) (K : Assertion Answer Request World)
    (script : Handler α) (R : Except Denied α → Assertion Answer Request World) : Prop :=
  teardownContract.Triple (reliableMachine env).exec i req K script R

lemma sweepCall_triple {R : Answer c → World → Prop} {K : Assertion Answer Request World} (hc : c.isCalm = true)
    (hK : teardownContract.Stable (reliableMachine env).exec i fun past log w =>
      Sweeping i names past log w ∧ K past log w)
    (htold : ∀ past log w o a w', Sweeps i names log w → Sweeps i names (log ++ [⟨i, req, past, c, a, w, w'⟩]) w' →
      (reliableMachine env).exec i req c o w = some (a, w') → marksInTime log ⟨i, req, past, c, a, w, w'⟩ = true →
        K past log w → R a w') :
    Tears env i req (fun past log w => Sweeping i names past log w ∧ K past log w) (ask c)
      fun r past log w => Sweeping i names past log w ∧ ∀ a, r = .ok a → R a w := by
  refine .ask hK fun past log w o a w' hinv hs hexec hok => ?_
  have hsweeps : Sweeps i names (log ++ [⟨i, req, past, c, a, w, w'⟩]) w' :=
    hs.1.2.step hok (mem_sweeping_of_not_written hs.1.2.mem (isWritten_of_isCalm hc a))
  refine ⟨kept_of_isCalm hinv hexec hok hc, ⟨hs.1.1.append hc a, hsweeps⟩, fun a' ha' => ?_⟩
  cases ha'
  exact htold past log w o a w' hs.1.2 hsweeps hexec hok hs.2

/-- A directory has none of some markers. -/
def Lacks (name : String) (P : String → Prop) (w : World) : Prop :=
  ∀ marker ∈ markerNames, P marker → carries w.modules name marker = false

lemma Lacks.step {name : String} {P : String → Prop} (h : Lacks name P st.before) (hst : marks st = false) :
    Lacks name P st.after := by
  intro marker hmarker hP
  cases hcarries : carries st.after.modules name marker with
  | false => rfl
  | true => exact absurd (h marker hmarker hP) (by rw [carries_of_marks hst hmarker hcarries]; exact nofun)

lemma stable_lacks (names : List String) (name : String) (P : String → Prop) :
    teardownContract.Stable (reliableMachine env).exec i fun past log w =>
      Sweeping i names past log w ∧ Lacks name P w :=
  fun past log st hs hinv hinter hne hserves htakes hok hkept =>
    ⟨stable_sweeping names past log st hs.1 hinv hinter hne hserves htakes hok hkept,
      hs.2.step (marks_eq_false hs.1.2.mem hok)⟩

lemma carries_eq_false {d : Disk} {name : String} (h : ∀ tree, d.get? (.moduleDir name) ≠ some (.dir tree))
    (marker : String) : carries d name marker = false := by
  unfold carries
  split
  · rename_i tree htree
    exact absurd htree (h tree)
  · rfl

/-- What a look for a marker tells of the others: a directory with it has no other one. -/
lemma lacks_of_hasMarkerNamed {a : Bool} {log : List LogStep}
    (hexec : (reliableMachine env).exec i req (.hasMarkerNamed (.moduleDir name) marker) o w = some (a, w'))
    (h : Sweeps i names log w') (hmarker : marker ∈ markerNames) :
    Lacks name (fun marker' => marker' = marker ↔ a = false) w' := by
  have hact := act_of_exec (exec_of_reliable hexec)
  cases hact
  intro marker' hmarker' hlooked
  cases hcarries : carries w.modules name marker' with
  | false => rfl
  | true =>
    obtain ⟨tree, htree, hmem⟩ := mem_keys_of_carries hcarries
    have hhas := Disk.hasFile_of_dir htree marker
    by_cases hsame : marker' = marker
    · have hfound := hlooked.1 hsame
      rw [Bool.not_false, Bool.true_and, hhas, ← hsame, decide_eq_true hmem] at hfound
      cases hfound
    · have hfound := Bool.eq_true_of_not_eq_false fun hfalse => hsame (hlooked.2 hfalse)
      rw [Bool.not_false, Bool.true_and, hhas] at hfound
      have hcarried : carries w.modules name marker = true := by
        unfold carries
        rw [htree]
        exact hfound
      exact absurd (h.single name marker' hmarker' marker hmarker hcarries hcarried) hsame

/-- One of the three looks of `markersOf`. -/
lemma look_triple (names : List String) (name marker : String) (P : String → Prop) (hmarker : marker ∈ markerNames) :
    Tears env i req
      (fun past log w => Sweeping i names past log w ∧ Lacks name P w) (ask (.hasMarkerNamed (.moduleDir name) marker))
      fun r past log w => Sweeping i names past log w ∧
        ∀ a, r = .ok a → Lacks name (fun marker' => P marker' ∨ (marker' = marker ↔ a = false)) w := by
  refine sweepCall_triple rfl (stable_lacks names name P) fun past log w o a w' _ hsweeps hexec _ hs => ?_
  have hlacks : Lacks name P w' := by
    have hframe := exec_frame (exec_of_reliable hexec)
    intro marker' hmarker' hP
    rw [hframe.modules rfl]
    exact hs marker' hmarker' hP
  intro marker' hmarker' hP
  exact hP.elim (hlacks marker' hmarker') (lacks_of_hasMarkerNamed hexec hsweeps hmarker marker' hmarker')

/-- Looks that found no marker, or two, tell of every marker that it is missing. -/
lemma told_of_length : ∀ content artifact kg : Bool,
    ((if content then [mountMarkerName] else []) ++ (if artifact then [artifactMarkerName] else []) ++
      (if kg then [kgMarkerName] else [])).length ≠ 1 → ∀ marker ∈ markerNames,
    ((False ∨ (marker = mountMarkerName ↔ content = false)) ∨ (marker = artifactMarkerName ↔ artifact = false)) ∨
      (marker = kgMarkerName ↔ kg = false) := by
  decide

/-- A directory that `cloudMounts` passes over, for its markers, has none. -/
lemma markersOf_triple (names : List String) (name : String) :
    Tears env i req (Sweeping i names) (markersOf (.moduleDir name)) fun r past log w => Sweeping i names past log w ∧
        ∀ markers, r = .ok markers → markers.length ≠ 1 → Lacks name (fun _ => True) w := by
  refine Contract.Triple.weaken ?_ fun past log w _ (hs : Sweeping i names past log w) =>
    (⟨hs, fun _ _ => False.elim⟩ : Sweeping i names past log w ∧ Lacks name (fun _ => False) w)
  refine (look_triple names name mountMarkerName _ (by decide)).bind
    (fun content => ?_) fun _ _ _ _ _ hs => ⟨hs.1, nofun⟩
  refine Contract.Triple.weaken ?_ fun _ _ _ _ hs => And.intro hs.1 (hs.2 content rfl)
  refine (look_triple names name artifactMarkerName _ (by decide)).bind
    (fun artifact => ?_) fun _ _ _ _ _ hs => ⟨hs.1, nofun⟩
  refine Contract.Triple.weaken ?_ fun _ _ _ _ hs => And.intro hs.1 (hs.2 artifact rfl)
  refine (look_triple names name kgMarkerName _ (by decide)).bind
    (fun kg => ?_) fun _ _ _ _ _ hs => ⟨hs.1, nofun⟩
  refine .ret fun past log w _ hs => ⟨hs.1, fun markers hmarkers hlength marker hmarker _ => ?_⟩
  cases hmarkers
  exact hs.2 kg rfl marker hmarker (told_of_length content artifact kg hlength marker hmarker)

lemma cloudMountsOf_triple (names found : List String) :
    Tears env i req (Sweeping i (found ++ names)) (cloudMountsOf names)
      fun r past log w => Unwritten past ∧ ∀ rest, r = .ok rest → Sweeps i (found ++ rest) log w := by
  induction names generalizing found with
  | nil =>
    refine .ret fun past log w _ hs => ⟨hs.1, fun rest hrest => ?_⟩
    cases hrest
    exact hs.2
  | cons name names ih =>
    -- without a marker the directory is not missed
    have hskip : ∀ past log w, Sweeping i (found ++ name :: names) past log w → Lacks name (fun _ => True) w →
        Sweeping i (found ++ names) past log w := by
      refine fun past log w hs hlacks => ⟨hs.1, hs.2.mono fun name' marker hmarker hcarries hmem => ?_⟩
      rcases mem_append.1 hmem with hmem | hmem
      · exact mem_append_left _ hmem
      · rcases mem_cons.1 hmem with rfl | hmem
        · exact absurd (hlacks marker hmarker trivial) (by rw [hcarries]; exact nofun)
        · exact mem_append_right _ hmem
    have hlstat : Tears env i req (Sweeping i (found ++ name :: names))
        (ask (.lstat (.moduleDir name))) fun r past log w => Sweeping i (found ++ name :: names) past log w ∧
          ∀ a, r = .ok a → a ≠ .found true → Lacks name (fun _ => True) w := by
      refine .weaken (sweepCall_triple (K := fun _ _ _ => True) rfl ?_ ?_) fun _ _ _ _ hs => ⟨hs, trivial⟩
      · exact (stable_sweeping _).and (Contract.stable_past fun _ => True)
      · intro past log w o a w' _ _ hexec _ _ hfound marker _ _
        have hact := act_of_exec (exec_of_reliable hexec)
        cases hact
        exact carries_eq_false (fun tree htree => hfound (Disk.lstat_of_dir htree)) marker
    refine hlstat.bind (fun answer => ?_) fun _ _ _ _ _ hs => ⟨hs.1.1, nofun⟩
    split_ifs with hdir
    · refine Contract.Triple.weaken ?_ fun _ _ _ _ hs => hs.1
      refine (markersOf_triple _ name).bind (fun markers => ?_) fun _ _ _ _ _ hs => ⟨hs.1.1, nofun⟩
      by_cases hmarkers : markers.length = 1
      · simp only [if_pos hmarkers]
        refine Contract.Triple.weaken ?_ fun past log w _ hs => (by simpa using hs.1 :
          Sweeping i ((found ++ [name]) ++ names) past log w)
        refine (ih (found ++ [name])).bind (fun rest => ?_) fun _ _ _ _ _ hs => ⟨hs.1, nofun⟩
        refine .ret fun past log w _ hs => ⟨hs.1, fun rest' hrest => ?_⟩
        cases hrest
        simpa using hs.2 rest rfl
      · simp only [if_neg hmarkers]
        refine Contract.Triple.weaken ?_ fun past log w _ hs => hskip past log w hs.1 (hs.2 markers rfl hmarkers)
        refine (ih found).bind (fun rest => ?_) fun _ _ _ _ _ hs => ⟨hs.1, nofun⟩
        exact .ret fun past log w _ hs => hs
    · exact (ih found).weaken fun past log w _ hs => hskip past log w hs.1 (hs.2 answer rfl hdir)

lemma calm_triple {α : Type} {P : List (Script.Event Answer) → Prop} {script : Handler α}
    (h : script.Every fun c => c.isCalm = true)
    (hP : ∀ past (c : Call) (a : Answer c), c.isCalm = true → P past → P (past ++ [⟨c, a⟩])) :
    Tears env i req (fun past _ _ => P past) script fun _ past _ _ => P past := by
  refine .every (Contract.stable_past P) (fun c hc past log w o a w' hinv hs hexec hok => ?_) h
  exact ⟨kept_of_isCalm hinv hexec hok hc, hP past c a hc hs⟩

lemma calmCall_triple (names : List String) (hc : c.isCalm = true) :
    Tears env i req (Sweeping i names) (ask c) fun _ => Sweeping i names := by
  refine .ask (stable_sweeping names) fun past log w o a w' hinv hs hexec hok => ?_
  refine ⟨kept_of_isCalm hinv hexec hok hc, hs.1.append hc a, hs.2.step hok ?_⟩
  exact mem_sweeping_of_not_written hs.2.mem (isWritten_of_isCalm hc a)

lemma removeModuleTree_triple (names : List String) (name : String) :
    Tears env i req (Sweeping i (name :: names)) (removeModuleTree name)
      fun r past log w => Unwritten past ∧ ∀ gone, r = .ok gone → Sweeps i names log w := by
  refine (calmCall_triple _ rfl).bind (fun time => ?_) fun _ _ _ _ _ hs => ⟨hs.1, nofun⟩
  have hrename : Tears env i req (Sweeping i (name :: names))
      (ask (.rename (.moduleDir name) (.removing name time))) fun r past log w =>
        Sweeping i (name :: names) past log w ∧ ∀ a, r = .ok a → Lacks name (fun _ => True) w := by
    refine .weaken (sweepCall_triple (K := fun _ _ _ => True) rfl ?_ ?_) fun _ _ _ _ hs => ⟨hs, trivial⟩
    · exact (stable_sweeping _).and (Contract.stable_past fun _ => True)
    · intro past log w o a w' _ _ hexec hok _ marker _ _
      have hdone : a = true := by
        simp only [marksInTime, and_eq_true] at hok
        exact hok.1.1
      have hact := act_of_exec (exec_of_reliable hexec)
      obtain ⟨d, hd, rfl⟩ := act_files hact rfl
      simp only [actFiles] at hd
      split at hd
      · cases hd
        cases hdone
      · rename_i d' hrename
        cases hd
        obtain ⟨entry, -, -, hget⟩ := Disk.get?_rename hrename
        refine carries_eq_false (fun tree htree => ?_) marker
        rw [hget, if_neg nofun, if_pos rfl] at htree
        cases htree
  refine hrename.bind (fun gone => ?_) fun _ _ _ _ _ hs => ⟨hs.1.1, nofun⟩
  refine Contract.Triple.weaken (L := Sweeping i names) ?_ fun past log w _ hs => ?_
  · split_ifs
    · refine (calmCall_triple names rfl).bind (fun _ => ?_) fun _ _ _ _ _ hs => ⟨hs.1, nofun⟩
      exact .ret fun past log w _ hs => ⟨hs.1, fun _ _ => hs.2⟩
    · exact .ret fun past log w _ hs => ⟨hs.1, fun _ _ => hs.2⟩
  · refine ⟨hs.1.1, hs.1.2.mono fun name' marker hmarker hcarries hmem => ?_⟩
    rcases mem_cons.1 hmem with rfl | hmem
    · exact absurd (hs.2 gone rfl marker hmarker trivial) (by rw [hcarries]; exact nofun)
    · exact hmem

lemma removeEach_triple (names : List String) :
    Tears env i req (Sweeping i names) (removeEach names)
      fun r past log w => Unwritten past ∧ ∀ removed, r = .ok removed → Sweeps i [] log w := by
  induction names with
  | nil => exact .ret fun past log w _ hs => ⟨hs.1, fun _ _ => hs.2⟩
  | cons name names ih =>
    refine (removeModuleTree_triple names name).bind (fun gone => ?_) fun _ _ _ _ _ hs => ⟨hs.1, nofun⟩
    refine Contract.Triple.weaken ?_ fun past log w _ hs => And.intro hs.1 (hs.2 gone rfl)
    refine ih.bind (fun rest => ?_) fun _ _ _ _ _ hs => ⟨hs.1, nofun⟩
    exact .ret fun past log w _ hs => ⟨hs.1, fun _ _ => hs.2 rest rfl⟩

/-! ## The disconnect -/

/-- After the teardown: either the sweep left nothing, or the lock was not free. -/
def TornDown (i : ℕ) (leftInPlace : Bool) : Assertion Answer Request World :=
  fun past log w => past.any isWritten = false ∧ past.any notSwept = leftInPlace ∧
    (leftInPlace = false → Sweeps i [] log w)

lemma stable_tornDown (leftInPlace : Bool) :
    teardownContract.Stable (reliableMachine env).exec i (TornDown i leftInPlace) := by
  intro past log st hs hinv hinter hne hserves htakes hok hkept
  refine ⟨hs.1, hs.2.1, fun hleft => ?_⟩
  exact (stable_sweeps [] (fun _ => True) past log st ⟨trivial, hs.2.2 hleft⟩ hinv hinter hne hserves htakes hok
    hkept).2

lemma listing_triple (hreq : req.isDisconnect = true) :
    Tears env i req (fun past _ _ => Unwritten past) (ask .readDir)
      fun r past log w => Unwritten past ∧ ∀ names, r = .ok names → Sweeps i names log w := by
  refine .ask (Contract.stable_past _) fun past log w o a w' hinv hs hexec hok => ?_
  refine ⟨kept_of_isCalm hinv hexec hok rfl, hs.append rfl a, fun names hnames => ?_⟩
  have hsingle : singlyMarked w.modules = true := by
    have hlisting := (Bool.and_eq_true_iff.1 hok).2
    simpa only [hreq, isListing, Bool.and_self, Bool.not_true, Bool.false_or] using hlisting
  have hact := act_of_exec (exec_of_reliable hexec)
  cases hact
  cases hnames
  refine ⟨?_, fun name marker hm marker' hm' hc hc' => eq_of_singlyMarked hsingle hm hm' hc hc',
    fun name marker _ hc => ?_⟩
  · rw [sweeping_concat, sweep, if_pos (by rw [hreq]; rfl)]
    exact .head _
  · obtain ⟨tree, htree, -⟩ := mem_keys_of_carries hc
    exact Disk.mem_readDir (Record.mem_keys_of_get? htree)

lemma removeCloudMounts_triple (hreq : req.isDisconnect = true) :
    Tears env i req (fun past _ _ => Unwritten past) removeCloudMounts
      fun r past log w => Unwritten past ∧ ∀ removed, r = .ok removed → Sweeps i [] log w := by
  have hmounts : Tears env i req (fun past _ _ => Unwritten past) cloudMounts
      fun r past log w => Unwritten past ∧ ∀ mounts, r = .ok mounts → Sweeps i mounts log w := by
    refine (listing_triple hreq).bind (fun names => ?_) fun _ _ _ _ _ hs => ⟨hs.1, nofun⟩
    exact (cloudMountsOf_triple names []).weaken fun past log w _ hs => ⟨hs.1, hs.2 names rfl⟩
  refine hmounts.bind (fun mounts => ?_) fun _ _ _ _ _ hs => ⟨hs.1, nofun⟩
  exact (removeEach_triple mounts).weaken fun past log w _ hs => ⟨hs.1, hs.2 mounts rfl⟩

lemma teardown_triple (hreq : req.isDisconnect = true) :
    Tears env i req (fun past _ _ => Unwritten past) teardown
      fun r past log w => past.any isWritten = false ∧ ∀ swept, r = .ok swept → TornDown i swept.1 past log w := by
  have hlock : Tears env i req (fun past _ _ => Unwritten past)
      (ask .tryLockModules) fun r past _ _ => past.any isWritten = false ∧
        ∀ locked, r = .ok locked → past.any notSwept = !locked := by
    refine .ask (Contract.stable_past _) fun past log w o a w' hinv hs hexec hok => ?_
    refine ⟨kept_of_sweptFirst hinv ⟨o, hexec⟩ hok (sweptFirst_of_not_written rfl), ?_, fun locked hlocked => ?_⟩
    · rw [any_append, hs.1]
      rfl
    · cases hlocked
      rw [any_append, hs.2]
      cases a <;> rfl
  refine hlock.bind (fun locked => ?_) fun _ _ _ _ _ hs => ⟨hs.1, nofun⟩
  cases locked with
  | false =>
    refine .ret fun past log w _ hs => ⟨hs.1, fun swept hswept => ?_⟩
    cases hswept
    exact ⟨hs.1, hs.2 false rfl, nofun⟩
  | true =>
    refine Contract.Triple.weaken (L := fun past _ _ => Unwritten past) ?_ fun past log w _ hs => ⟨hs.1, hs.2 true rfl⟩
    refine (removeCloudMounts_triple hreq).bind (fun removed => ?_) fun _ _ _ _ _ hs => ⟨hs.1.1, nofun⟩
    refine Contract.Triple.weaken (L := Sweeping i []) ?_ fun past log w _ hs => ⟨hs.1, hs.2 removed rfl⟩
    refine (calmCall_triple [] rfl).bind (fun _ => ?_) fun _ _ _ _ _ hs => ⟨hs.1.1, nofun⟩
    refine .ret fun past log w _ hs => ⟨hs.1.1, fun swept hswept => ?_⟩
    cases hswept
    exact ⟨hs.1.1, hs.1.2, fun _ => hs.2⟩

/-- What the answer of a disconnect says of its teardown. -/
def Announces (r : Except Denied Response) (past : List (Script.Event Answer)) : Prop :=
  past.any isWritten = true → past.any notSwept = true → ∃ removed failed, r = .ok (.disconnected true removed failed)

/-- What is said of the calls that can no longer change it. -/
def Written (leftInPlace written : Bool) (past : List (Script.Event Answer)) : Prop :=
  past.any notSwept = leftInPlace ∧ (written = false → past.any isWritten = false)

lemma Written.append {leftInPlace written : Bool} (h : Written leftInPlace written past) (hc : c.isCalm = true)
    (a : Answer c) : Written leftInPlace written (past ++ [⟨c, a⟩]) := by
  simp only [Written, any_append, any_cons, any_nil, Bool.or_false, isWritten_of_isCalm hc,
    notSwept_of_isCalm hc] at h ⊢
  exact h

lemma disconnectWrite_triple (leftInPlace : Bool) :
    Tears env i req (TornDown i leftInPlace)
      (writeModeLayerLocked pureOSSModeVars) fun r past _ _ => Written leftInPlace r.isOk past := by
  refine Contract.Triple.bind (R := fun r past _ _ => past.any notSwept = leftInPlace ∧
    (r ≠ .ok true → past.any isWritten = false)) ?_ (fun written => ?_) fun _ _ _ _ _ hs =>
      ⟨hs.1, fun _ => hs.2 (by simp)⟩
  · refine .ask (stable_tornDown leftInPlace) fun past log w o a w' hinv hs hexec hok => ?_
    refine ⟨kept_of_sweptFirst hinv ⟨o, hexec⟩ hok fun hwritten _ => ?_, ?_, fun ha => ?_⟩
    · have hact := act_of_exec (exec_of_reliable hexec)
      simp only [act] at hact
      split at hact
      · cases hact
        cases hwritten
      · rename_i text htext
        cases hact
        refine ⟨isCloudModeFile_pureOSS htext, ?_⟩
        cases leftInPlace with
        | true => exact .inr hs.2.1
        | false =>
          refine .inl fun name marker hmarker => eq_false_iff.2 fun hcarries => ?_
          exact absurd ((hs.2.2 rfl).listed name marker hmarker hcarries) not_mem_nil
    · rw [any_append, hs.2.1]
      exact or_false _
    · rw [any_append, hs.1]
      cases a with
      | true => exact absurd rfl ha
      | false => rfl
  · cases written with
    | true => exact .ret fun past log w _ hs => ⟨hs.1, fun hr => by cases hr⟩
    | false => exact .ret fun past log w _ hs => ⟨hs.1, fun _ => hs.2 (by simp)⟩

lemma disconnectLayer_triple (leftInPlace : Bool) :
    Tears env i req (TornDown i leftInPlace) (writeModeLayer pureOSSModeVars)
      fun r past _ _ => Written leftInPlace r.isOk past := by
  refine Contract.Triple.bind (R := fun _ => TornDown i leftInPlace) ?_ (fun _ => ?_) ?_
  · refine .ask (stable_tornDown leftInPlace) fun past log w o a w' hinv hs hexec hok => ?_
    refine ⟨kept_of_isCalm hinv hexec hok rfl, ?_, ?_, fun hleft => (hs.2.2 hleft).step hok ?_⟩
    · rw [any_append, hs.1]
      rfl
    · rw [any_append, hs.2.1]
      exact or_false _
    · exact mem_sweeping_of_not_written (hs.2.2 hleft).mem rfl
  · refine (disconnectWrite_triple leftInPlace).deferring fun r => ?_
    refine .ask (Contract.stable_past _) fun past log w o a w' hinv hs hexec hok => ?_
    exact ⟨kept_of_isCalm hinv hexec hok rfl, rfl, hs.append rfl a⟩
  · exact fun e past log w _ hs => ⟨hs.2.1, fun _ => hs.1⟩

lemma cloudDisable_teardown_triple (id : String) (hreq : req.isDisconnect = true) :
    Tears env i req (fun past _ _ => Unwritten past) (cloudDisable id) fun r past _ _ => Announces r past := by
  refine (teardown_triple hreq).bind (fun swept => ?_) fun e past log w _ hs hwritten => ?_
  · obtain ⟨leftInPlace, removed, failed⟩ := swept
    refine Contract.Triple.weaken (L := TornDown i leftInPlace) ?_ fun past log w _ hs => hs.2 _ rfl
    refine (disconnectLayer_triple leftInPlace).bind (fun _ => ?_) fun e past log w _ hs hwritten => ?_
    · refine Contract.Triple.bind (R := fun r past _ _ => r = .ok () ∧ past.any notSwept = leftInPlace) ?_
        (fun _ => ?_) fun _ _ _ _ _ hs => absurd hs.1 nofun
      · refine .ask (Contract.stable_past _) fun past log w o a w' hinv hs hexec hok => ?_
        exact ⟨kept_of_isCalm hinv hexec hok rfl, rfl, (hs.append rfl a).1⟩
      · refine .ret fun past log w _ hs _ hleft => ⟨removed, failed, ?_⟩
        rw [← hs.2, hleft]
    · exact absurd (hs.2 rfl) (by rw [hwritten]; exact nofun)
  · exact absurd hs.1 (by rw [hwritten]; exact nofun)

/-! ## The daemon -/

lemma isCalm_of_isQuestion (h : c.isQuestion = true) : c.isCalm = true := by
  cases c with
  | valid _ | readModeLayer | resolveEntitlements => rfl
  | _ => cases h

lemma question_triple {α : Type} {script : Handler α} (h : script.Every fun c => c.isQuestion = true) :
    Tears env i req (fun past _ _ => Unwritten past) script fun _ past _ _ => Unwritten past :=
  calm_triple (h.mono fun _ => isCalm_of_isQuestion) fun _ _ a hc hs => hs.append hc a

lemma disconnect_triple (id token : String) (hreq : req.isDisconnect = true) :
    Tears env i req (fun past _ _ => Unwritten past)
      (requireSession id (gate env true token (cloudDisable id))) fun r past _ _ => Announces r past := by
  have hrefused : ∀ e past, Unwritten past → Announces (.error e) past :=
    fun e past hs hwritten => absurd hs.1 (by rw [hwritten]; exact nofun)
  refine (question_triple (Script.every_ask rfl)).bind (fun valid => ?_) fun e past _ _ _ hs => hrefused e past hs
  refine .require (fun _ => ?_) fun past _ _ _ hs => hrefused _ past hs
  refine (question_triple (question_gateCheck true token)).bind (fun _ => ?_) fun e past _ _ _ hs => hrefused e past hs
  exact cloudDisable_teardown_triple id hreq

lemma other_triple (hreq : req.isDisconnect = false) {script : Handler Response} :
    Tears env i req (fun past _ _ => Unwritten past) script fun _ _ _ _ => True := by
  refine .weaken (.every (P := fun _ => True) (Contract.stable_past fun _ => True) ?_ ?_) fun _ _ _ _ _ => trivial
  · intro c _ past log w o a w' hinv _ hexec hok
    exact ⟨kept_of_sweptFirst hinv ⟨o, hexec⟩ hok fun _ h => absurd (hreq.symm.trans h) nofun, trivial⟩
  · exact Script.every_of_forall fun _ => trivial

lemma teardownRoutes_triple :
    Tears env i req (fun past _ _ => Unwritten past)
      ((reliableMachine env).program req) fun r past _ _ => req.isDisconnect = true → Announces r past := by
  cases req with
  | cloudDisable id token =>
    exact (disconnect_triple id token rfl).mono (fun _ _ _ _ hs => hs) fun _ _ _ _ _ hs _ => hs
  | session _ | cloudApply _ _ _ _ | cloudAllowlist _ _ _ | cloudKgUpdate _ _ _ | mountModule _ _ _ _ _
  | unmountModule _ _ _ | installArtifact _ _ _ _ _ | removeArtifact =>
    exact (other_triple rfl).mono (fun _ _ _ _ hs => hs) fun _ _ _ _ _ _ => nofun

/-- When all requests are answered and the mode file is as a disconnect wrote it, nothing with a marker is left unless
the answer of that disconnect said that the modules were left in place. -/
def NothingOutlives (p : Pool) : Prop :=
  (∀ i t, p.threads.get? i = some t → t.rest.isDone = true) →
    ∀ st, lastWrite p.log = some st → st.request.isDisconnect = true →
      Unmarked p.shared.modules ∨
        ∃ t removed failed, p.threads.get? st.thread = some t ∧
          t.rest = .ret (.ok (.disconnected true removed failed))

lemma mem_of_lastWrite (h : lastWrite log = some st) : st ∈ log ∧ isWritten st.event = true :=
  mem_filter.1 (mem_of_getLast? h)

/-- In every run in which the markers come in time, nothing outlives a disconnect unannounced. -/
theorem tornDown_of_reachable {p : Pool} (h : (reliableSystem env).Reachable
    (fun p e => (reliableMachine env).allows (fun _ => true) marksInTime p e = true) p) : NothingOutlives p := by
  have hlogged := Machine.Logged.of_reachable h
  have hholds : teardownContract.Holds (reliableMachine env)
      (fun _ req r past _ _ => req.isDisconnect = true → Announces r past) p := by
    refine .of_reachable rfl (fun i req r => Contract.stable_past _) (fun w _ => sweptBehind_nil w) ?_ h
    exact fun i req w _ _ => teardownRoutes_triple [] [] w (sweptBehind_nil w) ⟨rfl, rfl⟩
  intro hidle st hlast hreq
  refine (hholds.inv st hlast hreq).2.imp_right fun hswept => ?_
  obtain ⟨hst, hwritten⟩ := mem_of_lastWrite hlast
  obtain ⟨-, t, ht, hrequest, hprefix⟩ := hlogged st hst
  obtain ⟨-, hsafe⟩ := hholds.threads _ t ht
  have hdone := hidle _ t ht
  cases hrest : t.rest with
  | call c k =>
    rw [hrest] at hdone
    cases hdone
  | ret r =>
    rw [hrest] at hsafe
    have hevent : st.event ∈ t.past := hprefix.subset (mem_append_right _ (mem_singleton_self _))
    obtain ⟨e, he, hnot⟩ := any_eq_true.1 hswept
    have hmem : e ∈ t.past := hprefix.subset (mem_append_left _ he)
    obtain ⟨removed, failed, rfl⟩ :=
      hsafe (hrequest ▸ hreq) (any_eq_true.2 ⟨_, hevent, hwritten⟩) (any_eq_true.2 ⟨e, hmem, hnot⟩)
    exact ⟨t, removed, failed, ht, hrest⟩

def sampleCloudFile : Text :=
  lines [("OIDC_SHARED_POOL", "true")]

/-- A daemon that is started on it. -/
def sampleCloudPool : Pool := ⟨{ sampleWorld with file := some sampleCloudFile }, ∅, []⟩

lemma started_sampleCloudPool : (reliableSystem samplePlatform).init sampleCloudPool :=
  ⟨⟨rfl, rfl, rfl, rfl, rfl⟩, rfl, rfl⟩

def sampleMount : Request :=
  .mountModule "a" "token" "package" "module" (String.ofList ("sha256:".toList ++ List.replicate 64 '0'))

/-- A sign-in, then a mount of which only some steps are taken, a disconnect, and the rest of the mount. -/
def mountAround (early disconnect late : ℕ) : List (Threads.Event Request Outside) :=
  [.spawn 0 (.session "id")] ++ List.replicate 8 (.step 0 sampleAdmin) ++ [.spawn 1 sampleMount] ++ stepsOf 1 early ++
    [.spawn 2 (.cloudDisable "a" "token")] ++ stepsOf 2 disconnect ++ stepsOf 1 late

/-- An answer that does not say that modules were left in place. -/
def saysClean : Handler Response → Bool
  | .ret (.ok (.disconnected leftInPlace _ _)) => !leftInPlace
  | _ => false

/-- All requests are answered, and the disconnect that wrote the file answered that it left nothing in place. -/
def disconnectedClean (p : Pool) : Bool :=
  p.threads.entries.all (·.2.rest.isDone) &&
    (lastWrite p.log).any (fun st =>
      st.request.isDisconnect && (p.threads.get? st.thread).any fun t => saysClean t.rest)

lemma done_of_all {p : Pool} (h : p.threads.entries.all (·.2.rest.isDone) = true) :
    ∀ i t, p.threads.get? i = some t → t.rest.isDone = true :=
  fun i t ht => all_eq_true.1 h (i, t) (Record.mem_entries_iff.2 ht)

/-- Nothing is left of a mount before the disconnect. -/
theorem mountBefore_removed : ∃ (p : Pool) (st : LogStep), (reliableSystem samplePlatform).Reachable
    (fun p e => (reliableMachine samplePlatform).allows (fun _ => true) marksInTime p e = true) p ∧
      p.log.any marks = true ∧ lastWrite p.log = some st ∧ st.request.isDisconnect = true ∧
      (Unmarked p.shared.modules ∨ ∃ t removed failed, p.threads.get? st.thread = some t ∧
        t.rest = .ret (.ok (.disconnected true removed failed))) := by
  have hrun : ((reliableSystem samplePlatform).run ((reliableMachine samplePlatform).allows (fun _ => true) marksInTime)
      sampleCloudPool (mountAround 10 16 0)).any (fun p => disconnectedClean p && p.log.any marks) = true := by
    decide +kernel
  obtain ⟨p, hreach, hclean⟩ := TransitionSystem.exists_reachable hrun started_sampleCloudPool fun _ _ hok => hok
  obtain ⟨hclean, hmarks⟩ := and_eq_true_iff.1 hclean
  obtain ⟨hidle, hwrite⟩ := and_eq_true_iff.1 hclean
  obtain ⟨st, hlast, hwrite⟩ := (any_eq_true _ _).1 hwrite
  have hreq := (and_eq_true_iff.1 hwrite).1
  exact ⟨p, st, hreach, hmarks, hlast, hreq, tornDown_of_reachable hreach (done_of_all hidle) st hlast hreq⟩

/-- A mount that has passed its look at the mode file leaves a marker behind a disconnect. -/
theorem lateMount_left : ∃ p : Pool, (reliableSystem samplePlatform).Reachable (fun _ _ => True) p ∧
    ¬ NothingOutlives p := by
  have hrun : ((reliableSystem samplePlatform).run (fun _ _ => true) sampleCloudPool (mountAround 3 9 7)).any
      (fun p => disconnectedClean p && carries p.shared.modules "module" mountMarkerName) = true := by decide +kernel
  obtain ⟨p, hreach, hclean⟩ := TransitionSystem.exists_reachable hrun started_sampleCloudPool fun _ _ _ => trivial
  obtain ⟨hclean, hcarries⟩ := and_eq_true_iff.1 hclean
  obtain ⟨hidle, hwrite⟩ := and_eq_true_iff.1 hclean
  obtain ⟨st, hlast, hwrite⟩ := (any_eq_true _ _).1 hwrite
  obtain ⟨hreq, hthread⟩ := and_eq_true_iff.1 hwrite
  refine ⟨p, hreach, fun hall => ?_⟩
  rcases hall (done_of_all hidle) st hlast hreq with hnone | ⟨t, removed, failed, ht, hrest⟩
  · exact absurd (hnone "module" mountMarkerName (by decide)) (by rw [hcarries]; exact nofun)
  · rw [ht, any_some, hrest] at hthread
    cases hthread

end Console.Daemon
