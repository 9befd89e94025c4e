import Dethernety.ControlLibrary.Brownfield
import Dethernety.ControlLibrary.FileIo

/-!
# Pushing a greenfield control

Model of `pushGreenfieldControl` (Step A to Step D). A push reads and writes control files through
a `Disk` and talks to the platform; it runs in `EStateM`, so that a push that throws, or whose
process dies in a call, leaves the files and the calls it got to.

A file that is `partially-pushed` can be pushed again to the end (`resumes_of_partiallyPushed`).
-/

namespace ControlLibrary.Greenfield

/-! ## The environment -/

/-- How a call of the platform goes. -/
inductive CallAnswer (α : Type)
  | answered (a : α)
  | thrown (message : String)
  /-- The process dies in the call. -/
  | died

/-- The answer of `setInstantiationAttributes`. -/
structure SetResult where
  success : Bool
  errorMessage : Option String

/-- What the environment contributes to one push. -/
structure Environment where
  /-- `createControl`: the id of the new control, if there is one. -/
  created : CallAnswer (Option String)
  /-- The answers to the mutations by class index. -/
  set : ℕ → CallAnswer SetResult
  /-- `assignControlToElements`: whether a control is returned. -/
  assigned : CallAnswer Bool
  /-- The clock when the entry with that index has been acknowledged; after the last index, when
  the push is finalised. -/
  clock : ℕ → Timestamp

/-- The arguments of a push besides the file. -/
structure PushRequest where
  supportingElementIds : List String
  folderId : Option String
  liveAssignedModelIds : List String

inductive Call (J : Type)
  | createControl (name : String) (classIds : List String) (folderId : Option String)
  | setInstantiationAttributes (controlId classId : String) (attributes : Attributes J)
  | assignControlToElements (controlId : String) (elementIds : List String)

/-! ## Errors -/

inductive PushError
  | wrongLifecycle (id : String) (lifecycle : Lifecycle)
  | noServerId (name : String)
  | rereadFailed (serverId : String)
  | mutationFailed (controlId classId : String) (errorMessage : Option String)
  | assignFailed (controlId : String)
  | io (error : IoError)
  | wal (error : Wal.WalError)
  | callThrown (message : String)

/-- The text of the error; `stringify` is `JSON.stringify` on strings. -/
def PushError.message (stringify : String → String) : PushError → String
  | wrongLifecycle id lifecycle =>
    "pushGreenfieldControl: file " ++ id ++ " has lifecycle '" ++
      Brownfield.lifecycleName lifecycle ++ "' (expected 'greenfield' or 'partially-pushed')."
  | noServerId name => "pushGreenfieldControl: createControl returned no id for '" ++ name ++ "'"
  | rereadFailed serverId =>
    "pushGreenfieldControl: post-WAL re-read failed for " ++ serverId ++
      ". Manual reconciliation required."
  | mutationFailed controlId classId errorMessage =>
    let cause := match errorMessage with
      | some text => if text = "" then "" else " Cause: " ++ text ++ "."
      | none => ""
    "pushGreenfieldControl: setInstantiationAttributes failed for control=" ++ controlId ++
      " class=" ++ classId ++ "." ++ cause ++ " State left at lifecycle=partially-pushed for resume."
  | assignFailed controlId =>
    "pushGreenfieldControl: assignControlToElements returned null for control=" ++ controlId ++
      ". State left at lifecycle=partially-pushed for resume."
  | io error => error.message stringify
  | wal error => error.message
  | callThrown message => message

/-- Why a push does not return. -/
inductive Stop
  | threw (error : PushError)
  | died

/-! ## The push -/

/-- The files and the calls made so far. -/
structure World (S J : Type) where
  dir : S
  calls : List (Call J)

/-- A push in progress. -/
abbrev GreenfieldM (S J : Type) := EStateM Stop (World S J)

section

variable {S J : Type} (disk : Disk S J) (env : Environment) (req : PushRequest)

/-- Make a call and wait for its answer. -/
def ask {α : Type} (call : Call J) : CallAnswer α → GreenfieldM S J α
  | .answered a => fun w => .ok a { w with calls := w.calls ++ [call] }
  | .thrown message => fun w =>
    .error (.threw (.callThrown message)) { w with calls := w.calls ++ [call] }
  | .died => fun w => .error .died { w with calls := w.calls ++ [call] }

/-- `await writeControlFile(modelDir, file)` -/
def save (file : ControlFile J) : GreenfieldM S J Unit := fun w =>
  match writeControlFile disk w.dir file with
  | .ok dir => .ok () { w with dir := dir }
  | .error e => .error (.threw (.io e)) w

/-- The journalled rewrite of the temporary id. -/
def rewrite (tempId serverId : String) : GreenfieldM S J Unit := fun w =>
  match disk.rewriteId w.dir tempId serverId with
  | (dir, none) => .ok () { w with dir := dir }
  | (dir, some e) => .error (.threw (.wal e)) { w with dir := dir }

/-- `await readControlFile(modelDir, controlId)` -/
def read (controlId : String) : GreenfieldM S J (Option (ControlFile J)) := fun w =>
  match readControlFile disk w.dir controlId with
  | .ok file? => .ok file? w
  | .error e => .error (.threw (.io e)) w

/-- Step A: create the control, unless that has been done. -/
def stepA (file : ControlFile J) : GreenfieldM S J (ControlFile J) :=
  if file.lifecycle ≠ .greenfield then pure file
  else if ¬ Wal.IsGreenfieldTempId file.id.toList then do
    -- the id has been rewritten before: only the lifecycle is behind
    save disk { file with lifecycle := .partiallyPushed }
    pure { file with lifecycle := .partiallyPushed }
  else do
    let created ← ask (.createControl file.name
      (file.classes.map ControlFileClassEntry.classId) req.folderId) env.created
    match created.filter (· ≠ "") with
    | none => throw (.threw (.noServerId file.name))
    | some serverId =>
      save disk file
      rewrite disk file.id serverId
      match ← read disk serverId with
      | none => throw (.threw (.rereadFailed serverId))
      | some reread =>
        save disk { reread with lifecycle := .partiallyPushed }
        pure { reread with lifecycle := .partiallyPushed }

/-- The test on which Step B skips an entry. -/
def alreadyPushed (entry : ControlFileClassEntry J) : Bool :=
  match entry.pushedAt, entry.localEditedAt with
  | some pushedAt, some localEditedAt => localEditedAt ≤ pushedAt
  | _, _ => false

/-- The entry once the platform has acknowledged it. -/
def acknowledge (now : Timestamp) (entry : ControlFileClassEntry J) : ControlFileClassEntry J :=
  { entry with
    platformAttributes := some entry.attributes
    pushedAt := some now
    pendingEdit := none }

/-- Step B: the loop over the classes, with the entries it has passed and those to come. -/
def stepB (working : ControlFile J) :
    List (ControlFileClassEntry J) → List (ControlFileClassEntry J) → GreenfieldM S J (ControlFile J)
  | passed, [] => pure { working with classes := passed }
  | passed, entry :: rest =>
    if alreadyPushed entry then stepB working (passed ++ [entry]) rest
    else do
      let result ← ask (.setInstantiationAttributes working.id entry.classId entry.attributes)
        (env.set passed.length)
      if result.success then
        let entry := acknowledge (env.clock passed.length) entry
        save disk { working with classes := passed ++ entry :: rest }
        stepB working (passed ++ [entry]) rest
      else throw (.threw (.mutationFailed working.id entry.classId result.errorMessage))

/-- Step C: the edges to the supported elements. -/
def stepC (working : ControlFile J) : GreenfieldM S J Unit :=
  if req.supportingElementIds = [] then pure ()
  else do
    let assigned ← ask (.assignControlToElements working.id req.supportingElementIds) env.assigned
    if assigned then pure () else throw (.threw (.assignFailed working.id))

/-- The test of Step D: the platform has the entry as it was last edited. -/
def acknowledged (entry : ControlFileClassEntry J) : Bool :=
  match entry.pushedAt with
  | none => false
  | some pushedAt =>
    match entry.localEditedAt with
    | none => true
    | some localEditedAt => localEditedAt ≤ pushedAt

/-- The file of a finished push. -/
def finalised (working : ControlFile J) : ControlFile J :=
  { working with
    lifecycle := .brownfield
    platformState := some
      { lastSyncedAt := working.platformState.bind (·.lastSyncedAt)
        lastPushedAt := some (env.clock working.classes.length)
        assignedModelIds := some req.liveAssignedModelIds
        assignedModelCount := some req.liveAssignedModelIds.length } }

/-- Step D: finalise, once every class is pushed. -/
def stepD (working : ControlFile J) : GreenfieldM S J (ControlFile J) :=
  if working.classes.all acknowledged then do
    save disk (finalised env req working)
    pure (finalised env req working)
  else pure working

def pushGreenfieldControl (file : ControlFile J) : GreenfieldM S J (ControlFile J) :=
  if file.lifecycle ≠ .greenfield ∧ file.lifecycle ≠ .partiallyPushed then
    throw (.threw (.wrongLifecycle file.id file.lifecycle))
  else do
    let working ← stepA disk env req file
    let working ← stepB disk env working [] working.classes
    stepC env req working
    stepD disk env req working

end

/-! ## Interrupted and resumed pushes -/

variable {S J : Type} {disk : Disk S J} {env : Environment} {req : PushRequest}
variable {working file : ControlFile J} {w : World S J}

/-- The world that a computation leaves, whether it returns or not. -/
def worldAfter {α : Type} : EStateM.Result Stop (World S J) α → World S J
  | .ok _ w => w
  | .error _ w => w

/-- The mutations, and the assignment, all go well. -/
structure Environment.Accepts (env : Environment) : Prop where
  set : ∀ i, ∃ errorMessage, env.set i = .answered ⟨true, errorMessage⟩
  assigned : env.assigned = .answered true

/-- The file can be resumed: with a platform that accepts every call, a push returns and has sent
every entry that was not acknowledged. -/
def Resumes (disk : Disk S J) (s : S) (file : ControlFile J) : Prop :=
  ∀ (env : Environment) (req : PushRequest), env.Accepts →
    ∃ file' w, pushGreenfieldControl disk env req file ⟨s, []⟩ = .ok file' w ∧
      ∀ entry ∈ file.classes, acknowledged entry = false →
        .setInstantiationAttributes file.id entry.classId entry.attributes ∈ w.calls

lemma bind_apply {α β : Type} (x : GreenfieldM S J α) (f : α → GreenfieldM S J β) (w : World S J) :
    (x >>= f) w = match x w with
      | .ok a w' => f a w'
      | .error e w' => .error e w' := by
  cases h : x w with
  | ok a w' | error e w' => simp [bind, EStateM.bind, h]

lemma save_eq (hsafe : assertSafeControlId file.id = .ok ()) :
    save disk file w = .ok () { w with dir := disk.store w.dir file } := by
  simp [save, writeControlFile, hsafe]

/-- What Step B is waiting for has not been acknowledged, and conversely up to entries without an
edit time. -/
lemma acknowledged_of_alreadyPushed {entry : ControlFileClassEntry J}
    (h : alreadyPushed entry = true) : acknowledged entry = true := by
  unfold alreadyPushed at h
  unfold acknowledged
  cases hp : entry.pushedAt with
  | none => simp [hp] at h
  | some pushedAt =>
    cases hl : entry.localEditedAt with
    | none => rfl
    | some localEditedAt => simpa [hp, hl] using h

/-! ### Step B, entry by entry -/

section

variable {entry : ControlFileClassEntry J} {passed rest : List (ControlFileClassEntry J)}

lemma stepB_of_alreadyPushed (h : alreadyPushed entry = true) :
    stepB disk env working passed (entry :: rest) w =
      stepB disk env working (passed ++ [entry]) rest w := by
  simp [stepB, h]

/-- The world once the mutation for an entry has been sent. -/
def sent (working : ControlFile J) (entry : ControlFileClassEntry J) (w : World S J) : World S J :=
  { w with
    calls := w.calls ++ [.setInstantiationAttributes working.id entry.classId entry.attributes] }

/-- An entry that the platform accepts is written back as acknowledged, and the loop goes on. -/
lemma stepB_of_success (hsafe : assertSafeControlId working.id = .ok ())
    (h : alreadyPushed entry = false) {errorMessage : Option String}
    (hset : env.set passed.length = .answered ⟨true, errorMessage⟩) :
    stepB disk env working passed (entry :: rest) w =
      stepB disk env working (passed ++ [acknowledge (env.clock passed.length) entry]) rest
        { sent working entry w with
          dir := disk.store w.dir { working with
            classes := passed ++ acknowledge (env.clock passed.length) entry :: rest } } := by
  have hsave : ∀ w' : World S J, save disk { working with
      classes := passed ++ acknowledge (env.clock passed.length) entry :: rest } w' =
        .ok () { w' with dir := disk.store w'.dir { working with
          classes := passed ++ acknowledge (env.clock passed.length) entry :: rest } } :=
    fun w' => save_eq hsafe
  rw [stepB, if_neg (by simp [h]), bind_apply, hset]
  simp only [ask, if_true, bind_apply, hsave, sent]

/-- With a platform that accepts every call Step B gets to its end and sends what is left. -/
lemma exists_stepB_eq_ok (hsafe : assertSafeControlId working.id = .ok ()) (henv : env.Accepts)
    (passed rest : List (ControlFileClassEntry J)) (w : World S J) :
    ∃ file' w', stepB disk env working passed rest w = .ok file' w' ∧ file'.id = working.id ∧
      (∀ call ∈ w.calls, call ∈ w'.calls) ∧ ∀ entry ∈ rest, alreadyPushed entry = false →
        .setInstantiationAttributes working.id entry.classId entry.attributes ∈ w'.calls := by
  induction rest generalizing passed w with
  | nil => exact ⟨_, w, rfl, rfl, fun _ h => h, by simp⟩
  | cons entry rest ih =>
    by_cases hskip : alreadyPushed entry = true
    · rw [stepB_of_alreadyPushed hskip]
      obtain ⟨file', w', hrun, hid, hcalls, hsent⟩ := ih (passed ++ [entry]) w
      refine ⟨file', w', hrun, hid, hcalls, ?_⟩
      intro e he hpushed
      rcases List.mem_cons.mp he with rfl | he
      · simp [hskip] at hpushed
      · exact hsent e he hpushed
    · rw [Bool.not_eq_true] at hskip
      obtain ⟨errorMessage, hset⟩ := henv.set passed.length
      rw [stepB_of_success hsafe hskip hset]
      obtain ⟨file', w', hrun, hid, hcalls, hsent⟩ := ih
        (passed ++ [acknowledge (env.clock passed.length) entry])
        { sent working entry w with
          dir := disk.store w.dir { working with
            classes := passed ++ acknowledge (env.clock passed.length) entry :: rest } }
      refine ⟨file', w', hrun, hid, ?_, ?_⟩
      · intro call hcall
        exact hcalls call (by simp [sent, hcall])
      · intro e he hpushed
        rcases List.mem_cons.mp he with rfl | he
        · exact hcalls _ (by simp [sent])
        · exact hsent e he hpushed

end

/-! ### The whole push -/

lemma pushGreenfieldControl_of_refused (hg : file.lifecycle ≠ .greenfield) (hp : file.lifecycle ≠ .partiallyPushed) :
    pushGreenfieldControl disk env req file w = .error (.threw (.wrongLifecycle file.id file.lifecycle)) w := by
  rw [pushGreenfieldControl, if_pos ⟨hg, hp⟩]
  rfl

/-- A `partially-pushed` file has Step A behind it. -/
lemma pushGreenfieldControl_of_partiallyPushed (hp : file.lifecycle = .partiallyPushed) :
    pushGreenfieldControl disk env req file w =
      (stepB disk env file [] file.classes >>= fun working => do
        stepC env req working
        stepD disk env req working) w := by
  have hA : stepA disk env req file w = .ok file w := by
    simp [stepA, hp, pure, EStateM.pure]
  rw [pushGreenfieldControl, if_neg (by simp [hp]), bind_apply, hA]

lemma stepC_of_accepts (henv : env.Accepts) :
    ∃ w', stepC env req working w = .ok () w' ∧ ∀ call ∈ w.calls, call ∈ w'.calls := by
  unfold stepC
  split_ifs with h
  · exact ⟨w, rfl, fun _ h => h⟩
  · rw [bind_apply, henv.assigned]
    exact ⟨_, rfl, fun call hcall => by simp [hcall]⟩

lemma stepD_of_safe (hsafe : assertSafeControlId working.id = .ok ()) :
    ∃ file' w', stepD disk env req working w = .ok file' w' ∧ w'.calls = w.calls := by
  unfold stepD
  split_ifs with h
  · have hsave : save disk (finalised env req working) w = _ := save_eq hsafe
    rw [bind_apply, hsave]
    exact ⟨_, _, rfl, rfl⟩
  · exact ⟨_, w, rfl, rfl⟩

lemma resumes_of_partiallyPushed {s : S} (hsafe : assertSafeControlId file.id = .ok ())
    (hp : file.lifecycle = .partiallyPushed) : Resumes disk s file := by
  intro env req henv
  let start : World S J := ⟨s, []⟩
  obtain ⟨working, w, hB, hid, -, hsent⟩ : ∃ working w,
      stepB disk env file [] file.classes start = .ok working w ∧ working.id = file.id ∧ _ :=
    exists_stepB_eq_ok hsafe henv [] file.classes start
  obtain ⟨w₁, hC, hcalls⟩ : ∃ w', stepC env req working w = .ok () w' ∧ _ :=
    stepC_of_accepts henv
  obtain ⟨file', w₂, hD, hcalls'⟩ : ∃ file' w', stepD disk env req working w₁ = .ok file' w' ∧ _ :=
    stepD_of_safe (by rw [hid]; exact hsafe)
  refine ⟨file', w₂, ?_, ?_⟩
  · rw [pushGreenfieldControl_of_partiallyPushed hp, bind_apply, hB]
    simp only [bind_apply, hC, hD]
  · intro entry hentry hack
    -- what has not been acknowledged is not skipped
    have hskip : alreadyPushed entry = false := by
      rw [Bool.eq_false_iff]
      intro hskip
      rw [acknowledged_of_alreadyPushed hskip] at hack
      cases hack
    rw [hcalls']
    exact hcalls _ (hsent entry hentry hskip)

/-- Among files that the platform knows, only the `partially-pushed` ones can be resumed. -/
theorem resumes_iff {s : S} (hsafe : assertSafeControlId file.id = .ok ()) (hg : file.lifecycle ≠ .greenfield) :
    Resumes disk s file ↔ file.lifecycle = .partiallyPushed := by
  refine ⟨fun h => ?_, resumes_of_partiallyPushed hsafe⟩
  by_contra hp
  let accepting : Environment :=
    ⟨.answered none, fun _ => .answered ⟨true, none⟩, .answered true, fun _ => 0⟩
  obtain ⟨file', w, hrun, -⟩ :=
    h accepting ⟨[], none, []⟩ ⟨fun _ => ⟨none, rfl⟩, rfl⟩
  rw [pushGreenfieldControl_of_refused hg hp] at hrun
  cases hrun

end ControlLibrary.Greenfield
