import Mathlib.Data.List.Nodup
import Dethernety.ControlLibrary.Greenfield

/-!
# Pulling controls

Model of `pullControls`: the class list of every control that the platform returns is rebuilt from
the answer and merged with the local file, and requested controls that are missing from the answer
are tombstoned. Both are loops over a directory that stop at the first file that cannot be read, so
they are runs of `Replay.perform`.

A recorded edit survives every pull (`editsOnDisk_pullControls`). For a file whose greenfield push
was interrupted, `pull_keeps_local_work` says what a pull does that does not rebuild it.
-/

open List Option

namespace ControlLibrary.Pull

open Replay Greenfield

/-! ## The platform's answer -/

/-- A class of a returned control. -/
structure PulledClass where
  id : String
  name : Option String
  /-- `module.id`, if there is one -/
  moduleId : Option String

/-- A row of `getControlsByIds`. -/
structure PulledControl where
  id : Option String
  name : Option String
  controlClasses : Option (List PulledClass)

/-- A row of `getControlInstantiationAttributes` for several controls. -/
structure InstantiationRow (J : Type) where
  controlId : String
  classId : Option String
  attributes : Option (Attributes J)

/-- The answers to the three batched queries. -/
structure PullAnswer (J : Type) where
  metadata : List PulledControl
  instantiationRows : List (InstantiationRow J)
  /-- `getControlsAssignedModels` -/
  assignedModels : Record String (List String)

structure PullEnvironment (J : Type) where
  /-- The answers, or the message of the error that one of the queries throws. -/
  fetched : Except String (PullAnswer J)
  now : Timestamp

inductive PullError
  | fetchFailed (message : String)
  | io (error : IoError)

/-- An id and a name that are not empty; other rows are skipped. -/
def PulledControl.named (row : PulledControl) : Option (String × String) :=
  match row.id.filter (· ≠ ""), row.name.filter (· ≠ "") with
  | some id, some name => some (id, name)
  | _, _ => none

variable {S J : Type}

def attrsByControlAndClass (rows : List (InstantiationRow J)) :
    Record String (Record String (Attributes J)) :=
  rows.foldl (fun outer row =>
    match row.classId with
    | none => outer
    | some classId =>
      let inner := (outer.get? row.controlId).getD ∅
      outer.set row.controlId (inner.set classId (row.attributes.getD ∅))) ∅

/-- `returnedIds`; a row without a name counts. -/
def returnedIds (answer : PullAnswer J) : List String :=
  answer.metadata.filterMap fun row => row.id.filter (· ≠ "")

/-! ## Rebuilding a file -/

/-- `existing?.classes.find(…)` -/
def existingClass (existing : Option (ControlFile J)) (classId : String) :
    Option (ControlFileClassEntry J) :=
  existing.bind fun file => file.classes.find? fun entry => entry.classId = classId

/-- The entry for a class of the answer. A recorded edit keeps the local attributes. -/
def pulledEntry (existing : Option (ControlFile J)) (attrs : Record String (Attributes J))
    (cc : PulledClass) : ControlFileClassEntry J :=
  let platformAttrs := (attrs.get? cc.id).getD ∅
  let found := existingClass existing cc.id
  let edited := found.filter fun entry => entry.pendingEdit.isSome
  { classId := cc.id
    className := cc.name
    moduleId := cc.moduleId
    attributes := (edited.map (·.attributes)).getD platformAttrs
    platformAttributes := some platformAttrs
    localEditedAt := edited.bind (·.localEditedAt)
    pushedAt := found.bind (·.pushedAt)
    pendingEdit := edited.bind (·.pendingEdit) }

/-- The entry of a class that has lost its edge on the platform. -/
def carriedEntry (entry : ControlFileClassEntry J) : ControlFileClassEntry J :=
  { entry with platformAttributes := none, pushedAt := none }

/-- The local entries that are carried over: a recorded edit and no edge any more. -/
def carriedOver (existing : Option (ControlFile J)) (controlClasses : List PulledClass) :
    List (ControlFileClassEntry J) :=
  let classes := (existing.map (·.classes)).getD []
  (classes.filter fun entry =>
    entry.pendingEdit.isSome && entry.classId ∉ controlClasses.map (·.id)).map carriedEntry

/-- The class list after a pull. -/
def pulledClasses (existing : Option (ControlFile J)) (attrs : Record String (Attributes J))
    (controlClasses : List PulledClass) : List (ControlFileClassEntry J) :=
  controlClasses.map (pulledEntry existing attrs) ++ carriedOver existing controlClasses

/-- The file after a pull that returns the control. -/
def pulledFile (now : Timestamp) (answer : PullAnswer J) (existing : Option (ControlFile J))
    (id name : String) (controlClasses : List PulledClass) : ControlFile J :=
  let attrs := ((attrsByControlAndClass answer.instantiationRows).get? id).getD ∅
  let assigned := (answer.assignedModels.get? id).getD []
  { id := id
    name := name
    source := (existing.map (·.source)).getD .declared
    lifecycle := .brownfield
    classes := pulledClasses existing attrs controlClasses
    platformState := some
      { lastSyncedAt := some now
        lastPushedAt := (existing.bind (·.platformState)).bind (·.lastPushedAt)
        assignedModelCount := some assigned.length
        assignedModelIds := some assigned } }

/-! ## The two loops -/

/-- The directory and the files composed so far. -/
structure Progress (S J : Type) where
  dir : S
  composed : List (ControlFile J)

section

variable (disk : Disk S J) (now : Timestamp) (answer : PullAnswer J)

/-- `await writeControlFile(modelDir, file); composed.push(file)` -/
def Progress.write (p : Progress S J) (file : ControlFile J) : Except IoError (Progress S J) :=
  match writeControlFile disk p.dir file with
  | .error e => .error e
  | .ok dir => .ok ⟨dir, p.composed ++ [file]⟩

def pullRow (row : PulledControl) (p : Progress S J) : Except IoError (Progress S J) :=
  match row.named with
  | none => .ok p
  | some (id, name) =>
    match readControlFile disk p.dir id with
    | .error e => .error e
    | .ok existing =>
      p.write disk (pulledFile now answer existing id name (row.controlClasses.getD []))

/-- The loop over the answer. -/
def pullRows (s : S) : Progress S J × Option IoError :=
  perform (pullRow disk now answer) answer.metadata ⟨s, []⟩

/-- One requested id: a file that the platform has had and does not return is tombstoned. -/
def reconcile (requestedId : String) (p : Progress S J) : Except IoError (Progress S J) :=
  if requestedId ∈ returnedIds answer then .ok p
  else
    match readControlFile disk p.dir requestedId with
    | .error e => .error e
    | .ok none => .ok p
    | .ok (some existing) =>
      match existing.lifecycle with
      | .brownfield | .partiallyPushed =>
        p.write disk { existing with lifecycle := .tombstoned }
      -- the caller should not have asked for a `greenfield` id: only a warning
      | .greenfield | .tombstoned => .ok p

/-- `pullControls`: the directory it leaves and the composed files or the error. -/
def pullControls (env : PullEnvironment J) (controlIds : List String) (s : S) :
    S × Except PullError (List (ControlFile J)) :=
  if controlIds = [] then (s, .ok [])
  else
    match env.fetched with
    | .error message => (s, .error (.fetchFailed message))
    | .ok answer =>
      match pullRows disk env.now answer s with
      | (p, some e) => (p.dir, .error (.io e))
      | (p, none) =>
        match perform (reconcile disk answer) controlIds p with
        | (p, some e) => (p.dir, .error (.io e))
        | (p, none) => (p.dir, .ok p.composed)

end

/-! ## Which files a pull gets to -/

/-- The control file of the id can be read. -/
def readable (disk : Disk S J) (s : S) (id : String) : Bool :=
  (readControlFile disk s id).isOk

def pullAnswer? (env : PullEnvironment J) (controlIds : List String) : Option (PullAnswer J) :=
  if controlIds = [] then none else env.fetched.toOption

def namedIds (answer : PullAnswer J) : List String :=
  answer.metadata.filterMap fun row => row.named.map Prod.fst

/-- The controls whose file a pull rebuilds. -/
def pulledIds (disk : Disk S J) (env : PullEnvironment J) (controlIds : List String) (s : S) :
    List String :=
  match pullAnswer? env controlIds with
  | none => []
  | some answer => (namedIds answer).takeWhile (readable disk s)

/-- The requested controls that a pull finds missing from the answer. -/
def missingIds (disk : Disk S J) (env : PullEnvironment J) (controlIds : List String) (s : S) :
    List String :=
  match pullAnswer? env controlIds with
  | none => []
  | some answer =>
    if (namedIds answer).all (readable disk s) then
      (controlIds.filter (· ∉ returnedIds answer)).takeWhile (readable disk s)
    else []

section

variable {disk : Disk S J} {ι : Type} {exec : ι → Progress S J → Except IoError (Progress S J)}
variable {target : ι → Option String} {p : Progress S J} {id : String}

/-- A loop body that goes to at most one file: it reads it, and it may write it. -/
structure Visits (disk : Disk S J) (exec : ι → Progress S J → Except IoError (Progress S J))
    (target : ι → Option String) : Prop where
  skip : ∀ f p, target f = none → exec f p = .ok p
  stop : ∀ f p i, target f = some i → readable disk p.dir i = false → ∃ e, exec f p = .error e
  visit : ∀ f p i, target f = some i → readable disk p.dir i = true → disk.Filed p.dir →
    ∃ p', exec f p = .ok p' ∧ (∀ j, j ≠ i → disk.load p'.dir j = disk.load p.dir j) ∧
      readable disk p'.dir i = true ∧ disk.Filed p'.dir

lemma readable_eq_of_load {s s' : S} (h : disk.load s' id = disk.load s id) :
    readable disk s' id = readable disk s id := by
  unfold readable readControlFile
  rw [h]

variable (h : Visits disk exec target)
include h

/-- One round of the loop: it is left, or it goes on with the same files readable. -/
lemma Visits.step (f : ι) (hfiled : disk.Filed p.dir) :
    (∃ i e, target f = some i ∧ readable disk p.dir i = false ∧ exec f p = .error e) ∨
      ∃ p', exec f p = .ok p' ∧ (∀ j, target f ≠ some j → disk.load p'.dir j = disk.load p.dir j) ∧
        readable disk p'.dir = readable disk p.dir ∧ (∀ i ∈ target f, readable disk p.dir i = true) ∧
        disk.Filed p'.dir := by
  cases hf : target f with
  | none => exact .inr ⟨p, h.skip f p hf, fun _ _ => rfl, rfl, by simp, hfiled⟩
  | some i =>
    cases hi : readable disk p.dir i with
    | false =>
      obtain ⟨e, he⟩ := h.stop f p i hf hi
      exact .inl ⟨i, e, rfl, hi, he⟩
    | true =>
      obtain ⟨p', hp', hother, hi', hfiled'⟩ := h.visit f p i hf hi hfiled
      refine .inr ⟨p', hp', ?_, ?_, ?_, hfiled'⟩
      · exact fun j hj => hother j fun hji => hj (by rw [hji])
      · ext j
        by_cases hj : j = i
        · rw [hj, hi, hi']
        · exact readable_eq_of_load (hother j hj)
      · simpa using hi

lemma Visits.of_ok {f : ι} {p' : Progress S J}
    (hfiled : disk.Filed p.dir) (hf : exec f p = .ok p') :
    readable disk p'.dir = readable disk p.dir ∧ disk.Filed p'.dir := by
  rcases h.step f hfiled with ⟨i, e, -, -, he⟩ | ⟨p'', hp'', -, hreadable, -, hfiled'⟩
  · cases he.symm.trans hf
  · obtain rfl : p'' = p' := by simpa [hp''] using hf
    exact ⟨hreadable, hfiled'⟩

lemma Visits.perform_invariant (items : List ι) (hfiled : disk.Filed p.dir) :
    readable disk (perform exec items p).1.dir = readable disk p.dir ∧ disk.Filed (perform exec items p).1.dir := by
  let P : Progress S J → Prop := fun q =>
    readable disk q.dir = readable disk p.dir ∧ disk.Filed q.dir
  refine perform_induction (P := P) ⟨rfl, hfiled⟩ ?_
  rintro f - q q' hq ⟨hreadable, hfiled⟩
  obtain ⟨hreadable', hfiled'⟩ := h.of_ok hfiled hq
  exact ⟨hreadable'.trans hreadable, hfiled'⟩

lemma Visits.load_perform (items : List ι) (hfiled : disk.Filed p.dir)
    (hid : id ∉ (items.filterMap target).takeWhile (readable disk p.dir)) :
    disk.load (perform exec items p).1.dir id = disk.load p.dir id := by
  induction items generalizing p with
  | nil => rfl
  | cons f items ih =>
    rcases h.step f hfiled with ⟨i, e, -, -, he⟩ | ⟨p', hp', hother, hreadable, hf, hfiled'⟩
    · simp [perform, he]
    · -- a target of `f` is readable, so the loop gets past it
      have hid' : target f ≠ some id ∧
          id ∉ (items.filterMap target).takeWhile (readable disk p'.dir) := by
        rw [hreadable]
        cases htarget : target f with
        | none => simpa [htarget] using hid
        | some i =>
          have hi : readable disk p.dir i = true := hf i (by simp [htarget])
          simp only [htarget, filterMap_cons, takeWhile_cons, hi, if_true, mem_cons, not_or] at hid
          exact ⟨fun heq => hid.1 (by simpa using heq.symm), hid.2⟩
      simp only [perform, hp']
      rw [ih hfiled' hid'.2, hother id hid'.1]

lemma Visits.perform_eq_none_iff (items : List ι) (hfiled : disk.Filed p.dir) :
    (perform exec items p).2 = none ↔ (items.filterMap target).all (readable disk p.dir) = true := by
  induction items generalizing p with
  | nil => simp [perform]
  | cons f items ih =>
    rcases h.step f hfiled with ⟨i, e, hf, hi, he⟩ | ⟨p', hp', -, hreadable, hf, hfiled'⟩
    · simp [perform, he, hf, hi]
    · simp only [perform, hp']
      rw [ih hfiled', hreadable]
      cases htarget : target f with
      | none => simp [htarget]
      | some i => simp [htarget, hf i (by simp [htarget])]

end

/-! ## One round of each loop -/

section

variable {disk : Disk S J} {now : Timestamp} {answer : PullAnswer J}
variable {row : PulledControl} {p p' : Progress S J} {id name requestedId : String}
variable {existing : Option (ControlFile J)} {file : ControlFile J}

lemma readable_iff {s : S} : readable disk s id = true ↔ ∃ r, readControlFile disk s id = .ok r := by
  unfold readable
  cases readControlFile disk s id with
  | error e | ok r => simp [Except.isOk, Except.toBool]

lemma readControlFile_of_not_readable {s : S} (h : readable disk s id = false) :
    ∃ e, readControlFile disk s id = .error e := by
  cases hr : readControlFile disk s id with
  | error e => exact ⟨e, rfl⟩
  | ok r =>
    have : readable disk s id = true := readable_iff.mpr ⟨r, hr⟩
    simp [this] at h

lemma Progress.write_eq (hsafe : assertSafeControlId file.id = .ok ()) :
    p.write disk file = .ok ⟨disk.store p.dir file, p.composed ++ [file]⟩ := by
  simp [Progress.write, writeControlFile, hsafe]

lemma pullRow_eq (hnamed : row.named = some (id, name))
    (hread : readControlFile disk p.dir id = .ok existing) :
    pullRow disk now answer row p =
      let file := pulledFile now answer existing id name (row.controlClasses.getD [])
      .ok ⟨disk.store p.dir file, p.composed ++ [file]⟩ := by
  simp only [pullRow, hnamed, hread]
  exact Progress.write_eq (readControlFile_eq_ok_iff.mp hread).1

/-- A file that the platform has had and does not return is tombstoned. -/
lemma reconcile_eq (hmissing : requestedId ∉ returnedIds answer)
    (hread : readControlFile disk p.dir requestedId = .ok (some file)) (hid : file.id = requestedId)
    (hl : file.lifecycle = .brownfield ∨ file.lifecycle = .partiallyPushed) :
    reconcile disk answer requestedId p =
      .ok ⟨disk.store p.dir { file with lifecycle := .tombstoned },
        p.composed ++ [{ file with lifecycle := .tombstoned }]⟩ := by
  have hsafe : assertSafeControlId ({ file with lifecycle := .tombstoned } : ControlFile J).id =
      .ok () := by
    rw [hid]
    exact (readControlFile_eq_ok_iff.mp hread).1
  unfold reconcile
  rw [if_neg hmissing, hread]
  rcases hl with hl | hl
  all_goals
    simp only [hl]
    exact Progress.write_eq hsafe

lemma reconcile_eq_self (hread : requestedId ∈ returnedIds answer ∨
      readControlFile disk p.dir requestedId = .ok none ∨
      ∃ file, readControlFile disk p.dir requestedId = .ok (some file) ∧
        (file.lifecycle = .greenfield ∨ file.lifecycle = .tombstoned)) :
    reconcile disk answer requestedId p = .ok p := by
  unfold reconcile
  split_ifs with hreturned
  · rfl
  · rcases hread with h | h | ⟨file, h, hl⟩
    · exact absurd h hreturned
    · rw [h]
    · rw [h]
      rcases hl with hl | hl <;> simp only [hl]

/-- What reading a requested id can give. -/
lemma reconcile_cases (hreadable : readable disk p.dir requestedId = true) (hfiled : disk.Filed p.dir) :
    reconcile disk answer requestedId p = .ok p ∨ ∃ file, requestedId ∉ returnedIds answer ∧
        readControlFile disk p.dir requestedId = .ok (some file) ∧ file.id = requestedId ∧
        (file.lifecycle = .brownfield ∨ file.lifecycle = .partiallyPushed) := by
  obtain ⟨file?, hread⟩ := readable_iff.mp hreadable
  by_cases hreturned : requestedId ∈ returnedIds answer
  · exact .inl (reconcile_eq_self (.inl hreturned))
  · cases file? with
    | none => exact .inl (reconcile_eq_self (.inr (.inl hread)))
    | some file =>
      have hid := hfiled requestedId file (readControlFile_eq_ok_iff.mp hread).2
      cases hl : file.lifecycle with
      | greenfield => exact .inl (reconcile_eq_self (.inr (.inr ⟨file, hread, .inl hl⟩)))
      | tombstoned => exact .inl (reconcile_eq_self (.inr (.inr ⟨file, hread, .inr hl⟩)))
      | brownfield => exact .inr ⟨file, hreturned, hread, hid, .inl hl⟩
      | partiallyPushed => exact .inr ⟨file, hreturned, hread, hid, .inr hl⟩

lemma reconcile_of_ok (hfiled : disk.Filed p.dir)
    (h : reconcile disk answer requestedId p = .ok p') :
    p' = p ∨ ∃ file, readControlFile disk p.dir requestedId = .ok (some file) ∧
      file.id = requestedId ∧ requestedId ∉ returnedIds answer ∧
      p' = ⟨disk.store p.dir { file with lifecycle := .tombstoned },
        p.composed ++ [{ file with lifecycle := .tombstoned }]⟩ := by
  by_cases hreturned : requestedId ∈ returnedIds answer
  · rw [reconcile_eq_self (.inl hreturned)] at h
    exact .inl (Except.ok.inj h).symm
  · cases hreadable : readable disk p.dir requestedId with
    | false =>
      obtain ⟨e, he⟩ := readControlFile_of_not_readable hreadable
      simp [reconcile, hreturned, he] at h
    | true =>
      rcases reconcile_cases hreadable hfiled with hself | ⟨file, hmissing, hread, hid, hl⟩
      · rw [hself] at h
        exact .inl (Except.ok.inj h).symm
      · rw [reconcile_eq hmissing hread hid hl] at h
        exact .inr ⟨file, hread, hid, hmissing, (Except.ok.inj h).symm⟩

lemma load_store_of_ne {s : S} {j : String} (hj : j ≠ file.id) : disk.load (disk.store s file) j = disk.load s j := by
  rw [disk.load_store, if_neg fun h => hj h.symm]

lemma readable_store {s : S} (hsafe : assertSafeControlId file.id = .ok ()) :
    readable disk (disk.store s file) file.id = true := by
  rw [readable_iff, readControlFile_store hsafe, if_pos rfl]
  exact ⟨_, rfl⟩

lemma visits_pullRow : Visits disk (pullRow disk now answer) fun row => row.named.map Prod.fst where
  skip row p h := by
    have hnamed : row.named = none := by simpa using h
    simp [pullRow, hnamed]
  stop row p i h hi := by
    obtain ⟨⟨id, name⟩, hnamed, rfl⟩ := map_eq_some_iff.mp h
    obtain ⟨e, he⟩ := readControlFile_of_not_readable hi
    exact ⟨e, by simp only [pullRow, hnamed, he]⟩
  visit row p i h hi hfiled := by
    obtain ⟨⟨id, name⟩, hnamed, rfl⟩ := map_eq_some_iff.mp h
    obtain ⟨existing, hread⟩ := readable_iff.mp hi
    refine ⟨_, pullRow_eq hnamed hread, ?_, ?_, hfiled.store _⟩
    · exact fun j hj => load_store_of_ne hj
    · have hsafe := (readControlFile_eq_ok_iff.mp hread).1
      exact readable_store hsafe

lemma visits_reconcile :
    Visits disk (reconcile disk answer)
      fun i => if i ∈ returnedIds answer then none else some i where
  skip requestedId p h := by
    have hreturned : requestedId ∈ returnedIds answer := by simpa using h
    exact reconcile_eq_self (.inl hreturned)
  stop requestedId p i h hi := by
    split_ifs at h with hreturned
    obtain rfl : requestedId = i := by simpa using h
    obtain ⟨e, he⟩ := readControlFile_of_not_readable hi
    exact ⟨e, by simp [reconcile, hreturned, he]⟩
  visit requestedId p i h hi hfiled := by
    split_ifs at h with hreturned
    obtain rfl : requestedId = i := by simpa using h
    rcases reconcile_cases hi hfiled with hself | ⟨file, hmissing, hread, rfl, hl⟩
    · exact ⟨p, hself, fun _ _ => rfl, hi, hfiled⟩
    · refine ⟨_, reconcile_eq hmissing hread rfl hl, ?_, ?_, hfiled.store _⟩
      · exact fun j hj => load_store_of_ne hj
      · have hsafe := (readControlFile_eq_ok_iff.mp hread).1
        exact readable_store hsafe

end

/-! ## The whole pull -/

section

variable {disk : Disk S J} {env : PullEnvironment J} {controlIds : List String} {s : S}
variable {answer : PullAnswer J}

lemma pullControls_of_none (h : pullAnswer? env controlIds = none) : (pullControls disk env controlIds s).1 = s := by
  unfold pullAnswer? at h
  unfold pullControls
  split_ifs at h ⊢ with hids
  · rfl
  · cases hfetched : env.fetched with
    | error message => rfl
    | ok answer => simp [hfetched, Except.toOption] at h

/-- With an answer, the rows come first; the missing ids are looked at if no row has failed. -/
lemma pullControls_of_some (h : pullAnswer? env controlIds = some answer) :
    (pullControls disk env controlIds s).1 =
      if (pullRows disk env.now answer s).2 = none then
        (perform (reconcile disk answer) controlIds (pullRows disk env.now answer s).1).1.dir
      else (pullRows disk env.now answer s).1.dir := by
  unfold pullAnswer? at h
  split_ifs at h with hids
  have hfetched : env.fetched = .ok answer := by
    cases hfetched : env.fetched with
    | error message => simp [hfetched, Except.toOption] at h
    | ok answer' =>
      obtain rfl : answer' = answer := by simpa [hfetched, Except.toOption] using h
      rfl
  unfold pullControls
  rw [if_neg hids]
  simp only [hfetched]
  match pullRows disk env.now answer s with
  | (p, some e) => rfl
  | (p, none) =>
    simp only [if_true]
    match perform (reconcile disk answer) controlIds p with
    | (p', some e) | (p', none) => rfl

/-- The first loop: it gets to its end when every returned control is readable, and it changes
nothing about which files are. -/
lemma pullRows_spec {now : Timestamp} (hfiled : disk.Filed s) :
    ((pullRows disk now answer s).2 = none ↔ (namedIds answer).all (readable disk s) = true) ∧
      readable disk (pullRows disk now answer s).1.dir = readable disk s ∧
      disk.Filed (pullRows disk now answer s).1.dir :=
  ⟨visits_pullRow.perform_eq_none_iff answer.metadata hfiled,
    visits_pullRow.perform_invariant answer.metadata hfiled⟩

lemma load_pullRows {now : Timestamp} {id : String} (hfiled : disk.Filed s)
    (hid : id ∉ (namedIds answer).takeWhile (readable disk s)) :
    disk.load (pullRows disk now answer s).1.dir id = disk.load s id :=
  visits_pullRow.load_perform answer.metadata hfiled hid

/-- The invariant rule for pulls. -/
lemma pullControls_induction {P : S → Prop} (hfiled : disk.Filed s) (hs : P s)
    (hrow : ∀ now answer row (p p' : Progress S J), pullRow disk now answer row p = .ok p' → P p.dir → P p'.dir)
    (hround : ∀ answer requestedId (p p' : Progress S J), disk.Filed p.dir →
      reconcile disk answer requestedId p = .ok p' → P p.dir → P p'.dir) :
    P (pullControls disk env controlIds s).1 := by
  cases hanswer : pullAnswer? env controlIds with
  | none =>
    rw [pullControls_of_none hanswer]
    exact hs
  | some answer =>
    rw [pullControls_of_some hanswer]
    have hrows : P (pullRows disk env.now answer s).1.dir :=
      perform_induction (P := fun p => P p.dir) hs fun row _ p p' => hrow env.now answer row p p'
    split_ifs
    · have hfiled' : disk.Filed (pullRows disk env.now answer s).1.dir := (pullRows_spec hfiled).2.2
      refine (perform_induction (P := fun p : Progress S J => disk.Filed p.dir ∧ P p.dir)
        ⟨hfiled', hrows⟩ ?_).2
      rintro requestedId - p p' hp ⟨hfiled, hP⟩
      exact ⟨(visits_reconcile.of_ok hfiled hp).2, hround answer requestedId p p' hfiled hp hP⟩
    · exact hrows

lemma filterMap_missing (controlIds : List String) :
    (controlIds.filterMap fun i => if i ∈ returnedIds answer then none else some i) =
      controlIds.filter (· ∉ returnedIds answer) := by
  induction controlIds with
  | nil => rfl
  | cons i controlIds ih =>
    by_cases hi : i ∈ returnedIds answer
    all_goals simp [hi, ih]

lemma namedIds_subset_returnedIds : namedIds answer ⊆ returnedIds answer := by
  intro id hid
  obtain ⟨row, hrow, hnamed⟩ := mem_filterMap.mp hid
  refine mem_filterMap.mpr ⟨row, hrow, ?_⟩
  unfold PulledControl.named at hnamed
  split at hnamed
  next id' name hid' _ =>
    rw [hid']
    simpa using hnamed
  next => simp at hnamed

variable {id : String} {file : ControlFile J}

lemma notMem_pulledIds_of_mem_missingIds (h : id ∈ missingIds disk env controlIds s) :
    id ∉ pulledIds disk env controlIds s := by
  unfold missingIds at h
  unfold pulledIds
  cases hanswer : pullAnswer? env controlIds with
  | none => simp
  | some answer =>
    simp only [hanswer] at h ⊢
    split_ifs at h with hall
    · intro hpulled
      have hreturned := namedIds_subset_returnedIds ((takeWhile_sublist _).subset hpulled)
      have hmissing := (takeWhile_sublist _).subset h
      simp only [mem_filter, decide_eq_true_eq] at hmissing
      exact hmissing.2 hreturned
    · simp at h

lemma load_pullControls (hfiled : disk.Filed s) (hpulled : id ∉ pulledIds disk env controlIds s)
    (hmissing : id ∉ missingIds disk env controlIds s) :
    disk.load (pullControls disk env controlIds s).1 id = disk.load s id := by
  unfold pulledIds at hpulled
  unfold missingIds at hmissing
  cases hanswer : pullAnswer? env controlIds with
  | none => rw [pullControls_of_none hanswer]
  | some answer =>
    simp only [hanswer] at hpulled hmissing
    rw [pullControls_of_some hanswer]
    have hrows : disk.load (pullRows disk env.now answer s).1.dir id = disk.load s id :=
      load_pullRows hfiled hpulled
    obtain ⟨hend, hreadable, hfiled'⟩ : ((pullRows disk env.now answer s).2 = none ↔ _) ∧ _ ∧ _ :=
      pullRows_spec hfiled
    split_ifs with hnone
    · rw [visits_reconcile.load_perform controlIds hfiled' ?_, hrows]
      rw [if_pos (hend.mp hnone)] at hmissing
      rw [filterMap_missing, hreadable]
      exact hmissing
    · exact hrows

lemma load_perform_reconcile_of_tombstoned (ids : List String) {p : Progress S J}
    (hfiled : disk.Filed p.dir)
    (hload : disk.load p.dir id = .ok (some { file with lifecycle := .tombstoned })) :
    disk.load (perform (reconcile disk answer) ids p).1.dir id =
      .ok (some { file with lifecycle := .tombstoned }) := by
  let P : Progress S J → Prop := fun p => disk.Filed p.dir ∧
    disk.load p.dir id = .ok (some { file with lifecycle := .tombstoned })
  refine (perform_induction (P := P) ⟨hfiled, hload⟩ ?_).2
  rintro i - q q' hq ⟨hfiled, hload⟩
  refine ⟨(visits_reconcile.of_ok hfiled hq).2, ?_⟩
  rcases reconcile_of_ok hfiled hq with rfl | ⟨file', hread, hid, -, rfl⟩
  · exact hload
  · rw [disk.load_store]
    split_ifs with hi
    · -- the same file, tombstoned again
      have hload' := (readControlFile_eq_ok_iff.mp hread).2
      have hid' : i = id := hid.symm.trans hi
      rw [hid', hload] at hload'
      obtain rfl : { file with lifecycle := .tombstoned } = file' := by simpa using hload'
      rfl
    · exact hload

/-- The second loop tombstones what it gets to. -/
lemma load_perform_reconcile (ids : List String) (p : Progress S J) (hfiled : disk.Filed p.dir)
    (hid : id ∈ (ids.filter (· ∉ returnedIds answer)).takeWhile (readable disk p.dir))
    (hload : disk.load p.dir id = .ok (some file))
    (hl : file.lifecycle = .brownfield ∨ file.lifecycle = .partiallyPushed) :
    disk.load (perform (reconcile disk answer) ids p).1.dir id =
      .ok (some { file with lifecycle := .tombstoned }) := by
  induction ids generalizing p with
  | nil => simp at hid
  | cons i ids ih =>
    by_cases hreturned : i ∈ returnedIds answer
    · simp only [perform, reconcile_eq_self (.inl hreturned)]
      exact ih p hfiled (by simpa [hreturned] using hid) hload
    · have hi : readable disk p.dir i = true := by
        by_contra hi
        simp [hreturned, hi] at hid
      by_cases heq : i = id
      · -- here it is tombstoned, and it stays so
        subst heq
        obtain ⟨file?, hread⟩ := readable_iff.mp hi
        have hload' := (readControlFile_eq_ok_iff.mp hread).2
        cases hload.symm.trans hload'
        simp only [perform, reconcile_eq hreturned hread (hfiled i file hload) hl]
        exact load_perform_reconcile_of_tombstoned ids (hfiled.store _)
          (by rw [disk.load_store, if_pos (hfiled i file hload)])
      · rcases visits_reconcile.step i hfiled with ⟨j, e, hj, hfalse, -⟩ | ⟨p', hp', hother, hreadable, -, hfiled'⟩
        · rw [if_neg hreturned] at hj
          obtain rfl : i = j := by simpa using hj
          simp [hi] at hfalse
        · simp only [perform, hp']
          refine ih p' hfiled' ?_ ?_
          · rw [hreadable]
            simpa [hreturned, hi, Ne.symm heq] using hid
          · rw [hother id (by simpa [hreturned] using heq), hload]

lemma load_pullControls_of_missing (hfiled : disk.Filed s)
    (hmissing : id ∈ missingIds disk env controlIds s)
    (hload : disk.load s id = .ok (some file))
    (hl : file.lifecycle = .brownfield ∨ file.lifecycle = .partiallyPushed) :
    disk.load (pullControls disk env controlIds s).1 id =
      .ok (some { file with lifecycle := .tombstoned }) := by
  have hpulled := notMem_pulledIds_of_mem_missingIds hmissing
  unfold pulledIds at hpulled
  unfold missingIds at hmissing
  cases hanswer : pullAnswer? env controlIds with
  | none => simp [hanswer] at hmissing
  | some answer =>
    simp only [hanswer] at hpulled hmissing
    have hrows : disk.load (pullRows disk env.now answer s).1.dir id = disk.load s id :=
      load_pullRows hfiled hpulled
    obtain ⟨hend, hreadable, hfiled'⟩ : ((pullRows disk env.now answer s).2 = none ↔ _) ∧ _ ∧ _ :=
      pullRows_spec hfiled
    split_ifs at hmissing with hall
    · rw [pullControls_of_some hanswer, if_pos (hend.mpr hall)]
      refine load_perform_reconcile controlIds _ hfiled' ?_ (hrows.trans hload) hl
      rw [hreadable]
      exact hmissing
    · simp at hmissing

end

/-! ## Recorded edits -/

/-- The entry with the same unpushed work. -/
structure SameEdit (entry entry' : ControlFileClassEntry J) : Prop where
  classId : entry'.classId = entry.classId
  attributes : entry'.attributes = entry.attributes
  pendingEdit : entry'.pendingEdit = entry.pendingEdit
  localEditedAt : entry'.localEditedAt = entry.localEditedAt

/-- The entry that a lookup of the class finds in the file has the edit of `entry`. -/
def HoldsEdit (entry : ControlFileClassEntry J) (file : ControlFile J) : Prop :=
  ∃ entry', existingClass (some file) entry.classId = some entry' ∧ SameEdit entry entry'

section

variable {disk : Disk S J} {entry entry' : ControlFileClassEntry J} {file : ControlFile J}
variable {attrs : Record String (Attributes J)} {controlClasses : List PulledClass}

lemma holdsEdit_of_mem (hone : file.OneEntryPerClass) (h : entry ∈ file.classes) : HoldsEdit entry file := by
  obtain ⟨found, hfound⟩ : ∃ found, existingClass (some file) entry.classId = some found := by
    rw [← isSome_iff_exists]
    simpa [existingClass] using ⟨entry, h, rfl⟩
  have hmem : found ∈ file.classes := mem_of_find?_eq_some hfound
  have hid : found.classId = entry.classId := by
    simpa using find?_some hfound
  obtain rfl : found = entry := inj_on_of_nodup_map hone hmem h hid
  exact ⟨found, hfound, rfl, rfl, rfl, rfl⟩

lemma sameEdit_pulledEntry {cc : PulledClass} (hcc : cc.id = entry'.classId)
    (hfound : existingClass (some file) entry'.classId = some entry')
    (hedit : entry'.pendingEdit.isSome) : SameEdit entry' (pulledEntry (some file) attrs cc) := by
  have hfound' : existingClass (some file) cc.id = some entry' := by rw [hcc]; exact hfound
  refine ⟨hcc, ?_, ?_, ?_⟩
  all_goals simp [pulledEntry, hfound', filter_some_pos, hedit]

lemma sameEdit_carriedEntry : SameEdit entry (carriedEntry entry) :=
  ⟨rfl, rfl, rfl, rfl⟩

lemma SameEdit.trans {a b c : ControlFileClassEntry J} (h : SameEdit a b) (h' : SameEdit b c) : SameEdit a c :=
  ⟨h'.classId.trans h.classId, h'.attributes.trans h.attributes,
    h'.pendingEdit.trans h.pendingEdit, h'.localEditedAt.trans h.localEditedAt⟩

/-- A rebuilt class list has the recorded edits of the file: those of returned classes are merged,
the others carried over. -/
lemma exists_find?_pulledClasses (hfound : existingClass (some file) entry'.classId = some entry')
    (hedit : entry'.pendingEdit.isSome) :
    ∃ entry'', (pulledClasses (some file) attrs controlClasses).find?
        (fun e => e.classId = entry'.classId) = some entry'' ∧ SameEdit entry' entry'' := by
  let byClass : PulledClass → Bool := fun cc => cc.id = entry'.classId
  have hmerged : (controlClasses.map (pulledEntry (some file) attrs)).find?
      (fun e => e.classId = entry'.classId) =
        (controlClasses.find? byClass).map (pulledEntry (some file) attrs) := find?_map
  cases hcc : controlClasses.find? byClass with
  | some cc =>
    have hid : cc.id = entry'.classId := by simpa [byClass] using find?_some hcc
    refine ⟨pulledEntry (some file) attrs cc, ?_, sameEdit_pulledEntry hid hfound hedit⟩
    simp [pulledClasses, hmerged, hcc]
  | none =>
    have hgone : entry'.classId ∉ controlClasses.map (·.id) := by
      simpa [byClass] using hcc
    refine ⟨carriedEntry entry', ?_, sameEdit_carriedEntry⟩
    -- the entry is the first of its class, and it passes the filter
    obtain ⟨-, before, after, hclasses, hbefore⟩ := find?_eq_some_iff_append.mp hfound
    have hcarried : (file.classes.filter fun e =>
        e.pendingEdit.isSome && e.classId ∉ controlClasses.map (·.id)).find?
          ((fun e => decide (e.classId = entry'.classId)) ∘ carriedEntry) = some entry' := by
      rw [find?_filter, find?_eq_some_iff_append]
      refine ⟨by simp [carriedEntry, hedit, hgone], before, after, hclasses, fun e he => ?_⟩
      have hne : e.classId ≠ entry'.classId := by simpa using hbefore e he
      simp [carriedEntry, hne]
    rw [pulledClasses, find?_append, hmerged, hcc, map_none, none_or, carriedOver,
      find?_map, map_some, getD_some, hcarried, map_some]

/-- The control file of `id` is there with the given edits. -/
def EditsOnDisk (disk : Disk S J) (edits : List (ControlFileClassEntry J)) (id : String) (s : S) :
    Prop :=
  ∃ file, readControlFile disk s id = .ok (some file) ∧ ∀ entry ∈ edits, HoldsEdit entry file

variable {edits : List (ControlFileClassEntry J)}
variable {now : Timestamp} {answer : PullAnswer J} {p p' : Progress S J} {id : String}

lemma EditsOnDisk.store {s : S} (h : EditsOnDisk disk edits id s) (hsafe : assertSafeControlId file.id = .ok ())
    (hkeep : ∀ existing, readControlFile disk s file.id = .ok (some existing) →
      ∀ entry ∈ edits, HoldsEdit entry existing → HoldsEdit entry file) :
    EditsOnDisk disk edits id (disk.store s file) := by
  obtain ⟨existing, hread, hholds⟩ := h
  by_cases hid : file.id = id
  · refine ⟨file, ?_, fun entry hentry => ?_⟩
    · rw [readControlFile_store hsafe, if_pos hid]
    · rw [← hid] at hread
      exact hkeep existing hread entry hentry (hholds entry hentry)
  · refine ⟨existing, ?_, hholds⟩
    rw [readControlFile_store hsafe, if_neg hid]
    exact hread

lemma holdsEdit_pulledFile {id name : String} (hedit : entry.pendingEdit.isSome) (h : HoldsEdit entry file) :
    HoldsEdit entry (pulledFile now answer (some file) id name controlClasses) := by
  obtain ⟨entry', hfound, hsame⟩ := h
  rw [← hsame.classId] at hfound
  have hedit' : entry'.pendingEdit.isSome := by rw [hsame.pendingEdit]; exact hedit
  obtain ⟨entry'', hfind, hsame'⟩ : ∃ entry'',
      (pulledFile now answer (some file) id name controlClasses).classes.find?
        (fun e => e.classId = entry'.classId) = some entry'' ∧ SameEdit entry' entry'' :=
    exists_find?_pulledClasses hfound hedit'
  rw [hsame.classId] at hfind
  exact ⟨entry'', hfind, hsame.trans hsame'⟩

lemma editsOnDisk_pullRow {row : PulledControl} (hedits : ∀ entry ∈ edits, entry.pendingEdit.isSome)
    (hrow : pullRow disk now answer row p = .ok p') (h : EditsOnDisk disk edits id p.dir) :
    EditsOnDisk disk edits id p'.dir := by
  cases hnamed : row.named with
  | none =>
    obtain rfl : p = p' := by simpa [pullRow, hnamed] using hrow
    exact h
  | some idName =>
    obtain ⟨rowId, name⟩ := idName
    cases hread : readControlFile disk p.dir rowId with
    | error e => simp [pullRow, hnamed, hread] at hrow
    | ok existing =>
      rw [pullRow_eq hnamed hread] at hrow
      cases hrow
      apply h.store (readControlFile_eq_ok_iff.mp hread).1
      intro file hfile entry hentry hholds
      obtain rfl : existing = some file := Except.ok.inj (hread.symm.trans hfile)
      exact holdsEdit_pulledFile (hedits entry hentry) hholds

lemma editsOnDisk_reconcile {requestedId : String} (hfiled : disk.Filed p.dir)
    (hround : reconcile disk answer requestedId p = .ok p') (h : EditsOnDisk disk edits id p.dir) :
    EditsOnDisk disk edits id p'.dir := by
  rcases reconcile_of_ok hfiled hround with rfl | ⟨file, hread, rfl, -, rfl⟩
  · exact h
  · refine h.store (readControlFile_eq_ok_iff.mp hread).1 ?_
    intro existing hexisting entry _ hholds
    -- only the lifecycle is new
    obtain rfl : file = existing := by simpa using hread.symm.trans hexisting
    exact hholds

/-- Recorded edits survive a pull, wherever the pull stops. -/
theorem editsOnDisk_pullControls {env : PullEnvironment J} {controlIds : List String} {s : S}
    (hfiled : disk.Filed s) (hedits : ∀ entry ∈ edits, entry.pendingEdit.isSome) (h : EditsOnDisk disk edits id s) :
    EditsOnDisk disk edits id (pullControls disk env controlIds s).1 := by
  refine pullControls_induction hfiled h ?_ ?_
  · exact fun now answer row p p' hrow => editsOnDisk_pullRow hedits hrow
  · exact fun answer requestedId p p' hfiled hround => editsOnDisk_reconcile hfiled hround

end

/-! ## Unpushed work -/

/-- Every recorded edit of `file` is in `file'`. -/
def KeepsPendingEdits (file file' : ControlFile J) : Prop :=
  ∀ entry ∈ file.classes, entry.pendingEdit ≠ none → ∃ entry' ∈ file'.classes, SameEdit entry entry'

/-- Every entry of `file` that the platform has not acknowledged has its attributes in `file'`. -/
def KeepsUnacknowledged (file file' : ControlFile J) : Prop :=
  ∀ entry ∈ file.classes, acknowledged entry = false →
    ∃ entry' ∈ file'.classes, entry'.classId = entry.classId ∧ entry'.attributes = entry.attributes

/-- Nothing that waits for a push is lost between `file` and the directory `s'`: neither recorded
edits nor the rest of an interrupted push. -/
def KeepsLocalWork (disk : Disk S J) (s' : S) (id : String) (file : ControlFile J) : Prop :=
  ∃ file', readControlFile disk s' id = .ok (some file') ∧ KeepsPendingEdits file file' ∧
    (file.lifecycle = .partiallyPushed → KeepsUnacknowledged file file' ∧ Resumes disk s' file')

section

variable {disk : Disk S J} {s s' : S} {id : String} {file : ControlFile J}

/-- A file that is not `partially-pushed` any more has lost its interrupted push. -/
lemma not_keepsLocalWork {file' : ControlFile J}
    (hread : readControlFile disk s' id = .ok (some file')) (hid : file'.id = id)
    (hl : file.lifecycle = .partiallyPushed) (hl' : file'.lifecycle = .brownfield ∨ file'.lifecycle = .tombstoned) :
    ¬ KeepsLocalWork disk s' id file := by
  rintro ⟨file'', hread'', -, h⟩
  obtain rfl : file' = file'' := by simpa using hread.symm.trans hread''
  have hsafe : assertSafeControlId file'.id = .ok () := by
    rw [hid]
    exact (readControlFile_eq_ok_iff.mp hread).1
  have hresumes := (h hl).2
  rcases hl' with hl' | hl'
  all_goals
    rw [resumes_iff hsafe (by simp [hl']), hl'] at hresumes
    cases hresumes

/-- A pull keeps every recorded edit. The file of an interrupted push that is not rebuilt keeps
what the platform has not acknowledged, and it can be resumed unless the platform has lost the
control. -/
theorem pull_keeps_local_work (env : PullEnvironment J) (controlIds : List String)
    (hfiled : disk.Filed s) (hread : readControlFile disk s id = .ok (some file))
    (hone : file.OneEntryPerClass) :
    ∃ file', readControlFile disk (pullControls disk env controlIds s).1 id = .ok (some file') ∧
      KeepsPendingEdits file file' ∧
      (file.lifecycle = .partiallyPushed → id ∉ pulledIds disk env controlIds s →
        KeepsUnacknowledged file file' ∧
          (Resumes disk (pullControls disk env controlIds s).1 file' ↔
            id ∉ missingIds disk env controlIds s)) := by
  obtain ⟨hsafe, hload⟩ := readControlFile_eq_ok_iff.mp hread
  have hid : file.id = id := hfiled id file hload
  let edits := file.classes.filter fun entry => entry.pendingEdit.isSome
  have hedits : EditsOnDisk disk edits id s :=
    ⟨file, hread, fun entry hentry => holdsEdit_of_mem hone (mem_of_mem_filter hentry)⟩
  obtain ⟨file', hread', hholds⟩ : EditsOnDisk disk edits id
      (pullControls disk env controlIds s).1 :=
    editsOnDisk_pullControls hfiled (fun entry hentry => by simpa using of_mem_filter hentry) hedits
  refine ⟨file', hread', ?_, ?_⟩
  · intro entry hentry hpending
    have hmem : entry ∈ edits :=
      mem_filter.mpr ⟨hentry, by simpa [isSome_iff_ne_none] using hpending⟩
    obtain ⟨entry', hfound, hsame⟩ := hholds entry hmem
    exact ⟨entry', mem_of_find?_eq_some hfound, hsame⟩
  · intro hl hpulled
    have hload' := (readControlFile_eq_ok_iff.mp hread').2
    by_cases hmissing : id ∈ missingIds disk env controlIds s
    · -- tombstoned, with its entries
      rw [load_pullControls_of_missing hfiled hmissing hload (.inr hl)] at hload'
      obtain rfl : { file with lifecycle := .tombstoned } = file' := by simpa using hload'
      refine ⟨fun entry hentry _ => ⟨entry, hentry, rfl, rfl⟩, ?_⟩
      rw [resumes_iff (by rw [← hid] at hsafe; exact hsafe) (by simp)]
      simp [hmissing]
    · rw [load_pullControls hfiled hpulled hmissing, hload] at hload'
      obtain rfl : file = file' := by simpa using hload'
      refine ⟨fun entry hentry _ => ⟨entry, hentry, rfl, rfl⟩, ?_⟩
      rw [resumes_iff (by rw [hid]; exact hsafe) (by simp [hl])]
      simp [hmissing, hl]

end

/-- A control with two classes that has not been pushed yet. -/
def draft : ControlFile ℕ where
  id := "greenfield-1"
  name := "access control"
  source := .declared
  lifecycle := .greenfield
  classes :=
    [⟨"iam", none, none, .ofList [("mfa", .value 1)], none, some 5, none, none⟩,
      ⟨"log", none, none, .ofList [("retention", .value 30)], none, some 5, none, none⟩]
  platformState := none

/-- The platform creates the control and accepts the first class but not the second. -/
def interruption : Greenfield.Environment where
  created := .answered (some "c-1")
  set i := .answered ⟨i = 0, none⟩
  assigned := .answered true
  clock _ := 10

/-- The files after the interrupted push. -/
def interrupted : Record String (ControlFile ℕ) :=
  (worldAfter (pushGreenfieldControl (recordDisk ℕ) interruption ⟨[], none, []⟩ draft ⟨∅, []⟩)).dir

def interruptedFile : ControlFile ℕ :=
  { draft with
    id := "c-1"
    lifecycle := .partiallyPushed
    classes := draft.classes.mapIdx fun i entry => if i = 0 then acknowledge 10 entry else entry }

/-- The platform returns the control, with the classes it was created with. -/
def returnedAnswer : PullEnvironment ℕ where
  fetched := .ok
    { metadata := [⟨some "c-1", some "access control",
        some [⟨"iam", none, none⟩, ⟨"log", none, none⟩]⟩]
      instantiationRows := [⟨"c-1", some "iam", some (.ofList [("mfa", .value 1)])⟩,
        ⟨"c-1", some "log", none⟩]
      assignedModels := ∅ }
  now := 20

/-- The platform does not have the control. -/
def missingAnswer : PullEnvironment ℕ where
  fetched := .ok ⟨[], [], ∅⟩
  now := 20

/-- The control once it is pushed, with an edit of a value and a first write. -/
def editedFile : ControlFile ℕ :=
  { interruptedFile with
    lifecycle := .brownfield
    classes := interruptedFile.classes.map fun entry =>
      { entry with pendingEdit := some ⟨.agent, 15, .ofList [("mfa", .value 0)], some ["retention"]⟩ } }

/-- A pull that rebuilds the file keeps its edits, and a pull of another control leaves the interrupted push as it
is. -/
theorem pull_keeps_local_work_sample :
    (∃ file', readControlFile (recordDisk ℕ) (pullControls (recordDisk ℕ) returnedAnswer ["c-1"]
        ((recordDisk ℕ).store ∅ editedFile)).1 "c-1" = .ok (some file') ∧
      KeepsPendingEdits editedFile file' ∧ file' ≠ editedFile) ∧
    ∃ file', readControlFile (recordDisk ℕ) (pullControls (recordDisk ℕ) missingAnswer ["c-2"]
        ((recordDisk ℕ).store ∅ interruptedFile)).1 "c-1" = .ok (some file') ∧
      KeepsUnacknowledged interruptedFile file' ∧
      Resumes (recordDisk ℕ) (pullControls (recordDisk ℕ) missingAnswer ["c-2"]
        ((recordDisk ℕ).store ∅ interruptedFile)).1 file' := by
  have hread : ∀ file : ControlFile ℕ, file = editedFile ∨ file = interruptedFile →
      readControlFile (recordDisk ℕ) ((recordDisk ℕ).store ∅ file) "c-1" = .ok (some file) ∧
        file.OneEntryPerClass := by
    rintro file (rfl | rfl) <;> exact ⟨by decide +kernel, show (_ : List String).Nodup by decide +kernel⟩
  have hfiled := (filed_recordDisk_empty ℕ).store
  constructor
  · obtain ⟨hread, hone⟩ := hread editedFile (.inl rfl)
    obtain ⟨file', hread', hedits, -⟩ := pull_keeps_local_work returnedAnswer ["c-1"] (hfiled _) hread hone
    refine ⟨file', hread', hedits, ?_⟩
    rintro rfl
    exact absurd hread' (by decide +kernel)
  · obtain ⟨hread, hone⟩ := hread interruptedFile (.inr rfl)
    obtain ⟨file', hread', -, h⟩ := pull_keeps_local_work missingAnswer ["c-2"] (hfiled _) hread hone
    obtain ⟨hunacknowledged, hresumes⟩ := h rfl (by decide +kernel)
    exact ⟨file', hread', hunacknowledged, hresumes.mpr (by decide +kernel)⟩

/-- The next pull of a control whose push was interrupted. Where the platform has lost the control
its file is tombstoned; where the platform returns it the file counts as `brownfield`, without the
attributes that were never sent. Neither file can be resumed. -/
theorem pull_strands_interrupted_push :
    readControlFile (recordDisk ℕ) interrupted "c-1" = .ok (some interruptedFile) ∧
      ¬ KeepsLocalWork (recordDisk ℕ)
        (pullControls (recordDisk ℕ) missingAnswer ["c-1"] interrupted).1 "c-1" interruptedFile ∧
      ¬ KeepsLocalWork (recordDisk ℕ)
        (pullControls (recordDisk ℕ) returnedAnswer ["c-1"] interrupted).1 "c-1"
          interruptedFile := by
  refine ⟨by decide +kernel, ?_, ?_⟩
  · have hread : readControlFile (recordDisk ℕ)
        (pullControls (recordDisk ℕ) missingAnswer ["c-1"] interrupted).1 "c-1" =
          .ok (some { interruptedFile with lifecycle := .tombstoned }) := by decide +kernel
    exact not_keepsLocalWork hread rfl rfl (.inr rfl)
  · have hread : readControlFile (recordDisk ℕ)
        (pullControls (recordDisk ℕ) returnedAnswer ["c-1"] interrupted).1 "c-1" =
          .ok (some
            { interruptedFile with
              lifecycle := .brownfield
              classes :=
                [⟨"iam", none, none, .ofList [("mfa", .value 1)],
                    some (.ofList [("mfa", .value 1)]), none, some 10, none⟩,
                  ⟨"log", none, none, ∅, some ∅, none, none, none⟩]
              platformState := some ⟨some 20, none, some 0, some []⟩ }) := by decide +kernel
    exact not_keepsLocalWork hread rfl rfl (.inl rfl)

end ControlLibrary.Pull
