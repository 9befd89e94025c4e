import Dethernety.Foundations.Script
import Dethernety.ModuleInstall.BootInstall

/-!
# What a boot install leaves of the modules

`swap` keeps the copy that it moved aside when it can neither rename the payload in nor put the copy back, but the
sweep at the end of the run takes the staging area with everything in it. An attempt does one of a few things to the
entries at a module and at its backup (`attempted_of_present`, `attempted_of_absent`), and from that a module is
missing after a run exactly when one attempt strands it and no later one lands (`missing_iff`). That is when a boot
install loses something (`nothingLost_iff`).
-/

open List Record Option

namespace ModuleInstall

variable {tools : Tools} {fails : Step → Bool} {d d' : Disk} {name : String}

@[simp] lemma bind_apply {α β : Type} (x : StateM Disk α) (f : α → StateM Disk β) (d : Disk) :
    (x >>= f) d = f (x d).1 (x d).2 := rfl

@[simp] lemma pure_apply {α : Type} (a : α) (d : Disk) : (pure a : StateM Disk α) d = (a, d) := rfl

/-- The stamp of a payload that `checkPayload` accepts. -/
def acceptedStamp (tools : Tools) (fails : Step → Bool) (tree : Tree) : Option Stamp :=
  if fails .statPayload ∨ fails .compute ∨ fails .readStamp then none
  else (tools.compute tree).bind fun computed =>
    ((tree.get? stampFilename).join.bind tools.decodeStamp).filter (·.payloadDigest = computed)

/-- The payload that `stage` extracts and accepts, with the steps that fail. -/
def stagePayload (tools : Tools) (fails : Step → Bool) (archive bundle : Bytes)
    (identity issuer expectedDigest key : String) : Option (Tree × Stamp) :=
  match stageChecks tools archive bundle identity issuer expectedDigest key with
  | .error _ => none
  | .ok () =>
    if fails .clearStaging ∨ fails .extract then none
    else ((tools.unpack archive).bind (·.get? key)).bind fun tree =>
      (acceptedStamp tools fails tree).map (tree, ·)

lemma checkPayload_apply (tools : Tools) (fails : Step → Bool) (key : String) (d : Disk) :
    (checkPayload (diskOps tools fails) key d).2 = d ∧ (checkPayload (diskOps tools fails) key d).1.toOption =
        (d.tree? (.staging key)).bind (acceptedStamp tools fails) := by
  unfold checkPayload
  cases htree : d.tree? (.staging key) with
  | none => simp [diskOps, htree, Except.toOption]
  | some tree =>
    have hread : d.file? (.staging key) stampFilename = (tree.get? stampFilename).join := by
      unfold Disk.file?
      rw [htree, bind_some]
    rw [bind_some, acceptedStamp]
    by_cases hfails : fails .statPayload = true ∨ fails .compute = true ∨ fails .readStamp = true
    · rw [if_pos hfails]
      by_cases hstat : fails .statPayload = true
      · simp [diskOps, hstat, Except.toOption]
      by_cases hcompute : fails .compute = true
      · simp [diskOps, htree, hstat, hcompute, Except.toOption]
      have hstamp : fails .readStamp = true := by simpa [hstat, hcompute] using hfails
      cases hdigest : tools.compute tree <;>
        simp [diskOps, htree, hstat, hcompute, hstamp, hdigest, Except.toOption]
    · rw [if_neg hfails]
      obtain ⟨hstat, hcompute, hstamp⟩ := by simpa using hfails
      cases hdigest : tools.compute tree with
      | none => simp [diskOps, htree, hstat, hcompute, hdigest, Except.toOption]
      | some computed =>
        cases hread' : (tree.get? stampFilename).join.bind tools.decodeStamp with
        | none =>
          simp [diskOps, htree, hstat, hcompute, hstamp, hdigest, hread, hread',
            Except.toOption]
        | some stamp =>
          by_cases hequal : stamp.payloadDigest = computed <;>
            simp [diskOps, htree, hstat, hcompute, hstamp, hdigest, hread, hread', hequal,
              Except.toOption, filter_some]

/-- `stage` touches the staging area of its key only, and it leaves the payload that it accepts there. -/
lemma stage_apply (tools : Tools) (fails : Step → Bool) (archive bundle : Bytes)
    (identity issuer expectedDigest key : String) (d : Disk) :
    (∀ p ≠ Path.staging key,
      (stage (diskOps tools fails) tools archive bundle identity issuer expectedDigest key d).2.get? p = d.get? p) ∧
    match stagePayload tools fails archive bundle identity issuer expectedDigest key with
    | none => ∃ e, (stage (diskOps tools fails) tools archive bundle identity issuer expectedDigest key d).1 = .error e
    | some (tree, stamp) =>
      (stage (diskOps tools fails) tools archive bundle identity issuer expectedDigest key d).1 = .ok stamp ∧
      (stage (diskOps tools fails) tools archive bundle identity issuer expectedDigest key d).2.get? (.staging key) =
        some (.dir tree) := by
  unfold stage stagePayload
  cases hchecks : stageChecks tools archive bundle identity issuer expectedDigest key with
  | error e => exact ⟨fun p _ => rfl, e, rfl⟩
  | ok u =>
    by_cases hclear : fails .clearStaging = true
    · simp [hclear, diskOps]
    have herase : ∀ p ≠ Path.staging key, (Record.erase d (.staging key)).get? p = d.get? p := fun p hp => by
      rw [get?_erase, if_neg hp.symm]
    by_cases hextract : fails .extract = true
    · simpa [hclear, hextract, diskOps] using herase
    cases hunpack : tools.unpack archive with
    | none => simpa [hclear, hextract, hunpack, diskOps] using herase
    | some dirs =>
      -- from here on the directories of the archive are in the staging area
      have hrun : stage (diskOps tools fails) tools archive bundle identity issuer expectedDigest key d =
          checkPayload (diskOps tools fails) key
            (Record.put (Record.erase d (.staging key)) (.staging key) ((dirs.get? key).map .dir)) := by
        simp [stage, hchecks, hclear, hextract, hunpack, diskOps]
      generalize hput : Record.put (Record.erase d (.staging key)) (.staging key) ((dirs.get? key).map .dir) = d₁
        at hrun
      have hstaging : d₁.get? (.staging key) = (dirs.get? key).map .dir := by
        rw [← hput, get?_put, if_pos rfl]
      have hother : ∀ p ≠ Path.staging key, d₁.get? p = d.get? p := fun p hp => by
        rw [← hput, get?_put, if_neg hp.symm, herase p hp]
      obtain ⟨hdisk, hstamp⟩ := checkPayload_apply tools fails key d₁
      rw [Disk.tree?_of_dir hstaging] at hstamp
      unfold stage at hrun
      rw [hchecks] at hrun
      rw [hrun, hdisk]
      refine ⟨hother, ?_⟩
      rw [if_neg (by simp [hclear, hextract]), bind_some]
      cases htree : dirs.get? key with
      | none =>
        rw [htree, bind_none] at hstamp
        exact Except.exists_error_of_toOption hstamp
      | some tree =>
        rw [htree, bind_some] at hstamp
        rw [htree, map_some] at hstaging
        rw [bind_some]
        cases haccepted : acceptedStamp tools fails tree with
        | none =>
          rw [haccepted] at hstamp
          exact Except.exists_error_of_toOption hstamp
        | some stamp =>
          rw [haccepted] at hstamp
          exact ⟨Except.eq_ok_of_toOption hstamp, hstaging⟩

/-! ## The swap -/

/-- What the second half of `swap` makes of the entries at the target and at the backup. -/
def renamedIn (fails : Step → Bool) (tree : Tree) (movedAside : Bool) (present kept : Option Entry) :
    Option Entry × Option Entry :=
  if !fails .renameIn && present.all (Entry.dir tree).replaces then
    (some (.dir tree), if fails .clearBackup then kept else none)
  else if movedAside && !fails .restore then (kept, none)
  else (present, kept)

/-- What `swap` makes of them. -/
def swapped (fails : Step → Bool) (tree : Tree) (present stale : Option Entry) : Option Entry × Option Entry :=
  let stale := if fails .clearStale then stale else none
  match if fails .lstatTarget then none else present with
  | some entry =>
    if !fails .moveAside && stale.all entry.replaces then renamedIn fails tree true none (some entry)
    else (present, stale)
  | none => renamedIn fails tree false present stale

lemma removeAll_apply (step : Step) (p : Path) (d : Disk) :
    (diskOps tools fails).removeAll step p d = if fails step then (false, d) else (true, Record.erase d p) := rfl

lemma lstat_apply (step : Step) (p : Path) (d : Disk) :
    (diskOps tools fails).lstat step p d = (if fails step then .failed else d.lstat p, d) := rfl

lemma rename_apply (step : Step) (p q : Path) (d : Disk) :
    (diskOps tools fails).rename step p q d =
      match if fails step then none else d.rename p q with
      | none => (false, d)
      | some d' => (true, d') := rfl

/-- The entries that a swap is about, with those elsewhere as they were. -/
structure Swapping (name : String) (before after : Disk) (entries : Option Entry × Option Entry) : Prop where
  target : after.get? (.moduleDir name) = entries.1
  backup : after.get? (.backup name) = entries.2
  other : ∀ p, p ≠ .moduleDir name → p ≠ .staging name → p ≠ .backup name → after.get? p = before.get? p

/-- A rename that is done leaves nothing at its source. -/
lemma rename_apply_of_get? (tools : Tools) (fails : Step → Bool) (step : Step) (q : Path) {p : Path} {entry : Entry}
    (hp : d.get? p = some entry) :
    ((diskOps tools fails).rename step p q d).1 = (!fails step && (d.get? q).all entry.replaces) ∧
      ∀ r, ((diskOps tools fails).rename step p q d).2.get? r =
        if !fails step && (d.get? q).all entry.replaces then
          if q = r then some entry else if p = r then none else d.get? r
        else d.get? r := by
  rw [rename_apply, Disk.rename, hp]
  cases fails step with
  | true => simp
  | false =>
    by_cases hreplaces : (d.get? q).all entry.replaces = true
    · simp [hreplaces, get?_set, get?_erase]
    · simp [hreplaces]

lemma swapping_renameIn (tools : Tools) (fails : Step → Bool) (ε : Type) {tree : Tree} {movedAside : Bool}
    (hpayload : d.get? (.staging name) = some (.dir tree))
    (hmoved : movedAside = true → d.get? (.moduleDir name) = none ∧ (d.get? (.backup name)).isSome) :
    Swapping name d
      ((renameIn (diskOps tools fails) (.moduleDir name) (.staging name) (.backup name) movedAside :
        StateM Disk (SwapResult ε)) d).2
      (renamedIn fails tree movedAside (d.get? (.moduleDir name)) (d.get? (.backup name))) := by
  obtain ⟨hdone, hget⟩ := rename_apply_of_get? tools fails .renameIn (.moduleDir name) hpayload
  unfold renameIn renamedIn
  rw [bind_apply, hdone]
  generalize ((diskOps tools fails).rename .renameIn (.staging name) (.moduleDir name) d).2 = d₁ at hget
  cases hin : (!fails .renameIn && (d.get? (.moduleDir name)).all (Entry.dir tree).replaces) with
  | true =>
    -- the payload is in place, and the backup is not needed any more
    simp only [hin, if_true] at hget
    simp only [Bool.not_true, Bool.false_eq_true, if_false, if_true, bind_apply, pure_apply, removeAll_apply]
    cases fails .clearBackup with
    | true =>
      exact ⟨by simp [hget], by simp [hget], fun p htarget hstaging _ => by simp [hget, htarget.symm, hstaging.symm]⟩
    | false =>
      exact ⟨by simp [hget, get?_erase], by simp [get?_erase], fun p htarget hstaging hbackup => by
        simp [hget, get?_erase, htarget.symm, hstaging.symm, hbackup.symm]⟩
  | false =>
    simp only [hin, Bool.false_eq_true, if_false] at hget
    simp only [Bool.not_false, Bool.false_eq_true, if_false, if_true]
    cases movedAside with
    | false => exact ⟨hget _, hget _, fun p _ _ _ => hget p⟩
    | true =>
      -- what was moved aside goes back
      obtain ⟨htarget, hkept⟩ := hmoved rfl
      obtain ⟨entry, hentry⟩ := isSome_iff_exists.1 hkept
      obtain ⟨hback, hget'⟩ := rename_apply_of_get? tools fails .restore (.moduleDir name) ((hget _).trans hentry)
      simp only [hget, htarget, all_none, Bool.and_true] at hback hget'
      simp only [if_true, bind_apply, hback]
      cases hrestore : fails .restore with
      | true =>
        simp only [hrestore, Bool.not_true, Bool.false_eq_true, if_false] at hget'
        exact ⟨(hget' _).trans rfl, hget' _, fun p _ _ _ => hget' p⟩
      | false =>
        simp only [hrestore, Bool.not_false, if_true] at hget'
        refine ⟨?_, ?_, fun p htarget' _ hbackup => ?_⟩
        · simpa [hentry] using hget' (.moduleDir name)
        · simpa using hget' (.backup name)
        · simpa [htarget'.symm, hbackup.symm] using hget' p

lemma swapping_swap (tools : Tools) (fails : Step → Bool) (ε : Type) {tree : Tree}
    (hpayload : d.get? (.staging name) = some (.dir tree)) :
    Swapping name d
      ((swap (diskOps tools fails) (.moduleDir name) (.staging name) (.backup name) none :
        StateM Disk (SwapResult ε)) d).2 (swapped fails tree (d.get? (.moduleDir name)) (d.get? (.backup name))) := by
  unfold swap swapped
  dsimp only
  rw [bind_apply]
  have hget : ∀ p, ((diskOps tools fails).removeAll .clearStale (.backup name) d).2.get? p =
      if p = .backup name then (if fails .clearStale then d.get? (.backup name) else none) else d.get? p := by
    intro p
    rw [removeAll_apply]
    split_ifs <;> grind [get?_erase]
  generalize ((diskOps tools fails).removeAll .clearStale (.backup name) d).2 = d₁ at hget
  generalize (if fails .clearStale then d.get? (.backup name) else none) = stale at hget
  have htarget : d₁.get? (.moduleDir name) = d.get? (.moduleDir name) := by rw [hget, if_neg (by simp)]
  have hbackup : d₁.get? (.backup name) = stale := by rw [hget, if_pos rfl]
  have hstaged : d₁.get? (.staging name) = some (.dir tree) := by rw [hget, if_neg (by simp), hpayload]
  have hother : ∀ p, p ≠ .backup name → d₁.get? p = d.get? p := fun p hp => by rw [hget, if_neg hp]
  have hfound : ((diskOps tools fails).lstat .lstatTarget (.moduleDir name) d₁).1.isFound =
      (if fails .lstatTarget then none else d.get? (.moduleDir name)).isSome := by
    rw [lstat_apply, Disk.lstat, htarget]
    cases fails .lstatTarget <;> cases d.get? (.moduleDir name) <;> rfl
  have hsame : ((diskOps tools fails).lstat .lstatTarget (.moduleDir name) d₁).2 = d₁ := rfl
  rw [bind_apply, hfound, hsame]
  cases hseen : (if fails .lstatTarget then none else d.get? (.moduleDir name)) with
  | none =>
    have h := swapping_renameIn tools fails ε hstaged (fun h : false = true => by cases h)
    rw [htarget, hbackup] at h
    exact ⟨h.target, h.backup, fun p hp hp' hp'' => (h.other p hp hp' hp'').trans (hother p hp'')⟩
  | some entry =>
    have hpresent : d.get? (.moduleDir name) = some entry := by
      split_ifs at hseen
      exact hseen
    obtain ⟨haside, hget'⟩ := rename_apply_of_get? tools fails .moveAside (.backup name) (htarget.trans hpresent)
    rw [hbackup] at haside hget'
    simp only [isSome_some, if_true, bind_apply, haside]
    generalize ((diskOps tools fails).rename .moveAside (.moduleDir name) (.backup name) d₁).2 = d₂ at hget'
    cases hmove : (!fails .moveAside && stale.all entry.replaces) with
    | false =>
      simp only [hmove, Bool.false_eq_true, if_false] at hget'
      exact ⟨(hget' _).trans htarget, (hget' _).trans hbackup, fun p _ _ hp => (hget' p).trans (hother p hp)⟩
    | true =>
      simp only [hmove, if_true] at hget'
      have hstaged' : d₂.get? (.staging name) = some (.dir tree) := by
        simpa [hget'] using hstaged
      have h := swapping_renameIn tools fails ε hstaged' fun _ : true = true => ⟨by simp [hget'], by simp [hget']⟩
      simp only [hget', if_true, reduceCtorEq, if_false] at h
      refine ⟨h.target, h.backup, fun p hp hp' hp'' => (h.other p hp hp' hp'').trans ?_⟩
      rw [hget', if_neg hp''.symm, if_neg hp.symm, hother p hp'']

/-! ## One module -/

section

variable {platformVersion : String} {e : IndexEntry} {attempt : Attempt}

/-- The payload of a module that is fetched, verified and extracted in an attempt, and its stamp. -/
def attemptPayload (tools : Tools) (platformVersion : String) (e : IndexEntry) (attempt : Attempt) :
    Option (Tree × Stamp) :=
  (fetchedAsset attempt.tarball).bind fun tarball => (fetchedAsset attempt.bundle).bind fun bundle =>
    stagePayload tools attempt.fails tarball bundle (releaseIdentity platformVersion) oidcIssuerGitHubActions
      e.assetDigest e.name

def treeStamp (tools : Tools) (tree : Tree) : Option Stamp :=
  (tree.get? stampFilename).join.bind tools.decodeStamp

/-- The stamp in place has the digest of the payload already. -/
def Skips (attempt : Attempt) (stamp : Stamp) (onDisk : Option Stamp) : Prop :=
  attempt.fails .readOnDisk = false ∧ onDisk.any (·.payloadDigest = stamp.payloadDigest) = true

instance (stamp : Stamp) (onDisk : Option Stamp) : Decidable (Skips attempt stamp onDisk) := by
  unfold Skips
  infer_instance

/-- What an attempt makes of the entries at the module and at its backup. -/
def attempted (tools : Tools) (platformVersion : String) (e : IndexEntry) (attempt : Attempt) (onDisk : Option Stamp)
    (present stale : Option Entry) : Option Entry × Option Entry :=
  match attemptPayload tools platformVersion e attempt with
  | none => (present, stale)
  | some (tree, stamp) =>
    if Skips attempt stamp onDisk then (present, stale) else swapped attempt.fails tree present stale

lemma swapping_placeStaged (tools : Tools) (attempt : Attempt) (stamp : Stamp) {tree : Tree}
    (hpayload : d.get? (.staging e.name) = some (.dir tree)) :
    Swapping e.name d (placeStaged tools e attempt stamp d).2
      (if Skips attempt stamp ((d.file? (.moduleDir e.name) stampFilename).bind tools.decodeStamp) then
        (d.get? (.moduleDir e.name), d.get? (.backup e.name))
      else swapped attempt.fails tree (d.get? (.moduleDir e.name)) (d.get? (.backup e.name))) := by
  generalize honDisk : (d.file? (.moduleDir e.name) stampFilename).bind tools.decodeStamp = onDisk
  have hread : (diskOps tools attempt.fails).readStamp .readOnDisk (.moduleDir e.name) d =
      (if attempt.fails .readOnDisk then none else onDisk, d) := by
    rw [← honDisk]
    rfl
  have hany : ((if attempt.fails .readOnDisk then none else onDisk).any
      (·.payloadDigest = stamp.payloadDigest) = true) ↔ Skips attempt stamp onDisk := by
    unfold Skips
    cases attempt.fails .readOnDisk <;> simp
  unfold placeStaged
  rw [bind_apply, hread]
  by_cases hskips : Skips attempt stamp onDisk
  · rw [if_pos hskips, if_pos (hany.2 hskips)]
    exact ⟨rfl, rfl, fun p _ _ _ => rfl⟩
  · rw [if_neg hskips, if_neg (mt hany.1 hskips)]
    have h := swapping_swap tools attempt.fails Empty hpayload
    rw [bind_apply]
    generalize swap (diskOps tools attempt.fails) (.moduleDir e.name) (.staging e.name) (.backup e.name) none d = result
      at h
    obtain ⟨result, d'⟩ := result
    cases result <;> exact h

/-- What an attempt does to the disk; the stamp on the disk is the one of the directory, where there is one. -/
lemma swapping_installOne (tools : Tools) (platformVersion : String) (e : IndexEntry) (attempt : Attempt) (d : Disk) :
    ∃ onDisk, Swapping e.name d (installOne tools platformVersion e attempt d).2
        (attempted tools platformVersion e attempt onDisk (d.get? (.moduleDir e.name)) (d.get? (.backup e.name))) ∧
      ∀ present : Option Tree, d.get? (.moduleDir e.name) = present.map .dir →
        onDisk = present.bind (treeStamp tools) := by
  have hself : Swapping e.name d d (d.get? (.moduleDir e.name), d.get? (.backup e.name)) :=
    ⟨rfl, rfl, fun p _ _ _ => rfl⟩
  -- the stamp is read after the staging area was filled
  have hreads : ∀ d₁ : Disk, d₁.get? (.moduleDir e.name) = d.get? (.moduleDir e.name) → ∀ present : Option Tree,
      d.get? (.moduleDir e.name) = present.map .dir →
        (d₁.file? (.moduleDir e.name) stampFilename).bind tools.decodeStamp = present.bind (treeStamp tools) := by
    intro d₁ hd₁ present hpresent
    rw [Disk.file?_of_dir (hd₁.trans hpresent)]
    cases present <;> rfl
  unfold installOne attempted attemptPayload
  by_cases hkey : validateModuleKey e.name = true
  swap
  · have hchecks : ∀ tarball bundle, stageChecks tools tarball bundle (releaseIdentity platformVersion)
        oidcIssuerGitHubActions e.assetDigest e.name = .error .invalidKey := fun tarball bundle => by
      unfold stageChecks
      rw [if_pos (by simpa using hkey)]
      rfl
    have hnone : ((fetchedAsset attempt.tarball).bind fun tarball => (fetchedAsset attempt.bundle).bind fun bundle =>
        stagePayload tools attempt.fails tarball bundle (releaseIdentity platformVersion) oidcIssuerGitHubActions
          e.assetDigest e.name) = none := by
      simp [stagePayload, hchecks]
    rw [hnone, if_pos (by simpa using hkey)]
    exact ⟨_, hself, hreads d rfl⟩
  rw [if_neg (by simpa using hkey)]
  cases fetchedAsset attempt.tarball with
  | none => exact ⟨_, hself, hreads d rfl⟩
  | some tarball =>
    cases fetchedAsset attempt.bundle with
    | none => exact ⟨_, hself, hreads d rfl⟩
    | some bundle =>
      obtain ⟨hother, hresult⟩ := stage_apply tools attempt.fails tarball bundle
        (releaseIdentity platformVersion) oidcIssuerGitHubActions e.assetDigest e.name d
      simp only [bind_some, bind_apply]
      generalize stage (diskOps tools attempt.fails) tools tarball bundle (releaseIdentity platformVersion)
        oidcIssuerGitHubActions e.assetDigest e.name d = staged at hother hresult
      have hmodule := hother (.moduleDir e.name) (by simp)
      have hbackup := hother (.backup e.name) (by simp)
      cases hpayload : stagePayload tools attempt.fails tarball bundle (releaseIdentity platformVersion)
          oidcIssuerGitHubActions e.assetDigest e.name with
      | none =>
        rw [hpayload] at hresult
        obtain ⟨error, herror⟩ := hresult
        rw [herror]
        exact ⟨_, ⟨hmodule, hbackup, fun p _ hp _ => hother p hp⟩, hreads d rfl⟩
      | some payload =>
        obtain ⟨tree, stamp⟩ := payload
        rw [hpayload] at hresult
        obtain ⟨hstamp, hstaged⟩ := hresult
        rw [hstamp]
        have h := swapping_placeStaged tools attempt stamp hstaged
        rw [hmodule, hbackup] at h
        exact ⟨_, ⟨h.target, h.backup, fun p hp hp' hp'' => (h.other p hp hp' hp'').trans (hother p hp')⟩,
          hreads staged.2 hmodule⟩

/-! ## What one attempt does -/

variable {t tree : Tree}

/-- The attempt moves the directory aside, and neither renames the payload in nor puts the directory back. -/
def Strands (tools : Tools) (platformVersion : String) (e : IndexEntry) (attempt : Attempt) (d : Disk) : Prop :=
  ∃ t tree stamp, d.get? (.moduleDir e.name) = some (.dir t) ∧
    attemptPayload tools platformVersion e attempt = some (tree, stamp) ∧ ¬ Skips attempt stamp (treeStamp tools t) ∧
    attempt.fails .lstatTarget = false ∧ attempt.fails .moveAside = false ∧
    (attempt.fails .clearStale = true → (d.get? (.backup e.name)).all (Entry.dir t).replaces) ∧
    attempt.fails .renameIn = true ∧ attempt.fails .restore = true

/-- The attempt has a payload, and its rename-in does not fail. -/
def Lands (tools : Tools) (platformVersion : String) (e : IndexEntry) (attempt : Attempt) : Prop :=
  (attemptPayload tools platformVersion e attempt).isSome ∧ attempt.fails .renameIn = false

/-- The attempt has a payload, and it clears the backup before anything else. -/
def Clears (tools : Tools) (platformVersion : String) (e : IndexEntry) (attempt : Attempt) : Prop :=
  (attemptPayload tools platformVersion e attempt).isSome ∧ attempt.fails .clearStale = false

/-- A directory that is there stays, as it is or with the payload, unless the attempt strands it. -/
theorem attempted_of_present (tools : Tools) (platformVersion : String) (attempt : Attempt)
    (hpresent : d.get? (.moduleDir e.name) = some (.dir t)) :
    (Strands tools platformVersion e attempt d →
      attempted tools platformVersion e attempt (treeStamp tools t) (some (.dir t)) (d.get? (.backup e.name)) =
        (none, some (.dir t))) ∧ (¬ Strands tools platformVersion e attempt d → ∃ t',
      (attempted tools platformVersion e attempt (treeStamp tools t) (some (.dir t)) (d.get? (.backup e.name))).1 =
          some (.dir t') ∧ (t' = t ∨ ∃ stamp, attemptPayload tools platformVersion e attempt = some (t', stamp))) := by
  unfold Strands attempted
  cases hpayload : attemptPayload tools platformVersion e attempt with
  | none => simp
  | some payload =>
    obtain ⟨tree, stamp⟩ := payload
    dsimp only
    by_cases hskips : Skips attempt stamp (treeStamp tools t)
    · rw [if_pos hskips]
      refine ⟨fun h => ?_, fun _ => ⟨t, rfl, .inl rfl⟩⟩
      obtain ⟨t', tree', stamp', ht', hpayload', hskips', -⟩ := h
      grind
    · rw [if_neg hskips]
      unfold swapped renamedIn
      generalize d.get? (.backup e.name) = stale
      cases attempt.fails .lstatTarget <;> cases attempt.fails .moveAside <;> cases attempt.fails .renameIn <;>
        cases attempt.fails .restore <;> cases attempt.fails .clearStale <;> grind

/-- Where nothing is, the payload is afterwards if the attempt lands, and otherwise only the backup may go. -/
theorem attempted_of_absent (tools : Tools) (platformVersion : String) (e : IndexEntry) (attempt : Attempt)
    (stale : Option Entry) :
    (Lands tools platformVersion e attempt → ∃ t' stamp,
      (attempted tools platformVersion e attempt none none stale).1 = some (.dir t') ∧
        attemptPayload tools platformVersion e attempt = some (t', stamp)) ∧ (¬ Lands tools platformVersion e attempt →
      attempted tools platformVersion e attempt none none stale = (none, stale) ∧
          ¬ Clears tools platformVersion e attempt ∨
        attempted tools platformVersion e attempt none none stale = (none, none) ∧
          Clears tools platformVersion e attempt) := by
  unfold Lands Clears attempted
  cases hpayload : attemptPayload tools platformVersion e attempt with
  | none => simp
  | some payload =>
    obtain ⟨tree, stamp⟩ := payload
    have hskips : ¬ Skips attempt stamp none := fun h => by simpa using h.2
    dsimp only
    rw [if_neg hskips]
    unfold swapped renamedIn
    cases attempt.fails .lstatTarget <;> cases attempt.fails .renameIn <;> cases attempt.fails .clearStale <;> simp

end

/-! ## The whole list -/

section

variable {platformVersion : String} {l : List (IndexEntry × Attempt)} {p : IndexEntry × Attempt} {old : Tree}

def diskAfter (tools : Tools) (platformVersion : String) (l : List (IndexEntry × Attempt)) (d : Disk) : Disk :=
  (installEach tools platformVersion l d).2

lemma diskAfter_cons (p : IndexEntry × Attempt) (l : List (IndexEntry × Attempt)) (d : Disk) :
    diskAfter tools platformVersion (p :: l) d =
      diskAfter tools platformVersion l (installOne tools platformVersion p.1 p.2 d).2 := rfl

/-- No attempt of the list lands at the module. -/
def NoneLands (tools : Tools) (platformVersion : String) (l : List (IndexEntry × Attempt)) (name : String) : Prop :=
  ∀ q ∈ l, q.1.name = name → ¬ Lands tools platformVersion q.1 q.2

/-- No attempt of the list clears the backup of the module. -/
def NoneClears (tools : Tools) (platformVersion : String) (l : List (IndexEntry × Attempt)) (name : String) : Prop :=
  ∀ q ∈ l, q.1.name = name → ¬ Clears tools platformVersion q.1 q.2

/-- An attempt strands the module and no later one lands there. More can be asked of the directory that is moved
aside and of the attempts after it. -/
def Stranded (tools : Tools) (platformVersion : String) (last : Tree → List (IndexEntry × Attempt) → Prop)
    (l : List (IndexEntry × Attempt)) (name : String) (d : Disk) : Prop :=
  ∃ pre p post t, l = pre ++ p :: post ∧ p.1.name = name ∧
    (diskAfter tools platformVersion pre d).get? (.moduleDir name) = some (.dir t) ∧
    Strands tools platformVersion p.1 p.2 (diskAfter tools platformVersion pre d) ∧
    NoneLands tools platformVersion post name ∧ last t post

lemma stranded_cons {last : Tree → List (IndexEntry × Attempt) → Prop} :
    Stranded tools platformVersion last (p :: l) name d ↔
      (p.1.name = name ∧ ∃ t, d.get? (.moduleDir name) = some (.dir t) ∧
        Strands tools platformVersion p.1 p.2 d ∧ NoneLands tools platformVersion l name ∧ last t l) ∨
      Stranded tools platformVersion last l name (installOne tools platformVersion p.1 p.2 d).2 := by
  constructor
  · rintro ⟨pre, q, post, t, heq, hname, ht, hstrands, hlands, hlast⟩
    cases pre with
    | nil =>
      cases heq
      exact .inl ⟨hname, t, ht, hstrands, hlands, hlast⟩
    | cons p' pre =>
      cases heq
      exact .inr ⟨pre, q, post, t, rfl, hname, ht, hstrands, hlands, hlast⟩
  · rintro (⟨hname, t, ht, hstrands, hlands, hlast⟩ | ⟨pre, q, post, t, rfl, hname, ht, hstrands, hlands, hlast⟩)
    · exact ⟨[], p, l, t, rfl, hname, ht, hstrands, hlands, hlast⟩
    · exact ⟨p :: pre, q, post, t, rfl, hname, ht, hstrands, hlands, hlast⟩

/-- What is asked of the last directory when the backup has to hold what was there before the run. -/
def KeepsBackup (tools : Tools) (platformVersion name : String) (old : Tree) (kept : Prop) (t : Tree)
    (post : List (IndexEntry × Attempt)) : Prop :=
  kept → t = old ∧ NoneClears tools platformVersion post name

/-- A module is missing after a run exactly when it was missing and nothing landed, or when it was stranded. -/
theorem missing_iff (tools : Tools) (platformVersion : String) (l : List (IndexEntry × Attempt)) (old : Tree)
    (kept : Prop) {present : Option Tree} (hpresent : d.get? (.moduleDir name) = present.map .dir) :
    ((diskAfter tools platformVersion l d).get? (.moduleDir name) = none ∧
      (kept → (diskAfter tools platformVersion l d).get? (.backup name) = some (.dir old))) ↔
    (present = none ∧ NoneLands tools platformVersion l name ∧
      (kept → d.get? (.backup name) = some (.dir old) ∧ NoneClears tools platformVersion l name)) ∨
    Stranded tools platformVersion (KeepsBackup tools platformVersion name old kept) l name d := by
  induction l generalizing d present with
  | nil =>
    have hdone : ¬ Stranded tools platformVersion (KeepsBackup tools platformVersion name old kept) [] name d := by
      rintro ⟨pre, q, post, t, heq, -⟩
      simp at heq
    rw [or_iff_left hdone, show diskAfter tools platformVersion [] d = d from rfl, hpresent, map_eq_none_iff]
    simp [NoneLands, NoneClears]
  | cons p l ih =>
    have hlands : NoneLands tools platformVersion (p :: l) name ↔
        (p.1.name = name → ¬ Lands tools platformVersion p.1 p.2) ∧ NoneLands tools platformVersion l name :=
      forall_mem_cons
    have hclears : NoneClears tools platformVersion (p :: l) name ↔
        (p.1.name = name → ¬ Clears tools platformVersion p.1 p.2) ∧ NoneClears tools platformVersion l name :=
      forall_mem_cons
    rw [diskAfter_cons, stranded_cons, hlands, hclears]
    obtain ⟨onDisk, hstep, honDisk⟩ := swapping_installOne tools platformVersion p.1 p.2 d
    by_cases hname : p.1.name = name
    swap
    · -- the attempt is about another module
      have htarget := hstep.other (.moduleDir name) (by simpa using Ne.symm hname) (by simp) (by simp)
      have hbackup := hstep.other (.backup name) (by simp) (by simp) (by simpa using Ne.symm hname)
      rw [@ih _ present (htarget.trans hpresent), hbackup]
      simp [hname]
    subst hname
    rw [honDisk present hpresent, hpresent] at hstep
    cases present with
    | none =>
      obtain ⟨hland, hmiss⟩ := attempted_of_absent tools platformVersion p.1 p.2 (d.get? (.backup p.1.name))
      by_cases hlanded : Lands tools platformVersion p.1 p.2
      · obtain ⟨t', stamp, ht', -⟩ := hland hlanded
        rw [@ih _ (some t') (hstep.target.trans ht')]
        simp [hlanded, hpresent]
      · rcases hmiss hlanded with ⟨hsame, hclear⟩ | ⟨hgone, hclear⟩
        · rw [@ih _ none (hstep.target.trans (congrArg Prod.fst hsame)),
            hstep.backup.trans (congrArg Prod.snd hsame)]
          simp [hlanded, hpresent, hclear]
        · rw [@ih _ none (hstep.target.trans (congrArg Prod.fst hgone)),
            hstep.backup.trans (congrArg Prod.snd hgone)]
          simp [hlanded, hpresent, hclear]
    | some t =>
      obtain ⟨hstrand, hstay⟩ := attempted_of_present tools platformVersion p.2 hpresent
      by_cases hstrands : Strands tools platformVersion p.1 p.2 d
      · have hmoved := hstrand hstrands
        rw [@ih _ none (hstep.target.trans (congrArg Prod.fst hmoved)),
          hstep.backup.trans (congrArg Prod.snd hmoved)]
        simp [hpresent, hstrands, KeepsBackup]
      · obtain ⟨t', ht', -⟩ := hstay hstrands
        rw [@ih _ (some t') (hstep.target.trans ht')]
        simp [hstrands]

/-- A directory of an archive that was signed for this release, with the digest of the index and a stamp that is the
one of its content. -/
def IsVerified (tools : Tools) (platformVersion : String) (e : IndexEntry) (tree : Tree) : Prop :=
  ∃ archive bundle dirs stamp,
    tools.verifyBlob archive bundle (releaseIdentity platformVersion) oidcIssuerGitHubActions = true ∧
    "sha256:" ++ tools.sha256 archive = e.assetDigest ∧ tools.unpack archive = some dirs ∧
    dirs.get? e.name = some tree ∧ treeStamp tools tree = some stamp ∧ tools.compute tree = some stamp.payloadDigest

lemma isVerified_of_attemptPayload {e : IndexEntry} {attempt : Attempt} {tree : Tree} {stamp : Stamp}
    (h : attemptPayload tools platformVersion e attempt = some (tree, stamp)) :
    IsVerified tools platformVersion e tree := by
  obtain ⟨archive, -, h⟩ := bind_eq_some_iff.1 h
  obtain ⟨bundle, -, h⟩ := bind_eq_some_iff.1 h
  unfold stagePayload at h
  cases hchecks : stageChecks tools archive bundle (releaseIdentity platformVersion) oidcIssuerGitHubActions
      e.assetDigest e.name with
  | error error =>
    rw [hchecks] at h
    cases h
  | ok u =>
    rw [hchecks] at h
    split_ifs at h
    obtain ⟨tree', hdirs, h⟩ := bind_eq_some_iff.1 h
    obtain ⟨dirs, hunpack, htree⟩ := bind_eq_some_iff.1 hdirs
    obtain ⟨stamp', haccepted, heq⟩ := map_eq_some_iff.1 h
    cases heq
    unfold acceptedStamp at haccepted
    split_ifs at haccepted
    obtain ⟨computed, hcompute, hfilter⟩ := bind_eq_some_iff.1 haccepted
    obtain ⟨hread, hdigest⟩ := filter_eq_some_iff.1 hfilter
    obtain ⟨-, hverify, harchive⟩ := stageChecks_eq_ok hchecks
    exact ⟨archive, bundle, dirs, stamp, hverify, harchive, hunpack, htree, hread, by
      rw [hcompute, of_decide_eq_true hdigest]⟩

/-- What is in place after a run was there before, or it is the payload of one of its attempts. -/
lemma content_diskAfter (tools : Tools) (platformVersion : String) (l : List (IndexEntry × Attempt))
    (Good : Tree → Prop) {present : Option Tree}
    (hpresent : d.get? (.moduleDir name) = present.map .dir) (hgood : ∀ t ∈ present, Good t)
    (hpayload : ∀ p ∈ l, p.1.name = name →
      ∀ t stamp, attemptPayload tools platformVersion p.1 p.2 = some (t, stamp) → Good t) :
    ∃ present' : Option Tree, (diskAfter tools platformVersion l d).get? (.moduleDir name) = present'.map .dir ∧
      ∀ t ∈ present', Good t := by
  induction l generalizing d present with
  | nil => exact ⟨present, hpresent, hgood⟩
  | cons p l ih =>
    rw [diskAfter_cons]
    obtain ⟨onDisk, hstep, honDisk⟩ := swapping_installOne tools platformVersion p.1 p.2 d
    have hrest := fun q hq => hpayload q (mem_cons_of_mem p hq)
    by_cases hname : p.1.name = name
    swap
    · exact ih ((hstep.other (.moduleDir name) (by simpa using Ne.symm hname) (by simp) (by simp)).trans hpresent)
        hgood hrest
    have hown := hpayload p (.head _) hname
    subst hname
    rw [honDisk present hpresent, hpresent] at hstep
    cases present with
    | none =>
      obtain ⟨hland, hmiss⟩ := attempted_of_absent tools platformVersion p.1 p.2 (d.get? (.backup p.1.name))
      by_cases hlanded : Lands tools platformVersion p.1 p.2
      · obtain ⟨t', stamp, ht', hstaged⟩ := hland hlanded
        exact @ih _ (some t') (hstep.target.trans ht') (by simpa using hown t' stamp hstaged) hrest
      · refine @ih _ none (hstep.target.trans ?_) (by simp) hrest
        rcases hmiss hlanded with ⟨hsame, -⟩ | ⟨hgone, -⟩
        · exact congrArg Prod.fst hsame
        · exact congrArg Prod.fst hgone
    | some t =>
      obtain ⟨hstrand, hstay⟩ := attempted_of_present tools platformVersion p.2 hpresent
      by_cases hstrands : Strands tools platformVersion p.1 p.2 d
      · exact @ih _ none (hstep.target.trans (congrArg Prod.fst (hstrand hstrands))) (by simp) hrest
      · obtain ⟨t', ht', hfrom⟩ := hstay hstrands
        refine @ih _ (some t') (hstep.target.trans ht') ?_ hrest
        rcases hfrom with rfl | ⟨stamp, hstaged⟩
        · exact hgood
        · simpa using hown t' stamp hstaged

end

/-! ## A boot install -/

/-- A module directory that was there is in place, as it was or verified, or it is in the backup as it was. -/
def NothingLost (tools : Tools) (platformVersion : String) (idx : ModuleIndex) (before after : Disk) : Prop :=
  ∀ e ∈ idx.modules, ∀ old, before.get? (.moduleDir e.name) = some (.dir old) →
    (∃ tree, after.get? (.moduleDir e.name) = some (.dir tree) ∧
      (tree = old ∨ ∃ e' ∈ idx.modules, e'.name = e.name ∧ IsVerified tools platformVersion e' tree)) ∨
    after.get? (.backup e.name) = some (.dir old)

lemma installModules_apply {decodeIndex : Bytes → Option ModuleIndex} {platformVersion : String} {boot : Boot}
    {idx : ModuleIndex} (hindex : fetchIndex tools decodeIndex platformVersion boot = .ok idx) (d : Disk) :
    (installModules tools decodeIndex platformVersion boot d).2 =
      if boot.sweepFails then diskAfter tools platformVersion (boot.installs idx) d
      else (diskAfter tools platformVersion (boot.installs idx) d).removeTmp := by
  unfold installModules
  rw [hindex]
  dsimp only
  rw [bind_apply]
  cases boot.sweepFails <;> rfl

/-- A boot install loses nothing exactly when no module is stranded, or the sweep at the end fails and what was
stranded last is the old directory, with no attempt after it that clears the backup. -/
theorem nothingLost_iff {decodeIndex : Bytes → Option ModuleIndex} {platformVersion : String} {boot : Boot}
    {idx : ModuleIndex} (hindex : fetchIndex tools decodeIndex platformVersion boot = .ok idx) (before : Disk) :
    NothingLost tools platformVersion idx before (installModules tools decodeIndex platformVersion boot before).2 ↔
      ∀ e ∈ idx.modules, ∀ old, before.get? (.moduleDir e.name) = some (.dir old) →
        Stranded tools platformVersion (fun _ _ => True) (boot.installs idx) e.name before →
          boot.sweepFails = true ∧
            Stranded tools platformVersion (fun t post => t = old ∧ NoneClears tools platformVersion post e.name)
              (boot.installs idx) e.name before := by
  refine forall_congr' fun e => forall_congr' fun _ => forall_congr' fun old => forall_congr' fun hold => ?_
  rw [installModules_apply hindex]
  have hmissing := @missing_iff before e.name tools platformVersion (boot.installs idx) old False (some old) hold
  have hbackup := @missing_iff before e.name tools platformVersion (boot.installs idx) old True (some old) hold
  have hnothing : KeepsBackup tools platformVersion e.name old False = fun _ _ => True := by
    funext t post
    simp [KeepsBackup]
  have hkept : KeepsBackup tools platformVersion e.name old True =
      fun t post => t = old ∧ NoneClears tools platformVersion post e.name := by
    funext t post
    simp [KeepsBackup]
  simp only [hnothing, hkept, false_imp_iff, true_imp_iff, and_true, reduceCtorEq, false_and, false_or]
    at hmissing hbackup
  rw [← hmissing, ← hbackup]
  obtain ⟨present, hpresent, hgood⟩ := @content_diskAfter before e.name tools platformVersion (boot.installs idx)
    (fun tree => tree = old ∨ ∃ e' ∈ idx.modules, e'.name = e.name ∧ IsVerified tools platformVersion e' tree)
    (some old) hold (by simp) fun p hp hname t stamp hpayload => by
      refine .inr ⟨p.1, ?_, hname, isVerified_of_attemptPayload hpayload⟩
      obtain ⟨q, hq, rfl⟩ := mem_map.1 hp
      exact fst_mem_of_mem_zipIdx hq
  cases present with
  | some tree =>
    simp only [hpresent, map_some, reduceCtorEq, false_and, false_imp_iff, iff_true]
    refine .inl ⟨tree, ?_, hgood tree rfl⟩
    split_ifs <;> simp [hpresent, Disk.get?_removeTmp, Path.inTmp]
  | none =>
    cases boot.sweepFails <;> simp [hpresent, Disk.get?_removeTmp, Path.inTmp]

/-- Archives are told apart by their bytes, and every one of them has the payload of one module. -/
def sampleTools : Tools where
  verifyBlob _ _ _ _ := true
  sha256 archive := if archive = [1] then "a1" else "00"
  unpack _ := some (Record.ofList [("mod-a", Record.ofList [("AModule.js", some [2]), (stampFilename, some [3])])])
  compute _ := some "sha256:b2"
  decodeStamp _ := some ⟨"mod-a", "1.0.0", none, "sha256:b2"⟩

def sampleIndex : ModuleIndex := ⟨indexSchema, "v1.2.3", [⟨"mod-a", "1.0.0", "mod-a-1.0.0.tar.gz", "sha256:a1"⟩]⟩

/-- A boot install in which every fetch is answered. -/
def sampleBoot (fails : Step → Bool) : Boot where
  index := some ([0], 200)
  indexBundle := some ([0], 200)
  attempts _ := ⟨some ([1], 200), some ([0], 200), fails⟩
  sweepFails := false

/-- A module of an earlier release. -/
def sampleDisk : Disk := Record.ofList [(.moduleDir "mod-a", .dir (Record.ofList [("AModule.js", some [9])]))]

lemma fetchIndex_sampleBoot (fails : Step → Bool) :
    fetchIndex sampleTools (fun _ => some sampleIndex) "1.2.3" (sampleBoot fails) = .ok sampleIndex := rfl

theorem sampleBoot_nothingLost :
    NothingLost sampleTools "1.2.3" sampleIndex sampleDisk
      (installModules sampleTools (fun _ => some sampleIndex) "1.2.3" (sampleBoot (· = .renameIn)) sampleDisk).2 := by
  refine (nothingLost_iff (fetchIndex_sampleBoot _) sampleDisk).2 fun e _ old _ hstranded => ?_
  -- the restore does not fail
  obtain ⟨pre, p, post, t, heq, -, -, ⟨-, -, -, -, -, -, -, -, -, -, hrestore⟩, -⟩ := hstranded
  have hp : p ∈ (sampleBoot (· = .renameIn)).installs sampleIndex := by
    rw [heq]
    exact mem_append_right pre (.head _)
  obtain ⟨q, -, rfl⟩ := mem_map.1 hp
  cases hrestore

/-- When neither the rename-in nor the restore is done, the sweep takes the only copy. -/
theorem sampleBoot_lost :
    ¬ NothingLost sampleTools "1.2.3" sampleIndex sampleDisk
      (installModules sampleTools (fun _ => some sampleIndex) "1.2.3"
        (sampleBoot fun step => step = .renameIn ∨ step = .restore) sampleDisk).2 := by
  have hgone : ((installModules sampleTools (fun _ => some sampleIndex) "1.2.3"
      (sampleBoot fun step => step = .renameIn ∨ step = .restore) sampleDisk).2).entries.isEmpty = true := by
    decide +kernel
  have hempty := List.isEmpty_iff.1 hgone
  intro h
  have hold : sampleDisk.get? (.moduleDir "mod-a") = some (.dir (Record.ofList [("AModule.js", some [9])])) := rfl
  have hget : ∀ p, Record.get? (installModules sampleTools (fun _ => some sampleIndex) "1.2.3"
      (sampleBoot fun step => step = .renameIn ∨ step = .restore) sampleDisk).2 p = none := fun p => by
    rw [Record.get?, hempty]
    rfl
  rcases h _ (.head _) _ hold with ⟨tree, htree, -⟩ | hbackup
  · rw [hget] at htree
    cases htree
  · rw [hget] at hbackup
    cases hbackup

end ModuleInstall
