import Dethernety.ControlLibrary.Wal
import Dethernety.Foundations.Script
import Dethernety.Foundations.SlashPath
import Dethernety.ModelDirectory.SplitModel

/-!
# Confinement of a replay

`applyPendingRewrites` on a journal with any JSON in it, as the file calls it makes. The environment answers
the calls, so the files may hold and become anything. `replay_confined`: every path of a call resolves to the
model directory or below it, and an operation with a path that `assertSafeRelPath` refuses makes no call.

`Wal.lean` has what the steps of a well-formed operation do to the files; here the contents are left out.
-/

open List Except

namespace ControlLibrary.WalConfinement

open ModelDirectory (Json)
open SlashPath Script

def join (parts : List Text) : Text :=
  ['/'].intercalate ((parts.mapIdx fun i p =>
    if i = 0 then p.rdropWhile (· = '/')
    else (p.rdropWhile (· = '/')).dropWhile (· = '/')).filter (· ≠ []))

def dirname (p : Text) : Text :=
  match p.rdropWhile (· ≠ '/') with
  | [] => ['.']
  | [_] => ['/']
  | upToSlash => upToSlash.dropLast

def JOURNAL_RELATIVE_PATH : Text := ".dethereal/pending-id-rewrite.json".toList

/-! ## Calls -/

/-- What reading the journal gives. -/
inductive JournalResult
  | enoent
  /-- Another error, or a text that `JSON.parse` refuses. -/
  | failed
  | parsed (v : Json)

/-- What reading a file gives. -/
inductive ReadResult
  | enoent
  | failed
  | content (includesOldId : Bool)

/-- `Math.random().toString(36).slice(2, 10)` -/
structure RandomPart where
  digits : Text
  alphanumeric : ∀ c ∈ digits, c.isAlphanum

/-- The calls with an effect, or only success or failure as their answer. -/
inductive Effect
  | mkdir (path : Text)
  | writeFile (path : Text)
  /-- `open`, `sync` and `close`. -/
  | sync (path : Text)
  | rename (oldPath newPath : Text)
  | unlink (path : Text)
  deriving DecidableEq

inductive FsCall
  | readJournal (path : Text)
  | readFile (path : Text)
  | access (path : Text)
  | random
  | effect (e : Effect)
  deriving DecidableEq

def Answer : FsCall → Type
  | .readJournal _ => JournalResult
  | .readFile _ => ReadResult
  | .access _ => Bool
  | .random => RandomPart
  | .effect _ => Bool

def FsCall.paths : FsCall → List Text
  | .readJournal path => [path]
  | .readFile path => [path]
  | .access path => [path]
  | .random => []
  | .effect (.mkdir path) => [path]
  | .effect (.writeFile path) => [path]
  | .effect (.sync path) => [path]
  | .effect (.rename oldPath newPath) => [oldPath, newPath]
  | .effect (.unlink path) => [path]

inductive ReplayError
  /-- By `assertSafeRelPath`. -/
  | refused (e : Wal.WalError)
  | malformedJournal (journalPath : Text)
  | unknownKind (kind : Option Json)
  | ambiguousState (fromPath toPath modelDir : Text)
  | typeError
  | io

abbrev Replay := Script Answer ReplayError

/-- A call that throws when it fails. -/
def perform (e : Effect) : Replay Unit := do
  let succeeded : Bool ← (ask (FsCall.effect e) : Replay (Answer (.effect e)))
  if succeeded then pure () else throw .io

/-! ## Reading the journal's values -/

/-- `v.name`; `none` is `undefined`. -/
def property (v : Option Json) (name : String) : Except ReplayError (Option Json) :=
  match v with
  | none => .error .typeError
  | some .null => .error .typeError
  | some (.object fields) => .ok ((fields.find? (·.1 = name)).map Prod.snd)
  | some _ => .ok none

def assertSafeRelPath (relPath : Option Json) (fieldName : String) : Except ReplayError Unit :=
  match relPath with
  | some (.string s) => (Wal.assertSafeRelPath s.toList fieldName).mapError .refused
  | _ => .error (.refused (.emptyPath fieldName))

/-- The code units of a string. Half of a surrogate pair, which no test of `assertSafeRelPath` looks for,
stands as the replacement character. -/
def codeUnits (s : String) : List Char :=
  s.toList.flatMap fun c => if c.toNat < 0x10000 then [c] else ['\uFFFD', '\uFFFD']

/-- `filePaths[0]`, `filePaths[1]` and so on, below `filePaths.length`. -/
def indexed : Json → List Json
  | .array l => l
  | .string s => (codeUnits s).map fun c => .string (String.ofList [c])
  | _ => []

/-- What `for (const relPath of filePaths)` goes through. -/
def elements : Json → List Json
  | .array l => l
  | .string s => s.toList.map fun c => .string (String.ofList [c])
  | _ => []

/-- The loop over the indices. An object is refused here, by one of its entries or by what the loop over its
elements throws. -/
def checkFilePaths (filePaths : Option Json) : Except ReplayError Unit :=
  match filePaths with
  | none => .error .typeError
  | some .null => .error .typeError
  | some (.object _) => .error .typeError
  | some v => (indexed v).zipIdx.forM fun p =>
      assertSafeRelPath (some p.1) ("op.filePaths[" ++ toString p.2 ++ "]")

/-- A part of a path as `join` takes it. -/
def pathText (v : Option Json) : Except ReplayError Text :=
  match v with
  | some (.string s) => .ok s.toList
  | _ => .error .typeError

/-- The paths of the loop over the elements. -/
def iterate (filePaths : Option Json) : Except ReplayError (List Text) :=
  match filePaths with
  | some (.array l) => l.mapM fun v => pathText (some v)
  | some (.string s) => .ok (s.toList.map ([·]))
  | _ => .error .typeError

/-- The paths of an operation: those it rewrites, and two of its control files. -/
structure CheckedPaths where
  filePaths : List Text
  first : Text
  second : Text

/-- The checks of an operation, and the paths that they let through. -/
def checkPaths (op : Json) (first : Except ReplayError (Option Json)) (firstField : String)
    (second : Except ReplayError (Option Json)) (secondField : String) : Except ReplayError CheckedPaths := do
  let filePaths ← property (some op) "filePaths"
  checkFilePaths filePaths
  let first ← first
  assertSafeRelPath first firstField
  let second ← second
  assertSafeRelPath second secondField
  return ⟨← iterate filePaths, ← pathText first, ← pathText second⟩

/-- `op.controlFileRename.name` -/
def controlFileRename (op : Json) (name : String) : Except ReplayError (Option Json) := do
  property (← property (some op) "controlFileRename") name

/-- The checks of `applyGreenfieldRewrite`. -/
def checkGreenfield (op : Json) : Except ReplayError CheckedPaths :=
  checkPaths op (controlFileRename op "from") "op.controlFileRename.from"
    (controlFileRename op "to") "op.controlFileRename.to"

def checkCloneAndSwap (op : Json) : Except ReplayError CheckedPaths :=
  checkPaths op (property (some op) "controlFileWrite") "op.controlFileWrite"
    (property (some op) "controlFileDelete") "op.controlFileDelete"

/-! ## The replay -/

section

variable (pid : ℕ) (modelDir : Text)

/-- The name of a temporary file after the name of its target. -/
def tmpSuffix (rand : RandomPart) : Text :=
  ".tmp.".toList ++ (toString pid).toList ++ '.' :: rand.digits

def atomicWriteWithFsync (targetPath : Text) : Replay Unit := do
  let parentDir := dirname targetPath
  perform (.mkdir parentDir)
  let rand : RandomPart ← (ask FsCall.random : Replay (Answer .random))
  let tmpPath := targetPath ++ tmpSuffix pid rand
  tryCatch
    (do
      perform (.writeFile tmpPath)
      perform (.sync tmpPath)
      perform (.rename tmpPath targetPath)
      perform (.sync parentDir))
    fun e => do
      tryCatch (perform (.unlink tmpPath)) fun _ => pure ()
      throw e

/-- `replaceIdInFile`. An id that is not a string may also make the search throw, as a failing read does. -/
def replaceIdInFile (filePath : Text) : Replay Unit := do
  let result : ReadResult ← (ask (FsCall.readFile filePath) : Replay (Answer (.readFile filePath)))
  match result with
  | .enoent => pure ()
  | .failed => throw .io
  | .content false => pure ()
  | .content true => atomicWriteWithFsync pid filePath

def pathExists (path : Text) : Replay Bool :=
  (ask (FsCall.access path) : Replay (Answer (.access path)))

/-- A directory sync that may fail. -/
def bestEffortSync (path : Text) : Replay Unit :=
  tryCatch (perform (.sync path)) fun _ => pure ()

/-- The steps of `applyGreenfieldRewrite` after its checks. -/
def rewriteAndRename (paths : CheckedPaths) : Replay Unit := do
  paths.filePaths.forM fun relPath => replaceIdInFile pid (join [modelDir, relPath])
  let fromPath := join [modelDir, paths.first]
  let toPath := join [modelDir, paths.second]
  let fromExists ← pathExists fromPath
  let toExists ← pathExists toPath
  if fromExists && toExists then throw (.ambiguousState paths.first paths.second modelDir)
  else if fromExists then
    perform (.rename fromPath toPath)
    bestEffortSync (dirname toPath)
  else pure ()

/-- Step 2 of `applyCloneAndSwap`. -/
def writeIfAbsent (writePath : Text) : Replay Unit := do
  let writeExists ← pathExists writePath
  if writeExists then pure () else atomicWriteWithFsync pid writePath

/-- Step 3 of `applyCloneAndSwap`. -/
def unlinkIfPresent (deletePath : Text) : Replay Unit := do
  let deleteExists ← pathExists deletePath
  if deleteExists then perform (.unlink deletePath) else pure ()

/-- The steps of `applyCloneAndSwap` after its checks. -/
def rewriteAndSwap (paths : CheckedPaths) : Replay Unit := do
  paths.filePaths.forM fun relPath => replaceIdInFile pid (join [modelDir, relPath])
  writeIfAbsent pid (join [modelDir, paths.first])
  unlinkIfPresent (join [modelDir, paths.second])

def applyOperation (op : Json) : Replay Unit := do
  let kind ← Script.lift (property (some op) "kind")
  match kind with
  | some (.string "greenfield-id-rewrite") =>
    let paths ← Script.lift (checkGreenfield op)
    rewriteAndRename pid modelDir paths
  | some (.string "clone-and-swap") =>
    let paths ← Script.lift (checkCloneAndSwap op)
    rewriteAndSwap pid modelDir paths
  | kind => throw (.unknownKind kind)

/-- `readJournal`. A value without an array of operations is refused, also `null` and the other values that
are `false` as a condition. -/
def readJournal : Replay (Option (List Json)) := do
  let journalPath := join [modelDir, JOURNAL_RELATIVE_PATH]
  let result : JournalResult ← (ask (FsCall.readJournal journalPath) : Replay (Answer (.readJournal journalPath)))
  match result with
  | .enoent => pure none
  | .failed => throw .io
  | .parsed v =>
    match property (some v) "operations" with
    | .ok (some (.array operations)) => pure (some operations)
    | _ => throw (.malformedJournal journalPath)

def applyPendingRewrites : Replay ℕ := do
  match ← readJournal modelDir with
  | none => pure 0
  | some [] => pure 0
  | some operations =>
    operations.forM (applyOperation pid modelDir)
    let journalPath := join [modelDir, JOURNAL_RELATIVE_PATH]
    perform (.unlink journalPath)
    bestEffortSync (dirname journalPath)
    pure operations.length

end

/-! ## The paths of an operation -/

def operationPaths (op : Json) : List (Option Json) :=
  let read (v : Except ReplayError (Option Json)) : Option Json := v.toOption.join
  let filePaths := ((read (property (some op) "filePaths")).map elements).getD []
  match read (property (some op) "kind") with
  | some (.string "greenfield-id-rewrite") =>
    filePaths.map some ++ [read (controlFileRename op "from"), read (controlFileRename op "to")]
  | some (.string "clone-and-swap") =>
    filePaths.map some ++
      [read (property (some op) "controlFileWrite"), read (property (some op) "controlFileDelete")]
  | _ => []

/-- The value passes `assertSafeRelPath`. -/
def IsSafeRelPath (v : Option Json) : Prop :=
  ∀ fieldName, assertSafeRelPath v fieldName = .ok ()

/-! ## Where the paths lead -/

section

variable {cwd : List Text} {modelDir p u v : Text}

lemma stays_of_isSafeRelPath {s : String} (h : IsSafeRelPath (some (.string s))) : Stays s.toList := by
  have hok : Wal.assertSafeRelPath s.toList "" = .ok () := by
    have hsafe : (Wal.assertSafeRelPath s.toList "").mapError ReplayError.refused = .ok () := h ""
    cases hr : Wal.assertSafeRelPath s.toList "" with
    | ok u => rfl
    | error e =>
      rw [hr] at hsafe
      cases hsafe
  unfold Wal.assertSafeRelPath at hok
  split_ifs at hok with hempty hnull hbackslash habsolute hparent
  exact ⟨hempty, habsolute, hparent⟩

lemma join_eq (h : Stays p) :
    join [modelDir, p] = below (modelDir.rdropWhile (· = '/')) (p.rdropWhile (· = '/')) := by
  have htrimmed := h.rdropWhile
  have hhead : (p.rdropWhile (· = '/')).dropWhile (· = '/') = p.rdropWhile (· = '/') := by
    obtain ⟨a, l, hal⟩ := exists_cons_of_ne_nil htrimmed.nonempty
    rw [hal] at htrimmed ⊢
    refine dropWhile_cons_of_neg fun ha => htrimmed.relative ?_
    exact cons_prefix_cons.2 ⟨(of_decide_eq_true ha).symm, List.nil_prefix⟩
  have hparts : join [modelDir, p] = ['/'].intercalate ([modelDir.rdropWhile (· = '/'),
      (p.rdropWhile (· = '/')).dropWhile (· = '/')].filter (· ≠ [])) := rfl
  rw [hparts, hhead, below]
  by_cases hdir : modelDir.rdropWhile (· = '/') = []
  all_goals simp [hdir, htrimmed.nonempty, List.intercalate]

lemma dirname_append_slash (hu : u ≠ []) (hv : '/' ∉ v) : dirname (u ++ '/' :: v) = u := by
  have hhead : (u ++ '/' :: v).rdropWhile (· ≠ '/') = u ++ ['/'] := by
    induction v using List.reverseRecOn with
    | nil => exact rdropWhile_concat_neg _ _ _ (by decide)
    | append_singleton v a ih =>
      have ha : a ≠ '/' := fun h => hv (by simp [h])
      rw [← cons_append, ← append_assoc, rdropWhile_concat_pos _ _ _ (by simpa using ha)]
      exact ih fun hmem => hv (mem_append_left _ hmem)
  unfold dirname
  rw [hhead]
  obtain ⟨a, l, rfl⟩ := exists_cons_of_ne_nil hu
  cases l with
  | nil => rfl
  | cons b l => exact (show (a :: b :: l ++ ['/']).dropLast = a :: b :: l from dropLast_concat)

lemma dirname_of_slash_not_mem (h : '/' ∉ p) : dirname p = ['.'] := by
  have hall : ∀ c ∈ p, decide (c ≠ '/') = true := fun c hc => decide_eq_true fun hslash => h (hslash ▸ hc)
  unfold dirname
  rw [rdropWhile_eq_nil_iff.2 hall]

lemma isWithin_join (h : Stays p) : IsWithin cwd modelDir (join [modelDir, p]) := by
  rw [join_eq h]
  exact isWithin_below_rdropWhile h.rdropWhile

lemma isWithin_tmp (h : Stays p) (pid : ℕ) (rand : RandomPart) :
    IsWithin cwd modelDir (join [modelDir, p] ++ tmpSuffix pid rand) := by
  have hslash : '/' ∉ tmpSuffix pid rand := by
    have hpid : '/' ∉ (toString pid).toList := fun hmem => by
      have hdigit := Nat.isDigit_of_mem_toDigits (by decide) (by decide) (Nat.toList_repr ▸ hmem)
      exact absurd hdigit (by decide)
    have hrand : '/' ∉ rand.digits := fun hmem => absurd (rand.alphanumeric _ hmem) (by decide)
    have htmp : '/' ∉ ".tmp.".toList := by decide
    unfold tmpSuffix
    rw [mem_append, mem_append, mem_cons]
    exact fun hmem => hmem.elim (fun hmem => hmem.elim htmp hpid)
      fun hmem => hmem.elim (by decide) hrand
  have hlength : 2 < (tmpSuffix pid rand).length := by
    simp [tmpSuffix]
  have happend : ∀ d q s : Text, below d q ++ s = below d (q ++ s) := by
    intro d q s
    unfold below
    split_ifs
    · rfl
    · simp
  rw [join_eq h, happend]
  exact isWithin_below_rdropWhile (h.rdropWhile.append hslash hlength)

lemma isWithin_dirname (h : Stays p) : IsWithin cwd modelDir (dirname (join [modelDir, p])) := by
  have htrimmed := h.rdropWhile
  rw [join_eq h]
  by_cases hslash : '/' ∈ p.rdropWhile (· = '/')
  · obtain ⟨u, v, huv, hv⟩ := exists_last_segment hslash
    rw [huv] at htrimmed ⊢
    have hparent : dirname (below (modelDir.rdropWhile (· = '/')) (u ++ '/' :: v)) =
        below (modelDir.rdropWhile (· = '/')) u := by
      unfold below
      split_ifs with hdir
      · exact dirname_append_slash htrimmed.parent.nonempty hv
      · rw [← cons_append, ← append_assoc]
        exact dirname_append_slash (by simp) hv
    rw [hparent]
    exact isWithin_below_rdropWhile htrimmed.parent
  · unfold below
    split_ifs with hdir
    · rw [dirname_of_slash_not_mem hslash]
      exact isWithin_of_rdropWhile_eq_nil hdir (prefix_refl cwd)
    · rw [dirname_append_slash hdir hslash]
      exact isWithin_of_resolve_eq (resolve_rdropWhile hdir).symm (isWithin_refl cwd _)

end

/-! ## What the checks let through -/

section

variable {op v : Json} {value : Option Json} {fieldName : String}

lemma isSafeRelPath_of_ok (h : assertSafeRelPath value fieldName = .ok ()) : IsSafeRelPath value := by
  match value with
  | none => cases h
  | some (.string s) =>
    intro fieldName'
    unfold assertSafeRelPath Wal.assertSafeRelPath at h ⊢
    dsimp only at h ⊢
    split_ifs at h ⊢
    · cases h
    · cases h
    · cases h
    · cases h
    · cases h
    · rfl
  | some .null | some (.boolean _) | some (.number _) | some (.array _) | some (.object _) => cases h

lemma ok_of_forM {ι : Type} {l : List ι} {f : ι → Except ReplayError PUnit} (h : l.forM f = .ok ()) :
    ∀ i ∈ l, f i = .ok () := by
  induction l with
  | nil => exact fun i hi => absurd hi not_mem_nil
  | cons j l ih =>
    obtain ⟨u, hj, hl⟩ := exists_of_bind_ok h
    intro i hi
    rcases mem_cons.1 hi with rfl | hi
    · exact hj
    · exact ih hl i hi

lemma isSafeRelPath_of_checkFilePaths (h : checkFilePaths (some v) = .ok ()) :
    ∀ e ∈ elements v, IsSafeRelPath (some e) := by
  have hindexed : ∀ w, checkFilePaths (some w) = (indexed w).zipIdx.forM (fun p =>
      assertSafeRelPath (some p.1) ("op.filePaths[" ++ toString p.2 ++ "]")) → checkFilePaths (some w) = .ok () →
      ∀ e ∈ indexed w, IsSafeRelPath (some e) := by
    intro w hw hok e he
    rw [← zipIdx_map_fst 0 (indexed w)] at he
    obtain ⟨p, hp, rfl⟩ := mem_map.1 he
    exact isSafeRelPath_of_ok (ok_of_forM (hw ▸ hok) p hp)
  match v with
  | .array l => exact hindexed _ rfl h
  | .string s =>
    intro e he
    obtain ⟨c, hc, rfl⟩ := mem_map.1 he
    by_cases hunit : c.toNat < 0x10000
    · refine hindexed _ rfl h _ (mem_map_of_mem ?_)
      exact mem_flatMap.2 ⟨c, hc, by rw [if_pos hunit]; exact mem_singleton_self c⟩
    · -- a surrogate pair is none of the characters that are looked for
      have hne : ∀ d : Char, d.toNat < 0x10000 → c ≠ d := fun d hd heq => hunit (heq ▸ hd)
      have hslash : '/' ∉ [c] := fun hmem => hne '/' (by decide) (mem_singleton.1 hmem).symm
      have hsegments : ['.', '.'] ∉ Substitution.split ['/'] [c] := by
        have hsplit := segments_of_slash_not_mem hslash
        unfold segments at hsplit
        rw [hsplit]
        exact fun hmem => absurd (congrArg List.length (mem_singleton.1 hmem)) (by simp)
      have hok : Wal.assertSafeRelPath [c] "" = .ok () := by
        unfold Wal.assertSafeRelPath
        rw [if_neg (cons_ne_nil c []),
          if_neg fun hmem => hne '\x00' (by decide) (mem_singleton.1 hmem).symm,
          if_neg fun hmem => hne '\\' (by decide) (mem_singleton.1 hmem).symm,
          if_neg fun hstart => hslash (hstart.subset (mem_singleton_self '/')), if_neg hsegments]
      have hcheck : assertSafeRelPath (some (.string (String.ofList [c]))) "" = .ok () := by
        unfold assertSafeRelPath
        dsimp only
        rw [String.toList_ofList, hok]
        rfl
      exact isSafeRelPath_of_ok hcheck
  | .null | .object _ => cases h
  | .boolean _ | .number _ => exact fun e he => absurd he not_mem_nil

lemma exists_of_mapM {ι α : Type} {l : List ι} {f : ι → Except ReplayError α} {r : List α}
    (h : l.mapM f = .ok r) : ∀ a ∈ r, ∃ i ∈ l, f i = .ok a := by
  induction l generalizing r with
  | nil =>
    cases h
    exact fun a ha => absurd ha not_mem_nil
  | cons i l ih =>
    rw [mapM_cons] at h
    obtain ⟨b, hb, h⟩ := exists_of_bind_ok h
    obtain ⟨bs, hbs, h⟩ := exists_of_bind_ok h
    cases h
    intro a ha
    rcases mem_cons.1 ha with rfl | ha
    · exact ⟨i, .head _, hb⟩
    · obtain ⟨j, hj, hfj⟩ := ih hbs a ha
      exact ⟨j, mem_cons_of_mem i hj, hfj⟩

lemma pathText_eq_ok {p : Text} (h : pathText value = .ok p) : ∃ s, value = some (.string s) ∧ s.toList = p := by
  match value with
  | none => cases h
  | some (.string s) => exact ⟨s, rfl, Except.ok.inj h⟩
  | some .null | some (.boolean _) | some (.number _) | some (.array _) | some (.object _) => cases h

lemma exists_of_iterate {r : List Text} (h : iterate value = .ok r) :
    ∃ v, value = some v ∧ ∀ p ∈ r, ∃ s : String, .string s ∈ elements v ∧ s.toList = p := by
  match value with
  | none => cases h
  | some (.array l) =>
    refine ⟨_, rfl, fun p hp => ?_⟩
    obtain ⟨v, hv, hpath⟩ := exists_of_mapM h p hp
    obtain ⟨s, hs, hp⟩ := pathText_eq_ok hpath
    cases hs
    exact ⟨s, hv, hp⟩
  | some (.string s) =>
    refine ⟨_, rfl, fun p hp => ?_⟩
    cases h
    obtain ⟨c, hc, rfl⟩ := mem_map.1 hp
    exact ⟨String.ofList [c], mem_map_of_mem hc, String.toList_ofList⟩
  | some .null | some (.boolean _) | some (.number _) | some (.object _) => cases h

/-- The paths that the steps of an operation use. -/
structure CheckedPaths.Stay (paths : CheckedPaths) : Prop where
  filePaths : ∀ p ∈ paths.filePaths, Stays p
  first : Stays paths.first
  second : Stays paths.second

/-- When the checks pass, every path of the operation has passed, and the steps use no other. -/
lemma safe_of_checkPaths {first second : Except ReplayError (Option Json)} {firstField secondField : String}
    {paths : CheckedPaths} (h : checkPaths op first firstField second secondField = .ok paths) :
    paths.Stay ∧ ∃ v a b, property (some op) "filePaths" = .ok (some v) ∧ first = .ok a ∧ second = .ok b ∧
      (∀ e ∈ elements v, IsSafeRelPath (some e)) ∧ IsSafeRelPath a ∧ IsSafeRelPath b := by
  obtain ⟨filePaths, hfilePaths, h⟩ := exists_of_bind_ok h
  obtain ⟨u, hcheck, h⟩ := exists_of_bind_ok h
  obtain ⟨a, ha, h⟩ := exists_of_bind_ok h
  obtain ⟨u', hfirst, h⟩ := exists_of_bind_ok h
  obtain ⟨b, hb, h⟩ := exists_of_bind_ok h
  obtain ⟨u'', hsecond, h⟩ := exists_of_bind_ok h
  obtain ⟨l, hl, h⟩ := exists_of_bind_ok h
  obtain ⟨p, hp, h⟩ := exists_of_bind_ok h
  obtain ⟨q, hq, h⟩ := exists_of_bind_ok h
  cases h
  obtain ⟨v, rfl, hmem⟩ := exists_of_iterate hl
  have helements := isSafeRelPath_of_checkFilePaths hcheck
  have hsafeFirst := isSafeRelPath_of_ok hfirst
  have hsafeSecond := isSafeRelPath_of_ok hsecond
  refine ⟨⟨fun p hp => ?_, ?_, ?_⟩, v, a, b, hfilePaths, ha, hb, helements, hsafeFirst, hsafeSecond⟩
  · obtain ⟨s, hs, rfl⟩ := hmem p hp
    exact stays_of_isSafeRelPath (helements _ hs)
  · obtain ⟨s, rfl, rfl⟩ := pathText_eq_ok hp
    exact stays_of_isSafeRelPath hsafeFirst
  · obtain ⟨s, rfl, rfl⟩ := pathText_eq_ok hq
    exact stays_of_isSafeRelPath hsafeSecond

end

/-! ## Confinement -/

/-- Every path of the call is the model directory or lies below it. -/
def Confined (cwd : List Text) (modelDir : Text) (c : FsCall) : Prop :=
  ∀ p ∈ c.paths, IsWithin cwd modelDir p

section

variable {cwd : List Text} {modelDir p : Text} {pid : ℕ} {paths : CheckedPaths} {e : Effect}

lemma every_perform {P : FsCall → Prop} (h : P (.effect e)) : (perform e).Every P := by
  refine (every_ask h).bind fun succeeded => ?_
  cases succeeded with
  | false => exact every_throw _
  | true => exact every_pure ()

lemma every_bestEffortSync {P : FsCall → Prop} (h : P (.effect (.sync p))) : (bestEffortSync p).Every P :=
  (every_perform h).tryCatch fun _ => every_pure ()

lemma confined_singleton {c : FsCall} (hc : c.paths = [p]) (h : IsWithin cwd modelDir p) :
    Confined cwd modelDir c := by
  intro q hq
  rw [hc] at hq
  rw [mem_singleton.1 hq]
  exact h

lemma confined_rename {q : Text} (hp : IsWithin cwd modelDir p) (hq : IsWithin cwd modelDir q) :
    Confined cwd modelDir (.effect (.rename p q)) := by
  intro r hr
  rcases mem_cons.1 hr with rfl | hr
  · exact hp
  · rw [mem_singleton.1 hr]
    exact hq

lemma every_atomicWriteWithFsync (h : Stays p) :
    (atomicWriteWithFsync pid (join [modelDir, p])).Every (Confined cwd modelDir) := by
  have htarget : IsWithin cwd modelDir (join [modelDir, p]) := isWithin_join h
  have hparent : IsWithin cwd modelDir (dirname (join [modelDir, p])) := isWithin_dirname h
  refine (every_perform (confined_singleton rfl hparent)).bind fun _ => ?_
  refine (every_ask fun q hq => absurd hq not_mem_nil).bind fun rand => ?_
  have htmp : IsWithin cwd modelDir (join [modelDir, p] ++ tmpSuffix pid rand) := isWithin_tmp h pid rand
  refine Every.tryCatch ?_ fun e => ?_
  · refine (every_perform (confined_singleton rfl htmp)).bind fun _ => ?_
    refine (every_perform (confined_singleton rfl htmp)).bind fun _ => ?_
    refine (every_perform (confined_rename htmp htarget)).bind fun _ => ?_
    exact every_perform (confined_singleton rfl hparent)
  · refine Every.bind ?_ fun _ => every_throw e
    exact (every_perform (confined_singleton rfl htmp)).tryCatch fun _ => every_pure ()

lemma every_replaceIdInFile (h : Stays p) :
    (replaceIdInFile pid (join [modelDir, p])).Every (Confined cwd modelDir) := by
  refine (every_ask (confined_singleton rfl (isWithin_join h))).bind fun result => ?_
  match result with
  | .enoent => exact every_pure ()
  | .failed => exact every_throw _
  | .content false => exact every_pure ()
  | .content true => exact every_atomicWriteWithFsync h

lemma every_pathExists (h : Stays p) : (pathExists (join [modelDir, p])).Every (Confined cwd modelDir) :=
  every_ask (confined_singleton rfl (isWithin_join h))

lemma every_rewriteAndRename (h : paths.Stay) :
    (rewriteAndRename pid modelDir paths).Every (Confined cwd modelDir) := by
  refine (every_forM fun p hp => every_replaceIdInFile (h.filePaths p hp)).bind fun _ => ?_
  refine (every_pathExists h.first).bind fun fromExists => ?_
  refine (every_pathExists h.second).bind fun toExists => ?_
  split_ifs
  · exact every_throw _
  · refine (every_perform (confined_rename (isWithin_join h.first) (isWithin_join h.second))).bind fun _ => ?_
    exact every_bestEffortSync (confined_singleton rfl (isWithin_dirname h.second))
  · exact every_pure ()

lemma every_writeIfAbsent (h : Stays p) : (writeIfAbsent pid (join [modelDir, p])).Every (Confined cwd modelDir) := by
  refine (every_pathExists h).bind fun writeExists => ?_
  split_ifs
  · exact every_pure ()
  · exact every_atomicWriteWithFsync h

lemma every_unlinkIfPresent (h : Stays p) : (unlinkIfPresent (join [modelDir, p])).Every (Confined cwd modelDir) := by
  refine (every_pathExists h).bind fun deleteExists => ?_
  split_ifs
  · exact every_perform (confined_singleton rfl (isWithin_join h))
  · exact every_pure ()

lemma every_rewriteAndSwap (h : paths.Stay) : (rewriteAndSwap pid modelDir paths).Every (Confined cwd modelDir) := by
  refine (every_forM fun p hp => every_replaceIdInFile (h.filePaths p hp)).bind fun _ => ?_
  exact (every_writeIfAbsent h.first).bind fun _ => every_unlinkIfPresent h.second

lemma every_applyOperation (cwd : List Text) (pid : ℕ) (modelDir : Text) (op : Json) :
    (applyOperation pid modelDir op).Every (Confined cwd modelDir) := by
  refine every_lift_bind fun kind _ => ?_
  split
  · refine every_lift_bind fun paths hpaths => ?_
    exact every_rewriteAndRename (safe_of_checkPaths hpaths).1
  · refine every_lift_bind fun paths hpaths => ?_
    exact every_rewriteAndSwap (safe_of_checkPaths hpaths).1
  · exact every_throw _

lemma stays_JOURNAL_RELATIVE_PATH : Stays JOURNAL_RELATIVE_PATH :=
  ⟨by decide, by decide, by unfold Descends; decide⟩

lemma every_applyPendingRewrites (cwd : List Text) (pid : ℕ) (modelDir : Text) :
    (applyPendingRewrites pid modelDir).Every (Confined cwd modelDir) := by
  have hjournal : IsWithin cwd modelDir (join [modelDir, JOURNAL_RELATIVE_PATH]) :=
    isWithin_join stays_JOURNAL_RELATIVE_PATH
  have hread : (readJournal modelDir).Every (Confined cwd modelDir) := by
    refine (every_ask (confined_singleton rfl hjournal)).bind fun result => ?_
    match result with
    | .enoent => exact every_pure none
    | .failed => exact every_throw _
    | .parsed v =>
      dsimp only
      split
      · exact every_pure _
      · exact every_throw _
  refine hread.bind fun operations => ?_
  match operations with
  | none | some [] => exact every_pure 0
  | some (op :: ops) =>
    refine (every_forM fun op _ => every_applyOperation cwd pid modelDir op).bind fun _ => ?_
    refine (every_perform (confined_singleton rfl hjournal)).bind fun _ => ?_
    refine Every.bind ?_ fun _ => every_pure _
    exact every_bestEffortSync (confined_singleton rfl (isWithin_dirname stays_JOURNAL_RELATIVE_PATH))

/-! ## Checks first -/

/-- The values that an operation names besides its list. -/
lemma unsafe_of_not_checked {op : Json} {first second : Except ReplayError (Option Json)}
    {firstField secondField : String} {v : Option Json}
    (hv : v ∈ (((property (some op) "filePaths").toOption.join.map elements).getD []).map some ++
      [first.toOption.join, second.toOption.join]) (hrefused : ¬ IsSafeRelPath v) :
    ∃ e, checkPaths op first firstField second secondField = .error e := by
  cases hcheck : checkPaths op first firstField second secondField with
  | error e => exact ⟨e, rfl⟩
  | ok paths =>
    obtain ⟨-, l, a, b, hl, ha, hb, helements, hfirst, hsecond⟩ := safe_of_checkPaths hcheck
    rw [hl, ha, hb] at hv
    refine absurd ?_ hrefused
    rcases mem_append.1 hv with hv | hv
    · obtain ⟨e, he, rfl⟩ := mem_map.1 hv
      exact helements e he
    · rcases mem_cons.1 hv with rfl | hv
      · exact hfirst
      · rw [mem_singleton.1 hv]
        exact hsecond

lemma applyOperation_eq_error {op : Json} {v : Option Json} (hv : v ∈ operationPaths op)
    (hrefused : ¬ IsSafeRelPath v) (pid : ℕ) (modelDir : Text) :
    ∃ e, applyOperation pid modelDir op = ret (.error e) := by
  unfold applyOperation
  cases hkind : property (some op) "kind" with
  | error e => exact ⟨e, rfl⟩
  | ok kind =>
    unfold operationPaths at hv
    rw [hkind] at hv
    -- the kind decides on the paths and on their check alike
    by_cases hgreenfield : kind = some (.string "greenfield-id-rewrite")
    · subst hgreenfield
      obtain ⟨e, he⟩ := unsafe_of_not_checked hv hrefused
      exact ⟨e, congrArg (fun r => Script.lift r >>= rewriteAndRename pid modelDir) he⟩
    · by_cases hclone : kind = some (.string "clone-and-swap")
      · subst hclone
        obtain ⟨e, he⟩ := unsafe_of_not_checked hv hrefused
        exact ⟨e, congrArg (fun r => Script.lift r >>= rewriteAndSwap pid modelDir) he⟩
      · refine ⟨.unknownKind kind, ?_⟩
        rw [Script.lift_ok_bind]
        split
        · exact absurd rfl hgreenfield
        · exact absurd rfl hclone
        · rfl

end

/-- A replay stays within the model directory, and the paths of an operation are checked before its calls: for
every journal and every behaviour of the files, each path of a call resolves to the model directory or below
it, and an operation with a path that does not pass `assertSafeRelPath` makes no call at all. -/
theorem replay_confined (cwd : List Text) (pid : ℕ) (modelDir : Text) (env : Environment Answer) :
    (∀ c ∈ (applyPendingRewrites pid modelDir).calls env, ∀ p ∈ c.paths, IsWithin cwd modelDir p) ∧
      ∀ op, (∃ v ∈ operationPaths op, ¬ IsSafeRelPath v) → (applyOperation pid modelDir op).calls env = [] := by
  refine ⟨(every_applyPendingRewrites cwd pid modelDir).mem_calls env, ?_⟩
  rintro op ⟨v, hv, hrefused⟩
  obtain ⟨e, he⟩ := applyOperation_eq_error hv hrefused pid modelDir
  rw [he]
  rfl

/-- A journal with one rewrite. -/
def sampleOperation (fromPath toPath : String) : Json :=
  .object [("kind", .string "greenfield-id-rewrite"), ("filePaths", .array [.string "./structure.json"]),
    ("controlFileRename", .object [("from", .string fromPath), ("to", .string toPath)])]

/-- Every call succeeds, and the journal has the operation. -/
def sampleEnvironment (op : Json) : Environment Answer := fun _ c =>
  match c with
  | .readJournal _ => .parsed (.object [("operations", .array [op])])
  | .readFile _ => .content true
  | .access path => (path.getLast? == some 'a' : Bool)
  | .random => ⟨['7'], List.forall_mem_singleton.2 rfl⟩
  | .effect _ => true

theorem sample_replay_confined :
    (∀ p ∈ ["m/controls/a".toList, "m/controls//./b".toList],
      IsWithin ["home".toList] "m/".toList p) ∧
      (applyOperation 1 "m/".toList (sampleOperation "../a" "b")).calls
        (sampleEnvironment (sampleOperation "../a" "b")) = [] := by
  have hrename : FsCall.effect (.rename "m/controls/a".toList "m/controls//./b".toList) ∈
      (applyPendingRewrites 1 "m/".toList).calls
        (sampleEnvironment (sampleOperation "controls/a" "controls//./b/")) := by
    decide
  have hpaths : operationPaths (sampleOperation "../a" "b") =
      [some (.string "./structure.json"), some (.string "../a"), some (.string "b")] := rfl
  have hrefused : ¬ IsSafeRelPath (some (.string "../a")) := fun h =>
    absurd (stays_of_isSafeRelPath h).descends (by unfold Descends; decide)
  refine ⟨(replay_confined ["home".toList] 1 "m/".toList _).1 _ hrename,
    (replay_confined [] 1 _ _).2 _ ⟨some (.string "../a"), ?_, hrefused⟩⟩
  rw [hpaths]
  exact .tail _ (.head _)

end ControlLibrary.WalConfinement
