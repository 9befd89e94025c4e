import Mathlib.Algebra.Ring.Int.Defs
import Mathlib.Algebra.Ring.Nat
import Dethernety.Foundations.Record
import Dethernety.Foundations.SlashPath

/-!
# Extracting an archive

Model of `TarGz`, `safeTarget` and `writeRegular` of `pkg/extract`. What the tar reader reads from the stream is
a list of entries that ends with the archive or with an error. Every operation on the disk may fail, and a file may
be written in part, as the environment has it. A path is the list of its names from the root; a name is a text of
bytes, each written as the character of its number.
-/

open List Record

namespace Extract

open SlashPath

abbrev Bytes := List UInt8

abbrev Path := List Text

def pathText : Path → Text
  | [] => ['/']
  | p => p.flatMap fun name => '/' :: name

inductive Entry
  | dir
  | file (content : Bytes)
  /-- A link that was there before, with whether it leads to a directory. -/
  | link (toDir : Bool)
  deriving DecidableEq

/-- What `os.Stat` calls a directory. -/
def Entry.isDir : Entry → Bool
  | dir => true
  | file _ => false
  | link toDir => toDir

/-- Whether there is a directory; the root is one. -/
def isDirIn (entries : Record Path Entry) (p : Path) : Bool :=
  p.isEmpty || (entries.get? p).any Entry.isDir

/-- What is on the disk; whatever there is, it is in a directory. -/
structure Disk where
  entries : Record Path Entry
  parent : ∀ p name, (entries.get? (p ++ [name])).isSome → isDirIn entries p = true

namespace Disk

variable (d : Disk)

def get? (p : Path) : Option Entry :=
  d.entries.get? p

def isDir (p : Path) : Bool :=
  isDirIn d.entries p

variable {d}

lemma isDirIn_set {entries : Record Path Entry} {p q : Path} {e : Entry}
    (hp : e.isDir = false → (entries.get? p).any Entry.isDir = false) (h : isDirIn entries q = true) :
    isDirIn (entries.set p e) q = true := by
  unfold isDirIn at h ⊢
  rw [get?_set]
  split_ifs with hpq
  · subst hpq
    cases he : e.isDir with
    | true => simp [he]
    | false =>
      rw [hp he, Bool.or_false] at h
      rw [h, Bool.true_or]
  · exact h

lemma parent_set {p : Path} {e : Entry} (hdir : d.isDir p.dropLast = true)
    (hp : e.isDir = false → (d.get? p).any Entry.isDir = false) (q : Path) (name : Text)
    (h : ((d.entries.set p e).get? (q ++ [name])).isSome) : isDirIn (d.entries.set p e) q = true := by
  refine isDirIn_set hp ?_
  rw [get?_set] at h
  split_ifs at h with hpq
  · rwa [hpq, dropLast_concat] at hdir
  · exact d.parent q name h

variable (d)

/-- `os.Mkdir`, as far as what is on the disk allows it. -/
def mkdir (p : Path) : Option Disk :=
  if h : d.isDir p.dropLast = true ∧ d.get? p = none then
    some ⟨d.entries.set p .dir, parent_set h.1 fun hfalse => nomatch hfalse⟩
  else none

/-- Whether `os.OpenFile` can open a path for writing, as far as what is on the disk allows it. -/
def canWrite (p : Path) : Bool :=
  !p.isEmpty && d.isDir p.dropLast && !(d.get? p).any Entry.isDir

/-- What a file that was opened with `O_CREATE | O_TRUNC` holds in the end; a link stays where it is. -/
def write (p : Path) (content : Bytes) : Disk :=
  if h : d.isDir p.dropLast = true ∧ (d.get? p).any Entry.isDir = false ∧ d.get? p ≠ some (.link false) then
    ⟨d.entries.set p (.file content), parent_set h.1 fun _ => h.2.1⟩
  else d

end Disk

/-- What the operations on the disk may do besides. -/
structure Env where
  /-- `os.Getwd` -/
  getwd : Option Path
  mkdirFails : Disk → Path → Bool
  openFails : Disk → Path → Bool
  /-- How many bytes of a file the disk takes before a write fails, if one does. -/
  room : Disk → Path → Option ℕ
  closeFails : Disk → Path → Bool

inductive ExtractError
  | gzip
  | abs
  | mkdir
  | tar
  | maxEntries (limit : ℤ)
  | symlink (name : Text)
  | hardlink (name : Text)
  | unsupportedType (typeflag : UInt8) (name : Text)
  | emptyName
  | nul (name : Text)
  | backslash (name : Text)
  | absolutePath (name : Text)
  | dotDot (name : Text)
  | escapesDestination (name : Text)
  | maxTotalSize
  | openFile
  | copy
  | close

/-- `Limits`; the total size is an `int64`. -/
structure Limits where
  maxEntries : ℤ
  maxTotalSize : ℤ
  int64 : maxTotalSize < 2 ^ 63

def defaultLimits : Limits where
  maxEntries := 20000
  maxTotalSize := 256 * 2 ^ 20
  int64 := by decide

/-- A zero field takes its default. -/
def Limits.withDefaults (lim : Limits) : Limits where
  maxEntries := if lim.maxEntries ≤ 0 then defaultLimits.maxEntries else lim.maxEntries
  maxTotalSize := if lim.maxTotalSize ≤ 0 then defaultLimits.maxTotalSize else lim.maxTotalSize
  int64 := by
    split_ifs
    · exact defaultLimits.int64
    · exact lim.int64

/-- An `int64` after an addition. -/
def wrap64 (n : ℤ) : ℤ :=
  n.bmod (2 ^ 64)

def typeReg : UInt8 := 48

def typeLink : UInt8 := 49

def typeSymlink : UInt8 := 50

def typeDir : UInt8 := 53

structure TarEntry where
  typeflag : UInt8
  name : Text
  content : Bytes
  /-- Reading fails after the content, there or at the next header. -/
  broken : Bool

structure Archive where
  /-- `gzip.NewReader` reads the header. -/
  gzip : Bool
  entries : List TarEntry
  /-- The last header is followed by the end of the archive, not by an error. -/
  complete : Bool

/-- The bytes of a regular file. -/
def TarEntry.size (e : TarEntry) : ℕ :=
  if e.typeflag = typeReg then e.content.length else 0

/-- The bytes of the regular files. -/
def totalSize (entries : List TarEntry) : ℕ :=
  (entries.map TarEntry.size).sum

section

def filepathAbs (getwd : Option Path) (path : Text) : Option Path :=
  if ['/'] <+: path then some (resolve [] path) else getwd.map fun cwd => resolve cwd path

local instance : LawfulBEq Text := inferInstance

/-- `safeTarget`. An absolute name is refused before `filepath.Join` comes to it. -/
def safeTarget (dest : Path) (name : Text) : Except ExtractError Path :=
  if name = [] then .error .emptyName
  else if Char.ofNat 0 ∈ name then .error (.nul name)
  else if '\\' ∈ name then .error (.backslash name)
  else if ['/'] <+: name then .error (.absolutePath name)
  else if ['.', '.'] ∈ segments name then .error (.dotDot name)
  else
    let target := resolve dest name
    if target ≠ dest ∧ ¬ pathText dest ++ ['/'] <+: pathText target then .error (.escapesDestination name)
    else .ok target

variable (env : Env)

/-- `os.MkdirAll` of a path, from its last name to its first, and whether it succeeds. -/
def mkdirAll : List Text → Disk → Disk × Bool
  | [], d => (d, true)
  | name :: rest, d =>
    let path := (name :: rest).reverse
    match d.get? path with
    | some e => (d, e.isDir)
    | none =>
      match mkdirAll rest d with
      | (d, false) => (d, false)
      | (d, true) =>
        if env.mkdirFails d path then (d, false)
        else
          match d.mkdir path with
          | some d => (d, true)
          | none => (d, false)

/-- The disk after writing, the bytes that it took, and what `writeRegular` returns. -/
structure Written where
  disk : Disk
  bytes : ℕ
  result : Except ExtractError ℕ

/-- `io.Copy(f, io.LimitReader(r, remaining+1))` to an open file: what is read, and what the disk takes of it. -/
def copied (d : Disk) (e : TarEntry) (target : Path) (remaining : ℤ) : Bytes × Bytes :=
  let read := e.content.take (wrap64 (remaining + 1)).toNat
  match env.room d target with
  | none => (read, read)
  | some n => (read, read.take n)

def writeRegular (d : Disk) (e : TarEntry) (target : Path) (remaining : ℤ) : Written :=
  if remaining ≤ 0 then ⟨d, 0, .error .maxTotalSize⟩
  else
    match mkdirAll env target.dropLast.reverse d with
    | (d, false) => ⟨d, 0, .error .mkdir⟩
    | (d, true) =>
      if env.openFails d target ∨ ¬ d.canWrite target then ⟨d, 0, .error .openFile⟩
      else
        let (read, taken) := copied env d e target remaining
        let written : ℕ := taken.length
        let readFails := e.broken ∧ read.length < (wrap64 (remaining + 1)).toNat
        let result :=
          if written < read.length ∨ readFails then .error .copy
          else if env.closeFails d target then .error .close
          else if (written : ℤ) > remaining then .error .maxTotalSize
          else .ok written
        ⟨d.write target taken, written, result⟩

/-- The variables of the loop, and the bytes that the disk took in all. -/
structure State where
  disk : Disk
  written : ℕ
  total : ℤ
  count : ℕ

/-- The refusals of the first `switch`. -/
def refusedType (e : TarEntry) : Option ExtractError :=
  if e.typeflag = typeDir ∨ e.typeflag = typeReg then none
  else if e.typeflag = typeSymlink then some (.symlink e.name)
  else if e.typeflag = typeLink then some (.hardlink e.name)
  else some (.unsupportedType e.typeflag e.name)

/-- What is done for an entry that is not refused, with the error it ends with. -/
def place (dest : Path) (lim : Limits) (st : State) (e : TarEntry) : State × Option ExtractError :=
  match safeTarget dest e.name with
  | .error err => (st, some err)
  | .ok target =>
    if e.typeflag = typeDir then
      match mkdirAll env target.reverse st.disk with
      | (d, true) => ({ st with disk := d }, none)
      | (d, false) => ({ st with disk := d }, some .mkdir)
    else
      let w := writeRegular env st.disk e target (lim.maxTotalSize - st.total)
      let st := { st with disk := w.disk, written := st.written + w.bytes }
      match w.result with
      | .ok written => ({ st with total := st.total + written }, none)
      | .error err => (st, some err)

/-- A round of the loop. -/
def step (dest : Path) (lim : Limits) (st : State) (e : TarEntry) : State × Option ExtractError :=
  let st := { st with count := st.count + 1 }
  if (st.count : ℤ) > lim.maxEntries then (st, some (.maxEntries lim.maxEntries))
  else
    match refusedType e with
    | some err => (st, some err)
    | none => place env dest lim st e

/-- The loop over the entries that `tr.Next` returns. -/
def loop (dest : Path) (lim : Limits) (complete : Bool) : List TarEntry → State → State × Option ExtractError
  | [], st => (st, if complete then none else some .tar)
  | e :: rest, st =>
    match step env dest lim st e with
    | (st, some err) => (st, some err)
    | (st, none) => if e.broken then (st, some .tar) else loop dest lim complete rest st

/-- `TarGz` on a disk: the disk afterwards with the bytes that were written, and the error. -/
def tarGz (a : Archive) (dest : Text) (lim : Limits) (d : Disk) : State × Option ExtractError :=
  let lim := lim.withDefaults
  if ¬ a.gzip then (⟨d, 0, 0, 0⟩, some .gzip)
  else
    match filepathAbs env.getwd dest with
    | none => (⟨d, 0, 0, 0⟩, some .abs)
    | some dest =>
      match mkdirAll env dest.reverse d with
      | (d, false) => (⟨d, 0, 0, 0⟩, some .mkdir)
      | (d, true) => loop env dest lim a.complete a.entries ⟨d, 0, 0, 0⟩

end

section

variable {d d' : Disk} {dest p q : Path}

lemma isDir_dropLast {name : Text} (h : d.isDir (p ++ [name]) = true) : d.isDir p = true := by
  refine d.parent p name ?_
  unfold Disk.isDir isDirIn at h
  rw [show (p ++ [name]).isEmpty = false by simp, Bool.false_or] at h
  obtain ⟨e, he, -⟩ := (Option.any_eq_true _ _).1 h
  rw [he]
  rfl

lemma isDir_of_prefix (hpq : p <+: q) (h : d.isDir q = true) : d.isDir p = true := by
  obtain ⟨rest, rfl⟩ := hpq
  induction rest using List.reverseRecOn with
  | nil => rwa [append_nil] at h
  | append_singleton _ _ ih =>
    rw [← append_assoc] at h
    exact ih (isDir_dropLast h)

lemma isDir_iff_of_ne_nil (hp : p ≠ []) : d.isDir p = true ↔ (d.get? p).any Entry.isDir = true := by
  unfold Disk.isDir isDirIn Disk.get?
  rw [isEmpty_eq_false_iff.2 hp, Bool.false_or]

/-- What an operation may do when only paths at or below a directory are made or written. -/
structure Within (dest : Path) (d d' : Disk) : Prop where
  outside : ∀ p, ¬ dest <+: p → d'.get? p = d.get? p
  links : ∀ p toDir, d'.get? p = some (.link toDir) → d.get? p = some (.link toDir)
  dirs : ∀ p, d.isDir p = true → d'.isDir p = true

lemma Within.refl (dest : Path) (d : Disk) : Within dest d d :=
  ⟨fun _ _ => rfl, fun _ _ h => h, fun _ h => h⟩

lemma Within.trans {d'' : Disk} (h : Within dest d d') (h' : Within dest d' d'') : Within dest d d'' where
  outside p hp := (h'.outside p hp).trans (h.outside p hp)
  links p toDir hp := h.links p toDir (h'.links p toDir hp)
  dirs p hp := h'.dirs p (h.dirs p hp)

lemma get?_mkdir (h : d.mkdir p = some d') :
    d.get? p = none ∧ ∀ q, d'.get? q = if p = q then some .dir else d.get? q := by
  unfold Disk.mkdir at h
  split_ifs at h with hguard
  cases h
  exact ⟨hguard.2, fun q => get?_set _ _ _ _⟩

lemma get?_write (d : Disk) (p : Path) (content : Bytes) (q : Path) :
    (d.write p content).get? q = d.get? q ∨
      q = p ∧ (d.get? p).any Entry.isDir = false ∧ (d.write p content).get? q = some (.file content) := by
  unfold Disk.write
  split_ifs with hguard
  · by_cases hq : p = q
    · subst hq
      refine .inr ⟨rfl, hguard.2.1, ?_⟩
      exact (get?_set _ _ _ _).trans (if_pos rfl)
    · exact .inl ((get?_set _ _ _ _).trans (if_neg hq))
  · exact .inl rfl

lemma write_within (hp : dest <+: p) (content : Bytes) : Within dest d (d.write p content) where
  outside q hq := by
    obtain hsame | ⟨rfl, -⟩ := get?_write d p content q
    · exact hsame
    · exact absurd hp hq
  links q toDir hq := by
    obtain hsame | ⟨-, -, hfile⟩ := get?_write d p content q
    · exact hsame ▸ hq
    · cases hfile.symm.trans hq
  dirs q hq := by
    by_cases hnil : q = []
    · subst hnil
      rfl
    rw [isDir_iff_of_ne_nil hnil] at hq ⊢
    obtain hsame | ⟨rfl, hnone, -⟩ := get?_write d p content q
    · rwa [hsame]
    · cases hnone.symm.trans hq

variable {env : Env} {rev : List Text}

/-- What `os.MkdirAll` makes are directories on the way to the path that were missing. -/
lemma get?_mkdirAll {ok : Bool} (h : mkdirAll env rev d = (d', ok)) (q : Path) :
    d'.get? q = d.get? q ∨ q ≠ [] ∧ d.get? q = none ∧ d'.get? q = some .dir ∧ q <+: rev.reverse := by
  induction rev generalizing d' ok with
  | nil =>
    cases h
    exact .inl rfl
  | cons name rest ih =>
    have hpre : rest.reverse <+: (name :: rest).reverse := by
      rw [reverse_cons]
      exact prefix_append _ _
    rw [mkdirAll] at h
    split at h
    · cases h
      exact .inl rfl
    next hnone =>
      cases hrest : mkdirAll env rest d with
      | mk d₁ ok₁ =>
        have hd₁ : d₁.get? q = d.get? q ∨
            q ≠ [] ∧ d.get? q = none ∧ d₁.get? q = some .dir ∧ q <+: (name :: rest).reverse :=
          (ih hrest).imp_right fun ⟨hne, hq, hdir, hq'⟩ => ⟨hne, hq, hdir, hq'.trans hpre⟩
        rw [hrest] at h
        cases ok₁ with
        | false =>
          cases h
          exact hd₁
        | true =>
          dsimp only at h
          split_ifs at h
          · cases h
            exact hd₁
          · split at h
            next d₂ hmkdir =>
              cases h
              obtain ⟨-, hget⟩ := get?_mkdir hmkdir
              rw [hget]
              split_ifs with hq
              · subst hq
                exact .inr ⟨by simp, hnone, rfl, prefix_refl _⟩
              · exact hd₁
            next =>
              cases h
              exact hd₁

lemma isDir_of_mkdirAll (h : mkdirAll env rev d = (d', true)) : d'.isDir rev.reverse = true := by
  cases rev with
  | nil => rfl
  | cons name rest =>
    have hne : (name :: rest).reverse ≠ [] := by simp
    rw [isDir_iff_of_ne_nil hne]
    rw [mkdirAll] at h
    split at h
    next e he =>
      obtain ⟨rfl, hdir⟩ := Prod.mk.inj h
      rw [he, ← hdir]
      rfl
    next =>
      cases hrest : mkdirAll env rest d with
      | mk d₁ ok₁ =>
        rw [hrest] at h
        cases ok₁ with
        | false => cases h
        | true =>
          dsimp only at h
          split_ifs at h
          · cases h
          split at h
          next d₂ hmkdir =>
            cases h
            rw [(get?_mkdir hmkdir).2, if_pos rfl]
            rfl
          next => cases h

lemma mkdirAll_within {ok : Bool} (hdest : d.isDir dest = true) (hp : dest <+: q) (hpq : p <+: q)
    (h : mkdirAll env p.reverse d = (d', ok)) : Within dest d d' where
  outside x hx := by
    obtain hsame | ⟨hnil, hnone, -, hxp⟩ := get?_mkdirAll h x
    · exact hsame
    · -- a name on the way to the directory is there already
      rw [reverse_reverse] at hxp
      have hxdest : x <+: dest := by
        obtain hle | hge := Nat.le_total x.length dest.length
        · exact prefix_of_prefix_length_le (hxp.trans hpq) hp hle
        · exact absurd (prefix_of_prefix_length_le hp (hxp.trans hpq) hge) hx
      have hdir := isDir_of_prefix hxdest hdest
      rw [isDir_iff_of_ne_nil hnil, hnone] at hdir
      cases hdir
  links x toDir hx := by
    obtain hsame | ⟨-, -, hdir, -⟩ := get?_mkdirAll h x
    · exact hsame ▸ hx
    · cases hdir.symm.trans hx
  dirs x hx := by
    by_cases hnil : x = []
    · subst hnil
      rfl
    rw [isDir_iff_of_ne_nil hnil] at hx ⊢
    obtain hsame | ⟨-, hnone, -, -⟩ := get?_mkdirAll h x
    · rwa [hsame]
    · rw [hnone] at hx
      cases hx

end
section

variable {env : Env} {d d' : Disk} {dest target : Path} {lim : Limits} {e : TarEntry} {remaining : ℤ}

/-- The largest `int64`. -/
def maxInt64 : ℤ := 2 ^ 63 - 1

lemma wrap64_of_lt (hpos : 0 < remaining) (h : remaining < maxInt64) : wrap64 (remaining + 1) = remaining + 1 := by
  unfold wrap64 maxInt64 at *
  exact Int.bmod_eq_of_le_mul_two (by omega) (by omega)

lemma toNat_wrap64_maxInt64 : (wrap64 (maxInt64 + 1)).toNat = 0 := by
  decide

/-- The bytes that the copy reads: one more than are left, where that is an `int64`. -/
lemma copied_read (hpos : 0 < remaining) (h : remaining < maxInt64) :
    (copied env d e target remaining).1 = e.content.take (remaining + 1).toNat := by
  unfold copied
  rw [wrap64_of_lt hpos h]
  split <;> rfl

lemma copied_read_of_maxInt64 : (copied env d e target maxInt64).1 = [] := by
  unfold copied
  rw [toNat_wrap64_maxInt64]
  split <;> rfl

lemma copied_taken (env : Env) (d : Disk) (e : TarEntry) (target : Path) (remaining : ℤ) :
    (copied env d e target remaining).2 =
      match env.room d target with
      | none => (copied env d e target remaining).1
      | some n => (copied env d e target remaining).1.take n := by
  unfold copied
  cases env.room d target with
  | none | some n => rfl

lemma copied_taken_le (env : Env) (d : Disk) (e : TarEntry) (target : Path) (remaining : ℤ) :
    (copied env d e target remaining).2.length ≤ (copied env d e target remaining).1.length := by
  rw [copied_taken]
  split
  · exact Nat.le_refl _
  · rw [length_take]
    exact Nat.min_le_right _ _

/-- The file of an entry is opened. -/
structure Opens (env : Env) (d d' : Disk) (target : Path) : Prop where
  parent : mkdirAll env target.dropLast.reverse d = (d', true)
  notFailed : env.openFails d' target = false
  canWrite : d'.canWrite target = true

/-- What `writeRegular` does: it fails before it writes, or it copies to an open file. -/
lemma writeRegular_cases (env : Env) (d : Disk) (e : TarEntry) (target : Path) (remaining : ℤ) :
    ((writeRegular env d e target remaining).bytes = 0 ∧
        (∃ err, (writeRegular env d e target remaining).result = .error err) ∧
        ∃ ok, mkdirAll env target.dropLast.reverse d = ((writeRegular env d e target remaining).disk, ok) ∨
          (writeRegular env d e target remaining).disk = d) ∨ 0 < remaining ∧ ∃ d', Opens env d d' target ∧
        (writeRegular env d e target remaining).disk = d'.write target (copied env d' e target remaining).2 ∧
        (writeRegular env d e target remaining).bytes = (copied env d' e target remaining).2.length ∧
        ∀ n, (writeRegular env d e target remaining).result = .ok n → n = (copied env d' e target remaining).2.length ∧
          (copied env d' e target remaining).1.length ≤ n ∧ (n : ℤ) ≤ remaining := by
  unfold writeRegular
  split_ifs with hpos
  · exact .inl ⟨rfl, ⟨_, rfl⟩, true, .inr rfl⟩
  · cases hdirs : mkdirAll env target.dropLast.reverse d with
    | mk d₁ ok =>
      cases ok with
      | false => exact .inl ⟨rfl, ⟨_, rfl⟩, false, .inl rfl⟩
      | true =>
        dsimp only
        by_cases hopen : env.openFails d₁ target = true ∨ ¬ d₁.canWrite target = true
        · rw [if_pos hopen]
          exact .inl ⟨rfl, ⟨_, rfl⟩, true, .inl rfl⟩
        · rw [if_neg hopen]
          obtain ⟨hfails, hcan⟩ := not_or.1 hopen
          refine .inr ⟨Int.not_le.1 hpos, d₁, ⟨hdirs, Bool.eq_false_iff.2 hfails, not_not.1 hcan⟩, rfl, rfl, ?_⟩
          intro n hn
          split_ifs at hn with hcopy hclose hover
          cases hn
          exact ⟨rfl, Nat.not_lt.1 (not_or.1 hcopy).1, Int.not_lt.1 hover⟩

lemma writeRegular_of_opens (hpos : 0 < remaining) (h : Opens env d d' target) :
    (writeRegular env d e target remaining).bytes = (copied env d' e target remaining).2.length ∧
      (remaining < (copied env d' e target remaining).2.length →
        ∃ err, (writeRegular env d e target remaining).result = .error err) := by
  have hopen : ¬ (env.openFails d' target = true ∨ ¬ d'.canWrite target = true) := by
    rw [h.notFailed, h.canWrite]
    simp
  unfold writeRegular
  rw [if_neg (Int.not_le.2 hpos), h.parent]
  dsimp only
  rw [if_neg hopen]
  refine ⟨rfl, fun hover => ?_⟩
  split_ifs
  all_goals exact ⟨_, rfl⟩

lemma writeRegular_within (hdest : d.isDir dest = true) (ht : dest <+: target) :
    Within dest d (writeRegular env d e target remaining).disk := by
  have hparent : target.dropLast <+: target := List.dropLast_prefix target
  obtain ⟨-, -, ok, hdirs | hsame⟩ | ⟨-, d', hopens, hdisk, -⟩ :=
      writeRegular_cases env d e target remaining
  · exact mkdirAll_within hdest ht hparent hdirs
  · rw [hsame]
    exact Within.refl dest d
  · rw [hdisk]
    exact (mkdirAll_within hdest ht hparent hopens.parent).trans (write_within ht _)

lemma prefix_of_safeTarget {name : Text} (h : safeTarget dest name = .ok target) : dest <+: target := by
  unfold safeTarget at h
  split_ifs at h with hempty hnul hback habs hdots
  dsimp only at h
  split_ifs at h
  cases h
  rw [resolve, if_neg habs]
  exact prefix_foldl_enter hdots dest

lemma place_within (st : State) (hdest : st.disk.isDir dest = true) :
    Within dest st.disk (place env dest lim st e).1.disk := by
  unfold place
  split
  · exact Within.refl dest _
  next target htarget =>
    have ht := prefix_of_safeTarget htarget
    split_ifs
    · cases hdirs : mkdirAll env target.reverse st.disk with
      | mk d' ok =>
        cases ok <;> exact mkdirAll_within hdest ht (prefix_refl _) hdirs
    · dsimp only
      split
      all_goals exact writeRegular_within hdest ht

variable {st : State}

lemma step_within (hdest : st.disk.isDir dest = true) :
    Within dest st.disk (step env dest lim st e).1.disk := by
  unfold step
  dsimp only
  split_ifs
  · exact Within.refl dest _
  · split
    · exact Within.refl dest _
    · exact place_within { st with count := st.count + 1 } hdest

lemma loop_within {complete : Bool} {entries : List TarEntry} (st : State) (hdest : st.disk.isDir dest = true) :
    Within dest st.disk (loop env dest lim complete entries st).1.disk := by
  induction entries generalizing st with
  | nil => exact Within.refl dest _
  | cons e rest ih =>
    have hstep : Within dest st.disk (step env dest lim st e).1.disk := step_within hdest
    rw [loop]
    split
    next st' err hst =>
      rwa [hst] at hstep
    next st' hst =>
      rw [hst] at hstep
      split_ifs
      · exact hstep
      · exact hstep.trans (ih st' (hstep.dirs dest hdest))

/-- The disk takes more of a file than the budget has left. -/
structure Cuts (env : Env) (dest : Path) (lim : Limits) (st : State) (e : TarEntry) : Prop where
  counted : (st.count : ℤ) < lim.maxEntries
  regular : e.typeflag = typeReg
  left : st.total < lim.maxTotalSize
  int64 : lim.maxTotalSize - st.total < maxInt64
  longer : lim.maxTotalSize - st.total < e.content.length
  opened : ∃ target d, safeTarget dest e.name = .ok target ∧ Opens env st.disk d target ∧
    ∀ n, env.room d target = some n → lim.maxTotalSize - st.total < n

/-- What the loop keeps: the bytes are counted, and those that are left fit into an `int64`. -/
structure Budget (lim : Limits) (st : State) : Prop where
  total_eq : st.total = st.written
  total_le : st.total ≤ lim.maxTotalSize

variable {st' : State}

/-- What a round does: it fails before it writes, or it is one of the two cases of the second `switch`. -/
lemma step_cases {r : Option ExtractError} (h : step env dest lim st e = (st', r)) :
    (∃ err, r = some err) ∧ st'.written = st.written ∨
      (st.count : ℤ) < lim.maxEntries ∧ st'.count = st.count + 1 ∧
        (e.typeflag = typeDir ∧ st'.written = st.written ∧ st'.total = st.total ∨
          e.typeflag = typeReg ∧ ∃ target, safeTarget dest e.name = .ok target ∧
            let w := writeRegular env st.disk e target (lim.maxTotalSize - st.total)
            st'.written = st.written + w.bytes ∧
              match w.result with
              | .ok n => r = none ∧ st'.total = st.total + n
              | .error err => r = some err) := by
  unfold step at h
  dsimp only at h
  split_ifs at h with hcount
  · cases h
    exact .inl ⟨⟨_, rfl⟩, rfl⟩
  have hlt : (st.count : ℤ) < lim.maxEntries := by
    push_cast at hcount
    omega
  cases htype : refusedType e with
  | some err =>
    rw [htype] at h
    cases h
    exact .inl ⟨⟨_, rfl⟩, rfl⟩
  | none =>
    rw [htype] at h
    dsimp only [place] at h
    cases htarget : safeTarget dest e.name with
    | error err =>
      rw [htarget] at h
      cases h
      exact .inl ⟨⟨_, rfl⟩, rfl⟩
    | ok target =>
      rw [htarget] at h
      dsimp only at h
      by_cases hdir : e.typeflag = typeDir
      · rw [if_pos hdir] at h
        cases hdirs : mkdirAll env target.reverse st.disk with
        | mk d' ok =>
          rw [hdirs] at h
          cases ok with
          | true =>
            cases h
            exact .inr ⟨hlt, rfl, .inl ⟨hdir, rfl, rfl⟩⟩
          | false =>
            cases h
            exact .inl ⟨⟨_, rfl⟩, rfl⟩
      · have hreg : e.typeflag = typeReg := by
          unfold refusedType at htype
          split_ifs at htype with hok
          exact hok.resolve_left hdir
        rw [if_neg hdir] at h
        cases hresult : (writeRegular env st.disk e target (lim.maxTotalSize - st.total)).result with
        | ok n =>
          rw [hresult] at h
          cases h
          refine .inr ⟨hlt, rfl, .inr ⟨hreg, target, rfl, rfl, ?_⟩⟩
          rw [hresult]
          exact ⟨rfl, rfl⟩
        | error err =>
          rw [hresult] at h
          cases h
          refine .inr ⟨hlt, rfl, .inr ⟨hreg, target, rfl, rfl, ?_⟩⟩
          rw [hresult]

lemma remaining_le (hb : Budget lim st) : lim.maxTotalSize - st.total ≤ maxInt64 := by
  have hcap := lim.int64
  have htotal := hb.total_eq
  unfold maxInt64
  omega

/-- What a round that goes on does to the budget. -/
lemma step_none (hb : Budget lim st) (h : step env dest lim st e = (st', none)) :
    Budget lim st' ∧ st'.count = st.count + 1 ∧ (st'.count : ℤ) ≤ lim.maxEntries ∧
      (e.typeflag = typeDir ∨ e.typeflag = typeReg) ∧ (lim.maxTotalSize < maxInt64 → st'.total = st.total + e.size) ∧
      (lim.maxTotalSize = maxInt64 → st.total = 0 → st'.total = 0) := by
  obtain ⟨⟨err, herr⟩, -⟩ | ⟨hlt, hcount, hcase⟩ := step_cases h
  · cases herr
  have hle : (st'.count : ℤ) ≤ lim.maxEntries := by
    rw [hcount]
    push_cast
    omega
  obtain ⟨hdir, hwritten, htotal⟩ | ⟨hreg, target, -, hwritten, hresult⟩ := hcase
  · have hsize : e.size = 0 := by
      unfold TarEntry.size
      rw [hdir, if_neg (by decide)]
    refine ⟨⟨?_, ?_⟩, hcount, hle, .inl hdir, fun _ => ?_, fun _ hzero => htotal.trans hzero⟩
    · rw [htotal, hwritten]
      exact hb.total_eq
    · rw [htotal]
      exact hb.total_le
    · rw [htotal, hsize]
      simp
  · set remaining := lim.maxTotalSize - st.total with hremaining
    split at hresult
    next n hn =>
      obtain ⟨-, htotal⟩ := hresult
      obtain ⟨-, ⟨err, herr⟩, -⟩ | ⟨hpos, d', -, -, hbytes, hok⟩ :=
          writeRegular_cases env st.disk e target remaining
      · cases hn.symm.trans herr
      obtain ⟨hlen, hread, hfits⟩ := hok n hn
      have htaken := copied_taken_le env d' e target remaining
      have htotal_eq := hb.total_eq
      refine ⟨⟨?_, ?_⟩, hcount, hle, .inr hreg, fun hcap => ?_, fun hcap hzero => ?_⟩
      · rw [htotal, hwritten, hbytes, ← hlen]
        push_cast
        omega
      · omega
      · -- the whole content was read, as there was room for one byte more
        have hsize : e.size = e.content.length := if_pos hreg
        have hcontent : (copied env d' e target remaining).1.length = min (remaining + 1).toNat e.content.length := by
          rw [copied_read hpos (by omega), length_take]
        rw [htotal, hsize]
        omega
      · have hmax : remaining = maxInt64 := by omega
        have hnil : (copied env d' e target remaining).1.length = 0 := by
          rw [hmax, copied_read_of_maxInt64]
          rfl
        omega
    next => cases hresult

lemma step_some {err : ExtractError} (hb : Budget lim st)
    (h : step env dest lim st e = (st', some err)) (hcuts : ¬ Cuts env dest lim st e) :
    (st'.written : ℤ) ≤ lim.maxTotalSize := by
  have htotal_eq := hb.total_eq
  have htotal_le := hb.total_le
  obtain ⟨-, hwritten⟩ | ⟨hlt, _, hcase⟩ := step_cases h
  · rw [hwritten]
    omega
  obtain ⟨_, hwritten, -⟩ | ⟨hreg, target, htarget, hwritten, -⟩ := hcase
  · rw [hwritten]
    omega
  set remaining := lim.maxTotalSize - st.total with hremaining
  obtain ⟨hzero, -⟩ | ⟨hpos, d', hopens, -, hbytes, -⟩ :=
      writeRegular_cases env st.disk e target remaining
  · rw [hwritten, hzero]
    omega
  · rw [hwritten, hbytes]
    by_contra hover
    have hlonger : remaining < (copied env d' e target remaining).2.length := by
      push_cast at hover
      omega
    have htaken := copied_taken_le env d' e target remaining
    have hmax : remaining < maxInt64 := by
      by_contra hnot
      have hle := remaining_le hb
      have heq : remaining = maxInt64 := by omega
      have hnil : (copied env d' e target remaining).1.length = 0 := by
        rw [heq, copied_read_of_maxInt64]
        rfl
      omega
    have hcontent : (copied env d' e target remaining).1.length = min (remaining + 1).toNat e.content.length := by
      rw [copied_read hpos hmax, length_take]
    refine hcuts ⟨hlt, hreg, by omega, hmax, by omega, target, d', htarget, hopens, fun n hn => ?_⟩
    rw [copied_taken, hn, length_take] at hlonger
    omega

lemma step_of_cuts (hb : Budget lim st) (hcuts : Cuts env dest lim st e) :
    ∃ st' err, step env dest lim st e = (st', some err) ∧ (st'.written : ℤ) = lim.maxTotalSize + 1 := by
  obtain ⟨hcount, hreg, hleft, hint64, hlonger, target, d', htarget, hopens, hroom⟩ := hcuts
  set remaining := lim.maxTotalSize - st.total with hremaining
  have hpos : 0 < remaining := by omega
  obtain ⟨hbytes, herror⟩ := writeRegular_of_opens (e := e) hpos hopens
  have hread : (copied env d' e target remaining).1.length = (remaining + 1).toNat := by
    rw [copied_read hpos hint64, length_take]
    omega
  have htaken : (copied env d' e target remaining).2.length = (remaining + 1).toNat := by
    rw [copied_taken]
    cases hr : env.room d' target with
    | none => exact hread
    | some n =>
      have hn := hroom n hr
      rw [length_take, hread]
      omega
  obtain ⟨err, herr⟩ := herror (by omega)
  have htotal_eq := hb.total_eq
  set w := writeRegular env st.disk e target remaining with hw
  have hstep : step env dest lim st e =
      (⟨w.disk, st.written + w.bytes, st.total, st.count + 1⟩, some err) := by
    have hlimit : ¬ ((st.count + 1 : ℕ) : ℤ) > lim.maxEntries := by
      push_cast
      omega
    have htype : refusedType e = none := if_pos (.inr hreg)
    have hdir : e.typeflag ≠ typeDir := by
      rw [hreg]
      decide
    unfold step
    rw [if_neg hlimit, htype]
    dsimp only [place]
    rw [htarget]
    dsimp only
    rw [if_neg hdir, ← hremaining, ← hw, herr]
  refine ⟨_, err, hstep, ?_⟩
  rw [hbytes, htaken]
  push_cast
  omega

/-- The loop comes to an entry in a state. -/
inductive Comes (env : Env) (dest : Path) (lim : Limits) : State → List TarEntry → State → TarEntry → Prop
  | here {st : State} {e : TarEntry} {rest : List TarEntry} : Comes env dest lim st (e :: rest) st e
  | next {st st' st'' : State} {e e' : TarEntry} {rest : List TarEntry} :
      step env dest lim st e = (st', none) → e.broken = false → Comes env dest lim st' rest st'' e' →
      Comes env dest lim st (e :: rest) st'' e'

variable {complete : Bool} {entries : List TarEntry} {st st' : State}

/-- The state in which the loop comes to an entry. -/
lemma Comes.total (hc : Comes env dest lim st entries st' e) (hb : Budget lim st) :
    Budget lim st' ∧ (lim.maxTotalSize = maxInt64 → st.total = 0 → st'.total = 0) ∧
      (lim.maxTotalSize < maxInt64 → st'.total + e.size ≤ st.total + totalSize entries) := by
  induction hc with
  | @here st e rest =>
    refine ⟨hb, fun _ h => h, fun _ => ?_⟩
    have hsum : totalSize (e :: rest) = e.size + totalSize rest := sum_cons
    omega
  | @next _ _ _ e _ rest hstep _ _ ih =>
    obtain ⟨hb₁, -, -, -, hsize, hzero⟩ := step_none hb hstep
    obtain ⟨hb₂, hzero₂, hsize₂⟩ := ih hb₁
    refine ⟨hb₂, fun hcap h => hzero₂ hcap (hzero hcap h), fun hcap => ?_⟩
    have hsum : totalSize (e :: rest) = e.size + totalSize rest := sum_cons
    omega

lemma loop_written_le (hb : Budget lim st)
    (hcuts : ∀ st' e, Comes env dest lim st entries st' e → ¬ Cuts env dest lim st' e) :
    ((loop env dest lim complete entries st).1.written : ℤ) ≤ lim.maxTotalSize := by
  induction entries generalizing st with
  | nil =>
    have htotal := hb.total_eq
    have hle := hb.total_le
    show (st.written : ℤ) ≤ lim.maxTotalSize
    omega
  | cons e rest ih =>
    rw [loop]
    split
    next st' err hstep => exact step_some hb hstep (hcuts _ _ .here)
    next st' hstep =>
      have hb' := (step_none hb hstep).1
      split_ifs with hbroken
      · have htotal := hb'.total_eq
        have hle := hb'.total_le
        show (st'.written : ℤ) ≤ lim.maxTotalSize
        omega
      · exact ih hb' fun st'' e' hc => hcuts st'' e' (.next hstep (Bool.eq_false_iff.2 hbroken) hc)

/-- What an archive is that is extracted without an error. -/
lemma loop_none (hb : Budget lim st) (h : loop env dest lim complete entries st = (st', none)) :
    Budget lim st' ∧ (entries ≠ [] → ((st.count + entries.length : ℕ) : ℤ) ≤ lim.maxEntries) ∧
      (∀ e ∈ entries, e.typeflag = typeDir ∨ e.typeflag = typeReg) ∧
      (lim.maxTotalSize < maxInt64 → st'.total = st.total + totalSize entries) := by
  induction entries generalizing st with
  | nil =>
    obtain rfl := (Prod.mk.inj h).1
    exact ⟨hb, fun hne => absurd rfl hne, fun e he => absurd he not_mem_nil, fun _ => by simp [totalSize]⟩
  | cons e rest ih =>
    rw [loop] at h
    split at h
    next => cases (Prod.mk.inj h).2
    next st₁ hstep =>
      split_ifs at h with hbroken
      · cases (Prod.mk.inj h).2
      obtain ⟨hb₁, hcount, hle, htype, hsize, -⟩ := step_none hb hstep
      obtain ⟨hb', hlen, htypes, htotal⟩ := ih hb₁ h
      refine ⟨hb', fun _ => ?_, fun x hx => ?_, fun hcap => ?_⟩
      · by_cases hnil : rest = []
        · subst hnil
          rwa [hcount] at hle
        · have hrest := hlen hnil
          rw [length_cons]
          push_cast at hrest ⊢
          omega
      · obtain rfl | hx := mem_cons.1 hx
        · exact htype
        · exact htypes x hx
      · have hsum : totalSize (e :: rest) = e.size + totalSize rest := sum_cons
        omega

lemma loop_eq_none_iff : (loop env dest lim complete entries st).2 = none ↔ complete = true ∧
    ∀ st' e, Comes env dest lim st entries st' e → e.broken = false ∧ (step env dest lim st' e).2 = none := by
  induction entries generalizing st with
  | nil =>
    rw [loop]
    cases complete with
    | true => exact iff_of_true rfl ⟨rfl, nofun⟩
    | false => exact iff_of_false nofun nofun
  | cons e rest ih =>
    rw [loop]
    cases hstep : step env dest lim st e with
    | mk st₁ r =>
      cases r with
      | some err =>
        refine iff_of_false nofun fun h => ?_
        have hnone := (h.2 st e .here).2
        rw [hstep] at hnone
        cases hnone
      | none =>
        cases hbroken : e.broken with
        | true => exact iff_of_false nofun fun h => by simpa [hbroken] using (h.2 st e .here).1
        | false =>
          refine ih.trans (and_congr_right fun _ => ⟨fun h st' e' hc => ?_, fun h st' e' hc => ?_⟩)
          · cases hc with
            | here => exact ⟨hbroken, by rw [hstep]⟩
            | next hstep' _ hc =>
              cases hstep.symm.trans hstep'
              exact h st' e' hc
          · exact h st' e' (.next hstep hbroken hc)

lemma loop_of_cuts (complete : Bool) (hb : Budget lim st) (hc : Comes env dest lim st entries st' e)
    (hcuts : Cuts env dest lim st' e) :
    ((loop env dest lim complete entries st).1.written : ℤ) = lim.maxTotalSize + 1 := by
  induction hc with
  | here =>
    obtain ⟨st₁, err, hstep, hwritten⟩ := step_of_cuts hb hcuts
    rw [loop, hstep]
    exact hwritten
  | next hstep hbroken _ ih =>
    rw [loop, hstep]
    dsimp only
    rw [if_neg (Bool.eq_false_iff.1 hbroken)]
    exact ih (step_none hb hstep).1 hcuts

lemma loop_take (hb : Budget lim st) (h : lim.maxEntries < ((st.count + entries.length : ℕ) : ℤ)) (n : ℕ)
    (hn : ((st.count + n : ℕ) : ℤ) = lim.maxEntries) :
    (loop env dest lim complete (entries.take n) st).1.disk = (loop env dest lim complete entries st).1.disk := by
  induction entries generalizing st n with
  | nil => rw [take_nil]
  | cons e rest ih =>
    cases n with
    | zero =>
      have hcount : ((st.count + 1 : ℕ) : ℤ) > lim.maxEntries := by
        push_cast at hn ⊢
        omega
      have hstep : step env dest lim st e =
          ({ st with count := st.count + 1 }, some (.maxEntries lim.maxEntries)) := if_pos hcount
      rw [loop, hstep]
      rfl
    | succ n =>
      rw [take_succ_cons, loop, loop]
      cases hstep : step env dest lim st e with
      | mk st₁ r =>
        cases r with
        | some err => rfl
        | none =>
          obtain ⟨hb₁, hcount, -⟩ := step_none hb hstep
          split_ifs
          · rfl
          · refine ih hb₁ ?_ n ?_
            · rw [hcount]
              rw [length_cons] at h
              push_cast at h ⊢
              omega
            · rw [hcount]
              push_cast at hn ⊢
              omega

end

variable (env : Env) (a : Archive) (dest : Text) (lim : Limits) (d : Disk)

/-- What the extraction of an archive is to respect. -/
structure Respects : Prop where
  /-- What is made or written is at or below the destination, besides the directories that lead to it. -/
  confined : ∀ p, (tarGz env a dest lim d).1.disk.get? p ≠ d.get? p →
    ∃ destAbs, filepathAbs env.getwd dest = some destAbs ∧
      (destAbs <+: p ∨ p <+: destAbs ∧ (tarGz env a dest lim d).1.disk.get? p = some .dir)
  noLinks : ∀ p toDir, (tarGz env a dest lim d).1.disk.get? p = some (.link toDir) → d.get? p = some (.link toDir)
  withinLimits : (tarGz env a dest lim d).2 = none →
    ((tarGz env a dest lim d).1.written : ℤ) ≤ lim.withDefaults.maxTotalSize ∧
      (a.entries.length : ℤ) ≤ lim.withDefaults.maxEntries ∧
      ∀ e ∈ a.entries, e.typeflag = typeDir ∨ e.typeflag = typeReg
  tooLarge : lim.withDefaults.maxTotalSize < totalSize a.entries →
    (tarGz env a dest lim d).2 ≠ none ∧
      ((tarGz env a dest lim d).1.written : ℤ) ≤ lim.withDefaults.maxTotalSize
  /-- Nothing is made for the entries after the last that is allowed. -/
  tooMany : ∀ n : ℕ, n = lim.withDefaults.maxEntries → n < a.entries.length →
    (tarGz env a dest lim d).2 ≠ none ∧
      (tarGz env { a with entries := a.entries.take n } dest lim d).1.disk = (tarGz env a dest lim d).1.disk

/-- Something fails: the archive breaks off, the destination cannot be made, or an entry that the loop comes to cannot
be read or placed. -/
def Fails : Prop :=
  a.gzip = false ∨ a.complete = false ∨ ∀ destAbs d', filepathAbs env.getwd dest = some destAbs →
    mkdirAll env destAbs.reverse d = (d', true) → ∃ st e,
      Comes env destAbs lim.withDefaults ⟨d', 0, 0, 0⟩ a.entries st e ∧
        (e.broken = true ∨ (step env destAbs lim.withDefaults st e).2 ≠ none)

/-- No file is cut: where the extraction comes to a file and opens it, the file is not longer than what is left
of the total size, or the disk takes no more of it. With the largest limit there is, whose successor is no
`int64`, nothing is read, and an archive over that limit has to fail for another reason. -/
structure Uncut : Prop where
  files : a.gzip = true → ∀ destAbs d', filepathAbs env.getwd dest = some destAbs →
    mkdirAll env destAbs.reverse d = (d', true) →
    ∀ st e, Comes env destAbs lim.withDefaults ⟨d', 0, 0, 0⟩ a.entries st e →
      ¬ Cuts env destAbs lim.withDefaults st e
  largest : lim.withDefaults.maxTotalSize = maxInt64 → maxInt64 < totalSize a.entries → Fails env a dest lim d

variable {env a dest lim d}

lemma withDefaults_pos (lim : Limits) : 0 < lim.withDefaults.maxTotalSize ∧ 0 < lim.withDefaults.maxEntries := by
  unfold Limits.withDefaults
  dsimp only
  constructor
  all_goals
    split_ifs with h
    · decide
    · exact Int.not_le.1 h

lemma budget_start (lim : Limits) (d : Disk) : Budget lim.withDefaults ⟨d, 0, 0, 0⟩ :=
  ⟨rfl, Int.le_of_lt (withDefaults_pos lim).1⟩

/-- The extraction fails before the loop, or it is the loop. -/
lemma tarGz_cases (env : Env) (a : Archive) (dest : Text) (lim : Limits) (d : Disk) :
    (∃ err d', tarGz env a dest lim d = (⟨d', 0, 0, 0⟩, some err) ∧
        (d' = d ∨ ∃ destAbs, filepathAbs env.getwd dest = some destAbs ∧
          mkdirAll env destAbs.reverse d = (d', false)) ∧
        ∀ entries, (tarGz env { a with entries := entries } dest lim d).1.disk = d') ∨
      a.gzip = true ∧ ∃ destAbs d', filepathAbs env.getwd dest = some destAbs ∧
        mkdirAll env destAbs.reverse d = (d', true) ∧
        ∀ entries, tarGz env { a with entries := entries } dest lim d =
          loop env destAbs lim.withDefaults a.complete entries ⟨d', 0, 0, 0⟩ := by
  unfold tarGz
  by_cases hgzip : a.gzip = true
  · simp only [hgzip, not_true_eq_false, if_false]
    cases habs : filepathAbs env.getwd dest with
    | none => exact .inl ⟨_, d, rfl, .inl rfl, fun _ => rfl⟩
    | some destAbs =>
      cases hdirs : mkdirAll env destAbs.reverse d with
      | mk d' ok =>
        cases ok with
        | false =>
          refine .inl ⟨.mkdir, d', ?_, .inr ⟨destAbs, rfl, hdirs⟩, fun _ => ?_⟩
          all_goals simp only [hdirs]
        | true =>
          refine .inr ⟨trivial, destAbs, d', rfl, hdirs, fun _ => ?_⟩
          simp only [hdirs]
  · simp only [hgzip]
    exact .inl ⟨_, d, rfl, .inl rfl, fun _ => rfl⟩

lemma fails_iff : Fails env a dest lim d ↔ (tarGz env a dest lim d).2 ≠ none := by
  unfold Fails tarGz
  cases a.gzip with
  | false => simp
  | true =>
    cases habs : filepathAbs env.getwd dest with
    | none => simp
    | some destAbs =>
      cases hdirs : mkdirAll env destAbs.reverse d with
      | mk d' ok =>
        cases ok with
        | false =>
          refine iff_of_true (.inr (.inr fun _ _ h h' => ?_)) (by simp [hdirs])
          cases h
          cases hdirs.symm.trans h'
        | true =>
          have hloop : (∀ st' e, Comes env destAbs lim.withDefaults ⟨d', 0, 0, 0⟩ a.entries st' e → e.broken = false ∧
              (step env destAbs lim.withDefaults st' e).2 = none) ↔ ¬ ∃ st' e, Comes env destAbs lim.withDefaults
                ⟨d', 0, 0, 0⟩ a.entries st' e ∧ (e.broken = true ∨
                  (step env destAbs lim.withDefaults st' e).2 ≠ none) := by
            simp
          simp only [not_true_eq_false, if_false, hdirs, Ne, loop_eq_none_iff, hloop, not_and_or, not_not]
          rw [Bool.not_eq_true, or_iff_right (by simp)]
          refine or_congr_right ⟨fun h => h destAbs d' rfl hdirs, fun h _ _ hdest hdirs' => ?_⟩
          cases hdest
          cases hdirs.symm.trans hdirs'
          exact h

lemma mkdirAll_dest {destAbs : Path} {d' : Disk} {ok : Bool} (h : mkdirAll env destAbs.reverse d = (d', ok))
    (p : Path) : d'.get? p = d.get? p ∨ p <+: destAbs ∧ d.get? p = none ∧ d'.get? p = some .dir := by
  obtain hsame | ⟨-, hnone, hdir, hp⟩ := get?_mkdirAll h p
  · exact .inl hsame
  · exact .inr ⟨reverse_reverse destAbs ▸ hp, hnone, hdir⟩

lemma tarGz_confined (p : Path) (h : (tarGz env a dest lim d).1.disk.get? p ≠ d.get? p) :
    ∃ destAbs, filepathAbs env.getwd dest = some destAbs ∧
      (destAbs <+: p ∨ p <+: destAbs ∧ (tarGz env a dest lim d).1.disk.get? p = some .dir) := by
  obtain ⟨err, d', heq, hbefore, -⟩ | ⟨-, destAbs, d', habs, hdirs, heq⟩ := tarGz_cases env a dest lim d
  · rw [heq] at h ⊢
    obtain rfl | ⟨destAbs, habs, hdirs⟩ := hbefore
    · exact absurd rfl h
    · obtain hsame | ⟨hp, -, hdir⟩ := mkdirAll_dest hdirs p
      · exact absurd hsame h
      · exact ⟨destAbs, habs, .inr ⟨hp, hdir⟩⟩
  · refine ⟨destAbs, habs, or_iff_not_imp_left.2 fun hp => ?_⟩
    have hdest : d'.isDir destAbs = true := reverse_reverse destAbs ▸ isDir_of_mkdirAll hdirs
    have hwithin : Within destAbs d' (tarGz env a dest lim d).1.disk := by
      rw [heq a.entries]
      exact loop_within ⟨d', 0, 0, 0⟩ hdest
    have hsame := hwithin.outside p hp
    rw [hsame] at h
    obtain hd | ⟨hpre, -, hdir⟩ := mkdirAll_dest hdirs p
    · exact absurd hd h
    · exact ⟨hpre, hsame.trans hdir⟩

lemma tarGz_noLinks (p : Path) (toDir : Bool) (h : (tarGz env a dest lim d).1.disk.get? p = some (.link toDir)) :
    d.get? p = some (.link toDir) := by
  have hmade : ∀ {destAbs : Path} {d' : Disk} {ok : Bool}, mkdirAll env destAbs.reverse d = (d', ok) →
      d'.get? p = some (.link toDir) → d.get? p = some (.link toDir) := by
    intro destAbs d' ok hdirs hlink
    obtain hsame | ⟨-, -, hdir⟩ := mkdirAll_dest hdirs p
    · exact hsame ▸ hlink
    · cases hdir.symm.trans hlink
  obtain ⟨err, d', heq, hbefore, -⟩ | ⟨-, destAbs, d', habs, hdirs, heq⟩ := tarGz_cases env a dest lim d
  · rw [heq] at h
    obtain rfl | ⟨destAbs, -, hdirs⟩ := hbefore
    · exact h
    · exact hmade hdirs h
  · have hdest : d'.isDir destAbs = true := reverse_reverse destAbs ▸ isDir_of_mkdirAll hdirs
    rw [heq a.entries] at h
    exact hmade hdirs ((loop_within ⟨d', 0, 0, 0⟩ hdest).links p toDir h)

/-- What an archive is that is extracted without an error. -/
lemma tarGz_none (h : (tarGz env a dest lim d).2 = none) :
    ((tarGz env a dest lim d).1.written : ℤ) ≤ lim.withDefaults.maxTotalSize ∧
      (a.entries.length : ℤ) ≤ lim.withDefaults.maxEntries ∧
      (∀ e ∈ a.entries, e.typeflag = typeDir ∨ e.typeflag = typeReg) ∧
      (lim.withDefaults.maxTotalSize < maxInt64 → (totalSize a.entries : ℤ) ≤ lim.withDefaults.maxTotalSize) := by
  obtain ⟨err, d', heq, -⟩ | ⟨-, destAbs, d', -, -, heq⟩ := tarGz_cases env a dest lim d
  · rw [heq] at h
    cases h
  · rw [heq a.entries] at h ⊢
    obtain ⟨st', hloop⟩ : ∃ st', loop env destAbs lim.withDefaults a.complete a.entries ⟨d', 0, 0, 0⟩ =
        (st', none) := ⟨_, Prod.ext rfl h⟩
    obtain ⟨hb, hlen, htypes, htotal⟩ := loop_none (budget_start lim d') hloop
    have heq := hb.total_eq
    have hle := hb.total_le
    rw [hloop]
    refine ⟨heq ▸ hle, ?_, htypes, fun hcap => ?_⟩
    · by_cases hnil : a.entries = []
      · rw [hnil]
        exact Int.le_of_lt (withDefaults_pos lim).2
      · simpa using hlen hnil
    · have hsum : st'.total = 0 + totalSize a.entries := htotal hcap
      omega

/-- An extraction respects all of this if and only if no file is cut. -/
theorem respects_iff (env : Env) (a : Archive) (dest : Text) (lim : Limits) (d : Disk) :
    Respects env a dest lim d ↔ Uncut env a dest lim d := by
  have hint64 : lim.withDefaults.maxTotalSize ≤ maxInt64 := by
    have hlt := lim.withDefaults.int64
    unfold maxInt64
    omega
  constructor
  · intro h
    refine ⟨fun hgzip destAbs d' habs hdirs st e hc hcuts => ?_, fun hcap hsize =>
      fails_iff.2 (h.tooLarge (hcap ▸ hsize)).1⟩
    obtain ⟨_, hzero, hsize⟩ := hc.total (budget_start lim d')
    have hleft := hcuts.int64
    have hlonger := hcuts.longer
    have hcap : lim.withDefaults.maxTotalSize < maxInt64 := by
      by_contra hnot
      have hst := hzero (by omega) rfl
      omega
    have hregular : e.size = e.content.length := if_pos hcuts.regular
    have hover := hsize hcap
    have hwritten := (h.tooLarge (by dsimp only at hover; omega)).2
    have hloop := loop_of_cuts a.complete (budget_start lim d') hc hcuts
    have heq : tarGz env a dest lim d =
        loop env destAbs lim.withDefaults a.complete a.entries ⟨d', 0, 0, 0⟩ := by
      unfold tarGz
      simp only [hgzip, not_true_eq_false, if_false, habs, hdirs]
    rw [heq, hloop] at hwritten
    omega
  · intro h
    refine {
      confined := tarGz_confined
      noLinks := tarGz_noLinks
      withinLimits := fun hnone => ?_
      tooLarge := fun hsize => ⟨fun hnone => ?_, ?_⟩
      tooMany := fun n hn hlen => ⟨fun hnone => ?_, ?_⟩ }
    · obtain ⟨hwritten, hlen, htypes, -⟩ := tarGz_none hnone
      exact ⟨hwritten, hlen, htypes⟩
    · by_cases hcap : lim.withDefaults.maxTotalSize < maxInt64
      · have hle := (tarGz_none hnone).2.2.2 hcap
        omega
      · have hmax : lim.withDefaults.maxTotalSize = maxInt64 := by omega
        exact fails_iff.1 (h.largest hmax (hmax ▸ hsize)) hnone
    · obtain ⟨err, d', heq, -⟩ | ⟨hgzip, destAbs, d', habs, hdirs, heq⟩ := tarGz_cases env a dest lim d
      · rw [heq]
        exact Int.le_of_lt (withDefaults_pos lim).1
      · rw [heq a.entries]
        exact loop_written_le (budget_start lim d') (h.files hgzip destAbs d' habs hdirs)
    · have hle := (tarGz_none hnone).2.1
      omega
    · obtain ⟨err, d', heq, -, hall⟩ | ⟨-, destAbs, d', -, -, heq⟩ := tarGz_cases env a dest lim d
      · rw [hall (a.entries.take n), heq]
      · rw [heq (a.entries.take n), heq a.entries]
        have hmany : lim.withDefaults.maxEntries < ((0 + a.entries.length : ℕ) : ℤ) := by omega
        have hn' : ((0 + n : ℕ) : ℤ) = lim.withDefaults.maxEntries := by omega
        exact loop_take (budget_start lim d') hmany n hn'

/-- No operation fails, and the working directory is the root. -/
def noFaults : Env where
  getwd := some []
  mkdirFails _ _ := false
  openFails _ _ := false
  room _ _ := none
  closeFails _ _ := false

def twoBytes : Archive where
  gzip := true
  entries := [⟨typeReg, ['f'], [0, 0], false⟩]
  complete := true

/-- With a limit of one byte, two bytes are written before the error. -/
theorem not_respects_twoBytes :
    ¬ Respects noFaults twoBytes ['/', 'm'] ⟨0, 1, by decide⟩ ⟨∅, fun p name h => by simp at h⟩ := by
  intro h
  have hwritten := (h.tooLarge (by decide)).2
  revert hwritten
  decide +kernel

end Extract
