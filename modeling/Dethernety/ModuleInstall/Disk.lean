import Mathlib.Data.List.Sort
import Mathlib.Data.String.Basic
import Dethernety.Foundations.Record

/-!
# The modules directory

What the installs see of the file system: the directories of the modules, the staging area beside them, and the
links that lead elsewhere. A directory is known by the files in it. Operations that do not fit what lies there have
no result (`none`), as the system calls fail.
-/

namespace ModuleInstall

abbrev Bytes := List UInt8

/-- What lies under a directory, by relative path; `none` for what cannot be read as a file. -/
abbrev Tree := Record String (Option Bytes)

/-- The places the installs name. A module key has no dot, so the ones in the staging area differ. -/
inductive Path
  /-- `<modules>/<name>` -/
  | moduleDir (name : String)
  /-- `<modules>/.byodt-console-tmp/<key>`, for the payload root that is extracted in it. -/
  | staging (key : String)
  /-- `<modules>/.byodt-console-tmp/<key>.old` -/
  | backup (key : String)
  /-- `<modules>/.byodt-console-tmp/<name>.removing.<time>` -/
  | removing (name : String) (time : ℕ)
  /-- What a link leads to outside of the modules directory. -/
  | elsewhere (path : String)
  deriving DecidableEq

namespace Path

/-- Whether a path lies in the staging area. -/
def inTmp : Path → Bool
  | staging _ | backup _ | removing _ _ => true
  | moduleDir _ | elsewhere _ => false

def moduleName? : Path → Option String
  | moduleDir name => some name
  | _ => none

end Path

inductive Entry
  | dir (tree : Tree)
  | file
  | link (goal : Path)
  deriving DecidableEq

namespace Entry

def isDir : Entry → Bool
  | dir _ => true
  | _ => false

/-- Whether `os.Rename` puts the first in the place of the second: it refuses to replace a directory. -/
def replaces : Entry → Entry → Bool
  | dir _, _ | _, dir _ => false
  | _, _ => true

end Entry

abbrev Disk := Record Path Entry

/-- What `os.Lstat` answers. -/
inductive Lstat
  | notExist
  | failed
  | found (isDir : Bool)
  deriving DecidableEq

def Lstat.isFound : Lstat → Bool
  | found _ => true
  | _ => false

namespace Disk

/-- How many links are followed at most. -/
def maxLinks : ℕ := 40

def followLinks (d : Disk) : ℕ → Path → Option Path
  | 0, _ => none
  | n + 1, p =>
    match d.get? p with
    | some (.link goal) => followLinks d n goal
    | some _ => some p
    | none => none

/-- Where a path leads when links are followed. -/
def follow (d : Disk) (p : Path) : Option Path :=
  followLinks d maxLinks p

/-- The directory that is found at a path, also behind links. -/
def tree? (d : Disk) (p : Path) : Option Tree :=
  match (follow d p).bind d.get? with
  | some (.dir tree) => some tree
  | _ => none

/-- What can be read of a file in the directory that is found at a path. -/
def file? (d : Disk) (p : Path) (name : String) : Option Bytes :=
  ((tree? d p).bind fun tree => tree.get? name).join

/-- `os.Lstat` -/
def lstat (d : Disk) (p : Path) : Lstat :=
  match d.get? p with
  | some entry => .found entry.isDir
  | none => .notExist

/-- `os.Rename` -/
def rename (d : Disk) (p q : Path) : Option Disk :=
  match d.get? p with
  | none => none
  | some entry => if (d.get? q).all entry.replaces then some ((d.erase p).set q entry) else none

/-- `os.RemoveAll` of the staging area. -/
def removeTmp (d : Disk) : Disk :=
  d.filterKeys fun p => !p.inTmp

/-- `os.Stat`, with whether a directory is found. -/
def stat (d : Disk) (p : Path) : Option Bool :=
  ((follow d p).bind d.get?).map Entry.isDir

/-- Whether `os.Stat` finds something of a name in the directory at a path. -/
def hasFile (d : Disk) (p : Path) (name : String) : Bool :=
  (tree? d p).any fun tree => name ∈ tree.keys

/-- `os.WriteFile` of a file in the directory at a path; what cannot be read as a file cannot be written as one. -/
def writeFile (d : Disk) (p : Path) (name : String) (content : Bytes) : Option Disk := do
  let q ← follow d p
  let .dir tree ← d.get? q | none
  if tree.get? name = some none then none
  return d.set q (.dir (tree.set name (some content)))

/-- `os.Mkdir`, which fails where something is. -/
def mkdir (d : Disk) (p : Path) : Option Disk :=
  if p ∈ d.keys then none else some (d.set p (.dir ∅))

/-- `os.Remove`, which takes no directory that is not empty. -/
def remove (d : Disk) (p : Path) : Disk :=
  match d.get? p with
  | some (.dir tree) => if tree.keys.isEmpty then d.erase p else d
  | _ => d.erase p

/-- What is left of `os.RemoveAll` when it fails: some of the files. -/
def removeSome (d : Disk) (p : Path) (kept : List String) : Disk :=
  match d.get? p with
  | some (.dir tree) => d.set p (.dir (tree.filterKeys (· ∈ kept)))
  | _ => d

/-- `os.ReadDir` of the modules directory, without the staging area. -/
def readDir (d : Disk) : List String :=
  (d.keys.filterMap Path.moduleName?).insertionSort (· ≤ ·)

variable {d : Disk} {p q r : Path}

lemma tree?_of_dir {p : Path} {tree : Option Tree} (h : d.get? p = tree.map .dir) : d.tree? p = tree := by
  unfold tree? follow maxLinks followLinks
  cases tree with
  | none | some tree => simp [h]

lemma file?_of_dir {p : Path} {tree : Option Tree} (h : d.get? p = tree.map .dir) (file : String) :
    d.file? p file = (tree.bind fun tree => tree.get? file).join := by
  unfold file?
  rw [tree?_of_dir h]

lemma get?_rename {d' : Disk} (h : rename d p q = some d') :
    ∃ entry, d.get? p = some entry ∧ (d.get? q).all entry.replaces = true ∧
      ∀ r, d'.get? r = if q = r then some entry else if p = r then none else d.get? r := by
  unfold rename at h
  split at h
  · cases h
  · rename_i entry hentry
    split_ifs at h with hreplaces
    cases h
    refine ⟨entry, hentry, hreplaces, fun r => ?_⟩
    rw [Record.get?_set, Record.get?_erase]

lemma lstat_of_dir {tree : Tree} (h : d.get? p = some (.dir tree)) : d.lstat p = .found true := by
  unfold lstat
  rw [h]
  rfl

lemma hasFile_of_dir {tree : Tree} (h : d.get? p = some (.dir tree)) (name : String) :
    d.hasFile p name = decide (name ∈ tree.keys) := by
  have htree : d.tree? p = some tree := tree?_of_dir h
  rw [hasFile, htree]
  rfl

lemma mem_readDir {name : String} (h : .moduleDir name ∈ d.keys) : name ∈ d.readDir :=
  (List.mem_insertionSort _).2 (List.mem_filterMap.2 ⟨_, h, rfl⟩)

lemma get?_removeTmp (d : Disk) (p : Path) : (removeTmp d).get? p = if p.inTmp then none else d.get? p := by
  unfold removeTmp
  rw [Record.get?_filterKeys]
  cases p.inTmp <;> rfl

end Disk

end ModuleInstall
