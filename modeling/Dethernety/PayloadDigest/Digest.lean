import Dethernety.Foundations.Text
import Mathlib.Data.List.Sort

/-!
# The digest of a module payload

Model of `pkg/payloaddigest/digest.go` and of `computePayloadDigest` of `scripts/module-payload.mjs`
up to the SHA-256: the bytes that the two feed to the hash (`stream`). A payload directory is a tree
of entries under byte names, as the file system stores them. The two programs run the same steps
over it and differ in what a path is to them: bytes in Go, a decoded text in Node, which is encoded
again whenever a path goes back to the file system or into the hash (`Host`).

Paths are relative to the payload directory. Reads that fail for another reason than a missing
entry, and the limits of a runtime on the size of a file, are left out.
-/

namespace PayloadDigest

/-- An entry of a directory: a regular file with its content, a directory with its entries, or
something else (a link, a socket, a device). -/
inductive Node
  | file (data : List UInt8)
  | directory (entries : List (List UInt8 × Node))
  | other

mutual

/-- How many directories lie within each other. -/
def Node.depth : Node → Nat
  | .file _ => 0
  | .directory entries => entriesDepth entries + 1
  | .other => 0

def entriesDepth : List (List UInt8 × Node) → Nat
  | [] => 0
  | entry :: entries => max (entryDepth entry) (entriesDepth entries)

def entryDepth : List UInt8 × Node → Nat
  | (_, node) => node.depth

end

/-- The entry at the end of a list of names. -/
def Node.find? : Node → List (List UInt8) → Option Node
  | node, [] => some node
  | .directory entries, name :: names => (entries.lookup name).bind (·.find? names)
  | .file _, _ :: _ => none
  | .other, _ :: _ => none

/-- The names of a path: its parts between slashes, and none for the directory itself. -/
def segments (path : List UInt8) : List (List UInt8) :=
  if path = [] then [] else path.splitOn 47

def slashPath (names : List (List UInt8)) : List UInt8 :=
  [47].intercalate names

/-- What a directory entry may be called: not empty, without NUL and slash, and neither `.` nor
`..`. -/
def IsName (name : List UInt8) : Prop :=
  name ≠ [] ∧ 0 ∉ name ∧ 47 ∉ name ∧ name ≠ [46] ∧ name ≠ [46, 46]

/-- A directory whose entries, at every depth, have names that differ. -/
structure PayloadDir where
  entries : List (List UInt8 × Node)
  wellFormed : ∀ names es, (Node.directory entries).find? names = some (.directory es) →
    (es.map Prod.fst).Nodup ∧ ∀ e ∈ es, IsName e.1

namespace PayloadDir

variable (dir : PayloadDir)

def root : Node := .directory dir.entries

/-- The content of the regular file at a path: the payload tree as a finite map. -/
def file? (path : List UInt8) : Option (List UInt8) :=
  match dir.root.find? (segments path) with
  | some (.file data) => some data
  | _ => none

/-- Every entry is a regular file or a directory. -/
def Regular : Prop :=
  ∀ names, dir.root.find? names ≠ some .other

/-- Every name satisfies `good`. -/
def Names (good : List UInt8 → Prop) : Prop :=
  ∀ names es, dir.root.find? names = some (.directory es) → ∀ e ∈ es, good e.1

end PayloadDir

/-- What the runtime of a program makes of paths. -/
structure Host (α : Type) where
  /-- The path separator. -/
  slash : α
  /-- The name of a directory entry. -/
  decode : List UInt8 → List α
  /-- The bytes of a path, for the file system and for the hash. -/
  encode : List α → List UInt8
  /-- A text of the program itself. -/
  text : List Char → List α
  /-- The order in which a directory is listed. -/
  listing : List (List UInt8 × Node) → List (List UInt8 × Node)

/-- Why no digest is computed. -/
inductive Failure (α : Type)
  /-- "payload digest: refusing to hash non-regular entry" and the path. -/
  | refused (path : List α)
  /-- A path that does not lead to an entry of the kind that is read. -/
  | notFound (path : List α)
  | tooDeep
  deriving DecidableEq

def stampFilename : List Char := ".dethernety-module.json".toList

namespace Host

variable {α : Type} (host : Host α)

/-- The entries of the directory at a path. -/
def readDir (root : Node) (path : List α) : Except (Failure α) (List (List UInt8 × Node)) :=
  match root.find? (segments (host.encode path)) with
  | some (.directory entries) => .ok (host.listing entries)
  | _ => .error (.notFound path)

/-- The content of the regular file at a path. -/
def readFile (root : Node) (path : List α) : Except (Failure α) (List UInt8) :=
  match root.find? (segments (host.encode path)) with
  | some (.file data) => .ok data
  | _ => .error (.notFound path)

/-- The path of a name in a directory. -/
def join (dir name : List α) : List α :=
  if dir.isEmpty then name else dir ++ host.slash :: name

/-- The body of the loop of `walkFiles`, where `walk` is the recursive call. -/
def visit (walk : List α → List (List α) → Except (Failure α) (List (List α))) (dir : List α)
    (out : List (List α)) (entry : List UInt8 × Node) : Except (Failure α) (List (List α)) :=
  let abs := host.join dir (host.decode entry.1)
  match entry.2 with
  | .directory _ => walk abs out
  | .file _ => .ok (out ++ [abs])
  | .other => .error (.refused abs)

/-- `walkFiles`; the first argument bounds the depth. -/
def walkFiles (root : Node) : Nat → List α → List (List α) → Except (Failure α) (List (List α))
  | 0, _, _ => .error .tooDeep
  | depth + 1, dir, out => do
    let entries ← host.readDir root dir
    entries.foldlM (host.visit (walkFiles root depth) dir) out

/-- One record of the stream: the path, NUL, the decimal length, NUL, the bytes. -/
def record (rel : List α) (data : List UInt8) : List UInt8 :=
  host.encode rel ++ [0] ++ host.encode (host.text (Nat.toDigits 10 data.length)) ++ [0] ++ data

/-- The bytes that `Compute` and `computePayloadDigest` feed to the hash. -/
def stream [DecidableEq α] (root : Node) : Except (Failure α) (List UInt8) := do
  let files ← host.walkFiles root root.depth [] []
  let kept := files.filter (fun rel => rel ≠ host.text stampFilename)
  let sorted := kept.insertionSort (fun a b => host.encode a ≤ host.encode b)
  sorted.foldlM (fun fed rel => do
    let data ← host.readFile root rel
    pure (fed ++ host.record rel data)) []

end Host

/-- Go: a path is a string of bytes, and `os.ReadDir` sorts by name. -/
def go : Host UInt8 where
  slash := 47
  decode name := name
  encode path := path
  text := CharCode.utf8.encode
  listing := List.insertionSort (fun a b => a.1 ≤ b.1)

/-- Node: a path is a text, and the order of `fs.readdirSync` is up to the system. -/
def node (listing : List (List UInt8 × Node) → List (List UInt8 × Node)) : Host Char where
  slash := '/'
  decode := decodeUtf8
  encode := CharCode.utf8.encode
  text t := t
  listing := listing

end PayloadDigest
