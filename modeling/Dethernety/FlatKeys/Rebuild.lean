import Mathlib.Data.List.Sort
import Mathlib.Data.List.Lex
import Dethernety.Foundations.Record
import Dethernety.FlatKeys.Key

/-!
# Rebuilding nested values

Model of `unflattenFlatKeys`. A container that the rebuild creates is held in one place only and is
part of the tree; the set `created` of the source holds exactly these containers. A list or an object
that came in as a value may be held in several places and lives in a store, which `write` would change
if it ever entered one.
-/

namespace FlatKeys

/-- A value of the input: `P` are the primitive values, `G` the lists and objects. -/
inductive Input (P G : Type)
  | undefined
  | null
  | prim (p : P)
  | object (g : G)
  deriving DecidableEq

/-- What is held in one place. -/
inductive Tree (P G : Type)
  | input (value : Input P G)
  | list (slots : List (Tree P G))
  | dict (entries : List (Key × Tree P G))

/-- The contents of the lists and objects of the input. -/
abbrev Store (P G : Type) := G → Tree P G

variable {P G : Type}

namespace Tree

/-- `undefined` -/
def undef : Tree P G :=
  input .undefined

def null : Tree P G :=
  input .null

def absent : Tree P G → Bool
  | input .undefined => true
  | input .null => true
  | _ => false

/-- `own`; a list has no entry for a name and an object none for an index. -/
def own : Tree P G → Segment → Tree P G
  | list slots, .index i => (slots[i]?).getD undef
  | dict entries, .name n => (Record.lookup n entries).getD undef
  | _, _ => undef

/-- Push `null` up to an index. -/
def padTo (slots : List (Tree P G)) (i : ℕ) : List (Tree P G) :=
  slots ++ List.replicate (i + 1 - slots.length) null

/-- `slots[i] = value`, with holes up to the index. -/
def setSlot (slots : List (Tree P G)) (i : ℕ) (value : Tree P G) : List (Tree P G) :=
  if i < slots.length then slots.set i value
  else slots ++ List.replicate (i - slots.length) undef ++ [value]

/-- The step before an assignment where lists are padded. -/
def pad (padLists : Bool) : Tree P G → Segment → Tree P G
  | list slots, .index i => list (if padLists then padTo slots i else slots)
  | t, _ => t

/-- `current[k] = value` -/
def put : Tree P G → Segment → Tree P G → Tree P G
  | list slots, .index i, value => list (setSlot slots i value)
  | dict entries, .name n, value => dict (Record.insertEntry n value entries)
  | t, _, _ => t

/-- A new container for the part that follows. -/
def fresh : Segment → Tree P G
  | .index _ => list []
  | .name _ => dict []

/-- A container of the rebuild of the kind that a part needs: a list for an index, an object for a
name. -/
def fits : Tree P G → Segment → Bool
  | list _, .index _ => true
  | dict _, .name _ => true
  | _, _ => false

/-- The entries that a list lacks up to an index: `Math.max(0, index + 1 - length)`. -/
def lacking : Tree P G → Segment → ℕ
  | list slots, .index i => i + 1 - slots.length
  | _, _ => 0

/-- `growthOf`: the list entries that a write would create, or `none` for a conflict. -/
def growthOf : Tree P G → List Segment → Option ℕ
  | _, [] => some 0
  | current, segment :: segments =>
    if current.absent then
      -- built by this key from here on
      (growthOf current segments).map (lacking (fresh segment : Tree P G) segment + ·)
    else if !current.fits segment then none
    else if segments = [] ∧ !(current.own segment).absent then none
    else (growthOf (current.own segment) segments).map (current.lacking segment + ·)

variable [DecidableEq G]

/-- The contents of what is held. -/
def deref (store : Store P G) : Tree P G → Tree P G
  | input (.object g) => store g
  | t => t

/-- Give the contents of `current` back: to the tree, or to the store. -/
def commit (current contents : Tree P G) (store : Store P G) : Tree P G × Store P G :=
  match current with
  | input (.object g) => (current, Function.update store g contents)
  | _ => (contents, store)

def write (padLists : Bool) (value : Tree P G) :
    List Segment → Tree P G → Store P G → Tree P G × Store P G
  | [], current, store => (current, store)
  | [segment], current, store =>
    commit current (put (pad padLists (deref store current) segment) segment value) store
  | segment :: following :: segments, current, store =>
    let contents := pad padLists (deref store current) segment
    let next := own contents segment
    let entered := if next.absent then fresh following else next
    let written := write padLists value (following :: segments) entered store
    commit current (put contents segment written.1) written.2

end Tree

structure DroppedFlatKey where
  key : Key
  problem : FlatKeyProblem
  deriving DecidableEq

structure UnflattenOptions (P G : Type) where
  padLists : Bool
  /-- Maps each value as it is written. -/
  leaf : Input P G → Input P G

/-- The state of the loop of `unflattenFlatKeys`. -/
structure Rebuild (P G : Type) where
  value : Tree P G
  store : Store P G
  slots : ℕ
  dropped : List DroppedFlatKey

variable [DecidableEq G]

/-- What the loop does with a key: write it, or leave it out. -/
def attempt (options : UnflattenOptions P G) (s : Rebuild P G) (key : Key) (value : Input P G) :
    Except FlatKeyProblem (Rebuild P G) :=
  match parseFlatKey key with
  | .error problem => .error problem
  | .ok segments =>
    match s.value.growthOf segments with
    | none => .error .conflict
    | some growth =>
      if s.slots + growth > maxListSlots then .error .budget
      else
        let written :=
          Tree.write options.padLists (.input (options.leaf value)) segments s.value s.store
        .ok { s with value := written.1, store := written.2, slots := s.slots + growth }

/-- A round of the loop of `unflattenFlatKeys`. -/
def stepKey (options : UnflattenOptions P G) (flat : Record Key (Input P G)) (s : Rebuild P G)
    (key : Key) : Rebuild P G :=
  match attempt options s key ((flat.get? key).getD .undefined) with
  | .ok s' => s'
  | .error problem => { s with dropped := s.dropped ++ [⟨key, problem⟩] }

/-- The state before the first key. -/
def Rebuild.start (store : Store P G) : Rebuild P G where
  value := .dict []
  store := store
  slots := 0
  dropped := []

/-- `Object.keys(flat).sort()` -/
def sortedKeys (flat : Record Key (Input P G)) : List Key :=
  flat.keys.insertionSort (· ≤ ·)

def unflattenFlatKeys (options : UnflattenOptions P G) (store : Store P G)
    (flat : Record Key (Input P G)) : Rebuild P G :=
  (sortedKeys flat).foldl (stepKey options flat) (.start store)

end FlatKeys
