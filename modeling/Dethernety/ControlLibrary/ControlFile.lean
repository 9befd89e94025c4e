import Dethernety.Foundations.Record

/-!
# Control files

The schema of `controls/<id>.json` (`control-file.schema.ts`) and the drift test of
`drift-detector.ts`. Attribute values are JSON values; `null` is set apart because the platform
treats it differently, and everything else is an abstract type `J` whose equality is equality of
the serialised text, as all comparisons of the source go through `JSON.stringify`. A missing key
reads as `undefined`, which is `none` here; no attribute has the name of a member of `Object.prototype`.
-/

open Record

namespace ControlLibrary

/-- A JSON value other than `undefined`. -/
inductive JsonValue (J : Type*)
  | null
  | value (v : J)
  deriving DecidableEq

/-- An attribute bag: a JSON object by attribute name. -/
abbrev Attributes (J : Type*) := Record String (JsonValue J)

/-- ISO-8601 instants, in their order. -/
abbrev Timestamp := ℕ

/-- `ControlLifecycle` -/
inductive Lifecycle
  | greenfield
  | partiallyPushed
  | brownfield
  | tombstoned
  deriving DecidableEq, Repr

inductive ControlSource
  | discovered
  | declared
  | both
  deriving DecidableEq

inductive PendingEditAuthor
  | agent
  | operator
  | external
  deriving DecidableEq

/-- Records that a class entry has local edits that wait for a push. -/
structure PendingEditBlock (J : Type*) where
  editedBy : PendingEditAuthor
  editedAt : Timestamp
  /-- Pre-edit values of the keys that were meant to change, those with a prior value. -/
  previousAttributes : Attributes J
  /-- The keys that were meant to change and had no prior value. -/
  firstWriteKeys : Option (List String)
  deriving DecidableEq

structure ControlFileClassEntry (J : Type*) where
  classId : String
  className : Option String
  moduleId : Option String
  /-- The values that are edited locally. -/
  attributes : Attributes J
  /-- The platform's values at the last pull or push. -/
  platformAttributes : Option (Attributes J)
  localEditedAt : Option Timestamp
  pushedAt : Option Timestamp
  pendingEdit : Option (PendingEditBlock J)
  deriving DecidableEq

structure ControlFilePlatformState where
  lastSyncedAt : Option Timestamp
  lastPushedAt : Option Timestamp
  assignedModelCount : Option ℕ
  assignedModelIds : Option (List String)
  deriving DecidableEq

structure ControlFile (J : Type*) where
  id : String
  name : String
  source : ControlSource
  lifecycle : Lifecycle
  classes : List (ControlFileClassEntry J)
  platformState : Option ControlFilePlatformState
  deriving DecidableEq

/-- One entry per class, as the schema documents `classes`. -/
def ControlFile.OneEntryPerClass {J : Type*} (file : ControlFile J) : Prop :=
  (file.classes.map ControlFileClassEntry.classId).Nodup

variable {J : Type*} [DecidableEq J]

def shallowEqualAttrs (a b : Attributes J) : Bool :=
  a.keys.length = b.keys.length && a.keys.all fun k => k ∈ b.keys && a.get? k = b.get? k

/-- `isClassDrifted`: the attributes differ from the platform's and no edit is recorded. -/
def isClassDrifted (entry : ControlFileClassEntry J) : Bool :=
  match entry.platformAttributes with
  | none => false
  | some platformAttributes =>
    if entry.pendingEdit.isSome then false
    else !shallowEqualAttrs entry.attributes platformAttributes

omit [DecidableEq J] in
lemma ControlFile.OneEntryPerClass.eq_of_classId_eq {file : ControlFile J}
    (h : file.OneEntryPerClass) {i j : ℕ} {a b : ControlFileClassEntry J}
    (hi : file.classes[i]? = some a) (hj : file.classes[j]? = some b) (hid : a.classId = b.classId) : i = j := by
  have hi' : (file.classes.map ControlFileClassEntry.classId)[i]? = some a.classId := by simp [hi]
  have hj' : (file.classes.map ControlFileClassEntry.classId)[j]? = some a.classId := by
    simp [hj, hid]
  have hlt := (List.getElem?_eq_some_iff.mp hi').1
  exact (List.getElem?_inj hlt h).mp (hi'.trans hj'.symm)

lemma shallowEqualAttrs_iff {a b : Attributes J} : shallowEqualAttrs a b = true ↔ a.SameEntries b := by
  simp only [shallowEqualAttrs, Bool.and_eq_true, decide_eq_true_eq, List.all_eq_true]
  constructor
  · rintro ⟨hlen, hall⟩ k
    have hsub : a.keys ⊆ b.keys := fun j hj => (hall j hj).1
    by_cases hk : k ∈ a.keys
    · exact (hall k hk).2
    · -- a key of `b` alone would make `b` larger
      have hkb : k ∉ b.keys := fun h => hk (keys_subset_of_length_eq hlen hsub h)
      rw [notMem_keys_iff.mp hk, notMem_keys_iff.mp hkb]
  · intro h
    have hkeys : ∀ k, k ∈ a.keys ↔ k ∈ b.keys := fun k => by
      rw [mem_keys_iff, mem_keys_iff, h k]
    refine ⟨?_, fun k hk => ⟨(hkeys k).mp hk, h k⟩⟩
    exact ((List.perm_ext_iff_of_nodup a.nodup b.nodup).mpr hkeys).length_eq

lemma isClassDrifted_iff {entry : ControlFileClassEntry J} :
    isClassDrifted entry = true ↔ entry.pendingEdit = none ∧
        ∃ platformAttributes, entry.platformAttributes = some platformAttributes ∧
          ¬ entry.attributes.SameEntries platformAttributes := by
  cases hplatform : entry.platformAttributes with
  | none => simp [isClassDrifted, hplatform]
  | some platformAttributes =>
    cases hpending : entry.pendingEdit with
    | none => simp [isClassDrifted, hplatform, hpending, ← shallowEqualAttrs_iff]
    | some p => simp [isClassDrifted, hplatform, hpending]

lemma isClassDrifted_of_pendingEdit {entry : ControlFileClassEntry J} {p : PendingEditBlock J}
    (h : entry.pendingEdit = some p) : isClassDrifted entry = false := by
  rw [← Bool.not_eq_true, isClassDrifted_iff]
  simp [h]

end ControlLibrary
