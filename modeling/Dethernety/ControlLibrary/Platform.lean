import Dethernety.ControlLibrary.AuditLog

/-!
# The platform's attribute bags

The side of the platform that a push talks to: for each class of one control, the attribute bag on
its `IS_INSTANCE_OF` edge. A mutation is `SET r += $attributes` (the partial-payload contract):
keys that are not sent stay, and `null` removes a key.
-/

open Record

namespace ControlLibrary

/-- The bags of one control by class id. -/
abbrev Platform (J : Type*) := Record String (Attributes J)

/-- A row of `getControlInstantiationAttributes`. -/
structure LiveRow (J : Type*) where
  classId : Option String
  attributes : Option (Attributes J)

variable {J : Type*} [DecidableEq J]

/-- One key of `SET r += $attributes`. -/
def mergeKey (bag : Attributes J) (k : String) : Option (JsonValue J) → Attributes J
  | none => bag
  | some .null => bag.erase k
  | some (.value v) => bag.set k (.value v)

/-- `SET r += $attributes` -/
def mergeAttributes (bag : Attributes J) (payload : Payload J) : Attributes J :=
  payload.entries.foldl (fun bag e => mergeKey bag e.1 e.2) bag

/-- The mutation; `none` when there is no edge to the class. -/
def Platform.setInstantiationAttributes (p : Platform J) (classId : String) (payload : Payload J) :
    Option (Platform J) :=
  (p.get? classId).map fun bag => p.set classId (mergeAttributes bag payload)

def Platform.rows (p : Platform J) : List (LiveRow J) :=
  p.entries.map fun e => ⟨some e.1, some e.2⟩

/-- The value of a key on the platform. -/
def valueAt (platform : Platform J) (classId k : String) : Option (JsonValue J) :=
  (platform.get? classId).bind fun bag => bag.get? k

/-- `new Map(liveRows.filter(…).map(…))` -/
def liveByClass (rows : List (LiveRow J)) : Record String (Attributes J) :=
  rows.foldl (fun m row =>
    match row.classId with
    | none => m
    | some classId => m.set classId (row.attributes.getD ∅)) ∅

/-- What is stored under a key after a value has been sent for it. -/
def stored (before : Option (JsonValue J)) : Option (JsonValue J) → Option (JsonValue J)
  | none => before
  | some .null => none
  | some (.value v) => some (.value v)

variable {bag : Attributes J} {payload : Payload J} {p : Platform J} {k classId : String}

omit [DecidableEq J] in
lemma get?_mergeKey (bag : Attributes J) (k : String) (v : Option (JsonValue J)) (j : String) :
    (mergeKey bag k v).get? j = if k = j then stored (bag.get? j) v else bag.get? j := by
  match v with
  | none => simp [mergeKey, stored]
  | some .null => simp [mergeKey, stored, get?_erase]
  | some (.value v) => simp [mergeKey, stored, get?_set]

omit [DecidableEq J] in
/-- The bag after a mutation, key by key. -/
theorem get?_mergeAttributes (bag : Attributes J) (payload : Payload J) (j : String) :
    (mergeAttributes bag payload).get? j = stored (bag.get? j) ((payload.get? j).getD none) := by
  obtain ⟨entries, hnodup⟩ := payload
  unfold mergeAttributes Record.get?
  induction entries generalizing bag with
  | nil => simp [Record.lookup, stored]
  | cons e entries ih =>
    obtain ⟨he, hnodup⟩ := List.nodup_cons.mp hnodup
    have ih := ih (mergeKey bag e.1 e.2) hnodup
    have hkey := get?_mergeKey bag e.1 e.2 j
    unfold Record.get? at hkey
    rw [List.foldl_cons, ih, hkey]
    by_cases hj : e.1 = j
    · -- the key does not occur again
      have hrest : Record.lookup j entries = none := by
        rw [← Option.not_isSome_iff_eq_none, lookup_isSome_iff, ← hj]
        exact he
      simp [Record.lookup, hj, hrest, stored]
    · simp [Record.lookup, hj]

omit [DecidableEq J] in
lemma get?_liveByClass_rows (p : Platform J) (classId : String) :
    (liveByClass p.rows).get? classId = p.get? classId := by
  have hfold : liveByClass p.rows = p.entries.foldl (fun m e => m.set e.1 e.2) ∅ := by
    simp [liveByClass, Platform.rows, List.foldl_map]
  rw [hfold, get?_foldl_set p.nodup_keys, get?_empty, Option.or_none]
  rfl

end ControlLibrary
