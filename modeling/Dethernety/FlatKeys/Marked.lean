import Dethernety.FlatKeys.SavedForm

/-!
# Null as an answer

A null answer is a leaf as the others are; only the rebuild takes its place for a free one. So an object
with null answers is flattened and rebuilt as the form is in which a new primitive value, `none`, stands for
null: where dt-core pads lists with null, the form has holes.
-/

open List

namespace FlatKeys

open FlatKeys.Tree

variable {P : Type}

namespace Json

/-- Names that can each be one part of a key, and lists that are not too long; null is allowed. -/
inductive Admissible : Json P → Prop
  | null : Admissible .null
  | prim (p : P) : Admissible (.prim p)
  | list (items : List (Json P)) (hlength : items.length ≤ maxIndex + 1)
      (hitems : ∀ item ∈ items, Admissible item) : Admissible (.list items)
  | dict (fields : List (Key × Json P)) (hnames : ∀ e ∈ fields, PlainName e.1)
      (hnodup : (fields.map Prod.fst).Nodup) (hfields : ∀ e ∈ fields, Admissible e.2) :
      Admissible (.dict fields)

mutual

/-- The value with `none` in place of null. -/
def marked : Json P → Json (Option P)
  | .null => .prim none
  | .prim p => .prim (some p)
  | .list items => .list (markedItems items)
  | .dict fields => .dict (markedFields fields)

def markedItems : List (Json P) → List (Json (Option P))
  | [] => []
  | item :: items => item.marked :: markedItems items

def markedFields : List (Key × Json P) → List (Key × Json (Option P))
  | [] => []
  | e :: fields => markedField e :: markedFields fields

def markedField : Key × Json P → Key × Json (Option P)
  | (key, j) => (key, j.marked)

end

lemma markedItems_eq (items : List (Json P)) : markedItems items = items.map marked := by
  induction items with
  | nil => rfl
  | cons _ _ ih => rw [markedItems, ih, map_cons]

lemma markedField_eq (e : Key × Json P) : markedField e = (e.1, e.2.marked) := by
  obtain ⟨n, j⟩ := e
  rw [markedField]

lemma markedFields_eq (fields : List (Key × Json P)) :
    markedFields fields = fields.map fun e => (e.1, e.2.marked) := by
  induction fields with
  | nil => rfl
  | cons e fields ih => rw [markedFields, ih, map_cons, markedField_eq]

lemma keys_markedFields (fields : List (Key × Json P)) :
    (markedFields fields).map Prod.fst = fields.map Prod.fst := by
  rw [markedFields_eq, map_map]
  rfl

lemma ordinary_marked {j : Json P} (hj : j.Admissible) : j.marked.Ordinary := by
  induction hj with
  | null => exact .prim none
  | prim p => exact .prim (some p)
  | list _ _ _ ih =>
    rw [marked, markedItems_eq]
    refine .list _ (by rwa [length_map]) fun item hitem => ?_
    obtain ⟨item, hmem, rfl⟩ := mem_map.1 hitem
    exact ih item hmem
  | dict _ hnames _ _ ih =>
    rw [marked]
    refine .dict _ (fun e he => ?_) (by rwa [keys_markedFields]) fun e he => ?_
    · rw [markedFields_eq] at he
      obtain ⟨e, hmem, rfl⟩ := mem_map.1 he
      exact hnames e hmem
    · rw [markedFields_eq] at he
      obtain ⟨e, hmem, rfl⟩ := mem_map.1 he
      exact ih e hmem

lemma measures_marked (j : Json P) : j.marked.depth = j.depth ∧ j.marked.listSlots = j.listSlots := by
  induction j using Json.induct with
  | null | prim p => exact ⟨rfl, rfl⟩
  | list items ih =>
    simp only [marked, depth, listSlots, markedItems_eq, length_map]
    induction items with
    | nil => exact ⟨rfl, rfl⟩
    | cons item items ihitems =>
      have hrest := ihitems fun item hitem => ih item (.tail _ hitem)
      have hitem := ih item (.head _)
      simp only [map_cons, length_cons, depthOfItems, slotsOfItems] at *
      omega
  | dict fields ih =>
    rw [marked, depth, depth, listSlots, listSlots]
    induction fields with
    | nil => exact ⟨rfl, rfl⟩
    | cons e fields ihfields =>
      obtain ⟨n, j⟩ := e
      have hrest := ihfields fun e he => ih e (.tail _ he)
      have hfield := ih (n, j) (.head _)
      simp only [markedFields, markedField, depthOfFields, slotsOfFields, depthOfField, slotsOfField] at *
      omega

lemma own_marked (j : Json P) (segment : Segment) : j.marked.own segment = (j.own segment).map marked := by
  cases j with
  | null | prim p => rfl
  | list items =>
    cases segment with
    | name n => rfl
    | index i =>
      show (markedItems items)[i]? = (items[i]?).map marked
      rw [markedItems_eq, getElem?_map]
  | dict fields =>
    cases segment with
    | index i => rfl
    | name n =>
      show Record.lookup n (markedFields fields) = (Record.lookup n fields).map marked
      induction fields with
      | nil => rfl
      | cons e fields ih =>
        obtain ⟨n', j⟩ := e
        rw [markedFields, markedField_eq, Record.lookup, Record.lookup, ih]
        split_ifs
        all_goals rfl

lemma look_marked (j : Json P) (path : List Segment) : j.marked.look path = (j.look path).map marked := by
  induction path generalizing j with
  | nil => rfl
  | cons segment path ih =>
    rw [look_cons, look_cons, own_marked]
    cases j.own segment with
    | none => rfl
    | some child => exact ih child

end Json

/-- A JSON object with names that can each be one part of a key, within the limits of flat keys. -/
structure Answers (P : Type) where
  fields : List (Key × Json P)
  admissible : (Json.dict fields).Admissible
  depth_le : (Json.dict fields).depth ≤ maxSegments
  slots_le : (Json.dict fields).listSlots ≤ maxListSlots

namespace Answers

variable (x : Answers P)

def value : Json P :=
  .dict x.fields

/-- The form with `none` in place of null. -/
def form : Form (Option P) where
  fields := Json.markedFields x.fields
  ordinary := Json.ordinary_marked x.admissible
  depth_le := (Json.measures_marked x.value).1.trans_le x.depth_le
  slots_le := (Json.measures_marked x.value).2.trans_le x.slots_le

end Answers

/-! ## Flattening -/

/-- The leaf that stands for another one. -/
def Input.unmarked : Input (Option P) Unit → Input P Unit
  | .undefined => .undefined
  | .null => .null
  | .prim none => .null
  | .prim (some p) => .prim p
  | .object g => .object g

/-- One bag has null where the other one has `none`. -/
def Unmarks (bag' : Bag (Option P)) (bag : Bag P) : Prop :=
  bag.entries = bag'.entries.map fun e => (e.1, e.2.unmarked)

section

variable {bag' : Bag (Option P)} {bag : Bag P}

lemma insertEntry_map {K V W : Type} [DecidableEq K] (f : V → W) (k : K) (v : V) (l : List (K × V)) :
    Record.insertEntry k (f v) (l.map fun e => (e.1, f e.2)) =
      (Record.insertEntry k v l).map fun e => (e.1, f e.2) := by
  induction l with
  | nil => rfl
  | cons e l ih =>
    rw [map_cons, Record.insertEntry, Record.insertEntry, ih]
    split_ifs
    all_goals rfl

lemma lookup_map {K V W : Type} [DecidableEq K] (f : V → W) (k : K) (l : List (K × V)) :
    Record.lookup k (l.map fun e => (e.1, f e.2)) = (Record.lookup k l).map f := by
  induction l with
  | nil => rfl
  | cons e l ih =>
    rw [map_cons, Record.lookup, Record.lookup, ih]
    split_ifs
    all_goals rfl

lemma Unmarks.set (h : Unmarks bag' bag) (key : Key) (value : Input (Option P) Unit) :
    Unmarks (bag'.set key value) (bag.set key value.unmarked) := by
  show Record.insertEntry _ _ bag.entries = (Record.insertEntry _ _ bag'.entries).map _
  rw [h, insertEntry_map]

lemma Unmarks.keys_eq (h : Unmarks bag' bag) : bag.keys = bag'.keys := by
  rw [Record.keys, h, map_map]
  rfl

lemma Unmarks.get?_eq (h : Unmarks bag' bag) (key : Key) : bag.get? key = (bag'.get? key).map Input.unmarked := by
  rw [Record.get?, h, lookup_map]
  rfl

end

namespace DtCore

def FlattensAlike (j : Json P) : Prop :=
  ∀ key bag' bag, Unmarks bag' bag →
    Unmarks (flattenProperties j.marked key bag') (flattenProperties j key bag) ∧
      Unmarks (assign j.marked key bag') (assign j key bag)

variable {fields : List (Key × Json P)} {items : List (Json P)}

lemma unmarks_properties (hfields : ∀ e ∈ fields, FlattensAlike e.2) {pre : Key} {bag' : Bag (Option P)}
    {bag : Bag P} (h : Unmarks bag' bag) :
    Unmarks (properties (Json.markedFields fields) pre bag') (properties fields pre bag) := by
  induction fields generalizing bag' bag with
  | nil => exact h
  | cons e fields ih =>
    obtain ⟨n, j⟩ := e
    rw [Json.markedFields, Json.markedField_eq, properties, properties, property, property]
    apply ih (fun e he => hfields e (.tail _ he))
    split_ifs
    · exact h
    · exact (hfields _ (.head _) _ bag' bag h).2

lemma unmarks_entries (hitems : ∀ item ∈ items, FlattensAlike item) {i : ℕ} {key : Key}
    {bag' : Bag (Option P)} {bag : Bag P} (h : Unmarks bag' bag) :
    Unmarks (entries (Json.markedItems items) i key bag') (entries items i key bag) := by
  induction items generalizing bag' bag i with
  | nil => exact h
  | cons j items ih =>
    rw [Json.markedItems, entries, entries]
    apply ih (fun item hitem => hitems item (.tail _ hitem))
    have hj := (hitems j (.head _) (indexed key i) bag' bag h).1
    cases j with
    | null => exact h.set _ (.prim none)
    | prim p => exact h.set _ (.prim (some p))
    | list items | dict fields => exact hj

lemma flattensAlike (j : Json P) : FlattensAlike j := by
  induction j using Json.induct with
  | null =>
    intro key bag' bag h
    refine ⟨?_, h.set key (.prim none)⟩
    rw [Json.marked, flattenProperties, flattenProperties]
    split_ifs
    · exact h
    · exact h.set key (.prim none)
  | prim p =>
    intro key bag' bag h
    refine ⟨?_, h.set key (.prim (some p))⟩
    rw [Json.marked, flattenProperties, flattenProperties]
    split_ifs
    · exact h
    · exact h.set key (.prim (some p))
  | list items ih =>
    intro key bag' bag h
    exact ⟨unmarks_entries ih h, unmarks_entries ih h⟩
  | dict fields ih =>
    intro key bag' bag h
    refine ⟨unmarks_properties ih h, ?_⟩
    have hempty : (Json.markedFields fields).isEmpty = fields.isEmpty := by
      rw [Json.markedFields_eq, isEmpty_map]
    rw [Json.marked, assign, assign, hempty]
    split_ifs
    · exact h.set key (.object ())
    · exact unmarks_properties ih h

/-- The bag of an object is that of its form, with null for `none`. -/
theorem unmarks_flattenProperties (x : Answers P) :
    Unmarks (flattenProperties x.form.value [] ∅) (flattenProperties x.value [] ∅) :=
  (flattensAlike x.value [] ∅ ∅ rfl).1

end DtCore

end FlatKeys
