import Dethernety.FlatKeys.PlainParse

/-!
# JSON answers

The answers of a form as a JSON value. The names of an object are in the order in which its fields are
visited. `look` is the value at a path, as `Tree.look` is what a rebuilt tree holds there.
-/

namespace FlatKeys

/-- A JSON value; `P` are the strings, numbers and booleans. -/
inductive Json (P : Type)
  | null
  | prim (p : P)
  | list (items : List (Json P))
  | dict (fields : List (Key × Json P))

variable {P : Type}

namespace Json

/-- Induction over a value, through the lists and the objects inside it. -/
@[elab_as_elim]
lemma induct {motive : Json P → Prop} (null : motive .null) (prim : ∀ p, motive (.prim p))
    (list : ∀ items, (∀ item ∈ items, motive item) → motive (.list items))
    (dict : ∀ fields, (∀ e ∈ fields, motive e.2) → motive (.dict fields)) :
    ∀ j : Json P, motive j
  | .null => null
  | .prim p => prim p
  | .list items => list items fun item _ => induct null prim list dict item
  | .dict fields => dict fields fun e _ => induct null prim list dict e.2
decreasing_by
  · rename_i hitem
    have hlt := List.sizeOf_lt_of_mem hitem
    simp only [Json.list.sizeOf_spec]
    omega
  · rename_i he
    have hlt := List.sizeOf_lt_of_mem he
    have hfield : sizeOf e.2 < sizeOf e := by
      obtain ⟨k, v⟩ := e
      simp only [Prod.mk.sizeOf_spec]
      omega
    simp only [Json.dict.sizeOf_spec]
    omega

/-- The value as a leaf of a bag, if it is not a list or an object. -/
def leaf? : Json P → Option (Input P Unit)
  | null => some .null
  | prim p => some (.prim p)
  | list _ => none
  | dict _ => none

/-- The value of one part. -/
def own : Json P → Segment → Option (Json P)
  | list items, .index i => items[i]?
  | dict fields, .name n => Record.lookup n fields
  | _, _ => none

/-- The value at a path. -/
def look : Json P → List Segment → Option (Json P)
  | j, [] => some j
  | j, segment :: path =>
    match j.own segment with
    | none => none
    | some child => child.look path

/-! ## Limits -/

mutual

/-- The most parts that lead to a value. -/
def depth : Json P → ℕ
  | null => 0
  | prim _ => 0
  | list items => depthOfItems items
  | dict fields => depthOfFields fields

def depthOfItems : List (Json P) → ℕ
  | [] => 0
  | item :: items => max (item.depth + 1) (depthOfItems items)

def depthOfFields : List (Key × Json P) → ℕ
  | [] => 0
  | e :: fields => max (depthOfField e + 1) (depthOfFields fields)

def depthOfField : Key × Json P → ℕ
  | (_, j) => j.depth

end

mutual

/-- The total length of the lists. -/
def listSlots : Json P → ℕ
  | null => 0
  | prim _ => 0
  | list items => items.length + slotsOfItems items
  | dict fields => slotsOfFields fields

def slotsOfItems : List (Json P) → ℕ
  | [] => 0
  | item :: items => item.listSlots + slotsOfItems items

def slotsOfFields : List (Key × Json P) → ℕ
  | [] => 0
  | e :: fields => slotsOfField e + slotsOfFields fields

def slotsOfField : Key × Json P → ℕ
  | (_, j) => j.listSlots

end

/-- A value without null whose names can each be one part of a key and whose lists are not too long. -/
inductive Ordinary : Json P → Prop
  | prim (p : P) : Ordinary (.prim p)
  | list (items : List (Json P)) (hlength : items.length ≤ maxIndex + 1)
      (hitems : ∀ item ∈ items, Ordinary item) : Ordinary (.list items)
  | dict (fields : List (Key × Json P)) (hnames : ∀ e ∈ fields, PlainName e.1)
      (hnodup : (fields.map Prod.fst).Nodup) (hfields : ∀ e ∈ fields, Ordinary e.2) :
      Ordinary (.dict fields)

/-! ## Reading -/

variable {j : Json P} {segment : Segment} {path : List Segment}

lemma look_cons : j.look (segment :: path) = (j.own segment).bind (·.look path) := by
  rw [look]
  cases j.own segment <;> rfl

lemma depth_lt_of_mem_items {items : List (Json P)} {item : Json P} (h : item ∈ items) :
    item.depth < (list items).depth := by
  rw [depth]
  induction items with
  | nil => cases h
  | cons _ _ ih =>
    rw [depthOfItems]
    obtain rfl | h := List.mem_cons.1 h
    · omega
    · have hlt := ih h
      omega

lemma depth_lt_of_mem_fields {fields : List (Key × Json P)} {e : Key × Json P} (h : e ∈ fields) :
    e.2.depth < (dict fields).depth := by
  rw [depth]
  induction fields with
  | nil => cases h
  | cons _ _ ih =>
    rw [depthOfFields]
    obtain rfl | h := List.mem_cons.1 h
    · obtain ⟨k, v⟩ := e
      rw [depthOfField]
      show v.depth < _
      omega
    · have hlt := ih h
      omega

lemma own_list_iff {items : List (Json P)} {child : Json P} :
    (list items).own segment = some child ↔ ∃ i, segment = .index i ∧ items[i]? = some child := by
  cases segment with
  | name n | index i => simp [own]

/-- A field of an object whose names are different. -/
theorem own_dict_iff {fields : List (Key × Json P)} (hnodup : (fields.map Prod.fst).Nodup)
    {child : Json P} : (dict fields).own segment = some child ↔ ∃ n, segment = .name n ∧ (n, child) ∈ fields := by
  cases segment with
  | name n =>
    have hmem : (n, child) ∈ fields ↔ Record.lookup n fields = some child :=
      Record.mem_entries_iff (r := ⟨fields, hnodup⟩)
    simp [own, hmem]
  | index i => simp [own]

end Json

end FlatKeys
