import Dethernety.FlatKeys.Json

/-!
# Flattening answers

Model of the two functions `flattenProperties`: the one of dt-ui, which shows a stored form and saves an
edited one, and the one of dt-core. They differ in a list that stands directly in a list: dt-ui visits it
as it visits an object, with the indexes for names. Both set the same leaves one after the other, and
`leaves` lists them with their paths.
-/

open List

namespace FlatKeys

open Json

variable {P : Type}

/-- A bag of flat keys; the only object that it holds is the empty one. -/
abbrev Bag (P : Type) := Record Key (Input P Unit)

/-- The key of a property. -/
def joined (pre key : Key) : Key :=
  if pre = [] then key else pre ++ dot :: key

/-- The key of a list entry. -/
def indexed (pre : Key) (index : ℕ) : Key :=
  pre ++ openBracket :: (digitsOf index ++ [closeBracket])

namespace DtUi

mutual

/-- `flattenProperties` of dt-ui -/
def flattenProperties : Json P → Key → Bag P → Bag P
  | .null, pre, result => if pre = [] then result else result.set pre .null
  | .prim p, pre, result => if pre = [] then result else result.set pre (.prim p)
  -- `for (const key in obj)` visits a list as well
  | .list items, pre, result => indexes items 0 pre result
  | .dict fields, pre, result => properties fields pre result

/-- The loop over the properties of an object. -/
def properties : List (Key × Json P) → Key → Bag P → Bag P
  | [], _, result => result
  | e :: fields, pre, result => properties fields pre (property e pre result)

def property : Key × Json P → Key → Bag P → Bag P
  | (key, value), pre, result => assign value (joined pre key) result

/-- The same loop over a list, from an index on. -/
def indexes : List (Json P) → ℕ → Key → Bag P → Bag P
  | [], _, _, result => result
  | value :: items, i, pre, result =>
    indexes items (i + 1) pre (assign value (joined pre (digitsOf i)) result)

/-- The body of the loop. -/
def assign : Json P → Key → Bag P → Bag P
  | .null, prefixedKey, result => result.set prefixedKey .null
  | .prim p, prefixedKey, result => result.set prefixedKey (.prim p)
  | .list items, prefixedKey, result => entries items 0 prefixedKey result
  | .dict fields, prefixedKey, result =>
    if fields.isEmpty then result.set prefixedKey (.object ())
    else properties fields prefixedKey result

/-- `value.forEach`, from an index on. -/
def entries : List (Json P) → ℕ → Key → Bag P → Bag P
  | [], _, _, result => result
  | item :: items, index, prefixedKey, result =>
    entries items (index + 1) prefixedKey (match item.leaf? with
      | some leaf => result.set (indexed prefixedKey index) leaf
      | none => flattenProperties item (indexed prefixedKey index) result)

end

end DtUi

namespace DtCore

local instance : LawfulBEq Key := inferInstance

mutual

/-- `flattenProperties` of dt-core -/
def flattenProperties : Json P → Key → Bag P → Bag P
  | .null, pre, result => if pre = [] then result else result.set pre .null
  | .prim p, pre, result => if pre = [] then result else result.set pre (.prim p)
  | .list items, pre, result => entries items 0 pre result
  | .dict fields, pre, result => properties fields pre result

/-- The loop over the properties of an object. -/
def properties : List (Key × Json P) → Key → Bag P → Bag P
  | [], _, result => result
  | e :: fields, pre, result => properties fields pre (property e pre result)

def property : Key × Json P → Key → Bag P → Bag P
  | (key, value), pre, result =>
    if key ∈ reserved then result else assign value (joined pre key) result

/-- The body of the loop. -/
def assign : Json P → Key → Bag P → Bag P
  | .null, prefixedKey, result => result.set prefixedKey .null
  | .prim p, prefixedKey, result => result.set prefixedKey (.prim p)
  | .list items, prefixedKey, result => entries items 0 prefixedKey result
  | .dict fields, prefixedKey, result =>
    if fields.isEmpty then result.set prefixedKey (.object ())
    else properties fields prefixedKey result

/-- The loop over a list, from an index on. -/
def entries : List (Json P) → ℕ → Key → Bag P → Bag P
  | [], _, _, result => result
  | item :: items, index, key, result =>
    entries items (index + 1) key (match item.leaf? with
      | some leaf => result.set (indexed key index) leaf
      | none => flattenProperties item (indexed key index) result)

end

end DtCore

/-! ## The leaves -/

/-- The leaves below a part. -/
def below (segment : Segment) (leaves : List (List Segment × Input P Unit)) :
    List (List Segment × Input P Unit) :=
  leaves.map fun e => (segment :: e.1, e.2)

namespace Json

mutual

/-- The leaves of a value with their paths. A list that is reached here stands directly in a list, and
`named` is whether its indexes are read as names. -/
def leaves (named : Bool) : Json P → List (List Segment × Input P Unit)
  | .null => [([], .null)]
  | .prim p => [([], .prim p)]
  | .list items => if named then namedLeaves named items 0 else entryLeaves named items 0
  | .dict fields => fieldLeaves named fields

def fieldLeaves (named : Bool) : List (Key × Json P) → List (List Segment × Input P Unit)
  | [] => []
  | e :: fields => fieldLeaf named e ++ fieldLeaves named fields

def fieldLeaf (named : Bool) : Key × Json P → List (List Segment × Input P Unit)
  | (key, j) => below (.name key) (j.valueLeaves named)

def namedLeaves (named : Bool) : List (Json P) → ℕ → List (List Segment × Input P Unit)
  | [], _ => []
  | j :: items, i => below (.name (digitsOf i)) (j.valueLeaves named) ++ namedLeaves named items (i + 1)

def entryLeaves (named : Bool) : List (Json P) → ℕ → List (List Segment × Input P Unit)
  | [], _ => []
  | j :: items, i => below (.index i) (j.leaves named) ++ entryLeaves named items (i + 1)

def valueLeaves (named : Bool) : Json P → List (List Segment × Input P Unit)
  | .null => [([], .null)]
  | .prim p => [([], .prim p)]
  | .list items => entryLeaves named items 0
  | .dict fields => if fields.isEmpty then [([], .object ())] else fieldLeaves named fields

end

end Json

/-- Set leaves one after the other, with the paths below a key. -/
def setLeaves (key : Key) (leaves : List (List Segment × Input P Unit)) (result : Bag P) : Bag P :=
  leaves.foldl (fun result e => result.set (key ++ e.1.flatMap plainPart) e.2) result

section

variable {key pre : Key} {segment : Segment} {l l' : List (List Segment × Input P Unit)} {result : Bag P}

lemma setLeaves_append : setLeaves key (l ++ l') result = setLeaves key l' (setLeaves key l result) :=
  foldl_append

lemma setLeaves_below : setLeaves key (below segment l) result = setLeaves (key ++ plainPart segment) l result := by
  rw [setLeaves, below, foldl_map, setLeaves]
  congr 1
  funext result e
  rw [flatMap_cons, append_assoc]

lemma setLeaves_singleton (value : Input P Unit) : setLeaves key [([], value)] result = result.set key value := by
  simp [setLeaves]

lemma joined_eq (hpre : pre ≠ []) : joined pre key = pre ++ plainPart (.name key) := by
  rw [joined, if_neg hpre]
  rfl

lemma indexed_eq (i : ℕ) : indexed pre i = pre ++ plainPart (.index i) :=
  rfl

lemma append_plainPart_ne_nil : pre ++ plainPart segment ≠ [] := by
  cases segment <;> simp [plainPart]

end

/-! ## Both functions set the leaves -/

/-- What a value is flattened to below a key. -/
def SetsLeaves (named : Bool) (flatten assign : Json P → Key → Bag P → Bag P) (j : Json P) : Prop :=
  ∀ key, key ≠ [] → ∀ result, flatten j key result = setLeaves key (j.leaves named) result ∧
    assign j key result = setLeaves key (j.valueLeaves named) result

namespace DtUi

variable {fields : List (Key × Json P)} {items : List (Json P)} {key pre : Key} {result : Bag P}

lemma properties_eq (hfields : ∀ e ∈ fields, SetsLeaves true flattenProperties assign e.2) (hpre : pre ≠ []) :
    properties fields pre result = setLeaves pre (fieldLeaves true fields) result := by
  induction fields generalizing result with
  | nil => rfl
  | cons e fields ih =>
    obtain ⟨n, j⟩ := e
    have hj := (hfields _ (.head _) (pre ++ plainPart (.name n)) append_plainPart_ne_nil result).2
    rw [properties, property, joined_eq hpre, hj,
      ih fun e he => hfields e (.tail _ he), fieldLeaves, fieldLeaf,
      setLeaves_append, setLeaves_below]

lemma indexes_eq (hitems : ∀ item ∈ items, SetsLeaves true flattenProperties assign item) (hpre : pre ≠ []) {i : ℕ} :
    indexes items i pre result = setLeaves pre (namedLeaves true items i) result := by
  induction items generalizing result i with
  | nil => rfl
  | cons j items ih =>
    have hj := (hitems j (.head _) (pre ++ plainPart (.name (digitsOf i)))
      append_plainPart_ne_nil result).2
    rw [indexes, joined_eq hpre, hj, ih fun item hitem => hitems item (.tail _ hitem),
      namedLeaves, setLeaves_append, setLeaves_below]

lemma entries_eq (hitems : ∀ item ∈ items, SetsLeaves true flattenProperties assign item) {i : ℕ} :
    entries items i key result = setLeaves key (entryLeaves true items i) result := by
  induction items generalizing result i with
  | nil => rfl
  | cons j items ih =>
    have hj := (hitems j (.head _) (key ++ plainPart (.index i)) append_plainPart_ne_nil result).1
    rw [entries, indexed_eq, ih fun item hitem => hitems item (.tail _ hitem),
      entryLeaves, setLeaves_append, setLeaves_below, ← hj]
    cases j with
    | null | prim p => rw [flattenProperties, if_neg append_plainPart_ne_nil]; rfl
    | list items | dict fields => rfl

lemma setsLeaves (j : Json P) : SetsLeaves true flattenProperties assign j := by
  induction j using induct with
  | null | prim p =>
    intro key hkey result
    rw [flattenProperties, if_neg hkey, assign, leaves, valueLeaves, setLeaves_singleton]
    exact ⟨rfl, rfl⟩
  | list items ih =>
    intro key hkey result
    exact ⟨indexes_eq ih hkey, entries_eq ih⟩
  | dict fields ih =>
    intro key hkey result
    refine ⟨properties_eq ih hkey, ?_⟩
    rw [assign, valueLeaves]
    split_ifs with hempty
    · exact (setLeaves_singleton _).symm
    · exact properties_eq ih hkey

end DtUi

namespace DtCore

variable {fields : List (Key × Json P)} {items : List (Json P)} {key pre : Key} {result : Bag P}

lemma properties_eq (hfields : ∀ e ∈ fields, SetsLeaves false flattenProperties assign e.2)
    (hnames : ∀ e ∈ fields, PlainName e.1) (hpre : pre ≠ []) :
    properties fields pre result = setLeaves pre (fieldLeaves false fields) result := by
  induction fields generalizing result with
  | nil => rfl
  | cons e fields ih =>
    obtain ⟨n, j⟩ := e
    obtain ⟨-, -, hreserved⟩ : PlainName n := hnames _ (.head _)
    have hj := (hfields _ (.head _) (pre ++ plainPart (.name n)) append_plainPart_ne_nil result).2
    rw [properties, property, if_neg hreserved, joined_eq hpre, hj,
      ih (fun e he => hfields e (.tail _ he))
        (fun e he => hnames e (.tail _ he)), fieldLeaves, fieldLeaf,
      setLeaves_append, setLeaves_below]

lemma entries_eq (hitems : ∀ item ∈ items, SetsLeaves false flattenProperties assign item) {i : ℕ} :
    entries items i key result = setLeaves key (entryLeaves false items i) result := by
  induction items generalizing result i with
  | nil => rfl
  | cons j items ih =>
    have hj := (hitems j (.head _) (key ++ plainPart (.index i)) append_plainPart_ne_nil result).1
    rw [entries, indexed_eq, ih fun item hitem => hitems item (.tail _ hitem),
      entryLeaves, setLeaves_append, setLeaves_below, ← hj]
    cases j with
    | null | prim p => rw [flattenProperties, if_neg append_plainPart_ne_nil]; rfl
    | list items | dict fields => rfl

/-- The reserved names, which dt-core leaves out, do not occur. -/
lemma setsLeaves {j : Json P} (hj : j.Ordinary) : SetsLeaves false flattenProperties assign j := by
  induction hj with
  | prim p =>
    intro key hkey result
    rw [flattenProperties, if_neg hkey, assign, leaves, valueLeaves, setLeaves_singleton]
    exact ⟨rfl, rfl⟩
  | list _ _ _ ih =>
    intro key _ result
    exact ⟨entries_eq ih, entries_eq ih⟩
  | dict _ hnames _ _ ih =>
    intro key hkey result
    refine ⟨properties_eq ih hnames hkey, ?_⟩
    rw [assign, valueLeaves]
    split_ifs with hempty
    · exact (setLeaves_singleton _).symm
    · exact properties_eq ih hnames hkey

end DtCore

/-- The bag of leaves under their plain keys. -/
def bagOf (leaves : List (List Segment × Input P Unit)) : Bag P :=
  leaves.foldl (fun result e => result.set (plainKey e.1) e.2) ∅

/-! ## Forms -/

/-- The stored answers or the answers of a form: an object without null, with names that can each be one
part of a key, within the limits of flat keys. -/
structure Form (P : Type) where
  fields : List (Key × Json P)
  ordinary : (dict fields).Ordinary
  depth_le : (dict fields).depth ≤ maxSegments
  slots_le : (dict fields).listSlots ≤ maxListSlots

namespace Form

variable (form : Form P)

def value : Json P :=
  .dict form.fields

/-- The leaves with their paths. -/
def leaves (named : Bool) : List (List Segment × Input P Unit) :=
  form.value.leaves named

lemma plainName {e : Key × Json P} (h : e ∈ form.fields) : PlainName e.1 := by
  cases form.ordinary with
  | dict _ hnames => exact hnames e h

lemma ordinary_of_mem {e : Key × Json P} (h : e ∈ form.fields) : e.2.Ordinary := by
  cases form.ordinary with
  | dict _ _ _ hfields => exact hfields e h

end Form

lemma setLeaves_name {key : Key} {l : List (List Segment × Input P Unit)} {result : Bag P} :
    setLeaves key l result =
      (below (.name key) l).foldl (fun result e => result.set (plainKey e.1) e.2) result := by
  rw [setLeaves, below, foldl_map]
  rfl

lemma DtUi.properties_top {fields : List (Key × Json P)} (hnames : ∀ e ∈ fields, PlainName e.1)
    (result : Bag P) : DtUi.properties fields [] result = (fieldLeaves true fields).foldl
      (fun result e => result.set (plainKey e.1) e.2) result := by
  induction fields generalizing result with
  | nil => rfl
  | cons e fields ih =>
    obtain ⟨n, j⟩ := e
    obtain ⟨hne, -⟩ : PlainName n := hnames _ (.head _)
    rw [DtUi.properties, DtUi.property, joined, if_pos rfl, (DtUi.setsLeaves j n hne result).2,
      ih fun e he => hnames e (.tail _ he), fieldLeaves, fieldLeaf,
      foldl_append, setLeaves_name]

lemma DtUi.flattenProperties_eq (form : Form P) : DtUi.flattenProperties form.value [] ∅ = bagOf (form.leaves true) :=
  DtUi.properties_top (fun _ he => form.plainName he) ∅

lemma DtCore.properties_top {fields : List (Key × Json P)} (hnames : ∀ e ∈ fields, PlainName e.1)
    (hfields : ∀ e ∈ fields, e.2.Ordinary) (result : Bag P) :
    DtCore.properties fields [] result = (fieldLeaves false fields).foldl
      (fun result e => result.set (plainKey e.1) e.2) result := by
  induction fields generalizing result with
  | nil => rfl
  | cons e fields ih =>
    obtain ⟨n, j⟩ := e
    obtain ⟨hne, -, hreserved⟩ : PlainName n := hnames _ (.head _)
    have hj : j.Ordinary := hfields _ (.head _)
    rw [DtCore.properties, DtCore.property, if_neg hreserved, joined, if_pos rfl,
      (DtCore.setsLeaves hj n hne result).2, ih (fun e he => hnames e (.tail _ he))
        (fun e he => hfields e (.tail _ he)), fieldLeaves, fieldLeaf,
      foldl_append, setLeaves_name]

lemma DtCore.flattenProperties_eq (form : Form P) :
    DtCore.flattenProperties form.value [] ∅ = bagOf (form.leaves false) :=
  DtCore.properties_top (fun _ he => form.plainName he) (fun _ he => form.ordinary_of_mem he) ∅

/-! ## What the leaves are -/

namespace Json

variable {named : Bool} {items : List (Json P)} {fields : List (Key × Json P)} {path : List Segment}
  {value : Input P Unit}

lemma mem_below {segment : Segment} {l : List (List Segment × Input P Unit)} :
    (path, value) ∈ below segment l ↔ ∃ rest, path = segment :: rest ∧ (rest, value) ∈ l := by
  rw [below, mem_map]
  constructor
  · rintro ⟨⟨rest, v⟩, hmem, heq⟩
    cases heq
    exact ⟨rest, rfl, hmem⟩
  · rintro ⟨rest, rfl, hmem⟩
    exact ⟨(rest, value), hmem, rfl⟩

lemma mem_fieldLeaves : (path, value) ∈ fieldLeaves named fields ↔
    ∃ e ∈ fields, (path, value) ∈ below (.name e.1) (e.2.valueLeaves named) := by
  induction fields with
  | nil => simp [fieldLeaves]
  | cons e fields ih =>
    obtain ⟨n, j⟩ := e
    rw [fieldLeaves, fieldLeaf, mem_append, ih, exists_mem_cons_iff]

/-- What a walk over a list gives, which counts the entries. -/
lemma mem_counted {α β : Type} (walk : List α → ℕ → List β) (give : ℕ → α → List β)
    (hnil : ∀ k, walk [] k = []) (hcons : ∀ a l k, walk (a :: l) k = give k a ++ walk l (k + 1))
    {l : List α} {k : ℕ} {b : β} : b ∈ walk l k ↔ ∃ i a, l[i]? = some a ∧ b ∈ give (k + i) a := by
  induction l generalizing k with
  | nil => simp [hnil]
  | cons a l ih =>
    rw [hcons, mem_append, ih]
    constructor
    · rintro (hmem | ⟨i, a', hget, hmem⟩)
      · exact ⟨0, a, rfl, hmem⟩
      · refine ⟨i + 1, a', hget, ?_⟩
        rw [show k + (i + 1) = k + 1 + i by omega]
        exact hmem
    · rintro ⟨i, a', hget, hmem⟩
      cases i with
      | zero =>
        rw [getElem?_cons_zero] at hget
        cases hget
        exact .inl hmem
      | succ i =>
        refine .inr ⟨i, a', hget, ?_⟩
        rw [show k + 1 + i = k + (i + 1) by omega]
        exact hmem

lemma mem_entryLeaves {k : ℕ} : (path, value) ∈ entryLeaves named items k ↔
    ∃ i j, items[i]? = some j ∧ (path, value) ∈ below (.index (k + i)) (j.leaves named) :=
  mem_counted (entryLeaves named) (fun i j => below (.index i) (j.leaves named)) (fun _ => rfl)
    fun _ _ _ => rfl

lemma mem_namedLeaves {k : ℕ} : (path, value) ∈ namedLeaves named items k ↔ ∃ i j, items[i]? = some j ∧
      (path, value) ∈ below (.name (digitsOf (k + i))) (j.valueLeaves named) :=
  mem_counted (namedLeaves named) (fun i j => below (.name (digitsOf i)) (j.valueLeaves named))
    (fun _ => rfl) fun _ _ _ => rfl

end Json

end FlatKeys
