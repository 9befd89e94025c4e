import Dethernety.FlatKeys.Flatten

/-!
# The leaves of a form

The paths of the leaves can be read back from their keys, and no two of them conflict. The leaves that
dt-ui finds and those that dt-core finds are the same exactly if no list that stands directly in a list
holds an answer.
-/

open List Bool

namespace FlatKeys

namespace Json

variable {P : Type} {named : Bool} {j : Json P} {items : List (Json P)}
  {fields : List (Key × Json P)} {path : List Segment} {value : Input P Unit}

/-! ## Paths -/

lemma plainName_digitsOf (i : ℕ) : PlainName (digitsOf i) := by
  refine ⟨digitsOf_ne_nil i, fun u hu => ?_, fun hmem => ?_⟩
  · have hdigit := isDigit_of_mem_digitsOf hu
    rw [isDigit, decide_eq_true_eq] at hdigit
    rw [isPlain, decide_eq_true_eq, dot, openBracket, closeBracket]
    omega
  · -- a reserved name does not start with a digit
    have hhead : ∀ n ∈ reserved, ∃ u ∈ n, isDigit u = false := by decide
    obtain ⟨u, hu, hdigit⟩ := hhead _ hmem
    rw [isDigit_of_mem_digitsOf hu] at hdigit
    cases hdigit

/-- What is known of a leaf of a form: its path can be read back from a key, and its value is not null. -/
structure GoodLeaf (depth : ℕ) (leaf : List Segment × Input P Unit) : Prop where
  plain : ∀ s ∈ leaf.1, s.Plain
  length_le : leaf.1.length ≤ depth
  present : leaf.2.present = true

lemma goodLeaf_nil {depth : ℕ} (h : value.present = true) : GoodLeaf depth ([], value) :=
  ⟨fun _ hs => absurd hs not_mem_nil, Nat.zero_le _, h⟩

variable {l : List (List Segment × Input P Unit)} {segment : Segment}

lemma goodLeaf_below {depth depth' : ℕ}
    (hsegment : segment.Plain) (hdepth : depth < depth') (hl : ∀ e ∈ l, GoodLeaf depth e)
    (h : (path, value) ∈ below segment l) : GoodLeaf depth' (path, value) := by
  obtain ⟨rest, rfl, hmem⟩ := mem_below.1 h
  obtain ⟨hplain, hlength, hpresent⟩ := hl _ hmem
  refine ⟨fun s hs => ?_, ?_, hpresent⟩
  · obtain rfl | hs := mem_cons.1 hs
    · exact hsegment
    · exact hplain s hs
  · have hle : rest.length ≤ depth := hlength
    rw [length_cons]
    omega

lemma goodLeaf_of_mem_leaves (hj : j.Ordinary) : (∀ e ∈ j.leaves named, GoodLeaf j.depth e) ∧
    ∀ e ∈ j.valueLeaves named, GoodLeaf j.depth e := by
  induction hj with
  | prim p =>
    refine ⟨fun e he => ?_, fun e he => ?_⟩
    all_goals
      rw [List.mem_singleton.1 he]
      exact goodLeaf_nil rfl
  | list items _ _ ih =>
    have hentries : ∀ e ∈ entryLeaves named items 0, GoodLeaf (list items).depth e := by
      rintro ⟨path, value⟩ he
      obtain ⟨i, j, hget, hbelow⟩ := mem_entryLeaves.1 he
      have hmem := List.mem_of_getElem? hget
      have hi : i < items.length := (List.getElem?_eq_some_iff.1 hget).1
      refine goodLeaf_below ?_ (depth_lt_of_mem_items hmem) (ih j hmem).1 hbelow
      show 0 + i ≤ maxIndex
      omega
    refine ⟨fun e he => ?_, hentries⟩
    cases named with
    | false => exact hentries e he
    | true =>
      obtain ⟨path, value⟩ := e
      obtain ⟨i, j, hget, hbelow⟩ := mem_namedLeaves.1 he
      have hmem := List.mem_of_getElem? hget
      exact goodLeaf_below (show (Segment.name _).Plain from plainName_digitsOf _)
        (depth_lt_of_mem_items hmem) (ih j hmem).2 hbelow
  | dict fields hnames _ _ ih =>
    have hleaves : ∀ e ∈ fieldLeaves named fields, GoodLeaf (dict fields).depth e := by
      rintro ⟨path, value⟩ he
      obtain ⟨e, hmem, hbelow⟩ := mem_fieldLeaves.1 he
      exact goodLeaf_below (show (Segment.name _).Plain from hnames e hmem)
        (depth_lt_of_mem_fields hmem) (ih e hmem).2 hbelow
    refine ⟨hleaves, fun e he => ?_⟩
    rw [valueLeaves] at he
    split_ifs at he
    · rw [List.mem_singleton.1 he]
      exact goodLeaf_nil rfl
    · exact hleaves e he

/-! ## Values at paths -/

/-- A value that is a leaf: not a list or an object, or an empty object. -/
def IsLeaf (j : Json P) (value : Input P Unit) : Prop :=
  j.leaf? = some value ∨ (j = dict [] ∧ value = .object ())

lemma own_of_isLeaf (h : j.IsLeaf value) (segment : Segment) : j.own segment = none := by
  obtain h | ⟨rfl, -⟩ := h
  · cases j with
    | null | prim p => rfl
    | list items | dict fields => cases h
  · cases segment <;> rfl

lemma isLeaf_unique {value' : Input P Unit} (h : j.IsLeaf value) (h' : j.IsLeaf value') : value = value' := by
  obtain h | ⟨rfl, rfl⟩ := h
  · obtain h' | ⟨rfl, -⟩ := h'
    · exact Option.some.inj (h.symm.trans h')
    · cases h
  · obtain h' | ⟨-, rfl⟩ := h'
    · cases h'
    · rfl

lemma look_of_mem_below {child : Json P} (hown : j.own segment = some child)
    (hl : ∀ e ∈ l, ∃ a, child.look e.1 = some a ∧ a.IsLeaf e.2)
    (h : (path, value) ∈ below segment l) : ∃ a, j.look path = some a ∧ a.IsLeaf value := by
  obtain ⟨rest, rfl, hmem⟩ := mem_below.1 h
  obtain ⟨a, hlook, ha⟩ := hl _ hmem
  refine ⟨a, ?_, ha⟩
  rw [look_cons, hown]
  exact hlook

/-- Each leaf that dt-core finds stands at its path. -/
theorem look_of_mem_leaves (hj : j.Ordinary) :
    (∀ e ∈ j.leaves false, ∃ a, j.look e.1 = some a ∧ a.IsLeaf e.2) ∧
      ∀ e ∈ j.valueLeaves false, ∃ a, j.look e.1 = some a ∧ a.IsLeaf e.2 := by
  induction hj with
  | prim p =>
    refine ⟨fun e he => ?_, fun e he => ?_⟩
    all_goals
      rw [mem_singleton.1 he]
      exact ⟨_, rfl, .inl rfl⟩
  | list items _ _ ih =>
    have hentries : ∀ e ∈ entryLeaves false items 0, ∃ a, (list items).look e.1 = some a ∧ a.IsLeaf e.2 := by
      rintro ⟨path, value⟩ he
      obtain ⟨i, j, hget, hbelow⟩ := mem_entryLeaves.1 he
      rw [Nat.zero_add] at hbelow
      exact look_of_mem_below (own_list_iff.2 ⟨i, rfl, hget⟩) (ih j (mem_of_getElem? hget)).1 hbelow
    exact ⟨hentries, hentries⟩
  | dict fields _ hnodup _ ih =>
    have hleaves : ∀ e ∈ fieldLeaves false fields, ∃ a, (dict fields).look e.1 = some a ∧ a.IsLeaf e.2 := by
      rintro ⟨path, value⟩ he
      obtain ⟨e, hmem, hbelow⟩ := mem_fieldLeaves.1 he
      exact look_of_mem_below ((own_dict_iff hnodup).2 ⟨_, rfl, hmem⟩) (ih e hmem).2 hbelow
    refine ⟨hleaves, fun e he => ?_⟩
    rw [valueLeaves] at he
    split_ifs at he with hempty
    · rw [mem_singleton.1 he, List.isEmpty_iff.1 hempty]
      exact ⟨_, rfl, .inr ⟨rfl, rfl⟩⟩
    · exact hleaves e he

/-- And each value that is not a list or an object is found. -/
theorem mem_leaves_of_look (hj : j.Ordinary) {a : Json P} (hlook : j.look path = some a) (ha : a.leaf? = some value) :
    (path, value) ∈ j.leaves false ∧ (path, value) ∈ j.valueLeaves false := by
  induction hj generalizing path with
  | prim p =>
    cases path with
    | nil =>
      cases hlook
      cases ha
      exact ⟨mem_singleton_self _, mem_singleton_self _⟩
    | cons => cases hlook
  | list items _ _ ih =>
    cases path with
    | nil =>
      cases hlook
      cases ha
    | cons segment path =>
      rw [look_cons, Option.bind_eq_some_iff] at hlook
      obtain ⟨child, hown, hlook⟩ := hlook
      obtain ⟨i, rfl, hget⟩ := own_list_iff.1 hown
      have hmem := (ih child (mem_of_getElem? hget) hlook).1
      have hentry : (Segment.index i :: path, value) ∈ entryLeaves false items 0 := by
        refine mem_entryLeaves.2 ⟨i, child, hget, mem_below.2 ⟨path, ?_, hmem⟩⟩
        rw [Nat.zero_add]
      exact ⟨hentry, hentry⟩
  | dict fields _ hnodup _ ih =>
    cases path with
    | nil =>
      cases hlook
      cases ha
    | cons segment path =>
      rw [look_cons, Option.bind_eq_some_iff] at hlook
      obtain ⟨child, hown, hlook⟩ := hlook
      obtain ⟨n, rfl, hfield⟩ := (own_dict_iff hnodup).1 hown
      have hmem := (ih _ hfield hlook).2
      have hleaf : (Segment.name n :: path, value) ∈ fieldLeaves false fields :=
        mem_fieldLeaves.2 ⟨_, hfield, mem_below.2 ⟨path, rfl, hmem⟩⟩
      refine ⟨hleaf, ?_⟩
      rw [valueLeaves, if_neg]
      · exact hleaf
      · exact fun hempty => ne_nil_of_mem hfield (List.isEmpty_iff.1 hempty)

/-- No leaf leaves no room for another. -/
theorem eq_of_blocks {a b : Json P} {value' : Input P Unit} {p q : List Segment} (ha : j.look p = some a)
    (haLeaf : a.IsLeaf value) (hb : j.look q = some b) (hbLeaf : b.IsLeaf value')
    (h : blocks true p q = true) : p = q := by
  induction p generalizing j q with
  | nil =>
    cases ha
    cases q with
    | nil => rfl
    | cons segment q =>
      rw [look_cons, own_of_isLeaf haLeaf] at hb
      cases hb
  | cons segment p ih =>
    cases q with
    | nil =>
      cases hb
      rw [look_cons, own_of_isLeaf hbLeaf] at ha
      cases ha
    | cons segment' q =>
      rw [look_cons, Option.bind_eq_some_iff] at ha hb
      obtain ⟨child, hown, ha⟩ := ha
      obtain ⟨child', hown', hb⟩ := hb
      rw [blocks, or_eq_true, and_eq_true_iff, beq_iff_eq] at h
      obtain hkind | ⟨rfl, h⟩ := h
      · -- a value is a list or an object, not both
        cases j with
        | null | prim p => cases hown
        | list items =>
          obtain ⟨i, rfl, -⟩ := own_list_iff.1 hown
          obtain ⟨i', rfl, -⟩ := own_list_iff.1 hown'
          cases hkind
        | dict fields =>
          cases segment with
          | index i => cases hown
          | name n =>
            cases segment' with
            | index i => cases hown'
            | name n' => cases hkind
      · cases hown.symm.trans hown'
        rw [ih ha hb h]

/-! ## Lists in lists -/

mutual

/-- dt-ui writes a key for a property with this value, or for one below it. -/
def holdsValue : Json P → Bool
  | .null => true
  | .prim _ => true
  | .list items => anyEntryHolds items
  | .dict fields => fields.isEmpty || anyFieldHolds fields

/-- The same for a list entry; an empty object is none here. -/
def holdsEntry : Json P → Bool
  | .null => true
  | .prim _ => true
  | .list items => anyIndexHolds items
  | .dict fields => anyFieldHolds fields

def anyFieldHolds : List (Key × Json P) → Bool
  | [] => false
  | e :: fields => fieldHolds e || anyFieldHolds fields

def fieldHolds : Key × Json P → Bool
  | (_, j) => j.holdsValue

/-- A list that stands directly in a list, whose entries are taken for properties. -/
def anyIndexHolds : List (Json P) → Bool
  | [] => false
  | j :: items => j.holdsValue || anyIndexHolds items

def anyEntryHolds : List (Json P) → Bool
  | [] => false
  | j :: items => j.holdsEntry || anyEntryHolds items

end

mutual

/-- No list that stands directly in a list holds an answer. -/
def listsApart : Json P → Bool
  | .null => true
  | .prim _ => true
  | .list items => entriesApart items
  | .dict fields => fieldsApart fields

def entriesApart : List (Json P) → Bool
  | [] => true
  | j :: items => j.entryApart && entriesApart items

def entryApart : Json P → Bool
  | .null => true
  | .prim _ => true
  | .list items => !anyIndexHolds items
  | .dict fields => fieldsApart fields

def fieldsApart : List (Key × Json P) → Bool
  | [] => true
  | e :: fields => fieldApart e && fieldsApart fields

def fieldApart : Key × Json P → Bool
  | (_, j) => j.listsApart

end

lemma below_eq_nil_iff : below segment l = [] ↔ l = [] :=
  map_eq_nil_iff

lemma fieldLeaves_eq_nil_iff : fieldLeaves named fields = [] ↔ ∀ e ∈ fields, e.2.valueLeaves named = [] := by
  induction fields with
  | nil => simp [fieldLeaves]
  | cons e fields ih =>
    obtain ⟨n, j⟩ := e
    rw [fieldLeaves, fieldLeaf, append_eq_nil_iff, below_eq_nil_iff, ih, forall_mem_cons]

lemma entryLeaves_eq_nil_iff {i : ℕ} : entryLeaves named items i = [] ↔ ∀ j ∈ items, j.leaves named = [] := by
  induction items generalizing i with
  | nil => simp [entryLeaves]
  | cons j items ih =>
    rw [entryLeaves, append_eq_nil_iff, below_eq_nil_iff, ih, forall_mem_cons]

lemma namedLeaves_eq_nil_iff {i : ℕ} : namedLeaves named items i = [] ↔ ∀ j ∈ items, j.valueLeaves named = [] := by
  induction items generalizing i with
  | nil => simp [namedLeaves]
  | cons j items ih =>
    rw [namedLeaves, append_eq_nil_iff, below_eq_nil_iff, ih, forall_mem_cons]

lemma anyFieldHolds_eq_false_iff : anyFieldHolds fields = false ↔ ∀ e ∈ fields, e.2.holdsValue = false := by
  induction fields with
  | nil => simp [anyFieldHolds]
  | cons e fields ih =>
    obtain ⟨n, j⟩ := e
    rw [anyFieldHolds, fieldHolds, or_eq_false_iff, ih, forall_mem_cons]

lemma anyIndexHolds_eq_false_iff : anyIndexHolds items = false ↔ ∀ j ∈ items, j.holdsValue = false := by
  induction items with
  | nil => simp [anyIndexHolds]
  | cons j items ih => rw [anyIndexHolds, or_eq_false_iff, ih, forall_mem_cons]

lemma anyEntryHolds_eq_false_iff : anyEntryHolds items = false ↔ ∀ j ∈ items, j.holdsEntry = false := by
  induction items with
  | nil => simp [anyEntryHolds]
  | cons j items ih => rw [anyEntryHolds, or_eq_false_iff, ih, forall_mem_cons]

lemma leaves_eq_nil_iff (j : Json P) : (j.leaves true = [] ↔ j.holdsEntry = false) ∧
    (j.valueLeaves true = [] ↔ j.holdsValue = false) := by
  induction j using Json.induct with
  | null | prim p => simp [leaves, valueLeaves, holdsEntry, holdsValue]
  | list items ih =>
    rw [leaves, if_pos rfl, valueLeaves, holdsEntry, holdsValue, namedLeaves_eq_nil_iff,
      entryLeaves_eq_nil_iff, anyIndexHolds_eq_false_iff, anyEntryHolds_eq_false_iff]
    exact ⟨forall₂_congr fun j hj => (ih j hj).2, forall₂_congr fun j hj => (ih j hj).1⟩
  | dict fields ih =>
    have hfields : fieldLeaves true fields = [] ↔ anyFieldHolds fields = false := by
      rw [fieldLeaves_eq_nil_iff, anyFieldHolds_eq_false_iff]
      exact forall₂_congr fun e he => (ih e he).2
    refine ⟨hfields, ?_⟩
    rw [valueLeaves, holdsValue]
    cases hempty : fields.isEmpty with
    | true => simp
    | false => simpa using hfields

lemma leaves_eq_nil (j : Json P) : (j.leaves true = [] → j.leaves false = []) ∧
    (j.valueLeaves true = [] → j.valueLeaves false = [] ∧ j.leaves false = []) := by
  induction j using Json.induct with
  | null | prim p => simp [leaves, valueLeaves]
  | list items ih =>
    have hentries : (∀ j ∈ items, j.leaves false = []) → entryLeaves false items 0 = [] :=
      entryLeaves_eq_nil_iff.2
    constructor
    · intro h
      exact hentries fun j hj => ((ih j hj).2 (namedLeaves_eq_nil_iff.1 h j hj)).2
    · intro h
      have hnil := hentries fun j hj => (ih j hj).1 (entryLeaves_eq_nil_iff.1 h j hj)
      exact ⟨hnil, hnil⟩
  | dict fields ih =>
    have hfields : fieldLeaves true fields = [] → fieldLeaves false fields = [] := fun h =>
      fieldLeaves_eq_nil_iff.2 fun e he => ((ih e he).2 (fieldLeaves_eq_nil_iff.1 h e he)).1
    refine ⟨hfields, fun h => ?_⟩
    rw [valueLeaves] at h ⊢
    cases hempty : fields.isEmpty with
    | true =>
      rw [hempty] at h
      cases h
    | false =>
      rw [hempty] at h
      exact ⟨hfields h, hfields h⟩

lemma fieldsApart_iff : fieldsApart fields = true ↔ ∀ e ∈ fields, e.2.listsApart = true := by
  induction fields with
  | nil => simp [fieldsApart]
  | cons e fields ih =>
    obtain ⟨n, j⟩ := e
    rw [fieldsApart, fieldApart, and_eq_true_iff, ih, forall_mem_cons]

lemma entriesApart_iff : entriesApart items = true ↔ ∀ j ∈ items, j.entryApart = true := by
  induction items with
  | nil => simp [entriesApart]
  | cons j items ih => rw [entriesApart, and_eq_true_iff, ih, forall_mem_cons]

lemma fieldLeaves_congr {named' : Bool} (h : ∀ e ∈ fields, e.2.valueLeaves named = e.2.valueLeaves named') :
    fieldLeaves named fields = fieldLeaves named' fields := by
  induction fields with
  | nil => rfl
  | cons e fields ih =>
    obtain ⟨n, j⟩ := e
    have hj : j.valueLeaves named = j.valueLeaves named' := h _ (.head _)
    rw [fieldLeaves, fieldLeaves, fieldLeaf, fieldLeaf, hj, ih fun e he => h e (.tail _ he)]

lemma entryLeaves_congr {named' : Bool} (h : ∀ j ∈ items, j.leaves named = j.leaves named') {i : ℕ} :
    entryLeaves named items i = entryLeaves named' items i := by
  induction items generalizing i with
  | nil => rfl
  | cons j items ih =>
    rw [entryLeaves, entryLeaves, h j (.head _), ih fun j hj => h j (.tail _ hj)]

/-- Both functions find the same leaves, in the same order, where lists are apart. -/
theorem leaves_eq_of_apart (j : Json P) : (j.entryApart = true → j.leaves true = j.leaves false) ∧
    (j.listsApart = true → j.valueLeaves true = j.valueLeaves false) := by
  induction j using Json.induct with
  | null | prim p => exact ⟨fun _ => rfl, fun _ => rfl⟩
  | list items ih =>
    constructor
    · intro h
      rw [entryApart, not_eq_true'] at h
      have hnil := (leaves_eq_nil_iff (list items)).1.2 h
      rw [hnil, (leaves_eq_nil (list items)).1 hnil]
    · intro h
      exact entryLeaves_congr fun j hj => (ih j hj).1 (entriesApart_iff.1 h j hj)
  | dict fields ih =>
    have hfields : fieldsApart fields = true → fieldLeaves true fields = fieldLeaves false fields :=
      fun h => fieldLeaves_congr fun e he => (ih e he).2 (fieldsApart_iff.1 h e he)
    refine ⟨hfields, fun h => ?_⟩
    rw [valueLeaves, valueLeaves, hfields h]

/-- A leaf of dt-ui at a path where dt-core finds none. -/
def Strays (l l' : List (List Segment × Input P Unit)) : Prop :=
  ∃ e ∈ l, ∀ e' ∈ l', e'.1 ≠ e.1

lemma strays_entryLeaves (hj : j ∈ items) (h : Strays (j.leaves true) (j.leaves false)) :
    Strays (entryLeaves true items 0) (entryLeaves false items 0) := by
  obtain ⟨⟨path, value⟩, hmem, hstray⟩ := h
  obtain ⟨i, hget⟩ := mem_iff_getElem?.1 hj
  refine ⟨(.index (0 + i) :: path, value),
    mem_entryLeaves.2 ⟨i, j, hget, mem_below.2 ⟨path, rfl, hmem⟩⟩, ?_⟩
  rintro ⟨path', value'⟩ hmem' heq
  obtain ⟨i', j', hget', hbelow⟩ := mem_entryLeaves.1 hmem'
  obtain ⟨rest, rfl, hrest⟩ := mem_below.1 hbelow
  obtain ⟨hindex, htail⟩ := List.cons.inj heq
  -- the same index is the same entry
  have hsame : i' = i := Nat.add_left_cancel (Segment.index.inj hindex)
  rw [hsame, hget] at hget'
  cases hget'
  exact hstray _ hrest htail

lemma strays_fieldLeaves {e : Key × Json P} (hnodup : (fields.map Prod.fst).Nodup) (he : e ∈ fields)
    (h : Strays (e.2.valueLeaves true) (e.2.valueLeaves false)) :
    Strays (fieldLeaves true fields) (fieldLeaves false fields) := by
  obtain ⟨⟨path, value⟩, hmem, hstray⟩ := h
  refine ⟨(.name e.1 :: path, value), mem_fieldLeaves.2 ⟨e, he, mem_below.2 ⟨path, rfl, hmem⟩⟩, ?_⟩
  rintro ⟨path', value'⟩ hmem' heq
  obtain ⟨e', he', hbelow⟩ := mem_fieldLeaves.1 hmem'
  obtain ⟨rest, rfl, hrest⟩ := mem_below.1 hbelow
  obtain ⟨hname, htail⟩ := List.cons.inj heq
  -- the same name is the same field
  obtain rfl := inj_on_of_nodup_map hnodup he' he (Segment.name.inj hname)
  exact hstray _ hrest htail

/-- And dt-ui finds a leaf at another path where they are not. -/
theorem strays_of_not_apart (hj : j.Ordinary) :
    (j.entryApart = false → Strays (j.leaves true) (j.leaves false)) ∧
      (j.listsApart = false → Strays (j.valueLeaves true) (j.valueLeaves false)) := by
  induction hj with
  | prim p =>
    refine ⟨fun h => ?_, fun h => ?_⟩
    all_goals cases h
  | list items _ _ ih =>
    constructor
    · intro h
      rw [entryApart, not_eq_false'] at h
      have hne : (list items).leaves true ≠ [] := by
        rw [ne_eq, (leaves_eq_nil_iff (list items)).1, holdsEntry, h]
        decide
      obtain ⟨⟨path, value⟩, hmem⟩ := exists_mem_of_ne_nil _ hne
      refine ⟨_, hmem, ?_⟩
      -- one path starts with a name, the other with an index
      rintro ⟨path', value'⟩ hmem' heq
      obtain ⟨i, a, -, hbelow⟩ := mem_namedLeaves.1 hmem
      obtain ⟨rest, rfl, -⟩ := mem_below.1 hbelow
      obtain ⟨i', a', -, hbelow'⟩ := mem_entryLeaves.1 hmem'
      obtain ⟨rest', rfl, -⟩ := mem_below.1 hbelow'
      cases heq
    · intro h
      have hnot : ¬ ∀ j ∈ items, j.entryApart = true := by
        rw [← entriesApart_iff, not_eq_true]
        exact h
      push Not at hnot
      obtain ⟨j, hmem, hapart⟩ := hnot
      exact strays_entryLeaves hmem ((ih j hmem).1 (eq_false_iff.2 hapart))
  | dict fields _ hnodup _ ih =>
    have hleaves : fieldsApart fields = false →
        Strays (fieldLeaves true fields) (fieldLeaves false fields) := by
      intro h
      have hnot : ¬ ∀ e ∈ fields, e.2.listsApart = true := by
        rw [← fieldsApart_iff, not_eq_true]
        exact h
      push Not at hnot
      obtain ⟨e, hmem, hapart⟩ := hnot
      exact strays_fieldLeaves hnodup hmem ((ih e hmem).2 (eq_false_iff.2 hapart))
    refine ⟨hleaves, fun h => ?_⟩
    have hnonempty : fields.isEmpty = false := by
      cases fields with
      | nil => cases h
      | cons e fields => rfl
    rw [valueLeaves, valueLeaves, hnonempty]
    exact hleaves h

end Json

end FlatKeys
