import Dethernety.FlatKeys.Leaves
import Dethernety.FlatKeys.RequestShapes

/-!
# Rebuilding a form

The bag of the leaves of a form is rebuilt to the form, up to empty lists and empty objects: no key is
left out. None conflicts with another, as the paths are those of one value, and what is built never holds
more than that value: its lists are not longer than the lists of the form, so they stay within the budget.
-/

open List Option Nat

namespace FlatKeys

open FlatKeys.Tree

variable {P : Type}

/-- What is held in one place, if it is not a list or an object. -/
def Tree.leaf? : Tree P Unit → Option (Input P Unit)
  | .input .null => some .null
  | .input (.prim p) => some (.prim p)
  | _ => none

/-- A rebuilt value is a JSON value up to empty lists and empty objects: at each path both hold the same
value that is not a list or an object, or neither holds one. -/
def Agrees (t : Tree P Unit) (j : Json P) : Prop :=
  ∀ path, (t.look path).leaf? = (j.look path).bind Json.leaf?

section

/-- What is built where a form has a value: a list that is not longer, or an object without other names. -/
def Fits : Option (Json P) → Tree P Unit → Prop
  | _, .input value => value ≠ .null
  | some (.list items), .list slots => slots.length ≤ items.length
  | some (.dict fields), .dict entries =>
    (entries.map Prod.fst).Nodup ∧ ∀ e ∈ entries, e.1 ∈ fields.map Prod.fst
  | _, _ => False

/-- Nothing is built but what a form has a place for. -/
def Covers (j : Json P) (t : Tree P Unit) : Prop :=
  ∀ path, Fits (j.look path) (t.look path)

variable {j child : Json P} {t built : Tree P Unit} {segment other : Segment} {value : Input P Unit}

lemma fits_input_iff {a : Option (Json P)} : Fits a (.input value) ↔ value ≠ .null := by
  cases a with
  | none => rfl
  | some a => cases a <;> rfl

lemma fits_input (a : Option (Json P)) (h : value ≠ .null) : Fits a (.input value) :=
  fits_input_iff.2 h

lemma covers_input (h : value ≠ .null) : Covers j (.input value) := by
  intro path
  cases path with
  | nil => exact fits_input _ h
  | cons =>
    rw [look_input_cons]
    exact fits_input _ fun h => by cases h

lemma own_assign_of_ne (h : t.fits segment = true) (hne : other ≠ segment) :
    own (assign false t segment built) other = own t other := by
  match t, segment, h with
  | .list slots, .index i, _ =>
    cases other with
    | name n => rw [assign_list]; rfl
    | index k =>
      have hk : k ≠ i := fun heq => hne (congrArg Segment.index heq)
      rw [assign_list]
      show (_ : Option (Tree P Unit)).getD undef = (slots[k]?).getD undef
      split_ifs with hi
      · rw [getElem?_set_ne (Ne.symm hk)]
      · by_cases hlt : k < slots.length
        · rw [append_assoc, getElem?_append_left hlt]
        · -- a hole, or beyond the end
          rw [getElem?_eq_none (Nat.le_of_not_lt hlt), append_assoc,
            getElem?_append_right (Nat.le_of_not_lt hlt)]
          by_cases hhole : k - slots.length < i - slots.length
          · rw [getElem?_append_left (by rwa [length_replicate]), getElem?_replicate_of_lt hhole]
            rfl
          · rw [getElem?_eq_none]
            simp only [length_append, length_replicate, length_singleton]
            omega
  | .dict entries, .name n, _ =>
    cases other with
    | index k => rw [assign_dict]; rfl
    | name n' =>
      have hn : n ≠ n' := fun heq => hne (congrArg Segment.name heq.symm)
      rw [assign_dict]
      show (Record.lookup n' (Record.insertEntry n built entries)).getD undef = _
      rw [Record.lookup_insertEntry, if_neg hn]
      rfl

lemma covers_of_own (h : Covers j t) (hown : j.own segment = some child) : Covers child (t.own segment) := by
  intro path
  have hpath := h (segment :: path)
  rwa [Json.look_cons, hown] at hpath

lemma fits_root_assign (h : Fits (some j) t) (hfits : t.fits segment = true)
    (hown : j.own segment = some child) : Fits (some j) (assign false t segment built) := by
  match t, segment, hfits with
  | .list slots, .index i, _ =>
    cases j with
    | null | prim p | dict fields => exact absurd h id
    | list items =>
      have hslots : slots.length ≤ items.length := h
      have hi : i < items.length := (List.getElem?_eq_some_iff.1 hown).1
      rw [assign_list]
      show List.length _ ≤ items.length
      split_ifs with hlt
      · rw [List.length_set]
        exact hslots
      · simp only [List.length_append, List.length_replicate, List.length_singleton]
        omega
  | .dict entries, .name n, _ =>
    cases j with
    | null | prim p | list items => exact absurd h id
    | dict fields =>
      obtain ⟨hnodup, hnames⟩ : (entries.map Prod.fst).Nodup ∧ _ := h
      rw [assign_dict]
      refine ⟨Record.nodup_insertEntry hnodup, fun e he => ?_⟩
      obtain hn | hn := Record.mem_keys_insertEntry.1 (List.mem_map_of_mem (f := Prod.fst) he)
      · rw [hn, ← Record.lookup_isSome_iff]
        exact isSome_iff_exists.2 ⟨child, hown⟩
      · obtain ⟨e', he', heq⟩ := List.mem_map.1 hn
        exact heq ▸ hnames e' he'

lemma covers_assign (h : Covers j t) (hfits : t.fits segment = true)
    (hown : j.own segment = some child) (hbuilt : Covers child built) : Covers j (assign false t segment built) := by
  intro path
  cases path with
  | nil => exact fits_root_assign (h []) hfits hown
  | cons other path =>
    rw [Tree.look]
    by_cases hother : other = segment
    · subst hother
      rw [own_assign_same hfits, Json.look_cons, hown]
      exact hbuilt path
    · rw [own_assign_of_ne hfits hother]
      exact h (other :: path)

lemma covers_fresh {grandchild : Json P} (hown : j.own segment = some grandchild) : Covers j (fresh segment) := by
  intro path
  cases path with
  | nil =>
    cases j with
    | null | prim p => cases hown
    | list items =>
      obtain ⟨i, rfl, -⟩ := Json.own_list_iff.1 hown
      exact zero_le _
    | dict fields =>
      cases segment with
      | index i => cases hown
      | name n => exact ⟨nodup_nil, fun e he => absurd he not_mem_nil⟩
  | cons =>
    rw [look_fresh_cons]
    exact fits_input _ fun h => by cases h

lemma covers_written {segments : List Segment} {growth : ℕ} {a : Json P}
    (h : Writable t segments growth) (hcovers : Covers j t) (hlook : j.look segments = some a)
    (hvalue : value ≠ .null) : Covers j (written false (.input value) segments t) := by
  induction h generalizing j with
  | @last t _ hfits =>
    rw [Json.look_cons, bind_eq_some_iff] at hlook
    obtain ⟨child, hown, -⟩ := hlook
    exact covers_assign hcovers hfits hown (covers_input hvalue)
  | @step t segment following _ _ hfits _ ih =>
    rw [Json.look_cons, bind_eq_some_iff] at hlook
    obtain ⟨child, hown, hlook⟩ := hlook
    have henter : Covers child (enter t segment following) := by
      unfold enter
      split_ifs
      · rw [Json.look_cons, bind_eq_some_iff] at hlook
        obtain ⟨grandchild, hown', -⟩ := hlook
        exact covers_fresh hown'
      · exact covers_of_own hcovers hown
    exact covers_assign hcovers hfits hown (ih henter hlook)

end

section

variable {j : Json P} {t : Tree P Unit}

lemma slotsOf_le_slotsOfItems {slots : List (Tree P Unit)} {items : List (Json P)}
    (hlength : slots.length ≤ items.length) (h : ∀ (i : ℕ) (slot : Tree P Unit) (item : Json P), slots[i]? = some slot →
      items[i]? = some item → listSlots slot ≤ item.listSlots) : slotsOf slots ≤ Json.slotsOfItems items := by
  induction slots generalizing items with
  | nil => exact zero_le _
  | cons slot slots ih =>
    cases items with
    | nil => cases hlength
    | cons item items =>
      have hfirst := h 0 slot item rfl rfl
      have hrest := ih (le_of_succ_le_succ hlength) fun i slot' item' hslot hitem =>
        h (i + 1) slot' item' hslot hitem
      rw [slotsOf, Json.slotsOfItems]
      omega

lemma slotsOfFields_append (fields fields' : List (Key × Json P)) :
    Json.slotsOfFields (fields ++ fields') = Json.slotsOfFields fields + Json.slotsOfFields fields' := by
  induction fields with
  | nil => rw [nil_append, Json.slotsOfFields, Nat.zero_add]
  | cons e fields ih => rw [cons_append, Json.slotsOfFields, Json.slotsOfFields, ih, Nat.add_assoc]

lemma entriesOf_le_slotsOfFields {entries : List (Key × Tree P Unit)} {fields : List (Key × Json P)}
    (hnodup : (entries.map Prod.fst).Nodup) (h : ∀ e ∈ entries, ∃ v, (e.1, v) ∈ fields ∧ listSlots e.2 ≤ v.listSlots) :
    entriesOf entries ≤ Json.slotsOfFields fields := by
  induction entries generalizing fields with
  | nil => exact zero_le _
  | cons e entries ih =>
    obtain ⟨n, built⟩ := e
    obtain ⟨hn, hnodup⟩ := nodup_cons.1 hnodup
    obtain ⟨v, hfield, hle⟩ := h _ (.head _)
    obtain ⟨l, l', rfl⟩ := append_of_mem hfield
    have hrest : entriesOf entries ≤ Json.slotsOfFields (l ++ l') := by
      refine ih hnodup fun e he => ?_
      obtain ⟨v', hfield', hle'⟩ := h e (.tail _ he)
      refine ⟨v', ?_, hle'⟩
      obtain hmem | hmem := mem_append.1 hfield'
      · exact mem_append_left _ hmem
      · obtain heq | hmem := mem_cons.1 hmem
        · -- the name of this field is taken
          exact absurd ((Prod.mk.inj heq).1 ▸ mem_map_of_mem (f := Prod.fst) he) hn
        · exact mem_append_right _ hmem
    rw [slotsOfFields_append] at hrest
    rw [entriesOf, entryOf, slotsOfFields_append, Json.slotsOfFields, Json.slotsOfField]
    have hfirst : listSlots built ≤ v.listSlots := hle
    omega

lemma listSlots_le_of_covers (j : Json P) : ∀ t : Tree P Unit, Covers j t → j.Ordinary →
    listSlots t ≤ j.listSlots := by
  induction j using Json.induct with
  | null =>
    intro t _ hj
    cases hj
  | prim p =>
    intro t h _
    cases t with
    | input v => exact le_refl _
    | list slots | dict entries => exact absurd (h []) id
  | list items ih =>
    intro t h hj
    cases hj with
    | list _ _ hitems =>
      cases t with
      | input v => exact zero_le _
      | dict entries => exact absurd (h []) id
      | list slots =>
        have hlength : slots.length ≤ items.length := h []
        have hslots : slotsOf slots ≤ Json.slotsOfItems items := by
          refine slotsOf_le_slotsOfItems hlength fun i slot item hslot hitem => ?_
          have hmem := mem_of_getElem? hitem
          refine ih item hmem slot ?_ (hitems item hmem)
          have hown : own (.list slots : Tree P Unit) (.index i) = slot := by
            rw [own, hslot]
            rfl
          rw [← hown]
          exact covers_of_own h hitem
        rw [listSlots, Json.listSlots]
        omega
  | dict fields ih =>
    intro t h hj
    cases hj with
    | dict _ _ hnodup hfields =>
      cases t with
      | input v => exact zero_le _
      | list slots => exact absurd (h []) id
      | dict entries =>
        obtain ⟨hentries, hnames⟩ : (entries.map Prod.fst).Nodup ∧ _ := h []
        rw [listSlots, Json.listSlots]
        refine entriesOf_le_slotsOfFields hentries fun e he => ?_
        obtain ⟨⟨n, v⟩, hfield, heq⟩ := mem_map.1 (hnames e he)
        obtain rfl : n = e.1 := heq
        refine ⟨v, hfield, ih _ hfield e.2 ?_ (hfields _ hfield)⟩
        have hlookup : Record.lookup e.1 entries = some e.2 :=
          (Record.mem_entries_iff (r := ⟨entries, hentries⟩)).1 he
        have hown : own (.dict entries : Tree P Unit) (.name e.1) = e.2 := by
          rw [own, hlookup]
          rfl
        rw [← hown]
        exact covers_of_own h ((Json.own_dict_iff hnodup).2 ⟨_, rfl, hfield⟩)

end

/-- The bag holds the leaves of the form, each under its key. -/
def HoldsLeaves (form : Form P) (bag : Bag P) : Prop :=
  ∀ key value, bag.get? key = some value ↔
    ∃ path, plainKey path = key ∧ (path, value) ∈ form.leaves false

variable {form : Form P} {bag : Bag P} {path : List Segment} {value : Input P Unit} {named : Bool}

section

variable (h : (path, value) ∈ form.leaves named)
include h

lemma exists_name_of_mem_leaves : ∃ n rest, path = .name n :: rest ∧ PlainName n := by
  obtain ⟨e, he, hbelow⟩ := Json.mem_fieldLeaves.1 h
  obtain ⟨rest, rfl, -⟩ := Json.mem_below.1 hbelow
  exact ⟨e.1, rest, rfl, form.plainName he⟩

lemma parseFlatKey_of_mem_leaves : parseFlatKey (plainKey path) = .ok path := by
  obtain ⟨n, rest, rfl, hn⟩ := exists_name_of_mem_leaves h
  obtain ⟨hplain, hlength, -⟩ := (Json.goodLeaf_of_mem_leaves form.ordinary).1 _ h
  refine parseFlatKey_plainKey hn (fun s hs => hplain s (.tail _ hs)) ?_
  exact le_trans hlength form.depth_le

lemma path_eq_of_plainKey_eq {named' : Bool} {path' : List Segment} {value' : Input P Unit}
    (h' : (path', value') ∈ form.leaves named')
    (heq : plainKey path = plainKey path') : path = path' := by
  have hparse := parseFlatKey_of_mem_leaves h
  rw [heq, parseFlatKey_of_mem_leaves h'] at hparse
  exact (Except.ok.inj hparse).symm

lemma present_of_mem_leaves : value.present = true :=
  ((Json.goodLeaf_of_mem_leaves form.ordinary).1 _ h).present

end

lemma isLeaf_of_mem_leaves (h : (path, value) ∈ form.leaves false) :
    ∃ a, form.value.look path = some a ∧ a.IsLeaf value :=
  (Json.look_of_mem_leaves form.ordinary).1 _ h

/-- What the rebuild of the bag of a form keeps after each key. -/
structure OnlyForm (form : Form P) (s : Rebuild P Unit) : Prop where
  slots_eq : s.slots = listSlots s.value
  covers : Covers form.value s.value

variable (h : HoldsLeaves form bag)
include h

lemma exists_leaf_of_mem_keys {key : Key} (hkey : key ∈ bag.keys) :
    ∃ path value, plainKey path = key ∧ (path, value) ∈ form.leaves false ∧ bag.get? key = some value ∧
      parseFlatKey key = .ok path := by
  obtain ⟨value, hget⟩ := isSome_iff_exists.1 (Record.mem_keys_iff.1 hkey)
  obtain ⟨path, rfl, hmem⟩ := (h key value).1 hget
  exact ⟨path, value, rfl, hmem, hget, parseFlatKey_of_mem_leaves hmem⟩

/-- Keys of the bag build nothing but the form. -/
lemma onlyForm_foldl (store : Store P Unit) {l : List Key} (hl : ∀ key ∈ l, key ∈ bag.keys) :
    OnlyForm form (l.foldl (stepKey defaultOptions bag) (.start store)) ∧
      (l.foldl (stepKey defaultOptions bag) (.start store)).value.absent = false := by
  refine foldl_stepKey_induction l (fun s key hkey segments growth hs _ hparse hwritable _ => ?_)
    (fun s dropped hs => ⟨hs.slots_eq, hs.covers⟩) ⟨rfl, ?_⟩ rfl
  · obtain ⟨path, value, -, hmem, hget, hparse'⟩ := exists_leaf_of_mem_keys h (hl key hkey)
    cases hparse.symm.trans hparse'
    obtain ⟨a, hlook, -⟩ := isLeaf_of_mem_leaves hmem
    refine ⟨?_, ?_⟩
    · show s.slots + growth = _
      rw [hs.slots_eq]
      exact (listSlots_written hwritable).symm
    · rw [hget]
      refine covers_written hwritable hs.covers hlook ?_
      rintro rfl
      exact Bool.false_ne_true (present_of_mem_leaves hmem)
  · intro path
    cases path with
    | nil => exact ⟨nodup_nil, fun e he => absurd he not_mem_nil⟩
    | cons other path =>
      show Fits _ (look (fresh (.name [])) (other :: path))
      rw [look_fresh_cons]
      exact fits_input _ fun h => by cases h

lemma budget_kept (store : Store P Unit) {key : Key} {path : List Segment}
    {a : Json P} (hkey : key ∈ bag.keys) (hparse : parseFlatKey key = .ok path)
    (hlook : form.value.look path = some a) :
    (⟨key, .budget⟩ : DroppedFlatKey) ∉ (unflattenFlatKeys defaultOptions store bag).dropped := by
  intro hmem
  obtain ⟨l₁, l₂, hl⟩ := append_of_mem (mem_sortedKeys.2 hkey)
  have hbefore : ∀ k ∈ l₁, k ∈ bag.keys := by
    intro k hk
    rw [← mem_sortedKeys, hl]
    exact mem_append_left _ hk
  obtain ⟨⟨hslots, hcovers⟩, hroot⟩ := onlyForm_foldl h store hbefore
  rw [unflattenFlatKeys, hl, mem_dropped_foldl_iff (hl ▸ nodup_sortedKeys bag),
    attempt_eq_error_iff hparse] at hmem
  obtain ⟨-, hproblem⟩ | ⟨growth, hgrowth, hover, -⟩ := hmem
  · cases hproblem
  · -- the tree after this key would hold no more entries than the form
    obtain ⟨hne, -, -⟩ := parseFlatKey_ok hparse
    have hwritable := writable_of_growthOf hroot hne hgrowth
    have hwritten : Covers form.value (written false (.input .undefined) path _) :=
      covers_written hwritable hcovers hlook fun heq => by cases heq
    have hle := listSlots_le_of_covers _ _ hwritten form.ordinary
    have hmax : form.value.listSlots ≤ maxListSlots := form.slots_le
    rw [listSlots_written hwritable] at hle
    omega

lemma droppedKeys_eq_nil (store : Store P Unit) :
    (unflattenFlatKeys defaultOptions store bag).droppedKeys = [] := by
  rw [eq_nil_iff_forall_not_mem]
  intro key hdropped
  have hleaves : Leaves defaultOptions bag (sortedKeys bag) (unflattenFlatKeys defaultOptions store bag) :=
    leaves_foldl store (nodup_sortedKeys bag)
  have hkey : key ∈ bag.keys := mem_sortedKeys.1 (hleaves.dropped_subset hdropped)
  obtain ⟨path, value, rfl, hmem, -, hparse⟩ := exists_leaf_of_mem_keys h hkey
  obtain ⟨a, hlook, ha⟩ := isLeaf_of_mem_leaves hmem
  obtain hconflict | hbudget := dropped_cases hdropped hparse
  · obtain ⟨path', hparse', hcase⟩ := (mem_dropped_conflict_iff hkey).1 hconflict
    cases hparse.symm.trans hparse'
    obtain hindex | ⟨key', hkey', hlt, -, path', hparse', hblocks⟩ := hcase
    · obtain ⟨n, rest, rfl, -⟩ := exists_name_of_mem_leaves hmem
      cases hindex
    · -- another leaf of the form would be in the way
      obtain ⟨q, value', rfl, hmem', -, hparse''⟩ := exists_leaf_of_mem_keys h hkey'
      cases hparse''.symm.trans hparse'
      obtain ⟨b, hlook', hb⟩ := isLeaf_of_mem_leaves hmem'
      have hsame := Json.eq_of_blocks hlook ha hlook' hb (blocks_symm hblocks)
      rw [hsame] at hlt
      exact absurd hlt (lt_irrefl _)
  · exact budget_kept h store hkey hparse hlook hbudget

lemma look_rebuilt_iff (store : Store P Unit) (hvalue : value.present = true) :
    (unflattenFlatKeys defaultOptions store bag).value.look path = .input value ↔
      (path, value) ∈ form.leaves false := by
  have habsent : (Tree.input value : Tree P Unit).absent = false := by
    rwa [Input.present, Bool.not_eq_true'] at hvalue
  have hnone := droppedKeys_eq_nil h store
  constructor
  · intro hlook
    obtain ⟨key, ⟨-, hparse, value', hget, -, rfl⟩, -⟩ := key_of_leaf (fun _ => rfl) hlook habsent
    obtain ⟨path', rfl, hmem⟩ := (h key value').1 hget
    cases hparse.symm.trans (parseFlatKey_of_mem_leaves hmem)
    exact hmem
  · intro hmem
    have hget := (h _ value).2 ⟨path, rfl, hmem⟩
    obtain ⟨path', hparse, hlook⟩ := found_of_kept (fun _ => rfl) hget (hnone ▸ not_mem_nil) habsent
    cases hparse.symm.trans (parseFlatKey_of_mem_leaves hmem)
    exact hlook

/-- The bag of the leaves of a form is rebuilt to the form. -/
theorem agrees_rebuilt (store : Store P Unit) :
    Agrees (unflattenFlatKeys defaultOptions store bag).value form.value := by
  intro path
  obtain ⟨⟨-, hcovers⟩, -⟩ := onlyForm_foldl h store fun key hkey => mem_sortedKeys.1 hkey
  have hfits : Fits (form.value.look path)
    ((unflattenFlatKeys defaultOptions store bag).value.look path) := hcovers path
  refine Option.ext fun value => ?_
  rw [bind_eq_some_iff]
  constructor
  · intro hleaf
    generalize hlook : (unflattenFlatKeys defaultOptions store bag).value.look path = t at hleaf hfits
    match t, hleaf with
    | .input .null, _ => exact absurd rfl (fits_input_iff.1 hfits)
    | .input (.prim p), hleaf =>
      cases hleaf
      obtain ⟨a, ha, hvalue⟩ := isLeaf_of_mem_leaves ((look_rebuilt_iff h store rfl).1 hlook)
      obtain hvalue | ⟨-, hvalue⟩ := hvalue
      · exact ⟨a, ha, hvalue⟩
      · cases hvalue
  · rintro ⟨a, hlook, ha⟩
    obtain ⟨hmem, -⟩ := Json.mem_leaves_of_look form.ordinary hlook ha
    rw [(look_rebuilt_iff h store (present_of_mem_leaves hmem)).2 hmem]
    cases a with
    | null | prim p =>
      cases ha
      rfl
    | list items | dict fields => cases ha

end FlatKeys
