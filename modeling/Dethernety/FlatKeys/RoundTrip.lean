import Dethernety.FlatKeys.Marked

/-!
# Round trips of dt-core

An object that dt-core flattens is rebuilt to the same object, where lists are padded with null, exactly if
it has no empty list and no list of it has an empty object as an entry: these write no key.
-/

open List

namespace FlatKeys

open FlatKeys.Tree

variable {P : Type}

def DtCore.unflattenProperties (bag : Bag P) : Tree P Unit :=
  (unflattenFlatKeys { padLists := true, leaf := id } emptyObject bag).value

/-- What was rebuilt is a JSON value, up to the order of the names. -/
inductive Same : Tree P Unit → Json P → Prop
  | null : Same (.input .null) .null
  | prim (p : P) : Same (.input (.prim p)) (.prim p)
  | emptyObject : Same (.input (.object ())) (.dict [])
  | list {slots : List (Tree P Unit)} {items : List (Json P)} (hlength : slots.length = items.length)
      (hslots : ∀ (i : ℕ) (slot : Tree P Unit) (item : Json P), slots[i]? = some slot →
        items[i]? = some item → Same slot item) : Same (.list slots) (.list items)
  | dict {entries : List (Key × Tree P Unit)} {fields : List (Key × Json P)}
      (hnodup : (entries.map Prod.fst).Nodup) (hnames : ∀ e ∈ entries, e.1 ∈ fields.map Prod.fst)
      (hfields : ∀ e ∈ fields, e.1 ∈ entries.map Prod.fst)
      (hsame : ∀ (n : Key) (entry : Tree P Unit) (field : Json P), Record.lookup n entries = some entry →
        Record.lookup n fields = some field → Same entry field) : Same (.dict entries) (.dict fields)

/-- An object is rebuilt from its flat keys. -/
def RoundTrips (x : Answers P) : Prop :=
  Same (DtCore.unflattenProperties (DtCore.flattenProperties x.value [] ∅)) x.value

/-! ## The rebuild with padded lists -/

section

mutual

/-- The padded tree with null, for a tree with holes and `none`. -/
def Tree.unmarked : Tree (Option P) Unit → Tree P Unit
  | .input .undefined => null
  | .input .null => null
  | .input (.prim none) => null
  | .input (.prim (some p)) => .input (.prim p)
  | .input (.object g) => .input (.object g)
  | .list slots => .list (unmarkedSlots slots)
  | .dict entries => .dict (unmarkedEntries entries)

def Tree.unmarkedSlots : List (Tree (Option P) Unit) → List (Tree P Unit)
  | [] => []
  | t :: slots => t.unmarked :: unmarkedSlots slots

def Tree.unmarkedEntries : List (Key × Tree (Option P) Unit) → List (Key × Tree P Unit)
  | [] => []
  | e :: entries => unmarkedEntry e :: unmarkedEntries entries

def Tree.unmarkedEntry : Key × Tree (Option P) Unit → Key × Tree P Unit
  | (n, t) => (n, t.unmarked)

end

variable {t child : Tree (Option P) Unit} {segment : Segment} {segments : List Segment}

lemma Tree.unmarkedSlots_eq (slots : List (Tree (Option P) Unit)) :
    unmarkedSlots slots = slots.map Tree.unmarked := by
  induction slots with
  | nil => rfl
  | cons t slots ih => rw [unmarkedSlots, ih, map_cons]

lemma Tree.unmarkedEntries_eq (entries : List (Key × Tree (Option P) Unit)) :
    unmarkedEntries entries = entries.map fun e => (e.1, e.2.unmarked) := by
  induction entries with
  | nil => rfl
  | cons e entries ih =>
    obtain ⟨n, t⟩ := e
    rw [unmarkedEntries, ih, map_cons, unmarkedEntry]

lemma Tree.unmarked_input {value : Input (Option P) Unit} (h : value ≠ .undefined) :
    (Tree.input value).unmarked = .input value.unmarked := by
  match value, h with
  | .null, _ | .prim none, _ | .prim (some p), _ | .object g, _ => rfl

lemma absent_unmarked (h : t.absent = true) : t.unmarked.absent = true := by
  obtain rfl | rfl := eq_input_of_absent h
  all_goals rfl

lemma fits_unmarked (h : t.fits segment = true) : t.unmarked.fits segment = true := by
  match t, segment, h with
  | .list slots, .index i, _ | .dict entries, .name n, _ => rfl

lemma lacking_unmarked (h : t.fits segment = true) : lacking t.unmarked segment = lacking t segment := by
  match t, segment, h with
  | .list slots, .index i, _ =>
    show i + 1 - (unmarkedSlots slots).length = i + 1 - slots.length
    rw [unmarkedSlots_eq, length_map]
  | .dict entries, .name n, _ => rfl

lemma fresh_unmarked (segment : Segment) : (fresh segment : Tree (Option P) Unit).unmarked = fresh segment := by
  cases segment with
  | index i | name n => rfl

lemma own_unmarked (t : Tree (Option P) Unit) (segment : Segment) :
    own t.unmarked segment = (own t segment).unmarked ∨ (own t.unmarked segment = undef ∧ own t segment = undef) := by
  match t, segment with
  | .input value, segment =>
    right
    refine ⟨?_, own_input value segment⟩
    cases value with
    | undefined | null => exact own_input _ _
    | prim p =>
      cases p with
      | none | some p => exact own_input _ _
    | object g => exact own_input _ _
  | .list slots, .name n | .dict entries, .index i => exact .inr ⟨rfl, rfl⟩
  | .list slots, .index i =>
    show ((unmarkedSlots slots)[i]?).getD undef = ((slots[i]?).getD undef).unmarked ∨
      (((unmarkedSlots slots)[i]?).getD undef = undef ∧ (slots[i]?).getD undef = undef)
    rw [unmarkedSlots_eq, getElem?_map]
    cases slots[i]? with
    | none => exact .inr ⟨rfl, rfl⟩
    | some slot => exact .inl rfl
  | .dict entries, .name n =>
    show (Record.lookup n (unmarkedEntries entries)).getD undef = ((Record.lookup n entries).getD undef).unmarked ∨
      ((Record.lookup n (unmarkedEntries entries)).getD undef = undef ∧
        (Record.lookup n entries).getD undef = undef)
    rw [unmarkedEntries_eq, lookup_map]
    cases Record.lookup n entries with
    | none => exact .inr ⟨rfl, rfl⟩
    | some entry => exact .inl rfl

lemma own_unmarked_of_fits {following : Segment} (h : (own t segment).fits following = true) :
    own t.unmarked segment = (own t segment).unmarked := by
  obtain hown | ⟨-, hundef⟩ := own_unmarked t segment
  · exact hown
  · rw [hundef] at h
    cases following <;> cases h

lemma absent_own_unmarked (h : (own t segment).absent = true) : (own t.unmarked segment).absent = true := by
  obtain hown | ⟨hown, -⟩ := own_unmarked t segment
  · rw [hown]
    exact absent_unmarked h
  · rw [hown]
    rfl

lemma assign_unmarked (h : t.fits segment = true) :
    (assign false t segment child).unmarked = assign true t.unmarked segment child.unmarked := by
  match t, segment, h with
  | .list slots, .index i, _ =>
    show _ = assign true (.list (unmarkedSlots slots)) (.index i) child.unmarked
    rw [assign_list, assign_list, Tree.unmarked, unmarkedSlots_eq, unmarkedSlots_eq, length_map]
    split_ifs
    · rw [map_set]
    · rw [map_append, map_append, map_replicate]
      rfl
  | .dict entries, .name n, _ =>
    show _ = assign true (.dict (unmarkedEntries entries)) (.name n) child.unmarked
    rw [assign_dict, assign_dict, Tree.unmarked, unmarkedEntries_eq, unmarkedEntries_eq, insertEntry_map]

lemma writable_unmarked {growth : ℕ} (h : Writable t segments growth) (value : Input (Option P) Unit)
    (hvalue : value ≠ .undefined) :
    Writable t.unmarked segments growth ∧
      (written false (.input value) segments t).unmarked =
        written true (.input value.unmarked) segments t.unmarked := by
  induction h with
  | @last t segment hfits hfree =>
    refine ⟨?_, ?_⟩
    · rw [← lacking_unmarked hfits]
      exact .last (fits_unmarked hfits) (absent_own_unmarked hfree)
    · rw [written, written, assign_unmarked hfits, unmarked_input hvalue]
  | @step t segment following _ _ hfits hrest ih =>
    obtain ⟨hwritable, hwritten⟩ := ih
    have henter : (enter t segment following).unmarked = enter t.unmarked segment following := by
      unfold enter
      by_cases habsent : (own t segment).absent = true
      · rw [if_pos habsent, if_pos (absent_own_unmarked habsent), fresh_unmarked]
      · -- a container that is there
        have hcontainer : (own t segment).fits following = true := by
          unfold enter at hrest
          rw [if_neg habsent] at hrest
          cases hrest with
          | last hfits _ | step hfits => exact hfits
        have hown := own_unmarked_of_fits hcontainer
        rw [if_neg habsent, hown, if_neg]
        rw [not_absent_of_fits (fits_unmarked hcontainer)]
        exact Bool.false_ne_true
    refine ⟨?_, ?_⟩
    · rw [← lacking_unmarked hfits]
      exact .step (fits_unmarked hfits) (henter ▸ hwritable)
    · rw [written, written, assign_unmarked hfits, hwritten, henter]

end

section

variable {bag' : Bag (Option P)} {bag : Bag P}

/-- What can be written grows as `growthOf` says. -/
lemma growthOf_of_writable {G : Type} {t : Tree P G} {segments : List Segment} {growth : ℕ}
    (h : Writable t segments growth) : growthOf t segments = some growth := by
  induction h with
  | @last t segment hfits hfree =>
    have hlast : growthOf (own t segment) [] = some 0 := by
      rw [growthOf]
    rw [growthOf, not_absent_of_fits hfits, hfits, hfree, hlast]
    simp
  | @step t segment following segments rest hfits _ ih =>
    have howned : growthOf (own t segment) (following :: segments) = some rest := by
      unfold enter at ih
      split_ifs at ih with habsent
      · rw [← growthOf_fresh habsent]
        exact ih
      · exact ih
    rw [growthOf, not_absent_of_fits hfits, hfits, howned]
    simp

variable {s : Rebuild P Unit}

/-- A key that can be written is written. -/
lemma attempt_of_writable {options : UnflattenOptions P Unit} {key : Key}
    {value : Input P Unit} {path : List Segment} {growth : ℕ} (hparse : parseFlatKey key = .ok path)
    (hwritable : Writable s.value path growth) (hbudget : s.slots + growth ≤ maxListSlots) :
    attempt options s key value = .ok (s.add options.padLists (options.leaf value) path growth) := by
  unfold attempt
  simp only [hparse, growthOf_of_writable hwritable]
  rw [if_neg (Nat.not_lt.2 hbudget)]
  simp only [write_eq_written hwritable]
  rfl

/-- Two rebuilds, of which one pads lists and takes null for `none`. -/
structure Pads (s' : Rebuild (Option P) Unit) (s : Rebuild P Unit) : Prop where
  value : s.value = s'.value.unmarked
  slots : s.slots = s'.slots
  root : s'.value.absent = false

/-- The options of dt-core. -/
def paddedOptions : UnflattenOptions P Unit where
  padLists := true
  leaf := id

variable {s' : Rebuild (Option P) Unit}

lemma Pads.stepKey {key : Key}
    {value : Input (Option P) Unit} (h : Pads s' s) (hbags : Unmarks bag' bag)
    (hget : bag'.get? key = some value) (hvalue : value ≠ .undefined)
    (hkept : (stepKey defaultOptions bag' s' key).droppedKeys = []) :
    Pads (FlatKeys.stepKey defaultOptions bag' s' key) (FlatKeys.stepKey paddedOptions bag s key) := by
  unfold FlatKeys.stepKey at hkept ⊢
  rw [hbags.get?_eq, hget, Option.map_some, Option.getD_some, Option.getD_some]
  rw [hget, Option.getD_some] at hkept
  cases hattempt : attempt defaultOptions s' key value with
  | error problem =>
    rw [hattempt] at hkept
    exact absurd (map_eq_nil_iff.1 hkept) (append_ne_nil_of_right_ne_nil _ (cons_ne_nil _ _))
  | ok s'' =>
    obtain ⟨path, growth, hparse, hwritable, hbudget, rfl⟩ := attempt_ok h.root hattempt
    obtain ⟨hwritable', hwritten⟩ := writable_unmarked hwritable value hvalue
    rw [← h.value] at hwritable'
    rw [← h.slots] at hbudget
    rw [attempt_of_writable hparse hwritable' hbudget]
    refine ⟨?_, ?_, not_absent_written hwritable⟩
    · show written true _ path s.value = _
      rw [h.value]
      exact hwritten.symm
    · show s.slots + growth = s'.slots + growth
      rw [h.slots]

lemma Pads.foldl {l : List Key} (h : Pads s' s)
    (hbags : Unmarks bag' bag) (hl : ∀ key ∈ l, ∃ value, bag'.get? key = some value ∧ value ≠ .undefined)
    (hkept : (l.foldl (FlatKeys.stepKey defaultOptions bag') s').droppedKeys = []) :
    Pads (l.foldl (FlatKeys.stepKey defaultOptions bag') s') (l.foldl (FlatKeys.stepKey paddedOptions bag) s) := by
  induction l generalizing s' s with
  | nil => exact h
  | cons key l ih =>
    obtain ⟨value, hget, hvalue⟩ := hl key (.head _)
    have hfirst : (FlatKeys.stepKey defaultOptions bag' s' key).droppedKeys = [] := by
      -- a key that is left out stays left out
      rw [eq_nil_iff_forall_not_mem]
      intro key' hmem
      have hlast : key' ∈ (l.foldl (FlatKeys.stepKey defaultOptions bag') _).droppedKeys :=
        mem_droppedKeys_foldl.1 hmem
      rw [foldl_cons] at hkept
      rw [hkept] at hlast
      exact not_mem_nil hlast
    exact ih (h.stepKey hbags hget hvalue hfirst) (fun key hkey => hl key (.tail _ hkey)) hkept

end

/-! ## What comes back -/

/-- The object has no empty list, and no list with an empty object as an entry. -/
def NothingLost (j : Json P) : Prop :=
  ∀ path, j.look path ≠ some (.list []) ∧ ∀ i, j.look (path ++ [.index i]) ≠ some (.dict [])

section

variable {j child : Json P} {segment : Segment} {path : List Segment}

lemma NothingLost.own (h : NothingLost j) (hown : j.own segment = some child) : NothingLost child := by
  intro path
  obtain ⟨hlist, hentry⟩ := h (segment :: path)
  rw [Json.look_cons, hown] at hlist
  refine ⟨hlist, fun i => ?_⟩
  have hchild := hentry i
  rwa [cons_append, Json.look_cons, hown] at hchild

lemma NothingLost.exists_leaf (j : Json P) : NothingLost j → j.Admissible →
    ∃ path a value, j.marked.look path = some a ∧ a.IsLeaf value := by
  induction j using Json.induct with
  | null | prim p => exact fun _ _ => ⟨[], _, _, rfl, .inl rfl⟩
  | list items ih =>
    intro hlost hj
    cases items with
    | nil => exact absurd rfl (hlost []).1
    | cons item items =>
      cases hj with
      | list _ _ hitems =>
        have hown : (Json.list (item :: items)).own (.index 0) = some item := rfl
        obtain ⟨path, a, value, hlook, ha⟩ :=
          ih item (.head _) (hlost.own hown) (hitems item (.head _))
        refine ⟨.index 0 :: path, a, value, ?_, ha⟩
        rw [Json.look_cons, Json.own_marked, hown]
        exact hlook
  | dict fields ih =>
    intro hlost hj
    cases fields with
    | nil => exact ⟨[], _, _, rfl, .inr ⟨rfl, rfl⟩⟩
    | cons e fields =>
      cases hj with
      | dict _ _ hnodup hfields =>
        have hown : (Json.dict (e :: fields)).own (.name e.1) = some e.2 :=
          (Json.own_dict_iff hnodup).2 ⟨e.1, rfl, .head _⟩
        obtain ⟨path, a, value, hlook, ha⟩ :=
          ih e (.head _) (hlost.own hown) (hfields e (.head _))
        refine ⟨.name e.1 :: path, a, value, ?_, ha⟩
        rw [Json.look_cons, Json.own_marked, hown]
        exact hlook

lemma mem_leaves_of_emptyObject {n : Key} (hj : j.Ordinary) :
    j.look (path ++ [.name n]) = some (.dict []) →
    (path ++ [.name n], .object ()) ∈ j.leaves false ∧ (path ++ [.name n], .object ()) ∈ j.valueLeaves false := by
  induction hj generalizing path with
  | prim p =>
    intro hlook
    cases path with
    | nil | cons segment path => cases hlook
  | list items _ _ ih =>
    intro hlook
    cases path with
    | nil => cases hlook
    | cons segment path =>
      rw [cons_append, Json.look_cons, Option.bind_eq_some_iff] at hlook
      obtain ⟨child, hown, hlook⟩ := hlook
      obtain ⟨i, rfl, hget⟩ := Json.own_list_iff.1 hown
      have hmem := (ih child (mem_of_getElem? hget) hlook).1
      have hentry : (Segment.index i :: path ++ [.name n], .object ()) ∈ Json.entryLeaves false items 0 := by
        refine Json.mem_entryLeaves.2 ⟨i, child, hget, Json.mem_below.2 ⟨_, ?_, hmem⟩⟩
        rw [Nat.zero_add, cons_append]
      exact ⟨hentry, hentry⟩
  | dict fields _ hnodup _ ih =>
    intro hlook
    have hleaf : (path ++ [.name n], .object ()) ∈ Json.fieldLeaves false fields := by
      cases path with
      | nil =>
        rw [nil_append, Json.look_cons, Option.bind_eq_some_iff] at hlook
        obtain ⟨child, hown, hlook⟩ := hlook
        obtain ⟨n', hn, hfield⟩ := (Json.own_dict_iff hnodup).1 hown
        obtain rfl := Segment.name.inj hn
        obtain rfl : child = .dict [] := Option.some.inj hlook
        exact Json.mem_fieldLeaves.2 ⟨_, hfield, Json.mem_below.2 ⟨[], rfl, mem_singleton_self _⟩⟩
      | cons =>
        rw [cons_append, Json.look_cons, Option.bind_eq_some_iff] at hlook
        obtain ⟨child, hown, hlook⟩ := hlook
        obtain ⟨n', rfl, hfield⟩ := (Json.own_dict_iff hnodup).1 hown
        exact Json.mem_fieldLeaves.2 ⟨_, hfield, Json.mem_below.2 ⟨_, rfl, (ih _ hfield hlook).2⟩⟩
    refine ⟨hleaf, ?_⟩
    rw [Json.valueLeaves, if_neg]
    · exact hleaf
    · intro hempty
      rw [List.isEmpty_iff.1 hempty] at hleaf
      exact not_mem_nil hleaf

lemma emptyEntry_notMem_leaves {i : ℕ} (j : Json P) : ∀ path,
    (path ++ [.index i], .object ()) ∉ j.leaves false ∧ (path ++ [.index i], .object ()) ∉ j.valueLeaves false := by
  have hbelow : ∀ {j : Json P} {segment : Segment} {path : List Segment},
      (∀ path, (path ++ [.index i], .object ()) ∉ j.leaves false) →
      (path ++ [.index i], Input.object ()) ∈ below segment (j.leaves false) → False := by
    intro j segment path hj hmem
    obtain ⟨rest, heq, hrest⟩ := Json.mem_below.1 hmem
    cases path with
    | nil =>
      cases heq
      -- only a primitive value has a leaf at its own place here
      cases j with
      | null | prim p => cases (Prod.mk.inj (mem_singleton.1 hrest)).2
      | list items =>
        obtain ⟨i, a, -, hmem⟩ := Json.mem_entryLeaves.1 hrest
        obtain ⟨rest, hnil, -⟩ := Json.mem_below.1 hmem
        cases hnil
      | dict fields =>
        obtain ⟨e, -, hmem⟩ := Json.mem_fieldLeaves.1 hrest
        obtain ⟨rest, hnil, -⟩ := Json.mem_below.1 hmem
        cases hnil
    | cons segment' path =>
      cases heq
      exact hj path hrest
  induction j using Json.induct with
  | null =>
    intro path
    have hne : (path ++ [Segment.index i], Input.object ()) ∉ [([], (.null : Input P Unit))] := fun hmem => by
      cases (Prod.mk.inj (mem_singleton.1 hmem)).2
    exact ⟨hne, hne⟩
  | prim p =>
    intro path
    have hne : (path ++ [Segment.index i], Input.object ()) ∉ [([], (.prim p : Input P Unit))] := fun hmem => by
      cases (Prod.mk.inj (mem_singleton.1 hmem)).2
    exact ⟨hne, hne⟩
  | list items ih =>
    intro path
    have hentries : (path ++ [Segment.index i], Input.object ()) ∉ Json.entryLeaves false items 0 := by
      intro hmem
      obtain ⟨k, a, hget, hmem⟩ := Json.mem_entryLeaves.1 hmem
      exact hbelow (fun path => (ih a (mem_of_getElem? hget) path).1) hmem
    exact ⟨hentries, hentries⟩
  | dict fields ih =>
    intro path
    have hfields : (path ++ [Segment.index i], Input.object ()) ∉ Json.fieldLeaves false fields := by
      intro hmem
      obtain ⟨e, he, hmem⟩ := Json.mem_fieldLeaves.1 hmem
      obtain ⟨rest, heq, hrest⟩ := Json.mem_below.1 hmem
      cases path with
      | nil => cases heq
      | cons segment path =>
        cases heq
        exact (ih e he path).2 hrest
    refine ⟨hfields, ?_⟩
    rw [Json.valueLeaves]
    split_ifs
    · intro hmem
      have hpath := (Prod.mk.inj (mem_singleton.1 hmem)).1
      exact append_ne_nil_of_right_ne_nil _ (cons_ne_nil _ _) hpath
    · exact hfields

lemma look_of_look_marked_eq_dict (h : j.marked.look path = some (.dict [])) : j.look path = some (.dict []) := by
  rw [Json.look_marked, Option.map_eq_some_iff] at h
  obtain ⟨a, hlook, ha⟩ := h
  cases a with
  | null | prim p | list items => cases ha
  | dict fields =>
    cases fields with
    | nil => exact hlook
    | cons e fields =>
      cases ha

end

section

variable {j child : Json P} {t : Tree (Option P) Unit} {segment : Segment} {path : List Segment}

/-- What the rebuild of an object in which nothing is lost holds. -/
structure Rebuilds (j : Json P) (t : Tree (Option P) Unit) : Prop where
  covers : Covers j.marked t
  leaves : ∀ path a value, j.marked.look path = some a → a.IsLeaf value → t.look path = .input value

lemma Rebuilds.own (h : Rebuilds j t) (hown : j.own segment = some child) : Rebuilds child (t.own segment) := by
  have hmarked : j.marked.own segment = some child.marked := by
    rw [Json.own_marked, hown]
    rfl
  refine ⟨covers_of_own h.covers hmarked, fun path a value hlook ha => h.leaves (segment :: path) a value ?_ ha⟩
  rw [Json.look_cons, hmarked]
  exact hlook

lemma not_undefined_of_isLeaf {a : Json (Option P)} {value : Input (Option P) Unit} (h : a.IsLeaf value) :
    value ≠ .undefined := by
  obtain h | ⟨-, rfl⟩ := h
  · cases a with
    | null | prim p =>
      cases h
      intro heq
      cases heq
    | list items | dict fields => cases h
  · intro heq
    cases heq

/-- A part in which nothing is lost has been built. -/
lemma own_ne_undef (h : Rebuilds j t) (hlost : NothingLost j) (hown : j.own segment = some child)
    (hchild : child.Admissible) : t.own segment ≠ undef := by
  intro hundef
  obtain ⟨path, a, value, hlook, ha⟩ := NothingLost.exists_leaf child (hlost.own hown) hchild
  have hleaf := (h.own hown).leaves path a value hlook ha
  rw [hundef, look_undef] at hleaf
  exact not_undefined_of_isLeaf ha (Tree.input.inj hleaf).symm

lemma same_list {items : List (Json P)} (hne : items ≠ []) (hitems : ∀ item ∈ items, item.Admissible)
    (h : Rebuilds (.list items) t) (hlost : NothingLost (.list items))
    (ih : ∀ item ∈ items, ∀ t, Rebuilds item t → NothingLost item → item.Admissible → Same t.unmarked item) :
    Same t.unmarked (.list items) := by
  have hpos : 0 < items.length := length_pos_of_ne_nil hne
  obtain ⟨last, hlast⟩ : ∃ last, items[items.length - 1]? = some last :=
    ⟨_, getElem?_eq_getElem (Nat.sub_one_lt_of_lt hpos)⟩
  have hown : (Json.list items).own (.index (items.length - 1)) = some last := hlast
  have hbuilt := own_ne_undef h hlost hown (hitems _ (mem_of_getElem? hlast))
  cases t with
  | input v => exact absurd (own_input v _) hbuilt
  | dict entries => exact absurd (h.covers []) id
  | list slots =>
    have hle : slots.length ≤ (Json.markedItems items).length := h.covers []
    rw [Json.markedItems_eq, length_map] at hle
    -- the slot of the last item was built
    have hlt : items.length - 1 < slots.length := by
      by_contra hge
      apply hbuilt
      show (slots[items.length - 1]?).getD undef = undef
      rw [getElem?_eq_none (Nat.le_of_not_lt hge)]
      rfl
    refine .list ?_ fun i slot item hslot hitem => ?_
    · rw [unmarkedSlots_eq, length_map]
      omega
    · rw [unmarkedSlots_eq, getElem?_map, Option.map_eq_some_iff] at hslot
      obtain ⟨slot', hslot', rfl⟩ := hslot
      have hown : own (.list slots : Tree (Option P) Unit) (.index i) = slot' := by
        rw [own, hslot']
        rfl
      have hmem := mem_of_getElem? hitem
      have hitem' : (Json.list items).own (.index i) = some item := hitem
      exact ih item hmem slot' (hown ▸ h.own hitem') (hlost.own hitem') (hitems item hmem)

lemma keys_unmarkedEntries (entries : List (Key × Tree (Option P) Unit)) :
    (unmarkedEntries entries).map Prod.fst = entries.map Prod.fst := by
  rw [unmarkedEntries_eq, map_map]
  rfl

lemma same_dict {fields : List (Key × Json P)} (hne : fields ≠ []) (hnodup : (fields.map Prod.fst).Nodup)
    (hfields : ∀ e ∈ fields, e.2.Admissible) (h : Rebuilds (.dict fields) t) (hlost : NothingLost (.dict fields))
    (ih : ∀ e ∈ fields, ∀ t, Rebuilds e.2 t → NothingLost e.2 → e.2.Admissible → Same t.unmarked e.2) :
    Same t.unmarked (.dict fields) := by
  have hbuilt : ∀ e ∈ fields, t.own (.name e.1) ≠ undef := fun e he =>
    own_ne_undef h hlost ((Json.own_dict_iff hnodup).2 ⟨_, rfl, he⟩) (hfields e he)
  obtain ⟨first, hfirst⟩ := exists_mem_of_ne_nil _ hne
  cases t with
  | input v => exact absurd (own_input v _) (hbuilt first hfirst)
  | list slots => exact absurd (h.covers []) id
  | dict entries =>
    obtain ⟨hentries, hnames⟩ : (entries.map Prod.fst).Nodup ∧
      ∀ e ∈ entries, e.1 ∈ (Json.markedFields fields).map Prod.fst := h.covers []
    rw [Json.keys_markedFields] at hnames
    refine .dict ?_ (fun e he => ?_) (fun e he => ?_) fun n entry j hentry hfield => ?_
    · rwa [keys_unmarkedEntries]
    · have hmem : e.1 ∈ (unmarkedEntries entries).map Prod.fst := mem_map_of_mem he
      rw [keys_unmarkedEntries] at hmem
      obtain ⟨e', he', heq⟩ := mem_map.1 hmem
      rw [← heq]
      exact hnames e' he'
    · rw [keys_unmarkedEntries, ← Record.lookup_isSome_iff]
      cases hlookup : Record.lookup e.1 entries with
      | some entry => rfl
      | none =>
        refine absurd ?_ (hbuilt e he)
        show (Record.lookup e.1 entries).getD undef = undef
        rw [hlookup]
        rfl
    · rw [unmarkedEntries_eq, lookup_map, Option.map_eq_some_iff] at hentry
      obtain ⟨entry', hentry', rfl⟩ := hentry
      have hown : own (.dict entries : Tree (Option P) Unit) (.name n) = entry' := by
        rw [own, hentry']
        rfl
      have hfield' : (Json.dict fields).own (.name n) = some j := hfield
      have hmem : (n, j) ∈ fields := (Record.mem_entries_iff (r := ⟨fields, hnodup⟩)).2 hfield
      exact ih (n, j) hmem entry' (hown ▸ h.own hfield') (hlost.own hfield') (hfields (n, j) hmem)

lemma same_of_rebuilds (j : Json P) : ∀ t, Rebuilds j t → NothingLost j → j.Admissible → Same t.unmarked j := by
  induction j using Json.induct with
  | null =>
    intro t h _ _
    obtain rfl : t = .input (.prim none) := h.leaves [] _ _ rfl (.inl rfl)
    exact .null
  | prim p =>
    intro t h _ _
    obtain rfl : t = .input (.prim (some p)) := h.leaves [] _ _ rfl (.inl rfl)
    exact .prim p
  | list items ih =>
    intro t h hlost hj
    have hne : items ≠ [] := by
      rintro rfl
      exact (hlost []).1 rfl
    cases hj with
    | list _ _ hitems => exact same_list hne hitems h hlost ih
  | dict fields ih =>
    intro t h hlost hj
    cases hj with
    | dict _ _ hnodup hfields =>
      by_cases hempty : fields = []
      · subst hempty
        obtain rfl : t = .input (.object ()) := h.leaves [] _ _ rfl (.inr ⟨rfl, rfl⟩)
        exact .emptyObject
      · exact same_dict hempty hnodup hfields h hlost ih

end

/-! ## The rebuild of flattened answers -/

section

variable {x : Answers P} {path : List Segment}

/-- The rebuild of the form of an object. -/
def Answers.rebuilt (x : Answers P) : Rebuild (Option P) Unit :=
  unflattenFlatKeys defaultOptions emptyObject (DtCore.flattenProperties x.form.value [] ∅)

lemma holdsLeaves_form (x : Answers P) : HoldsLeaves x.form (DtCore.flattenProperties x.form.value [] ∅) := by
  rw [DtCore.flattenProperties_eq]
  exact holdsLeaves_bagOf x.form

lemma unflattenProperties_eq (x : Answers P) :
    DtCore.unflattenProperties (DtCore.flattenProperties x.value [] ∅) = x.rebuilt.value.unmarked := by
  have hbags := DtCore.unmarks_flattenProperties x
  have hsorted : sortedKeys (DtCore.flattenProperties x.value [] ∅) =
      sortedKeys (DtCore.flattenProperties x.form.value [] ∅) := by
    rw [sortedKeys, sortedKeys, hbags.keys_eq]
  have hstart : Pads (.start emptyObject : Rebuild (Option P) Unit) (.start emptyObject : Rebuild P Unit) :=
    ⟨rfl, rfl, rfl⟩
  have hpads := hstart.foldl hbags (l := sortedKeys (DtCore.flattenProperties x.form.value [] ∅))
    (fun key hkey => ?_) (droppedKeys_eq_nil (holdsLeaves_form x) emptyObject)
  · show (unflattenFlatKeys paddedOptions emptyObject (DtCore.flattenProperties x.value [] ∅)).value = _
    rw [unflattenFlatKeys, hsorted]
    exact hpads.value
  · obtain ⟨path, value, -, hmem, hget, -⟩ := exists_leaf_of_mem_keys (holdsLeaves_form x) (mem_sortedKeys.1 hkey)
    refine ⟨value, hget, ?_⟩
    rintro rfl
    exact Bool.false_ne_true (present_of_mem_leaves hmem)

lemma mem_leaves_of_nothingLost (hlost : NothingLost x.value) (hne : x.fields ≠ []) {a : Json (Option P)}
    {value : Input (Option P) Unit} (hlook : x.value.marked.look path = some a) (ha : a.IsLeaf value) :
    (path, value) ∈ x.form.leaves false := by
  obtain hleaf | ⟨rfl, rfl⟩ := ha
  · exact (Json.mem_leaves_of_look x.form.ordinary hlook hleaf).1
  · -- an empty object is not the object itself, nor the entry of a list
    have hempty := look_of_look_marked_eq_dict hlook
    obtain rfl | ⟨path, segment, rfl⟩ := path.eq_nil_or_concat'
    · exact absurd (Json.dict.inj (Option.some.inj hempty)) hne
    · cases segment with
      | index i => exact absurd hempty ((hlost path).2 i)
      | name n => exact (mem_leaves_of_emptyObject x.form.ordinary hlook).1

lemma rebuilds_rebuilt (hlost : NothingLost x.value) (hne : x.fields ≠ []) : Rebuilds x.value x.rebuilt.value := by
  have hholds := holdsLeaves_form x
  refine ⟨(onlyForm_foldl hholds emptyObject fun key hkey => mem_sortedKeys.1 hkey).1.covers,
    fun path a value hlook ha => ?_⟩
  have hmem := mem_leaves_of_nothingLost hlost hne hlook ha
  exact (look_rebuilt_iff hholds emptyObject (present_of_mem_leaves hmem)).2 hmem

lemma roundTrips_of_nothingLost (hlost : NothingLost x.value) : RoundTrips x := by
  obtain ⟨fields, hadmissible, hdepth, hslots⟩ := x
  by_cases hne : fields = []
  · -- the empty object has no key
    subst hne
    exact .dict nodup_nil (fun e he => absurd he not_mem_nil) (fun e he => absurd he not_mem_nil)
      fun n entry j hentry => by cases hentry
  · rw [RoundTrips, unflattenProperties_eq]
    exact same_of_rebuilds _ _ (rebuilds_rebuilt hlost hne) hlost hadmissible

lemma Same.look {j a : Json P} {t : Tree P Unit} (h : Same t j) (hlook : j.look path = some a) :
    Same (t.look path) a := by
  induction path generalizing t j with
  | nil =>
    cases hlook
    exact h
  | cons segment path ih =>
    rw [Json.look_cons, Option.bind_eq_some_iff] at hlook
    obtain ⟨child, hown, hlook⟩ := hlook
    refine ih (t := t.own segment) ?_ hlook
    cases h with
    | null | prim p => cases hown
    | emptyObject => cases segment <;> cases hown
    | @list slots items hlength hslots =>
      obtain ⟨i, rfl, hitem⟩ := Json.own_list_iff.1 hown
      have hi : i < slots.length := hlength ▸ (List.getElem?_eq_some_iff.1 hitem).1
      have hslot : slots[i]? = some slots[i] := List.getElem?_eq_getElem hi
      rw [own, hslot]
      exact hslots i _ child hslot hitem
    | @dict _ fields _ _ hfields hsame =>
      cases segment with
      | index i => cases hown
      | name n =>
        have hfield : Record.lookup n fields = some child := hown
        have hkey : n ∈ fields.map Prod.fst := Record.lookup_isSome_iff.1 (hfield ▸ rfl)
        obtain ⟨e, he, rfl⟩ := List.mem_map.1 hkey
        obtain ⟨entry, hentry⟩ := Option.isSome_iff_exists.1 (Record.lookup_isSome_iff.2 (hfields e he))
        rw [own, hentry]
        exact hsame e.1 entry child hentry hfield

lemma look_unmarked (t : Tree (Option P) Unit) (path : List Segment) :
    t.unmarked.look path = (t.look path).unmarked ∨
      (t.unmarked.look path = undef ∧ t.look path = undef) := by
  induction path generalizing t with
  | nil => exact .inl rfl
  | cons segment path ih =>
    rw [Tree.look, Tree.look]
    obtain hown | ⟨hown, hown'⟩ := own_unmarked t segment
    · rw [hown]
      exact ih _
    · rw [hown, hown', look_undef, look_undef]
      exact .inr ⟨rfl, rfl⟩

/-- A list or an object that is not empty. -/
def Tree.Filled (t : Tree P Unit) : Prop :=
  t ≠ .list [] ∧ t ≠ .dict []

lemma filled_input (value : Input P Unit) : (Tree.input value).Filled := by
  refine ⟨fun h => ?_, fun h => ?_⟩
  all_goals cases h

lemma filled_assign {t child : Tree P Unit} {segment : Segment} (h : t.fits segment = true) :
    (assign false t segment child).Filled := by
  match t, segment, h with
  | .list slots, .index i, _ =>
    rw [assign_list]
    refine ⟨fun h => ?_, fun h => by cases h⟩
    have hnil := Tree.list.inj h
    split_ifs at hnil with hi
    · rw [set_eq_nil_iff] at hnil
      rw [hnil] at hi
      exact absurd hi (Nat.not_lt_zero i)
    · exact append_ne_nil_of_right_ne_nil _ (cons_ne_nil _ _) hnil
  | .dict entries, .name n, _ =>
    rw [assign_dict]
    refine ⟨fun h => (by cases h), fun h => ?_⟩
    have hmem : n ∈ (Record.insertEntry n child entries).map Prod.fst := Record.mem_keys_insertEntry.2 (.inl rfl)
    rw [Tree.dict.inj h] at hmem
    exact not_mem_nil hmem

/-- No list or object below the rebuilt one is empty. -/
def AllFilled (s : Rebuild P Unit) : Prop :=
  ∀ segment path, (s.value.look (segment :: path)).Filled

lemma allFilled_foldl (bag : Bag P) (store : Store P Unit) (l : List Key) :
    AllFilled (l.foldl (stepKey defaultOptions bag) (.start store)) ∧
      (l.foldl (stepKey defaultOptions bag) (.start store)).value.absent = false := by
  refine foldl_stepKey_induction l (fun s key _ segments growth hs _ _ hwritable _ => ?_)
    (fun _ _ hs => hs) (fun segment path => ?_) rfl
  · intro segment path
    exact forall_look_written (M := fun _ => True) (N := Tree.Filled) (A := fun _ => True) filled_input
      (fun _ => trivial) (fun _ _ => trivial) (fun t segment child _ hfits _ => filled_assign hfits) hwritable
      (fun _ _ => trivial) trivial hs (segment :: path)
  · show (look (fresh (.name [])) (segment :: path)).Filled
    rw [look_fresh_cons]
    exact filled_input _

variable {t : Tree (Option P) Unit}

lemma eq_of_same_emptyList (h : Same t.unmarked (.list [])) : t = .list [] := by
  match t, h with
  | .list slots, .list hlength _ =>
    rw [unmarkedSlots_eq, length_map] at hlength
    rw [length_eq_zero_iff.1 hlength]
  | .input .undefined, h | .input .null, h | .input (.prim none), h | .input (.prim (some p)), h
  | .input (.object g), h | .dict entries, h => cases h

lemma eq_of_same_emptyDict (h : Same t.unmarked (.dict [])) :
    t = .dict [] ∨ t = .input (.object ()) := by
  match t, h with
  | .dict entries, .dict _ hnames _ _ =>
    left
    have hnil : (unmarkedEntries entries).map Prod.fst = [] := by
      rw [eq_nil_iff_forall_not_mem]
      intro n hn
      obtain ⟨e, he, rfl⟩ := mem_map.1 hn
      exact not_mem_nil (hnames e he)
    rw [keys_unmarkedEntries, map_eq_nil_iff] at hnil
    rw [hnil]
  | .input (.object g), _ => exact .inr rfl
  | .input .undefined, h | .input .null, h | .input (.prim none), h | .input (.prim (some p)), h
  | .list slots, h => cases h

lemma same_look_rebuilt (h : RoundTrips x) {a : Json P} (hlook : x.value.look path = some a) :
    Same (x.rebuilt.value.look path).unmarked a := by
  rw [RoundTrips, unflattenProperties_eq] at h
  have hsame := h.look hlook
  obtain hunmarked | ⟨hundef, -⟩ := look_unmarked x.rebuilt.value path
  · rwa [hunmarked] at hsame
  · rw [hundef] at hsame
    cases hsame

lemma nothingLost_of_roundTrips (h : RoundTrips x) : NothingLost x.value := by
  have hfilled : AllFilled x.rebuilt := (allFilled_foldl _ _ _).1
  intro path
  refine ⟨fun hlook => ?_, fun i hlook => ?_⟩
  · cases path with
    | nil => cases hlook
    | cons segment path => exact (hfilled segment path).1 (eq_of_same_emptyList (same_look_rebuilt h hlook))
  · obtain hdict | hobject := eq_of_same_emptyDict (same_look_rebuilt h hlook)
    · obtain ⟨segment, rest, hpath⟩ := exists_cons_of_ne_nil
        (append_ne_nil_of_right_ne_nil path (cons_ne_nil (Segment.index i) []))
      rw [hpath] at hdict
      exact (hfilled segment rest).2 hdict
    · -- the only empty object that comes back is one that has a name
      have hmem := (look_rebuilt_iff (holdsLeaves_form x) emptyObject rfl).1 hobject
      exact (emptyEntry_notMem_leaves x.form.value path).1 hmem

/-- An object comes back from its flat keys exactly if no list in it is empty and none has an empty object
as an entry. -/
theorem roundTrips_iff (x : Answers P) : RoundTrips x ↔ NothingLost x.value :=
  ⟨nothingLost_of_roundTrips, roundTrips_of_nothingLost⟩

end

/-- `{"a": []}` -/
def emptyListAnswers : Answers ℕ where
  fields := [(units "a", .list [])]
  admissible := .dict _ (by decide) (by decide) fun e he => by
    rw [List.mem_singleton.1 he]
    exact .list [] (by decide) fun item hitem => absurd hitem List.not_mem_nil
  depth_le := by decide
  slots_le := by decide

/-- No key is written for the empty list, and the empty object comes back. -/
theorem not_roundTrips_emptyListAnswers : ¬ RoundTrips emptyListAnswers := by
  intro h
  have hempty : DtCore.unflattenProperties (DtCore.flattenProperties emptyListAnswers.value [] ∅) = .dict [] := by
    rfl
  cases h with
  | dict _ _ hfields => exact not_mem_nil (hfields _ (.head _))

end FlatKeys
