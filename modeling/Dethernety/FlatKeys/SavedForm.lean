import Dethernety.FlatKeys.Rebuilt

/-!
# A saved form

Model of a save of the attributes form: the stored answers and the form are flattened by dt-ui, the
answers that were taken back are sent as null, and the server merges the request into the stored bag.
The merged bag is the flattened form, whatever was stored. It reads back as the form exactly if no list
that stands directly in a list holds an answer: there dt-ui reads the indexes of the inner list as names,
which no list is rebuilt from and which dt-core does not write.
-/

open List Record

namespace FlatKeys

variable {P : Type}

def withClearedAttributes (prior next : Bag P) : Bag P :=
  prior.entries.foldl (fun out e =>
    if e.2.present && (out.get? e.1).isNone then out.set e.1 .null else out) next

def emptyObject : Store P Unit :=
  fun _ => .dict []

/-- `unflattenProperties` of dt-ui -/
def unflattenProperties (bag : Bag P) : Tree P Unit :=
  (unflattenFlatKeys defaultOptions emptyObject bag).value

/-- What a form sends over the stored answers. -/
def savedRequest (stored form : Form P) : Bag P :=
  withClearedAttributes (DtUi.flattenProperties stored.value [] ∅)
    (DtUi.flattenProperties form.value [] ∅)

/-- What the server stores then. -/
def savedBag (stored form : Form P) : Bag P :=
  let prior := DtUi.flattenProperties stored.value [] ∅
  mergeAttributes prior (withRequestShapes prior (savedRequest stored form))

/-- The saved form reads back as it was shown, and is stored as dt-core would store it. -/
structure ReadsBack (stored form : Form P) : Prop where
  agrees : Agrees (unflattenProperties (savedBag stored form)) form.value
  sameEntries : (savedBag stored form).SameEntries (DtCore.flattenProperties form.value [] ∅)

section

variable {l : List (List Segment × Input P Unit)} {key : Key} {value : Input P Unit}

lemma bagOf_eq_ofList : bagOf l = Record.ofList (l.map fun e => (plainKey e.1, e.2)) := by
  rw [bagOf, Record.ofList, foldl_map]

lemma exists_of_get?_bagOf (h : (bagOf l).get? key = some value) :
    ∃ path, plainKey path = key ∧ (path, value) ∈ l := by
  rw [bagOf_eq_ofList] at h
  obtain ⟨⟨path, value'⟩, hmem, heq⟩ := mem_map.1 (mem_of_get?_ofList h)
  cases heq
  exact ⟨path, rfl, hmem⟩

lemma exists_get?_bagOf {path : List Segment} (h : (path, value) ∈ l) :
    ∃ value', (bagOf l).get? (plainKey path) = some value' := by
  rw [← Option.isSome_iff_exists, ← mem_keys_iff, bagOf_eq_ofList, mem_keys_ofList, map_map]
  exact mem_map_of_mem h

lemma any_entries_eq (prior : Bag P) (key : Key) :
    (prior.entries.any fun e => e.1 = key && e.2.present) = (prior.get? key).any (·.present) := by
  rw [Bool.eq_iff_iff, any_eq_true, Option.any_eq_true]
  constructor
  · rintro ⟨⟨k, v⟩, hmem, h⟩
    obtain ⟨hk, hpresent⟩ := Bool.and_eq_true_iff.1 h
    obtain rfl : k = key := of_decide_eq_true hk
    exact ⟨v, mem_entries_iff.1 hmem, hpresent⟩
  · rintro ⟨v, hget, hpresent⟩
    exact ⟨(key, v), mem_entries_iff.2 hget, by simpa using hpresent⟩

lemma get?_withClearedAttributes (prior next : Bag P) (key : Key) :
    (withClearedAttributes prior next).get? key = (next.get? key).or
      (if (prior.get? key).any (·.present) then some .null else none) := by
  rw [← any_entries_eq]
  refine foldl_induction (P := fun (done : List (Key × Input P Unit)) (out : Bag P) =>
    out.get? key = (next.get? key).or
      (if done.any fun e => e.1 = key && e.2.present then some .null else none)) ?_ ?_
  · simp
  · intro done e rest out _ ih
    rw [any_append, any_cons, any_nil, Bool.or_false]
    by_cases hkey : e.1 = key
    · -- a key that the request has keeps its value, another one is cleared
      rw [hkey, ih]
      cases hnext : next.get? key with
      | some v => simp [ih, hnext]
      | none =>
        cases hdone : done.any fun e => e.1 = key && e.2.present with
        | true => simp [ih, hnext, hdone]
        | false =>
          cases hpresent : e.2.present with
          | true => simp [get?_set]
          | false => simp [ih, hnext, hdone]
    · have hget : (if e.2.present && (out.get? e.1).isNone then out.set e.1 .null else out).get? key =
          out.get? key := by
        split_ifs
        · rw [get?_set, if_neg hkey]
        · rfl
      rw [hget, ih, decide_eq_false hkey, Bool.false_and, Bool.or_false]

end

section

variable {stored form : Form P} {key : Key} {value : Input P Unit}

lemma present_of_get? (h : (bagOf (form.leaves true)).get? key = some value) : value.present = true := by
  obtain ⟨path, -, hmem⟩ := exists_of_get?_bagOf h
  exact present_of_mem_leaves hmem

lemma savedBag_sameEntries (stored form : Form P) :
    (savedBag stored form).SameEntries (bagOf (form.leaves true)) := by
  intro key
  refine Option.ext fun value => ?_
  rw [savedBag, get?_merged, savedRequest, get?_withClearedAttributes, DtUi.flattenProperties_eq,
    DtUi.flattenProperties_eq]
  cases hform : (bagOf (form.leaves true)).get? key with
  | some sent =>
    -- the form has an answer here, and it is sent
    rw [Option.some_or]
    constructor
    · rintro (⟨h, -⟩ | ⟨-, h, -⟩)
      · exact h
      · cases h
    · intro h
      cases h
      exact .inl ⟨rfl, present_of_get? hform⟩
  | none =>
    -- no answer: a stored one is cleared
    rw [Option.none_or]
    refine iff_of_false ?_ fun h => by cases h
    rintro (⟨h, hpresent⟩ | ⟨hstored, hkept, -⟩)
    · split_ifs at h
      cases h
      cases hpresent
    · rw [hstored, Option.any_some, present_of_get? hstored] at hkept
      cases hkept

lemma holdsLeaves_bagOf (form : Form P) : HoldsLeaves form (bagOf (form.leaves false)) := by
  intro key value
  refine ⟨exists_of_get?_bagOf, ?_⟩
  rintro ⟨path, rfl, hmem⟩
  obtain ⟨value', hget⟩ := exists_get?_bagOf hmem
  obtain ⟨path', heq, hmem'⟩ := exists_of_get?_bagOf hget
  obtain rfl := path_eq_of_plainKey_eq hmem' hmem heq
  obtain ⟨a, hlook, ha⟩ := isLeaf_of_mem_leaves hmem
  obtain ⟨a', hlook', ha'⟩ := isLeaf_of_mem_leaves hmem'
  cases hlook.symm.trans hlook'
  rw [hget, Json.isLeaf_unique ha' ha]

lemma bagOf_eq_of_apart (h : form.value.listsApart = true) : form.leaves true = form.leaves false := by
  have hfields : Json.fieldsApart form.fields = true := h
  exact Json.fieldLeaves_congr fun e he => (Json.leaves_eq_of_apart e.2).2 (Json.fieldsApart_iff.1 hfields e he)

lemma readsBack_of_apart (h : form.value.listsApart = true) : ReadsBack stored form := by
  have hsaved := savedBag_sameEntries stored form
  rw [bagOf_eq_of_apart h] at hsaved
  refine ⟨?_, ?_⟩
  · have hholds : HoldsLeaves form (savedBag stored form) := fun key value => by
      rw [hsaved key]
      exact holdsLeaves_bagOf form key value
    exact agrees_rebuilt hholds emptyObject
  · rw [DtCore.flattenProperties_eq]
    exact hsaved

lemma apart_of_sameEntries (h : (savedBag stored form).SameEntries (DtCore.flattenProperties form.value [] ∅)) :
    form.value.listsApart = true := by
  by_contra hapart
  obtain ⟨⟨path, value⟩, hmem, hstray⟩ : Json.Strays (form.leaves true) (form.leaves false) :=
    (Json.strays_of_not_apart form.ordinary).1 (Bool.eq_false_iff.2 hapart)
  obtain ⟨value', hget⟩ := exists_get?_bagOf hmem
  rw [← savedBag_sameEntries stored form, h, DtCore.flattenProperties_eq] at hget
  obtain ⟨path', heq, hmem'⟩ := exists_of_get?_bagOf hget
  exact hstray _ hmem' (path_eq_of_plainKey_eq hmem' hmem heq)

/-- A saved form reads back as it was shown exactly if no list that stands directly in a list holds an
answer. -/
theorem readsBack_iff (stored form : Form P) : ReadsBack stored form ↔ form.value.listsApart = true :=
  ⟨fun h => apart_of_sameEntries h.sameEntries, readsBack_of_apart⟩

end

/-- `{"a": [[1]]}` -/
def nestedForm : Form ℕ where
  fields := [(units "a", .list [.list [.prim 1]])]
  ordinary := .dict _ (by decide) (by decide) fun e he => by
    rw [List.mem_singleton.1 he]
    refine .list _ (by decide) fun item hitem => ?_
    rw [List.mem_singleton.1 hitem]
    refine .list _ (by decide) fun item hitem => ?_
    rw [List.mem_singleton.1 hitem]
    exact .prim 1
  depth_le := by decide
  slots_le := by decide

/-- The form shows a list of lists, and its bag has the key `a[0].0`. -/
theorem not_readsBack_nestedForm : ¬ ReadsBack nestedForm nestedForm := by
  intro h
  have hsame := h.sameEntries (units "a[0][0]")
  revert hsame
  decide +kernel

end FlatKeys
