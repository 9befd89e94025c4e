import Dethernety.FlatKeys.PlainForm
import Dethernety.Foundations.PartialFold

/-!
# The shape of a saved request wins

Model of `mergeAttributes`, `withRequestShapes` and `flatKeysRefusedByMerge` of `property-values.ts`.
Before a request is merged into the stored answers, the stored keys whose places disagree with a place
that the request writes are cleared. The tree of written places finds exactly the keys that conflict
with a written one (`superseded_iff`), by the relation `blocks` that also decides what a rebuild leaves
out, so the two notions of a conflict are one.

A stored key that the stored answers alone kept can still be left out of the merged ones for a
conflict: clearing a long list makes room for an earlier stored key that was over the budget before.
-/

open List Record

namespace FlatKeys

open FlatKeys.Tree

variable {P G : Type}

/-- `mergeAttributes`: a value replaces, `null` removes. -/
def mergeAttributes (stored request : Record Key (Input P G)) : Record Key (Input P G) :=
  request.entries.foldl (fun merged e => merged.put e.1 (if e.2.present then some e.2 else none)) stored

/-- The places that a request writes. -/
inductive Written
  | place (names : List (Key × Written)) (indexes : List (ℕ × Written)) (leaf : Bool)

namespace Written

/-- A place without anything below. -/
def empty : Written :=
  place [] [] false

/-- The places on the way to a key and the key's own. -/
def insert : Written → List Segment → Written
  | place names indexes _, [] => place names indexes true
  | place names indexes leaf, .name n :: path =>
    place (Record.insertEntry n (insert ((Record.lookup n names).getD empty) path) names) indexes leaf
  | place names indexes leaf, .index i :: path =>
    place names (Record.insertEntry i (insert ((Record.lookup i indexes).getD empty) path) indexes) leaf

/-- The place of a part, if it is there. -/
def child : Written → Segment → Option Written
  | place names _ _, .name n => Record.lookup n names
  | place _ indexes _, .index i => Record.lookup i indexes

/-- The place is one of names where the part is an index, or the other way round. -/
def parts : Written → Segment → Bool
  | place names _ _, .index _ => !names.isEmpty
  | place _ indexes _, .name _ => !indexes.isEmpty

def isLeaf : Written → Bool
  | place _ _ leaf => leaf

/-- The walk of `superseded` over the parts of a key. -/
def supersedes : Written → List Segment → Bool
  | _, [] => true
  | at', segment :: path =>
    if at'.isLeaf then true
    else if at'.parts segment then true
    else
      match at'.child segment with
      | none => false
      | some next => next.supersedes path

end Written

def writtenPlaces (request : Record Key (Input P G)) : Written :=
  request.entries.foldl (fun root e =>
    if e.2.present then
      match parseFlatKey e.1 with
      | .error _ => root
      | .ok segments => root.insert segments
    else root) .empty

def superseded (written : Written) (key : Key) : Bool :=
  match parseFlatKey key with
  | .error _ => false
  | .ok segments => written.supersedes segments

def withRequestShapes (stored request : Record Key (Input P G)) : Record Key (Input P G) :=
  let written := writtenPlaces request
  stored.keys.foldl (fun out key =>
    if (out.get? key).isNone && superseded written key then out.set key .null else out) request

/-- The request writes a key. -/
def writes (request : Record Key (Input P G)) (key : Key) : Bool :=
  (request.get? key).any (·.present)

def requestWrites (request : Record Key (Input P G)) : Bool :=
  request.entries.any (·.2.present)

def flatKeysRefusedByMerge [DecidableEq G] (store : Store P G) (stored request : Record Key (Input P G)) :
    List DroppedFlatKey :=
  if !requestWrites request then []
  else
    let before := (unflattenFlatKeys defaultOptions store stored).droppedKeys
    (unflattenFlatKeys defaultOptions store (mergeAttributes stored request)).dropped.filter fun d =>
      writes request d.key || !before.contains d.key

section

variable {present : Bool} {k p : List Segment}

/-- One path is on the way to the other, or they part where one has a name and the other an index. -/
def Disagree (k p : List Segment) : Prop :=
  k <+: p ∨ p <+: k ∨ ∃ c a b k' p', k = c ++ a :: k' ∧ p = c ++ b :: p' ∧ a.isIndex ≠ b.isIndex

lemma disagree_of_blocks (h : blocks present k p = true) : Disagree k p := by
  induction k generalizing p with
  | nil => exact .inl (List.nil_prefix)
  | cons a k ih =>
    cases p with
    | nil => exact .inr (.inl List.nil_prefix)
    | cons b p =>
      rw [blocks, Bool.or_eq_true, Bool.and_eq_true_iff, beq_iff_eq, bne_iff_ne] at h
      obtain hkind | ⟨rfl, hkp⟩ := h
      · exact .inr (.inr ⟨[], a, b, k, p, rfl, rfl, hkind⟩)
      · obtain hprefix | hprefix | ⟨c, a', b', k', p', rfl, rfl, hkind⟩ := ih hkp
        · exact .inl (cons_prefix_cons.2 ⟨rfl, hprefix⟩)
        · exact .inr (.inl (cons_prefix_cons.2 ⟨rfl, hprefix⟩))
        · exact .inr (.inr ⟨a :: c, a', b', k', p', rfl, rfl, hkind⟩)

lemma blocks_symm (h : blocks present k p = true) : blocks true p k = true := by
  induction k generalizing p with
  | nil =>
    cases p with
    | nil | cons b p => rfl
  | cons a k ih =>
    cases p with
    | nil => rfl
    | cons b p =>
      rw [blocks, Bool.or_eq_true, Bool.and_eq_true_iff, beq_iff_eq, bne_iff_ne] at h ⊢
      exact h.imp Ne.symm (And.imp Eq.symm ih)

end

namespace Written

variable (w : Written) (a b : Segment) (k p : List Segment)

lemma isLeaf_insert_cons : (w.insert (a :: k)).isLeaf = w.isLeaf := by
  cases w
  cases a <;> rfl

lemma isEmpty_insertEntry {K V : Type} [DecidableEq K] (k : K) (v : V) (l : List (K × V)) :
    (Record.insertEntry k v l).isEmpty = false := by
  cases l with
  | nil => rfl
  | cons e l =>
    rw [Record.insertEntry]
    split_ifs <;> rfl

lemma parts_insert_cons : (w.insert (a :: k)).parts b = (w.parts b || a.isIndex != b.isIndex) := by
  obtain ⟨names, indexes, leaf⟩ := w
  cases a with
  | name n =>
    cases b with
    | name m => exact (Bool.or_false _).symm
    | index j =>
      rw [insert, parts, isEmpty_insertEntry]
      exact (Bool.or_true _).symm
  | index i =>
    cases b with
    | name m =>
      rw [insert, parts, isEmpty_insertEntry]
      exact (Bool.or_true _).symm
    | index j => exact (Bool.or_false _).symm

lemma child_insert_cons : (w.insert (a :: k)).child b =
    if a = b then some (((w.child a).getD empty).insert k) else w.child b := by
  obtain ⟨names, indexes, leaf⟩ := w
  cases a with
  | name n =>
    cases b with
    | name m => simp [insert, child, lookup_insertEntry]
    | index j => rfl
  | index i =>
    cases b with
    | name m => rfl
    | index j => simp [insert, child, lookup_insertEntry]

lemma supersedes_cons : w.supersedes (b :: p) = true ↔ w.isLeaf = true ∨ w.parts b = true ∨
    ∃ next, w.child b = some next ∧ next.supersedes p = true := by
  rw [supersedes]
  split_ifs with hleaf hparts
  · exact iff_of_true rfl (.inl hleaf)
  · exact iff_of_true rfl (.inr (.inl hparts))
  · rw [or_iff_right hleaf, or_iff_right hparts]
    cases w.child b with
    | none | some next => simp

lemma supersedes_empty {p : List Segment} (hp : p ≠ []) : empty.supersedes p = false := by
  obtain ⟨b, p, rfl⟩ := exists_cons_of_ne_nil hp
  cases b <;> rfl

variable {p}

lemma supersedes_insert (hp : p ≠ []) :
    (w.insert k).supersedes p = true ↔ w.supersedes p = true ∨ blocks true k p = true := by
  induction k generalizing w p with
  | nil =>
    obtain ⟨b, p, rfl⟩ := exists_cons_of_ne_nil hp
    obtain ⟨names, indexes, leaf⟩ := w
    exact iff_of_true rfl (.inr rfl)
  | cons a k ih =>
    obtain ⟨b, p, rfl⟩ := exists_cons_of_ne_nil hp
    rw [supersedes_cons, supersedes_cons, isLeaf_insert_cons, parts_insert_cons, child_insert_cons,
      blocks, Bool.or_eq_true, Bool.or_eq_true, Bool.and_eq_true_iff, beq_iff_eq]
    by_cases hsame : a = b
    · -- below the place that the two paths share
      obtain rfl := hsame
      have hchild : (∃ next, some (((w.child a).getD empty).insert k) = some next ∧
            next.supersedes p = true) ↔
          (∃ next, w.child a = some next ∧ next.supersedes p = true) ∨ blocks true k p = true := by
        simp only [Option.some.injEq, exists_eq_left']
        cases p with
        | nil =>
          have hblocks : blocks true k [] = true := by
            cases k with
            | nil | cons a' k => rfl
          exact iff_of_true rfl (.inr hblocks)
        | cons b' p =>
          rw [ih _ (cons_ne_nil b' p)]
          cases hw : w.child a with
          | none =>
            simp [supersedes_empty (cons_ne_nil b' p)]
          | some next => simp
      rw [if_pos rfl, hchild]
      simp only [bne_self_eq_false, true_and, Bool.false_eq_true, or_false, false_or, or_assoc]
    · rw [if_neg hsame]
      simp only [hsame, false_and, or_false]
      rw [or_right_comm, ← or_assoc]

end Written

section

variable {stored request : Record Key (Input P G)} {key : Key}

lemma get?_mergeAttributes (stored request : Record Key (Input P G)) (key : Key) :
    (mergeAttributes stored request).get? key =
      ((request.get? key).map fun v => if v.present then some v else none).getD (stored.get? key) := by
  have h := get?_foldl_put (f := fun v : Input P G => if v.present then some v else none)
    request.nodup stored key
  exact h

lemma writes_iff : writes request key = true ↔ ∃ value, request.get? key = some value ∧ value.present = true := by
  rw [writes, Option.any_eq_true]

/-- A stored key is superseded exactly if it conflicts with a key that the request writes. -/
theorem superseded_iff {path : List Segment} (hparse : parseFlatKey key = .ok path) :
    superseded (writtenPlaces request) key = true ↔ ∃ key', writes request key' = true ∧
      ∃ path', parseFlatKey key' = .ok path' ∧ blocks true path' path = true := by
  obtain ⟨hne, -, -⟩ := parseFlatKey_ok hparse
  have hfold : (writtenPlaces request).supersedes path = true ↔ ∃ e ∈ request.entries,
      e.2.present = true ∧ ∃ path', parseFlatKey e.1 = .ok path' ∧ blocks true path' path = true := by
    refine foldl_induction (P := fun (done : List (Key × Input P G)) (w : Written) =>
      w.supersedes path = true ↔
      ∃ e ∈ done, e.2.present = true ∧ ∃ path', parseFlatKey e.1 = .ok path' ∧
        blocks true path' path = true) ?_ ?_
    · rw [Written.supersedes_empty hne]
      simp
    · intro done e rest w _ ih
      have hlast : (∃ e' ∈ done ++ [e], e'.2.present = true ∧ ∃ path', parseFlatKey e'.1 = .ok path' ∧
            blocks true path' path = true) ↔
          w.supersedes path = true ∨ (e.2.present = true ∧ ∃ path', parseFlatKey e.1 = .ok path' ∧
            blocks true path' path = true) := by
        rw [ih]
        simp only [mem_append, mem_singleton, or_and_right, exists_or, exists_eq_left]
      rw [hlast]
      split_ifs with hpresent
      · cases hpath : parseFlatKey e.1 with
        | error problem => simp
        | ok segments =>
          rw [Written.supersedes_insert w segments hne]
          simp [hpresent]
      · simp [hpresent]
  rw [superseded, hparse]
  refine hfold.trans ⟨?_, ?_⟩
  · rintro ⟨e, he, hpresent, hrest⟩
    exact ⟨e.1, writes_iff.2 ⟨e.2, mem_entries_iff.1 he, hpresent⟩, hrest⟩
  · rintro ⟨key', hwrites, hrest⟩
    obtain ⟨value, hget, hpresent⟩ := writes_iff.1 hwrites
    exact ⟨(key', value), mem_entries_iff.2 hget, hpresent, hrest⟩

lemma get?_withRequestShapes (stored request : Record Key (Input P G)) (key : Key) :
    (withRequestShapes stored request).get? key =
      if key ∈ stored.keys ∧ request.get? key = none ∧
          superseded (writtenPlaces request) key = true then some .null
      else request.get? key := by
  refine foldl_induction (P := fun (done : List Key) (out : Record Key (Input P G)) =>
    out.get? key = if key ∈ done ∧ request.get? key = none ∧
      superseded (writtenPlaces request) key = true then some .null else request.get? key) ?_ ?_
  · simp
  · intro done k rest out hl ih
    have hnodup := hl ▸ stored.nodup
    have hk : k ∉ done := fun hmem =>
      (nodup_append.1 hnodup).2.2 k hmem k (.head _) rfl
    by_cases hkey : k = key
    · -- the key is met for the first time
      obtain rfl := hkey
      have hout : out.get? k = request.get? k := by
        rw [ih, if_neg fun h => hk h.1]
      rw [hout]
      by_cases hcond : request.get? k = none ∧ superseded (writtenPlaces request) k = true
      · rw [if_pos (by rw [hcond.1, hcond.2]; rfl), get?_set, if_pos rfl, if_pos ⟨by simp, hcond⟩]
      · rw [if_neg (by simpa using hcond), if_neg fun h => hcond h.2, hout]
    · have hmem : key ∈ done ++ [k] ↔ key ∈ done := by
        simp [Ne.symm hkey]
      simp only [hmem]
      rw [← ih]
      split_ifs with hset
      · rw [get?_set, if_neg hkey]
      · rfl

/-- What a merged bag holds at a key: what the request writes, or a stored value that the request
neither sends nor supersedes. -/
lemma get?_merged (stored request : Record Key (Input P G)) (key : Key) (value : Input P G) :
    (mergeAttributes stored (withRequestShapes stored request)).get? key = some value ↔
      (request.get? key = some value ∧ value.present = true) ∨ (stored.get? key = some value ∧ request.get? key = none ∧
          superseded (writtenPlaces request) key = false) := by
  rw [get?_mergeAttributes, get?_withRequestShapes]
  cases hrequest : request.get? key with
  | some sent =>
    rw [if_neg (fun h => Option.some_ne_none sent h.2.1)]
    cases hpresent : sent.present with
    | true =>
      simp only [Option.map_some, hpresent, if_true, Option.getD_some]
      constructor
      · intro h
        cases h
        exact .inl ⟨rfl, hpresent⟩
      · rintro (⟨h, -⟩ | ⟨-, h, -⟩)
        · exact h
        · cases h
    | false =>
      simp only [Option.map_some, hpresent, Bool.false_eq_true, if_false, Option.getD_some]
      refine iff_of_false (fun h => by cases h) ?_
      rintro (⟨h, hvalue⟩ | ⟨-, h, -⟩)
      · cases h
        cases hpresent.symm.trans hvalue
      · cases h
  | none =>
    cases hsuperseded : superseded (writtenPlaces request) key with
    | true =>
      refine iff_of_false ?_ ?_
      · by_cases hmem : key ∈ stored.keys
        · rw [if_pos ⟨hmem, rfl, rfl⟩]
          exact fun h => by cases h
        · rw [if_neg fun h => hmem h.1, notMem_keys_iff.1 hmem]
          exact fun h => by cases h
      · rintro (⟨h, -⟩ | ⟨-, -, h⟩)
        all_goals cases h
    | false =>
      rw [if_neg fun h => Bool.false_ne_true h.2.2]
      simp

end

section

variable [DecidableEq G] (store : Store P G) (stored request : Record Key (Input P G))

/-- A stored key that the stored answers alone keep is left out for a conflict after all, because an
earlier stored key that conflicts with it, and that the stored answers alone leave out for the budget,
is kept in the merged ones. -/
def RevivedConflict (key : Key) : Prop :=
  ∃ key' ∈ stored.keys, key' < key ∧
    (⟨key', .budget⟩ : DroppedFlatKey) ∈ (unflattenFlatKeys defaultOptions store stored).dropped ∧
    key' ∈ (mergeAttributes stored (withRequestShapes stored request)).keys ∧
    key' ∉ (unflattenFlatKeys defaultOptions store
      (mergeAttributes stored (withRequestShapes stored request))).droppedKeys ∧
    ∃ path' path, parseFlatKey key' = .ok path' ∧ parseFlatKey key = .ok path ∧ Disagree path' path

/-- What a save does with the shapes of a request. -/
structure ShapesWin (merged : Record Key (Input P G)) (s : Rebuild P G) : Prop where
  /-- No key that the request writes is left out for a conflict. -/
  written_kept : ∀ key, writes request key = true → (⟨key, .conflict⟩ : DroppedFlatKey) ∉ s.dropped
  /-- Nor is a stored key that was kept before, unless a key over the budget is revived. -/
  stored_kept : ∀ key ∈ stored.keys,
    key ∉ (unflattenFlatKeys defaultOptions store stored).droppedKeys →
    (⟨key, .conflict⟩ : DroppedFlatKey) ∈ s.dropped → RevivedConflict store stored request key
  /-- What the request writes is read back at its path, within the budget. -/
  read_back : ∀ key value, request.get? key = some value → value.present = true →
    (⟨key, .budget⟩ : DroppedFlatKey) ∉ s.dropped →
    ∃ path, parseFlatKey key = .ok path ∧ look s.value path = input value
  /-- A stored key that the request does not send is cleared only if its place disagrees with one that
  the request writes. -/
  cleared : ∀ key ∈ stored.keys, key ∉ request.keys → key ∉ merged.keys →
    ∃ key', writes request key' = true ∧ ∃ path' path, parseFlatKey key' = .ok path' ∧
      parseFlatKey key = .ok path ∧ Disagree path' path
  /-- The refusals are for the budget, or are of stored keys with a revived conflict. -/
  refused : ∀ d ∈ flatKeysRefusedByMerge store stored (withRequestShapes stored request),
    d.problem = .budget ∨ (d.key ∈ stored.keys ∧ RevivedConflict store stored request d.key)
  /-- The same request again clears nothing more. -/
  again : ∀ key ∈ merged.keys,
    key ∈ (mergeAttributes merged (withRequestShapes merged request)).keys

variable {store stored request} {key key' : Key} {path path' : List Segment}

omit [DecidableEq G] in
lemma leafOf_of_get? {flat : Record Key (Input P G)} {value : Input P G}
    (h : flat.get? key = some value) : leafOf defaultOptions flat key = value := by
  rw [leafOf, h]
  rfl

omit [DecidableEq G] in
lemma get?_written {value : Input P G} (hget : request.get? key = some value)
    (hpresent : value.present = true) : (request.filterKeys (writes request)).get? key = some value := by
  have hwrites : writes request key = true := writes_iff.2 ⟨value, hget, hpresent⟩
  rw [get?_filterKeys, if_pos hwrites, hget]

/-- A key that is not left out for a conflict has no index first, and no kept key before it blocks it. -/
lemma unblocked {flat : Record Key (Input P G)} (hmem : key ∈ flat.keys)
    (h : (⟨key, .conflict⟩ : DroppedFlatKey) ∉ (unflattenFlatKeys defaultOptions store flat).dropped)
    (hparse : parseFlatKey key = .ok path) : path.head?.any Segment.isIndex = false ∧
      ∀ key' ∈ flat.keys, key' < key → key' ∉ (unflattenFlatKeys defaultOptions store flat).droppedKeys →
        ∀ path', parseFlatKey key' = .ok path' → blocks
          (leafOf defaultOptions flat key').present path' path = false := by
  rw [mem_dropped_conflict_iff hmem] at h
  refine ⟨?_, fun key' hmem' hlt hkept' path' hparse' => ?_⟩
  · by_contra hindex
    exact h ⟨path, hparse, .inl (by simpa using hindex)⟩
  · by_contra hblocks
    exact h ⟨path, hparse, .inr ⟨key', hmem', hlt, hkept', path', hparse', by simpa using hblocks⟩⟩

omit [DecidableEq G] in
lemma blocks_eq_false_of_not_superseded (hkept : superseded (writtenPlaces request) key = false)
    (hparse : parseFlatKey key = .ok path) (hwrites : writes request key' = true)
    (hparse' : parseFlatKey key' = .ok path') : blocks true path' path = false := by
  by_contra hblocks
  have hsuperseded := (superseded_iff hparse).2 ⟨key', hwrites, path', hparse', by simpa using hblocks⟩
  cases hkept.symm.trans hsuperseded

section

variable (hrequest : (unflattenFlatKeys defaultOptions store (request.filterKeys (writes request))).dropped = [])
include hrequest

/-- What is known of the written keys of a request that rebuilds alone. -/
lemma written_alone (hwrites : writes request key = true) :
    ∃ path, parseFlatKey key = .ok path ∧ path.head?.any Segment.isIndex = false ∧
      ∀ key' path', writes request key' = true → parseFlatKey key' = .ok path' → key' < key →
        blocks true path' path = false := by
  obtain ⟨value, hget, hpresent⟩ := writes_iff.1 hwrites
  have hflat := get?_written hget hpresent
  have hnone : ∀ key, key ∉ (unflattenFlatKeys defaultOptions store
      (request.filterKeys (writes request))).droppedKeys := by
    intro key hmem
    rw [Rebuild.droppedKeys, hrequest] at hmem
    exact not_mem_nil hmem
  obtain ⟨path, hparse, -⟩ := found_of_kept (fun _ => rfl) hflat (hnone key)
    (by simpa [Input.present] using hpresent)
  obtain ⟨hindex, hblocks⟩ := unblocked (mem_keys_of_get? hflat) (by rw [hrequest]; exact not_mem_nil) hparse
  refine ⟨path, hparse, hindex, fun key' path' hwrites' hparse' hlt => ?_⟩
  obtain ⟨value', hget', hpresent'⟩ := writes_iff.1 hwrites'
  have hflat' := get?_written hget' hpresent'
  rw [← hblocks key' (mem_keys_of_get? hflat') hlt (hnone key') path' hparse', leafOf_of_get? hflat', hpresent']

lemma written_kept (hwrites : writes request key = true) : (⟨key, .conflict⟩ : DroppedFlatKey) ∉
      (unflattenFlatKeys defaultOptions store (mergeAttributes stored (withRequestShapes stored request))).dropped := by
  intro hdropped
  obtain ⟨path, hparse, hindex, halone⟩ := written_alone hrequest hwrites
  obtain ⟨value, hget, hpresent⟩ := writes_iff.1 hwrites
  have hmerged := (get?_merged stored request key value).2 (.inl ⟨hget, hpresent⟩)
  obtain ⟨path₁, hparse₁, hhead | ⟨key', hmem, hlt, -, path', hparse', hblocks⟩⟩ :=
    (mem_dropped_conflict_iff (mem_keys_of_get? hmerged)).1 hdropped
  · cases hparse.symm.trans hparse₁
    cases hindex.symm.trans hhead
  · cases hparse.symm.trans hparse₁
    obtain ⟨value', hget'⟩ := Option.isSome_iff_exists.1 (mem_keys_iff.1 hmem)
    rw [leafOf_of_get? hget'] at hblocks
    obtain ⟨hsent, hpresent'⟩ | ⟨-, -, hkept⟩ := (get?_merged stored request key' value').1 hget'
    · rw [hpresent', halone key' path' (writes_iff.2 ⟨value', hsent, hpresent'⟩) hparse' hlt] at hblocks
      cases hblocks
    · have hsymm := blocks_symm hblocks
      rw [blocks_eq_false_of_not_superseded hkept hparse' hwrites hparse] at hsymm
      cases hsymm

/-- A stored key that was kept before is only left out because of an earlier one that was not. -/
lemma stored_kept (hplain : ∀ key ∈ stored.keys, PlainForm key)
    (hstored : key ∈ stored.keys) (hbefore : key ∉ (unflattenFlatKeys defaultOptions store stored).droppedKeys)
    (hdropped : (⟨key, .conflict⟩ : DroppedFlatKey) ∈ (unflattenFlatKeys defaultOptions store
      (mergeAttributes stored (withRequestShapes stored request))).dropped) :
    RevivedConflict store stored request key := by
  have hunwritten : writes request key = false := by
    by_contra hwrites
    exact written_kept hrequest (by simpa using hwrites) hdropped
  have hmem : key ∈ (mergeAttributes stored (withRequestShapes stored request)).keys := by
    rw [← mem_sortedKeys]
    exact (mem_droppedKeys_foldl.2 (mem_map_of_mem hdropped)).resolve_left not_mem_nil
  obtain ⟨value, hget⟩ := Option.isSome_iff_exists.1 (mem_keys_iff.1 hmem)
  obtain ⟨hsent, hpresent⟩ | ⟨-, -, hkept⟩ := (get?_merged stored request key value).1 hget
  · rw [writes_iff.2 ⟨value, hsent, hpresent⟩] at hunwritten
    cases hunwritten
  -- no kept key blocks this one among the stored answers alone
  have hfree := fun {path} (hparse : parseFlatKey key = .ok path) =>
    unblocked hstored (fun h => hbefore (mem_map_of_mem h)) hparse
  obtain ⟨path, hparse, hhead | ⟨key', hmem', hlt, hkept', path', hparse', hblocks⟩⟩ :=
    (mem_dropped_conflict_iff hmem).1 hdropped
  · rw [(hfree hparse).1] at hhead
    cases hhead
  obtain ⟨hindex, hunblocked⟩ := hfree hparse
  obtain ⟨value', hget'⟩ := Option.isSome_iff_exists.1 (mem_keys_iff.1 hmem')
  rw [leafOf_of_get? hget'] at hblocks
  obtain ⟨hsent, hpresent⟩ | ⟨hget₀, -, -⟩ := (get?_merged stored request key' value').1 hget'
  · rw [hpresent, blocks_eq_false_of_not_superseded hkept hparse
      (writes_iff.2 ⟨value', hsent, hpresent⟩) hparse'] at hblocks
    cases hblocks
  -- the key that blocks it is a stored one, and so was left out before
  have hstored' : key' ∈ stored.keys := mem_keys_of_get? hget₀
  have hdropped' : key' ∈ (unflattenFlatKeys defaultOptions store stored).droppedKeys := by
    by_contra hkept₀
    have hfalse := hunblocked key' hstored' hlt hkept₀ path' hparse'
    rw [leafOf_of_get? hget₀, hblocks] at hfalse
    cases hfalse
  obtain hconflict | hbudget := dropped_cases hdropped' hparse'
  · -- a third key that blocks the second would have blocked the first
    obtain ⟨path₁, hparse₁, hhead | ⟨key₂, hmem₂, hlt₂, hkept₂, path₂, hparse₂, hblocks₂⟩⟩ :=
      (mem_dropped_conflict_iff hstored').1 hconflict
    · exact absurd ((mem_dropped_conflict_iff hmem').2 ⟨path₁, hparse₁, .inl hhead⟩)
        fun h => hkept' (mem_map_of_mem h)
    cases hparse'.symm.trans hparse₁
    have hindex' := (unblocked hmem' (fun h => hkept' (mem_map_of_mem h)) hparse').1
    have hindex₂ := (unblocked hmem₂ (fun h => hkept₂ (mem_map_of_mem h)) hparse₂).1
    have hlater := blocksLater_of_lt (hplain key' hstored') (hplain key hstored) hparse' hparse
      hindex' hindex hlt hblocks
    have hlater₂ := blocksLater_of_lt (hplain key₂ hmem₂) (hplain key' hstored') hparse₂ hparse'
      hindex₂ hindex' hlt₂ hblocks₂
    have hfalse := hunblocked key₂ hmem₂ (lt_trans hlt₂ hlt) hkept₂ path₂ hparse₂
    rw [blocks_of_blocksLater (blocksLater_trans hlater₂ hlater)] at hfalse
    cases hfalse
  · exact ⟨key', hstored', hlt, hbudget, hmem', hkept', path', path, hparse', hparse,
      disagree_of_blocks hblocks⟩

end

omit [DecidableEq G] in
/-- The keys that are sent as `null` to clear them are not written. -/
lemma writes_withRequestShapes : writes (withRequestShapes stored request) key = writes request key := by
  rw [writes, writes, get?_withRequestShapes]
  split_ifs with h
  · rw [h.2.1]
    rfl
  · rfl

/-- Saving a request into stored answers with plain keys, where the keys that it writes rebuild alone
with nothing left out: the shape of the request wins at every depth. -/
theorem shapesWin (hplain : ∀ key ∈ stored.keys, PlainForm key)
    (hrequest : (unflattenFlatKeys defaultOptions store (request.filterKeys (writes request))).dropped = []) :
    ShapesWin store stored request (mergeAttributes stored (withRequestShapes stored request))
      (unflattenFlatKeys defaultOptions store
        (mergeAttributes stored (withRequestShapes stored request))) := by
  constructor
  case written_kept => exact fun key hwrites => written_kept hrequest hwrites
  case stored_kept =>
    exact fun key hstored hbefore hdropped => stored_kept hrequest hplain hstored hbefore hdropped
  case read_back =>
    intro key value hget hpresent hbudget
    have hwrites := writes_iff.2 ⟨value, hget, hpresent⟩
    obtain ⟨path, hparse, -⟩ := written_alone hrequest hwrites
    have hkept : key ∉ (unflattenFlatKeys defaultOptions store
        (mergeAttributes stored (withRequestShapes stored request))).droppedKeys := fun hdropped =>
      (dropped_cases hdropped hparse).elim (written_kept hrequest hwrites) hbudget
    exact found_of_kept (fun _ => rfl)
      ((get?_merged stored request key value).2 (.inl ⟨hget, hpresent⟩)) hkept
      (by simpa [Input.present] using hpresent)
  case cleared =>
    intro key hstored hunsent hcleared
    have hsuperseded : superseded (writtenPlaces request) key = true := by
      by_contra hkept
      obtain ⟨value, hget⟩ := Option.isSome_iff_exists.1 (mem_keys_iff.1 hstored)
      exact hcleared (mem_keys_of_get? ((get?_merged stored request key value).2
        (.inr ⟨hget, notMem_keys_iff.1 hunsent, by simpa using hkept⟩)))
    cases hparse : parseFlatKey key with
    | error problem =>
      rw [superseded, hparse] at hsuperseded
      cases hsuperseded
    | ok path =>
      obtain ⟨key', hwrites, path', hparse', hblocks⟩ := (superseded_iff hparse).1 hsuperseded
      exact ⟨key', hwrites, path', path, hparse', rfl, disagree_of_blocks hblocks⟩
  case refused =>
    intro d hd
    rw [flatKeysRefusedByMerge] at hd
    split_ifs at hd with hnothing
    · exact absurd hd not_mem_nil
    obtain ⟨hdropped, hcounts⟩ := mem_filter.1 hd
    obtain ⟨key, problem⟩ := d
    rw [writes_withRequestShapes, Bool.or_eq_true] at hcounts
    have hmem : key ∈ (mergeAttributes stored (withRequestShapes stored request)).keys := by
      rw [← mem_sortedKeys]
      exact (mem_droppedKeys_foldl.2 (mem_map_of_mem hdropped)).resolve_left not_mem_nil
    obtain ⟨value, hget⟩ := Option.isSome_iff_exists.1 (mem_keys_iff.1 hmem)
    obtain hwrites | hbefore := hcounts
    · obtain ⟨path, hparse, -⟩ := written_alone hrequest hwrites
      obtain rfl | rfl := problem_of_mem_dropped hdropped hparse
      · exact absurd hdropped (written_kept hrequest hwrites)
      · exact .inl rfl
    · have hkept : key ∉ (unflattenFlatKeys defaultOptions store stored).droppedKeys := by
        simpa using hbefore
      obtain ⟨hsent, hpresent⟩ | ⟨hstored, -, -⟩ := (get?_merged stored request key value).1 hget
      · have hwrites := writes_iff.2 ⟨value, hsent, hpresent⟩
        obtain ⟨path, hparse, -⟩ := written_alone hrequest hwrites
        obtain rfl | rfl := problem_of_mem_dropped hdropped hparse
        · exact absurd hdropped (written_kept hrequest hwrites)
        · exact .inl rfl
      · -- a stored key that was kept before can be read
        have hmem₀ : key ∈ stored.keys := mem_keys_of_get? hstored
        have hleaves : Leaves defaultOptions stored (sortedKeys stored)
            (unflattenFlatKeys defaultOptions store stored) := leaves_foldl store (nodup_sortedKeys stored)
        obtain ⟨path, hparse⟩ := hleaves.parsed key (mem_sortedKeys.2 hmem₀) hkept
        obtain rfl | rfl := problem_of_mem_dropped hdropped hparse
        · exact .inr ⟨hmem₀, stored_kept hrequest hplain hmem₀ hkept hdropped⟩
        · exact .inl rfl
  case again =>
    intro key hmem
    obtain ⟨value, hget⟩ := Option.isSome_iff_exists.1 (mem_keys_iff.1 hmem)
    refine mem_keys_of_get? ((get?_merged _ request key value).2 ?_)
    exact ((get?_merged stored request key value).1 hget).imp id fun h => ⟨hget, h.2⟩

end

/-- Stored answers with 99999 list entries: nine lists of 10000 entries and one of 9999, an entry
`y.b[1]` that is over the budget, and `y[0]`, which is not. -/
def crowdedBag : Record Key (Input ℕ Unit) :=
  .ofList (((["a", "b", "c", "d", "e", "f", "g", "h", "i"].map fun n => units (n ++ "[9999]")) ++
    [units "j[9998]", units "y.b[1]", units "y[0]"]).map fun key => (key, .prim 1))

/-- A request that replaces the first list by a value. -/
def replacingRequest : Record Key (Input ℕ Unit) :=
  .ofList [(units "a", .prim 5)]

lemma plainForm_crowdedBag : ∀ key ∈ crowdedBag.keys, PlainForm key := by
  decide +kernel

lemma dropped_replacingRequest : (unflattenFlatKeys defaultOptions (fun _ => undef)
    (replacingRequest.filterKeys (writes replacingRequest))).dropped = [] := by
  decide +kernel

/-- The request clears `a[9999]`, which makes room for `y.b[1]`; then `y[0]`, which the stored answers
alone kept, is left out for a conflict, and the save is refused for it. -/
theorem crowdedBag_loses :
    (∀ key ∈ crowdedBag.keys, PlainForm key) ∧ (∀ key ∈ replacingRequest.keys, PlainForm key) ∧
    (unflattenFlatKeys defaultOptions (fun _ => undef) replacingRequest).dropped = [] ∧
    units "y[0]" ∈ crowdedBag.keys ∧
    units "y[0]" ∉ (unflattenFlatKeys defaultOptions (fun _ => undef) crowdedBag).droppedKeys ∧
    (⟨units "y[0]", .conflict⟩ : DroppedFlatKey) ∈ (unflattenFlatKeys defaultOptions (fun _ => undef)
      (mergeAttributes crowdedBag (withRequestShapes crowdedBag replacingRequest))).dropped ∧
    (⟨units "y[0]", .conflict⟩ : DroppedFlatKey) ∈ flatKeysRefusedByMerge (fun _ => undef) crowdedBag
      (withRequestShapes crowdedBag replacingRequest) := by
  decide +kernel

theorem crowdedBag_shapesWin : ShapesWin (fun _ => undef) crowdedBag replacingRequest
    (mergeAttributes crowdedBag (withRequestShapes crowdedBag replacingRequest))
    (unflattenFlatKeys defaultOptions (fun _ => undef)
      (mergeAttributes crowdedBag (withRequestShapes crowdedBag replacingRequest))) :=
  shapesWin plainForm_crowdedBag dropped_replacingRequest

end FlatKeys
