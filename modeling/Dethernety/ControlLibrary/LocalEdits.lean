import Mathlib.Tactic.Tauto
import Dethernety.ControlLibrary.ControlFile

/-!
# Undoing local edits

`setLocalEdited`, on files as they are in memory, where an attribute may hold `undefined`, which JSON drops. However
many calls edit a class, and wherever between them the file is written and read back, the pending edit tells every key
that was changed, once, with the value that it had before the first change (`undo_after`).
-/

open List Record

namespace ControlLibrary.LocalEdits

/-- An object in memory; `none` is a key that holds `undefined`. -/
abbrev Bag (J : Type*) := Record String (Option (JsonValue J))

/-- `PendingEditBlock` -/
structure PendingEdit (J : Type*) where
  editedBy : PendingEditAuthor
  editedAt : Timestamp
  previousAttributes : Bag J
  firstWriteKeys : Option (List String)

/-- What an edit of a class reads and writes. -/
structure ClassEntry (J : Type*) where
  attributes : Bag J
  localEditedAt : Option Timestamp
  pendingEdit : Option (PendingEdit J)

structure File (J : Type*) where
  id : String
  classes : List (ClassEntry J)

/-- The arguments of `setLocalEdited`, with the time of the call. -/
structure Edit (J : Type*) where
  classIdx : ℕ
  newAttributes : Bag J
  editedBy : PendingEditAuthor
  now : Timestamp

inductive EditError
  | outOfRange (classIdx : ℕ) (id : String)
  | illegalEditedBy (id : String)

variable {J : Type*}

/-- `bag[k]` -/
def read (bag : Bag J) (k : String) : Option (JsonValue J) :=
  (bag.get? k).join

/-- `{ ...a, ...b }` -/
def overlay (a b : Bag J) : Bag J :=
  b.entries.foldl (fun bag entry => bag.set entry.1 entry.2) a

/-- What is left of an object that is written as JSON and read back. -/
def jsonCopy (bag : Bag J) : Bag J :=
  bag.filterKeys fun k => (read bag k).isSome

def ClassEntry.jsonCopy (entry : ClassEntry J) : ClassEntry J :=
  { entry with
    attributes := LocalEdits.jsonCopy entry.attributes
    pendingEdit := entry.pendingEdit.map fun p =>
      { p with previousAttributes := LocalEdits.jsonCopy p.previousAttributes } }

def File.jsonCopy (file : File J) : File J :=
  { file with classes := file.classes.map ClassEntry.jsonCopy }

/-- `entry.pendingEdit?.previousAttributes ?? {}` -/
def previousAttributes (entry : ClassEntry J) : Bag J :=
  (entry.pendingEdit.map PendingEdit.previousAttributes).getD ∅

/-- `entry.pendingEdit?.firstWriteKeys ?? []` -/
def firstWriteKeys (entry : ClassEntry J) : List String :=
  (entry.pendingEdit.bind PendingEdit.firstWriteKeys).getD []

/-- The two-write rule for one key, over the values and the first writes that are pinned. -/
def pin (attributes : Bag J) (pinned : Bag J × List String) (k : String) : Bag J × List String :=
  if k ∈ pinned.1.keys ∨ k ∈ pinned.2 then pinned
  else if k ∈ attributes.keys then (pinned.1.set k (read attributes k), pinned.2)
  else (pinned.1, pinned.2 ++ [k])

/-- The attributes with what was pinned put back. -/
def undo (entry : ClassEntry J) : Bag J :=
  (firstWriteKeys entry).foldl Record.erase (overlay entry.attributes (previousAttributes entry))

section

variable [DecidableEq J]

/-- The keys whose values differ as JSON. -/
def changedKeys (attributes newAttributes : Bag J) : List String :=
  newAttributes.keys.filter fun k => read attributes k ≠ read newAttributes k

def ClassEntry.edit (entry : ClassEntry J) (edit : Edit J) : ClassEntry J :=
  let changed := changedKeys entry.attributes edit.newAttributes
  if changed = [] then entry
  else
    let pinned := changed.foldl (pin entry.attributes) (previousAttributes entry, firstWriteKeys entry)
    { attributes := overlay entry.attributes edit.newAttributes
      localEditedAt := some edit.now
      pendingEdit := some ⟨edit.editedBy, edit.now, pinned.1, if pinned.2 = [] then none else some pinned.2⟩ }

/-- `setLocalEdited` -/
def setLocalEdited (file : File J) (edit : Edit J) : Except EditError (File J) :=
  match file.classes[edit.classIdx]? with
  | none => .error (.outOfRange edit.classIdx file.id)
  | some entry =>
    if edit.editedBy = .external then .error (.illegalEditedBy file.id)
    else .ok { file.jsonCopy with classes := file.jsonCopy.classes.set edit.classIdx (entry.jsonCopy.edit edit) }

/-- A call, or the file is written and read back (`none`), with the keys that the calls have changed in a class. -/
def step (i : ℕ) (s : File J × List String) : Option (Edit J) → File J × List String
  | none => (s.1.jsonCopy, s.2)
  | some edit =>
    match setLocalEdited s.1 edit, s.1.classes[i]? with
    | .ok file, some entry =>
      (file, if edit.classIdx = i then s.2 ++ changedKeys entry.jsonCopy.attributes edit.newAttributes else s.2)
    | _, _ => s

end

/-! ## What is pinned -/

/-- The changed keys are pinned, with what they held before. -/
structure Pinned (original : Bag J) (changed : List String) (pinned : Bag J × List String) : Prop where
  mem_iff : ∀ k, k ∈ pinned.1.keys ∨ k ∈ pinned.2 ↔ k ∈ changed
  previous : ∀ k v, pinned.1.get? k = some v → read original k = v ∧ v ≠ none
  first : ∀ k ∈ pinned.2, read original k = none

variable {original attributes : Bag J} {changed : List String} {pinned : Bag J × List String} {entry : ClassEntry J}

lemma get?_overlay (a b : Bag J) (k : String) : (overlay a b).get? k = (b.get? k).or (a.get? k) :=
  get?_foldl_set b.nodup_keys a k

lemma get?_jsonCopy (bag : Bag J) (k : String) :
    (jsonCopy bag).get? k = if (read bag k).isSome then bag.get? k else none :=
  get?_filterKeys ..

lemma read_jsonCopy (bag : Bag J) (k : String) : read (jsonCopy bag) k = read bag k := by
  unfold read
  rw [get?_jsonCopy]
  split_ifs with h
  · rfl
  · exact (Option.not_isSome_iff_eq_none.1 h).symm

lemma mem_keys_jsonCopy (bag : Bag J) (k : String) :
    k ∈ (jsonCopy bag).keys ↔ read (jsonCopy bag) k ≠ none := by
  rw [read_jsonCopy, ← Option.isSome_iff_ne_none, mem_keys_iff, get?_jsonCopy]
  cases hv : bag.get? k with
  | none | some v => simp [read, hv]

lemma Pinned.pin {k : String} (h : Pinned original changed pinned)
    (hread : k ∉ changed → read attributes k = read original k)
    (hjson : k ∈ attributes.keys ↔ read attributes k ≠ none) :
    Pinned original (changed ++ [k]) (pin attributes pinned k) := by
  have hmem := h.mem_iff k
  unfold LocalEdits.pin
  split_ifs with hpinned hprior
  · refine ⟨fun k' => ?_, h.previous, h.first⟩
    rw [h.mem_iff, mem_append, mem_singleton]
    exact ⟨.inl, fun hk => hk.elim id fun heq => heq ▸ hmem.1 hpinned⟩
  · -- the key has a value, which is the original one
    refine ⟨fun k' => ?_, fun k' v hv => ?_, h.first⟩
    · have := h.mem_iff k'
      simp only [mem_keys_set, mem_append, mem_singleton]
      tauto
    · rw [get?_set] at hv
      split_ifs at hv with heq
      · cases hv
        subst heq
        exact ⟨(hread fun hk => hpinned (hmem.2 hk)).symm, hjson.1 hprior⟩
      · exact h.previous k' v hv
  · refine ⟨fun k' => ?_, h.previous, fun k' hk' => ?_⟩
    · have := h.mem_iff k'
      simp only [mem_append, mem_singleton]
      tauto
    · rcases mem_append.1 hk' with hk' | hk'
      · exact h.first k' hk'
      · cases mem_singleton.1 hk'
        rw [← hread fun hk => hpinned (hmem.2 hk)]
        exact not_not.1 fun hne => hprior (hjson.2 hne)

lemma Pinned.foldl_pin {l : List String} (h : Pinned original changed pinned)
    (hread : ∀ k ∉ changed, read attributes k = read original k)
    (hjson : ∀ k, k ∈ attributes.keys ↔ read attributes k ≠ none) :
    Pinned original (changed ++ l) (l.foldl (LocalEdits.pin attributes) pinned) := by
  induction l generalizing changed pinned with
  | nil => rwa [append_nil]
  | cons k l ih =>
    rw [← singleton_append, ← append_assoc]
    exact ih (h.pin (hread k) (hjson k)) fun k' hk' => hread k' fun hmem => hk' (mem_append_left _ hmem)

/-- A class after calls that have changed some keys: the others are as they were, and the changed ones are pinned. -/
structure Undoable (original : Bag J) (changed : List String) (entry : ClassEntry J) : Prop where
  kept : ∀ k ∉ changed, read entry.attributes k = read original k
  pinned : Pinned original changed (previousAttributes entry, firstWriteKeys entry)

/-- No pinned value is `undefined`, so JSON drops none. -/
lemma Undoable.jsonCopy (h : Undoable original changed entry) : Undoable original changed entry.jsonCopy := by
  have hcopy : previousAttributes entry.jsonCopy = LocalEdits.jsonCopy (previousAttributes entry) := by
    unfold previousAttributes ClassEntry.jsonCopy
    cases entry.pendingEdit with
    | none | some p => rfl
  have hprevious : ∀ k, (previousAttributes entry.jsonCopy).get? k = (previousAttributes entry).get? k := by
    intro k
    rw [hcopy, get?_jsonCopy]
    cases hv : (previousAttributes entry).get? k with
    | none => rw [ite_self]
    | some v => simp [read, hv, Option.isSome_iff_ne_none, (h.pinned.previous k v hv).2]
  have hfirst : firstWriteKeys entry.jsonCopy = firstWriteKeys entry := by
    unfold firstWriteKeys ClassEntry.jsonCopy
    cases entry.pendingEdit with
    | none | some p => rfl
  refine ⟨fun k hk => (read_jsonCopy ..).trans (h.kept k hk), fun k => ?_, fun k v hv => ?_, ?_⟩
  · rw [mem_keys_iff, hprevious, ← mem_keys_iff, hfirst]
    exact h.pinned.mem_iff k
  · exact h.pinned.previous k v ((hprevious k).symm.trans hv)
  · rw [hfirst]
    exact h.pinned.first

lemma Undoable.read_undo (h : Undoable original changed entry) (k : String) :
    read (undo entry) k = read original k := by
  have herase := get?_foldl_erase id (firstWriteKeys entry)
    (overlay entry.attributes (previousAttributes entry)) k
  rw [map_id, get?_overlay] at herase
  apply (congrArg Option.join herase).trans
  split_ifs with hfirst
  · exact (h.pinned.first k hfirst).symm
  · cases hv : (previousAttributes entry).get? k with
    | some v => exact (h.pinned.previous k v hv).1.symm
    | none =>
      refine h.kept k fun hk => ((h.pinned.mem_iff k).2 hk).elim (fun hmem => ?_) hfirst
      exact notMem_keys_iff.2 hv hmem

variable [DecidableEq J]

lemma Undoable.edit (h : Undoable original changed entry)
    (hjson : ∀ k, k ∈ entry.attributes.keys ↔ read entry.attributes k ≠ none) (edit : Edit J) :
    Undoable original (changed ++ changedKeys entry.attributes edit.newAttributes) (entry.edit edit) := by
  have hoptional : ∀ l : List String, (if l = [] then none else some l).getD [] = l := fun l => by
    split_ifs with hl
    · exact hl.symm
    · rfl
  unfold ClassEntry.edit
  by_cases hchanged : changedKeys entry.attributes edit.newAttributes = []
  · rwa [if_pos hchanged, hchanged, append_nil]
  · rw [if_neg hchanged]
    refine ⟨fun k hk => ?_, ?_⟩
    · obtain ⟨hk, hsame⟩ := not_or.1 (mt mem_append.2 hk)
      rw [← h.kept k hk]
      unfold read
      rw [get?_overlay]
      cases hv : edit.newAttributes.get? k with
      | none => rfl
      | some v =>
        -- the key is written, with the value that it has
        have hread : read entry.attributes k = read edit.newAttributes k := by
          by_contra hne
          exact hsame (mem_filter.2 ⟨mem_keys_of_get? hv, decide_eq_true hne⟩)
        refine Eq.trans ?_ hread.symm
        rw [read, hv, Option.some_or]
    · show Pinned _ _ (_, Option.getD (ite _ _ _) _)
      rw [hoptional]
      exact h.pinned.foldl_pin h.kept hjson

/-- A call, or the file is read back: the class that is looked at can be undone after it as before. -/
lemma undoable_step {i : ℕ} {s : File J × List String} (hentry : s.1.classes[i]? = some entry)
    (h : Undoable original s.2 entry) (edit : Option (Edit J)) :
    ∃ entry', (step i s edit).1.classes[i]? = some entry' ∧ Undoable original (step i s edit).2 entry' := by
  have hcopy : s.1.jsonCopy.classes[i]? = some entry.jsonCopy := by
    simp [File.jsonCopy, hentry]
  cases edit with
  | none => exact ⟨_, hcopy, h.jsonCopy⟩
  | some edit =>
    unfold step setLocalEdited
    simp only [hentry]
    cases hedited : s.1.classes[edit.classIdx]? with
    | none => exact ⟨entry, hentry, h⟩
    | some edited =>
      by_cases hexternal : edit.editedBy = .external
      · simpa [hexternal] using ⟨entry, hentry, h⟩
      · simp only [if_neg hexternal]
        by_cases hi : edit.classIdx = i
        · subst hi
          cases hedited.symm.trans hentry
          rw [if_pos rfl, List.getElem?_set_self (List.getElem?_eq_some_iff.1 hcopy).1]
          exact ⟨_, rfl, h.jsonCopy.edit (mem_keys_jsonCopy _) edit⟩
        · rw [if_neg hi, List.getElem?_set_ne hi]
          exact ⟨_, hcopy, h.jsonCopy⟩

/-- After any calls, with the file read back anywhere between them, the pinned values and the first writes of a class
that had no pending edit are disjoint, are the keys that were ever changed, and lead back to its attributes. -/
theorem undo_after {file : File J} {i : ℕ} (hentry : file.classes[i]? = some entry)
    (hpending : entry.pendingEdit = none) (edits : List (Option (Edit J))) :
    ∃ entry', (edits.foldl (step i) (file, [])).1.classes[i]? = some entry' ∧
      (∀ k ∈ firstWriteKeys entry', k ∉ (previousAttributes entry').keys) ∧
      (∀ k, k ∈ (previousAttributes entry').keys ∨ k ∈ firstWriteKeys entry' ↔
        k ∈ (edits.foldl (step i) (file, [])).2) ∧
      ∀ k, read (undo entry') k = read entry.attributes k := by
  have hinit : Undoable entry.attributes [] entry := by
    refine ⟨fun _ _ => rfl, ?_⟩
    simp only [previousAttributes, firstWriteKeys, hpending]
    exact ⟨fun k => by simp [keys_empty], fun k v hv => (by cases hv), fun k hk => (by cases hk)⟩
  let P (s : File J × List String) := ∃ entry', s.1.classes[i]? = some entry' ∧ Undoable entry.attributes s.2 entry'
  obtain ⟨entry', hentry', h⟩ : P (edits.foldl (step i) (file, [])) :=
    List.foldlRecOn edits _ ⟨entry, hentry, hinit⟩ fun s h edit _ => by
      obtain ⟨_, hs, h⟩ := h
      exact undoable_step hs h edit
  refine ⟨entry', hentry', fun k hk hmem => ?_, h.pinned.mem_iff, h.read_undo⟩
  obtain ⟨v, hv⟩ := Option.isSome_iff_exists.1 (mem_keys_iff.1 hmem)
  obtain ⟨hread, hne⟩ := h.pinned.previous k v hv
  exact hne (hread.symm.trans (h.pinned.first k hk))

/-- A key is edited twice, with the file written and read back between, and another key is written first. -/
theorem undo_after_edits : let bag (n : ℕ) : Bag ℕ := Record.set ∅ "a" (some (.value n))
    ∃ entry', ([some ⟨0, bag 2, .agent, 7⟩, none, some ⟨0, (bag 3).set "b" (some (.value 1)), .agent, 8⟩].foldl
        (step 0) (⟨"control", [⟨bag 1, none, none⟩]⟩, [])).1.classes[0]? = some entry' ∧
      ∀ k, read (undo entry') k = read (bag 1) k := by
  intro bag
  have hentry : (File.mk "control" [⟨bag 1, none, none⟩] : File ℕ).classes[0]? = some ⟨bag 1, none, none⟩ := rfl
  obtain ⟨entry', hentry', -, -, hundo⟩ := undo_after hentry rfl _
  exact ⟨entry', hentry', hundo⟩

end ControlLibrary.LocalEdits
