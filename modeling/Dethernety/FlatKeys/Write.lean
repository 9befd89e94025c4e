import Dethernety.FlatKeys.Rebuild

/-!
# What a write does

`look t p` is what a tree holds at a path. A write that `growthOf` allows puts the value at its path,
keeps every leaf that is there, adds no other, and creates the list entries that `growthOf` counted.
Everything is by induction on the path: a step assigns the written child to one place of a container
and leaves the other places alone, up to padding.
-/

open List Option Nat

namespace FlatKeys

namespace Tree

variable {P G : Type}

/-- What a tree holds at a path. -/
def look : Tree P G → List Segment → Tree P G
  | t, [] => t
  | t, segment :: path => look (own t segment) path

section

variable {t child : Tree P G} {segment other : Segment} {padLists : Bool}

lemma own_input (value : Input P G) (segment : Segment) : own (input value) segment = undef := by
  cases value <;> rfl

lemma look_undef : ∀ path : List Segment, look (undef : Tree P G) path = undef
  | [] => rfl
  | segment :: path => by
    rw [look, undef, own_input]
    exact look_undef path

lemma look_input_cons (value : Input P G) (segment : Segment) (path : List Segment) :
    look (input value) (segment :: path) = undef := by
  rw [look, own_input, look_undef]

lemma absent_undef : (undef : Tree P G).absent = true :=
  rfl

lemma eq_input_of_absent (h : t.absent = true) : t = undef ∨ t = null := by
  match t, h with
  | input .undefined, _ => exact .inl rfl
  | input .null, _ => exact .inr rfl

lemma fits_fresh (segment : Segment) : fits (fresh segment : Tree P G) segment = true := by
  cases segment <;> rfl

lemma own_fresh (segment other : Segment) : own (fresh segment : Tree P G) other = undef := by
  cases segment <;> cases other <;> rfl

lemma not_absent_of_fits (h : t.fits segment = true) : t.absent = false := by
  match t, segment, h with
  | list _, .index _, _ | dict _, .name _, _ => rfl

/-- What stands in the entries up to a new index. -/
def filler (padLists : Bool) : Tree P G :=
  if padLists then null else undef

lemma absent_filler (padLists : Bool) : (filler padLists : Tree P G).absent = true := by
  cases padLists <;> rfl

lemma setSlot_pad (padLists : Bool) (slots : List (Tree P G)) (i : ℕ) (child : Tree P G) :
    setSlot (if padLists then padTo slots i else slots) i child =
      if i < slots.length then slots.set i child
      else slots ++ List.replicate (i - slots.length) (filler padLists) ++ [child] := by
  cases padLists with
  | false => rfl
  | true =>
    have hlength : (padTo slots i).length = max slots.length (i + 1) := by
      rw [padTo, length_append, length_replicate]
      omega
    simp only [if_true, setSlot]
    rw [if_pos (by rw [hlength]; omega)]
    by_cases hi : i < slots.length
    · have hnone : i + 1 - slots.length = 0 := by omega
      rw [if_pos hi, padTo, hnone, replicate_zero, append_nil]
    · -- the last entry that was pushed is the one that is assigned
      have hsucc : i + 1 - slots.length = (i - slots.length) + 1 := by omega
      rw [if_neg hi, padTo, hsucc, replicate_succ', ← append_assoc,
        set_append_right _ _ (by rw [length_append, length_replicate]; omega)]
      congr 1
      rw [length_append, length_replicate]
      have hzero : i - (slots.length + (i - slots.length)) = 0 := by omega
      rw [hzero, set_cons_zero]

/-- `current[k] = child` after padding. -/
def assign (padLists : Bool) (t : Tree P G) (segment : Segment) (child : Tree P G) : Tree P G :=
  put (pad padLists t segment) segment child

lemma assign_list (slots : List (Tree P G)) (i : ℕ) :
    assign padLists (list slots) (.index i) child = list (if i < slots.length then slots.set i child
      else slots ++ List.replicate (i - slots.length) (filler padLists) ++ [child]) :=
  congrArg list (setSlot_pad padLists slots i child)

lemma assign_dict (entries : List (Key × Tree P G)) (n : Key) :
    assign padLists (dict entries) (.name n) child = dict (Record.insertEntry n child entries) :=
  rfl

lemma fits_assign (h : t.fits segment = true) (other : Segment) :
    fits (assign padLists t segment child) other = t.fits other := by
  match t, segment, h with
  | list slots, .index i, _ | dict entries, .name n, _ => cases other <;> rfl

lemma own_assign_same (h : t.fits segment = true) : own (assign padLists t segment child) segment = child := by
  match t, segment, h with
  | list slots, .index i, _ =>
    rw [assign_list]
    show (_ : Option (Tree P G)).getD undef = child
    split_ifs with hi
    · rw [getElem?_set_self hi]
      rfl
    · rw [getElem?_append_right (by rw [length_append, length_replicate]; omega)]
      rw [length_append, length_replicate]
      have hzero : i - (slots.length + (i - slots.length)) = 0 := by omega
      rw [hzero]
      rfl
  | dict entries, .name n, _ =>
    rw [assign_dict]
    show (Record.lookup n (Record.insertEntry n child entries)).getD undef = child
    rw [Record.lookup_insertEntry, if_pos rfl]
    rfl

/-- The same, or both absent. -/
def Similar (a b : Tree P G) : Prop :=
  a = b ∨ (a.absent = true ∧ b.absent = true)

lemma own_assign_ne (h : t.fits segment = true) (hne : other ≠ segment) :
    Similar (own (assign padLists t segment child) other) (own t other) := by
  match t, segment, h with
  | list slots, .index i, _ =>
    rw [assign_list]
    cases other with
    | name n => exact .inl rfl
    | index j =>
      have hij : i ≠ j := fun hij => hne (congrArg Segment.index hij.symm)
      show Similar ((_ : Option (Tree P G)).getD undef) ((slots[j]?).getD undef)
      split_ifs with hi
      · rw [getElem?_set_ne hij]
        exact .inl rfl
      · by_cases hj : j < slots.length
        · rw [append_assoc, getElem?_append_left hj]
          exact .inl rfl
        · -- `j` is a place that was padded, or is beyond the new end
          right
          have hnone : slots[j]? = none := getElem?_eq_none (Nat.le_of_not_lt hj)
          refine ⟨?_, by rw [hnone]; rfl⟩
          rw [append_assoc, getElem?_append_right (Nat.le_of_not_lt hj)]
          by_cases hpad : j - slots.length < i - slots.length
          · rw [getElem?_append_left (by rw [length_replicate]; exact hpad),
              getElem?_replicate_of_lt hpad]
            exact absent_filler padLists
          · rw [getElem?_eq_none (by
              rw [length_append, length_replicate, length_singleton]
              omega)]
            rfl
  | dict entries, .name n, _ =>
    rw [assign_dict]
    cases other with
    | index j => exact .inl rfl
    | name n' =>
      have hn : n ≠ n' := fun hn => hne (congrArg Segment.name hn.symm)
      left
      show (Record.lookup n' (Record.insertEntry n child entries)).getD undef = _
      rw [Record.lookup_insertEntry, if_neg hn]
      rfl

end

section

variable {t t' : Tree P G} {segment : Segment} {segments : List Segment} {growth : ℕ}

/-- What a write enters: the container that is there, or a new one. -/
def enter (t : Tree P G) (segment following : Segment) : Tree P G :=
  if (own t segment).absent then fresh following else own t segment

lemma growthOf_of_absent (h : t.absent = true) (h' : t'.absent = true) :
    growthOf t segments = growthOf t' segments := by
  induction segments with
  | nil => rw [growthOf, growthOf]
  | cons _ _ ih => rw [growthOf, growthOf, if_pos h, if_pos h', ih]

lemma growthOf_cons (hpresent : t.absent = false) (h : growthOf t (segment :: segments) = some growth) :
    t.fits segment = true ∧ (segments = [] → (own t segment).absent = true) ∧
      ∃ rest, growthOf (own t segment) segments = some rest ∧ growth = lacking t segment + rest := by
  rw [growthOf, if_neg (by rw [hpresent]; exact Bool.false_ne_true)] at h
  split_ifs at h with hfits hlast
  obtain ⟨rest, hrest, rfl⟩ := map_eq_some_iff.1 h
  refine ⟨by simpa using hfits, fun hnil => ?_, rest, hrest, rfl⟩
  by_contra hfree
  exact hlast ⟨hnil, by simpa using hfree⟩

lemma growthOf_fresh (h : t.absent = true) :
    growthOf (fresh segment : Tree P G) (segment :: segments) = growthOf t (segment :: segments) := by
  have hrest : growthOf (undef : Tree P G) segments = growthOf t segments :=
    growthOf_of_absent absent_undef h
  have hpresent : (fresh segment : Tree P G).absent = false := not_absent_of_fits (fits_fresh segment)
  rw [growthOf, growthOf, if_pos h, own_fresh, hrest, hpresent, fits_fresh, absent_undef]
  simp

/-- The writes that can be made, with the list entries that they create. -/
inductive Writable : Tree P G → List Segment → ℕ → Prop
  | last {t : Tree P G} {segment : Segment} (hfits : t.fits segment = true)
      (hfree : (own t segment).absent = true) : Writable t [segment] (lacking t segment)
  | step {t : Tree P G} {segment following : Segment} {segments : List Segment} {rest : ℕ}
      (hfits : t.fits segment = true)
      (hrest : Writable (enter t segment following) (following :: segments) rest) :
      Writable t (segment :: following :: segments) (lacking t segment + rest)

/-- What `growthOf` lets through can be written. -/
theorem writable_of_growthOf (hpresent : t.absent = false) (hne : segments ≠ [])
    (h : growthOf t segments = some growth) : Writable t segments growth := by
  induction segments generalizing t growth with
  | nil => exact absurd rfl hne
  | cons segment segments ih =>
    obtain ⟨hfits, hlast, rest, hrest, rfl⟩ := growthOf_cons hpresent h
    cases segments with
    | nil =>
      cases hrest
      exact .last hfits (hlast rfl)
    | cons following segments =>
      refine .step hfits (ih ?_ (cons_ne_nil _ _) ?_)
      · unfold enter
        split_ifs with habsent
        · exact not_absent_of_fits (fits_fresh following)
        · exact Bool.eq_false_iff.2 habsent
      · unfold enter
        split_ifs with habsent
        · rw [growthOf_fresh habsent]
          exact hrest
        · exact hrest

/-- The place that is written is free. -/
theorem absent_look_of_writable (h : Writable t segments growth) : (look t segments).absent = true := by
  induction h with
  | last _ hfree => exact hfree
  | @step t segment following segments _ _ _ ih =>
    unfold enter at ih
    split_ifs at ih with habsent
    · -- nothing is below a free place
      show (look (own t segment) (following :: segments)).absent = true
      obtain hown | hown := eq_input_of_absent habsent
      · rw [hown, undef, look_input_cons]
        rfl
      · rw [hown, null, look_input_cons]
        rfl
    · exact ih

end

section

variable {padLists : Bool} {value : Tree P G} {t : Tree P G} {segments : List Segment} {growth : ℕ}

/-- `write` within the tree. -/
def written (padLists : Bool) (value : Tree P G) : List Segment → Tree P G → Tree P G
  | [], t => t
  | [segment], t => assign padLists t segment value
  | segment :: following :: segments, t =>
    assign padLists t segment (written padLists value (following :: segments) (enter t segment following))

lemma own_pad (padLists : Bool) (t : Tree P G) (segment : Segment) :
    Similar (own (pad padLists t segment) segment) (own t segment) := by
  match t, segment with
  | list slots, .index i =>
    cases padLists with
    | false => exact .inl rfl
    | true =>
      show Similar (((padTo slots i)[i]?).getD undef) ((slots[i]?).getD undef)
      by_cases hi : i < slots.length
      · rw [padTo, getElem?_append_left hi]
        exact .inl rfl
      · right
        rw [padTo, getElem?_append_right (Nat.le_of_not_lt hi),
          getElem?_replicate_of_lt (by omega), getElem?_eq_none (Nat.le_of_not_lt hi)]
        exact ⟨rfl, rfl⟩
  | list slots, .name n | dict entries, segment | input v, segment => exact .inl rfl

/-- A write that is allowed stays in the tree: no list or object of the input is entered. -/
theorem write_eq_written [DecidableEq G] {store : Store P G} (h : Writable t segments growth) :
    write padLists value segments t store = (written padLists value segments t, store) := by
  have hcontents : ∀ {t : Tree P G} {segment : Segment}, t.fits segment = true →
      deref store t = t ∧ ∀ contents, commit t contents store = (contents, store) := by
    intro t segment hfits
    match t, segment, hfits with
    | list slots, .index _, _ | dict entries, .name _, _ => exact ⟨rfl, fun _ => rfl⟩
  induction h with
  | last hfits =>
    obtain ⟨hderef, hcommit⟩ := hcontents hfits
    rw [write, hderef, hcommit]
    rfl
  | @step t segment following _ _ hfits _ ih =>
    obtain ⟨hderef, hcommit⟩ := hcontents hfits
    -- padding does not change what is entered
    have henter : (if (own (pad padLists t segment) segment).absent then fresh following
        else own (pad padLists t segment) segment) = enter t segment following := by
      unfold enter
      obtain hsame | ⟨hpad, howned⟩ := own_pad padLists t segment
      · rw [hsame]
      · rw [if_pos hpad, if_pos howned]
    rw [write]
    simp only [hderef]
    rw [henter, ih, hcommit]
    rfl

/-- Nothing but the absent is found at or below a place that is absent. -/
lemma absent_look_of_absent (h : t.absent = true) (path : List Segment) : (look t path).absent = true := by
  cases path with
  | nil => exact h
  | cons =>
    obtain rfl | rfl := eq_input_of_absent h
    · rw [undef, look_input_cons]
      rfl
    · rw [null, look_input_cons]
      rfl

lemma look_fresh_cons (segment other : Segment) (path : List Segment) :
    look (fresh segment : Tree P G) (other :: path) = undef := by
  rw [look, own_fresh, look_undef]

lemma fits_ne_input {segment : Segment} (hfits : t.fits segment = true) (v : Input P G) : t ≠ input v := by
  rintro rfl
  cases v <;> cases segment <;> cases hfits

/-- A write adds the one leaf that it writes and keeps all others. -/
theorem look_written_eq_input_iff (h : Writable t segments growth) {v w : Input P G}
    (hv : (input v : Tree P G).absent = false) (path : List Segment) :
    look (written padLists (input w) segments t) path = input v ↔
      look t path = input v ∨ (path = segments ∧ w = v) := by
  -- an absent place holds no leaf
  have hnone : ∀ {t : Tree P G} {path : List Segment}, t.absent = true → look t path ≠ input v := by
    intro t path habsent hlook
    have hleaf := absent_look_of_absent habsent path
    rw [hlook, hv] at hleaf
    exact Bool.false_ne_true hleaf
  have hundefined : (undef : Tree P G) ≠ input v := fun hundef => by
    rw [← hundef] at hv
    cases hv
  have hsimilar : ∀ {a b : Tree P G} {path : List Segment}, Similar a b →
      (look a path = input v ↔ look b path = input v) := by
    rintro a b path (rfl | ⟨ha, hb⟩)
    · rfl
    · exact iff_of_false (hnone ha) (hnone hb)
  -- a container is no leaf, and the places that are not assigned keep theirs
  have hassign : ∀ {t child : Tree P G} {segment : Segment} {rest : List Segment},
      t.fits segment = true →
      (∀ path, look child path = input v ↔ look (own t segment) path = input v ∨ (path = rest ∧ w = v)) →
      ∀ path, look (assign padLists t segment child) path = input v ↔
        look t path = input v ∨ (path = segment :: rest ∧ w = v) := by
    intro t child segment rest hfits hchild path
    cases path with
    | nil =>
      have hfits' : (assign padLists t segment child).fits segment = true :=
        (fits_assign hfits segment).trans hfits
      refine iff_of_false (fits_ne_input hfits' v) ?_
      rintro (hlook | ⟨hnil, -⟩)
      · exact fits_ne_input hfits v hlook
      · cases hnil
    | cons other path =>
      rw [look, look]
      by_cases hother : other = segment
      · subst hother
        rw [own_assign_same hfits, hchild path]
        simp
      · rw [hsimilar (own_assign_ne hfits hother)]
        simp [hother]
  induction h generalizing path with
  | @last t segment hfits hfree =>
    refine hassign hfits (fun path => ?_) path
    rw [or_iff_right (hnone hfree)]
    cases path with
    | nil => simp [look]
    | cons =>
      rw [look_input_cons]
      exact iff_of_false hundefined fun hnil => cons_ne_nil _ _ hnil.1
  | @step t _ following _ _ hfits _ ih =>
    refine hassign hfits (fun path => ?_) path
    refine (ih path).trans (or_congr_left ?_)
    unfold enter
    split_ifs with habsent
    · -- a new container holds nothing
      refine iff_of_false ?_ (hnone habsent)
      cases path with
      | nil => exact fits_ne_input (fits_fresh following) v
      | cons =>
        rw [look_fresh_cons]
        exact hundefined
    · rfl

/-- A property that every node of a tree has, where `M` is what the outermost container has before
the write and `N` what any node has after it. -/
theorem forall_look_written {M N : Tree P G → Prop} {A : Segment → Prop} {w : Input P G}
    (hinput : ∀ v, N (input v)) (hfresh : ∀ segment, M (fresh segment)) (hweak : ∀ t, N t → M t)
    (hassign : ∀ t segment child, M t → t.fits segment = true → A segment → N (assign padLists t segment child))
    (h : Writable t segments growth) (hallowed : ∀ segment ∈ segments, A segment) (houter : M t)
    (hinner : ∀ segment path, N (look t (segment :: path))) (path : List Segment) :
    N (look (written padLists (input w) segments t) path) := by
  -- what stands beside the place that is assigned
  have hother : ∀ {a b : Tree P G} {path : List Segment}, Similar a b → N (look b path) →
      N (look a path) := by
    rintro a b path (rfl | ⟨ha, -⟩) hb
    · exact hb
    · obtain hlook | hlook := eq_input_of_absent (absent_look_of_absent ha path)
      all_goals
        rw [hlook]
        exact hinput _
  induction h generalizing path with
  | @last t segment hfits hfree =>
    cases path with
    | nil => exact hassign t segment _ houter hfits (hallowed segment (.head _))
    | cons other path =>
      rw [written, look]
      by_cases hsame : other = segment
      · subst hsame
        rw [own_assign_same hfits]
        cases path with
        | nil => exact hinput w
        | cons =>
          rw [look_input_cons]
          exact hinput _
      · exact hother (own_assign_ne hfits hsame) (hinner other path)
  | @step t segment following _ _ hfits _ ih =>
    cases path with
    | nil => exact hassign t segment _ houter hfits (hallowed segment (.head _))
    | cons other path =>
      rw [written, look]
      by_cases hsame : other = segment
      · subst hsame
        rw [own_assign_same hfits]
        refine ih (fun s hs => hallowed s (.tail _ hs)) ?_ (fun s p => ?_) path
        · unfold enter
          split_ifs with habsent
          · exact hfresh following
          · exact hweak _ (hinner other [])
        · unfold enter
          split_ifs with habsent
          · rw [look_fresh_cons]
            exact hinput _
          · exact hinner other (s :: p)
      · exact hother (own_assign_ne hfits hsame) (hinner other path)

/-- Nothing is found beyond `d` parts. -/
def Shallow (d : ℕ) (t : Tree P G) : Prop :=
  ∀ path, look t path ≠ undef → path.length ≤ d

lemma shallow_fresh (d : ℕ) (segment : Segment) : Shallow d (fresh segment : Tree P G) := by
  intro path hpath
  cases path with
  | nil => exact zero_le d
  | cons other path => exact absurd (look_fresh_cons segment other path) hpath

lemma shallow_written {d : ℕ} {w : Input P G} (h : Writable t segments growth)
    (hlength : segments.length ≤ d) (ht : Shallow d t) : Shallow d (written padLists (input w) segments t) := by
  -- a place beside the one that is assigned holds what it held, or a filler
  have hother : ∀ {a b : Tree P G} {path : List Segment}, Similar a b → look a path ≠ undef →
      look b path ≠ undef ∨ path = [] := by
    rintro a b path (rfl | ⟨ha, -⟩) hlook
    · exact .inl hlook
    · cases path with
      | nil => exact .inr rfl
      | cons segment path =>
        obtain rfl | rfl := eq_input_of_absent ha
        all_goals exact absurd (look_input_cons _ segment path) hlook
  induction h generalizing d with
  | @last t segment hfits hfree =>
    intro path hpath
    cases path with
    | nil => exact zero_le d
    | cons other path =>
      rw [written, look] at hpath
      by_cases hsame : other = segment
      · subst hsame
        rw [own_assign_same hfits] at hpath
        cases path with
        | nil => exact hlength
        | cons other' path => exact absurd (look_input_cons w other' path) hpath
      · obtain hlook | rfl := hother (own_assign_ne hfits hsame) hpath
        · exact ht (other :: path) hlook
        · exact hlength
  | @step t segment following _ _ hfits _ ih =>
    intro path hpath
    cases path with
    | nil => exact zero_le d
    | cons other path =>
      rw [written, look] at hpath
      by_cases hsame : other = segment
      · subst hsame
        rw [own_assign_same hfits] at hpath
        have hd : 1 ≤ d := le_trans (by rw [length_cons]; omega) hlength
        have hchild : Shallow (d - 1) (enter t other following) := by
          unfold enter
          split_ifs with habsent
          · exact shallow_fresh _ _
          · intro p hp
            have hle := ht (other :: p) hp
            rw [length_cons] at hle
            omega
        have hle := ih (d := d - 1) (by rw [length_cons] at hlength; omega) hchild path hpath
        rw [length_cons]
        omega
      · obtain hlook | rfl := hother (own_assign_ne hfits hsame) hpath
        · exact ht (other :: path) hlook
        · rw [length_cons] at hlength
          exact le_trans (by rw [length_singleton]; omega) hlength

end

mutual

/-- The total length of the lists that the rebuild created. -/
def listSlots : Tree P G → ℕ
  | input _ => 0
  | list slots => slots.length + slotsOf slots
  | dict entries => entriesOf entries

def slotsOf : List (Tree P G) → ℕ
  | [] => 0
  | t :: slots => listSlots t + slotsOf slots

def entriesOf : List (Key × Tree P G) → ℕ
  | [] => 0
  | e :: entries => entryOf e + entriesOf entries

def entryOf : Key × Tree P G → ℕ
  | (_, t) => listSlots t

end

variable {padLists : Bool} {t child : Tree P G} {segment : Segment} {segments : List Segment}
  {growth : ℕ}

lemma slotsOf_append (l l' : List (Tree P G)) : slotsOf (l ++ l') = slotsOf l + slotsOf l' := by
  induction l with
  | nil => rw [nil_append, slotsOf, Nat.zero_add]
  | cons t l ih => rw [cons_append, slotsOf, slotsOf, ih, Nat.add_assoc]

lemma slotsOf_replicate (n : ℕ) (ht : listSlots t = 0) : slotsOf (List.replicate n t) = 0 := by
  induction n with
  | zero => rfl
  | succ n ih => rw [replicate_succ, slotsOf, ht, ih]

lemma listSlots_of_absent (h : t.absent = true) : listSlots t = 0 := by
  obtain rfl | rfl := eq_input_of_absent h
  all_goals rfl

variable (child) in
lemma slotsOf_set (slots : List (Tree P G)) (i : ℕ) (hi : i < slots.length) :
    slotsOf (slots.set i child) + listSlots ((slots[i]?).getD undef) = slotsOf slots + listSlots child := by
  induction slots generalizing i with
  | nil => cases hi
  | cons t slots ih =>
    cases i with
    | zero =>
      rw [set_cons_zero, slotsOf, slotsOf, getElem?_cons_zero, getD_some]
      omega
    | succ i =>
      have hrest := ih i (lt_of_succ_lt_succ hi)
      rw [set_cons_succ, slotsOf, slotsOf, getElem?_cons_succ]
      omega

variable (child) in
lemma entriesOf_insertEntry (n : Key) (entries : List (Key × Tree P G)) :
    entriesOf (Record.insertEntry n child entries) + listSlots ((Record.lookup n entries).getD undef) =
      entriesOf entries + listSlots child := by
  induction entries with
  | nil =>
    simp only [Record.insertEntry, Record.lookup, entriesOf, entryOf, getD_none,
      listSlots_of_absent absent_undef]
    omega
  | cons e =>
    obtain ⟨n', t⟩ := e
    by_cases hn : n' = n
    · simp only [Record.insertEntry, Record.lookup, hn, if_true, entriesOf, entryOf, getD_some]
      omega
    · simp only [Record.insertEntry, Record.lookup, hn, if_false, entriesOf, entryOf]
      omega

variable (padLists child) in
lemma listSlots_assign (h : t.fits segment = true) :
    listSlots (assign padLists t segment child) + listSlots (own t segment) =
      listSlots t + lacking t segment + listSlots child := by
  match t, segment, h with
  | list slots, .index i, _ =>
    rw [assign_list]
    show listSlots (list _) + listSlots ((slots[i]?).getD undef) = listSlots (list slots) +
      (i + 1 - slots.length) + listSlots child
    by_cases hi : i < slots.length
    · have hset := slotsOf_set child slots i hi
      rw [if_pos hi, listSlots, listSlots, length_set]
      omega
    · have hfiller := slotsOf_replicate (i - slots.length)
        (listSlots_of_absent (absent_filler (P := P) (G := G) padLists))
      rw [if_neg hi, listSlots, listSlots, getElem?_eq_none (Nat.le_of_not_lt hi),
        getD_none, listSlots_of_absent absent_undef, slotsOf_append, slotsOf_append, hfiller]
      simp only [slotsOf, length_append, length_replicate, length_singleton]
      omega
  | dict entries, .name n, _ =>
    have hentries := entriesOf_insertEntry child n entries
    rw [assign_dict]
    simp only [listSlots, lacking, own]
    omega

/-- A write creates the list entries that `growthOf` counted. -/
theorem listSlots_written {w : Input P G} (h : Writable t segments growth) :
    listSlots (written padLists (input w) segments t) = listSlots t + growth := by
  induction h with
  | @last t segment hfits hfree =>
    have hassign := listSlots_assign padLists (input w) hfits
    rw [listSlots_of_absent hfree] at hassign
    rw [written]
    simp only [listSlots] at hassign
    omega
  | @step t segment following segments _ hfits =>
    have hassign := listSlots_assign padLists
      (written padLists (input w) (following :: segments) (enter t segment following)) hfits
    have henter : listSlots (enter t segment following) = listSlots (own t segment) := by
      unfold enter
      split_ifs with habsent
      · rw [listSlots_of_absent habsent]
        cases following <;> rfl
      · rfl
    rw [written]
    omega

end Tree

end FlatKeys
