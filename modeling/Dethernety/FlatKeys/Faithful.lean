import Mathlib.Data.List.Induction
import Dethernety.FlatKeys.Write

/-!
# The rebuild is faithful and within its limits

Both results are invariants of the loop over the sorted keys: a key that is left out changes nothing,
and a key that is written does what `Write` says.
-/

open List Record

namespace FlatKeys

open FlatKeys.Tree

variable {P G : Type} [DecidableEq G] {options : UnflattenOptions P G} {s s' : Rebuild P G}
  {key : Key} {value : Input P G}

/-- The state after a key that can be written. -/
def Rebuild.add (s : Rebuild P G) (padLists : Bool) (leaf : Input P G) (segments : List Segment)
    (growth : ℕ) : Rebuild P G :=
  { s with value := written padLists (.input leaf) segments s.value, slots := s.slots + growth }

lemma attempt_ok (hroot : s.value.absent = false) (h : attempt options s key value = .ok s') :
    ∃ segments growth, parseFlatKey key = .ok segments ∧ Writable s.value segments growth ∧
      s.slots + growth ≤ maxListSlots ∧ s' = s.add options.padLists (options.leaf value) segments growth := by
  unfold attempt at h
  split at h
  next => cases h
  next segments hparse =>
    split at h
    next => cases h
    next growth hgrowth =>
      split_ifs at h with hbudget
      obtain ⟨hne, -, -⟩ := parseFlatKey_ok hparse
      have hwritable := writable_of_growthOf hroot hne hgrowth
      refine ⟨segments, growth, hparse, hwritable, Nat.le_of_not_lt hbudget, ?_⟩
      rw [← Except.ok.inj h]
      simp only [write_eq_written hwritable]
      rfl

variable {padLists : Bool} {segments : List Segment}

omit [DecidableEq G] in
lemma not_absent_written {leaf : Tree P G} {t : Tree P G} {growth : ℕ} (h : Writable t segments growth) :
    (written padLists leaf segments t).absent = false := by
  cases h with
  | last hfits hfree | step hfits hrest =>
    exact not_absent_of_fits ((fits_assign hfits _).trans hfits)

/-- A rule for the loop: what holds at the start and is kept by every key holds in every state. -/
lemma foldl_stepKey_induction {flat : Record Key (Input P G)} {Inv : Rebuild P G → Prop} (l : List Key)
    (hwrite : ∀ s, ∀ key ∈ l, ∀ segments growth, Inv s → s.value.absent = false →
      parseFlatKey key = .ok segments → Writable s.value segments growth →
      s.slots + growth ≤ maxListSlots →
      Inv (s.add options.padLists (options.leaf ((flat.get? key).getD .undefined)) segments growth))
    (hdrop : ∀ s dropped, Inv s → Inv { s with dropped })
    (hs : Inv s) (hroot : s.value.absent = false) :
    Inv (l.foldl (stepKey options flat) s) ∧
      (l.foldl (stepKey options flat) s).value.absent = false := by
  induction l generalizing s with
  | nil => exact ⟨hs, hroot⟩
  | cons key l ih =>
    have hrest := fun s key' (hkey' : key' ∈ l) => hwrite s key' (.tail _ hkey')
    rw [foldl_cons]
    unfold stepKey
    split
    next s' hok =>
      obtain ⟨segments, growth, hparse, hwritable, hbudget, rfl⟩ := attempt_ok hroot hok
      exact ih hrest (hwrite s key (.head _) segments growth hs hroot hparse hwritable hbudget)
        (not_absent_written hwritable)
    next problem _ => exact ih hrest (hdrop s _ hs) hroot

/-- The limits that a container keeps. -/
def Tidy : Tree P G → Prop
  | .input _ => True
  | .list slots => slots.length ≤ maxIndex + 1
  | .dict entries => ∀ e ∈ entries, e.1 ∉ reserved

/-- The limits that a rebuild keeps. -/
structure WithinLimits (store : Store P G) (s : Rebuild P G) : Prop where
  /-- The slot count is the total length of the lists that were created. -/
  slots_eq : s.slots = listSlots s.value
  slots_le : s.slots ≤ maxListSlots
  /-- No list is longer than the largest index allows. -/
  length_le : ∀ path slots, look s.value path = .list slots → slots.length ≤ maxIndex + 1
  /-- Nothing is nested deeper than a key can be long. -/
  depth_le : ∀ path, look s.value path ≠ undef → path.length ≤ maxSegments
  not_reserved : ∀ path entries, look s.value path = .dict entries → ∀ e ∈ entries, e.1 ∉ reserved
  /-- The lists and objects of the input are as they were. -/
  store_eq : s.store = store

omit [DecidableEq G] in
lemma tidy_assign {t child : Tree P G} {segment : Segment} (ht : Tidy t)
    (hfits : t.fits segment = true) (hallowed : segment.Allowed) : Tidy (assign padLists t segment child) := by
  match t, segment, hfits with
  | .list slots, .index i, _ =>
    have hslots : slots.length ≤ maxIndex + 1 := ht
    have hi : i ≤ maxIndex := hallowed
    rw [assign_list]
    show List.length _ ≤ maxIndex + 1
    split_ifs with hlt
    · rw [length_set]
      exact hslots
    · rw [length_append, length_append, length_replicate, length_singleton]
      omega
  | .dict entries, .name n, _ =>
    rw [assign_dict]
    intro e he
    have hkeys : e.1 ∈ (Record.insertEntry n child entries).map Prod.fst := mem_map_of_mem he
    rw [mem_keys_insertEntry] at hkeys
    obtain hn | hn := hkeys
    · rw [hn]
      exact hallowed
    · obtain ⟨e', he', heq⟩ := mem_map.1 hn
      rw [← heq]
      exact ht e' he'

variable {store : Store P G}

omit [DecidableEq G] in
lemma tidy_look_of_withinLimits (h : WithinLimits store s)
    (path : List Segment) : Tidy (look s.value path) := by
  cases hlook : look s.value path with
  | input v => trivial
  | list slots => exact h.length_le path slots hlook
  | dict entries => exact h.not_reserved path entries hlook

omit [DecidableEq G] in
lemma withinLimits_add {growth : ℕ} {leaf : Input P G} (h : WithinLimits store s)
    (hparse : parseFlatKey key = .ok segments) (hwritable : Writable s.value segments growth)
    (hbudget : s.slots + growth ≤ maxListSlots) : WithinLimits store (s.add padLists leaf segments growth) := by
  obtain ⟨-, hallowed, hlength⟩ := parseFlatKey_ok hparse
  have htidy : ∀ path, Tidy (look (s.add padLists leaf segments growth).value path) :=
    forall_look_written (fun _ => trivial) (fun segment => by cases segment <;> simp [fresh, Tidy])
      (fun _ ht => ht) (fun _ _ _ ht hfits ha => tidy_assign ht hfits ha) hwritable hallowed
      (tidy_look_of_withinLimits h []) (fun segment path => tidy_look_of_withinLimits h (segment :: path))
  refine ⟨?_, hbudget, fun path slots hlook => ?_, ?_, fun path entries hlook => ?_, h.store_eq⟩
  · show s.slots + growth = _
    rw [h.slots_eq]
    exact (listSlots_written hwritable).symm
  · have ht := htidy path
    rwa [hlook] at ht
  · exact shallow_written hwritable hlength h.depth_le
  · have ht := htidy path
    rwa [hlook] at ht

omit [DecidableEq G] in
lemma withinLimits_start (store : Store P G) : WithinLimits store (.start store) := by
  have hlook : ∀ (segment : Segment) (path : List Segment),
      look (.dict [] : Tree P G) (segment :: path) = undef :=
    fun segment path => look_fresh_cons (.name []) segment path
  refine ⟨rfl, Nat.zero_le _, fun path slots h => ?_, fun path h => ?_, fun path entries h => ?_, rfl⟩
  · cases path with
    | nil => cases h
    | cons =>
      rw [Rebuild.start, hlook] at h
      cases h
  · cases path with
    | nil => exact Nat.zero_le _
    | cons segment path => exact absurd (hlook segment path) h
  · cases path with
    | nil =>
      obtain rfl := Tree.dict.inj h
      exact fun e he => absurd he not_mem_nil
    | cons =>
      rw [Rebuild.start, hlook] at h
      cases h

/-- The limits hold after every key of a rebuild, in both list modes. -/
theorem unflattenFlatKeys_withinLimits (options : UnflattenOptions P G) (store : Store P G)
    (flat : Record Key (Input P G)) (n : ℕ) :
    WithinLimits store (((sortedKeys flat).take n).foldl (stepKey options flat) (.start store)) ∧
      WithinLimits store (unflattenFlatKeys options store flat) := by
  have hloop : ∀ l : List Key, WithinLimits store (l.foldl (stepKey options flat) (.start store)) :=
    fun l => (foldl_stepKey_induction l
      (fun s key _ segments growth hs _ hparse hwritable hbudget =>
        withinLimits_add hs hparse hwritable hbudget)
      (fun s dropped hs => ⟨hs.slots_eq, hs.slots_le, hs.length_le, hs.depth_le, hs.not_reserved,
        hs.store_eq⟩) (withinLimits_start store) rfl).1
  exact ⟨hloop _, hloop _⟩

section

variable {flat : Record Key (Input P G)}

def Rebuild.droppedKeys (s : Rebuild P G) : List Key :=
  s.dropped.map DroppedFlatKey.key

/-- A key that was written at a path with a value. -/
def Kept (options : UnflattenOptions P G) (flat : Record Key (Input P G)) (l : List Key)
    (s : Rebuild P G) (path : List Segment) (v : Input P G) (key : Key) : Prop :=
  key ∈ l ∧ key ∉ s.droppedKeys ∧ parseFlatKey key = .ok path ∧
    options.leaf ((flat.get? key).getD .undefined) = v

/-- The leaves after the keys of `l`: each comes from one key that was written. -/
structure Leaves (options : UnflattenOptions P G) (flat : Record Key (Input P G)) (l : List Key)
    (s : Rebuild P G) : Prop where
  root : s.value.absent = false
  dropped_subset : s.droppedKeys ⊆ l
  parsed : ∀ key ∈ l, key ∉ s.droppedKeys → ∃ segments, parseFlatKey key = .ok segments
  leaf_iff : ∀ path v, (input v : Tree P G).absent = false →
    (look s.value path = input v ↔ ∃ key, Kept options flat l s path v key)
  unique : ∀ path v v' key key', (input v : Tree P G).absent = false →
    (input v' : Tree P G).absent = false → Kept options flat l s path v key →
    Kept options flat l s path v' key' → key = key'

variable {l : List Key}

omit [DecidableEq G] in
/-- A key that was written: the leaves are those before and its own. -/
lemma leaves_add (h : Leaves options flat l s) (hkey : key ∉ l)
    {segments : List Segment} {growth : ℕ} (hparse : parseFlatKey key = .ok segments)
    (hwritable : Writable s.value segments growth) :
    Leaves options flat (l ++ [key]) (s.add options.padLists
      (options.leaf ((flat.get? key).getD .undefined)) segments growth) := by
  have hnotDropped : key ∉ s.droppedKeys := fun hmem => hkey (h.dropped_subset hmem)
  have hkept : ∀ path v key', Kept options flat (l ++ [key]) (s.add options.padLists
      (options.leaf ((flat.get? key).getD .undefined)) segments growth) path v key' ↔
      Kept options flat l s path v key' ∨
        (key' = key ∧ path = segments ∧ options.leaf ((flat.get? key).getD .undefined) = v) := by
    intro path v key'
    constructor
    · rintro ⟨hmem, hdropped, hparse', hleaf⟩
      obtain hmem | hmem := mem_append.1 hmem
      · exact .inl ⟨hmem, hdropped, hparse', hleaf⟩
      · obtain rfl := mem_singleton.1 hmem
        exact .inr ⟨rfl, Except.ok.inj (hparse'.symm.trans hparse), hleaf⟩
    · rintro (⟨hmem, hdropped, hparse', hleaf⟩ | ⟨rfl, rfl, hleaf⟩)
      · exact ⟨mem_append_left _ hmem, hdropped, hparse', hleaf⟩
      · exact ⟨mem_append_right _ (mem_singleton_self _), hnotDropped, hparse, hleaf⟩
  -- the place was free, so no key before has a leaf there
  have hfree : ∀ v key', (input v : Tree P G).absent = false →
      ¬ Kept options flat l s segments v key' := by
    intro v key' hv hkept'
    have hlook := (h.leaf_iff segments v hv).2 ⟨key', hkept'⟩
    have habsent := absent_look_of_writable hwritable
    rw [hlook, hv] at habsent
    exact Bool.false_ne_true habsent
  refine ⟨not_absent_written hwritable, ?_, ?_, ?_, ?_⟩
  · exact fun key' hmem => mem_append_left _ (h.dropped_subset hmem)
  · intro key' hmem hdropped
    obtain hmem | hmem := mem_append.1 hmem
    · exact h.parsed key' hmem hdropped
    · rw [mem_singleton.1 hmem]
      exact ⟨segments, hparse⟩
  · intro path v hv
    show look (written options.padLists _ segments s.value) path = input v ↔ _
    rw [look_written_eq_input_iff hwritable hv, h.leaf_iff path v hv]
    simp only [hkept, exists_or, exists_eq_left]
  · intro path v v' key₁ key₂ hv hv' hkept₁ hkept₂
    rw [hkept] at hkept₁ hkept₂
    obtain hkept₁ | ⟨rfl, rfl, -⟩ := hkept₁
    · obtain hkept₂ | ⟨rfl, rfl, -⟩ := hkept₂
      · exact h.unique path v v' key₁ key₂ hv hv' hkept₁ hkept₂
      · exact absurd hkept₁ (hfree v key₁ hv)
    · obtain hkept₂ | ⟨rfl, -⟩ := hkept₂
      · exact absurd hkept₂ (hfree v' key₂ hv')
      · rfl

omit [DecidableEq G] in
/-- A key that was left out: the leaves are those before. -/
lemma leaves_drop (h : Leaves options flat l s) (hkey : key ∉ l)
    (problem : FlatKeyProblem) :
    Leaves options flat (l ++ [key]) { s with dropped := s.dropped ++ [⟨key, problem⟩] } := by
  have hdroppedKeys : ({ s with dropped := s.dropped ++ [⟨key, problem⟩] } : Rebuild P G).droppedKeys =
      s.droppedKeys ++ [key] := map_append
  have hkept : ∀ path v key', Kept options flat (l ++ [key])
      { s with dropped := s.dropped ++ [⟨key, problem⟩] } path v key' ↔
      Kept options flat l s path v key' := by
    intro path v key'
    unfold Kept
    rw [hdroppedKeys]
    constructor
    · rintro ⟨hmem, hdropped, hrest⟩
      obtain hmem | hmem := mem_append.1 hmem
      · exact ⟨hmem, fun hd => hdropped (mem_append_left _ hd), hrest⟩
      · exact absurd (mem_append_right _ hmem) hdropped
    · rintro ⟨hmem, hdropped, hrest⟩
      refine ⟨mem_append_left _ hmem, fun hd => ?_, hrest⟩
      obtain hd | hd := mem_append.1 hd
      · exact hdropped hd
      · exact hkey (mem_singleton.1 hd ▸ hmem)
  refine ⟨h.root, ?_, ?_, ?_, ?_⟩
  · rw [hdroppedKeys]
    intro key' hmem
    obtain hmem | hmem := mem_append.1 hmem
    · exact mem_append_left _ (h.dropped_subset hmem)
    · exact mem_append_right _ hmem
  · intro key' hmem hdropped
    rw [hdroppedKeys] at hdropped
    obtain hmem | hmem := mem_append.1 hmem
    · exact h.parsed key' hmem fun hd => hdropped (mem_append_left _ hd)
    · exact absurd (mem_append_right _ hmem) hdropped
  · intro path v hv
    rw [h.leaf_iff path v hv]
    exact exists_congr fun key' => (hkept path v key').symm
  · intro path v v' key₁ key₂ hv hv' hkept₁ hkept₂
    exact h.unique path v v' key₁ key₂ hv hv' ((hkept _ _ _).1 hkept₁) ((hkept _ _ _).1 hkept₂)

lemma leaves_stepKey (h : Leaves options flat l s) (hkey : key ∉ l) :
    Leaves options flat (l ++ [key]) (stepKey options flat s key) := by
  unfold stepKey
  split
  next s' hok =>
    obtain ⟨segments, growth, hparse, hwritable, -, rfl⟩ := attempt_ok h.root hok
    exact leaves_add h hkey hparse hwritable
  next problem _ => exact leaves_drop h hkey problem

omit [DecidableEq G] in
lemma leaves_start (store : Store P G) : Leaves options flat [] (.start store) := by
  refine ⟨rfl, List.Subset.refl _, fun key hmem => absurd hmem not_mem_nil, fun path v hv => ?_,
    fun path v v' key key' _ _ hkept => absurd hkept.1 not_mem_nil⟩
  refine iff_of_false (fun hlook => ?_) fun ⟨key, hkept⟩ => absurd hkept.1 not_mem_nil
  cases path with
  | nil => cases hlook
  | cons segment path =>
    rw [Rebuild.start, show look (.dict []) (segment :: path) = undef from
      look_fresh_cons (.name []) segment path] at hlook
    rw [← hlook] at hv
    cases hv

lemma leaves_foldl (store : Store P G) (hl : l.Nodup) :
    Leaves options flat l (l.foldl (stepKey options flat) (.start store)) := by
  induction l using List.reverseRecOn with
  | nil => exact leaves_start store
  | append_singleton l key ih =>
    rw [foldl_append, foldl_cons, foldl_nil]
    obtain ⟨hl', -, hdisjoint⟩ := nodup_append.1 hl
    exact leaves_stepKey (ih hl') fun hmem => hdisjoint key hmem key (mem_singleton_self _) rfl

end

section

variable {flat flat' : Record Key (Input P G)} {l : List Key}

lemma foldl_stepKey_congr (h : ∀ key ∈ l, flat.get? key = flat'.get? key) (s : Rebuild P G) :
    l.foldl (stepKey options flat) s = l.foldl (stepKey options flat') s := by
  induction l generalizing s with
  | nil => rfl
  | cons key l ih =>
    have hstep : stepKey options flat s key = stepKey options flat' s key := by
      unfold stepKey
      rw [h key (.head _)]
    rw [foldl_cons, foldl_cons, hstep]
    exact ih (fun key' hmem => h key' (.tail _ hmem)) _

/-- A rebuild without what it has left out. -/
def Rebuild.undropped (s : Rebuild P G) : Rebuild P G :=
  { s with dropped := [] }

/-- A key that is written is not left out, and one that is left out is. -/
lemma stepKey_cases (options : UnflattenOptions P G) (flat : Record Key (Input P G)) (s : Rebuild P G) (key : Key) :
    ((stepKey options flat s key).droppedKeys = s.droppedKeys ∧
      stepKey options flat s.undropped key = (stepKey options flat s key).undropped) ∨
    ((stepKey options flat s key).droppedKeys = s.droppedKeys ++ [key] ∧
      (stepKey options flat s key).undropped = s.undropped) := by
  unfold stepKey attempt
  cases parseFlatKey key with
  | error problem => exact .inr ⟨map_append, rfl⟩
  | ok segments =>
    simp only [Rebuild.undropped]
    cases s.value.growthOf segments with
    | none => exact .inr ⟨map_append, rfl⟩
    | some growth =>
      by_cases hbudget : s.slots + growth > maxListSlots
      · simp only [hbudget, if_true]
        exact .inr ⟨map_append, trivial⟩
      · simp only [hbudget, if_false]
        exact .inl ⟨rfl, trivial⟩

lemma mem_droppedKeys_foldl {s : Rebuild P G} {key : Key} :
    (key ∈ s.droppedKeys → key ∈ (l.foldl (stepKey options flat) s).droppedKeys) ∧
      (key ∈ (l.foldl (stepKey options flat) s).droppedKeys → key ∈ s.droppedKeys ∨ key ∈ l) := by
  induction l generalizing s with
  | nil => exact ⟨id, .inl⟩
  | cons key' l ih =>
    rw [foldl_cons]
    obtain ⟨hdropped, -⟩ | ⟨hdropped, -⟩ := stepKey_cases options flat s key'
    · refine ⟨fun hmem => ih.1 (hdropped ▸ hmem), fun hmem => ?_⟩
      obtain hmem | hmem := ih.2 hmem
      · exact .inl (hdropped ▸ hmem)
      · exact .inr (.tail _ hmem)
    · refine ⟨fun hmem => ih.1 (hdropped ▸ mem_append_left _ hmem), fun hmem => ?_⟩
      obtain hmem | hmem := ih.2 hmem
      · rw [hdropped] at hmem
        obtain hmem | hmem := mem_append.1 hmem
        · exact .inl hmem
        · exact .inr (mem_singleton.1 hmem ▸ (.head _))
      · exact .inr (.tail _ hmem)

lemma foldl_stepKey_kept (hl : l.Nodup) (hs : ∀ key ∈ l, key ∉ s.droppedKeys) :
    (l.filter (· ∉ (l.foldl (stepKey options flat) s).droppedKeys)).foldl (stepKey options flat)
      s.undropped = (l.foldl (stepKey options flat) s).undropped := by
  induction l generalizing s with
  | nil => rfl
  | cons key l ih =>
    obtain ⟨hkey, hl⟩ := nodup_cons.1 hl
    rw [foldl_cons, filter_cons]
    have hs' : ∀ key' ∈ l, key' ∉ (stepKey options flat s key).droppedKeys := by
      intro key' hmem hdropped
      have hne : key' ≠ key := fun heq => hkey (heq ▸ hmem)
      obtain ⟨hsame, -⟩ | ⟨hsame, -⟩ := stepKey_cases options flat s key
      · exact hs key' (.tail _ hmem) (hsame ▸ hdropped)
      · rw [hsame] at hdropped
        obtain hdropped | hdropped := mem_append.1 hdropped
        · exact hs key' (.tail _ hmem) hdropped
        · exact hne (mem_singleton.1 hdropped)
    obtain ⟨hsame, hundropped⟩ | ⟨hsame, hundropped⟩ := stepKey_cases options flat s key
    · -- the key was written, and is written again
      have hkept : key ∉ (l.foldl (stepKey options flat) (stepKey options flat s key)).droppedKeys := by
        intro hmem
        obtain hmem | hmem := mem_droppedKeys_foldl.2 hmem
        · exact hs key (.head _) (hsame ▸ hmem)
        · exact hkey hmem
      rw [if_pos (decide_eq_true hkept), foldl_cons, hundropped]
      exact ih hl hs'
    · -- the key was left out
      have hdropped : key ∈ (l.foldl (stepKey options flat) (stepKey options flat s key)).droppedKeys :=
        mem_droppedKeys_foldl.1 (hsame ▸ mem_append_right _ (mem_singleton_self _))
      rw [if_neg (by simpa using hdropped), ← hundropped]
      exact ih hl hs'

omit [DecidableEq G] in
lemma sortedKeys_eq_of_perm (h : flat.keys.Perm flat'.keys) : sortedKeys flat = sortedKeys flat' := by
  refine List.Perm.eq_of_pairwise' (r := (· ≤ ·)) (pairwise_insertionSort _ _)
    (pairwise_insertionSort _ _) ?_
  exact (perm_insertionSort _ _).trans (h.trans (perm_insertionSort _ _).symm)

omit [DecidableEq G] in
lemma sortedKeys_filterKeys (p : Key → Bool) : sortedKeys (flat.filterKeys p) = (sortedKeys flat).filter p := by
  refine List.Perm.eq_of_pairwise' (r := (· ≤ ·)) (pairwise_insertionSort _ _)
    ((pairwise_insertionSort _ _).filter _) ?_
  apply (perm_insertionSort _ _).trans
  rw [keys_filterKeys]
  exact ((perm_insertionSort _ _).filter p).symm

omit [DecidableEq G] in
lemma mem_sortedKeys : key ∈ sortedKeys flat ↔ key ∈ flat.keys :=
  mem_insertionSort _

omit [DecidableEq G] in
lemma nodup_sortedKeys (flat : Record Key (Input P G)) : (sortedKeys flat).Nodup :=
  (perm_insertionSort _ _).nodup_iff.2 flat.nodup

lemma unflattenFlatKeys_eq_of_sameEntries (options : UnflattenOptions P G) (store : Store P G)
    (h : flat.SameEntries flat') : unflattenFlatKeys options store flat = unflattenFlatKeys options store flat' := by
  unfold unflattenFlatKeys
  rw [sortedKeys_eq_of_perm h.keys_perm]
  exact foldl_stepKey_congr (fun key _ => h key) _

lemma unflattenFlatKeys_filterKeys (options : UnflattenOptions P G) (store : Store P G)
    (flat : Record Key (Input P G)) (p : Key → Bool) :
    unflattenFlatKeys options store (flat.filterKeys p) =
      ((sortedKeys flat).filter p).foldl (stepKey options flat) (.start store) := by
  unfold unflattenFlatKeys
  rw [sortedKeys_filterKeys]
  refine foldl_stepKey_congr (fun key hmem => ?_) _
  rw [get?_filterKeys, if_pos (mem_filter.1 hmem).2]

lemma unflattenFlatKeys_kept (options : UnflattenOptions P G) (store : Store P G) (flat : Record Key (Input P G)) :
    unflattenFlatKeys options store (flat.filterKeys (· ∉ (unflattenFlatKeys options store flat).droppedKeys)) =
      (unflattenFlatKeys options store flat).undropped := by
  rw [unflattenFlatKeys_filterKeys]
  exact foldl_stepKey_kept (s := .start store) (nodup_sortedKeys flat) fun key _ => not_mem_nil

end

/-- The laws of a rebuild `s` of a bag. -/
structure FaithfulTo (options : UnflattenOptions P G) (store : Store P G)
    (flat : Record Key (Input P G)) (s : Rebuild P G) : Prop where
  /-- A key that is not left out and has a value is found at its path. -/
  found : ∀ key value, flat.get? key = some value → key ∉ s.droppedKeys →
    (input value : Tree P G).absent = false →
    ∃ path, parseFlatKey key = .ok path ∧ look s.value path = input (options.leaf value)
  /-- Each leaf with a value comes from one such key. -/
  leaf_unique : ∀ path leaf, look s.value path = input leaf → (input leaf : Tree P G).absent = false →
    ∃! key, key ∉ s.droppedKeys ∧ parseFlatKey key = .ok path ∧
      ∃ value, flat.get? key = some value ∧ (input value : Tree P G).absent = false ∧
        options.leaf value = leaf
  /-- The keys that are left out do not matter. -/
  rerun : unflattenFlatKeys options store (flat.filterKeys (· ∉ s.droppedKeys)) = s.undropped
  /-- Nor does the order in which the keys are listed. -/
  order : ∀ flat', flat.SameEntries flat' → unflattenFlatKeys options store flat' = s

section

variable {options : UnflattenOptions P G} {store : Store P G} {path : List Segment} {key : Key}
  (hleaf : ∀ value, (input (options.leaf value) : Tree P G).absent = (input value : Tree P G).absent)
include hleaf

lemma found_of_kept {value : Input P G} (hget : flat.get? key = some value)
    (hkept : key ∉ (unflattenFlatKeys options store flat).droppedKeys)
    (hvalue : (input value : Tree P G).absent = false) :
    ∃ path, parseFlatKey key = .ok path ∧
      look (unflattenFlatKeys options store flat).value path = input (options.leaf value) := by
  have hleaves : Leaves options flat (sortedKeys flat) (unflattenFlatKeys options store flat) :=
    leaves_foldl store (nodup_sortedKeys flat)
  have hmem : key ∈ sortedKeys flat := mem_sortedKeys.2 (mem_keys_of_get? hget)
  obtain ⟨path, hparse⟩ := hleaves.parsed key hmem hkept
  have hvalue' : (input (options.leaf value) : Tree P G).absent = false := (hleaf value).trans hvalue
  refine ⟨path, hparse, (hleaves.leaf_iff path _ hvalue').2 ⟨key, hmem, hkept, hparse, ?_⟩⟩
  rw [hget]
  rfl

lemma key_of_leaf {leaf : Input P G}
    (hlook : look (unflattenFlatKeys options store flat).value path = input leaf)
    (hpresent : (input leaf : Tree P G).absent = false) :
    ∃! key, key ∉ (unflattenFlatKeys options store flat).droppedKeys ∧ parseFlatKey key = .ok path ∧
      ∃ value, flat.get? key = some value ∧ (input value : Tree P G).absent = false ∧
        options.leaf value = leaf := by
  have hleaves : Leaves options flat (sortedKeys flat) (unflattenFlatKeys options store flat) :=
    leaves_foldl store (nodup_sortedKeys flat)
  obtain ⟨key, hkept⟩ := (hleaves.leaf_iff path leaf hpresent).1 hlook
  refine ⟨key, ⟨hkept.2.1, hkept.2.2.1, ?_⟩, ?_⟩
  · obtain ⟨value, hget⟩ : ∃ value, flat.get? key = some value :=
      Option.isSome_iff_exists.1 (mem_keys_iff.1 (mem_sortedKeys.1 hkept.1))
    have heq : options.leaf value = leaf := by
      have h := hkept.2.2.2
      rwa [hget] at h
    exact ⟨value, hget, (hleaf value).symm.trans (heq ▸ hpresent), heq⟩
  · rintro key' ⟨hkept', hparse', value, hget, -, heq⟩
    have hmem' : key' ∈ sortedKeys flat := mem_sortedKeys.2 (mem_keys_of_get? hget)
    refine hleaves.unique path leaf leaf key' key hpresent hpresent
      ⟨hmem', hkept', hparse', ?_⟩ hkept
    rw [hget]
    exact heq

end

/-- The rebuild is faithful for every map of leaves that keeps values and absent values apart, as the
identity and the coercion of graph integers do. -/
theorem unflattenFlatKeys_faithful (options : UnflattenOptions P G) (store : Store P G)
    (hleaf : ∀ value, (input (options.leaf value) : Tree P G).absent = (input value : Tree P G).absent)
    (flat : Record Key (Input P G)) :
    FaithfulTo options store flat (unflattenFlatKeys options store flat) where
  found _ _ := found_of_kept hleaf
  leaf_unique _ _ := key_of_leaf hleaf
  rerun := unflattenFlatKeys_kept options store flat
  order _ h := (unflattenFlatKeys_eq_of_sameEntries options store h).symm

/-- `{"tags[0]": 7, "tags[0].x": 8, "note": null}` -/
def sampleBag : Record Key (Input ℕ Unit) :=
  .ofList [(units "tags[0]", .prim 7), (units "tags[0].x", .prim 8), (units "note", .null)]

def defaultOptions : UnflattenOptions P G where
  padLists := false
  leaf := id

theorem unflattenFlatKeys_faithful_sample :
    (unflattenFlatKeys defaultOptions (fun _ => undef) sampleBag).droppedKeys = [units "tags[0].x"] ∧
      FaithfulTo defaultOptions (fun _ => undef) sampleBag
        (unflattenFlatKeys defaultOptions (fun _ => undef) sampleBag) :=
  ⟨by decide +kernel, unflattenFlatKeys_faithful defaultOptions _ (fun _ => rfl) sampleBag⟩

end FlatKeys
