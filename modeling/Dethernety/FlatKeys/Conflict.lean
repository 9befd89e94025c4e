import Dethernety.FlatKeys.Faithful

/-!
# Which keys conflict

Whether a rebuild leaves a key out for a conflict does not depend on the tree but on the keys that it
kept before (`mem_dropped_conflict_iff`): one of them is on the way to the place of the key, is below
it, or parts from it where one has a name and the other an index (`blocks`).
-/

open List

namespace FlatKeys

open FlatKeys.Tree

variable {P G : Type}

/-- A kept path `k`, which holds a value if `present`, leaves no room for the path `p`: the first runs
into a value, the second is where a container stands, or they part where one has a name and the other
an index. -/
def blocks (present : Bool) : List Segment → List Segment → Bool
  | [], _ => present
  | _ :: _, [] => true
  | a :: k, b :: p => a.isIndex != b.isIndex || (a == b && blocks present k p)

/-- A value that is not absent. -/
def Input.present (value : Input P G) : Bool :=
  !(input value).absent

section

variable {t a b : Tree P G} {segment : Segment} {p k : List Segment} {growth : ℕ}

lemma fits_fresh_eq (segment other : Segment) :
    fits (fresh segment : Tree P G) other = (segment.isIndex == other.isIndex) := by
  cases segment <;> cases other <;> rfl

lemma growthOf_ne_none_of_absent (h : t.absent = true) (p : List Segment) : growthOf t p ≠ none := by
  induction p with
  | nil => exact Option.some_ne_none 0
  | cons segment p ih =>
    rw [growthOf, if_pos h, ne_eq, Option.map_eq_none_iff]
    exact ih

lemma growthOf_cons_eq_none_iff (hpresent : t.absent = false) :
    growthOf t (segment :: p) = none ↔ t.fits segment = false ∨
      (p = [] ∧ (own t segment).absent = false) ∨ growthOf (own t segment) p = none := by
  rw [growthOf, if_neg (by rw [hpresent]; exact Bool.false_ne_true)]
  split_ifs with hfits hlast
  · exact iff_of_true rfl (.inl (by simpa using hfits))
  · exact iff_of_true rfl (.inr (.inl ⟨hlast.1, by simpa using hlast.2⟩))
  · rw [Option.map_eq_none_iff]
    constructor
    · exact fun h => .inr (.inr h)
    · rintro (h | ⟨hnil, h⟩ | h)
      · exact absurd h (by simpa using hfits)
      · exact absurd ⟨hnil, by simpa using h⟩ hlast
      · exact h

lemma growthOf_fresh_eq_none_iff (first : Segment) :
    growthOf (fresh first : Tree P G) (segment :: p) = none ↔
      (first.isIndex != segment.isIndex) = true := by
  rw [growthOf_cons_eq_none_iff (not_absent_of_fits (fits_fresh first)), own_fresh, fits_fresh_eq]
  have hfree := growthOf_ne_none_of_absent (t := (undef : Tree P G)) absent_undef p
  constructor
  · rintro (h | ⟨-, h⟩ | h)
    · rw [bne, h]
      rfl
    · cases h
    · exact absurd h hfree
  · intro h
    exact .inl (by simpa using h)

lemma growthOf_eq_none_iff_of_similar (h : Similar a b) : growthOf a p = none ↔ growthOf b p = none := by
  obtain rfl | ⟨ha, hb⟩ := h
  · rfl
  · rw [growthOf_of_absent ha hb]

lemma absent_eq_of_similar (h : Similar a b) : a.absent = b.absent := by
  obtain rfl | ⟨ha, hb⟩ := h
  · rfl
  · rw [ha, hb]

lemma growthOf_written_eq_none_iff {padLists : Bool} {w : Input P G} (h : Writable t k growth) (hp : p ≠ []) :
    growthOf (written padLists (input w) k t) p = none ↔ growthOf t p = none ∨ blocks w.present k p = true := by
  -- one container: what is left is the place that was assigned
  have hassign : ∀ {t child : Tree P G} {a : Segment} {k p : List Segment}, p ≠ [] →
      t.fits a = true →
      (∀ p', (p' = [] ∧ child.absent = false) ∨ growthOf child p' = none ↔
        ((p' = [] ∧ (own t a).absent = false) ∨ growthOf (own t a) p' = none) ∨
          blocks w.present k p' = true) →
      (growthOf (assign padLists t a child) p = none ↔
        growthOf t p = none ∨ blocks w.present (a :: k) p = true) := by
    intro t child a k p hp hfits hchild
    obtain ⟨b, p, rfl⟩ := exists_cons_of_ne_nil hp
    have hpresent := not_absent_of_fits hfits
    have hpresent' : (assign padLists t a child).absent = false :=
      not_absent_of_fits ((fits_assign hfits a).trans hfits)
    rw [growthOf_cons_eq_none_iff hpresent', growthOf_cons_eq_none_iff hpresent, fits_assign hfits b,
      blocks]
    by_cases hkind : a.isIndex = b.isIndex
    · by_cases hsame : b = a
      · obtain rfl := hsame
        rw [own_assign_same hfits, hchild p]
        simp [hfits]
      · -- another place of the container is as it was
        have hsimilar : Similar (own (assign padLists t a child) b) (own t b) :=
          own_assign_ne hfits hsame
        rw [absent_eq_of_similar hsimilar, growthOf_eq_none_iff_of_similar hsimilar]
        simp [hkind, Ne.symm hsame]
    · have hunfit : t.fits b = false := by
        match t, a, b, hfits, hkind with
        | .list _, .index _, .name _, _, _ | .dict _, .name _, .index _, _, _ => rfl
        | .list _, .index _, .index _, _, hkind | .dict _, .name _, .name _, _, hkind => exact absurd rfl hkind
      simp [hunfit]
  induction h generalizing p with
  | @last t segment hfits hfree =>
    refine hassign hp hfits fun p' => ?_
    have hbefore : ¬ ((p' = [] ∧ (own t segment).absent = false) ∨
        growthOf (own t segment) p' = none) := by
      rintro (⟨-, h⟩ | h)
      · exact Bool.noConfusion (hfree.symm.trans h)
      · exact growthOf_ne_none_of_absent hfree p' h
    rw [or_iff_right hbefore]
    -- a value leaves no room at its place or below it
    cases hw : (input w : Tree P G).absent with
    | true =>
      simp [blocks, Input.present, hw, growthOf_ne_none_of_absent hw p']
    | false =>
      refine iff_of_true ?_ (by simp [blocks, Input.present, hw])
      cases p' with
      | nil => exact .inl ⟨rfl, rfl⟩
      | cons other p' =>
        have hunfit : fits (input w : Tree P G) other = false := rfl
        exact .inr ((growthOf_cons_eq_none_iff hw).2 (.inl hunfit))
  | @step t segment following segments rest hfits hrest ih =>
    refine hassign hp hfits fun p' => ?_
    have hpresent : (written padLists (input w) (following :: segments)
        (enter t segment following)).absent = false := by
      cases hrest with
      | last hfits' hfree | step hfits' hrest' => exact not_absent_of_fits ((fits_assign hfits' _).trans hfits')
    cases p' with
    | nil =>
      exact iff_of_true (.inl ⟨rfl, hpresent⟩) (.inr rfl)
    | cons other p' =>
      have hcons : other :: p' ≠ [] := cons_ne_nil other p'
      have hnil : ¬ (other :: p' = []) := hcons
      simp only [hnil, false_and, false_or]
      apply (ih hcons).trans
      unfold enter
      split_ifs with habsent
      · -- a new container only turns the other kind away, which the written path does as well
        rw [growthOf_fresh_eq_none_iff, or_iff_right (growthOf_ne_none_of_absent habsent _)]
        constructor
        · rintro (hkind | hblocks)
          · rw [blocks, hkind]
            rfl
          · exact hblocks
        · exact .inr
      · rfl

end

variable [DecidableEq G] {options : UnflattenOptions P G} {store : Store P G}
  {flat : Record Key (Input P G)} {l l₁ l₂ : List Key} {key : Key} {problem : FlatKeyProblem}
  {s : Rebuild P G} {path : List Segment}

/-- The value that a key is written with. -/
def leafOf (options : UnflattenOptions P G) (flat : Record Key (Input P G)) (key : Key) : Input P G :=
  options.leaf ((flat.get? key).getD .undefined)

/-- A path that has no room beside the kept keys of a list: it starts with an index, or one of them
blocks it. -/
def Blocked (options : UnflattenOptions P G) (flat : Record Key (Input P G)) (l dropped : List Key)
    (path : List Segment) : Prop :=
  path.head?.any Segment.isIndex = true ∨
    ∃ key ∈ l, key ∉ dropped ∧ ∃ path', parseFlatKey key = .ok path' ∧
      blocks (leafOf options flat key).present path' path = true

lemma growthOf_foldl_eq_none_iff (hl : l.Nodup) :
    (l.foldl (stepKey options flat) (.start store)).value.absent = false ∧ ∀ path, path ≠ [] →
        ((l.foldl (stepKey options flat) (.start store)).value.growthOf path = none ↔
          Blocked options flat l (l.foldl (stepKey options flat) (.start store)).droppedKeys path) := by
  induction l using List.reverseRecOn with
  | nil =>
    refine ⟨rfl, fun path hpath => ?_⟩
    obtain ⟨segment, p, rfl⟩ := exists_cons_of_ne_nil hpath
    have hroot : ((Rebuild.start store).value : Tree P G) = fresh (.name []) := rfl
    rw [foldl_nil, hroot, growthOf_fresh_eq_none_iff]
    simp [Blocked, Segment.isIndex]
  | append_singleton l key ih =>
    obtain ⟨hl', -, hdisjoint⟩ := nodup_append.1 hl
    have hkey : key ∉ l := fun hmem => hdisjoint key hmem key (mem_singleton_self _) rfl
    obtain ⟨hpresent, hblocked⟩ := ih hl'
    have hsubset : ∀ k ∈ (l.foldl (stepKey options flat) (.start store)).droppedKeys, k ∈ l :=
      fun k hk => (mem_droppedKeys_foldl.2 hk).resolve_left not_mem_nil
    rw [foldl_append, foldl_cons, foldl_nil]
    generalize hs : l.foldl (stepKey options flat) (.start store) = s at hpresent hblocked hsubset ⊢
    unfold stepKey
    split
    next s' hok =>
      -- the key was written, and blocks what its path blocks
      obtain ⟨segments, growth, hparse, hwritable, -, rfl⟩ := attempt_ok hpresent hok
      refine ⟨not_absent_written hwritable, fun path hpath => ?_⟩
      apply (growthOf_written_eq_none_iff hwritable hpath).trans
      rw [hblocked path hpath]
      unfold Blocked
      rw [or_assoc]
      refine or_congr_right ⟨?_, ?_⟩
      · rintro (⟨k, hk, hrest⟩ | hblocks)
        · exact ⟨k, mem_append_left _ hk, hrest⟩
        · exact ⟨key, mem_append_right _ (mem_singleton_self _),
            fun hdropped => hkey (hsubset key hdropped), segments, hparse, hblocks⟩
      · rintro ⟨k, hk, hdropped, path', hparse', hblocks⟩
        obtain hk | hk := mem_append.1 hk
        · exact .inl ⟨k, hk, hdropped, path', hparse', hblocks⟩
        · obtain rfl := mem_singleton.1 hk
          cases hparse.symm.trans hparse'
          exact .inr hblocks
    next problem _ =>
      -- the key was left out, and blocks nothing
      refine ⟨hpresent, fun path hpath => (hblocked path hpath).trans ?_⟩
      have hdropped : ({ s with dropped := s.dropped ++ [⟨key, problem⟩] } : Rebuild P G).droppedKeys =
          s.droppedKeys ++ [key] := map_append
      rw [hdropped]
      refine or_congr_right ⟨?_, ?_⟩
      · rintro ⟨k, hk, hkept, hrest⟩
        refine ⟨k, mem_append_left _ hk, fun hmem => ?_, hrest⟩
        obtain hmem | hmem := mem_append.1 hmem
        · exact hkept hmem
        · exact hkey (mem_singleton.1 hmem ▸ hk)
      · rintro ⟨k, hk, hkept, hrest⟩
        obtain hk | hk := mem_append.1 hk
        · exact ⟨k, hk, fun hmem => hkept (mem_append_left _ hmem), hrest⟩
        · exact absurd (mem_append_right _ hk) hkept

lemma dropped_of_attempt {s' : Rebuild P G} {value : Input P G}
    (h : attempt options s key value = .ok s') : s'.dropped = s.dropped := by
  unfold attempt at h
  split at h
  next => cases h
  next =>
    split at h
    next => cases h
    next =>
      split_ifs at h
      rw [← Except.ok.inj h]

lemma mem_dropped_foldl_iff (hl : (l₁ ++ key :: l₂).Nodup) :
    (⟨key, problem⟩ : DroppedFlatKey) ∈
        ((l₁ ++ key :: l₂).foldl (stepKey options flat) (.start store)).dropped ↔
      attempt options (l₁.foldl (stepKey options flat) (.start store)) key
        ((flat.get? key).getD .undefined) = .error problem := by
  have hkeys : ∀ {l : List Key} {s : Rebuild P G}, key ∉ l → ((⟨key, problem⟩ : DroppedFlatKey) ∈
      (l.foldl (stepKey options flat) s).dropped ↔ (⟨key, problem⟩ : DroppedFlatKey) ∈ s.dropped) := by
    intro l
    induction l with
    | nil => exact fun _ => Iff.rfl
    | cons k l ih =>
      intro s hkey
      rw [foldl_cons, ih fun hmem => hkey (.tail _ hmem)]
      unfold stepKey
      split
      next s' hok =>
        rw [dropped_of_attempt hok]
      next problem' _ =>
        have hne : (⟨key, problem⟩ : DroppedFlatKey) ≠ ⟨k, problem'⟩ := fun heq =>
          hkey ((DroppedFlatKey.mk.inj heq).1 ▸ (.head _))
        simp [hne]
  obtain ⟨-, hnodup, hdisjoint⟩ := nodup_append.1 hl
  have hkey₁ : key ∉ l₁ := fun hmem => hdisjoint key hmem key (.head _) rfl
  have hkey₂ : key ∉ l₂ := (nodup_cons.1 hnodup).1
  rw [foldl_append, foldl_cons, hkeys hkey₂]
  have hbefore : (⟨key, problem⟩ : DroppedFlatKey) ∉
      (l₁.foldl (stepKey options flat) (.start store)).dropped := by
    rw [hkeys hkey₁]
    exact not_mem_nil
  generalize l₁.foldl (stepKey options flat) (.start store) = s at hbefore ⊢
  unfold stepKey
  split
  next s' hok =>
    rw [dropped_of_attempt hok]
    exact iff_of_false hbefore (by rw [hok]; exact fun h => by cases h)
  next problem' herror =>
    rw [herror, mem_append, mem_singleton, or_iff_right hbefore]
    simp [eq_comm]

lemma parseFlatKey_error (h : parseFlatKey key = .error problem) : problem ≠ .conflict ∧ problem ≠ .budget := by
  have hsegment : ∀ {m : Match}, segmentOf m = .error problem →
      problem ≠ .conflict ∧ problem ≠ .budget := by
    intro m h
    cases m with
    | name n | digits ds =>
      simp only [segmentOf] at h
      split_ifs at h
      rw [← Except.error.inj h]
      decide
  have hmatches : ∀ {matches' : List Match} {segments : List Segment},
      parseMatches segments matches' = .error problem → problem ≠ .conflict ∧ problem ≠ .budget := by
    intro matches'
    induction matches' with
    | nil => exact fun h => by cases h
    | cons m matches' ih =>
      intro segments h
      rw [parseMatches] at h
      split at h
      next p heq =>
        cases h
        exact hsegment heq
      next =>
        split_ifs at h
        · rw [← Except.error.inj h]
          decide
        · exact ih h
  unfold parseFlatKey at h
  split at h
  next p heq =>
    cases h
    exact hmatches heq
  next =>
    rw [← Except.error.inj h]
    decide
  next => cases h

lemma attempt_eq_error_iff (hparse : parseFlatKey key = .ok path) {value : Input P G} :
    attempt options s key value = .error problem ↔ (s.value.growthOf path = none ∧ problem = .conflict) ∨
        ∃ growth, s.value.growthOf path = some growth ∧ s.slots + growth > maxListSlots ∧ problem = .budget := by
  unfold attempt
  simp only [hparse]
  cases hgrowth : s.value.growthOf path with
  | none => simp [eq_comm]
  | some growth =>
    by_cases hbudget : s.slots + growth > maxListSlots
    · simp [hbudget, eq_comm]
    · simp [hbudget]

lemma problem_of_mem_dropped
    (hmem : (⟨key, problem⟩ : DroppedFlatKey) ∈ (unflattenFlatKeys options store flat).dropped)
    (hparse : parseFlatKey key = .ok path) : problem = .conflict ∨ problem = .budget := by
  have hsorted : key ∈ sortedKeys flat :=
    (mem_droppedKeys_foldl.2 (mem_map_of_mem hmem)).resolve_left not_mem_nil
  obtain ⟨l₁, l₂, hl⟩ := append_of_mem hsorted
  have hnodup := hl ▸ nodup_sortedKeys flat
  rw [unflattenFlatKeys, hl, mem_dropped_foldl_iff hnodup, attempt_eq_error_iff hparse] at hmem
  obtain ⟨-, hproblem⟩ | ⟨-, -, -, hproblem⟩ := hmem
  · exact .inl hproblem
  · exact .inr hproblem

lemma dropped_cases (hkey : key ∈ (unflattenFlatKeys options store flat).droppedKeys)
    (hparse : parseFlatKey key = .ok path) :
    (⟨key, .conflict⟩ : DroppedFlatKey) ∈ (unflattenFlatKeys options store flat).dropped ∨
      (⟨key, .budget⟩ : DroppedFlatKey) ∈ (unflattenFlatKeys options store flat).dropped := by
  obtain ⟨⟨k, problem⟩, hmem, rfl⟩ := mem_map.1 hkey
  obtain rfl | rfl := problem_of_mem_dropped hmem hparse
  · exact .inl hmem
  · exact .inr hmem

/-- A key is left out for a conflict exactly if its path starts with an index or is blocked by a key
that comes before it and was kept. -/
theorem mem_dropped_conflict_iff (hkey : key ∈ flat.keys) :
    (⟨key, .conflict⟩ : DroppedFlatKey) ∈ (unflattenFlatKeys options store flat).dropped ↔
      ∃ path, parseFlatKey key = .ok path ∧ (path.head?.any Segment.isIndex = true ∨ ∃ key' ∈ flat.keys, key' < key ∧
          key' ∉ (unflattenFlatKeys options store flat).droppedKeys ∧ ∃ path', parseFlatKey key' = .ok path' ∧
            blocks (leafOf options flat key').present path' path = true) := by
  obtain ⟨l₁, l₂, hl⟩ := append_of_mem (mem_sortedKeys.2 hkey)
  have hnodup := hl ▸ nodup_sortedKeys flat
  obtain ⟨hnodup₁, hnodup₂, hdisjoint⟩ := nodup_append.1 hnodup
  -- the keys before this one
  have hsorted : (sortedKeys flat).Pairwise (· ≤ ·) := pairwise_insertionSort _ _
  rw [hl, pairwise_append] at hsorted
  have hbefore : ∀ k, k ∈ l₁ ↔ k ∈ flat.keys ∧ k < key := by
    intro k
    rw [← mem_sortedKeys, hl, mem_append, mem_cons]
    constructor
    · intro hk
      have hne : k ≠ key := hdisjoint k hk key (.head _)
      exact ⟨.inl hk, lt_of_le_of_ne (hsorted.2.2 k hk key (.head _)) hne⟩
    · rintro ⟨hk | rfl | hk, hlt⟩
      · exact hk
      · exact absurd hlt (lt_irrefl k)
      · exact absurd ((pairwise_cons.1 hsorted.2.1).1 k hk) (not_le_of_gt hlt)
  -- what was left out before this key is what is left out of those keys in the end
  have hdropped : ∀ k ∈ l₁, k ∈ (l₁.foldl (stepKey options flat) (.start store)).droppedKeys ↔
      k ∈ (unflattenFlatKeys options store flat).droppedKeys := by
    intro k hk
    rw [unflattenFlatKeys, hl, foldl_append]
    refine ⟨mem_droppedKeys_foldl.1, fun hmem => ?_⟩
    exact (mem_droppedKeys_foldl.2 hmem).resolve_right fun hmem' => hdisjoint k hk k hmem' rfl
  obtain ⟨-, hblocked⟩ : (l₁.foldl (stepKey options flat) (.start store)).value.absent = false ∧ _ :=
    growthOf_foldl_eq_none_iff hnodup₁
  rw [unflattenFlatKeys, hl, mem_dropped_foldl_iff hnodup]
  constructor
  · intro herror
    cases hparse : parseFlatKey key with
    | error problem =>
      unfold attempt at herror
      rw [hparse] at herror
      exact absurd (Except.error.inj herror) (parseFlatKey_error hparse).1
    | ok path =>
      obtain ⟨hne, -, -⟩ := parseFlatKey_ok hparse
      obtain ⟨hgrowth, -⟩ | ⟨-, -, -, hproblem⟩ := (attempt_eq_error_iff hparse).1 herror
      · refine ⟨path, rfl, ((hblocked path hne).1 hgrowth).imp id ?_⟩
        rintro ⟨k, hk, hkept, hrest⟩
        obtain ⟨hmem, hlt⟩ := (hbefore k).1 hk
        refine ⟨k, hmem, hlt, fun h => hkept ((hdropped k hk).2 ?_), hrest⟩
        rw [unflattenFlatKeys, hl]
        exact h
      · cases hproblem
  · rintro ⟨path, hparse, h⟩
    obtain ⟨hne, -, -⟩ := parseFlatKey_ok hparse
    refine (attempt_eq_error_iff hparse).2 (.inl ⟨(hblocked path hne).2 (h.imp id ?_), rfl⟩)
    rintro ⟨k, hmem, hlt, hkept, hrest⟩
    have hk : k ∈ l₁ := (hbefore k).2 ⟨hmem, hlt⟩
    refine ⟨k, hk, fun h => hkept ?_, hrest⟩
    have h' := (hdropped k hk).1 h
    rw [unflattenFlatKeys, hl] at h'
    exact h'

end FlatKeys
