import Dethernety.FlatKeys.Conflict

/-!
# Keys in their plain form

Model of the plain form of `property-values.ts`: the form that the parts of a key rebuild to. The order
in which a rebuild takes plain keys agrees with their paths: a path comes before its extensions, and a
name before an index at the same place. So of two plain keys that conflict, the earlier one is of the
kind that `blocksLater` describes, and this relation is transitive: what blocks a key that would have
blocked a third blocks the third as well.
-/

open List Bool

namespace FlatKeys

/-- The text of a part that is not the first. -/
def plainPart : Segment → Key
  | .index i => openBracket :: ((Nat.toDigits 10 i).map Char.toNat ++ [closeBracket])
  | .name n => dot :: n

def plainKey : List Segment → Key
  | [] => []
  | .name n :: rest => n ++ rest.flatMap plainPart
  | .index i :: rest => (.index i :: rest).flatMap plainPart

/-- A key that is not one of `malformedFlatKeys`; one that cannot be read is never. -/
def PlainForm (key : Key) : Prop :=
  ∀ path, parseFlatKey key = .ok path → plainKey path = key

instance (key : Key) : Decidable (PlainForm key) :=
  match h : parseFlatKey key with
  | .ok path => decidable_of_iff (plainKey path = key)
      ⟨fun heq _ h' => Except.ok.inj (h.symm.trans h') ▸ heq, fun hplain => hplain path h⟩
  | .error _ => isTrue fun _ h' => by cases h.symm.trans h'

/-- A kept path blocks one whose plain form comes later: an extension of its value, or one with an
index where it has a name. -/
def blocksLater (present : Bool) : List Segment → List Segment → Bool
  | [], p => present && !p.isEmpty
  | _ :: _, [] => false
  | a :: k, b :: p => (!a.isIndex && b.isIndex) || (a == b && blocksLater present k p)

section

variable {present present' : Bool} {k p q : List Segment}

lemma blocks_of_blocksLater (h : blocksLater present k p = true) : blocks present k p = true := by
  induction k generalizing p with
  | nil => exact (and_eq_true_iff.1 h).1
  | cons a k ih =>
    cases p with
    | nil => rfl
    | cons b p =>
      rw [blocksLater, or_eq_true, and_eq_true_iff, and_eq_true_iff] at h
      rw [blocks, or_eq_true, and_eq_true_iff]
      refine h.imp (fun hkind => ?_) (And.imp_right ih)
      obtain ⟨ha, hb⟩ := hkind
      rw [hb]
      cases hindex : a.isIndex with
      | true =>
        rw [hindex] at ha
        cases ha
      | false => rfl

lemma blocksLater_trans (h : blocksLater present k p = true) (h' : blocksLater present' p q = true) :
    blocksLater present k q = true := by
  induction k generalizing p q with
  | nil =>
    obtain ⟨hpresent, hne⟩ := and_eq_true_iff.1 h
    rw [blocksLater, hpresent]
    cases p with
    | nil => cases hne
    | cons b p =>
      cases q with
      | nil => cases h'
      | cons c q => rfl
  | cons a k ih =>
    cases p with
    | nil => cases h
    | cons b p =>
      cases q with
      | nil => cases h'
      | cons c q =>
        rw [blocksLater, or_eq_true, and_eq_true_iff, and_eq_true_iff, beq_iff_eq] at h h' ⊢
        obtain ⟨ha, hb⟩ | ⟨rfl, hkp⟩ := h
        · obtain ⟨hb', -⟩ | ⟨rfl, -⟩ := h'
          · rw [hb] at hb'
            cases hb'
          · exact .inl ⟨ha, hb⟩
        · exact h'.imp id (And.imp_right (ih hkp))

lemma blocksLater_of_blocks (h : blocks present k p = true) :
    blocksLater present k p = true ∨ k = p ∨ blocksLater true p k = true := by
  induction k generalizing p with
  | nil =>
    cases p with
    | nil => exact .inr (.inl rfl)
    | cons b p =>
      left
      have hpresent : present = true := h
      rw [blocksLater, hpresent]
      rfl
  | cons a k ih =>
    cases p with
    | nil => exact .inr (.inr rfl)
    | cons b p =>
      rw [blocks, or_eq_true, and_eq_true_iff, beq_iff_eq] at h
      simp only [blocksLater, or_eq_true, and_eq_true_iff, beq_iff_eq]
      obtain hkind | ⟨rfl, hkp⟩ := h
      · cases ha : a.isIndex with
        | true =>
          cases hb : b.isIndex with
          | true =>
            rw [ha, hb] at hkind
            cases hkind
          | false => exact .inr (.inr (.inl ⟨rfl, rfl⟩))
        | false =>
          cases hb : b.isIndex with
          | true => exact .inl (.inl ⟨rfl, rfl⟩)
          | false =>
            rw [ha, hb] at hkind
            cases hkind
      · obtain h | rfl | h := ih hkp
        · exact .inl (.inr ⟨rfl, h⟩)
        · exact .inr (.inl rfl)
        · exact .inr (.inr (.inr ⟨rfl, h⟩))

end

variable {present : Bool} {k p : List Segment}

lemma append_lt_append_left (l : Key) {u v : Key} (h : u < v) : l ++ u < l ++ v := by
  induction l with
  | nil => exact h
  | cons a l ih => exact cons_lt_cons_iff.2 (.inr ⟨rfl, ih⟩)

lemma flatMap_plainPart_lt (h : blocksLater present k p = true) : k.flatMap plainPart < p.flatMap plainPart := by
  induction k generalizing p with
  | nil =>
    cases p with
    | nil => exact absurd (and_eq_true_iff.1 h).2 false_ne_true
    | cons b p =>
      cases b with
      | name n | index i => exact nil_lt_cons _ _
  | cons a k ih =>
    cases p with
    | nil => cases h
    | cons b p =>
      rw [blocksLater, or_eq_true, and_eq_true_iff, and_eq_true_iff, beq_iff_eq] at h
      obtain ⟨ha, hb⟩ | ⟨rfl, hkp⟩ := h
      · -- a dot comes before a bracket
        match a, b, ha, hb with
        | .name n, .index i, _, _ =>
          rw [flatMap_cons, flatMap_cons, plainPart, plainPart]
          exact cons_lt_cons_iff.2 (.inl (by decide))
      · rw [flatMap_cons, flatMap_cons]
        exact append_lt_append_left _ (ih hkp)

lemma plainKey_lt (hne : k ≠ []) (hk : k.head?.any Segment.isIndex = false)
    (hp : p.head?.any Segment.isIndex = false) (h : blocksLater present k p = true) : plainKey k < plainKey p := by
  match k, p, hne with
  | .name n :: k, .name m :: p, _ =>
    rw [blocksLater, or_eq_true, and_eq_true_iff, and_eq_true_iff, beq_iff_eq] at h
    obtain ⟨-, hindex⟩ | ⟨hsame, hkp⟩ := h
    · cases hindex
    · rw [plainKey, plainKey, Segment.name.inj hsame]
      exact append_lt_append_left _ (flatMap_plainPart_lt hkp)
  | .index i :: k, _, _ => cases hk
  | .name n :: k, .index i :: p, _ => cases hp
  | .name n :: k, [], _ => cases h

/-- Of two plain keys in order of which the first blocks the second. -/
theorem blocksLater_of_lt {key key' : Key} (hkey : PlainForm key) (hkey' : PlainForm key')
    (hparse : parseFlatKey key = .ok k) (hparse' : parseFlatKey key' = .ok p)
    (hk : k.head?.any Segment.isIndex = false) (hp : p.head?.any Segment.isIndex = false)
    (hlt : key < key') (h : blocks present k p = true) : blocksLater present k p = true := by
  obtain h | rfl | h := blocksLater_of_blocks h
  · exact h
  · rw [← hkey k hparse, ← hkey' k hparse'] at hlt
    exact absurd hlt (lt_irrefl _)
  · have hgt := plainKey_lt (parseFlatKey_ok hparse').1 hp hk h
    rw [hkey k hparse, hkey' p hparse'] at hgt
    exact absurd hgt (lt_asymm hlt)

end FlatKeys
