import Mathlib.Data.List.Infix

/-!
# What a save sends of an edit

`projectEdit` takes from an element the paths that an update names, once `deepMerge` has put the update into a copy of
it. Where the element has a list and the update an object, the merge keeps the list and the projection does not look
into it, so what the update names there is not sent; all else is (`saves_iff`).
-/

open List Option

namespace EditProjection

/-- A value of the script, over the scalars. A list has its items as fields. -/
inductive Value (S : Type)
  | undefined
  | scalar (s : S)
  | object (isList : Bool) (keys : List String) (fields : String → Value S)

namespace Value

variable {S : Type}

/-- `{}` -/
def empty : Value S := .object false [] fun _ => .undefined

def isObject : Value S → Bool
  | .object _ _ _ => true
  | _ => false

/-- `isPlainObject`, which is also the test of the merge -/
def isPlainObject : Value S → Bool
  | .object isList _ _ => !isList
  | _ => false

def own : Value S → String → Option (Value S)
  | .object _ keys fields, k => if k ∈ keys then some (fields k) else none
  | _, _ => none

def set : Value S → String → Value S → Value S
  | .object isList keys fields, k, v =>
    .object isList (if k ∈ keys then keys else keys ++ [k]) fun k' => if k' = k then v else fields k'
  | target, _, _ => target

def isReserved (key : String) : Bool :=
  key = "__proto__" || key = "constructor" || key = "prototype"

/-- The object that a merge goes on in: what is there already, be it a list. -/
def existing (target : Value S) (key : String) : Value S :=
  ((target.own key).filter isObject).getD empty

/-- `deepMerge`: the keys of the update are gone through one by one, and each changes its own field. -/
def deepMerge : Value S → Value S → Value S
  | .object isList keys fields, .object _ updated updates =>
    .object isList (keys ++ updated.filter fun k => k ∉ keys ∧ ¬ isReserved k) fun k =>
      if k ∈ updated ∧ ¬ isReserved k then
        if (updates k).isPlainObject then
          deepMerge (existing (.object isList keys fields) k) (updates k)
        else updates k
      else fields k
  | target, _ => target

def editPaths : Value S → List (List String)
  | .object false keys fields =>
    keys.flatMap fun k =>
      if (fields k).isPlainObject then (editPaths (fields k)).map (k :: ·) else [[k]]
  | _ => []

/-- What `projectEdit` reads along a path. -/
def readPath : Value S → List String → Option (Value S)
  | v, [] => some v
  | v, segment :: path =>
    if v.isPlainObject then (v.own segment).bind (readPath · path) else none

/-- The branch that `projectEdit` writes into, which it makes when none is there. -/
def branch (v : Value S) (segment : String) : Value S :=
  ((v.own segment).filter isPlainObject).getD empty

def writePath : Value S → List String → Value S → Value S
  | _, [], read => read
  | v, segment :: path, read => v.set segment (writePath (v.branch segment) path read)

def projectEdit (source updates : Value S) : Value S :=
  (editPaths updates).foldl
    (fun projected path => ((source.readPath path).map (projected.writePath path)).getD projected)
    (if source.isPlainObject then ((source.own "id").map (empty.set "id")).getD empty else empty)

/-- What a value has at a path that ends there. -/
def leaf? (v : Value S) (path : List String) : Option (Value S) :=
  (v.readPath path).filter fun w => !w.isPlainObject

/-- An update has no key that a merge leaves out. -/
def Unreserved : Value S → Prop
  | .object _ keys fields => ∀ k ∈ keys, isReserved k = false ∧ Unreserved (fields k)
  | _ => True

/-- A path leads into a list. -/
def entersList : Value S → List String → Bool
  | _, [] => false
  | v, segment :: path => !v.isPlainObject || entersList (v.existing segment) path

end Value

open Value

variable {S : Type} {e u v w b : Value S} {k : String} {p q : List String}

/-- What a save sends of an element. -/
def sent (e u : Value S) : Value S :=
  (e.deepMerge u).projectEdit u

/-! ## Reading and writing -/

lemma isPlainObject_iff : v.isPlainObject = true ↔ ∃ keys fields, v = .object false keys fields := by
  cases v with
  | object isList => cases isList <;> simp [isPlainObject]
  | undefined | scalar => simp [isPlainObject]

lemma isObject_of_isPlainObject (hv : v.isPlainObject = true) : v.isObject = true := by
  obtain ⟨keys, fields, rfl⟩ := isPlainObject_iff.1 hv
  rfl

lemma leaf?_nil (hv : v.isPlainObject = true) : leaf? v [] = none := by
  simp [leaf?, readPath, hv]

lemma leaf?_cons (hv : v.isPlainObject = true) : leaf? v (k :: p) = (v.own k).bind (leaf? · p) := by
  simp only [leaf?, readPath, hv, if_true]
  cases v.own k <;> rfl

lemma leaf?_of_not_plain (hv : v.isPlainObject = false) : leaf? v p = if p = [] then some v else none := by
  cases p <;> simp [leaf?, readPath, hv]

lemma own_set (hv : v.isPlainObject = true) (k' : String) :
    (v.set k w).own k' = if k' = k then some w else v.own k' := by
  obtain ⟨keys, fields, rfl⟩ := isPlainObject_iff.1 hv
  by_cases hk : k' = k
  · subst hk
    by_cases hmem : k' ∈ keys <;> simp [Value.set, own, hmem]
  · by_cases hmem : k ∈ keys <;> simp [Value.set, own, hmem, hk]

lemma isPlainObject_set (hv : v.isPlainObject = true) : (v.set k w).isPlainObject = true := by
  obtain ⟨keys, fields, rfl⟩ := isPlainObject_iff.1 hv
  rfl

lemma leaf?_branch (hp : p ≠ []) : leaf? (v.branch k) p = (v.own k).bind (leaf? · p) := by
  unfold branch
  obtain ⟨k', p, rfl⟩ := exists_cons_of_ne_nil hp
  cases v.own k with
  | none => rfl
  | some w =>
    cases hw : w.isPlainObject with
    | true => simp [Option.filter, hw]
    | false =>
      simp [Option.filter, hw, leaf?_of_not_plain hw]
      rfl

lemma isPlainObject_branch : (v.branch k).isPlainObject = true := by
  unfold branch
  cases h : (v.own k).filter isPlainObject with
  | none => rfl
  | some w => exact (filter_eq_some_iff.1 h).2

def Apart (p q : List String) : Prop :=
  ¬ p <+: q ∧ ¬ q <+: p

lemma leaf?_writePath (hb : b.isPlainObject = true) (hv : v.isPlainObject = false) (hp : p ≠ []) :
    leaf? (b.writePath p v) q = some w ↔ q = p ∧ w = v ∨ Apart p q ∧ leaf? b q = some w := by
  induction p generalizing b q with
  | nil => exact absurd rfl hp
  | cons k p ih =>
    rw [writePath]
    cases q with
    | nil => simp [leaf?_nil (isPlainObject_set hb), Apart]
    | cons k' q =>
      rw [leaf?_cons (isPlainObject_set hb), own_set hb, leaf?_cons hb]
      by_cases hk : k' = k
      · subst hk
        rw [if_pos rfl, bind_some]
        cases p with
        | nil => simp [writePath, leaf?_of_not_plain hv, Apart, eq_comm]
        | cons k p =>
          rw [ih isPlainObject_branch (cons_ne_nil _ _)]
          cases q with
          | nil => simp [Apart]
          | cons => simp [leaf?_branch, Apart]
      · simp [hk, Apart, Ne.symm hk]

/-! ## The paths of an update in what was merged -/

lemma mem_editPaths (hu : u.isPlainObject = true) : p ∈ editPaths u ↔ ∃ v, leaf? u p = some v := by
  induction u generalizing p with
  | undefined | scalar => cases hu
  | object isList keys fields ih =>
    obtain ⟨keys, fields, heq⟩ := isPlainObject_iff.1 hu
    cases heq
    simp only [editPaths, mem_flatMap]
    cases p with
    | nil =>
      simp only [leaf?_nil hu, reduceCtorEq, exists_false, iff_false]
      rintro ⟨k, -, hp⟩
      split_ifs at hp <;> simp at hp
    | cons k p =>
      have hmem : ∀ k', (k :: p ∈ if (fields k').isPlainObject then (editPaths (fields k')).map (k' :: ·)
          else [[k']]) ↔ k' = k ∧ ∃ v, leaf? (fields k') p = some v := by
        intro k'
        split_ifs with hplain
        · simp [ih k' hplain, and_comm]
        · rw [Bool.not_eq_true] at hplain
          simp [leaf?_of_not_plain hplain, eq_comm]
      simp only [hmem, leaf?_cons hu, own]
      by_cases hk : k ∈ keys
      · simp [hk]
      · simp only [hk, if_false, bind_none, reduceCtorEq, exists_false, iff_false]
        rintro ⟨k', hk', rfl, -⟩
        exact hk hk'

lemma own_deepMerge_of_some (he : e.isObject = true) (hreserved : u.Unreserved) (h : u.own k = some w) :
    (e.deepMerge u).own k = some (if w.isPlainObject then (e.existing k).deepMerge w else w) := by
  cases u with
  | undefined | scalar => cases h
  | object =>
    cases e with
    | undefined | scalar => cases he
    | object =>
      simp only [own] at h
      split_ifs at h with hk
      cases h
      simp [deepMerge, own, hk, (hreserved k hk).1]

lemma own_deepMerge_of_none (h : u.own k = none) : (e.deepMerge u).own k = e.own k := by
  cases u with
  | undefined | scalar => cases e <;> rfl
  | object _ updated updates =>
    cases e with
    | undefined | scalar => rfl
    | object =>
      have hk : k ∉ updated := by
        intro hk
        simp [own, hk] at h
      simp [deepMerge, own, hk]

lemma isPlainObject_deepMerge : (e.deepMerge u).isPlainObject = e.isPlainObject := by
  cases e <;> cases u <;> rfl

lemma isObject_existing : (e.existing k).isObject = true := by
  unfold existing
  cases h : (e.own k).filter isObject with
  | none => rfl
  | some w => exact (filter_eq_some_iff.1 h).2

lemma Value.Unreserved.of_own (h : u.Unreserved) (hw : u.own k = some w) : w.Unreserved := by
  cases u with
  | undefined | scalar => cases hw
  | object =>
    simp only [own] at hw
    split_ifs at hw with hk
    cases hw
    exact (h k hk).2

/-- A leaf of the update is read in what was merged, unless its path leads into a list. -/
lemma readPath_deepMerge (he : e.isObject = true) (hu : u.isPlainObject = true) (hreserved : u.Unreserved)
    (hv : leaf? u p = some v) : (e.deepMerge u).readPath p = if entersList e p then none else some v := by
  induction p generalizing e u with
  | nil => simp [leaf?_nil hu] at hv
  | cons k p ih =>
    rw [leaf?_cons hu] at hv
    obtain ⟨w, hw, hv⟩ := bind_eq_some_iff.1 hv
    rw [readPath, isPlainObject_deepMerge, entersList]
    cases hplain : e.isPlainObject with
    | false => rfl
    | true =>
      rw [if_pos rfl, own_deepMerge_of_some he hreserved hw, bind_some]
      cases hwplain : w.isPlainObject with
      | true => simpa using ih isObject_existing hwplain (hreserved.of_own hw) hv
      | false =>
        rw [leaf?_of_not_plain hwplain] at hv
        split_ifs at hv with hp
        cases hv
        subst hp
        rfl

/-! ## What is sent -/

lemma apart_of_leaf? (hp : leaf? u p = some v) (hq : leaf? u q = some w) (hne : p ≠ q) : Apart p q := by
  induction p generalizing u q with
  | nil =>
    cases hu : u.isPlainObject with
    | true => simp [leaf?_nil hu] at hp
    | false =>
      rw [leaf?_of_not_plain hu] at hq
      split_ifs at hq with hnil
      exact absurd hnil.symm hne
  | cons k p ih =>
    cases hu : u.isPlainObject with
    | true =>
      cases q with
      | nil => simp [leaf?_nil hu] at hq
      | cons k' q =>
        rw [leaf?_cons hu] at hp hq
        obtain ⟨w, hw, hp⟩ := bind_eq_some_iff.1 hp
        obtain ⟨w', hw', hq⟩ := bind_eq_some_iff.1 hq
        by_cases hk : k = k'
        · subst hk
          cases hw.symm.trans hw'
          simpa [Apart] using ih hp hq fun h => hne (h ▸ rfl)
        · simp [Apart, hk, Ne.symm hk]
    | false => simp [leaf?_of_not_plain hu] at hp

lemma not_plain_of_leaf? (h : leaf? u p = some v) : v.isPlainObject = false := by
  simpa using (filter_eq_some_iff.1 h).2

/-- What the loop has written: each path that it could read, and what was there before beside them. -/
lemma leaf?_foldl {src : Value S} {l : List (List String)} (hu : u.isPlainObject = true)
    (hsrc : ∀ p ∈ l, ∃ v, leaf? u p = some v ∧ ∀ w, src.readPath p = some w → w = v) (hb : b.isPlainObject = true) :
    leaf? (l.foldl (fun b p => ((src.readPath p).map (b.writePath p)).getD b) b) q = some w ↔
      q ∈ l ∧ src.readPath q = some w ∨ leaf? b q = some w ∧ ∀ p ∈ l, (src.readPath p).isSome → Apart p q := by
  induction l generalizing b with
  | nil => simp
  | cons p l ih =>
    have hsrc' := fun p hp => hsrc p (mem_cons_of_mem _ hp)
    obtain ⟨v, hv, hread⟩ := hsrc p (mem_cons_self ..)
    rw [foldl_cons]
    cases hp : src.readPath p with
    | none =>
      simp only [map_none, getD_none]
      rw [ih hsrc' hb]
      grind
    | some w =>
      cases hread w hp
      have hne : p ≠ [] := by
        rintro rfl
        simp [leaf?_nil hu] at hv
      have hplain : (b.writePath p v).isPlainObject = true := by
        obtain ⟨k, p, rfl⟩ := exists_cons_of_ne_nil hne
        exact isPlainObject_set hb
      simp only [map_some, getD_some]
      rw [ih hsrc' hplain, leaf?_writePath hb (not_plain_of_leaf? hv) hne]
      have hapart : ∀ p' ∈ l, p' ≠ p → Apart p' p := fun p' hp' hne' =>
        have ⟨_, hv', _⟩ := hsrc' p' hp'
        apart_of_leaf? hv' hv hne'
      grind

/-- An element, which has an id. -/
structure Element (S : Type) where
  value : Value S
  id : S
  isPlainObject : value.isPlainObject = true
  own_id : value.own "id" = some (.scalar id)

/-- An update, without the keys that a merge leaves out. -/
structure Update (S : Type) where
  value : Value S
  isPlainObject : value.isPlainObject = true
  unreserved : value.Unreserved

variable {e e' : Element S} {u u' : Update S}

/-- A save sends the id, what the update names with the values that it has there, and nothing else. -/
structure SendsEdit (e : Element S) (u : Update S) : Prop where
  id : leaf? (sent e.value u.value) ["id"] = some (.scalar e.id)
  named : ∀ p v, leaf? u.value p = some v → leaf? (sent e.value u.value) p = some v
  only : ∀ p v, leaf? (sent e.value u.value) p = some v → p = ["id"] ∨ leaf? u.value p = some v

/-- What an update names is not in a list of the element, and it does not change the id. -/
structure Fits (e : Element S) (u : Update S) : Prop where
  outside : ∀ p v, leaf? u.value p = some v → entersList e.value p = false
  id : ∀ v, u.value.own "id" = some v → v = .scalar e.id

/-- What is sent is written to the fields on the server, and the rest is left alone. -/
def write (state : List String → Option (Value S)) (sent : Value S) (p : List String) : Option (Value S) :=
  (leaf? sent p).or (state p)

/-- Both edits are there in the end, and nothing else has changed. -/
def BothPresent (e e' : Element S) (u u' : Update S) : Prop :=
  ∀ state p, state ["id"] = some (.scalar e.id) →
    write (write state (sent e.value u.value)) (sent e'.value u'.value) p =
      ((leaf? u.value p).or (leaf? u'.value p)).or (state p)

/-- The id that the projection starts from: what was merged has it. -/
def mergedId (e : Element S) (u : Update S) : Value S :=
  match u.value.own "id" with
  | some w => if w.isPlainObject then (e.value.existing "id").deepMerge w else w
  | none => .scalar e.id

lemma own_id_deepMerge : (e.value.deepMerge u.value).own "id" = some (mergedId e u) := by
  unfold mergedId
  cases hid : u.value.own "id" with
  | none => exact (own_deepMerge_of_none hid).trans e.own_id
  | some w => exact own_deepMerge_of_some (isObject_of_isPlainObject e.isPlainObject) u.unreserved hid

lemma leaf?_sent : leaf? (sent e.value u.value) q = some w ↔
    leaf? u.value q = some w ∧ entersList e.value q = false ∨
      leaf? (empty.set "id" (mergedId e u)) q = some w ∧
        ∀ p v, leaf? u.value p = some v → entersList e.value p = false → Apart p q := by
  have hread : ∀ {p v}, leaf? u.value p = some v → _ :=
    readPath_deepMerge (isObject_of_isPlainObject e.isPlainObject) u.isPlainObject u.unreserved
  unfold sent projectEdit
  rw [isPlainObject_deepMerge, if_pos e.isPlainObject, own_id_deepMerge, map_some, getD_some,
    leaf?_foldl u.isPlainObject (fun p hp => ?_) (isPlainObject_set rfl)]
  · simp only [mem_editPaths u.isPlainObject]
    grind
  · obtain ⟨v, hv⟩ := (mem_editPaths u.isPlainObject).1 hp
    refine ⟨v, hv, fun w hw => ?_⟩
    rw [hread hv] at hw
    split_ifs at hw
    exact (Option.some.inj hw).symm

lemma exists_of_leaf?_set_empty (h : leaf? (empty.set k v) q = some w) : ∃ p, q = k :: p ∧ leaf? v p = some w := by
  cases q with
  | nil => simp [leaf?_nil (isPlainObject_set (v := (empty : Value S)) rfl)] at h
  | cons k' p =>
    rw [leaf?_cons (isPlainObject_set rfl), own_set rfl] at h
    split_ifs at h with hk
    · exact ⟨p, hk ▸ rfl, h⟩
    · cases h

lemma leaf?_id (h : u.value.own "id" = some w) (hw : w.isPlainObject = false) : leaf? u.value ["id"] = some w := by
  rw [leaf?_cons u.isPlainObject, h, bind_some, leaf?_of_not_plain hw, if_pos rfl]

lemma fits_of_sendsEdit (h : SendsEdit e u) : Fits e u := by
  have hid : ∀ v, u.value.own "id" = some v → v = .scalar e.id := by
    intro v hv
    cases hplain : v.isPlainObject with
    | true =>
      -- the projection starts from an object in place of the id
      have hmerged : (mergedId e u).isPlainObject = true := by
        unfold mergedId
        simp [hv, hplain, isPlainObject_deepMerge, existing, e.own_id, isObject, Option.filter]
        rfl
      rcases leaf?_sent.1 h.id with ⟨hleaf, -⟩ | ⟨hleaf, -⟩
      · simp [leaf?_cons u.isPlainObject, hv, leaf?_nil hplain] at hleaf
      · obtain ⟨p, hp, hleaf⟩ := exists_of_leaf?_set_empty hleaf
        cases hp
        simp [leaf?_nil hmerged] at hleaf
    | false => exact Option.some.inj ((h.named _ _ (leaf?_id hv hplain)).symm.trans h.id)
  refine ⟨fun p v hp => ?_, hid⟩
  rcases leaf?_sent.1 (h.named p v hp) with ⟨-, hout⟩ | ⟨hleaf, -⟩
  · exact hout
  · obtain ⟨q, rfl, -⟩ := exists_of_leaf?_set_empty hleaf
    rw [leaf?_cons u.isPlainObject] at hp
    obtain ⟨w, hw, hp⟩ := bind_eq_some_iff.1 hp
    rw [hid w hw, leaf?_of_not_plain rfl] at hp
    split_ifs at hp with hq
    rw [hq, entersList, e.isPlainObject]
    rfl

lemma Fits.sendsEdit (h : Fits e u) : SendsEdit e u := by
  have hmerged : mergedId e u = .scalar e.id := by
    unfold mergedId
    cases hid : u.value.own "id" with
    | none => rfl
    | some w => rw [h.id w hid]; rfl
  refine ⟨?_, fun p v hp => leaf?_sent.2 (.inl ⟨hp, h.outside p v hp⟩), fun p v hp => ?_⟩
  · cases hid : u.value.own "id" with
    | none =>
      refine leaf?_sent.2 (.inr ⟨by rw [hmerged]; rfl, fun p v hp _ => ?_⟩)
      cases p with
      | nil => simp [leaf?_nil u.isPlainObject] at hp
      | cons k p =>
        have hk : k ≠ "id" := by
          rintro rfl
          simp [leaf?_cons u.isPlainObject, hid] at hp
        simp [Apart, hk, hk.symm]
    | some w =>
      cases h.id w hid
      exact leaf?_sent.2 (.inl ⟨leaf?_id hid rfl, h.outside _ _ (leaf?_id hid rfl)⟩)
  · rcases leaf?_sent.1 hp with ⟨hleaf, -⟩ | ⟨hleaf, -⟩
    · exact .inr hleaf
    · obtain ⟨q, rfl, hq⟩ := exists_of_leaf?_set_empty hleaf
      rw [hmerged, leaf?_of_not_plain rfl] at hq
      split_ifs at hq with hnil
      exact .inl (hnil ▸ rfl)

lemma bothPresent (h : SendsEdit e u) (h' : SendsEdit e' u') (hid : e'.id = e.id)
    (hdisjoint : ∀ p v, leaf? u.value p = some v → leaf? u'.value p = none) : BothPresent e e' u u' := by
  intro state p hstate
  have hside : ∀ {e : Element S} {u : Update S}, SendsEdit e u → p ≠ ["id"] →
      leaf? (sent e.value u.value) p = leaf? u.value p := fun h hp =>
    Option.ext fun v => ⟨fun hv => (h.only p v hv).resolve_left hp, h.named p v⟩
  unfold write
  by_cases hp : p = ["id"]
  · subst hp
    have hold : ∀ {e : Element S} {u : Update S}, SendsEdit e u → ∀ v, leaf? u.value ["id"] = some v →
        v = .scalar e.id := fun h v hv => Option.some.inj ((h.named _ v hv).symm.trans h.id)
    rw [h'.id, hid, hstate]
    cases hu : leaf? u.value ["id"] with
    | some v => rw [hold h v hu]; rfl
    | none =>
      cases hu' : leaf? u'.value ["id"] with
      | some v => rw [hold h' v hu', hid]; rfl
      | none => rfl
  · rw [hside h hp, hside h' hp]
    cases hu : leaf? u.value p with
    | some v => rw [hdisjoint p v hu]; rfl
    | none => rfl

/-- Two clients with edits of different fields send what the edits name, and both edits are there in the end, exactly
when each update fits the copy that it is merged into. -/
theorem saves_iff (hid : e'.id = e.id) (hdisjoint : ∀ p v, leaf? u.value p = some v → leaf? u'.value p = none) :
    (SendsEdit e u ∧ SendsEdit e' u' ∧ BothPresent e e' u u' ∧ BothPresent e' e u' u) ↔ Fits e u ∧ Fits e' u' := by
  have hdisjoint' : ∀ p v, leaf? u'.value p = some v → leaf? u.value p = none := fun p v hv => by
    cases hu : leaf? u.value p with
    | none => rfl
    | some w => exact absurd ((hdisjoint p w hu).symm.trans hv) nofun
  constructor
  · rintro ⟨h, h', -, -⟩
    exact ⟨fits_of_sendsEdit h, fits_of_sendsEdit h'⟩
  · rintro ⟨h, h'⟩
    refine ⟨h.sendsEdit, h'.sendsEdit, bothPresent h.sendsEdit h'.sendsEdit hid hdisjoint, ?_⟩
    exact bothPresent h'.sendsEdit h.sendsEdit hid.symm hdisjoint'

/-- An element with a list. -/
def listed : Element ℕ :=
  ⟨.object false ["id", "data"] fun k => if k = "id" then .scalar 0 else .object true [] fun _ => .undefined, 0,
    rfl, rfl⟩

def field (key : String) (v : Value ℕ) : Value ℕ :=
  .object false [key] fun _ => v

def flat (key : String) (h : isReserved key = false) : Update ℕ :=
  ⟨field key (.scalar 1), rfl, by simpa [field, Unreserved] using h⟩

lemma leaf?_flat {key : String} {h : isReserved key = false} {v : Value ℕ}
    (hv : leaf? (flat key h).value p = some v) : p = [key] := by
  simpa [flat, field, editPaths, Value.isPlainObject] using (mem_editPaths (flat key h).isPlainObject).2 ⟨v, hv⟩

/-- Edits of two fields, one of them the list. -/
theorem saves_flat : SendsEdit listed (flat "data" rfl) ∧ SendsEdit listed (flat "zone" rfl) ∧
    BothPresent listed listed (flat "data" rfl) (flat "zone" rfl) ∧
      BothPresent listed listed (flat "zone" rfl) (flat "data" rfl) := by
  refine (saves_iff rfl fun p v hp => ?_).2 ⟨⟨fun p v hp => ?_, nofun⟩, fun p v hp => ?_, nofun⟩
  · rw [leaf?_flat hp]
    rfl
  all_goals
    rw [leaf?_flat hp]
    rfl

/-- An object for the list. -/
def nested : Update ℕ :=
  ⟨field "data" (field "zone" (.scalar 1)), rfl, by simp [field, Unreserved, isReserved]⟩

theorem not_sendsEdit_nested : ¬ SendsEdit listed nested := by
  intro h
  have hnone : (leaf? (sent listed.value nested.value) ["data", "zone"]).isSome = false := by decide +kernel
  rw [h.named _ (.scalar 1) rfl] at hnone
  cases hnone

end EditProjection
