import Dethernety.FlatKeys.RequestShapes

/-!
# Stale dispositions

Model of the attribute write of `setAttributes` (statements 0 to 2) on an element with a single binding.
Two tests decide together whether the dispositions go stale: the comparison by keys of statement 1, and
`changesAnswers`, which runs for a request that writes a value. Stored values are not `null`; Cypher's
`=` on primitives and lists of primitives is equality. The flag that `reconcileLinks` sets in the findings write
is left out.
-/

open List Record

namespace Staleness

open FlatKeys

variable {P : Type}

/-- A property value: a primitive or a list of primitives. -/
abbrev Value (P : Type) := Input P (List P)

abbrev Bag (P : Type) := Record Key (Value P)

/-- The contents of a list value. -/
def contents : Store P (List P) :=
  fun elements => .list (elements.map fun p => .input (.prim p))

/-- What `JSON.stringify` writes, without the punctuation that the kinds of tokens stand for. -/
inductive Token (P : Type)
  | null
  | prim (p : P)
  | openList
  | closeList
  | openObject
  | key (k : Key)
  | closeObject
  deriving DecidableEq

mutual

/-- `JSON.stringify` with the keys sorted at every level; `undefined` has no text. -/
def stringify : Tree P (List P) → Option (List (Token P))
  | .input .undefined => none
  | .input .null => some [.null]
  | .input (.prim p) => some [.prim p]
  | .input (.object elements) => some (.openList :: elements.map .prim ++ [.closeList])
  | .list slots => some (.openList :: slotTexts slots ++ [.closeList])
  | .dict entries =>
    let sorted := (entryTexts entries).insertionSort (·.1 ≤ ·.1)
    some (.openObject :: sorted.flatMap (fun e => .key e.1 :: e.2) ++ [.closeObject])

/-- A list writes `null` for `undefined`. -/
def slotTexts : List (Tree P (List P)) → List (Token P)
  | [] => []
  | t :: slots => (stringify t).getD [.null] ++ slotTexts slots

/-- An object leaves `undefined` out. -/
def entryTexts : List (Key × Tree P (List P)) → List (Key × List (Token P))
  | [] => []
  | e :: entries => (entryText e).toList ++ entryTexts entries

def entryText : Key × Tree P (List P) → Option (Key × List (Token P))
  | (k, t) => (stringify t).map (k, ·)

end

section

variable [DecidableEq P]

/-- `coerceNeoInt` on a value, given what it does with a primitive. -/
def coerceLeaf (coerceNeoInt : P → P) : Value P → Value P
  | .prim p => .prim (coerceNeoInt p)
  | .object elements => .object (elements.map coerceNeoInt)
  | value => value

/-- The answers as the policies read them, in `changesAnswers`. -/
def rebuilt (coerceNeoInt : P → P) (flat : Bag P) : Option (List (Token P)) :=
  stringify (unflattenFlatKeys { padLists := false, leaf := coerceLeaf coerceNeoInt } contents flat).value

def changesAnswers (coerceNeoInt : P → P) (stored request : Bag P) : Bool :=
  rebuilt coerceNeoInt stored ≠ rebuilt coerceNeoInt (mergeAttributes stored request)

def changedKeys (priorAttrs newAttrs : Bag P) : List Key :=
  newAttrs.keys.filter fun k =>
    let prior := (priorAttrs.get? k).getD .null
    let new := (newAttrs.get? k).getD .null
    !priorAttrs.keys.contains k || (!prior.present && new.present) || (prior.present && !new.present) ||
      (prior.present && new.present && prior ≠ new)

/-- An exposure or a countermeasure of the element. -/
structure Finding where
  dispositionKind : Option String
  dispositionStale : Option Bool
  deriving DecidableEq

/-- A finding that statement 2 matches. -/
def Finding.flips (f : Finding) : Bool :=
  f.dispositionKind.isSome && !f.dispositionStale.getD false

def Finding.flip (f : Finding) : Finding :=
  if f.flips then { f with dispositionStale := some true } else f

structure Element (P : Type) where
  /-- `properties(r)` of the binding -/
  attributes : Bag P
  findings : List Finding

/-- What the transaction of `setAttributes` writes and returns. -/
structure Written (P : Type) where
  element : Element P
  valueChanged : Bool
  changedKeys : List Key
  staleFlippedCount : ℕ

/-- Statements 1 and 2, given the attributes to write and what statement 0 said of the answers. -/
def writeAttributes (element : Element P) (attributes : Bag P) (answersChange : Bool) : Written P :=
  let changed := changedKeys element.attributes attributes
  let valueChanged := !changed.isEmpty && answersChange
  { element :=
      { -- `SET r += newAttrs`: a value replaces, `null` removes
        attributes := mergeAttributes element.attributes attributes
        findings := if valueChanged then element.findings.map Finding.flip else element.findings }
    valueChanged
    changedKeys := changed
    staleFlippedCount := if valueChanged then element.findings.countP Finding.flips else 0 }

/-- The transaction of `setAttributes`; a refused request fails before it writes. -/
def setAttributes (coerceNeoInt : P → P) (element : Element P) (request : Bag P) :
    Except (List DroppedFlatKey) (Written P) :=
  if requestWrites request then
    let attributes := withRequestShapes element.attributes request
    let refused := flatKeysRefusedByMerge contents element.attributes attributes
    if !refused.isEmpty then .error refused
    else .ok (writeAttributes element attributes (changesAnswers coerceNeoInt element.attributes attributes))
  else .ok (writeAttributes element request true)

end

section

variable [DecidableEq P] {coerceNeoInt : P → P} {stored request : Bag P}

/-- Whatever the findings of the element are, a save of the request flips exactly if it changes the
answers. -/
def FlipsExactly (coerceNeoInt : P → P) (stored request : Bag P) : Prop :=
  ∀ findings written, setAttributes coerceNeoInt ⟨stored, findings⟩ request = .ok written →
    written.element.findings =
      if rebuilt coerceNeoInt stored ≠ rebuilt coerceNeoInt written.element.attributes then
        findings.map Finding.flip
      else findings

section

variable (hstored : ∀ k v, stored.get? k = some v → v.present = true)
include hstored

lemma sameEntries_of_changedKeys
    (h : changedKeys stored request = []) : stored.SameEntries (mergeAttributes stored request) := by
  intro k
  rw [get?_mergeAttributes]
  cases hrequest : request.get? k with
  | none => rfl
  | some new =>
    have hk := filter_eq_nil_iff.1 h k (mem_keys_of_get? hrequest)
    simp only [hrequest, Option.getD_some, Bool.or_eq_true, Bool.and_eq_true, Bool.not_eq_true',
      decide_eq_true_eq, not_or, not_and, not_not, Bool.not_eq_false, contains_iff_mem] at hk
    obtain ⟨⟨⟨hkey, -⟩, hremoved⟩, hequal⟩ := hk
    obtain ⟨prior, hprior⟩ := Option.isSome_iff_exists.1 (mem_keys_iff.1 hkey)
    have hpresent := hstored k prior hprior
    rw [hprior, Option.getD_some] at hremoved hequal
    have hnew : new.present = true := hremoved hpresent
    rw [hprior, hequal ⟨hpresent, hnew⟩]
    simp [hnew]

lemma changedKeys_ne_nil
    (h : changesAnswers coerceNeoInt stored request = true) : changedKeys stored request ≠ [] := by
  intro hnil
  have hsame := sameEntries_of_changedKeys hstored hnil
  rw [changesAnswers, decide_eq_true_eq] at h
  refine h ?_
  rw [rebuilt, rebuilt, unflattenFlatKeys_eq_of_sameEntries _ _ hsame]

/-- To a request that writes no value, every key that it names is a change, also one that is not
stored. -/
lemma changedKeys_of_clears
    (h : requestWrites request = false) : changedKeys stored request = request.keys := by
  refine filter_eq_self.2 fun k hk => ?_
  obtain ⟨new, hnew⟩ := Option.isSome_iff_exists.1 (mem_keys_iff.1 hk)
  have hcleared : new.present = false :=
    Bool.eq_false_iff.2 (any_eq_false.1 h (k, new) (mem_entries_iff.2 hnew))
  cases hprior : stored.get? k with
  | none => simp [mem_keys_iff, hprior]
  | some prior => simp [hnew, hcleared, hstored k prior hprior]

end

lemma writeAttributes_findings (element : Element P) (attributes : Bag P) (answersChange : Bool) :
    (writeAttributes element attributes answersChange).element.findings =
      if changedKeys element.attributes attributes ≠ [] ∧ answersChange = true then
        element.findings.map Finding.flip
      else element.findings := by
  simp only [writeAttributes, Bool.and_eq_true, Bool.not_eq_true', isEmpty_eq_false_iff]

lemma flipsExactly_of_requestWrites (hstored : ∀ k v, stored.get? k = some v → v.present = true)
    (h : requestWrites request = true) : FlipsExactly coerceNeoInt stored request := by
  intro findings written hok
  rw [setAttributes, if_pos h] at hok
  dsimp only at hok
  split_ifs at hok
  cases hok
  rw [writeAttributes_findings]
  refine if_congr ?_ rfl rfl
  constructor
  · rintro ⟨-, hchanges⟩
    exact of_decide_eq_true hchanges
  · intro hchanges
    have hchanges' : changesAnswers coerceNeoInt stored (withRequestShapes stored request) = true :=
      decide_eq_true hchanges
    exact ⟨changedKeys_ne_nil hstored hchanges', hchanges'⟩

/-- A save of an accepted request flips exactly if it changes the answers, for the requests that write a
value, name no key, or clear keys so that the answers change; and for no other. -/
theorem flipsExactly_iff (hstored : ∀ k v, stored.get? k = some v → v.present = true) :
    FlipsExactly coerceNeoInt stored request ↔
      requestWrites request = true ∨ request.keys = [] ∨
        changesAnswers coerceNeoInt stored request = true := by
  cases hwrites : requestWrites request with
  | true => exact iff_of_true (flipsExactly_of_requestWrites hstored hwrites) (.inl rfl)
  | false =>
    have hok : ∀ findings, setAttributes coerceNeoInt ⟨stored, findings⟩ request =
        .ok (writeAttributes ⟨stored, findings⟩ request true) := fun findings =>
      if_neg (Bool.eq_false_iff.1 hwrites)
    have hfindings : ∀ findings, (writeAttributes ⟨stored, findings⟩ request true).element.findings =
        if request.keys ≠ [] then findings.map Finding.flip else findings := by
      intro findings
      rw [writeAttributes_findings, changedKeys_of_clears hstored hwrites]
      simp only [and_true]
    have hchanges : (rebuilt coerceNeoInt stored ≠ rebuilt coerceNeoInt (mergeAttributes stored request)) ↔
        changesAnswers coerceNeoInt stored request = true := by
      rw [changesAnswers, decide_eq_true_eq]
    simp only [Bool.false_eq_true, false_or]
    constructor
    · -- a finding with a disposition shows whether the save flips
      intro h
      have hflip := h [⟨some "accepted", none⟩] _ (hok _)
      by_contra hcond
      rw [not_or] at hcond
      rw [hfindings, if_pos hcond.1] at hflip
      exact absurd (hflip.trans (if_neg fun hne => hcond.2 (hchanges.1 hne))) (by decide)
    · intro hcond findings written hwritten
      cases (hok findings).symm.trans hwritten
      rw [hfindings]
      refine if_congr ⟨fun hne => hchanges.2 (hcond.resolve_left hne), fun hne hnil => ?_⟩ rfl rfl
      -- without a key nothing is merged
      refine hne ?_
      have hentries : request.entries = [] := map_eq_nil_iff.1 hnil
      show rebuilt coerceNeoInt stored = rebuilt coerceNeoInt (mergeAttributes stored request)
      rw [mergeAttributes, hentries]
      rfl

end

def sampleAnswers : Bag ℕ :=
  .ofList [(units "a", .prim 1)]

def sampleFindings : List Finding :=
  [⟨some "accepted", none⟩, ⟨none, none⟩]

lemma sampleAnswers_present : ∀ k v, sampleAnswers.get? k = some v → v.present = true := by
  intro k v h
  have hentries : ∀ e ∈ sampleAnswers.entries, e.2.present = true := by decide
  exact hentries (k, v) (mem_entries_iff.2 h)

/-- A request that clears the stored answer. -/
theorem flipsExactly_clear : FlipsExactly id sampleAnswers (.ofList [(units "a", .null)]) :=
  (flipsExactly_iff sampleAnswers_present).2 (.inr (.inr (by decide +kernel)))

/-- A request that clears an answer which is not stored flips a disposition, and the answers stay. -/
theorem not_flipsExactly_clear :
    ¬ FlipsExactly id sampleAnswers (.ofList [(units "ghost", .null)]) := by
  intro h
  have hfindings := h sampleFindings _ rfl
  exact absurd hfindings (by decide +kernel)

end Staleness
