import Mathlib.Data.String.Basic
import Dethernety.Foundations.Record

/-!
# The response cache of a remote module

Templates and guides, which are the same for every caller, next to the memo of the callers that the content service
confirmed; the class schemas; and the evaluation results. A key is written here as its segments, and the token of a
caller never is one: the memo has its salted hash.
-/

open Record

namespace RemoteModule

/-- `ContentKind` -/
inductive Kind
  | template
  | guide
  deriving DecidableEq

def Kind.segment : Kind → String
  | .template => "template"
  | .guide => "guide"

structure EvalResult (Finding : Type) where
  exposures : List Finding
  countermeasures : List Finding

def entitlementTtlMs : ℕ := 60000

def maxEntries : ℕ := 1000

def capFifo {K V : Type} [DecidableEq K] (map : Record K V) : Record K V :=
  if map.keys.length ≤ maxEntries then map
  else
    match map.keys.head? with
    | some oldest => map.erase oldest
    | none => map

structure ResponseCache (Finding : Type) where
  content : Record (Kind × String × String) String
  /-- By caller hash, class and pin, when the entry expires. -/
  entitled : Record (String × String × String) ℕ
  /-- The keys of `properties` of the schema of a class. -/
  schemas : Record (String × String) (List String)
  evals : Record (String × String × String) (EvalResult Finding)

namespace ResponseCache

variable {Finding : Type}

def empty : ResponseCache Finding := ⟨∅, ∅, ∅, ∅⟩

variable (cache : ResponseCache Finding)

def getContent (kind : Kind) (classId pin : String) : Option String :=
  cache.content.get? (kind, classId, pin)

def putContent (kind : Kind) (classId pin value : String) : ResponseCache Finding :=
  { cache with content := cache.content.set (kind, classId, pin) value }

/-- What `isEntitled` answers. -/
def isEntitled (callerHash classId pin : String) (now : ℕ) : Bool :=
  (cache.entitled.get? (callerHash, classId, pin)).any (now < ·)

/-- What `isEntitled` leaves: an entry that expired is removed. -/
def dropExpired (callerHash classId pin : String) (now : ℕ) : ResponseCache Finding :=
  match cache.entitled.get? (callerHash, classId, pin) with
  | some expiresAt =>
    if expiresAt ≤ now then { cache with entitled := cache.entitled.erase (callerHash, classId, pin) } else cache
  | none => cache

def rememberEntitled (callerHash classId pin : String) (now : ℕ) : ResponseCache Finding :=
  { cache with entitled := capFifo (cache.entitled.set (callerHash, classId, pin) (now + entitlementTtlMs)) }

def getSchema (classId pin : String) : Option (List String) :=
  cache.schemas.get? (classId, pin)

def putSchema (classId pin : String) (schema : List String) : ResponseCache Finding :=
  { cache with schemas := cache.schemas.set (classId, pin) schema }

def getEval (classId pin attributesHash : String) : Option (EvalResult Finding) :=
  cache.evals.get? (classId, pin, attributesHash)

def putEval (classId pin attributesHash : String) (result : EvalResult Finding) : ResponseCache Finding :=
  { cache with evals := capFifo (cache.evals.set (classId, pin, attributesHash) result) }

/-- `evictPin`: the keys with the pin among their segments. -/
def evictPin (pin : String) : ResponseCache Finding :=
  { cache with
    content := cache.content.filterKeys fun k => pin ∉ [k.1.segment, k.2.1, k.2.2]
    schemas := cache.schemas.filterKeys fun k => pin ∉ [k.1, k.2]
    evals := cache.evals.filterKeys fun k => pin ∉ [k.1, k.2.1, k.2.2] }

end ResponseCache

/-! ## What the operations leave -/

variable {Finding : Type} {cache : ResponseCache Finding} {callerHash classId pin : String} {now : ℕ}

lemma get?_of_get?_capFifo {K V : Type} [DecidableEq K] {map : Record K V} {k : K} {v : V}
    (h : (capFifo map).get? k = some v) : map.get? k = some v := by
  unfold capFifo at h
  split_ifs at h
  · exact h
  · cases holdest : map.keys.head? with
    | none =>
      rwa [holdest] at h
    | some oldest =>
      rw [holdest] at h
      rw [get?_erase] at h
      split_ifs at h
      exact h

/-- The memo has an entry from before, or the one that is put. -/
theorem get?_entitled_rememberEntitled {key : String × String × String} {expiresAt : ℕ}
    (h : (cache.rememberEntitled callerHash classId pin now).entitled.get? key = some expiresAt) :
    cache.entitled.get? key = some expiresAt ∨
      (key = (callerHash, classId, pin) ∧ expiresAt = now + entitlementTtlMs) := by
  have h := get?_of_get?_capFifo h
  rw [get?_set] at h
  split_ifs at h with hkey
  · exact .inr ⟨hkey.symm, (Option.some.inj h).symm⟩
  · exact .inl h

lemma get?_entitled_dropExpired {key : String × String × String} {expiresAt : ℕ}
    (h : (cache.dropExpired callerHash classId pin now).entitled.get? key = some expiresAt) :
    cache.entitled.get? key = some expiresAt := by
  unfold ResponseCache.dropExpired at h
  split at h
  · split_ifs at h
    · rw [get?_erase] at h
      split_ifs at h
      exact h
    · exact h
  · exact h

lemma isEntitled_eq_true (h : cache.isEntitled callerHash classId pin now = true) :
    ∃ expiresAt, cache.entitled.get? (callerHash, classId, pin) = some expiresAt ∧ now < expiresAt := by
  obtain ⟨expiresAt, hget, hnow⟩ := (Option.any_eq_true _ _).1 h
  exact ⟨expiresAt, hget, by simpa using hnow⟩

@[simp]
lemma content_dropExpired : (cache.dropExpired callerHash classId pin now).content = cache.content := by
  unfold ResponseCache.dropExpired
  split
  · split_ifs <;> rfl
  · rfl

@[simp]
lemma evals_dropExpired : (cache.dropExpired callerHash classId pin now).evals = cache.evals := by
  unfold ResponseCache.dropExpired
  split
  · split_ifs <;> rfl
  · rfl

/-- Nothing of the pin is left to serve. -/
theorem getContent_evictPin (kind : Kind) : (cache.evictPin pin).getContent kind classId pin = none := by
  unfold ResponseCache.getContent ResponseCache.evictPin
  rw [get?_filterKeys, if_neg]
  simp

lemma getEval_evictPin (attributesHash : String) :
    (cache.evictPin pin).getEval classId pin attributesHash = none := by
  unfold ResponseCache.getEval ResponseCache.evictPin
  rw [get?_filterKeys, if_neg]
  simp

end RemoteModule
