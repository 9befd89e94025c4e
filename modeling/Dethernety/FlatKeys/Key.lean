import Mathlib.Data.List.Basic

/-!
# Flat keys

Model of `parseFlatKey` of `flat-keys.ts`. A key is the list of its UTF-16 code units, as the regular
expression and the sort see it. Whatever is neither a name nor digits in brackets is passed over, so
different keys can name the same place.
-/

namespace FlatKeys

/-- A string as a list of code units. -/
abbrev Key := List ℕ

/-- The code units of an ASCII text. -/
def units (text : String) : Key :=
  text.toList.map Char.toNat

/-- The largest list index a key may use. -/
def maxIndex : ℕ := 10000

/-- The most list entries one rebuild may create. -/
def maxListSlots : ℕ := 100000

/-- The most parts one key may have. -/
def maxSegments : ℕ := 32

inductive FlatKeyProblem
  | empty
  | index
  | depth
  | reserved
  | conflict
  | budget
  deriving DecidableEq

/-- One part of a flat key. -/
inductive Segment
  | name (name : Key)
  | index (index : ℕ)
  deriving DecidableEq

def Segment.isIndex : Segment → Bool
  | name _ => false
  | index _ => true

def reserved : List Key :=
  [units "__proto__", units "constructor", units "prototype"]

def dot : ℕ := 46

def openBracket : ℕ := 91

def closeBracket : ℕ := 93

/-- A unit of a name: `[^.[\]]` -/
def isPlain (u : ℕ) : Bool :=
  u ≠ dot ∧ u ≠ openBracket ∧ u ≠ closeBracket

/-- `[0-9]` -/
def isDigit (u : ℕ) : Bool :=
  48 ≤ u ∧ u ≤ 57

/-- A match of `SEGMENT`: its first group or its second. -/
inductive Match
  | name (name : Key)
  | digits (digits : Key)

/-- `key.matchAll(SEGMENT)`: a position where neither group matches is passed over. -/
def matchAll : Key → List Match
  | [] => []
  | u :: key =>
    if isPlain u then
      .name (u :: key.takeWhile isPlain) :: matchAll (key.dropWhile isPlain)
    else if u = openBracket ∧ key.takeWhile isDigit ≠ [] ∧
        (key.dropWhile isDigit).head? = some closeBracket then
      .digits (key.takeWhile isDigit) :: matchAll (key.dropWhile isDigit).tail
    else matchAll key
termination_by key => key.length
decreasing_by
  · have hle := (List.dropWhile_sublist isPlain (l := key)).length_le
    exact Nat.lt_succ_of_le hle
  · have hle := (List.dropWhile_sublist isDigit (l := key)).length_le
    rw [List.length_tail]
    exact Nat.lt_succ_of_le (Nat.le_trans (Nat.sub_le _ _) hle)
  · exact Nat.lt_succ_self _

/-- `digits.replace(/^0+(?=[0-9])/, '')` -/
def stripZeros : Key → Key
  | [] => []
  | [u] => [u]
  | u :: u' :: digits => if u = 48 then stripZeros (u' :: digits) else u :: u' :: digits

/-- `Number(digits)` -/
def number (digits : Key) : ℕ :=
  digits.foldl (fun n u => 10 * n + (u - 48)) 0

/-- The part that a match adds, or why the key is left out. -/
def segmentOf : Match → Except FlatKeyProblem Segment
  | .name n => if n ∈ reserved then .error .reserved else .ok (.name n)
  | .digits ds =>
    let digits := stripZeros ds
    -- the length is compared first, as a long run of digits does not fit a number
    if digits.length > (Nat.toDigits 10 maxIndex).length ∨ number digits > maxIndex then
      .error .index
    else .ok (.index (number digits))

/-- The loop of `parseFlatKey` over the matches. -/
def parseMatches (segments : List Segment) : List Match → Except FlatKeyProblem (List Segment)
  | [] => .ok segments
  | m :: matches' =>
    match segmentOf m with
    | .error problem => .error problem
    | .ok segment =>
      if (segments ++ [segment]).length > maxSegments then .error .depth
      else parseMatches (segments ++ [segment]) matches'

def parseFlatKey (key : Key) : Except FlatKeyProblem (List Segment) :=
  match parseMatches [] (matchAll key) with
  | .error problem => .error problem
  | .ok [] => .error .empty
  | .ok (segment :: segments) => .ok (segment :: segments)

/-- What a part that was read satisfies. -/
def Segment.Allowed : Segment → Prop
  | name n => n ∉ reserved
  | index i => i ≤ maxIndex

lemma allowed_of_segmentOf {m : Match} {segment : Segment} (h : segmentOf m = .ok segment) : segment.Allowed := by
  cases m with
  | name n =>
    simp only [segmentOf] at h
    split_ifs at h with hreserved
    cases h
    exact hreserved
  | digits ds =>
    simp only [segmentOf] at h
    split_ifs at h with hindex
    cases h
    exact Nat.le_of_not_lt fun hlt => hindex (.inr hlt)

lemma parseMatches_ok {matches' : List Match} : ∀ {segments result : List Segment},
    parseMatches segments matches' = .ok result → (∀ s ∈ segments, s.Allowed) →
    segments.length ≤ maxSegments → (∀ s ∈ result, s.Allowed) ∧ result.length ≤ maxSegments := by
  induction matches' with
  | nil =>
    intro segments result h hallowed hlength
    cases h
    exact ⟨hallowed, hlength⟩
  | cons m matches' ih =>
    intro segments result h hallowed hlength
    rw [parseMatches] at h
    split at h
    next => cases h
    next segment hsegment =>
      split_ifs at h with hdepth
      refine ih h (fun s hs => ?_) (Nat.le_of_not_lt hdepth)
      obtain hs | hs := List.mem_append.1 hs
      · exact hallowed s hs
      · rw [List.mem_singleton.1 hs]
        exact allowed_of_segmentOf hsegment

/-- What the parts of a key that can be read satisfy. -/
theorem parseFlatKey_ok {key : Key} {segments : List Segment} (h : parseFlatKey key = .ok segments) :
    segments ≠ [] ∧ (∀ s ∈ segments, s.Allowed) ∧ segments.length ≤ maxSegments := by
  unfold parseFlatKey at h
  split at h
  next => cases h
  next => cases h
  next segment rest hparse =>
    cases h
    obtain ⟨hallowed, hlength⟩ := parseMatches_ok hparse (fun s hs => absurd hs List.not_mem_nil)
      (Nat.zero_le _)
    exact ⟨List.cons_ne_nil _ _, hallowed, hlength⟩

end FlatKeys
