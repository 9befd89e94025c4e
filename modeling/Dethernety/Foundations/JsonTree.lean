import Mathlib.Algebra.Group.Nat.Defs
import Dethernety.Foundations.Record

/-!
# JSON values

Values as they come out of a parser: the fields of an object are in their order, and a lookup finds the first field of
a name. An absent field reads as `none`.
-/

/-- A JSON value; a number is its text. -/
inductive JsonTree
  | null
  | boolean (b : Bool)
  | number (text : String)
  | string (s : String)
  /-- A string that has unpaired surrogates, as its characters and those. -/
  | unpaired (s : List (Char ⊕ UInt16))
  | array (items : List JsonTree)
  | object (fields : List (String × JsonTree))

namespace JsonTree

/-! ## Equality -/

mutual

def equal : JsonTree → JsonTree → Bool
  | .null, .null => true
  | .boolean b, .boolean b' => b == b'
  | .number t, .number t' => t == t'
  | .string s, .string s' => s == s'
  | .unpaired s, .unpaired s' => s = s'
  | .array items, .array items' => equalItems items items'
  | .object fields, .object fields' => equalFields fields fields'
  | _, _ => false

def equalItems : List JsonTree → List JsonTree → Bool
  | [], [] => true
  | j :: items, j' :: items' => equal j j' && equalItems items items'
  | _, _ => false

def equalFields : List (String × JsonTree) → List (String × JsonTree) → Bool
  | [], [] => true
  | (k, j) :: fields, (k', j') :: fields' => k == k' && equal j j' && equalFields fields fields'
  | _, _ => false

end

mutual

lemma equal_iff : (j j' : JsonTree) → (equal j j' = true ↔ j = j')
  | .null, j' | .boolean b, j' | .number t, j' | .string s, j' | .unpaired s, j' => by cases j' <;> simp [equal]
  | .array items, j' => by
    cases j' with
    | array items' => simp [equal, equalItems_iff items items']
    | null | boolean | number | string | unpaired | object => simp [equal]
  | .object fields, j' => by
    cases j' with
    | object fields' => simp [equal, equalFields_iff fields fields']
    | null | boolean | number | string | unpaired | array => simp [equal]

lemma equalItems_iff : (items items' : List JsonTree) → (equalItems items items' = true ↔ items = items')
  | [], items' => by cases items' <;> simp [equalItems]
  | j :: items, items' => by
    cases items' with
    | nil => simp [equalItems]
    | cons j' items' => simp [equalItems, equal_iff j j', equalItems_iff items items']

lemma equalFields_iff : (fields fields' : List (String × JsonTree)) →
    (equalFields fields fields' = true ↔ fields = fields')
  | [], fields' => by cases fields' <;> simp [equalFields]
  | (k, j) :: fields, fields' => by
    cases fields' with
    | nil => simp [equalFields]
    | cons f' fields' =>
      obtain ⟨k', j'⟩ := f'
      simp [equalFields, equal_iff j j', equalFields_iff fields fields']

end

instance : DecidableEq JsonTree :=
  fun j j' => decidable_of_iff (equal j j' = true) (equal_iff j j')

/-! ## Reading -/

/-- A field of an object; no other value has fields. -/
def get? : JsonTree → String → Option JsonTree
  | .object fields, k => Record.lookup k fields
  | _, _ => none

def items? : JsonTree → Option (List JsonTree)
  | .array items => some items
  | _ => none

def string? : JsonTree → Option String
  | .string s => some s
  | _ => none

/-- `typeof value === 'string'` -/
def isString : JsonTree → Bool
  | .string _ | .unpaired _ => true
  | _ => false

def isUnpaired : JsonTree → Bool
  | .unpaired _ => true
  | _ => false

/-! ## Numbers -/

def digitsOf (s : List Char) : ℕ :=
  s.foldl (fun n c => if c.isDigit then 10 * n + (c.toNat - 48) else n) 0

/-- The size of a number, as an integer and a power of ten. -/
def decimal (text : String) : ℕ × ℤ :=
  let mantissa := text.toList.takeWhile fun c => c ≠ 'e' ∧ c ≠ 'E'
  let exponent := text.toList.drop mantissa.length
  let places := (mantissa.dropWhile (· ≠ '.')).length - 1
  (digitsOf mantissa, (if '-' ∈ exponent then -(digitsOf exponent : ℤ) else digitsOf exponent) - places)

/-- A number that is read as an infinity: halfway between the largest double and `2 ^ 1024`, or more. -/
def overflows (text : String) : Bool :=
  (2 ^ 1024 - 2 ^ 970) * 10 ^ (-(decimal text).2).toNat ≤ (decimal text).1 * 10 ^ (decimal text).2.toNat

/-- A number that is read as zero: half of the smallest double, or less. -/
def underflows (text : String) : Bool :=
  (decimal text).1 * 10 ^ (decimal text).2.toNat * 2 ^ 1075 ≤ 10 ^ (-(decimal text).2).toNat

/-- `if (value)` -/
def truthy : JsonTree → Bool
  | .null => false
  | .boolean b => b
  | .number text => !underflows text
  | .string s => s ≠ ""
  | .unpaired _ | .array _ | .object _ => true

/-! ## Writing -/

mutual

/-- What `JSON.parse` reads of what `JSON.stringify` writes: an infinite number is written as `null`. -/
def reread : JsonTree → JsonTree
  | .number text => if overflows text then .null else .number text
  | .array items => .array (rereadItems items)
  | .object fields => .object (rereadFields fields)
  | .null => .null
  | .boolean b => .boolean b
  | .string s => .string s
  | .unpaired s => .unpaired s

def rereadItems : List JsonTree → List JsonTree
  | [] => []
  | j :: items => reread j :: rereadItems items

def rereadFields : List (String × JsonTree) → List (String × JsonTree)
  | [] => []
  | (k, j) :: fields => (k, reread j) :: rereadFields fields

end

@[simp]
lemma length_rereadItems (items : List JsonTree) : (rereadItems items).length = items.length := by
  induction items with
  | nil => rfl
  | cons j items ih => rw [rereadItems, List.length_cons, List.length_cons, ih]

lemma get?_reread (j : JsonTree) (k : String) : j.reread.get? k = (j.get? k).map reread := by
  cases j with
  | object fields =>
    show Record.lookup k (rereadFields fields) = (Record.lookup k fields).map reread
    induction fields with
    | nil => rfl
    | cons f fields ih =>
      obtain ⟨k', j⟩ := f
      rw [rereadFields, Record.lookup, Record.lookup]
      split_ifs
      · rfl
      · exact ih
  | number text =>
    rw [reread]
    split_ifs <;> rfl
  | null | boolean | string | unpaired | array => rfl

lemma items?_reread (j : JsonTree) : j.reread.items? = j.items?.map rereadItems := by
  cases j with
  | number text =>
    rw [reread]
    split_ifs <;> rfl
  | null | boolean | string | unpaired | array | object => rfl

end JsonTree
