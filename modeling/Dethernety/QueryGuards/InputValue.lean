import Dethernety.Foundations.Record
import Dethernety.Foundations.Text

/-!
# Input values

The values that a request gives to the arguments of its fields, as JSON and graphql build them. A list or
an object is one object of the heap, which several places of a request can share.
-/

namespace QueryGuards

/-- A value of a scripting language. A list is an object whose keys are the indices; `ref` says which object
of the heap it is. -/
inductive JsValue
  /-- `null` or `undefined` -/
  | null
  /-- a number or a boolean -/
  | primitive
  | text (value : String)
  | object (ref : ℕ) (isArray : Bool) (entries : List (String × JsValue))

namespace JsValue

mutual

/-- Whether two values are the same. -/
def decEq : (v w : JsValue) → Decidable (v = w)
  | .null, .null => isTrue rfl
  | .primitive, .primitive => isTrue rfl
  | .text s, .text s' => decidable_of_iff (s = s') (by rw [JsValue.text.injEq])
  | .object ref isArray entries, .object ref' isArray' entries' =>
    match decEqEntries entries entries' with
    | isTrue h => decidable_of_iff (ref = ref' ∧ isArray = isArray') (by simp [h])
    | isFalse h => isFalse fun heq => h (JsValue.object.inj heq).2.2
  | .null, .primitive | .null, .text _ | .null, .object _ _ _ => isFalse nofun
  | .primitive, .null | .primitive, .text _ | .primitive, .object _ _ _ => isFalse nofun
  | .text _, .null | .text _, .primitive | .text _, .object _ _ _ => isFalse nofun
  | .object _ _ _, .null | .object _ _ _, .primitive | .object _ _ _, .text _ => isFalse nofun

/-- Whether two lists of entries are the same. -/
def decEqEntries : (l l' : List (String × JsValue)) → Decidable (l = l')
  | [], [] => isTrue rfl
  | [], _ :: _ => isFalse nofun
  | _ :: _, [] => isFalse nofun
  | (key, v) :: rest, (key', v') :: rest' =>
    match decEq v v', decEqEntries rest rest' with
    | isTrue hv, isTrue hrest => decidable_of_iff (key = key') (by simp [hv, hrest])
    | isFalse hv, _ => isFalse fun heq => hv (Prod.mk.inj (List.cons.inj heq).1).2
    | _, isFalse hrest => isFalse fun heq => hrest (List.cons.inj heq).2

end

instance : DecidableEq JsValue := decEq

/-- `value === null || value === undefined` -/
def isNullish : JsValue → Bool
  | .null => true
  | _ => false

def isObject : JsValue → Bool
  | .object _ _ _ => true
  | _ => false

end JsValue

/-- The `length` of a string, in UTF-16 code units. -/
def jsLength (s : String) : ℕ :=
  (CharCode.utf16.encode s.toList).length

/-- The characters that the key of an entry counts for. -/
def keySize (isArray : Bool) (key : String) : ℕ :=
  if isArray then 0 else jsLength key

mutual

/-- The size of a scalar value: a string's length, one for any other scalar, and for a list or an object the
sum over its entries; nothing less than one. -/
def plainSize : JsValue → ℕ
  | .null => 1
  | .primitive => 1
  | .text s => max 1 (jsLength s)
  | .object _ isArray entries => max 1 (plainSizes isArray entries)

/-- The sum of the sizes of entries and of their keys. -/
def plainSizes (isArray : Bool) : List (String × JsValue) → ℕ
  | [] => 0
  | (key, v) :: rest => keySize isArray key + plainSize v + plainSizes isArray rest

end

/-- `Within v d u d'`: where `v` is used at depth `d`, `u` is at depth `d'` in it. -/
inductive Within : JsValue → ℕ → JsValue → ℕ → Prop
  | refl {v : JsValue} {d : ℕ} : Within v d v d
  | entry {ref : ℕ} {isArray : Bool} {entries : List (String × JsValue)} {d d' : ℕ} {key : String}
      {w u : JsValue} (hmem : (key, w) ∈ entries) (h : Within w (d + 1) u d') :
      Within (.object ref isArray entries) d u d'

lemma Within.trans {v u w : JsValue} {d d' d'' : ℕ} (h : Within v d u d') (h' : Within u d' w d'') :
    Within v d w d'' := by
  induction h with
  | refl => exact h'
  | entry hmem _ ih => exact .entry hmem (ih h')

/-- Used at depth `d`, a value has no list and no object deeper than `limit`. -/
def Fits (limit : ℕ) (v : JsValue) (d : ℕ) : Prop :=
  ∀ u d', Within v d u d' → u.isObject = true → d' ≤ limit

variable {limit d : ℕ}

lemma Fits.of_not_isObject {v : JsValue} (h : v.isObject = false) : Fits limit v d := by
  intro u d' hwithin hobject
  cases hwithin with
  | refl => cases h.symm.trans hobject
  | entry => cases h

lemma Fits.within {v u : JsValue} {d' : ℕ} (h : Fits limit v d) (hwithin : Within v d u d') : Fits limit u d' :=
  fun w d'' hw => h w d'' (hwithin.trans hw)

/-- An object fits where it is not too deep itself and its entries fit one level below. -/
theorem Fits.object {ref : ℕ} {isArray : Bool} {entries : List (String × JsValue)} (hd : d ≤ limit)
    (hentries : ∀ key v, (key, v) ∈ entries → Fits limit v (d + 1)) : Fits limit (.object ref isArray entries) d := by
  intro u d' hwithin hobject
  cases hwithin with
  | refl => exact hd
  | entry hmem h => exact hentries _ _ hmem u d' h hobject

end QueryGuards
