import Dethernety.Foundations.JsonText
import Dethernety.Foundations.JsonTree

/-!
# The text of a JSON value

A JSON value as a serialiser writes it, and a scan of such a text that tells the characters inside string literals from
those outside. The text of an object says where it starts: two texts that end in an object with a minus before it and
are the same end in the same text of an object (`object_eq_of_append`). A start further on would be inside a literal of
the longer one, and then the two readings never come out of a literal together.
-/

open List Option Bool

namespace JsonText

/-! ## Serialising -/

/-- The escape of an unpaired surrogate. -/
def escapeUnit (u : UInt16) : List Char :=
  ['\\', 'u', hexDigit (u.toNat / 4096), hexDigit (u.toNat / 256 % 16), hexDigit (u.toNat / 16 % 16),
    hexDigit (u.toNat % 16)]

/-- The literal of a string that has unpaired surrogates, but for the mark that opens it. -/
def unpairedTail : List (Char ⊕ UInt16) → List Char
  | [] => ['"']
  | .inl c :: s => escape c ++ unpairedTail s
  | .inr u :: s => escapeUnit u ++ unpairedTail s

mutual

/-- `JSON.stringify` -/
def stringify : JsonTree → List Char
  | .null => ['n', 'u', 'l', 'l']
  | .boolean true => ['t', 'r', 'u', 'e']
  | .boolean false => ['f', 'a', 'l', 's', 'e']
  | .number text => text.toList
  | .string s => quote s
  | .unpaired s => '"' :: unpairedTail s
  | .array items => '[' :: (join (stringifyItems items) ++ [']'])
  | .object fields => '{' :: (join (stringifyFields fields) ++ ['}'])

def stringifyItems : List JsonTree → List (List Char)
  | [] => []
  | j :: items => stringify j :: stringifyItems items

def stringifyFields : List (String × JsonTree) → List (List Char)
  | [] => []
  | (name, j) :: fields => (quote name ++ ':' :: stringify j) :: stringifyFields fields

end

/-- A text of digits, signs, points and exponents in which a digit follows a minus. -/
def isNumeral : List Char → Bool
  | [] => true
  | [c] => c.isDigit || c = '.' || c = 'e' || c = '+'
  | c :: c' :: s => (c.isDigit || c = '.' || c = 'e' || c = '+' || (c = '-' && c'.isDigit)) && isNumeral (c' :: s)

mutual

/-- The numbers of a value are written as numerals. -/
def numeric : JsonTree → Bool
  | .number text => isNumeral text.toList
  | .array items => numericItems items
  | .object fields => numericFields fields
  | .null | .boolean _ | .string _ | .unpaired _ => true

def numericItems : List JsonTree → Bool
  | [] => true
  | j :: items => numeric j && numericItems items

def numericFields : List (String × JsonTree) → Bool
  | [] => true
  | (_, j) :: fields => numeric j && numericFields fields

end

/-! ## Scanning -/

/-- Where a scan of a text stands. -/
inductive Place
  | outside
  /-- Outside of literals, after a minus. -/
  | minus
  | inside
  /-- Inside a literal, after a backslash. -/
  | escaped
  deriving DecidableEq

/-- The next character of a text; outside of literals there is no backslash, and a digit follows a minus. -/
def scan : Place → Char → Option Place
  | .outside, c =>
    if c = '"' then some .inside else if c = '\\' then none else if c = '-' then some .minus else some .outside
  | .minus, c => if c.isDigit then some .outside else none
  | .inside, c => if c = '"' then some .outside else if c = '\\' then some .escaped else some .inside
  | .escaped, _ => some .inside

def scanAll : Place → List Char → Option Place
  | p, [] => some p
  | p, c :: s => (scan p c).bind fun q => scanAll q s

@[simp]
lemma scanAll_nil (p : Place) : scanAll p [] = some p :=
  rfl

lemma scanAll_cons (p : Place) (c : Char) (s : List Char) :
    scanAll p (c :: s) = (scan p c).bind fun q => scanAll q s :=
  rfl

lemma scanAll_append (p : Place) (s t : List Char) :
    scanAll p (s ++ t) = (scanAll p s).bind fun q => scanAll q t := by
  induction s generalizing p with
  | nil => rfl
  | cons c s ih =>
    rw [cons_append, scanAll_cons, scanAll_cons]
    cases scan p c with
    | none => rfl
    | some q => exact ih q

/-- A text with a literal, value or punctuation in front that is scanned from outside to outside. -/
lemma scanAll_append_of {p q : Place} {s : List Char} (h : scanAll p s = some q) (t : List Char) :
    scanAll p (s ++ t) = scanAll q t := by
  rw [scanAll_append, h]
  rfl

lemma scan_hexDigit : ∀ n < 16, scan .inside (hexDigit n) = some .inside := by
  decide

/-- Inside a literal the escape of a character stays inside. -/
lemma scanAll_escape (c : Char) : scanAll .inside (escape c) = some .inside := by
  unfold escape
  split_ifs with hquote hbackslash hb ht hn hf hr hcontrol
  · rfl
  · rfl
  · rfl
  · rfl
  · rfl
  · rfl
  · rfl
  · have hhigh := scan_hexDigit (c.toNat / 16) (by omega)
    have hlow := scan_hexDigit (c.toNat % 16) (Nat.mod_lt _ (by omega))
    show scanAll .inside [hexDigit (c.toNat / 16), hexDigit (c.toNat % 16)] = _
    rw [scanAll_cons, hhigh, bind_some, scanAll_cons, hlow]
    rfl
  · simp [scanAll_cons, scan, hquote, hbackslash]

lemma scanAll_literalTail (s : List Char) : scanAll .inside (literalTail s) = some .outside := by
  induction s with
  | nil => rfl
  | cons c s ih => rw [literalTail, scanAll_append_of (scanAll_escape c), ih]

lemma scanAll_escapeUnit (u : UInt16) : scanAll .inside (escapeUnit u) = some .inside := by
  have hu := u.toNat_lt
  have hdigit : ∀ n < 16, ∀ s, scanAll .inside (hexDigit n :: s) = scanAll .inside s := fun n hn s => by
    rw [scanAll_cons, scan_hexDigit n hn]
    rfl
  show scanAll .inside [hexDigit (u.toNat / 4096), hexDigit (u.toNat / 256 % 16), hexDigit (u.toNat / 16 % 16),
    hexDigit (u.toNat % 16)] = _
  rw [hdigit _ (by omega), hdigit _ (by omega), hdigit _ (by omega), hdigit _ (by omega), scanAll_nil]

lemma scanAll_unpairedTail (s : List (Char ⊕ UInt16)) : scanAll .inside (unpairedTail s) = some .outside := by
  induction s with
  | nil => rfl
  | cons c s ih =>
    cases c with
    | inl c => rw [unpairedTail, scanAll_append_of (scanAll_escape c), ih]
    | inr u => rw [unpairedTail, scanAll_append_of (scanAll_escapeUnit u), ih]

lemma scanAll_quote (s : String) : scanAll .outside (quote s) = some .outside :=
  scanAll_literalTail s.toList

lemma scanAll_join {texts : List (List Char)} (h : ∀ t ∈ texts, scanAll .outside t = some .outside) :
    scanAll .outside (join texts) = some .outside := by
  match texts with
  | [] => rfl
  | [t] => exact h t (.head _)
  | t :: t' :: texts =>
    show scanAll .outside (t ++ ',' :: join (t' :: texts)) = _
    rw [scanAll_append_of (h t (.head _))]
    exact scanAll_join fun u hu => h u (.tail _ hu)

lemma scanAll_numeral {s : List Char} (h : isNumeral s = true) : scanAll .outside s = some .outside := by
  have hplain : ∀ {c : Char}, (c.isDigit || c = '.' || c = 'e' || c = '+') = true →
      scan .outside c = some .outside := by
    intro c hc
    have hne : c ≠ '"' ∧ c ≠ '\\' ∧ c ≠ '-' := by
      refine ⟨?_, ?_, ?_⟩
      all_goals
        rintro rfl
        revert hc
        decide
    simp [scan, hne.1, hne.2.1, hne.2.2]
  match s with
  | [] => rfl
  | [c] => rw [scanAll_cons, hplain h, bind_some, scanAll_nil]
  | c :: c' :: s =>
    rw [isNumeral, and_eq_true, or_eq_true] at h
    obtain ⟨hc | hminus, hrest⟩ := h
    · rw [scanAll_cons, hplain hc, bind_some]
      exact scanAll_numeral hrest
    · -- a digit after a minus is outside again
      obtain ⟨hc, hdigit⟩ := and_eq_true_iff.1 hminus
      obtain rfl : c = '-' := of_decide_eq_true hc
      have hout := scanAll_numeral hrest
      rw [scanAll_cons, hplain (by simp [hdigit]), bind_some] at hout
      show scanAll .minus (c' :: s) = _
      rw [scanAll_cons, scan, if_pos hdigit, bind_some, hout]

mutual

lemma scanAll_stringify : (j : JsonTree) → numeric j = true → scanAll .outside (stringify j) = some .outside
  | .null, _ | .boolean true, _ | .boolean false, _ => rfl
  | .number _, h => scanAll_numeral h
  | .string s, _ => scanAll_quote s
  | .unpaired s, _ => scanAll_unpairedTail s
  | .array items, h => by
    show scanAll .outside (join (stringifyItems items) ++ [']']) = _
    rw [scanAll_append_of (scanAll_join (scanAll_stringifyItems items h))]
    rfl
  | .object fields, h => by
    show scanAll .outside (join (stringifyFields fields) ++ ['}']) = _
    rw [scanAll_append_of (scanAll_join (scanAll_stringifyFields fields h))]
    rfl

lemma scanAll_stringifyItems : (items : List JsonTree) → numericItems items = true →
    ∀ t ∈ stringifyItems items, scanAll .outside t = some .outside
  | [], _ => fun _ ht => absurd ht not_mem_nil
  | j :: items, h => by
    obtain ⟨hj, hitems⟩ := and_eq_true_iff.1 h
    exact forall_mem_cons.2 ⟨scanAll_stringify j hj, scanAll_stringifyItems items hitems⟩

lemma scanAll_stringifyFields : (fields : List (String × JsonTree)) → numericFields fields = true →
    ∀ t ∈ stringifyFields fields, scanAll .outside t = some .outside
  | [], _ => fun _ ht => absurd ht not_mem_nil
  | (name, j) :: fields, h => by
    obtain ⟨hj, hfields⟩ := and_eq_true_iff.1 h
    refine forall_mem_cons.2 ⟨?_, scanAll_stringifyFields fields hfields⟩
    rw [scanAll_append_of (scanAll_quote name)]
    exact scanAll_stringify j hj

end

/-! ## Where an object starts -/

/-- One of two scans is inside a literal and the other outside. -/
def Opposite : Place → Place → Prop
  | .inside, .outside | .inside, .minus | .outside, .inside | .minus, .inside => True
  | _, _ => False

lemma Opposite.symm {p q : Place} (h : Opposite p q) : Opposite q p := by
  cases p <;> cases q <;> trivial

lemma opposite_scan {p q p' q' : Place} {c : Char} (h : Opposite p q) (hp : scan p c = some p')
    (hq : scan q c = some q') : Opposite p' q' := by
  -- the marks of a literal turn both scans, and a backslash stops the one outside
  have hinside : ∀ {p p' q'}, (p = .outside ∨ p = .minus) → scan p c = some p' → scan .inside c = some q' →
      Opposite p' q' := by
    intro p p' q' hplace hp hq
    simp only [scan] at hq
    obtain rfl | rfl := hplace
    · simp only [scan] at hp
      split_ifs at hp hq <;> cases hp <;> cases hq <;> trivial
    · simp only [scan] at hp
      split_ifs at hp hq with hdigit hquote hbackslash
      · subst hquote
        cases hdigit
      · subst hbackslash
        cases hdigit
      · cases hp
        cases hq
        trivial
  cases p <;> cases q <;> cases h
  · exact hinside (.inl rfl) hp hq
  · exact hinside (.inr rfl) hp hq
  · exact (hinside (.inl rfl) hq hp).symm
  · exact (hinside (.inr rfl) hq hp).symm

lemma opposite_scanAll {p q p' q' : Place} {s : List Char} (h : Opposite p q) (hp : scanAll p s = some p')
    (hq : scanAll q s = some q') : Opposite p' q' := by
  induction s generalizing p q with
  | nil =>
    cases hp
    cases hq
    exact h
  | cons c s ih =>
    obtain ⟨p₁, hp₁, hp⟩ := bind_eq_some_iff.1 hp
    obtain ⟨q₁, hq₁, hq⟩ := bind_eq_some_iff.1 hq
    exact ih (opposite_scan h hp₁ hq₁) hp hq

/-- After a minus no object starts that ends outside of literals with the text around it. -/
lemma not_scanAll_minus {s t : List Char} (hwhole : scanAll .outside (s ++ '-' :: '{' :: t) = some .outside)
    (hpart : scanAll .outside ('{' :: t) = some .outside) : False := by
  rw [scanAll_append, bind_eq_some_iff] at hwhole
  obtain ⟨p, -, hp⟩ := hwhole
  have hinside : scanAll .inside t = some .outside → False := fun hin => by
    cases opposite_scanAll (p := .inside) (q := .outside) trivial hin hpart
  cases p with
  | outside | minus => cases hp
  | inside | escaped => exact hinside hp

lemma object_eq_of_append {s s' : List Char} {fields fields' : List (String × JsonTree)}
    (h : s ++ '-' :: stringify (.object fields) = s' ++ '-' :: stringify (.object fields'))
    (hnum : numericFields fields = true) (hnum' : numericFields fields' = true) :
    stringify (.object fields) = stringify (.object fields') := by
  obtain ⟨u, hs, hrest⟩ | ⟨u, hs, hrest⟩ := append_eq_append_iff.1 h
  · cases u with
    | nil => exact (List.cons.inj hrest).2
    | cons c u =>
      obtain ⟨-, hrest⟩ := List.cons.inj hrest
      have hwhole := scanAll_stringify (.object fields) hnum
      rw [hrest] at hwhole
      exact (not_scanAll_minus hwhole (scanAll_stringify (.object fields') hnum')).elim
  · cases u with
    | nil => exact (List.cons.inj hrest).2.symm
    | cons c u =>
      obtain ⟨-, hrest⟩ := List.cons.inj hrest
      have hwhole := scanAll_stringify (.object fields') hnum'
      rw [hrest] at hwhole
      exact (not_scanAll_minus hwhole (scanAll_stringify (.object fields) hnum)).elim

end JsonText
