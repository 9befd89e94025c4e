import Mathlib.Data.List.DropRight
import Mathlib.Data.List.Infix

/-!
# Texts and their encodings

A text is a list of Unicode characters. A `CharCode` writes each character as a word of code units
so that the words can be told apart from both ends and an ASCII character is one unit that occurs in
no other word; `utf8` and `utf16` are the two that the languages of the repository use. `decodeUtf8`
reads bytes back and puts U+FFFD where they are not UTF-8.
-/

/-- A code that writes each character as a word of units. -/
structure CharCode (α : Type*) where
  /-- The units of a character. -/
  word : Char → List α
  /-- The unit of an ASCII character. -/
  unit : Char → α
  word_ne_nil : ∀ c, word c ≠ []
  /-- No word starts another. -/
  prefix_free : ∀ a b, word a <+: word b → a = b
  /-- No word ends another. -/
  suffix_free : ∀ a b, word a <:+ word b → a = b
  word_of_ascii : ∀ c, c.toNat < 128 → word c = [unit c]
  /-- The unit of an ASCII character occurs in no word but its own. -/
  eq_of_unit_mem : ∀ a b, a.toNat < 128 → unit a ∈ word b → a = b

open List
open String (utf8EncodeChar)

/-- White space and line terminators of ECMAScript: what `\s` matches and `trim` removes. -/
def isEcmaSpace (c : Char) : Bool :=
  [0x09, 0x0a, 0x0b, 0x0c, 0x0d, 0x20, 0xa0, 0x1680, 0x2028, 0x2029, 0x202f, 0x205f, 0x3000, 0xfeff].contains
    c.toNat || (0x2000 ≤ c.toNat && c.toNat ≤ 0x200a)

/-- `String.prototype.trim` -/
def ecmaTrim (text : List Char) : List Char :=
  (text.dropWhile isEcmaSpace).rdropWhile isEcmaSpace

/-- The text has a character that is no white space. -/
def NonBlank (text : List Char) : Prop :=
  ∃ c ∈ text, isEcmaSpace c = false

lemma ecmaTrim_eq_nil_iff {text : List Char} : ecmaTrim text = [] ↔ ∀ c ∈ text, isEcmaSpace c = true := by
  unfold ecmaTrim
  rw [rdropWhile_eq_nil_iff]
  constructor
  · intro h c hc
    rw [← takeWhile_append_dropWhile (p := isEcmaSpace) (l := text), mem_append] at hc
    rcases hc with hc | hc
    · exact mem_takeWhile_imp hc
    · exact h c hc
  · exact fun h c hc => h c ((dropWhile_sublist isEcmaSpace).subset hc)

lemma ecmaTrim_ne_nil_iff {text : List Char} : ecmaTrim text ≠ [] ↔ NonBlank text := by
  simp [ecmaTrim_eq_nil_iff, NonBlank]

namespace CharCode

variable {α : Type*} (code : CharCode α)

/-- The units of a text. -/
def encode (text : List Char) : List α :=
  text.flatMap code.word

@[simp]
lemma encode_nil : code.encode [] = [] := rfl

@[simp]
lemma encode_cons (c : Char) (text : List Char) : code.encode (c :: text) = code.word c ++ code.encode text := rfl

@[simp]
lemma encode_append (s t : List Char) : code.encode (s ++ t) = code.encode s ++ code.encode t :=
  flatMap_append

lemma encode_eq_nil_iff {text : List Char} : code.encode text = [] ↔ text = [] := by
  cases text with
  | nil => simp
  | cons c text => simp [code.word_ne_nil c]

lemma length_le_length_encode (text : List Char) : text.length ≤ (code.encode text).length := by
  induction text with
  | nil => exact Nat.le_refl _
  | cons c =>
    have hword := length_pos_iff.2 (code.word_ne_nil c)
    rw [code.encode_cons, length_append, length_cons]
    omega

/-- A word that starts an encoded text is the word of its first character. -/
lemma eq_of_word_prefix_encode {a c : Char} {text : List Char}
    (h : code.word a <+: code.encode (c :: text)) : a = c := by
  have hc : code.word c <+: code.encode (c :: text) := ⟨code.encode text, rfl⟩
  -- of two words that start one list, one starts the other
  obtain hac | hca := List.prefix_or_prefix_of_prefix h hc
  · exact code.prefix_free a c hac
  · exact (code.prefix_free c a hca).symm

/-- A word that ends an encoded text is the word of its last character. -/
theorem eq_of_word_suffix_encode {a c : Char} {text : List Char}
    (h : code.word a <:+ code.encode (text ++ [c])) : a = c := by
  have hc : code.word c <:+ code.encode (text ++ [c]) := ⟨code.encode text, by simp⟩
  obtain hac | hca := suffix_or_suffix_of_suffix h hc
  · exact code.suffix_free a c hac
  · exact (code.suffix_free c a hca).symm

lemma encode_injective : Function.Injective code.encode := by
  intro s t h
  induction s generalizing t with
  | nil => exact (code.encode_eq_nil_iff.1 h.symm).symm
  | cons a s ih =>
    cases t with
    | nil => exact code.encode_eq_nil_iff.1 h
    | cons c t =>
      have ha : a = c := code.eq_of_word_prefix_encode ⟨code.encode s, h⟩
      subst ha
      rw [ih (append_cancel_left h)]

/-- An ASCII character is in a text when its unit is in the encoded text. -/
theorem mem_of_unit_mem_encode {a : Char} {text : List Char} (ha : a.toNat < 128)
    (h : code.unit a ∈ code.encode text) : a ∈ text := by
  obtain ⟨c, hc, hmem⟩ := mem_flatMap.1 h
  exact code.eq_of_unit_mem a c ha hmem ▸ hc

/-- If the first units of words lead and no other unit does, a word that ends a word is that word. -/
lemma eq_of_suffix_of_lead {word : Char → List α} {lead : α → Prop}
    (hlead : ∀ c, ∃ u us, word c = u :: us ∧ lead u ∧ ∀ v ∈ us, ¬ lead v) {a b : Char}
    (h : word a <:+ word b) : word a = word b := by
  obtain ⟨u, us, ha, hu, -⟩ := hlead a
  obtain ⟨v, vs, hb, -, hvs⟩ := hlead b
  rw [ha, hb] at h ⊢
  obtain heq | hsuffix := suffix_cons_iff.1 h
  · exact heq
  · exact absurd hu (hvs u (hsuffix.subset (.head _)))

end CharCode

namespace Utf8

/-- A character whose first bytes have been read: how many bytes are still due, the bits so far and
the range of the next byte. -/
structure Pending where
  due : Nat
  bits : Nat
  lower : Nat
  upper : Nat

/-- What the first byte of a character says. -/
def first (b : Nat) : Char ⊕ Pending :=
  if b < 0x80 then .inl (Char.ofNat b)
  else if b < 0xC2 then .inl '\uFFFD'
  else if b < 0xE0 then .inr { due := 1, bits := b - 0xC0, lower := 0x80, upper := 0xBF }
  else if b < 0xF0 then
    .inr { due := 2, bits := b - 0xE0,
           lower := if b = 0xE0 then 0xA0 else 0x80,
           upper := if b = 0xED then 0x9F else 0xBF }
  else if b < 0xF5 then
    .inr { due := 3, bits := b - 0xF0,
           lower := if b = 0xF0 then 0x90 else 0x80,
           upper := if b = 0xF4 then 0x8F else 0xBF }
  else .inl '\uFFFD'

/-- Take in a byte that is in range. -/
def Pending.next (p : Pending) (b : Nat) : Char ⊕ Pending :=
  if p.due = 1 then .inl (Char.ofNat (p.bits * 64 + (b - 0x80)))
  else .inr { due := p.due - 1, bits := p.bits * 64 + (b - 0x80), lower := 0x80, upper := 0xBF }

/-- Decode from the middle of a character, or from none. -/
def decodeFrom : Option Pending → List UInt8 → List Char
  | none, [] => []
  | some _, [] => ['\uFFFD']
  | none, b :: bs =>
    match first b.toNat with
    | .inl c => c :: decodeFrom none bs
    | .inr p => decodeFrom (some p) bs
  | some p, b :: bs =>
    if p.lower ≤ b.toNat ∧ b.toNat ≤ p.upper then
      match p.next b.toNat with
      | .inl c => c :: decodeFrom none bs
      | .inr q => decodeFrom (some q) bs
    else
      -- the byte that breaks a character off starts the next one
      '\uFFFD' ::
        match first b.toNat with
        | .inl c => c :: decodeFrom none bs
        | .inr q => decodeFrom (some q) bs

lemma toNat_ofNat_of_lt {n : Nat} (h : n < 256) : (UInt8.ofNat n).toNat = n := by
  simp [Nat.mod_eq_of_lt h]

section

variable {bs : List UInt8} {x due bits lower upper : Nat}

lemma decodeFrom_ascii (hx : x < 0x80) :
    decodeFrom none (UInt8.ofNat x :: bs) = Char.ofNat x :: decodeFrom none bs := by
  simp only [decodeFrom, toNat_ofNat_of_lt (show x < 256 by omega), first, if_pos hx]

lemma decodeFrom_first {p : Pending} (hx : x < 256) (hfirst : first x = .inr p) :
    decodeFrom none (UInt8.ofNat x :: bs) = decodeFrom (some p) bs := by
  simp only [decodeFrom, toNat_ofNat_of_lt hx, hfirst]

lemma decodeFrom_two (h2 : 2 ≤ x) (hx : x < 32) :
    decodeFrom none (UInt8.ofNat (x + 0xC0) :: bs) = decodeFrom (some ⟨1, x, 0x80, 0xBF⟩) bs := by
  refine decodeFrom_first (by omega) ?_
  rw [first, if_neg (by omega), if_neg (by omega), if_pos (by omega), Nat.add_sub_cancel]

lemma decodeFrom_three (hx : x < 16) :
    decodeFrom none (UInt8.ofNat (x + 0xE0) :: bs) =
      decodeFrom (some ⟨2, x, if x = 0 then 0xA0 else 0x80, if x = 13 then 0x9F else 0xBF⟩) bs := by
  refine decodeFrom_first (by omega) ?_
  rw [first, if_neg (by omega), if_neg (by omega), if_neg (by omega), if_pos (by omega), Nat.add_sub_cancel]
  simp only [show x + 0xE0 = 0xE0 ↔ x = 0 by omega, show x + 0xE0 = 0xED ↔ x = 13 by omega]

lemma decodeFrom_four (hx : x < 5) :
    decodeFrom none (UInt8.ofNat (x + 0xF0) :: bs) =
      decodeFrom (some ⟨3, x, if x = 0 then 0x90 else 0x80, if x = 4 then 0x8F else 0xBF⟩) bs := by
  refine decodeFrom_first (by omega) ?_
  rw [first, if_neg (by omega), if_neg (by omega), if_neg (by omega), if_neg (by omega),
    if_pos (by omega), Nat.add_sub_cancel]
  simp only [show x + 0xF0 = 0xF0 ↔ x = 0 by omega, show x + 0xF0 = 0xF4 ↔ x = 4 by omega]

lemma decodeFrom_more (hx : x < 64) (hlower : lower ≤ x + 0x80) (hupper : x + 0x80 ≤ upper) :
    decodeFrom (some ⟨due + 2, bits, lower, upper⟩) (UInt8.ofNat (x + 0x80) :: bs) =
      decodeFrom (some ⟨due + 1, bits * 64 + x, 0x80, 0xBF⟩) bs := by
  simp only [decodeFrom, toNat_ofNat_of_lt (show x + 0x80 < 256 by omega), hlower, hupper,
    and_self, if_true, Pending.next, Nat.add_sub_cancel]
  rfl

lemma decodeFrom_last (hx : x < 64) (hlower : lower ≤ x + 0x80) (hupper : x + 0x80 ≤ upper) :
    decodeFrom (some ⟨1, bits, lower, upper⟩) (UInt8.ofNat (x + 0x80) :: bs) =
      Char.ofNat (bits * 64 + x) :: decodeFrom none bs := by
  simp only [decodeFrom, toNat_ofNat_of_lt (show x + 0x80 < 256 by omega), hlower, hupper,
    and_self, if_true, Pending.next, Nat.add_sub_cancel]

end

/-- The bytes of a character are decoded to it, whatever follows. -/
lemma decodeFrom_word_append (c : Char) (bs : List UInt8) :
    decodeFrom none (utf8EncodeChar c ++ bs) = c :: decodeFrom none bs := by
  have hc : c.val.toNat < 0xD800 ∨ 0xDFFF < c.val.toNat ∧ c.val.toNat < 0x110000 := c.valid
  have hofNat : Char.ofNat c.val.toNat = c := Char.ofNat_toNat c
  unfold utf8EncodeChar
  generalize c.val.toNat = v at hc hofNat ⊢
  rw [← hofNat]
  dsimp only
  -- one case for each number of bytes
  split_ifs with h1 h2 h3
  · exact decodeFrom_ascii (by omega)
  · show decodeFrom none (_ :: _ :: bs) = _
    rw [decodeFrom_two (by omega) (by omega), decodeFrom_last (by omega) (by omega) (by omega)]
    congr 2
    omega
  · show decodeFrom none (_ :: _ :: _ :: bs) = _
    rw [decodeFrom_three (by omega), decodeFrom_more (by omega) (by split_ifs <;> omega)
      (by split_ifs <;> omega), decodeFrom_last (by omega) (by omega) (by omega)]
    congr 2
    omega
  · show decodeFrom none (_ :: _ :: _ :: _ :: bs) = _
    rw [decodeFrom_four (by omega), decodeFrom_more (by omega) (by split_ifs <;> omega)
      (by split_ifs <;> omega), decodeFrom_more (by omega) (by omega) (by omega),
      decodeFrom_last (by omega) (by omega) (by omega)]
    congr 2
    omega

lemma decodeFrom_encode (text : List Char) : decodeFrom none (text.flatMap utf8EncodeChar) = text := by
  induction text with
  | nil => rfl
  | cons c text ih => rw [flatMap_cons, decodeFrom_word_append, ih]

lemma eq_of_word_eq {a b : Char} (h : utf8EncodeChar a = utf8EncodeChar b) : a = b := by
  have ha := decodeFrom_word_append a []
  rw [h, decodeFrom_word_append b []] at ha
  exact (List.cons.inj ha).1.symm

/-- A byte that continues a character. -/
def IsContinuation (b : UInt8) : Prop := 0x80 ≤ b.toNat ∧ b.toNat < 0xC0

lemma isContinuation_ofNat {x : Nat} (hx : x < 64) : IsContinuation (UInt8.ofNat (x + 0x80)) := by
  rw [IsContinuation, toNat_ofNat_of_lt (by omega)]
  omega

/-- The first byte of a word does not continue a character, and the others do. -/
lemma exists_word_eq_cons (c : Char) : ∃ x bs, utf8EncodeChar c = UInt8.ofNat x :: bs ∧
    (∀ b ∈ bs, IsContinuation b) ∧ (x = c.toNat ∧ x < 0x80 ∨ 0x80 ≤ c.toNat ∧ 0xC0 ≤ x ∧ x < 256) := by
  have hc : c.val.toNat < 0xD800 ∨ 0xDFFF < c.val.toNat ∧ c.val.toNat < 0x110000 := c.valid
  show ∃ x bs, utf8EncodeChar c = UInt8.ofNat x :: bs ∧ (∀ b ∈ bs, IsContinuation b) ∧
      (x = c.val.toNat ∧ x < 0x80 ∨ 0x80 ≤ c.val.toNat ∧ 0xC0 ≤ x ∧ x < 256)
  unfold utf8EncodeChar
  generalize c.val.toNat = v at hc ⊢
  dsimp only
  split_ifs with h1 h2 h3
  · exact ⟨_, _, rfl, forall_mem_nil _, by omega⟩
  · exact ⟨_, _, rfl, forall_mem_singleton.2 (isContinuation_ofNat (by omega)), by omega⟩
  · refine ⟨_, _, rfl, ?_, by omega⟩
    rw [forall_mem_cons, forall_mem_singleton]
    exact ⟨isContinuation_ofNat (by omega), isContinuation_ofNat (by omega)⟩
  · refine ⟨_, _, rfl, ?_, by omega⟩
    rw [forall_mem_cons, forall_mem_cons, forall_mem_singleton]
    exact ⟨isContinuation_ofNat (by omega), isContinuation_ofNat (by omega),
      isContinuation_ofNat (by omega)⟩

end Utf8

def CharCode.utf8 : CharCode UInt8 where
  word := utf8EncodeChar
  unit c := UInt8.ofNat c.toNat
  word_ne_nil _ := String.utf8EncodeChar_ne_nil
  prefix_free a b h := by
    obtain ⟨bs, hbs⟩ := h
    have hb := Utf8.decodeFrom_word_append b []
    rw [List.append_nil, ← hbs, Utf8.decodeFrom_word_append a bs] at hb
    exact (List.cons.inj hb).1
  suffix_free a b h := by
    have hlead : ∀ c, ∃ b bs, utf8EncodeChar c = b :: bs ∧ ¬ Utf8.IsContinuation b ∧
        ∀ d ∈ bs, ¬ ¬ Utf8.IsContinuation d := by
      intro c
      obtain ⟨x, bs, hword, hbs, hx⟩ := Utf8.exists_word_eq_cons c
      refine ⟨_, bs, hword, ?_, fun d hd => not_not_intro (hbs d hd)⟩
      rw [Utf8.IsContinuation, Utf8.toNat_ofNat_of_lt (by omega)]
      omega
    exact Utf8.eq_of_word_eq (eq_of_suffix_of_lead hlead h)
  word_of_ascii c hc := by
    have hc' : c.val.toNat ≤ 0x7f := Nat.le_of_lt_succ hc
    simp only [utf8EncodeChar, if_pos hc']
    rfl
  eq_of_unit_mem a b ha h := by
    obtain ⟨x, bs, hb, hbs, hx⟩ := Utf8.exists_word_eq_cons b
    have hunit : (UInt8.ofNat a.toNat).toNat = a.toNat := Utf8.toNat_ofNat_of_lt (by omega)
    rw [hb, List.mem_cons] at h
    obtain heq | hmem := h
    · have hax : a.toNat = x := by
        rw [← hunit, heq, Utf8.toNat_ofNat_of_lt (by omega)]
      exact Char.toNat_inj.1 (by omega)
    · have hcont := hbs _ hmem
      rw [Utf8.IsContinuation, hunit] at hcont
      omega

/-- The text of bytes, with U+FFFD for each stretch of bytes that starts no character. -/
def decodeUtf8 (bytes : List UInt8) : List Char :=
  Utf8.decodeFrom none bytes

lemma decodeUtf8_encode (text : List Char) : decodeUtf8 (CharCode.utf8.encode text) = text :=
  Utf8.decodeFrom_encode text

namespace Utf16

/-- The units of a character: a pair of surrogates above the basic plane. -/
def word (c : Char) : List UInt16 :=
  if c.toNat < 0x10000 then [UInt16.ofNat c.toNat]
  else
    [UInt16.ofNat ((c.toNat - 0x10000) / 0x400 + 0xD800),
      UInt16.ofNat ((c.toNat - 0x10000) % 0x400 + 0xDC00)]

lemma toNat_ofNat_of_lt {n : Nat} (h : n < 65536) : (UInt16.ofNat n).toNat = n := by
  simp [Nat.mod_eq_of_lt h]

lemma toNat_bounds (c : Char) : c.toNat < 0xD800 ∨ 0xDFFF < c.toNat ∧ c.toNat < 0x110000 := c.valid

/-- A character is one unit that is no surrogate, or two surrogates that give it. -/
lemma word_cases (c : Char) :
    (∃ u, word c = [u] ∧ u.toNat = c.toNat ∧ (u.toNat < 0xD800 ∨ 0xDFFF < u.toNat)) ∨
    ∃ u v, word c = [u, v] ∧ 0xD800 ≤ u.toNat ∧ u.toNat < 0xDC00 ∧ 0xDC00 ≤ v.toNat ∧
      v.toNat < 0xE000 ∧ c.toNat = (u.toNat - 0xD800) * 0x400 + (v.toNat - 0xDC00) + 0x10000 := by
  have hc := toNat_bounds c
  by_cases h : c.toNat < 0x10000
  · left
    refine ⟨_, if_pos h, toNat_ofNat_of_lt h, ?_⟩
    rw [toNat_ofNat_of_lt h]
    omega
  · right
    refine ⟨_, _, if_neg h, ?_⟩
    rw [toNat_ofNat_of_lt (by omega), toNat_ofNat_of_lt (by omega)]
    omega

lemma eq_of_word_eq {a b : Char} (h : word a = word b) : a = b := by
  apply Char.toNat_inj.1
  obtain ⟨u, ha, hu⟩ | ⟨u, u', ha, hu⟩ := word_cases a <;>
    obtain ⟨v, hb, hv⟩ | ⟨v, v', hb, hv⟩ := word_cases b <;>
    simp only [ha, hb, List.cons.injEq, and_true, cons_ne_nil, and_false, ne_cons_self] at h
  · obtain rfl := h
    omega
  · obtain ⟨rfl, rfl⟩ := h
    omega

end Utf16

def CharCode.utf16 : CharCode UInt16 where
  word := Utf16.word
  unit c := UInt16.ofNat c.toNat
  word_ne_nil c := by
    obtain ⟨u, hu, -⟩ | ⟨u, v, huv, -⟩ := Utf16.word_cases c
    · simp [hu]
    · simp [huv]
  prefix_free a b h := by
    apply Char.toNat_inj.1
    obtain ⟨u, ha, hu⟩ | ⟨u, u', ha, hu⟩ := Utf16.word_cases a <;>
      obtain ⟨v, hb, hv⟩ | ⟨v, v', hb, hv⟩ := Utf16.word_cases b <;>
      simp only [ha, hb, List.cons_prefix_cons, List.prefix_nil, List.nil_prefix, and_true,
        List.cons_ne_nil, and_false] at h
    · obtain rfl := h
      omega
    · obtain rfl := h
      omega
    · obtain ⟨rfl, rfl⟩ := h
      omega
  suffix_free a b h := by
    have hlead : ∀ c, ∃ u us, Utf16.word c = u :: us ∧ (u.toNat < 0xDC00 ∨ 0xDFFF < u.toNat) ∧
        ∀ v ∈ us, ¬ (v.toNat < 0xDC00 ∨ 0xDFFF < v.toNat) := by
      intro c
      obtain ⟨u, hu, -, hrange⟩ | ⟨u, v, huv, hrange⟩ := Utf16.word_cases c
      · exact ⟨u, [], hu, by omega, List.forall_mem_nil _⟩
      · exact ⟨u, [v], huv, by omega, List.forall_mem_singleton.2 (by omega)⟩
    exact Utf16.eq_of_word_eq (eq_of_suffix_of_lead hlead h)
  word_of_ascii c hc := if_pos (by omega)
  eq_of_unit_mem a b ha h := by
    have hunit : (UInt16.ofNat a.toNat).toNat = a.toNat := Utf16.toNat_ofNat_of_lt (by omega)
    apply Char.toNat_inj.1
    obtain ⟨u, hu, hrange⟩ | ⟨u, v, huv, hrange⟩ := Utf16.word_cases b
    · rw [hu, List.mem_singleton] at h
      rw [← hunit, h, hrange.1]
    · rw [huv, List.mem_pair] at h
      obtain rfl | rfl := h <;> omega
