import Mathlib.Tactic.IntervalCases

/-!
# The text of JSON strings

A string literal as a serialiser writes it. A literal ends where its text says so: two texts that start with a literal
and are the same have the same string and the same rest (`quote_append_inj`), and so have two texts that start with
a list of literals (`quoteList_append_inj`).
-/

open List

namespace JsonText

/-- A digit of `\u00XX`. -/
def hexDigit (n : ℕ) : Char :=
  if n < 10 then Char.ofNat (48 + n) else Char.ofNat (87 + n)

/-- A character in a string literal. -/
def escape (c : Char) : List Char :=
  if c = '"' then ['\\', '"']
  else if c = '\\' then ['\\', '\\']
  else if c.toNat = 8 then ['\\', 'b']
  else if c.toNat = 9 then ['\\', 't']
  else if c.toNat = 10 then ['\\', 'n']
  else if c.toNat = 12 then ['\\', 'f']
  else if c.toNat = 13 then ['\\', 'r']
  else if c.toNat < 32 then ['\\', 'u', '0', '0', hexDigit (c.toNat / 16), hexDigit (c.toNat % 16)]
  else [c]

/-- A string literal, but for the mark that opens it. -/
def literalTail : List Char → List Char
  | [] => ['"']
  | c :: s => escape c ++ literalTail s

/-- A string literal. -/
def quote (s : String) : List Char :=
  '"' :: literalTail s.toList

/-- Texts with commas between them. -/
def join : List (List Char) → List Char
  | [] => []
  | [t] => t
  | t :: ts => t ++ ',' :: join ts

/-- An array of string literals. -/
def quoteList (l : List String) : List Char :=
  '[' :: (join (l.map quote) ++ [']'])

/-! ## Reading a character back -/

def hexValue (c : Char) : ℕ :=
  if c.toNat < 58 then c.toNat - 48 else c.toNat - 87

/-- The first character that a text stands for, and the rest of the text. -/
def unescape : List Char → Option (Char × List Char)
  | '\\' :: 'b' :: r => some (Char.ofNat 8, r)
  | '\\' :: 't' :: r => some (Char.ofNat 9, r)
  | '\\' :: 'n' :: r => some (Char.ofNat 10, r)
  | '\\' :: 'f' :: r => some (Char.ofNat 12, r)
  | '\\' :: 'r' :: r => some (Char.ofNat 13, r)
  | '\\' :: 'u' :: '0' :: '0' :: a :: b :: r => some (Char.ofNat (16 * hexValue a + hexValue b), r)
  | '\\' :: c :: r => some (c, r)
  | c :: r => some (c, r)
  | [] => none

variable {c : Char}

lemma eq_ofNat_of_toNat {n : ℕ} (h : c.toNat = n) : c = Char.ofNat n := by
  rw [← h, Char.ofNat_toNat]

lemma unescape_of_ne (hc : c ≠ '\\') (r : List Char) : unescape (c :: r) = some (c, r) := by
  rw [unescape.eq_def]
  split <;> simp_all

lemma unescape_escape (c : Char) (r : List Char) : unescape (escape c ++ r) = some (c, r) := by
  unfold escape
  split_ifs with hquote hbackslash hb ht hn hf hr hcontrol
  · rw [hquote]
    rfl
  · rw [hbackslash]
    rfl
  · rw [eq_ofNat_of_toNat hb]
    rfl
  · rw [eq_ofNat_of_toNat ht]
    rfl
  · rw [eq_ofNat_of_toNat hn]
    rfl
  · rw [eq_ofNat_of_toNat hf]
    rfl
  · rw [eq_ofNat_of_toNat hr]
    rfl
  · have hvalue : ∀ n < 32, Char.ofNat (16 * hexValue (hexDigit (n / 16)) + hexValue (hexDigit (n % 16))) =
        Char.ofNat n := by decide
    have hc := hvalue c.toNat hcontrol
    rw [Char.ofNat_toNat] at hc
    simp only [cons_append, nil_append, unescape, hc]
  · exact unescape_of_ne hbackslash r

variable {r r' : List Char}

lemma escape_append_inj {c' : Char} (h : escape c ++ r = escape c' ++ r') : c = c' ∧ r = r' := by
  have hread := congrArg unescape h
  rwa [unescape_escape, unescape_escape, Option.some.injEq, Prod.mk.injEq] at hread

/-- No character is written as the mark that ends a literal. -/
lemma escape_append_ne (c : Char) (r r' : List Char) : escape c ++ r ≠ '"' :: r' := by
  intro h
  have hread := congrArg unescape h
  rw [unescape_escape, unescape_of_ne (by decide), Option.some.injEq, Prod.mk.injEq] at hread
  obtain ⟨rfl, -⟩ := hread
  cases h

/-! ## Literals -/

lemma literalTail_append_inj {s s' : List Char} (h : literalTail s ++ r = literalTail s' ++ r') :
    s = s' ∧ r = r' := by
  induction s generalizing s' with
  | nil =>
    cases s' with
    | nil => exact ⟨rfl, List.cons.inj h |>.2⟩
    | cons c' s' =>
      rw [literalTail, literalTail, append_assoc] at h
      exact absurd h.symm (escape_append_ne c' _ _)
  | cons c s ih =>
    cases s' with
    | nil =>
      rw [literalTail, literalTail, append_assoc] at h
      exact absurd h (escape_append_ne c _ _)
    | cons =>
      rw [literalTail, literalTail, append_assoc, append_assoc] at h
      obtain ⟨rfl, htail⟩ := escape_append_inj h
      obtain ⟨rfl, hr⟩ := ih htail
      exact ⟨rfl, hr⟩

lemma quote_append_inj {s s' : String} (h : quote s ++ r = quote s' ++ r') : s = s' ∧ r = r' := by
  obtain ⟨hs, hr⟩ := literalTail_append_inj (List.cons.inj h).2
  exact ⟨String.toList_inj.1 hs, hr⟩

variable {l l' : List String}

lemma quoteItems_append_inj
    (h : join (l.map quote) ++ ']' :: r = join (l'.map quote) ++ ']' :: r') : l = l' ∧ r = r' := by
  have hnil : ∀ (l : List String) (r r' : List Char), l ≠ [] → ']' :: r ≠ join (l.map quote) ++ r' := by
    intro l r r' hl h
    cases l with
    | nil => exact hl rfl
    | cons s l => cases l <;> simp [join, quote] at h
  induction l generalizing l' with
  | nil =>
    cases l' with
    | nil => exact ⟨rfl, (List.cons.inj h).2⟩
    | cons => exact absurd h (hnil _ _ _ (by simp))
  | cons s l ih =>
    cases l' with
    | nil => exact absurd h.symm (hnil _ _ _ (by simp))
    | cons s' l' =>
      cases l with
      | nil =>
        cases l' with
        | nil =>
          obtain ⟨rfl, hr⟩ := quote_append_inj h
          exact ⟨rfl, (List.cons.inj hr).2⟩
        | cons =>
          simp only [map_cons, map_nil, join, append_assoc] at h
          obtain ⟨-, hr⟩ := quote_append_inj h
          simp at hr
      | cons t l =>
        cases l' with
        | nil =>
          simp only [map_cons, map_nil, join, append_assoc] at h
          obtain ⟨-, hr⟩ := quote_append_inj h
          simp at hr
        | cons t' l' =>
          simp only [map_cons, join, append_assoc] at h
          obtain ⟨rfl, hr⟩ := quote_append_inj h
          have htail : join ((t :: l).map quote) ++ ']' :: r = join ((t' :: l').map quote) ++ ']' :: r' :=
            (List.cons.inj hr).2
          obtain ⟨hl, hr⟩ := ih htail
          exact ⟨by rw [hl], hr⟩

lemma quoteList_append_inj (h : quoteList l ++ r = quoteList l' ++ r') :
    l = l' ∧ r = r' := by
  rw [quoteList, quoteList, cons_append, cons_append, append_assoc, append_assoc] at h
  exact quoteItems_append_inj (List.cons.inj h).2

end JsonText
