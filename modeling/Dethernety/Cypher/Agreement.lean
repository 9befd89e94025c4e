import Dethernety.Cypher.Splitter
import Mathlib.Tactic.Tauto

/-!
# When the two splitters agree

The loop on the code units of a text is the loop on its characters (`scan_encode`), and so is the
trimming (`trimWords_encode`). Both splitters therefore cut a text into the same raw statements
(`rawStatements`) and trim each in their own way, and they agree exactly when trimming takes neither
U+0085 nor U+FEFF for something to decide on.
-/

open List

namespace Cypher

open CharCode

/-! ### Trimming -/

section

variable {α : Type} [DecidableEq α] (code : CharCode α) {white : List Char} {text : List Char}

/-- A text without the characters of `white` at its ends. -/
def trimText (white text : List Char) : List Char :=
  (text.dropWhile (· ∈ white)).rdropWhile (· ∈ white)

variable {p : List α → Bool}

omit [DecidableEq α] in
/-- A test that holds of the word of `c` only finds it when `c` is in the list. -/
lemma find?_word {c : Char} (hp : ∀ w, p (code.word w) = true ↔ w = c) :
    (white.map code.word).find? p = if c ∈ white then some (code.word c) else none := by
  induction white with
  | nil => rfl
  | cons w white ih =>
    by_cases hw : w = c
    · subst hw
      rw [map_cons, find?_cons_of_pos ((hp w).2 rfl), if_pos (.head _)]
    · rw [map_cons, find?_cons_of_neg (fun h => hw ((hp w).1 h)), ih]
      simp only [mem_cons, Ne.symm hw, false_or]

lemma find?_word_prefix (c : Char) (text : List Char) :
    (white.map code.word).find? (fun w => w.isPrefixOf (code.encode (c :: text))) =
      if c ∈ white then some (code.word c) else none := by
  refine find?_word code (fun w => ?_)
  rw [List.isPrefixOf_iff_prefix]
  constructor
  · exact code.eq_of_word_prefix_encode
  · rintro rfl
    exact ⟨code.encode text, rfl⟩

lemma find?_word_suffix (text : List Char) (c : Char) :
    (white.map code.word).find? (fun w => w.isSuffixOf (code.encode (text ++ [c]))) =
      if c ∈ white then some (code.word c) else none := by
  refine find?_word code (fun w => ?_)
  rw [isSuffixOf_iff_suffix]
  constructor
  · exact code.eq_of_word_suffix_encode
  · rintro rfl
    exact ⟨code.encode text, by simp⟩

omit [DecidableEq α] in
lemma find?_word_nil (hp : ∀ w, p w = true → w = []) : (white.map code.word).find? p = none := by
  rw [find?_eq_none]
  intro w hw hnil
  obtain ⟨c, -, rfl⟩ := mem_map.1 hw
  exact code.word_ne_nil c (hp _ hnil)

lemma trimLeft_encode {fuel : Nat} (hfuel : text.length ≤ fuel) :
    trimLeft (white.map code.word) fuel (code.encode text) = code.encode (text.dropWhile (· ∈ white)) := by
  induction text generalizing fuel with
  | nil =>
    cases fuel with
    | zero => rfl
    | succ fuel =>
      rw [trimLeft, code.encode_nil,
        find?_word_nil code (fun w h => prefix_nil.1 (List.isPrefixOf_iff_prefix.1 h))]
      rfl
  | cons c text ih =>
    cases fuel with
    | zero => cases hfuel
    | succ fuel =>
      rw [trimLeft, find?_word_prefix, dropWhile_cons]
      by_cases hc : c ∈ white
      · simp only [hc, if_true, decide_true]
        rw [code.encode_cons, drop_left, ih (Nat.le_of_succ_le_succ hfuel)]
      · simp only [hc, if_false, decide_false, Bool.false_eq_true]

lemma trimRight_encode {fuel : Nat} (hfuel : text.length ≤ fuel) :
    trimRight (white.map code.word) fuel (code.encode text) = code.encode (text.rdropWhile (· ∈ white)) := by
  induction text using List.reverseRecOn generalizing fuel with
  | nil =>
    cases fuel with
    | zero => rfl
    | succ fuel =>
      rw [trimRight, code.encode_nil,
        find?_word_nil code (fun w h => suffix_nil.1 (isSuffixOf_iff_suffix.1 h))]
      rfl
  | append_singleton text c ih =>
    rw [length_append, length_singleton] at hfuel
    cases fuel with
    | zero => cases hfuel
    | succ fuel =>
      rw [trimRight, find?_word_suffix, rdropWhile_concat]
      by_cases hc : c ∈ white
      · simp only [hc, if_true, decide_true]
        rw [code.encode_append, length_append, code.encode_cons, code.encode_nil,
          append_nil, Nat.add_sub_cancel, take_left, ih (Nat.le_of_succ_le_succ hfuel)]
      · simp only [hc, if_false, decide_false, Bool.false_eq_true]

/-- Trimming the words of characters from code units is trimming the characters. -/
theorem trimWords_encode (white text : List Char) :
    trimWords (white.map code.word) (code.encode text) = code.encode (trimText white text) := by
  have hlen := code.length_le_length_encode text
  have hdrop : (text.dropWhile (· ∈ white)).length ≤ text.length :=
    (dropWhile_sublist _).length_le
  rw [trimWords, trimLeft_encode code hlen, trimRight_encode code (Nat.le_trans hdrop hlen)]
  rfl

lemma keep_trimWords_encode (white text : List Char) :
    keep (trimWords (white.map code.word) (code.encode text)) =
      (keep (trimText white text)).map code.encode := by
  rw [trimWords_encode]
  by_cases h : trimText white text = []
  · simp [keep, h]
  · simp [keep, h, code.encode_eq_nil_iff]

end

/-! ### The loop -/

section

variable {α : Type} [DecidableEq α] {unit : Char → α} {emit : List α → List (List α)} {s : Scan α}
  {ch : α} {next : Option α}

/-- The unit begins an escape sequence. -/
def IsEscape (unit : Char → α) (s : Scan α) (ch : α) (next : Option α) : Prop :=
  !s.inBlockComment ∧ !s.inLineComment ∧ ch = unit '\\' ∧ next.isSome

/-- Take in units that mean nothing to the loop. -/
def Scan.push (s : Scan α) (units : List α) : Scan α :=
  if s.inBlockComment ∨ s.inLineComment then s else { s with current := s.current ++ units }

omit [DecidableEq α] in
lemma Scan.push_nil (s : Scan α) : s.push [] = s := by
  rw [Scan.push]
  split_ifs
  · rfl
  · rw [append_nil]

omit [DecidableEq α] in
lemma Scan.push_push (s : Scan α) (u v : List α) : (s.push u).push v = s.push (u ++ v) := by
  by_cases h : s.inBlockComment ∨ s.inLineComment
  · simp only [Scan.push, h, if_true]
  · simp only [Scan.push, h, if_false, append_assoc]

omit [DecidableEq α] in
@[simp]
lemma Scan.push_stringChar (s : Scan α) (u : List α) : (s.push u).stringChar = s.stringChar := by
  rw [Scan.push]
  split_ifs <;> rfl

/-- A unit of no ASCII character, which then ends no string either. -/
lemma step_of_plain (hplain : ∀ a : Char, a.toNat < 128 → ch ≠ unit a)
    (hquote : some ch ≠ s.stringChar) : step unit emit s ch next = (s.push [ch], false) := by
  have hne : ∀ a : Char, a.toNat < 128 → (ch = unit a) = False := fun a ha => eq_false (hplain a ha)
  have hquote' : (some ch = s.stringChar) = False := eq_false hquote
  simp only [step, hne '/' (by decide), hne '*' (by decide), hne '\n' (by decide),
    hne '\\' (by decide), hne '\'' (by decide), hne '"' (by decide), hne ';' (by decide), hquote',
    false_and, and_false, or_false, if_false, Scan.push]
  by_cases hblock : s.inBlockComment
  · simp only [hblock, true_or, if_true]
  · by_cases hline : s.inLineComment
    · simp only [hblock, hline, Bool.false_eq_true, if_false, or_true, if_true]
    · simp only [hblock, hline, Bool.false_eq_true, if_false, or_self]

lemma step_of_isEscape {n : α} (hslash : unit '\\' ≠ unit '/') (h : IsEscape unit s ch (some n)) :
    step unit emit s ch (some n) = ({ s with current := s.current ++ [ch] ++ [n] }, true) := by
  obtain ⟨hblock, hline, rfl, -⟩ := h
  simp only [Bool.not_eq_true'] at hblock hline
  simp [step, hblock, hline, hslash]

lemma next_of_step_two (h : (step unit emit s ch next).2 = true) :
    IsEscape unit s ch next ∨ next = some (unit '*') ∨ next = some (unit '/') := by
  unfold step at h
  split_ifs at h with h1 h2 h3 h4 h5 h6 h7
  · exact .inr (.inl h1.2.2.2.2)
  · exact .inr (.inr h2.2.2)
  · exact .inr (.inr h4.2.2.2)
  · exact .inl ⟨by simpa using h3, by simpa using h6, h7⟩

lemma step_stringChar (unit : Char → α) (emit : List α → List (List α)) (s : Scan α) (ch : α)
    (next : Option α) : (step unit emit s ch next).1.stringChar = s.stringChar ∨
    (step unit emit s ch next).1.stringChar = some ch ∧ (ch = unit '\'' ∨ ch = unit '"') := by
  fun_cases step unit emit s ch next with
  | case8 _ _ _ _ _ _ _ hquote => exact .inr ⟨rfl, hquote.2⟩
  | _ => exact .inl rfl

variable {rest : List α}

lemma scan_cons_one {s' : Scan α} (h : step unit emit s ch rest.head? = (s', false)) :
    scan unit emit s (ch :: rest) = scan unit emit s' rest := by
  rw [scan, h]

lemma scan_cons_two {n : α} {s' : Scan α} (h : step unit emit s ch (some n) = (s', true)) :
    scan unit emit s (ch :: n :: rest) = scan unit emit s' rest := by
  rw [scan, head?_cons, h]

lemma scan_singleton : scan unit emit s [ch] = (step unit emit s ch none).1 := by
  rw [scan, head?_nil]
  obtain ⟨s', b⟩ := step unit emit s ch none
  cases b <;> rfl

lemma scan_plain_append {us : List α} (hplain : ∀ u ∈ us, ∀ a : Char, a.toNat < 128 → u ≠ unit a)
    (hquote : ∀ u ∈ us, some u ≠ s.stringChar) : scan unit emit s (us ++ rest) = scan unit emit (s.push us) rest := by
  induction us generalizing s with
  | nil => rw [nil_append, s.push_nil]
  | cons u us ih =>
    obtain ⟨hu, hus⟩ := forall_mem_cons.1 hplain
    obtain ⟨hqu, hqus⟩ := forall_mem_cons.1 hquote
    rw [cons_append, scan_cons_one (step_of_plain hu hqu),
      ih hus (fun v hv => (s.push_stringChar [u]).symm ▸ hqus v hv), s.push_push]
    rfl

end

section

variable {α : Type} [DecidableEq α]

/-- The loop on characters that keeps each statement as it is. -/
def scanText (s : Scan Char) (text : List Char) : Scan Char :=
  scan id (fun p => [p]) s text

/-- The state of the loop on characters, in code units and with what `emit` makes of statements. -/
def Scan.encode (code : CharCode α) (emit : List α → List (List α)) (s : Scan Char) : Scan α where
  statements := s.statements.flatMap (fun p => emit (code.encode p))
  current := code.encode s.current
  inString := s.inString
  stringChar := s.stringChar.map code.unit
  inLineComment := s.inLineComment
  inBlockComment := s.inBlockComment

/-- The string delimiter is ASCII. -/
def Scan.Quoted (s : Scan Char) : Prop :=
  ∀ q, s.stringChar = some q → q.toNat < 128

variable {s : Scan Char}

lemma Scan.Quoted.step (h : s.Quoted) (emit : List Char → List (List Char))
    (ch : Char) (next : Option Char) : (step id emit s ch next).1.Quoted := by
  intro q hq
  obtain heq | ⟨heq, hch⟩ := step_stringChar id emit s ch next
  · exact h q (heq.symm.trans hq)
  · cases heq.symm.trans hq
    obtain rfl | rfl := hch <;> decide

variable {code : CharCode α} {emit : List α → List (List α)} {a : Char}

omit [DecidableEq α] in
lemma unit_eq_unit_iff {b : Char} (ha : a.toNat < 128) (hb : b.toNat < 128) :
    code.unit a = code.unit b ↔ a = b := by
  constructor
  · intro h
    apply code.eq_of_unit_mem a b ha
    rw [code.word_of_ascii b hb, h]
    exact mem_singleton_self _
  · rintro rfl
    rfl

omit [DecidableEq α] in
lemma head?_encode_eq_iff (ha : a.toNat < 128) (text : List Char) :
    (code.encode text).head? = some (code.unit a) ↔ text.head? = some a := by
  cases text with
  | nil => simp
  | cons c text =>
    obtain ⟨u, us, hword⟩ := exists_cons_of_ne_nil (code.word_ne_nil c)
    rw [code.encode_cons, hword, cons_append, head?_cons, head?_cons,
      Option.some.injEq, Option.some.injEq]
    constructor
    · rintro rfl
      exact (code.eq_of_unit_mem a c ha (hword ▸ (.head _))).symm
    · rintro rfl
      rw [code.word_of_ascii c ha] at hword
      exact (List.cons.inj hword).1.symm

omit [DecidableEq α] in
lemma isSome_head?_encode (text : List Char) : (code.encode text).head?.isSome = text.head?.isSome := by
  cases text with
  | nil => rfl
  | cons c text =>
    obtain ⟨u, us, hword⟩ := exists_cons_of_ne_nil (code.word_ne_nil c)
    rw [code.encode_cons, hword]
    rfl

variable {c : Char}

omit [DecidableEq α] in
lemma ne_unit_of_mem_word {u : α} (hc : ¬ c.toNat < 128) (hu : u ∈ code.word c)
    (ha : a.toNat < 128) : u ≠ code.unit a := by
  rintro rfl
  exact hc (code.eq_of_unit_mem a c ha hu ▸ ha)

variable (emit) in
omit [DecidableEq α] in
lemma some_ne_stringChar (hs : s.Quoted) {u : α}
    (hu : ∀ a : Char, a.toNat < 128 → u ≠ code.unit a) : some u ≠ (s.encode code emit).stringChar := by
  intro h
  obtain ⟨q, hq, rfl⟩ := Option.map_eq_some_iff.1 h.symm
  exact hu q (hs q hq) rfl

omit [DecidableEq α] in
lemma encode_push (s : Scan Char) (t : List Char) :
    (s.push t).encode code emit = (s.encode code emit).push (code.encode t) := by
  by_cases h : s.inBlockComment ∨ s.inLineComment
  · have h' : (s.encode code emit).inBlockComment ∨ (s.encode code emit).inLineComment := h
    simp only [Scan.push, h, h', if_true]
  · have h' : ¬ ((s.encode code emit).inBlockComment ∨ (s.encode code emit).inLineComment) := h
    simp only [Scan.push, h, h', if_false]
    simp only [Scan.encode, code.encode_append]

/-- The loop does the same to the units of a text as to its characters. -/
def Simulated (code : CharCode α) (emit : List α → List (List α)) (text : List Char) : Prop :=
  ∀ s : Scan Char, s.Quoted →
    scan code.unit emit (s.encode code emit) (code.encode text) = (scanText s text).encode code emit

variable (code emit) in
/-- A round at an ASCII character other than an escape. -/
lemma step_encode (hs : s.Quoted) (hc : c.toNat < 128)
    (rest : List Char) (hescape : ¬ IsEscape id s c rest.head?) :
    step code.unit emit (s.encode code emit) (code.unit c) (code.encode rest).head? =
      ((step id (fun p => [p]) s c rest.head?).1.encode code emit, (step id (fun p => [p]) s c rest.head?).2) := by
  have hquote : (some (code.unit c) = (s.encode code emit).stringChar) = (some c = s.stringChar) := by
    apply propext
    show some (code.unit c) = s.stringChar.map code.unit ↔ some c = s.stringChar
    cases hq : s.stringChar with
    | none => simp
    | some q => simpa using unit_eq_unit_iff hc (hs q hq)
  have hunit : ∀ a : Char, a.toNat < 128 → (code.unit c = code.unit a) = (c = id a) :=
    fun a ha => propext (unit_eq_unit_iff hc ha)
  have hnext : ∀ a : Char, a.toNat < 128 →
      ((code.encode rest).head? = some (code.unit a)) = (rest.head? = some (id a)) :=
    fun a ha => propext (head?_encode_eq_iff ha rest)
  have hword := code.word_of_ascii c hc
  have hnewline := code.word_of_ascii '\n' (by decide)
  rw [step]
  simp only [hunit '/' (by decide), hunit '*' (by decide), hunit '\n' (by decide),
    hunit '\\' (by decide), hunit '\'' (by decide), hunit '"' (by decide), hunit ';' (by decide),
    hnext '/' (by decide), hnext '*' (by decide), hquote, isSome_head?_encode]
  -- the conditions are now those of the loop on characters, branch by branch
  fun_cases step id (fun p => [p]) s c rest.head? with
  | case7 _ _ h3 _ _ h6 h7 => exact absurd ⟨by simpa using h3, by simpa using h6, h7⟩ hescape
  | _ =>
    repeat first
      | refine (if_neg (by assumption)).trans ?_
      | refine (if_pos (by assumption)).trans ?_
    first
    | rfl
    | simp [Scan.encode, hnewline, hword]

lemma Simulated.escape (hs : s.Quoted) {n : Char} {rest : List Char}
    (hc : c.toNat < 128) (hescape : IsEscape id s c (some n)) (ih : Simulated code emit rest) :
    scan code.unit emit (s.encode code emit) (code.encode (c :: n :: rest)) =
      (scanText s (c :: n :: rest)).encode code emit := by
  obtain ⟨u, us, hword⟩ := exists_cons_of_ne_nil (code.word_ne_nil n)
  have hescapeU : IsEscape code.unit (s.encode code emit) (code.unit c) (some u) :=
    ⟨hescape.1, hescape.2.1, congrArg code.unit hescape.2.2.1, rfl⟩
  have hslash : code.unit '\\' ≠ code.unit '/' := by
    rw [Ne, unit_eq_unit_iff (by decide) (by decide)]
    decide
  have hplain : ∀ v ∈ us, ∀ a : Char, a.toNat < 128 → v ≠ code.unit a := by
    intro v hv a ha
    by_cases hn : n.toNat < 128
    · rw [code.word_of_ascii n hn] at hword
      rw [← (List.cons.inj hword).2] at hv
      cases hv
    · exact ne_unit_of_mem_word hn (hword ▸ mem_cons_of_mem u hv) ha
  let s' : Scan Char := { s with current := s.current ++ [c] ++ [n] }
  have hs' : s'.Quoted := hs
  let t : Scan α := { s.encode code emit with current := (s.encode code emit).current ++ [code.unit c] ++ [u] }
  have hquote : ∀ v ∈ us, some v ≠ t.stringChar := fun v hv =>
    some_ne_stringChar emit hs (hplain v hv)
  have hpush : t.push us = s'.encode code emit := by
    obtain ⟨hblock, hline, -⟩ := hescape
    simp only [Bool.not_eq_true'] at hblock hline
    simp [Scan.push, Scan.encode, s', t, hblock, hline, hword, code.word_of_ascii c hc]
  rw [code.encode_cons, code.encode_cons, code.word_of_ascii c hc, hword, singleton_append,
    cons_append, scan_cons_two (step_of_isEscape hslash hescapeU),
    scan_plain_append hplain hquote, hpush, ih s' hs',
    scanText, scanText, scan_cons_two (step_of_isEscape (by decide) hescape)]

lemma Simulated.plain (hs : s.Quoted) {rest : List Char}
    (hc : ¬ c.toNat < 128) (ih : Simulated code emit rest) :
    scan code.unit emit (s.encode code emit) (code.encode (c :: rest)) = (scanText s (c :: rest)).encode code emit := by
  have hword : ∀ u ∈ code.word c, ∀ a : Char, a.toNat < 128 → u ≠ code.unit a :=
    fun u hu a ha => ne_unit_of_mem_word hc hu ha
  have hchar : ∀ a : Char, a.toNat < 128 → c ≠ id a := fun a ha h => hc (h ▸ ha)
  have hquote : some c ≠ s.stringChar := fun h => hc (hs c h.symm)
  have hs' : (s.push [c]).Quoted := fun q hq => hs q ((s.push_stringChar [c]).symm.trans hq)
  rw [code.encode_cons, scan_plain_append hword (fun u hu => some_ne_stringChar emit hs (hword u hu)),
    scanText, scan_cons_one (step_of_plain hchar hquote), ← scanText, ← ih (s.push [c]) hs',
    encode_push, code.encode_cons, code.encode_nil, append_nil]

variable (code emit) in
/-- The loop on the code units of a text is the loop on its characters. -/
theorem scan_encode (text : List Char) : Simulated code emit text := by
  induction hlen : text.length using Nat.strong_induction_on generalizing text with
  | _ len ih =>
    subst hlen
    intro s hs
    cases text with
    | nil => rfl
    | cons c rest =>
      by_cases hc : c.toNat < 128
      · cases rest with
        | nil =>
          have hnone : ¬ IsEscape id s c ([] : List Char).head? := fun h => by simpa using h.2.2.2
          have hstep := step_encode code emit hs hc [] hnone
          rw [code.encode_cons, code.word_of_ascii c hc]
          show scan code.unit emit (s.encode code emit) [code.unit c] = _
          rw [scan_singleton, scanText, scan_singleton]
          exact congrArg Prod.fst hstep
        | cons n rest =>
          by_cases hescape : IsEscape id s c (some n)
          · exact Simulated.escape hs hc hescape (ih rest.length (by rw [length_cons, length_cons]; omega) rest rfl)
          · have hstep := step_encode code emit hs hc (n :: rest) hescape
            have hs' := hs.step (fun p => [p]) c (some n)
            rw [code.encode_cons, code.word_of_ascii c hc, singleton_append]
            cases htwo : (step id (fun p => [p]) s c (some n)).2 with
            | false =>
              have hchar : step id (fun p => [p]) s c (n :: rest).head? =
                ((step id (fun p => [p]) s c (some n)).1, false) :=
                Prod.ext rfl htwo
              rw [hchar] at hstep
              rw [scan_cons_one hstep, ih (n :: rest).length (by simp) (n :: rest) rfl _ hs',
                scanText, scanText, scan_cons_one hchar]
            | true =>
              -- the second unit is a slash or a star
              have hn : n.toNat < 128 := by
                obtain h | h | h := next_of_step_two htwo
                · exact absurd h hescape
                all_goals
                  cases h
                  decide
              have hchar : step id (fun p => [p]) s c (some n) = ((step id (fun p => [p]) s c (some n)).1, true) :=
                Prod.ext rfl htwo
              rw [code.encode_cons, code.word_of_ascii n hn, head?_cons, hchar] at hstep
              rw [code.encode_cons, code.word_of_ascii n hn, singleton_append,
                scan_cons_two hstep, ih rest.length (by rw [length_cons, length_cons]; omega) rest rfl _ hs',
                scanText, scanText, scan_cons_two hchar]
      · exact Simulated.plain hs hc (ih rest.length (by simp) rest rfl)

end

/-! ### The two splitters -/

/-- The statements of a text without comments, as they stand between the delimiters. -/
def rawStatements (text : List Char) : List (List Char) :=
  (scanText {} text).finish (fun p => [p])

/-- Every string literal and every block comment of the text is closed. -/
def Closed (text : List Char) : Prop :=
  (scanText {} text).inString = false ∧ (scanText {} text).inBlockComment = false

instance (text : List Char) : Decidable (Closed text) :=
  inferInstanceAs (Decidable (_ ∧ _))

section

variable {α : Type} [DecidableEq α] (code : CharCode α) (white text : List Char)

/-- Trimmed statements, without the empty ones. -/
def trimmed (white : List Char) (raws : List (List Char)) : List (List Char) :=
  raws.flatMap (fun raw => keep (trimText white raw))

lemma scan_init_encode (emit : List α → List (List α)) :
    scan code.unit emit {} (code.encode text) = (scanText {} text).encode code emit :=
  scan_encode code emit text {} (fun _ hq => nomatch hq)

lemma finish_scan_encode :
    (scan code.unit (fun p => keep (trimWords (white.map code.word) p)) {} (code.encode text)).finish
      (fun p => keep (trimWords (white.map code.word) p)) = (trimmed white (rawStatements text)).map code.encode := by
  rw [scan_init_encode]
  simp only [Scan.finish, Scan.encode, rawStatements, trimmed, flatMap_append, map_append,
    flatMap_singleton, keep_trimWords_encode, map_flatMap]

end

lemma goParseStatements_encode {text : List Char} (h : Closed text) :
    goParseStatements (utf8.encode text) =
      .ok ((trimmed goSpace (rawStatements text)).map utf8.encode) := by
  have hscan := scan_init_encode utf8 text (fun current => keep (trimSpace current))
  have hstring : ¬ (scan utf8.unit (fun current => keep (trimSpace current)) {}
      (utf8.encode text)).inString := by
    rw [hscan]
    exact Bool.eq_false_iff.1 h.1
  have hblock : ¬ (scan utf8.unit (fun current => keep (trimSpace current)) {}
      (utf8.encode text)).inBlockComment := by
    rw [hscan]
    exact Bool.eq_false_iff.1 h.2
  rw [goParseStatements, if_neg hstring, if_neg hblock]
  exact congrArg Except.ok (finish_scan_encode utf8 goSpace text)

lemma tsParseStatements_encode (text : List Char) :
    tsParseStatements (utf16.encode text) =
      (trimmed jsSpace (rawStatements text)).map utf16.encode :=
  finish_scan_encode utf16 jsSpace text

/-! ### Margins -/

/-- The characters that are white space to one of the two languages. -/
def anySpace : List Char := nextLine :: byteOrderMark :: space

lemma mem_anySpace_iff {d : Char} : d ∈ anySpace ↔ d = byteOrderMark ∨ d ∈ goSpace := by
  rw [anySpace, goSpace, mem_cons, mem_cons, mem_cons]
  tauto

lemma mem_anySpace_iff' {d : Char} : d ∈ anySpace ↔ d = nextLine ∨ d ∈ jsSpace := by
  rw [anySpace, jsSpace, mem_cons, mem_cons]

/-- The white space at either end of a raw statement holds neither U+0085 nor U+FEFF. -/
def PlainMargins (raw : List Char) : Prop :=
  ∀ c ∈ raw.takeWhile (· ∈ anySpace) ++ raw.rtakeWhile (· ∈ anySpace),
    c ≠ nextLine ∧ c ≠ byteOrderMark

instance (raw : List Char) : Decidable (PlainMargins raw) :=
  List.decidableBAll _ _

section

variable {white more : List Char} {c : Char} {raw : List Char}

lemma dropWhile_eq_of_takeWhile (hsub : ∀ d ∈ white, d ∈ more) (h : ∀ d ∈ raw.takeWhile (· ∈ more), d ∈ white) :
    raw.dropWhile (· ∈ white) = raw.dropWhile (· ∈ more) := by
  induction raw with
  | nil => rfl
  | cons d raw ih =>
    by_cases hd : d ∈ more
    · rw [takeWhile_cons_of_pos (by simpa using hd)] at h
      obtain ⟨hwhite, hrest⟩ := forall_mem_cons.1 h
      rw [dropWhile_cons_of_pos (by simpa using hwhite),
        dropWhile_cons_of_pos (by simpa using hd), ih hrest]
    · have hnot : d ∉ white := fun hw => hd (hsub d hw)
      rw [dropWhile_cons_of_neg (by simpa using hnot), dropWhile_cons_of_neg (by simpa using hd)]

lemma rdropWhile_eq_of_rtakeWhile (hsub : ∀ d ∈ white, d ∈ more) (h : ∀ d ∈ raw.rtakeWhile (· ∈ more), d ∈ white) :
    raw.rdropWhile (· ∈ white) = raw.rdropWhile (· ∈ more) := by
  have hrev : ∀ d ∈ raw.reverse.takeWhile (· ∈ more), d ∈ white :=
    fun d hd => h d (mem_reverse.2 hd)
  exact congrArg List.reverse (dropWhile_eq_of_takeWhile hsub hrev)

lemma mem_rtakeWhile_of_dropWhile {d : Char} {p q : Char → Bool}
    (hd : d ∈ (raw.dropWhile q).rtakeWhile p) : d ∈ raw.rtakeWhile p := by
  rw [List.rtakeWhile, mem_reverse] at hd ⊢
  have hraw : raw.reverse = (raw.dropWhile q).reverse ++ (raw.takeWhile q).reverse := by
    rw [← reverse_append, takeWhile_append_dropWhile]
  rw [hraw, takeWhile_append]
  split_ifs
  · exact mem_append_left _ ((takeWhile_sublist p).subset hd)
  · exact hd

lemma trimText_eq_of_margins (white more : List Char) (hsub : ∀ d ∈ white, d ∈ more)
    (hleft : ∀ d ∈ raw.takeWhile (· ∈ more), d ∈ white)
    (hright : ∀ d ∈ raw.rtakeWhile (· ∈ more), d ∈ white) : trimText white raw = trimText more raw := by
  rw [trimText, trimText, dropWhile_eq_of_takeWhile hsub hleft]
  exact rdropWhile_eq_of_rtakeWhile hsub (fun d hd => hright d (mem_rtakeWhile_of_dropWhile hd))

lemma trimText_around (hc : c ∉ white) (before after : List Char) :
    trimText white (before ++ c :: after) =
      before.dropWhile (· ∈ white) ++ c :: after.rdropWhile (· ∈ white) := by
  have hdrop : ∀ xs ys : List Char, (xs ++ c :: ys).dropWhile (· ∈ white) =
      xs.dropWhile (· ∈ white) ++ c :: ys := by
    intro xs ys
    have hstop : (c :: ys).dropWhile (· ∈ white) = c :: ys :=
      dropWhile_cons_of_neg (by simpa using hc)
    rw [dropWhile_append]
    split_ifs with hempty
    · rw [hstop, List.isEmpty_iff.1 hempty, nil_append]
    · rfl
  rw [trimText, hdrop, List.rdropWhile, reverse_append, reverse_cons, append_assoc,
    singleton_append, hdrop]
  simp [List.rdropWhile]

/-- The first character of a margin that is not in `white` has only `white` before it. -/
lemma exists_first_of_mem_takeWhile (hmore : ∀ d ∈ more, d = c ∨ d ∈ white) (h : c ∈ raw.takeWhile (· ∈ more)) :
    ∃ before after, raw = before ++ c :: after ∧ ∀ d ∈ before, d ∈ white := by
  induction raw with
  | nil => cases h
  | cons d raw ih =>
    by_cases hd : d ∈ more
    · rw [takeWhile_cons_of_pos (by simpa using hd)] at h
      by_cases hdc : d = c
      · subst hdc
        exact ⟨[], raw, rfl, forall_mem_nil _⟩
      · obtain heq | hmem := mem_cons.1 h
        · exact absurd heq.symm hdc
        · obtain ⟨before, after, rfl, hbefore⟩ := ih hmem
          exact ⟨d :: before, after, rfl,
            forall_mem_cons.2 ⟨(hmore d hd).resolve_left hdc, hbefore⟩⟩
    · rw [takeWhile_cons_of_neg (by simpa using hd)] at h
      cases h

lemma notMem_of_dropWhile_eq_cons {rest : List Char} (h : raw.dropWhile (· ∈ white) = c :: rest) : c ∉ white := by
  have hhead := head?_dropWhile_not (· ∈ white) raw
  rw [h] at hhead
  simpa using hhead

lemma ends_of_mem_trimmed {raws : List (List Char)} {st : List Char} (h : st ∈ trimmed white raws) :
    (∀ d rest, st = d :: rest → d ∉ white) ∧ ∀ d rest, st = rest ++ [d] → d ∉ white := by
  obtain ⟨raw, -, hst⟩ := mem_flatMap.1 h
  obtain ⟨rfl, _⟩ : st = trimText white raw ∧ trimText white raw ≠ [] := by
    rw [keep] at hst
    split_ifs at hst with hnil
    · cases hst
    · exact ⟨mem_singleton.1 hst, hnil⟩
  constructor
  · intro d rest hd
    obtain ⟨tail, htail⟩ : trimText white raw <+: raw.dropWhile (· ∈ white) :=
      List.rdropWhile_prefix _ _
    rw [hd, cons_append] at htail
    exact notMem_of_dropWhile_eq_cons htail.symm
  · intro d rest hd
    have hrev := congrArg List.reverse hd
    rw [trimText, List.rdropWhile, reverse_reverse, reverse_append] at hrev
    exact notMem_of_dropWhile_eq_cons hrev

end

/-- Where the splitters agree, neither takes white space of the other for text at a margin. -/
lemma notMem_margins {white other : List Char} {c : Char} {raw : List Char}
    {raws : List (List Char)} (hc : c ∉ white) (hother : c ∈ other)
    (hmore : ∀ d ∈ anySpace, d = c ∨ d ∈ white) (hraw : raw ∈ raws) (h : trimmed white raws = trimmed other raws) :
    c ∉ raw.takeWhile (· ∈ anySpace) ∧ c ∉ raw.rtakeWhile (· ∈ anySpace) := by
  -- a statement that trimming leaves with `c` at an end is a statement of both splitters
  have hkept : ∀ st, trimText white raw = st → st ≠ [] → st ∈ trimmed other raws := by
    rintro st rfl hne
    rw [← h]
    refine mem_flatMap.2 ⟨raw, hraw, ?_⟩
    rw [keep, if_neg hne]
    exact mem_singleton_self _
  constructor
  · intro hmem
    obtain ⟨before, after, rfl, hbefore⟩ := exists_first_of_mem_takeWhile hmore hmem
    have htrim := trimText_around hc before after
    rw [dropWhile_eq_nil_iff.2 (by simpa using hbefore), nil_append] at htrim
    exact (ends_of_mem_trimmed (hkept _ htrim (cons_ne_nil _ _))).1 c _ rfl hother
  · intro hmem
    rw [List.rtakeWhile, mem_reverse] at hmem
    obtain ⟨after, before, hrev, hafter⟩ := exists_first_of_mem_takeWhile hmore hmem
    have hsplit : raw = before.reverse ++ c :: after.reverse := by
      rw [← reverse_reverse raw, hrev]
      simp
    have htrim := trimText_around hc before.reverse after.reverse
    rw [← hsplit, rdropWhile_eq_nil_iff.2 (by simpa using hafter)] at htrim
    exact (ends_of_mem_trimmed (hkept _ htrim (by simp))).2 c _ rfl hother

lemma trimmed_eq_iff (raws : List (List Char)) :
    trimmed goSpace raws = trimmed jsSpace raws ↔ ∀ raw ∈ raws, PlainMargins raw := by
  constructor
  · intro h raw hraw c hc
    have hmark := notMem_margins (by decide) (by decide) (fun _ => mem_anySpace_iff.1) hraw h
    have hline := notMem_margins (by decide) (by decide) (fun _ => mem_anySpace_iff'.1) hraw h.symm
    rw [mem_append] at hc
    constructor
    · rintro rfl
      exact hc.elim hline.1 hline.2
    · rintro rfl
      exact hc.elim hmark.1 hmark.2
  · intro h
    have hraw : ∀ raw ∈ raws, trimText goSpace raw = trimText jsSpace raw := by
      intro raw hraw
      have hspace : ∀ d ∈ raw.takeWhile (· ∈ anySpace) ++ raw.rtakeWhile (· ∈ anySpace), d ∈ space := by
        intro d hd
        obtain ⟨hline, hmark⟩ := h raw hraw d hd
        have hany : d ∈ anySpace := by
          obtain hd | hd := mem_append.1 hd
          · simpa using mem_takeWhile_imp hd
          · simpa using mem_rtakeWhile_imp hd
        simpa [anySpace, hline, hmark] using hany
      obtain ⟨hleft, hright⟩ := forall_mem_append.1 hspace
      rw [trimText_eq_of_margins goSpace anySpace (fun _ hd => mem_anySpace_iff.2 (.inr hd))
          (fun d hd => .tail _ (hleft d hd))
          (fun d hd => .tail _ (hright d hd)),
        trimText_eq_of_margins jsSpace anySpace (fun _ hd => mem_anySpace_iff'.2 (.inr hd))
          (fun d hd => .tail _ (hleft d hd))
          (fun d hd => .tail _ (hright d hd))]
    rw [trimmed, trimmed]
    exact flatMap_congr (fun raw h => by rw [hraw raw h])

/-- On a text whose strings and block comments are closed, the two splitters return the same
statements exactly when no raw statement has U+0085 or U+FEFF in the white space at its ends. -/
theorem parseStatements_agree_iff (text : List Char) (hclosed : Closed text) :
    (∃ statements : List (List Char),
      goParseStatements (utf8.encode text) = .ok (statements.map utf8.encode) ∧
      tsParseStatements (utf16.encode text) = statements.map utf16.encode) ↔
    ∀ raw ∈ rawStatements text, PlainMargins raw := by
  rw [goParseStatements_encode hclosed, tsParseStatements_encode, ← trimmed_eq_iff]
  constructor
  · rintro ⟨statements, hgo, hts⟩
    have hgo := map_injective_iff.2 utf8.encode_injective (Except.ok.inj hgo)
    have hts := map_injective_iff.2 utf16.encode_injective hts
    rw [hgo, hts]
  · intro h
    exact ⟨_, rfl, by rw [h]⟩

/-- A comment, an escaped quote and a semicolon in a string. -/
theorem parseStatements_agree_on_quoted :
    Closed "RETURN '\\';'; // done\n".toList ∧ ∃ statements : List (List Char),
      goParseStatements (utf8.encode "RETURN '\\';'; // done\n".toList) =
        .ok (statements.map utf8.encode) ∧
      tsParseStatements (utf16.encode "RETURN '\\';'; // done\n".toList) =
        statements.map utf16.encode :=
  ⟨by decide +kernel, (parseStatements_agree_iff _ (by decide +kernel)).2 (by decide +kernel)⟩

/-- A script that begins with a byte order mark: Go leaves it in the first statement. -/
theorem byteOrderMark_splits_differ : Closed (byteOrderMark :: "RETURN 1;".toList) ∧
    goParseStatements (utf8.encode (byteOrderMark :: "RETURN 1;".toList)) =
      .ok [utf8.encode (byteOrderMark :: "RETURN 1".toList)] ∧
    tsParseStatements (utf16.encode (byteOrderMark :: "RETURN 1;".toList)) =
      [utf16.encode "RETURN 1".toList] := by
  decide +kernel

end Cypher
