import Mathlib.Algebra.Ring.Nat
import Dethernety.FileModule.Isolation

/-!
# The calls of a policy

`lintPolicySource` looks for calls and for definition heads with two patterns. Both know small letters only, so that
a call of a name with a capital letter is not seen (`knowsCalls_iff`).
-/

open List Option

namespace FileModule.Lint

def keywords : List Text :=
  ["if", "in", "some", "every", "not", "with", "else", "package", "import", "default", "as"].map String.toList

/-- `[a-z0-9_]` -/
def isLowerWord (c : Char) : Bool :=
  c.isLower || c.isDigit || c = '_'

def isBlank (c : Char) : Bool :=
  c = ' ' || c = '\t'

/-- Identifiers that are joined by dots, where one has begun or has to begin (`true`). None begins with a digit. -/
def isPath (part : Char → Bool) : Bool → Text → Bool
  | fresh, [] => !fresh
  | true, c :: path => part c && !c.isDigit && isPath part false path
  | false, c :: path => if c = '.' then isPath part true path else part c && isPath part false path

def isLowerWordOrDot (c : Char) : Bool :=
  c = '.' || isLowerWord c

/-- `CALL`: the path, and what follows the parenthesis. -/
def call (before : Option Char) (text : Text) : Option (Text × Text) := do
  guard (before.all (!isWordOrDot ·))
  let path := text.takeWhile isLowerWordOrDot
  guard (isPath isLowerWord true path)
  let rest ← literal "(" ((text.drop path.length).dropWhile isEcmaSpace)
  return (path, rest)

/-- `(?::=|=(?!=)|if\b|\{)` -/
def headEnd (text : Text) : Option Text :=
  (literal ":=" text).or (((literal "=" text).filter (·.head? ≠ some '=')).or
    (((literal "if" text).filter (·.head?.all (!isWord ·))).or (literal "\x7b" text)))

/-- The part of `FUNCTION_DEF` from the name on. -/
def head (part : Char → Bool) (text : Text) : Option (Text × Text) := do
  let name := text.takeWhile part
  guard (name.head?.any (!·.isDigit))
  let rest ← literal "(" ((text.drop name.length).dropWhile isBlank)
  let rest ← literal ")" (rest.dropWhile fun c => c ≠ ')' && c ≠ '\n')
  let rest ← headEnd (rest.dropWhile isBlank)
  return (name, rest)

/-- `default[ \t]+` -/
def afterDefault (text : Text) : Option Text :=
  ((literal "default" text).filter (·.head?.any isBlank)).map (·.dropWhile isBlank)

/-- `FUNCTION_DEF` -/
def functionDef (before : Option Char) (text : Text) : Option (Text × Text) := do
  guard (lineStart before)
  let text := text.dropWhile isBlank
  ((afterDefault text).bind (head isLowerWord)).or (head isLowerWord text)

/-- The matches of a pattern with the flag `g`: after a match the search goes on at what it has left. -/
def matchAll {α : Type} (pattern : Option Char → Text → Option (α × Text)) : Option Char → ℕ → Text → List α
  | _, _, [] => []
  | _, skip + 1, c :: text => matchAll pattern (some c) skip text
  | before, 0, c :: text =>
    match pattern before (c :: text) with
    | some (a, rest) => a :: matchAll pattern (some c) (text.length - rest.length) text
    | none => matchAll pattern (some c) 0 text

/-- The names of `callSites` -/
def callSites (source : Text) : List Text :=
  (matchAll call none 0 (stripNonCode source)).filter (!keywords.contains ·)

def localFunctionNames (source : Text) : List Text :=
  matchAll functionDef none 0 (stripNonCode source)

/-- The path is rooted in `data` or `input`. -/
def isDocument (path : Text) : Bool :=
  ["data".toList, "input".toList].contains (path.takeWhile (· ≠ '.'))

/-- `lintPolicySource` reports no error. -/
def lints (supported : List Text) (source : Text) : Bool :=
  let lines := source.splitOn '\n'
  lines.length ≤ 100000 && (source.map Char.utf8Size).sum ≤ 4 * 1024 * 1024 &&
    lines.all (fun line => (line.map fun c => if c.toNat < 0x10000 then 1 else 2).sum ≤ 8192) &&
    (extractPackage source).any (!hasIsolationViolations source ·) &&
    (callSites source).all fun name =>
      (localFunctionNames source).contains name || isDocument name || supported.contains name

/-- An identifier path, in either case, directly before a parenthesis. -/
def Calls (code path : Text) : Prop :=
  ∃ pre rest, code = pre ++ (path ++ '(' :: rest) ∧ pre.getLast?.all (!isWordOrDot ·) = true ∧
    isPath isWord true path = true

/-- The names, in either case, for which the place has the form of a definition head. -/
def headsAt (before : Option Char) (text : Text) : List Text :=
  let text := text.dropWhile isBlank
  if lineStart before then (text :: (afterDefault text).toList).filterMap fun text => (head isWord text).map Prod.fst
  else []

def LooksDefined (code name : Text) : Prop :=
  ∃ pre rest, code = pre ++ rest ∧ name ∈ headsAt pre.getLast? rest

/-- A definition head of a function stands outside every bracket. -/
def Defines (code name : Text) : Prop :=
  ∃ pre rest, code = pre ++ rest ∧ name ∈ headsAt pre.getLast? rest ∧
    pre.countP (· ∈ ['(', '[', '\x7b']) ≤ pre.countP (· ∈ [')', ']', '\x7d'])

/-- What a path before a parenthesis may be. -/
def Known (supported : List Text) (code path : Text) : Prop :=
  path ∈ keywords ∨ path ∈ supported ∨ Defines code path

def KnowsCalls (supported : List Text) (code : Text) : Prop :=
  ∀ path, Calls code path → isDocument path = false → Known supported code path

/-! ## Matches -/

variable {α : Type} {pattern : Option Char → Text → Option (α × Text)} {before : Option Char} {a : α}
  {pre rest left text path name : Text} {skip : ℕ}

/-- A place in the text before a match, where the search has not gone on behind it, is found. -/
lemma mem_matchAll (hapart : ∀ before pre rest a left, pattern before (pre ++ rest) = some (a, left) → pre ≠ [] →
      left.length < rest.length → pattern pre.getLast? rest = none)
    (h : pattern (pre.getLast?.or before) rest = some (a, left)) (hne : rest ≠ []) (hskip : skip ≤ pre.length) :
    a ∈ matchAll pattern before skip (pre ++ rest) := by
  induction pre generalizing before skip with
  | nil =>
    obtain rfl := Nat.le_zero.1 hskip
    obtain ⟨c, rest, rfl⟩ := exists_cons_of_ne_nil hne
    rw [nil_append, matchAll, show pattern before (c :: rest) = _ from h]
    exact .head _
  | cons c pre ih =>
    have hlast : pre.getLast?.or (some c) = (c :: pre).getLast? := by
      rw [getLast?_cons]
      cases pre.getLast? <;> rfl
    have hsome : (c :: pre).getLast?.or before = (c :: pre).getLast? := by
      rw [getLast?_cons]
      rfl
    rw [hsome, ← hlast] at h
    cases skip with
    | succ skip => exact ih h (Nat.le_of_succ_le_succ hskip)
    | zero =>
      rw [cons_append, matchAll]
      split
      · rename_i b left' hmatch
        refine .tail _ (ih h ?_)
        by_contra hle
        have hlt : left'.length < rest.length := by
          rw [length_append] at hle
          omega
        rw [hlast, hapart _ (c :: pre) _ _ _ hmatch (cons_ne_nil _ _) hlt] at h
        cases h
      · exact ih h (Nat.zero_le _)

lemma exists_of_mem_matchAll (h : a ∈ matchAll pattern before skip text) :
    ∃ pre rest left, text = pre ++ rest ∧ pattern (pre.getLast?.or before) rest = some (a, left) := by
  induction text generalizing before skip with
  | nil => cases h
  | cons c text ih =>
    have hlater {skip : ℕ} (h : a ∈ matchAll pattern (some c) skip text) :
        ∃ pre rest left, c :: text = pre ++ rest ∧ pattern (pre.getLast?.or before) rest = some (a, left) := by
      obtain ⟨pre, rest, left, rfl, hmatch⟩ := ih h
      refine ⟨c :: pre, rest, left, rfl, ?_⟩
      rw [getLast?_cons]
      cases hpre : pre.getLast? <;> rwa [hpre] at hmatch
    cases skip with
    | succ skip => exact hlater h
    | zero =>
      rw [matchAll] at h
      split at h
      · rename_i b left hmatch
        rcases mem_cons.1 h with rfl | h
        · exact ⟨[], _, left, rfl, hmatch⟩
        · exact hlater h
      · exact hlater h

/-! ## Names -/

lemma isWord_of_isLowerWord {c : Char} (h : isLowerWord c = true) : isWord c = true := by
  show (c.isUpper || c.isLower || c.isDigit || c = '_') = true
  simp only [isLowerWord, Bool.or_eq_true] at h ⊢
  tauto

lemma isLowerWord_of_isEcmaSpace {c : Char} (h : isEcmaSpace c = true) : isLowerWord c = false := by
  rw [← Bool.not_eq_true]
  intro hc
  have hnat : c.toNat = 95 ∨ 97 ≤ c.toNat ∧ c.toNat ≤ 122 ∨ 48 ≤ c.toNat ∧ c.toNat ≤ 57 := by
    change (c.val ≥ 'a'.val && c.val ≤ 'z'.val || c.val ≥ '0'.val && c.val ≤ '9'.val || c = '_') = true at hc
    simp only [Bool.or_eq_true, Bool.and_eq_true, decide_eq_true_eq] at hc
    rcases hc with (hc | hc) | rfl
    · exact .inr (.inl hc)
    · exact .inr (.inr hc)
    · exact .inl rfl
  simp [isEcmaSpace] at h
  omega

lemma isLowerWordOrDot_of_isPath {fresh : Bool} (h : isPath isLowerWord fresh path = true) :
    ∀ c ∈ path, isLowerWordOrDot c = true := by
  fun_induction isPath isLowerWord fresh path <;> simp_all [isLowerWordOrDot]

lemma isPath_lower {fresh : Bool} (h : isPath isWord fresh path = true) (hlower : path.any Char.isUpper = false) :
    isPath isLowerWord fresh path = true := by
  have hpart {c : Char} (hc : isWord c = true) (hlower : c.isUpper = false) : isLowerWord c = true := by
    change (c.isUpper || c.isLower || c.isDigit || c = '_') = true at hc
    rwa [hlower] at hc
  fun_induction isPath isWord fresh path <;> simp_all [isPath]

/-! ## Calls -/

lemma call_eq_some (h : call before text = some (path, left)) :
    before.all (!isWordOrDot ·) = true ∧ isPath isLowerWord true path = true ∧
      ∃ gap, text = path ++ (gap ++ '(' :: left) ∧ gap.all isEcmaSpace = true := by
  simp only [call, bind_eq_bind, bind_eq_some_iff, guard_eq_some', literal_eq_some, pure,
    Option.some.injEq, Prod.mk.injEq] at h
  obtain ⟨-, hbefore, -, hpath, rest, hrest, rfl, rfl⟩ := h
  refine ⟨hbefore, hpath, (text.drop (text.takeWhile isLowerWordOrDot).length).takeWhile isEcmaSpace, ?_, all_takeWhile⟩
  rw [show '(' :: rest = _ from hrest.symm, takeWhile_append_dropWhile,
    prefix_iff_eq_append.1 ( takeWhile_prefix _)]

lemma call_lower (hbefore : before.all (!isWordOrDot ·) = true) (hpath : isPath isLowerWord true path = true) :
    call before (path ++ '(' :: rest) = some (path, rest) := by
  have htake : (path ++ '(' :: rest).takeWhile isLowerWordOrDot = path := by
    rw [takeWhile_append_of_pos (isLowerWordOrDot_of_isPath hpath)]
    exact append_nil path
  simp only [call, htake, hbefore, hpath, bind_eq_bind, drop_left]
  rfl

lemma call_apart (h : call before (pre ++ rest) = some (path, left)) (hne : pre ≠ [])
    (hlt : left.length < rest.length) : call pre.getLast? rest = none := by
  rw [eq_none_iff_forall_ne_some]
  rintro ⟨path', left'⟩ h'
  obtain ⟨-, hpath, gap, heq, hgap⟩ := call_eq_some h
  obtain ⟨hlast, hpath', gap', rfl, -⟩ := call_eq_some h'
  rcases append_eq_append_iff.1 heq with ⟨m, rfl, -⟩ | ⟨m, rfl, hm⟩
  · -- the last character before the place belongs to the path
    obtain ⟨pre, x, rfl⟩ := eq_nil_or_concat pre |>.resolve_left hne
    have hx := isLowerWordOrDot_of_isPath hpath x (by simp)
    have hword := @isWord_of_isLowerWord x
    simp_all [isLowerWordOrDot, isWordOrDot]
  · -- the first character after the place is a blank or the parenthesis
    cases path' with
    | nil => cases hpath'
    | cons c path' =>
      rw [append_cons gap] at hm
      rcases append_eq_append_iff.1 hm with ⟨m', rfl, rfl⟩ | ⟨_ | ⟨c', m'⟩, hgap', hrest⟩
      · simp at hlt
        omega
      · simp [hrest] at hlt
      · obtain rfl : c = c' := (List.cons.inj hrest).1
        have hc : c ∈ gap ++ ['('] := hgap' ▸ by simp
        simp only [isPath, Bool.and_eq_true] at hpath'
        rcases mem_append.1 hc with hc | hc
        · simp [isLowerWord_of_isEcmaSpace (all_eq_true.1 hgap c hc)] at hpath'
        · cases mem_singleton.1 hc
          cases hpath'.1.1

lemma mem_callSites {source : Text} (h : Calls (stripNonCode source) path) (hlower : path.any Char.isUpper = false)
    (hkeyword : path ∉ keywords) : path ∈ callSites source := by
  obtain ⟨pre, rest, hcode, hbefore, hpath⟩ := h
  refine mem_filter.2 ⟨?_, by simpa using hkeyword⟩
  rw [hcode]
  have hcall : call (pre.getLast?.or none) (path ++ '(' :: rest) = some (path, rest) := by
    rw [or_none]
    exact call_lower hbefore (isPath_lower hpath hlower)
  exact mem_matchAll (fun _ _ _ _ _ h => call_apart h) hcall (by simp) (Nat.zero_le _)

/-! ## Definition heads -/

lemma takeWhile_eq {p q : Char → Bool} (hpq : ∀ c, p c = true → q c = true)
    (h : (text.drop (text.takeWhile p).length).head?.all (!q ·) = true) : text.takeWhile q = text.takeWhile p := by
  induction text with
  | nil => rfl
  | cons c text ih =>
    by_cases hc : p c = true
    · rw [takeWhile_cons_of_pos hc] at h ⊢
      rw [takeWhile_cons_of_pos (hpq c hc), ih h]
    · rw [takeWhile_cons_of_neg hc] at h ⊢
      exact takeWhile_cons_of_neg (by simpa using h)

lemma head_eq_some (h : head isLowerWord text = some (name, left)) : head isWord text = some (name, left) := by
  have hname : text.takeWhile isWord = text.takeWhile isLowerWord := by
    simp only [head, bind_eq_bind, bind_eq_some_iff, literal_eq_some] at h
    obtain ⟨-, -, rest, hrest, -⟩ := h
    refine takeWhile_eq (fun _ => isWord_of_isLowerWord) ?_
    cases hgap : text.drop (text.takeWhile isLowerWord).length with
    | nil => rfl
    | cons c gap =>
      rw [hgap, dropWhile_cons] at hrest
      split at hrest
      · rename_i hc
        rcases (by simpa [isBlank] using hc : c = ' ' ∨ c = '\t') with rfl | rfl <;> rfl
      · cases hrest
        rfl
  rwa [head, hname]

lemma looksDefined_of_mem {source : Text} (h : name ∈ localFunctionNames source) :
    LooksDefined (stripNonCode source) name := by
  obtain ⟨pre, rest, left, hcode, hmatch⟩ := exists_of_mem_matchAll h
  refine ⟨pre, rest, hcode, ?_⟩
  simp only [functionDef, or_none, bind_eq_bind, bind_eq_some_iff, guard_eq_some',
    or_eq_some_iff] at hmatch
  obtain ⟨-, hstart, ⟨text, htext, hhead⟩ | ⟨-, hhead⟩⟩ := hmatch
  · simp [headsAt, hstart, htext, head_eq_some hhead]
  · simp [headsAt, hstart, head_eq_some hhead]

/-- Of a policy that passes, every call is known if those are of a name with a capital letter, or of a name at a line
that looks like a definition head. -/
theorem knowsCalls_iff {supported : List Text} {source : Text} (h : lints supported source = true) :
    KnowsCalls supported (stripNonCode source) ↔
      ∀ path, Calls (stripNonCode source) path → isDocument path = false →
        path.any Char.isUpper = true ∨ LooksDefined (stripNonCode source) path →
          Known supported (stripNonCode source) path := by
  refine ⟨fun h path hcalls hdoc _ => h path hcalls hdoc, fun hsuspect path hcalls hdoc => ?_⟩
  by_cases hcapital : path.any Char.isUpper = true
  · exact hsuspect path hcalls hdoc (.inl hcapital)
  by_cases hkeyword : path ∈ keywords
  · exact .inl hkeyword
  have hsite := mem_callSites hcalls (Bool.eq_false_iff.2 hcapital) hkeyword
  have hknown := all_eq_true.1 (Bool.and_eq_true_iff.1 h).2 path hsite
  simp only [hdoc, Bool.or_eq_true, contains_iff_mem, Bool.false_eq_true, or_false] at hknown
  rcases hknown with hlocal | hsupported
  · exact hsuspect path hcalls hdoc (.inr (looksDefined_of_mem hlocal))
  · exact .inr (.inl hsupported)

def capitalCall : Text :=
  "package p\nx = Foo(1)".toList

lemma lints_capitalCall (supported : List Text) : lints supported capitalCall = true := by
  rw [lints, show callSites capitalCall = [] by decide +kernel, all_nil]
  decide +kernel

theorem knowsCalls_iff_capital : KnowsCalls [] (stripNonCode capitalCall) ↔
    ∀ path, Calls (stripNonCode capitalCall) path → isDocument path = false →
      path.any Char.isUpper = true ∨ LooksDefined (stripNonCode capitalCall) path →
        Known [] (stripNonCode capitalCall) path :=
  knowsCalls_iff (lints_capitalCall [])

/-- The call of `Foo` is not seen. -/
theorem not_knowsCalls_capital : ¬ (lints ["count".toList] capitalCall = true →
    KnowsCalls ["count".toList] (stripNonCode capitalCall)) := by
  intro h
  have hheads : ∀ pre ∈ (stripNonCode capitalCall).inits,
      "Foo".toList ∉ headsAt pre.getLast? ((stripNonCode capitalCall).drop pre.length) := by
    decide +kernel
  have hcalls : Calls (stripNonCode capitalCall) "Foo".toList :=
    ⟨"package p\nx = ".toList, "1)".toList, by decide +kernel, by decide +kernel, by decide +kernel⟩
  rcases h (lints_capitalCall _) _ hcalls (by decide) with hkeyword | hknown | ⟨pre, rest, hcode, hhead, -⟩
  · exact absurd hkeyword (by decide)
  · exact absurd hknown (by decide)
  · refine hheads pre ((mem_inits _ _).2 ⟨rest, hcode.symm⟩) ?_
    rwa [hcode, drop_left]

end FileModule.Lint
