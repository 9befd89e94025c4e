import Mathlib.Data.Option.Basic
import Mathlib.Data.List.Nodup
import Dethernety.FileModule.PolicySource

/-!
# The isolation guard

What a corpus of policies that the guard accepts can refer to. A reference is a place in the code, which is the source
with its comments and string literals blanked. The guard lets a policy refer to what is at or under its own package,
so two policies with nested packages can refer to each other; and it looks for imports at the beginning of a line only.
-/

open List

namespace FileModule

/-- The path is the package, or a path under it. -/
def Under (packageName path : Text) : Prop :=
  path = packageName ∨ packageName ++ ['.'] <+: path

/-- `data.` and a dotted identifier. -/
def RefersTo (code path : Text) : Prop :=
  ∃ pre rest, code = pre ++ "data.".toList ++ rest ∧ pre.getLast?.all (!isWordOrDot ·) = true ∧
    rest.head?.any (fun c => c.isAlpha || c = '_') = true ∧ path = rest.takeWhile isWordOrDot

/-- The word `import` and, after white space, the word `data`. -/
def ImportsAt (pre rest : Text) : Prop :=
  ∃ gap after, rest = "import".toList ++ gap ++ "data".toList ++ after ∧ gap ≠ [] ∧ gap.all isEcmaSpace = true ∧
    pre.getLast?.all (!isWord ·) = true ∧ after.head?.all (!isWord ·) = true

/-- Only white space stands between the place and the beginning of a line. -/
def BeginsLine (pre : Text) : Prop :=
  ∃ lines gap, pre = lines ++ gap ∧ gap.all isEcmaSpace = true ∧ lineStart lines.getLast? = true

def Imports (code : Text) : Prop :=
  ∃ pre rest, code = pre ++ rest ∧ ImportsAt pre rest

/-- `with data` -/
def Overrides (code : Text) : Prop :=
  ∃ pre rest, code = pre ++ rest ∧ (overridesData pre.getLast? rest).isSome = true

/-- The word `data` that is no part of a path. -/
def MentionsBareData (code : Text) : Prop :=
  ∃ pre rest, code = pre ++ rest ∧ (wholeData pre.getLast? rest).isSome = true

/-- A policy that the guard accepts. -/
structure Policy where
  source : Text
  packageName : Text
  declared : extractPackage source = some packageName
  accepted : hasIsolationViolations source packageName = false

structure Corpus where
  policies : List Policy
  distinct : (policies.map Policy.packageName).Nodup

def Policy.code (p : Policy) : Text :=
  stripNonCode p.source

/-- No policy refers to what is at or under the package of another one, or to the data document as a whole. -/
def Corpus.Isolated (c : Corpus) : Prop :=
  (∀ p ∈ c.policies, ∀ q ∈ c.policies, p ≠ q → ∀ path, RefersTo p.code path → ¬ Under q.packageName path) ∧
    ∀ p ∈ c.policies, ¬ MentionsBareData p.code ∧ ¬ Imports p.code ∧ ¬ Overrides p.code

/-! ## Places -/

lemma firstMatch_isSome_iff {α : Type} {pattern : Option Char → Text → Option α} {before : Option Char}
    {text : Text} : (firstMatch pattern before text).isSome = true ↔
      ∃ pre rest, text = pre ++ rest ∧ (pattern (pre.getLast?.or before) rest).isSome = true := by
  induction text generalizing before with
  | nil => simp [firstMatch]
  | cons c text ih =>
    have hlast (pre : Text) : (c :: pre).getLast?.or before = pre.getLast?.or (some c) := by
      rw [getLast?_cons]
      cases pre.getLast? <;> rfl
    have hstep : (firstMatch pattern before (c :: text)).isSome = true ↔
        (pattern before (c :: text)).isSome = true ∨ (firstMatch pattern (some c) text).isSome = true := by
      rw [firstMatch]
      cases pattern before (c :: text) <;> simp
    rw [hstep, ih]
    constructor
    · rintro (h | ⟨pre, rest, rfl, h⟩)
      · exact ⟨[], _, rfl, h⟩
      · exact ⟨c :: pre, rest, rfl, by rwa [hlast]⟩
    · rintro ⟨pre, rest, heq, h⟩
      cases pre with
      | nil =>
        obtain rfl := heq
        exact .inl h
      | cons c' pre =>
        cases heq
        exact .inr ⟨pre, rest, rfl, by rwa [hlast] at h⟩

lemma noMatch_iff {α : Type} {pattern : Option Char → Text → Option α} {code : Text} :
    (firstMatch pattern none code).isSome = false ↔
      ∀ pre rest, code = pre ++ rest → (pattern pre.getLast? rest).isSome = false := by
  simp [← Bool.not_eq_true, firstMatch_isSome_iff]

/-! ## What the guard sees -/

lemma literal_eq_some {l : String} {text rest : Text} : literal l text = some rest ↔ text = l.toList ++ rest := by
  unfold literal
  split_ifs with h
  · obtain ⟨rest', rfl⟩ := List.isPrefixOf_iff_prefix.1 h
    simp [← String.length_toList]
  · simp only [false_iff]
    rintro rfl
    exact h (List.isPrefixOf_iff_prefix.2 (prefix_append _ _))

variable {p q : Policy}

lemma Policy.noMatch (p : Policy) :
    (firstMatch importsData none p.code).isSome = false ∧ (firstMatch overridesData none p.code).isSome = false ∧
      (firstMatch wholeData none p.code).isSome = false ∧
        (firstMatch (foreignData p.packageName) none p.code).isSome = false := by
  have h := p.accepted
  simp only [hasIsolationViolations, Bool.or_eq_false_iff] at h
  exact ⟨h.1.1.1, h.1.1.2, h.1.2, h.2⟩

lemma Policy.under_own {path : Text} (h : RefersTo p.code path) : Under p.packageName path := by
  obtain ⟨pre, rest, hcode, hpre, hhead, rfl⟩ := h
  have hmatch := noMatch_iff.1 p.noMatch.2.2.2 pre ("data.".toList ++ rest) (by rw [hcode, append_assoc])
  have hdata : literal "data." ("data.".toList ++ rest) = some rest := literal_eq_some.2 rfl
  by_contra hunder
  rw [foreignData, hdata, hpre] at hmatch
  simp [hhead, (not_or.1 hunder).1, (not_or.1 hunder).2] at hmatch

lemma Policy.not_beginsLine {pre rest : Text} (hcode : p.code = pre ++ rest) (h : ImportsAt pre rest) :
    ¬ BeginsLine pre := by
  rintro ⟨lines, gap', rfl, hgap', hstart⟩
  obtain ⟨gap, after, rfl, hne, hgap, -, hafter⟩ := h
  have hmatch := noMatch_iff.1 p.noMatch.1 lines _ (by rw [hcode, append_assoc])
  have himport : literal "import" ("import".toList ++ gap ++ "data".toList ++ after) =
      some (gap ++ "data".toList ++ after) := literal_eq_some.2 (by simp)
  have hdata : literal "data" ("data".toList ++ after) = some after := literal_eq_some.2 rfl
  have hspaces : spaces (gap ++ "data".toList ++ after) = some ("data".toList ++ after) := by
    rw [append_assoc]
    obtain ⟨c, gap, rfl⟩ := exists_cons_of_ne_nil hne
    rw [cons_append, spaces, if_pos (all_eq_true.1 hgap c (.head _)), dropWhile_append_of_pos
      fun x hx => all_eq_true.1 hgap x (mem_cons_of_mem c hx)]
    rfl
  have hskip : (gap' ++ ("import".toList ++ gap ++ "data".toList ++ after)).dropWhile isEcmaSpace =
      "import".toList ++ gap ++ "data".toList ++ after := by
    rw [dropWhile_append_of_pos (all_eq_true.1 hgap')]
    rfl
  rw [importsData, hskip, himport, hstart] at hmatch
  simp only [guard_true, Option.bind_eq_bind, Option.bind_some, pure_bind, hspaces, hdata, hafter] at hmatch
  cases hmatch

lemma under_comparable {path : Text} {a b : Text} (ha : Under a path) (hb : Under b path) (hne : a ≠ b) :
    Under a b ∨ Under b a := by
  rcases ha, hb with ⟨rfl | ha, rfl | hb⟩
  · exact absurd rfl hne
  · exact .inr (.inr hb)
  · exact .inl (.inr ha)
  · -- the shorter of the two is a prefix of the other
    rcases List.prefix_or_prefix_of_prefix ha hb with h | h
    · exact .inl (.inr ((prefix_concat_iff.1 h).resolve_left fun heq => hne (append_cancel_right heq)))
    · exact .inr (.inr ((prefix_concat_iff.1 h).resolve_left fun heq => hne (append_cancel_right heq).symm))

/-- A corpus is isolated exactly if no policy refers to what is at or under a package that is nested in its own, or
that its own is nested in, and every import of the data document begins its line. -/
theorem Corpus.isolated_iff (c : Corpus) : c.Isolated ↔
    (∀ p ∈ c.policies, ∀ q ∈ c.policies, p ≠ q → Under p.packageName q.packageName ∨ Under q.packageName p.packageName →
      ∀ path, RefersTo p.code path → ¬ Under q.packageName path) ∧
    ∀ p ∈ c.policies, ∀ pre rest, p.code = pre ++ rest → ImportsAt pre rest → BeginsLine pre := by
  have hdistinct : ∀ p ∈ c.policies, ∀ q ∈ c.policies, p ≠ q → p.packageName ≠ q.packageName :=
    fun p hp q hq hne heq => hne (inj_on_of_nodup_map c.distinct hp hq heq)
  refine and_congr ⟨fun h p hp q hq hne _ => h p hp q hq hne, fun h p hp q hq hne path href hunder => ?_⟩
    ⟨fun h p hp pre rest hcode himports => ?_, fun h p hp => ?_⟩
  · have hnested := under_comparable (Policy.under_own href) hunder (hdistinct p hp q hq hne)
    exact h p hp q hq hne hnested path href hunder
  · exact absurd ⟨pre, rest, hcode, himports⟩ (h p hp).2.1
  · obtain ⟨-, hoverrides, hbare, -⟩ := p.noMatch
    refine ⟨?_, ?_, ?_⟩
    · rintro ⟨pre, rest, hcode, hmatch⟩
      rw [noMatch_iff.1 hbare pre rest hcode] at hmatch
      cases hmatch
    · rintro ⟨pre, rest, hcode, himports⟩
      exact p.not_beginsLine hcode himports (h p hp pre rest hcode himports)
    · rintro ⟨pre, rest, hcode, hmatch⟩
      rw [noMatch_iff.1 hoverrides pre rest hcode] at hmatch
      cases hmatch

def outerPolicy : Policy :=
  ⟨"package a\nx = data.a.b.y".toList, ['a'], by decide +kernel, by decide +kernel⟩

def innerPolicy : Policy :=
  ⟨"package a.b".toList, "a.b".toList, by decide +kernel, by decide +kernel⟩

/-- The outer package refers to what is under the inner one. -/
theorem not_isolated_nested : ¬ ∀ c : Corpus, c.Isolated := by
  intro h
  have hne : outerPolicy ≠ innerPolicy := fun heq => absurd (congrArg Policy.packageName heq) (by decide)
  refine (h ⟨[outerPolicy, innerPolicy], by decide⟩).1 outerPolicy (by simp) innerPolicy (by simp) hne "a.b.y".toList
    ⟨"package a\nx = ".toList, "a.b.y".toList, ?_, ?_, ?_, ?_⟩ (.inr ?_) <;> decide +kernel

end FileModule
