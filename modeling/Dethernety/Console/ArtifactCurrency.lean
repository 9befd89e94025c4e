import Dethernety.Console.Handlers
import Mathlib.Data.List.MinMax
import Mathlib.Data.Nat.Digits.Defs
import Mathlib.Data.Prod.Lex

/-!
# Artifact currency

What the console says of an installed artifact, from the entries that the packages of the catalog have for it. An
entry is ranked by its latest version: a readable one is over an unreadable one, which is over none. Readable versions
of the same rank are the same text, so that the order of the catalog makes no difference.
-/

open List

namespace Console.Daemon

structure CatalogArtifactEntry where
  key : String
  latest : String

structure CatalogPackage where
  artifacts : List CatalogArtifactEntry

/-- The `switch` of `latestArtifact`: the entry to go on with. -/
def preferred (a out : CatalogArtifactEntry) : CatalogArtifactEntry :=
  match versionComponents a.latest, versionComponents out.latest with
  | some _, none => a
  | some _, some _ => if compareVersion a.latest out.latest = some .gt then a else out
  | none, none => if out.latest = "" && a.latest ≠ "" then a else out
  | none, some _ => out

def latestArtifact (packages : List CatalogPackage) (key : String) : Option CatalogArtifactEntry :=
  packages.foldl (fun out p =>
    p.artifacts.foldl (fun out a => if a.key ≠ key then out else some (out.elim a (preferred a))) out) none

inductive Currency
  | current
  | outdated
  | unknown
  | unavailable
  deriving DecidableEq

structure CurrencyAnswer where
  currency : Currency
  latestVersion : String
  note : String
  deriving DecidableEq

def artifactCurrency (key installed : String) : Option CatalogArtifactEntry → CurrencyAnswer
  | none => ⟨.unknown, "", ""⟩
  | some entry =>
    if entry.latest = "" then ⟨.unavailable, "", ""⟩
    else
      match compareVersion installed entry.latest with
      | none =>
        ⟨.unknown, "", "the installed version of " ++ key ++
          " could not be compared with the catalog's, so update availability is unknown"⟩
      | some .eq => ⟨.current, "", ""⟩
      | some .lt => ⟨.outdated, entry.latest, ""⟩
      | some .gt =>
        ⟨.unknown, "", key ++
          " is installed at a version newer than the catalog offers, so there is nothing to update to"⟩

/-- The packages, and the artifacts inside them, in another order. -/
def Reordered (packages others : List CatalogPackage) : Prop :=
  ∃ between, packages.Perm between ∧ List.Forall₂ (fun p q => p.artifacts.Perm q.artifacts) between others

/-! ## Versions -/

variable {v w : String} {a b e : CatalogArtifactEntry} {packages others : List CatalogPackage} {key installed : String}

/-- The text of a number. -/
def numberText (n : ℕ) : Text :=
  if n = 0 then ['0'] else ((Nat.digits 10 n).map fun d => Char.ofNat (d + '0'.toNat)).reverse

lemma versionComponent_eq {part : Text} {n : ℕ} (h : versionComponent part = some n) : part = numberText n := by
  simp only [versionComponent, Option.ite_none_right_eq_some, Bool.and_eq_true, Bool.or_eq_true, decide_eq_true_eq,
    Option.some.injEq] at h
  obtain ⟨⟨⟨⟨hne, -⟩, hdigits⟩, rfl | hzero⟩, hn⟩ := h
  · obtain rfl := hn
    rfl
  have hbounds : ∀ c ∈ part, 48 ≤ c.toNat ∧ c.toNat ≤ 57 := by
    intro c hc
    have hdigit := all_eq_true.1 hdigits c hc
    simp only [Char.isDigit, Bool.and_eq_true, decide_eq_true_eq] at hdigit
    exact hdigit
  have hlist : Nat.digits 10 n = (part.map fun c => c.toNat - '0'.toNat).reverse := by
    rw [← hn, ← Nat.digits_ofDigits 10 (by decide) (part.map fun c => c.toNat - '0'.toNat).reverse]
    · rw [Nat.ofDigits_eq_foldr, foldr_reverse, foldl_map]
      simp [Nat.mul_comm, Nat.add_comm]
    · simp only [mem_reverse, mem_map]
      rintro d ⟨c, hc, rfl⟩
      have := hbounds c hc
      simp only [show '0'.toNat = 48 from rfl]
      omega
    · intro hl heq
      cases part with
      | nil => exact hne rfl
      | cons c part =>
        have := hbounds c (.head _)
        rw [getLast_reverse, head_map, head_cons, show '0'.toNat = 48 from rfl] at heq
        exact hzero (congrArg some (Char.toNat_inj.1 (by rw [show '0'.toNat = 48 from rfl]; omega)))
  have hn0 : n ≠ 0 := by
    rintro rfl
    simp [hne] at hlist
  rw [numberText, if_neg hn0, hlist, map_reverse, reverse_reverse, map_map]
  refine ((map_congr_left fun c hc => ?_).trans (map_id part)).symm
  rw [Function.comp_apply, Nat.sub_add_cancel (show '0'.toNat ≤ c.toNat from (hbounds c hc).1), Char.ofNat_toNat, id_eq]

lemma mapM_versionComponent {parts : List Text} {ns : List ℕ} (h : parts.mapM versionComponent = some ns) :
    parts = ns.map numberText := by
  induction parts generalizing ns with
  | nil =>
    cases h
    rfl
  | cons _ _ ih =>
    simp only [mapM_cons, Option.bind_eq_bind, Option.bind_eq_some_iff, Option.pure_def, Option.some.injEq] at h
    obtain ⟨n, hn, ns, hns, rfl⟩ := h
    rw [versionComponent_eq hn, ih hns, map_cons]

lemma versionComponents_inj {ns : List ℕ} (hv : versionComponents v = some ns) (hw : versionComponents w = some ns) :
    v = w := by
  simp only [versionComponents, Option.ite_none_right_eq_some] at hv hw
  rw [← String.toList_inj]
  calc v.toList = ['.'].intercalate (v.toList.splitOn '.') := (intercalate_splitOn '.').symm
    _ = ['.'].intercalate (w.toList.splitOn '.') := by rw [mapM_versionComponent hv.2, mapM_versionComponent hw.2]
    _ = w.toList := intercalate_splitOn '.'

/-! ## Ranks -/

/-- How far an entry is preferred. -/
def rank (a : CatalogArtifactEntry) : ℕ ×ₗ List ℕ :=
  match versionComponents a.latest with
  | some ns => toLex (2, ns)
  | none => toLex (if a.latest = "" then 0 else 1, [])

lemma compareVersion_eq_gt {x y : List ℕ} (hv : versionComponents v = some x) (hw : versionComponents w = some y) :
    compareVersion v w = some .gt ↔ y < x := by
  simp only [compareVersion, hv, hw, compareOfLessAndEq, Option.bind_eq_bind, Option.bind_some, Option.pure_def,
    Option.some.injEq]
  rcases lt_trichotomy x y with h | rfl | h
  · simp [h, h.le.not_gt]
  · simp
  · simp [h, h.ne', h.le.not_gt]

lemma preferred_eq : preferred a e = if rank e < rank a then a else e := by
  unfold preferred rank
  cases ha : versionComponents a.latest <;> cases he : versionComponents e.latest <;>
    simp only [Prod.Lex.toLex_lt_toLex] <;> grind [compareVersion_eq_gt]

lemma artifactCurrency_congr (h : rank a = rank b) :
    artifactCurrency key installed (some a) = artifactCurrency key installed (some b) := by
  have hcases : a.latest = b.latest ∨ a.latest ≠ "" ∧ b.latest ≠ "" ∧ versionComponents a.latest = none ∧
      versionComponents b.latest = none := by
    unfold rank at h
    cases ha : versionComponents a.latest <;> cases hb : versionComponents b.latest <;>
      simp only [ha, hb, toLex_inj, Prod.mk.injEq] at h <;> grind [versionComponents_inj]
  rcases hcases with hlatest | ⟨ha, hb, hnone, hnone'⟩
  · simp only [artifactCurrency, hlatest]
  · simp [artifactCurrency, compareVersion, *]

/-! ## The entry that is chosen -/

def entries (packages : List CatalogPackage) (key : String) : List CatalogArtifactEntry :=
  (packages.flatMap CatalogPackage.artifacts).filter (·.key = key)

lemma latestArtifact_eq (packages : List CatalogPackage) (key : String) :
    latestArtifact packages key = (entries packages key).argmax rank := by
  rw [latestArtifact, entries, List.argmax, foldl_filter, foldl_flatMap]
  congr! 5 with out p out
  ext1 a
  cases out <;> by_cases hkey : a.key = key <;> simp [hkey, List.argAux, preferred_eq]
  split_ifs <;> simp_all

lemma entries_perm (h : Reordered packages others) (key : String) :
    (entries packages key).Perm (entries others key) := by
  obtain ⟨between, hpackages, hartifacts⟩ := h
  refine (hpackages.flatMap_right _).filter _ |>.trans (List.Perm.filter _ ?_)
  clear hpackages
  induction hartifacts with
  | nil => rfl
  | cons h _ ih => exact h.append ih

/-- The order of the catalog makes no difference; and the version that is offered is over the one installed, and is the
greatest one of all entries with the key. -/
theorem artifactCurrency_latestArtifact (h : Reordered packages others) (key installed : String) :
    artifactCurrency key installed (latestArtifact packages key) =
        artifactCurrency key installed (latestArtifact others key) ∧
      ∀ offered, (artifactCurrency key installed (latestArtifact packages key)).latestVersion = offered → offered ≠ "" →
        ∃ x y, versionComponents installed = some x ∧ versionComponents offered = some y ∧ x < y ∧
          (∃ p ∈ packages, ∃ a ∈ p.artifacts, a.key = key ∧ a.latest = offered) ∧
            ∀ p ∈ packages, ∀ a ∈ p.artifacts, a.key = key → ∀ z, versionComponents a.latest = some z → z ≤ y := by
  rw [latestArtifact_eq, latestArtifact_eq]
  have hperm := entries_perm h key
  cases hp : (entries packages key).argmax rank with
  | none =>
    rw [argmax_eq_none.1 hp] at hperm
    rw [nil_perm.1 hperm]
    exact ⟨rfl, fun offered hoffered hne => absurd hoffered.symm hne⟩
  | some e =>
    refine ⟨?_, fun offered hoffered hne => ?_⟩
    · cases hq : (entries others key).argmax rank with
      | none =>
        rw [argmax_eq_none.1 hq, perm_nil] at hperm
        rw [hperm] at hp
        cases hp
      | some b =>
        exact artifactCurrency_congr (le_antisymm (le_of_mem_argmax (hperm.mem_iff.1 (argmax_mem hp)) hq)
          (le_of_mem_argmax (hperm.mem_iff.2 (argmax_mem hq)) hp))
    · rw [artifactCurrency] at hoffered
      split_ifs at hoffered
      · exact absurd hoffered.symm hne
      split at hoffered <;> try exact absurd hoffered.symm hne
      rename_i hcompare
      obtain rfl := hoffered
      simp only [compareVersion, Option.bind_eq_bind, Option.bind_eq_some_iff, Option.pure_def, Option.some.injEq,
        compareOfLessAndEq_eq_lt] at hcompare
      obtain ⟨x, hx, y, hy, hlt⟩ := hcompare
      have hmem := argmax_mem hp
      simp only [entries, mem_filter, mem_flatMap, decide_eq_true_eq] at hmem
      obtain ⟨⟨p, hpackage, hartifact⟩, hkey⟩ := hmem
      refine ⟨x, y, hx, hy, hlt, ⟨p, hpackage, e, hartifact, hkey, rfl⟩, fun p hpackage a ha hkey z hz => ?_⟩
      have hle : rank a ≤ rank e :=
        le_of_mem_argmax (by simpa [entries, hkey] using ⟨p, hpackage, ha⟩) hp
      simpa [rank, hz, hy, Prod.Lex.toLex_le_toLex] using hle

def catalog : List CatalogPackage :=
  [⟨[⟨"a", "1.9.0"⟩]⟩, ⟨[⟨"b", "2.0.0"⟩, ⟨"a", "1.10.0"⟩]⟩]

theorem artifactCurrency_reverse :
    artifactCurrency "a" "1.9.0" (latestArtifact catalog.reverse "a") = ⟨.outdated, "1.10.0", ""⟩ := by
  have hreordered : Reordered catalog catalog.reverse :=
    ⟨_, (reverse_perm catalog).symm, forall₂_same.2 fun _ _ => .refl _⟩
  rw [← (artifactCurrency_latestArtifact hreordered "a" "1.9.0").1]
  decide +kernel

end Console.Daemon
