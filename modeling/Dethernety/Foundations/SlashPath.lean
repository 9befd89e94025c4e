import Mathlib.Data.List.DropRight
import Dethernety.Foundations.Substitution

/-!
# Paths as texts

A path is a text with slashes between its segments. `resolve` gives the names from the root that a path leads
to without looking at any file: empty and `.` segments are skipped and `..` drops a name. A path without a
`..` segment stays at or below the directory that it is appended to (`isWithin_below`).
-/

open List

namespace SlashPath

open Substitution

/-- A path, or one name of it. -/
abbrev Text := List Char

/-- What stands between the slashes. -/
def segments (path : Text) : List Text :=
  split ['/'] path

/-- One segment further. -/
def enter (names : List Text) (segment : Text) : List Text :=
  if segment = [] ∨ segment = ['.'] then names
  else if segment = ['.', '.'] then names.dropLast
  else names ++ [segment]

/-- The names from the root that a path leads to, a relative one from the working directory. -/
def resolve (cwd : List Text) (path : Text) : List Text :=
  (segments path).foldl enter (if ['/'] <+: path then [] else cwd)

/-- The path is the directory or lies below it. -/
def IsWithin (cwd : List Text) (dir path : Text) : Prop :=
  resolve cwd dir <+: resolve cwd path

/-- No segment leads to a parent directory. -/
def Descends (path : Text) : Prop :=
  ['.', '.'] ∉ segments path

section

variable {p q : Text}

lemma segments_slash (q : Text) : segments ('/' :: q) = [] :: segments q :=
  split_append (by decide)

lemma segments_append_slash (p q : Text) : segments (p ++ '/' :: q) = segments p ++ segments q := by
  have hslash : ['/'] ≠ [] := by decide
  induction p with
  | nil => rw [nil_append, segments_slash, segments, segments, split_nil hslash, singleton_append]
  | cons a p ih =>
    by_cases ha : a = '/'
    · rw [ha, cons_append, segments_slash, ih, segments_slash, cons_append]
    · have hmiss : ∀ l, ¬ ['/'] <+: a :: l := fun l h => ha (cons_prefix_cons.1 h).1.symm
      obtain ⟨s, ss, hs⟩ := exists_split_eq_cons hslash p
      unfold segments at ih ⊢
      rw [cons_append, split_cons hslash (hmiss _), ih, split_cons hslash (hmiss p), hs]
      rfl

lemma segments_of_slash_not_mem (h : '/' ∉ p) : segments p = [p] :=
  split_eq_singleton (by decide) fun hin => h (hin.subset (mem_singleton_self _))

lemma exists_last_segment (h : '/' ∈ p) : ∃ u v, p = u ++ '/' :: v ∧ '/' ∉ v := by
  obtain ⟨s, t, ht, hs⟩ := eq_append_cons_of_mem (mem_reverse.2 h)
  refine ⟨t.reverse, s.reverse, ?_, fun hmem => hs (mem_reverse.1 hmem)⟩
  rw [← reverse_reverse p, ht]
  simp

lemma Descends.append_slash (hp : Descends p) (hq : Descends q) : Descends (p ++ '/' :: q) := by
  unfold Descends at *
  rw [segments_append_slash, mem_append]
  exact fun h => h.elim hp hq

lemma Descends.of_append_slash (h : Descends (p ++ '/' :: q)) : Descends p := by
  unfold Descends at *
  rw [segments_append_slash] at h
  exact fun hp => h (mem_append_left _ hp)

/-- A longer last name. -/
lemma Descends.append {s : Text} (h : Descends p) (hs : '/' ∉ s) (hlength : 2 < s.length) : Descends (p ++ s) := by
  -- the last segment is now longer than `..`
  have hlast : ∀ v : Text, '/' ∉ v → Descends (v ++ s) := by
    intro v hv hmem
    rw [segments_of_slash_not_mem fun hmem => (mem_append.1 hmem).elim hv hs, mem_singleton] at hmem
    have hlen := congrArg List.length hmem
    simp only [length_append, length_cons, length_nil] at hlen
    omega
  by_cases hp : '/' ∈ p
  · obtain ⟨u, v, rfl, hv⟩ := exists_last_segment hp
    rw [append_assoc, cons_append]
    exact h.of_append_slash.append_slash (hlast v hv)
  · exact hlast p hp

/-- Slashes at the end only add empty segments. -/
lemma Descends.rdropWhile (h : Descends p) : Descends (p.rdropWhile (· = '/')) := by
  induction p using List.reverseRecOn with
  | nil => exact h
  | append_singleton p a ih =>
    by_cases ha : a = '/'
    · subst ha
      rw [rdropWhile_concat_pos _ _ _ (by decide)]
      exact ih h.of_append_slash
    · rw [rdropWhile_concat_neg _ _ _ (by simpa using ha)]
      exact h

/-- A path that can be appended to a directory and stays within it. -/
structure Stays (p : Text) : Prop where
  nonempty : p ≠ []
  relative : ¬ ['/'] <+: p
  descends : Descends p

lemma Stays.rdropWhile (h : Stays p) : Stays (p.rdropWhile (· = '/')) := by
  refine ⟨fun hnil => ?_, fun hslash => h.relative (hslash.trans (List.rdropWhile_prefix _ _)),
    h.descends.rdropWhile⟩
  obtain ⟨a, l, rfl⟩ := exists_cons_of_ne_nil h.nonempty
  have ha : a = '/' := by simpa using rdropWhile_eq_nil_iff.1 hnil a (.head _)
  exact h.relative (cons_prefix_cons.2 ⟨ha.symm, List.nil_prefix⟩)

lemma Stays.append {s : Text} (h : Stays p) (hs : '/' ∉ s) (hlength : 2 < s.length) : Stays (p ++ s) := by
  refine ⟨fun hnil => h.nonempty (append_eq_nil_iff.1 hnil).1, fun hslash => h.relative ?_,
    h.descends.append hs hlength⟩
  obtain ⟨a, l, rfl⟩ := exists_cons_of_ne_nil h.nonempty
  exact cons_prefix_cons.2 ⟨(cons_prefix_cons.1 hslash).1, List.nil_prefix⟩

/-- What stands before a slash. -/
theorem Stays.parent (h : Stays (p ++ '/' :: q)) : Stays p := by
  have hne : p ≠ [] := fun hnil => h.relative (by rw [hnil]; exact ⟨q, rfl⟩)
  exact ⟨hne, fun hslash => h.relative (hslash.trans (prefix_append _ _)), h.descends.of_append_slash⟩

end

variable {cwd : List Text} {dir p q : Text}

/-- Without `..` the names only grow. -/
lemma prefix_foldl_enter {l : List Text} (h : ['.', '.'] ∉ l) (names : List Text) :
    names <+: l.foldl enter names := by
  induction l generalizing names with
  | nil => exact prefix_refl names
  | cons s l ih =>
    refine List.IsPrefix.trans ?_ (ih (not_mem_of_not_mem_cons h) _)
    unfold enter
    split_ifs with hskip hparent
    · exact prefix_refl names
    · exact absurd hparent.symm (ne_of_not_mem_cons h)
    · exact prefix_append names [s]

lemma resolve_append_slash (hp : p ≠ []) (q : Text) :
    resolve cwd (p ++ '/' :: q) = (segments q).foldl enter (resolve cwd p) := by
  have hroot : ['/'] <+: p ++ '/' :: q ↔ ['/'] <+: p := by
    obtain ⟨a, l, rfl⟩ := exists_cons_of_ne_nil hp
    simp only [cons_append, cons_prefix_cons, List.nil_prefix]
  simp only [resolve, segments_append_slash, foldl_append, hroot]

lemma resolve_append_singleton_slash (hp : p ≠ []) : resolve cwd (p ++ ['/']) = resolve cwd p := by
  rw [resolve_append_slash hp]
  rfl

/-- Slashes at the end of a path are skipped. -/
lemma resolve_rdropWhile (h : p.rdropWhile (· = '/') ≠ []) :
    resolve cwd (p.rdropWhile (· = '/')) = resolve cwd p := by
  induction p using List.reverseRecOn with
  | nil => exact absurd rfl h
  | append_singleton p a ih =>
    by_cases ha : a = '/'
    · subst ha
      rw [rdropWhile_concat_pos _ _ _ (by decide)] at h ⊢
      have hp : p ≠ [] := fun hnil => h (by rw [hnil]; rfl)
      rw [ih h, resolve_append_singleton_slash hp]
    · rw [rdropWhile_concat_neg _ _ _ (by simpa using ha)]

/-- The text of a path below a directory; an empty directory is the working directory. -/
def below (dir path : Text) : Text :=
  if dir = [] then path else dir ++ '/' :: path

lemma isWithin_refl (cwd : List Text) (dir : Text) : IsWithin cwd dir dir :=
  prefix_refl _

/-- A path that stays, appended to a directory. -/
theorem isWithin_below (h : Stays p) : IsWithin cwd dir (below dir p) := by
  unfold IsWithin below
  split_ifs with hdir
  · have hcwd : resolve cwd dir = cwd := by rw [hdir]; rfl
    rw [hcwd, resolve, if_neg h.relative]
    exact prefix_foldl_enter h.descends cwd
  · rw [resolve_append_slash hdir]
    exact prefix_foldl_enter h.descends _

lemma isWithin_of_resolve_eq (h : resolve cwd dir = resolve cwd q) (hp : IsWithin cwd q p) : IsWithin cwd dir p := by
  unfold IsWithin
  rw [h]
  exact hp

/-- Everything is within the root. -/
lemma isWithin_of_forall_slash (hdir : dir ≠ []) (h : ∀ c ∈ dir, c = '/') (p : Text) : IsWithin cwd dir p := by
  have hroot : resolve cwd dir = [] := by
    obtain ⟨a, l, rfl⟩ := exists_cons_of_ne_nil hdir
    obtain rfl := h a (.head _)
    have hskip : ∀ l : Text, (∀ c ∈ l, c = '/') → (segments l).foldl enter [] = [] := by
      intro l hl
      induction l with
      | nil => rfl
      | cons c l ih =>
        obtain rfl := hl c (.head _)
        rw [segments_slash]
        exact ih fun c hc => hl c (.tail _ hc)
    rw [resolve, if_pos (cons_prefix_cons.2 ⟨rfl, List.nil_prefix⟩)]
    exact hskip _ h
  unfold IsWithin
  rw [hroot]
  exact List.nil_prefix

/-- A directory of slashes only is the root, or the working directory when it is empty. -/
lemma isWithin_of_rdropWhile_eq_nil (hdir : dir.rdropWhile (· = '/') = []) (h : cwd <+: resolve cwd p) :
    IsWithin cwd dir p := by
  by_cases hempty : dir = []
  · rw [hempty]
    exact h
  · refine isWithin_of_forall_slash hempty (fun c hc => ?_) _
    simpa using rdropWhile_eq_nil_iff.1 hdir c hc

/-- The same without the slashes at the end of the directory. -/
theorem isWithin_below_rdropWhile (h : Stays p) : IsWithin cwd dir (below (dir.rdropWhile (· = '/')) p) := by
  by_cases hdir : dir.rdropWhile (· = '/') = []
  · rw [hdir]
    have hcwd : IsWithin cwd [] (below [] p) := isWithin_below h
    exact isWithin_of_rdropWhile_eq_nil hdir hcwd
  · exact isWithin_of_resolve_eq (resolve_rdropWhile hdir).symm (isWithin_below h)

end SlashPath
