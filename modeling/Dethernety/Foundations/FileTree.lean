import Mathlib.Data.List.Infix

/-!
# File trees with symbolic links

A location is the list of the names from the root to an entry, and a path is walked from a directory, with
links followed where they are met and at most `n` of them in all. A walk may make the directories that are
missing on the path itself; what a link leads to has to exist.
-/

/-- A directory, a file or a symbolic link. -/
inductive FileTree.Entry
  | dir
  | file
  /-- A link with its target: absolute, or relative to the directory of the link. -/
  | link (absolute : Bool) (target : List (Option String))
  deriving DecidableEq

/-- Names from the root. -/
abbrev FileTree.Location := List String

/-- A part of a path: a name, or `none` for the parent directory. -/
abbrev FileTree.Part := Option String

/-- What is at each location; entries are in directories. -/
structure FileTree where
  entry : FileTree.Location → Option FileTree.Entry
  root : entry [] = some .dir
  parent : ∀ l n, (entry (l ++ [n])).isSome → entry l = some .dir

open List

namespace FileTree

/-- A part, with whether it is one of the path itself. -/
abbrev Step := Part × Bool

/-- The steps of a path. -/
def own (path : List Part) : List Step :=
  path.map (·, true)

def names (l : Location) : List Part :=
  l.map some

/-- The walk up to the next link, which `follow` goes on with. -/
def walkUpTo (t : FileTree) (create : Bool) (follow : Location → List Step → Option (Location × ℕ))
    (left : ℕ) : Location → List Step → Option (Location × ℕ)
  | cur, [] => some (cur, left)
  | cur, (none, _) :: rest => walkUpTo t create follow left cur.dropLast rest
  | cur, (some n, isOwn) :: rest =>
    match t.entry (cur ++ [n]) with
    | none => if create && isOwn then walkUpTo t create follow left (cur ++ [n]) rest else none
    | some .dir => walkUpTo t create follow left (cur ++ [n]) rest
    | some .file => if rest.isEmpty && !create then some (cur ++ [n], left) else none
    | some (.link absolute target) =>
      follow (if absolute then [] else cur) (target.map (·, false) ++ rest)

/-- The walk of a path from a directory, with the number of links that may still be followed. -/
def walk (t : FileTree) (create : Bool) : ℕ → Location → List Step → Option (Location × ℕ)
  | 0 => walkUpTo t create (fun _ _ => none) 0
  | n + 1 => walkUpTo t create (walk t create n) (n + 1)

variable {t : FileTree} {create : Bool} {n n' : ℕ} {cur loc : Location} {steps rest : List Step}

section

lemma walk_nil : t.walk create n cur [] = some (cur, n) := by
  cases n <;> rfl

lemma walk_up (isOwn : Bool) : t.walk create n cur ((none, isOwn) :: rest) = t.walk create n cur.dropLast rest := by
  cases n <;> rfl

variable {name : String} {isOwn : Bool}

lemma walk_dir (h : t.entry (cur ++ [name]) = some .dir) :
    t.walk create n cur ((some name, isOwn) :: rest) = t.walk create n (cur ++ [name]) rest := by
  cases n <;> simp only [walk, walkUpTo, h]

lemma walk_file (h : t.entry (cur ++ [name]) = some .file) :
    t.walk create n cur ((some name, isOwn) :: rest) =
      if rest.isEmpty && !create then some (cur ++ [name], n) else none := by
  cases n <;> simp only [walk, walkUpTo, h]

lemma walk_missing (h : t.entry (cur ++ [name]) = none) :
    t.walk create n cur ((some name, isOwn) :: rest) =
      if create && isOwn then t.walk create n (cur ++ [name]) rest else none := by
  cases n <;> simp only [walk, walkUpTo, h]

lemma walk_link {absolute : Bool} {target : List Part}
    (h : t.entry (cur ++ [name]) = some (.link absolute target)) :
    t.walk create (n + 1) cur ((some name, isOwn) :: rest) =
      t.walk create n (if absolute then [] else cur) (target.map (·, false) ++ rest) := by
  simp only [walk, walkUpTo, h]

lemma walk_link_zero {absolute : Bool} {target : List Part}
    (h : t.entry (cur ++ [name]) = some (.link absolute target)) :
    t.walk create 0 cur ((some name, isOwn) :: rest) = none := by
  simp only [walk, walkUpTo, h]

end

/-- Induction along a walk: over the steps, and at a link over the links that are left. -/
lemma walk_induction {P : ℕ → Location → List Step → Prop} (t : FileTree)
    (nil : ∀ n cur, P n cur [])
    (up : ∀ n cur isOwn rest, P n cur.dropLast rest → P n cur ((none, isOwn) :: rest))
    (dir : ∀ n cur name isOwn rest, t.entry (cur ++ [name]) = some .dir → P n (cur ++ [name]) rest →
      P n cur ((some name, isOwn) :: rest))
    (file : ∀ n cur name isOwn rest, t.entry (cur ++ [name]) = some .file →
      P n cur ((some name, isOwn) :: rest))
    (missing : ∀ n cur name isOwn rest, t.entry (cur ++ [name]) = none → P n (cur ++ [name]) rest →
      P n cur ((some name, isOwn) :: rest))
    (link : ∀ n cur name isOwn rest absolute target,
      t.entry (cur ++ [name]) = some (.link absolute target) →
      P n (if absolute then [] else cur) (target.map (·, false) ++ rest) →
      P (n + 1) cur ((some name, isOwn) :: rest))
    (link_zero : ∀ cur name isOwn rest absolute target,
      t.entry (cur ++ [name]) = some (.link absolute target) → P 0 cur ((some name, isOwn) :: rest)) :
    ∀ n cur steps, P n cur steps := by
  have hstep : ∀ n, (∀ m, m + 1 = n → ∀ cur steps, P m cur steps) → ∀ cur steps, P n cur steps := by
    intro n ihn cur steps
    induction steps generalizing cur with
    | nil => exact nil n cur
    | cons step rest ih =>
      obtain ⟨part, isOwn⟩ := step
      cases part with
      | none => exact up n cur isOwn rest (ih _)
      | some name =>
        cases hentry : t.entry (cur ++ [name]) with
        | none => exact missing n cur name isOwn rest hentry (ih _)
        | some entry =>
          cases entry with
          | dir => exact dir n cur name isOwn rest hentry (ih _)
          | file => exact file n cur name isOwn rest hentry
          | link absolute target =>
            cases n with
            | zero => exact link_zero cur name isOwn rest absolute target hentry
            | succ n => exact link n cur name isOwn rest absolute target hentry (ihn n rfl _ _)
  intro n
  induction n with
  | zero => exact hstep 0 fun m hm => absurd hm m.succ_ne_zero
  | succ n ihn =>
    refine hstep (n + 1) fun m hm => ?_
    cases hm
    exact ihn

/-- What is above an entry is a directory. -/
lemma dir_above {l m : Location} (h : l <+: m) (hne : l ≠ m) (hm : (t.entry m).isSome) :
    t.entry l = some .dir := by
  induction m using List.reverseRecOn with
  | nil => exact absurd (prefix_nil.1 h) hne
  | append_singleton m name ih =>
    have hdir := t.parent m name hm
    rcases prefix_concat_iff.1 h with heq | hprefix
    · exact absurd heq hne
    · by_cases heq : l = m
      · rw [heq]
        exact hdir
      · exact ih hprefix heq (by rw [hdir]; rfl)

lemma dir_dropLast (h : t.entry cur = some .dir) : t.entry cur.dropLast = some .dir := by
  by_cases heq : cur.dropLast = cur
  · rw [heq]
    exact h
  · exact dir_above (List.dropLast_prefix cur) heq (by rw [h]; rfl)

/-- A walk that makes nothing and ends at `loc`. -/
inductive Leads (t : FileTree) (loc : Location) (n' : ℕ) : ℕ → Location → List Step → Prop
  | nil : Leads t loc n' n' loc []
  | up {n cur isOwn rest} (h : Leads t loc n' n cur.dropLast rest) : Leads t loc n' n cur ((none, isOwn) :: rest)
  | dir {n cur name isOwn rest} (hentry : t.entry (cur ++ [name]) = some .dir)
      (h : Leads t loc n' n (cur ++ [name]) rest) : Leads t loc n' n cur ((some name, isOwn) :: rest)
  | file {cur name isOwn} (hentry : t.entry (cur ++ [name]) = some .file) (hloc : loc = cur ++ [name]) :
      Leads t loc n' n' cur [(some name, isOwn)]
  | link {n cur name isOwn rest absolute target} (hentry : t.entry (cur ++ [name]) = some (.link absolute target))
      (h : Leads t loc n' n (if absolute then [] else cur) (target.map (·, false) ++ rest)) :
      Leads t loc n' (n + 1) cur ((some name, isOwn) :: rest)

lemma leads_of_walk (h : t.walk false n cur steps = some (loc, n')) : Leads t loc n' n cur steps := by
  induction n, cur, steps using walk_induction t with
  | nil n cur =>
    rw [walk_nil] at h
    cases h
    exact .nil
  | up n _ isOwn _ ih => exact .up (ih (walk_up isOwn ▸ h))
  | dir n _ _ _ _ hentry ih => exact .dir hentry (ih (walk_dir hentry ▸ h))
  | file n _ _ _ rest hentry =>
    rw [walk_file hentry] at h
    split_ifs at h with hrest
    cases h
    obtain rfl : rest = [] := by simpa using hrest
    exact .file hentry rfl
  | missing n _ _ _ _ hentry => cases (walk_missing hentry).symm.trans h
  | link n _ _ _ _ _ _ hentry ih => exact .link hentry (ih (walk_link hentry ▸ h))
  | link_zero _ _ _ _ _ _ hentry => cases (walk_link_zero hentry).symm.trans h

lemma dir_of_link {absolute : Bool} (hcur : t.entry cur = some .dir) :
    t.entry (if absolute then [] else cur) = some .dir := by
  split_ifs
  · exact t.root
  · exact hcur

/-- A walk that makes nothing ends at a directory or a file. -/
theorem entry_of_walk (hcur : t.entry cur = some .dir) (h : t.walk false n cur steps = some (loc, n')) :
    t.entry loc = some .dir ∨ t.entry loc = some .file := by
  replace h := leads_of_walk h
  induction h with
  | nil => exact .inl hcur
  | up _ ih => exact ih (dir_dropLast hcur)
  | dir hentry _ ih => exact ih hentry
  | file hentry hloc => exact .inr (hloc ▸ hentry)
  | link _ _ ih => exact ih (dir_of_link hcur)

/-- A walk goes on from where its first part leads, if that is a directory. -/
theorem walk_append (hloc : t.entry loc = some .dir) (h : t.walk false n cur steps = some (loc, n')) :
    t.walk create n cur (steps ++ rest) = t.walk create n' loc rest := by
  replace h := leads_of_walk h
  induction h with
  | nil => rfl
  | up _ ih => exact (walk_up _).trans ih
  | dir hentry _ ih => exact (walk_dir hentry).trans ih
  | file hentry heq => cases (heq ▸ hloc).symm.trans hentry
  | link hentry _ ih =>
    rw [cons_append, walk_link hentry, ← append_assoc]
    exact ih

/-- A walk that makes directories does not go through a file, nor end there. -/
theorem walk_create_file (hloc : t.entry loc = some .file) (hcur : t.entry cur = some .dir)
    (h : t.walk false n cur steps = some (loc, n')) : t.walk true n cur (steps ++ rest) = none := by
  replace h := leads_of_walk h
  induction h with
  | nil => cases hloc.symm.trans hcur
  | up _ ih => exact (walk_up _).trans (ih (dir_dropLast hcur))
  | dir hentry _ ih => exact (walk_dir hentry).trans (ih hentry)
  | file hentry =>
    rw [cons_append, walk_file hentry]
    exact if_neg (by simp)
  | link hentry _ ih =>
    rw [cons_append, walk_link hentry, ← append_assoc]
    exact ih (dir_of_link hcur)

/-- Nothing is made on the way that a link leads. -/
theorem walk_of_create (hown : ∀ s ∈ steps, s.2 = false) (h : t.walk true n cur (steps ++ rest) = some (loc, n')) :
    ∃ x, t.walk false n cur steps = some x := by
  induction n, cur, steps using walk_induction t with
  | nil => exact ⟨_, walk_nil⟩
  | up n _ isOwn _ ih =>
    rw [walk_up]
    exact ih (fun s hs => hown s (.tail _ hs)) ((walk_up isOwn).symm.trans h)
  | dir n _ _ _ _ hentry ih =>
    rw [walk_dir hentry]
    exact ih (fun s hs => hown s (.tail _ hs)) ((walk_dir hentry).symm.trans h)
  | file n _ _ _ _ hentry =>
    rw [cons_append, walk_file hentry, if_neg (by simp)] at h
    cases h
  | missing n _ _ isOwn _ hentry =>
    obtain rfl : isOwn = false := hown _ (.head _)
    cases (walk_missing hentry).symm.trans h
  | link n _ _ _ _ _ _ hentry ih =>
    rw [cons_append, walk_link hentry, ← append_assoc] at h
    rw [walk_link hentry]
    refine ih (fun s hs => ?_) h
    rcases mem_append.1 hs with hs | hs
    · obtain ⟨part, -, rfl⟩ := mem_map.1 hs
      rfl
    · exact hown s (.tail _ hs)
  | link_zero _ _ _ _ _ _ hentry => cases (walk_link_zero hentry).symm.trans h

/-- The names of a directory's location lead to it. -/
theorem walk_names {l : Location} (h : t.entry (cur ++ l) = some .dir) :
    t.walk create n cur (own (names l)) = some (cur ++ l, n) := by
  induction l generalizing cur with
  | nil =>
    rw [append_nil]
    exact walk_nil
  | cons name l ih =>
    have hassoc : cur ++ name :: l = (cur ++ [name]) ++ l := by simp
    have hentry : t.entry (cur ++ [name]) = some .dir := by
      by_cases hnil : l = []
      · rwa [hnil] at h
      · refine dir_above (m := cur ++ name :: l) ⟨l, hassoc.symm⟩ (fun heq => hnil ?_) (by rw [h]; rfl)
        rw [hassoc] at heq
        exact append_cancel_left ((append_nil _).trans heq).symm
    rw [hassoc] at h ⊢
    exact (walk_dir hentry).trans (ih h)

/-- Below a missing directory all is made that is named. -/
theorem walk_names_missing {l : Location} (h : t.entry cur = none) :
    t.walk true n cur (own (names l)) = some (cur ++ l, n) := by
  induction l generalizing cur with
  | nil =>
    rw [append_nil]
    exact walk_nil
  | cons name l ih =>
    have hentry : t.entry (cur ++ [name]) = none := by
      by_contra hsome
      exact absurd (h.symm.trans (t.parent cur name (Option.isSome_iff_ne_none.2 hsome))) nofun
    rw [show cur ++ name :: l = (cur ++ [name]) ++ l by simp, ← ih hentry]
    exact walk_missing hentry

end FileTree
