import Dethernety.Foundations.FileTree

/-!
# Confinement of model directories

Model of `validatePathConfinement` and of the `mkdir` of `ensureModelDirectoryStructure`. The check works on
the lexical form of the path and of the bases; `mkdir` walks the path as it was given. Locations are lists of
names, and `startsWith` with a separator is their prefix order.
-/

open List Option

namespace Confinement

open FileTree

/-- A path as it is given, split at the separators, without empty parts and `.`. -/
structure Path where
  absolute : Bool
  parts : List Part

/-- What the check depends on. -/
structure World where
  tree : FileTree
  /-- The number of links after which a walk gives up. -/
  maxLinks : ℕ
  /-- `process.cwd()` -/
  cwd : Location
  cwd_dir : tree.entry cwd = some .dir
  /-- The paths of `models.json` -/
  allowedPaths : List Path

variable (w : World)

namespace World

/-- Where the walk of a path starts. -/
def start (path : Path) : Location :=
  if path.absolute then [] else w.cwd

/-- `path.resolve` -/
def resolve (path : Path) : Location :=
  path.parts.foldl (fun l part =>
    match part with
    | none => l.dropLast
    | some name => l ++ [name]) (w.start path)

/-- `fs.realpath` -/
def realpath (l : Location) : Option Location :=
  (w.tree.walk false w.maxLinks [] (own (names l))).map Prod.fst

/-- `isModelDirectory`: its manifest is a file. -/
def isModelDirectory (l : Location) : Bool :=
  ((w.realpath (l ++ ["manifest.json"])).bind w.tree.entry) = some .file

end World

/-- `realPath.startsWith(base + path.sep) || realPath === base`; nothing starts with the root and a
separator. -/
def within (base realPath : Location) : Bool :=
  (base ≠ [] ∧ base <+: realPath) ∨ realPath = base

def realPathOf (resolved : Location) : Location :=
  match w.realpath resolved with
  | some realPath => realPath
  | none =>
    match w.realpath resolved.dropLast with
    | some realParent => realParent ++ resolved.getLast?.toList
    | none => resolved

def validatePathConfinement (baseDir : Option Path) (targetPath : Path) : Option Location :=
  let base := (baseDir.map w.resolve).getD w.cwd
  let realPath := realPathOf w (w.resolve targetPath)
  if within base realPath then some realPath
  else if w.allowedPaths.any fun allowed =>
      within (w.resolve allowed) realPath && w.isModelDirectory (w.resolve allowed) then some realPath
  else none

/-- Where `fs.mkdir` with `recursive` makes the directory, or finds it. -/
def mkdirLocation (path : Path) : Option Location :=
  (w.tree.walk true w.maxLinks (w.start path) (own path.parts)).map Prod.fst

/-- Where a lexical location physically is, or would be made. -/
def locate (l : Location) : Option Location :=
  mkdirLocation w ⟨true, names l⟩

/-- The physical location of the base directory or of an allowed model directory. -/
def Trusted (baseDir : Option Path) (root : Location) : Prop :=
  locate w ((baseDir.map w.resolve).getD w.cwd) = some root ∨
    ∃ allowed ∈ w.allowedPaths, w.isModelDirectory (w.resolve allowed) = true ∧
      locate w (w.resolve allowed) = some root

def Inside (baseDir : Option Path) (l : Location) : Prop :=
  ∃ root, Trusted w baseDir root ∧ root <+: l

/-- The location or its parent exists. -/
def Resolves (l : Location) : Prop :=
  (w.realpath l).isSome ∨ (w.realpath l.dropLast).isSome

/-- The location is `p ++ name :: rest`, of which `p` exists, at `real`, and `name` is the first that is missing. -/
structure Breaks (l p : Location) (name : String) (rest real : Location) : Prop where
  eq : l = p ++ name :: rest
  found : w.realpath p = some real
  missing : w.realpath (p ++ [name]) = none

/-- What exists of a location lies inside, or the trusted directory is among the ones that are still to be made. -/
def BreaksInside (baseDir : Option Path) (l : Location) : Prop :=
  ∃ p name rest real root, Breaks w l p name rest real ∧ Trusted w baseDir root ∧
    (root <+: real ∨ (w.tree.entry root = none ∧ root <+: real ++ name :: rest))

section

variable {w} {baseDir : Option Path} {path : Path} {l p loc root real rest : Location} {name : String}

/-- A location that is a directory, or can be made in one. -/
def Reachable (t : FileTree) (l : Location) : Prop :=
  t.entry l = some .dir ∨ ∃ parent name, l = parent ++ [name] ∧ t.entry parent = some .dir ∧ t.entry l = none

lemma locate_of_dir (h : w.tree.entry l = some .dir) : locate w l = some l := by
  have hwalk : w.tree.walk true w.maxLinks [] (own (names l)) = some (l, w.maxLinks) := walk_names h
  exact congrArg (Option.map Prod.fst) hwalk

lemma locate_of_missing (hdir : w.tree.entry l = some .dir) (hnone : w.tree.entry (l ++ [name]) = none) :
    locate w (l ++ [name]) = some (l ++ [name]) := by
  have hwalk : w.tree.walk true w.maxLinks [] (own (names l) ++ [(some name, true)]) =
      w.tree.walk true w.maxLinks l [(some name, true)] :=
    walk_append hdir (walk_names hdir)
  have hsteps : own (names (l ++ [name])) = own (names l) ++ [(some name, true)] := by
    simp [own, names]
  show (w.tree.walk true w.maxLinks [] (own (names (l ++ [name])))).map Prod.fst = _
  rw [hsteps, hwalk, walk_missing hnone, if_pos (Bool.and_true true), walk_nil]
  rfl

lemma locate_of_within (hreal : Reachable w.tree real) (h : within root real = true) :
    locate w root = some root ∧ root <+: real := by
  have hprefix : root <+: real := by
    rcases of_decide_eq_true h with ⟨-, h⟩ | h
    · exact h
    · rw [h]
  refine ⟨?_, hprefix⟩
  by_cases heq : root = real
  · rw [heq]
    rcases hreal with hdir | ⟨parent, name, rfl, hdir, hnone⟩
    · exact locate_of_dir hdir
    · exact locate_of_missing hdir hnone
  · refine locate_of_dir ?_
    rcases hreal with hdir | ⟨parent, name, rfl, hdir, -⟩
    · exact dir_above hprefix heq (by rw [hdir]; rfl)
    · have hparent : root <+: parent := (prefix_concat_iff.1 hprefix).resolve_left heq
      by_cases heq' : root = parent
      · rw [heq']
        exact hdir
      · exact dir_above hparent heq' (by rw [hdir]; rfl)

lemma own_names_append (l m : Location) : own (names (l ++ m)) = own (names l) ++ own (names m) := by
  simp [own, names]

/-- Where a location breaks off, `mkdir` makes all that is missing. -/
lemma locate_of_breaks (hbreaks : Breaks w l p name rest real) (hloc : locate w l = some loc) :
    loc = real ++ name :: rest ∧ w.tree.entry real = some .dir ∧ w.tree.entry (real ++ [name]) = none := by
  obtain ⟨rfl, hfound, hmissing⟩ := hbreaks
  obtain ⟨⟨real, left⟩, hreal, rfl⟩ := map_eq_some_iff.1 hfound
  obtain ⟨⟨loc, left'⟩, hwalk, rfl⟩ := map_eq_some_iff.1 hloc
  replace hwalk : w.tree.walk true w.maxLinks [] (own (names (p ++ name :: rest))) = some (loc, left') := hwalk
  rw [own_names_append] at hwalk
  rcases entry_of_walk w.tree.root hreal with hdir | hfile
  · rw [World.realpath, own_names_append, walk_append hdir hreal, map_eq_none_iff] at hmissing
    rw [walk_append hdir hreal, show own (names (name :: rest)) = (some name, true) :: own (names rest) from rfl]
      at hwalk
    replace hmissing : w.tree.walk false left real [(some name, true)] = none := hmissing
    cases hentry : w.tree.entry (real ++ [name]) with
    | none =>
      rw [walk_missing hentry, if_pos (Bool.and_true true), walk_names_missing hentry] at hwalk
      cases hwalk
      exact ⟨append_assoc real [name] rest, hdir, rfl⟩
    | some entry =>
      cases entry with
      | dir =>
        rw [walk_dir hentry, walk_nil] at hmissing
        cases hmissing
      | file =>
        rw [walk_file hentry] at hmissing
        exact absurd hmissing (by simp)
      | link absolute target =>
        -- a link that leads nowhere, which `mkdir` does not mend
        cases left with
        | zero =>
          rw [walk_link_zero hentry] at hwalk
          cases hwalk
        | succ left =>
          rw [walk_link hentry, append_nil] at hmissing
          rw [walk_link hentry] at hwalk
          have hnotOwn : ∀ s ∈ target.map fun part => (part, false), s.2 = false := by
            intro s hs
            obtain ⟨part, -, rfl⟩ := mem_map.1 hs
            rfl
          obtain ⟨x, hx⟩ := walk_of_create hnotOwn hwalk
          cases hmissing.symm.trans hx
  · rw [walk_create_file hfile w.tree.root hreal] at hwalk
    cases hwalk

lemma exists_breaks (h : w.realpath l = none) : ∃ p name rest real, Breaks w l p name rest real := by
  induction l using List.reverseRecOn with
  | nil =>
    rw [World.realpath, show own (names []) = [] from rfl, walk_nil] at h
    cases h
  | append_singleton l name ih =>
    cases hparent : w.realpath l with
    | some real => exact ⟨l, name, [], real, rfl, hparent, h⟩
    | none =>
      obtain ⟨p, first, rest, real, rfl, hfound, hmissing⟩ := ih hparent
      exact ⟨p, first, rest ++ [name], real, by simp, hfound, hmissing⟩

/-- If the path or its parent exists, the place that is checked is the place that `mkdir` comes to. -/
lemma realPathOf_eq (hresolves : Resolves w l) (hloc : locate w l = some loc) :
    realPathOf w l = loc ∧ Reachable w.tree loc := by
  rw [realPathOf]
  cases hreal : w.realpath l with
  | some real =>
    obtain ⟨⟨real, left'⟩, hreal', rfl⟩ := map_eq_some_iff.1 hreal
    obtain ⟨⟨loc, left⟩, hwalk, rfl⟩ := map_eq_some_iff.1 hloc
    replace hwalk : w.tree.walk true w.maxLinks [] (own (names l)) = some (loc, left) := hwalk
    rw [← append_nil (own (names l))] at hwalk
    rcases entry_of_walk w.tree.root hreal' with hdir | hfile
    · rw [walk_append hdir hreal', walk_nil] at hwalk
      cases hwalk
      exact ⟨rfl, .inl hdir⟩
    · rw [walk_create_file hfile w.tree.root hreal'] at hwalk
      cases hwalk
  | none =>
    obtain ⟨parent, hparent⟩ := isSome_iff_exists.1 (hresolves.resolve_left (by simp [hreal]))
    rcases eq_nil_or_concat l with rfl | ⟨l, name, rfl⟩
    · exact absurd (hreal.symm.trans hparent) nofun
    · rw [concat_eq_append] at *
      rw [dropLast_concat] at hparent ⊢
      obtain ⟨rfl, hdir, hentry⟩ := locate_of_breaks ⟨rfl, hparent, hreal⟩ hloc
      rw [hparent]
      exact ⟨by simp, .inr ⟨parent, name, rfl, hdir, hentry⟩⟩

lemma exists_root (h : validatePathConfinement w baseDir path = some real) :
    within ((baseDir.map w.resolve).getD w.cwd) (realPathOf w (w.resolve path)) = true ∨
      ∃ allowed ∈ w.allowedPaths, w.isModelDirectory (w.resolve allowed) = true ∧
        within (w.resolve allowed) (realPathOf w (w.resolve path)) = true := by
  rw [validatePathConfinement] at h
  split_ifs at h with hbase hallowed
  · exact .inl hbase
  · obtain ⟨allowed, hmem, hwithin⟩ := any_eq_true.1 hallowed
    obtain ⟨hwithin, hmodel⟩ := (Bool.and_eq_true_iff).1 hwithin
    exact .inr ⟨allowed, hmem, hmodel, hwithin⟩

lemma inside_of_resolves (haccept : validatePathConfinement w baseDir path = some real)
    (hresolves : Resolves w (w.resolve path)) (hloc : locate w (w.resolve path) = some loc) : Inside w baseDir loc := by
  obtain ⟨rfl, hreachable⟩ := realPathOf_eq hresolves hloc
  rcases exists_root haccept with hbase | ⟨allowed, hmem, hmodel, hallowed⟩
  · obtain ⟨hroot, hprefix⟩ := locate_of_within hreachable hbase
    exact ⟨_, .inl hroot, hprefix⟩
  · obtain ⟨hroot, hprefix⟩ := locate_of_within hreachable hallowed
    exact ⟨_, .inr ⟨allowed, hmem, hmodel, hroot⟩, hprefix⟩

/-- An entry above what is made is above what exists of it. -/
lemma prefix_of_entry (hmissing : w.tree.entry (real ++ [name]) = none) ( hprefix : root <+: real ++ name :: rest)
    (hroot : (w.tree.entry root).isSome) : root <+: real := by
  rcases prefix_or_prefix_of_prefix hprefix (prefix_append real (name :: rest)) with h | ⟨more, rfl⟩
  · exact h
  · cases more with
    | nil => rw [append_nil]
    | cons first more =>
      obtain ⟨rfl, -⟩ := cons_prefix_cons.1 ((prefix_append_right_inj real).1 hprefix)
      have habove : real ++ [first] <+: real ++ first :: more := ⟨more, by simp⟩
      by_cases heq : real ++ [first] = real ++ first :: more
      · rw [← heq, hmissing] at hroot
        cases hroot
      · cases hmissing.symm.trans (dir_above habove heq hroot)

/-- For an accepted path which the system walks to where its lexical form leads, the directory is made inside if
and only if the path or its parent exists, or what exists on the way lies inside. -/
theorem inside_iff (haccept : validatePathConfinement w baseDir path = some real)
    (hsame : mkdirLocation w path = locate w (w.resolve path)) (hloc : mkdirLocation w path = some loc) :
    Inside w baseDir loc ↔ (Resolves w (w.resolve path) ∨ BreaksInside w baseDir (w.resolve path)) := by
  rw [hsame] at hloc
  constructor
  · rintro ⟨root, htrusted, hprefix⟩
    cases hreal : w.realpath (w.resolve path) with
    | some => exact .inl (.inl (by simp [hreal]))
    | none =>
      obtain ⟨p, name, rest, real, hbreaks⟩ := exists_breaks hreal
      obtain ⟨rfl, -, hmissing⟩ := locate_of_breaks hbreaks hloc
      refine .inr ⟨p, name, rest, real, root, hbreaks, htrusted, ?_⟩
      cases hentry : w.tree.entry root with
      | none => exact .inr ⟨rfl, hprefix⟩
      | some entry => exact .inl (prefix_of_entry hmissing hprefix (by simp [hentry]))
  · rintro (hresolves | ⟨p, name, rest, real, root, hbreaks, htrusted, hinside⟩)
    · exact inside_of_resolves haccept hresolves hloc
    · obtain ⟨rfl, -, -⟩ := locate_of_breaks hbreaks hloc
      exact ⟨root, htrusted, hinside.elim (fun h => h.trans (prefix_append _ _)) And.right⟩

end

/-- A base directory `/work` with a link `out` to `/etc`. -/
def sampleEntry : Location → Option Entry
  | [] => some .dir
  | ["etc"] => some .dir
  | ["work"] => some .dir
  | ["work", "out"] => some (.link true [some "etc"])
  | _ => none

lemma sampleEntry_parent (l : Location) (n : String) (h : (sampleEntry (l ++ [n])).isSome) :
    sampleEntry l = some .dir := by
  match l with
  | [] => rfl
  | [a] =>
    by_cases ha : a = "work"
    · rw [ha]
      rfl
    · have hnone : sampleEntry [a, n] = none := by simp [sampleEntry, ha]
      rw [show [a] ++ [n] = [a, n] from rfl, hnone] at h
      cases h
  | a :: b :: rest =>
    have hnone : sampleEntry (a :: b :: rest ++ [n]) = none := by simp [sampleEntry]
    rw [hnone] at h
    cases h

def sampleWorld : World where
  tree := ⟨sampleEntry, rfl, sampleEntry_parent⟩
  maxLinks := 40
  cwd := ["work"]
  cwd_dir := rfl
  allowedPaths := []

/-- A new directory right in the base. -/
theorem sampleWorld_inside :
    mkdirLocation sampleWorld ⟨false, [some "model"]⟩ = some ["work", "model"] ∧
      Inside sampleWorld none ["work", "model"] := by
  have haccept : validatePathConfinement sampleWorld none ⟨false, [some "model"]⟩ =
      some ["work", "model"] := by decide
  have hmade : mkdirLocation sampleWorld ⟨false, [some "model"]⟩ = some ["work", "model"] := by decide
  exact ⟨hmade, (inside_iff haccept (by decide) hmade).2 (.inl (.inr (by decide)))⟩

/-- Two missing directories below the link: the path is accepted, and made outside. -/
theorem sampleWorld_escapes :
    validatePathConfinement sampleWorld none ⟨false, [some "out", some "a", some "b"]⟩ =
        some ["work", "out", "a", "b"] ∧
      mkdirLocation sampleWorld ⟨false, [some "out", some "a", some "b"]⟩ = some ["etc", "a", "b"] ∧
      ¬ Inside sampleWorld none ["etc", "a", "b"] := by
  refine ⟨by decide, by decide, ?_⟩
  rintro ⟨root, hroot | ⟨allowed, hmem, -⟩, hprefix⟩
  · have hwork : locate sampleWorld ["work"] = some ["work"] := by decide
    cases hwork.symm.trans hroot
    exact absurd hprefix (by decide)
  · cases hmem

end Confinement
