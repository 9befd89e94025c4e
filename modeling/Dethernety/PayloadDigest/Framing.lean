import Dethernety.PayloadDigest.Digest

/-!
# The stream determines the payload

For a host that names the entries of a directory without loss, the stream is the concatenation of
one record for each regular file but the stamp, in the order of the paths (`Host.Faithful.stream_eq`).
Records can be told apart in a concatenation (`records_injective`), so the stream determines the
files, and two such hosts feed the same stream.
-/

open List Nat

namespace PayloadDigest

open CharCode

/-! ### Paths -/

section

variable {node child : Node} {names more : List (List UInt8)} {name : List UInt8}
  {es : List (List UInt8 × Node)}

lemma mem_of_lookup (h : es.lookup name = some child) : (name, child) ∈ es := by
  obtain ⟨l₁, l₂, rfl, -⟩ := lookup_eq_some_iff.1 h
  exact mem_append_right l₁ (.head _)

lemma lookup_of_mem (hnodup : (es.map Prod.fst).Nodup) (h : (name, child) ∈ es) : es.lookup name = some child := by
  obtain ⟨l₁, l₂, rfl⟩ := append_of_mem h
  refine lookup_eq_some_iff.2 ⟨l₁, l₂, rfl, fun e he => ?_⟩
  rw [map_append, map_cons, nodup_append] at hnodup
  exact bne_iff_ne.2 (hnodup.2.2 e.1 (mem_map_of_mem he) name (.head _)).symm

@[simp]
lemma Node.find?_nil : node.find? [] = some node := by
  cases node <;> rfl

lemma Node.find?_directory_cons :
    (Node.directory es).find? (name :: names) = (es.lookup name).bind (·.find? names) := rfl

lemma Node.find?_append (h : node.find? names = some child) : node.find? (names ++ more) = child.find? more := by
  induction names generalizing node with
  | nil =>
    rw [Node.find?_nil, Option.some.injEq] at h
    rw [h, nil_append]
  | cons _ _ ih =>
    cases node with
    | directory es =>
      obtain ⟨entry, hentry, hfind⟩ := Option.bind_eq_some_iff.1 h
      rw [cons_append, Node.find?_directory_cons, hentry]
      exact ih hfind
    | file data | other => cases h

lemma exists_directory_of_mem (hfind : node.find? names = some child) (hname : name ∈ names) :
    ∃ before es, node.find? before = some (.directory es) ∧ ∃ e ∈ es, e.1 = name := by
  induction names generalizing node with
  | nil => cases hname
  | cons first names ih =>
    cases node with
    | directory es =>
      obtain ⟨entry, hentry, hrest⟩ := Option.bind_eq_some_iff.1 hfind
      obtain rfl | hmem := mem_cons.1 hname
      · exact ⟨[], es, Node.find?_nil, _, mem_of_lookup hentry, rfl⟩
      · obtain ⟨before, es', hbefore, hes'⟩ := ih hrest hmem
        refine ⟨first :: before, es', ?_, hes'⟩
        rw [Node.find?_directory_cons, hentry]
        exact hbefore
    | file data | other => cases hfind

lemma depth_le_entriesDepth {e : List UInt8 × Node} (he : e ∈ es) : e.2.depth ≤ entriesDepth es := by
  induction es with
  | nil => cases he
  | cons _ _ ih =>
    rw [entriesDepth]
    obtain rfl | hmem := mem_cons.1 he
    · obtain ⟨name, node⟩ := e
      exact le_max_left _ _
    · exact le_trans (ih hmem) (le_max_right _ _)

lemma intercalate_concat {α : Type*} {sep l : List α} {ls : List (List α)} (h : ls ≠ []) :
    sep.intercalate (ls ++ [l]) = sep.intercalate ls ++ sep ++ l := by
  induction ls with
  | nil => exact absurd rfl h
  | cons first ls ih =>
    cases ls with
    | nil => simp [intercalate_cons_cons]
    | cons =>
      rw [cons_append, cons_append, intercalate_cons_cons,
        intercalate_cons_cons, ← cons_append, ih (cons_ne_nil _ _)]
      simp only [append_assoc]

lemma slashPath_cons_cons (name next : List UInt8) :
    slashPath (name :: next :: names) = name ++ 47 :: slashPath (next :: names) := by
  rw [slashPath, intercalate_cons_cons, append_assoc]
  rfl

lemma segments_slashPath (h : ∀ name ∈ names, IsName name) : segments (slashPath names) = names := by
  cases names with
  | nil => rfl
  | cons name names =>
    have hne : slashPath (name :: names) ≠ [] := by
      cases names with
      | nil => simpa [slashPath] using (h name (.head _)).1
      | cons => simp [slashPath_cons_cons]
    rw [segments, if_neg hne]
    exact splitOn_intercalate 47 (fun n hn => (h n hn).2.2.1) (cons_ne_nil _ _)

lemma slashPath_segments (path : List UInt8) : slashPath (segments path) = path := by
  by_cases h : path = []
  · rw [h]
    rfl
  · rw [segments, if_neg h]
    exact intercalate_splitOn 47

lemma zero_notMem_slashPath (h : ∀ name ∈ names, IsName name) : 0 ∉ slashPath names := by
  induction names with
  | nil => exact not_mem_nil
  | cons name names ih =>
    have hname := (h name (.head _)).2.1
    have hnames := ih (fun n hn => h n (mem_cons_of_mem name hn))
    cases names with
    | nil => simpa [slashPath] using hname
    | cons =>
      rw [slashPath_cons_cons]
      simp [hname, hnames]

end

namespace PayloadDir

variable {dir : PayloadDir} {names : List (List UInt8)} {child : Node}

lemma isName_of_find? (h : dir.root.find? names = some child) : ∀ name ∈ names, IsName name := by
  intro name hname
  obtain ⟨before, es, hbefore, e, he, rfl⟩ := exists_directory_of_mem h hname
  exact (dir.wellFormed before es hbefore).2 e he

lemma good_of_find? {good : List UInt8 → Prop} (hgood : dir.Names good)
    (h : dir.root.find? names = some child) : ∀ name ∈ names, good name := by
  intro name hname
  obtain ⟨before, es, hbefore, e, he, rfl⟩ := exists_directory_of_mem h hname
  exact hgood before es hbefore e he

lemma file?_eq_some_iff {path data : List UInt8} :
    dir.file? path = some data ↔ dir.root.find? (segments path) = some (.file data) := by
  rw [file?]
  split
  · next d hd => rw [hd, Option.some.injEq, Option.some.injEq, Node.file.injEq]
  · next hnot =>
    constructor
    · intro h
      cases h
    · intro h
      exact absurd h (hnot data)

lemma zero_notMem_of_file? {path data : List UInt8} (h : dir.file? path = some data) : 0 ∉ path := by
  rw [← slashPath_segments path]
  exact zero_notMem_slashPath (isName_of_find? (file?_eq_some_iff.1 h))

end PayloadDir

/-! ### Records -/

/-- One record of the stream, for a path in bytes. -/
def frame (path data : List UInt8) : List UInt8 :=
  path ++ [0] ++ utf8.encode (Nat.toDigits 10 data.length) ++ [0] ++ data

/-- The records of files of a directory. -/
def records (dir : PayloadDir) (paths : List (List UInt8)) : List UInt8 :=
  paths.flatMap (fun path => frame path ((dir.file? path).getD []))

lemma eq_of_append_zero_eq {a b u v : List UInt8} (ha : 0 ∉ a) (hb : 0 ∉ b)
    (h : a ++ 0 :: u = b ++ 0 :: v) : a = b ∧ u = v := by
  induction a generalizing b with
  | nil =>
    cases b with
    | nil => exact ⟨rfl, (List.cons.inj h).2⟩
    | cons y b => exact absurd ((List.cons.inj h).1 ▸ (.head _)) hb
  | cons x a ih =>
    cases b with
    | nil => exact absurd ((List.cons.inj h).1 ▸ (.head _)) ha
    | cons y b =>
      obtain ⟨rfl, hrest⟩ := List.cons.inj h
      obtain ⟨rfl, rfl⟩ := ih (fun hx => ha (mem_cons_of_mem x hx))
        (fun hx => hb (mem_cons_of_mem x hx)) hrest
      exact ⟨rfl, rfl⟩

lemma zero_notMem_encode_toDigits (n : Nat) : 0 ∉ utf8.encode (Nat.toDigits 10 n) := by
  intro h
  have hnul : '\x00' ∈ Nat.toDigits 10 n :=
    utf8.mem_of_unit_mem_encode (a := '\x00') (by decide) h
  have hdigit := isDigit_of_mem_toDigits (by decide) (by decide) hnul
  exact absurd hdigit (by decide)

lemma length_eq_of_encode_toDigits_eq {m n : Nat}
    (h : utf8.encode (Nat.toDigits 10 m) = utf8.encode (Nat.toDigits 10 n)) : m = n := by
  rw [← ofDigitChars_ten_toDigits (n := m), utf8.encode_injective h,
    ofDigitChars_ten_toDigits]

/-- A record ends where its length says, whatever bytes follow it. -/
lemma frame_append_injective {p q d e u v : List UInt8} (hp : 0 ∉ p) (hq : 0 ∉ q)
    (h : frame p d ++ u = frame q e ++ v) : p = q ∧ d = e ∧ u = v := by
  have hsplit : ∀ p d u : List UInt8, frame p d ++ u =
      p ++ 0 :: (utf8.encode (Nat.toDigits 10 d.length) ++ 0 :: (d ++ u)) := by
    intro p d u
    simp [frame]
  rw [hsplit, hsplit] at h
  -- the two NULs end the path and the length, and the length tells where the data ends
  obtain ⟨hpath, hrest⟩ := eq_of_append_zero_eq hp hq h
  obtain ⟨hdigits, hdata⟩ := eq_of_append_zero_eq (zero_notMem_encode_toDigits _)
    (zero_notMem_encode_toDigits _) hrest
  obtain ⟨hd, hu⟩ := append_inj hdata (length_eq_of_encode_toDigits_eq hdigits)
  exact ⟨hpath, hd, hu⟩

/-- Equal streams have the same paths and the same contents at them. -/
theorem records_injective {dir dir' : PayloadDir} {paths paths' : List (List UInt8)}
    (hpaths : ∀ p ∈ paths, 0 ∉ p) (hpaths' : ∀ p ∈ paths', 0 ∉ p) (h : records dir paths = records dir' paths') :
    paths = paths' ∧ ∀ p ∈ paths, (dir.file? p).getD [] = (dir'.file? p).getD [] := by
  induction paths generalizing paths' with
  | nil =>
    cases paths' with
    | nil => exact ⟨rfl, forall_mem_nil _⟩
    | cons q paths' => simp [records, frame] at h
  | cons p paths ih =>
    cases paths' with
    | nil => simp [records, frame] at h
    | cons q paths' =>
      obtain ⟨rfl, hdata, hrest⟩ := frame_append_injective (hpaths p (.head _))
        (hpaths' q (.head _)) h
      obtain ⟨rfl, hall⟩ := ih (fun r hr => hpaths r (mem_cons_of_mem p hr))
        (fun r hr => hpaths' r (mem_cons_of_mem p hr)) hrest
      exact ⟨rfl, forall_mem_cons.2 ⟨hdata, hall⟩⟩

/-! ### The walk -/

namespace Host

variable {α : Type} {host : Host α} {good : List UInt8 → Prop}

/-- A host that gives back the good names it reads, writes texts and slashes as UTF-8, and lists
every entry of a directory once. -/
structure Faithful (host : Host α) (good : List UInt8 → Prop) : Prop where
  encode_append : ∀ a b, host.encode (a ++ b) = host.encode a ++ host.encode b
  encode_slash : host.encode [host.slash] = [47]
  encode_text : ∀ text, host.encode (host.text text) = utf8.encode text
  encode_injective : Function.Injective host.encode
  encode_decode : ∀ name, good name → host.encode (host.decode name) = name
  listing_perm : ∀ es, (host.listing es).Perm es

/-- The path of names as the host writes it. -/
def path (host : Host α) (names : List (List UInt8)) : List α :=
  [host.slash].intercalate (names.map host.decode)

/-- `ns` leads to a regular file below the entry `node` at `names`. -/
def FileBelow (names : List (List UInt8)) (node : Node) (ns : List (List UInt8)) : Prop :=
  ∃ more data, ns = names ++ more ∧ node.find? more = some (.file data)

section

variable {names ns : List (List UInt8)} {a b data : List UInt8} {n m : Node}
  {es : List (List UInt8 × Node)}

lemma fileBelow_file_iff : FileBelow names (.file data) ns ↔ ns = names := by
  constructor
  · rintro ⟨more, data', rfl, hfind⟩
    cases more with
    | nil => exact append_nil names
    | cons => cases hfind
  · rintro rfl
    exact ⟨[], data, (append_nil ns).symm, Node.find?_nil⟩

lemma fileBelow_directory_iff (hnodup : (es.map Prod.fst).Nodup) :
    FileBelow names (.directory es) ns ↔ ∃ e ∈ es, FileBelow (names ++ [e.1]) e.2 ns := by
  constructor
  · rintro ⟨more, data, rfl, hfind⟩
    cases more with
    | nil =>
      cases hfind
    | cons name more =>
      obtain ⟨entry, hentry, hrest⟩ := Option.bind_eq_some_iff.1 hfind
      exact ⟨(name, entry), mem_of_lookup hentry, more, data, by simp, hrest⟩
  · rintro ⟨e, he, more, data, rfl, hfind⟩
    refine ⟨e.1 :: more, data, by simp, ?_⟩
    rw [Node.find?_directory_cons, lookup_of_mem hnodup he]
    exact hfind

lemma FileBelow.name_eq (ha : FileBelow (names ++ [a]) n ns) (hb : FileBelow (names ++ [b]) m ns) : a = b := by
  obtain ⟨more, data, rfl, -⟩ := ha
  obtain ⟨more', data', heq, -⟩ := hb
  rw [append_assoc, append_assoc] at heq
  exact (List.cons.inj (append_cancel_left heq)).1

end

/-- A part of the walk has gone through and added each list of names in `files` once. -/
def Found (host : Host α) (out : List (List α)) (result : Except (Failure α) (List (List α)))
    (files : List (List UInt8) → Prop) : Prop :=
  ∃ found : List (List (List UInt8)), result = .ok (out ++ found.map host.path) ∧ found.Nodup ∧
    ∀ ns, ns ∈ found ↔ files ns

namespace Found

variable {out : List (List α)} {result : Except (Failure α) (List (List α))}
  {next : List (List α) → Except (Failure α) (List (List α))}
  {files files' : List (List UInt8) → Prop}

lemma congr (h : Found host out result files) (heq : ∀ ns, files ns ↔ files' ns) : Found host out result files' := by
  obtain ⟨found, hresult, hnodup, hmem⟩ := h
  exact ⟨found, hresult, hnodup, fun ns => (hmem ns).trans (heq ns)⟩

lemma bind (h : Found host out result files) (hnext : ∀ out', Found host out' (next out') files')
    (hdisjoint : ∀ ns, files ns → ¬ files' ns) : Found host out (result >>= next) (fun ns => files ns ∨ files' ns) := by
  obtain ⟨found, rfl, hnodup, hmem⟩ := h
  obtain ⟨found', hresult', hnodup', hmem'⟩ := hnext (out ++ found.map host.path)
  refine ⟨found ++ found', ?_, ?_, fun ns => ?_⟩
  · show next (out ++ found.map host.path) = _
    rw [hresult', map_append, append_assoc]
  · refine nodup_append.2 ⟨hnodup, hnodup', fun a ha b hb hab => ?_⟩
    exact hdisjoint a ((hmem a).1 ha) ((hmem' a).1 (hab ▸ hb))
  · rw [mem_append, hmem, hmem']

end Found

namespace Faithful

variable (hf : host.Faithful good)

include hf

lemma encode_nil : host.encode [] = [] := by
  have h := hf.encode_append [] []
  exact self_eq_append_left.1 h

variable {names : List (List UInt8)}

lemma encode_path (hgood : ∀ name ∈ names, good name) : host.encode (host.path names) = slashPath names := by
  induction names with
  | nil => exact hf.encode_nil
  | cons name names ih =>
    have hname := hf.encode_decode name (hgood name (.head _))
    have hnames := ih (fun n hn => hgood n (mem_cons_of_mem name hn))
    cases names with
    | nil => simpa [path, slashPath] using hname
    | cons next names =>
      have hpath : host.path (name :: next :: names) =
          host.decode name ++ ([host.slash] ++ host.path (next :: names)) := by
        simp [path, intercalate_cons_cons]
      rw [hpath, hf.encode_append, hf.encode_append, hf.encode_slash, hname, hnames,
        slashPath_cons_cons]
      rfl

lemma join_path {name : List UInt8} (hgood : ∀ n ∈ names, good n) (hname : ∀ n ∈ names, IsName n) :
    host.join (host.path names) (host.decode name) = host.path (names ++ [name]) := by
  cases names with
  | nil => simp [join, path, List.intercalate]
  | cons first names =>
    have hne : host.path (first :: names) ≠ [] := by
      intro hnil
      have henc := hf.encode_path hgood
      rw [hnil, hf.encode_nil] at henc
      have hseg := segments_slashPath hname
      rw [← henc] at hseg
      cases hseg
    rw [join, if_neg (by simpa using hne)]
    have hdecoded : List.map host.decode (first :: names) ≠ [] := cons_ne_nil _ _
    rw [path, path, map_append, map_singleton, intercalate_concat hdecoded, append_assoc]
    rfl

lemma segments_encode_path (hgood : ∀ n ∈ names, good n)
    (hname : ∀ n ∈ names, IsName n) : segments (host.encode (host.path names)) = names := by
  rw [hf.encode_path hgood, segments_slashPath hname]

/-- The loop that feeds the hash appends one record for each path. -/
lemma feed_eq (dir : PayloadDir) (rels : List (List α)) (fed : List UInt8)
    (hfile : ∀ rel ∈ rels, ∃ data, dir.file? (host.encode rel) = some data) :
    (rels.foldlM (fun fed rel => do
      let data ← host.readFile dir.root rel
      pure (fed ++ host.record rel data)) fed : Except (Failure α) (List UInt8)) =
      .ok (fed ++ records dir (rels.map host.encode)) := by
  induction rels generalizing fed with
  | nil => simp [records, pure, Except.pure]
  | cons rel rels ih =>
    obtain ⟨data, hdata⟩ := hfile rel (.head _)
    have hread : host.readFile dir.root rel = .ok data := by
      rw [readFile, PayloadDir.file?_eq_some_iff.1 hdata]
    have hrest := ih (fed ++ host.record rel data) (fun r hr => hfile r (mem_cons_of_mem rel hr))
    rw [foldlM_cons, hread]
    refine hrest.trans ?_
    rw [map_cons, records, records, flatMap_cons, hdata, Option.getD_some, record, frame,
      hf.encode_text]
    simp only [append_assoc]

variable {dir : PayloadDir} (hnames : dir.Names good) (hregular : dir.Regular)

include hnames hregular

/-- One entry of a directory contributes the files below it. -/
lemma visit_found {es : List (List UInt8 × Node)}
    {e : List UInt8 × Node} {walk : List α → List (List α) → Except (Failure α) (List (List α))}
    (hfind : dir.root.find? names = some (.directory es)) (he : e ∈ es)
    (hwalk : ∀ sub out, dir.root.find? (names ++ [e.1]) = some (.directory sub) → e.2 = .directory sub →
      Found host out (walk (host.path (names ++ [e.1])) out) (FileBelow (names ++ [e.1]) (.directory sub)))
    (out : List (List α)) :
    Found host out (host.visit walk (host.path names) out e) (FileBelow (names ++ [e.1]) e.2) := by
  have hchild : dir.root.find? (names ++ [e.1]) = some e.2 := by
    rw [Node.find?_append hfind, Node.find?_directory_cons,
      lookup_of_mem (dir.wellFormed names es hfind).1 he]
    exact Node.find?_nil
  rw [visit, hf.join_path (PayloadDir.good_of_find? hnames hfind) (PayloadDir.isName_of_find? hfind)]
  cases hnode : e.2 with
  | directory sub =>
    rw [hnode] at hchild
    exact hwalk sub out hchild hnode
  | file data =>
    refine ⟨[names ++ [e.1]], rfl, nodup_singleton _, fun ns => ?_⟩
    rw [mem_singleton, fileBelow_file_iff]
  | other =>
    rw [hnode] at hchild
    exact absurd hchild (hregular _)

lemma walkFiles_found {es : List (List UInt8 × Node)} {depth : Nat}
    (hfind : dir.root.find? names = some (.directory es))
    (hdepth : (Node.directory es).depth ≤ depth) (out : List (List α)) :
    Found host out (host.walkFiles dir.root depth (host.path names) out) (FileBelow names (.directory es)) := by
  induction depth generalizing names es out with
  | zero => exact absurd hdepth (not_succ_le_zero _)
  | succ depth ih =>
    have hnodup := (dir.wellFormed names es hfind).1
    -- the loop over any part of the entries finds the files below them
    have hloop : ∀ (l : List (List UInt8 × Node)) (out : List (List α)), (∀ e ∈ l, e ∈ es) →
        (l.map Prod.fst).Nodup →
        Found host out (l.foldlM (host.visit (host.walkFiles dir.root depth) (host.path names)) out)
          (fun ns => ∃ e ∈ l, FileBelow (names ++ [e.1]) e.2 ns) := by
      intro l
      induction l with
      | nil => exact fun out _ _ => ⟨[], by simp [pure, Except.pure], nodup_nil, by simp⟩
      | cons e l ihl =>
        intro out hsub hdistinct
        obtain ⟨hnotin, hdistinct⟩ := nodup_cons.1 hdistinct
        have he : e ∈ es := hsub e (.head _)
        have hvisit := hf.visit_found hnames hregular hfind he
          (fun sub out hsub' hnode => ih hsub' (by
            have hle := depth_le_entriesDepth he
            rw [hnode] at hle
            rw [Node.depth] at hdepth
            omega) out) out
        refine (hvisit.bind (fun out' => ihl out' (fun d hd => hsub d (mem_cons_of_mem e hd))
          hdistinct) ?_).congr ?_
        · rintro ns hfirst ⟨d, hd, hlater⟩
          have heq := hfirst.name_eq hlater
          exact hnotin (heq ▸ mem_map_of_mem hd)
        · intro ns
          simp only [mem_cons, exists_eq_or_imp]
    have hrun := hloop (host.listing es) out (fun e he => (hf.listing_perm es).mem_iff.1 he)
      (((hf.listing_perm es).map Prod.fst).nodup_iff.2 hnodup)
    rw [walkFiles, readDir, hf.segments_encode_path (PayloadDir.good_of_find? hnames hfind)
      (PayloadDir.isName_of_find? hfind), hfind]
    refine Found.congr hrun (fun ns => ?_)
    rw [fileBelow_directory_iff hnodup]
    simp only [(hf.listing_perm es).mem_iff]

/-- The walk of the payload: each path in bytes of a regular file, once. -/
lemma walkFiles_root : ∃ files : List (List α),
    host.walkFiles dir.root dir.root.depth [] [] = .ok files ∧ (files.map host.encode).Nodup ∧
    ∀ p, p ∈ files.map host.encode ↔ ∃ data, dir.file? p = some data := by
  have hroot : dir.root.find? [] = some (.directory dir.entries) := Node.find?_nil
  obtain ⟨found, hwalk, hnodup, hmem⟩ :=
    hf.walkFiles_found hnames hregular hroot (le_refl _) []
  -- a list of names that was found and the path in bytes it stands for
  have hfile : ∀ ns ∈ found, (∃ data, dir.root.find? ns = some (.file data)) ∧
      host.encode (host.path ns) = slashPath ns ∧ segments (slashPath ns) = ns := by
    intro ns hns
    obtain ⟨more, data, rfl, hfind⟩ := (hmem ns).1 hns
    exact ⟨⟨data, hfind⟩, hf.encode_path (PayloadDir.good_of_find? hnames hfind),
      segments_slashPath (PayloadDir.isName_of_find? hfind)⟩
  refine ⟨found.map host.path, hwalk, ?_, fun p => ?_⟩
  · rw [map_map]
    refine hnodup.map_on (fun a ha b hb hab => ?_)
    obtain ⟨-, hencode, hsegments⟩ := hfile a ha
    obtain ⟨-, hencode', hsegments'⟩ := hfile b hb
    rw [Function.comp_apply, Function.comp_apply, hencode, hencode'] at hab
    rw [← hsegments, hab, hsegments']
  · simp only [mem_map, exists_exists_and_eq_and, PayloadDir.file?_eq_some_iff]
    constructor
    · rintro ⟨ns, hns, rfl⟩
      obtain ⟨hdata, hencode, hsegments⟩ := hfile ns hns
      rwa [hencode, hsegments]
    · rintro ⟨data, hdata⟩
      refine ⟨segments p, (hmem _).2 ⟨segments p, data, rfl, hdata⟩, ?_⟩
      rw [hf.encode_path (PayloadDir.good_of_find? hnames hdata), slashPath_segments]

/-- The stream is one record for each regular file but the stamp, in the order of the paths. -/
theorem stream_eq [DecidableEq α] : ∃ paths : List (List UInt8),
    host.stream dir.root = .ok (records dir paths) ∧ paths.Pairwise (· ≤ ·) ∧ paths.Nodup ∧
    ∀ p, p ∈ paths ↔ (∃ data, dir.file? p = some data) ∧ p ≠ utf8.encode stampFilename := by
  obtain ⟨files, hwalk, hnodup, hmem⟩ := hf.walkFiles_root hnames hregular
  let below : List α → List α → Prop := fun a b => host.encode a ≤ host.encode b
  let kept := files.filter (fun rel => rel ≠ host.text stampFilename)
  have hperm : (kept.insertionSort below).Perm kept := perm_insertionSort below kept
  have hpaths : ∀ p, p ∈ (kept.insertionSort below).map host.encode ↔
      (∃ data, dir.file? p = some data) ∧ p ≠ utf8.encode stampFilename := by
    intro p
    rw [(hperm.map host.encode).mem_iff, ← hmem, ← hf.encode_text]
    constructor
    · intro hp
      obtain ⟨rel, hrel, rfl⟩ := mem_map.1 hp
      obtain ⟨hfile, hstamp⟩ := mem_filter.1 hrel
      exact ⟨mem_map_of_mem hfile, fun heq =>
        of_decide_eq_true hstamp (hf.encode_injective heq)⟩
    · rintro ⟨hp, hstamp⟩
      obtain ⟨rel, hrel, rfl⟩ := mem_map.1 hp
      refine mem_map_of_mem (mem_filter.2 ⟨hrel, decide_eq_true ?_⟩)
      exact fun heq => hstamp (congrArg host.encode heq)
  refine ⟨(kept.insertionSort below).map host.encode, ?_, ?_, ?_, hpaths⟩
  · have hfeed := hf.feed_eq dir (kept.insertionSort below) []
      (fun rel hrel => ((hpaths _).1 (mem_map_of_mem hrel)).1)
    rw [stream, hwalk]
    exact hfeed
  · exact pairwise_map.2 (pairwise_insertionSort below kept)
  · rw [(hperm.map host.encode).nodup_iff]
    exact hnodup.sublist (filter_sublist.map host.encode)

end Faithful

end Host

/-! ### The two programs -/

/-- A name that is the UTF-8 of a text. -/
def IsUtf8 (name : List UInt8) : Prop :=
  ∃ text, utf8.encode text = name

lemma go_faithful : go.Faithful (fun _ => True) where
  encode_append _ _ := rfl
  encode_slash := rfl
  encode_text _ := rfl
  encode_injective := Function.injective_id
  encode_decode _ _ := rfl
  listing_perm := perm_insertionSort _

lemma node_faithful {listing : List (List UInt8 × Node) → List (List UInt8 × Node)}
    (hperm : ∀ es, (listing es).Perm es) : (node listing).Faithful IsUtf8 where
  encode_append := utf8.encode_append
  encode_slash := by
    show utf8.encode ['/'] = [47]
    decide
  encode_text _ := rfl
  encode_injective := utf8.encode_injective
  encode_decode name hname := by
    obtain ⟨text, rfl⟩ := hname
    exact congrArg utf8.encode (decodeUtf8_encode text)
  listing_perm := hperm

/-- Two faithful hosts feed the same stream for a payload whose names are good to both. -/
lemma stream_shared {α β : Type} [DecidableEq α] [DecidableEq β] {host : Host α} {host' : Host β}
    {good good' : List UInt8 → Prop} (hf : host.Faithful good) (hf' : host'.Faithful good')
    {dir : PayloadDir} (hregular : dir.Regular) (hnames : dir.Names good) (hnames' : dir.Names good') :
    ∃ s, host.stream dir.root = .ok s ∧ host'.stream dir.root = .ok s := by
  obtain ⟨paths, hstream, hsorted, hnodup, hmem⟩ := hf.stream_eq hnames hregular
  obtain ⟨paths', hstream', hsorted', hnodup', hmem'⟩ := hf'.stream_eq hnames' hregular
  have hperm : paths.Perm paths' :=
    (perm_ext_iff_of_nodup hnodup hnodup').2 (fun p => (hmem p).trans (hmem' p).symm)
  have heq : paths = paths' := hperm.eq_of_pairwise' hsorted hsorted'
  exact ⟨records dir paths, hstream, heq ▸ hstream'⟩

/-- The stream of a faithful host determines the files of a payload. -/
lemma file?_eq_of_stream_eq {α : Type} [DecidableEq α] {host : Host α} {good : List UInt8 → Prop}
    (hf : host.Faithful good) {dir dir' : PayloadDir} (hregular : dir.Regular)
    (hregular' : dir'.Regular) (hnames : dir.Names good) (hnames' : dir'.Names good)
    (h : host.stream dir.root = host.stream dir'.root) {path : List UInt8}
    (hpath : path ≠ utf8.encode stampFilename) : dir.file? path = dir'.file? path := by
  obtain ⟨paths, hstream, -, -, hmem⟩ := hf.stream_eq hnames hregular
  obtain ⟨paths', hstream', -, -, hmem'⟩ := hf.stream_eq hnames' hregular'
  rw [hstream, hstream', Except.ok.injEq] at h
  have hzero : ∀ p ∈ paths, 0 ∉ p := fun p hp =>
    PayloadDir.zero_notMem_of_file? ((hmem p).1 hp).1.choose_spec
  have hzero' : ∀ p ∈ paths', 0 ∉ p := fun p hp =>
    PayloadDir.zero_notMem_of_file? ((hmem' p).1 hp).1.choose_spec
  obtain ⟨rfl, hdata⟩ := records_injective hzero hzero' h
  by_cases hp : path ∈ paths
  · obtain ⟨⟨data, hfile⟩, -⟩ := (hmem path).1 hp
    obtain ⟨⟨data', hfile'⟩, -⟩ := (hmem' path).1 hp
    have hdata := hdata path hp
    rw [hfile, hfile'] at hdata ⊢
    exact congrArg some hdata
  · have hnone : ∀ d : PayloadDir, (path ∈ paths ↔ (∃ data, d.file? path = some data) ∧
        path ≠ utf8.encode stampFilename) → d.file? path = none := by
      intro d hd
      rw [Option.eq_none_iff_forall_ne_some]
      exact fun data hfile => hp (hd.2 ⟨⟨data, hfile⟩, hpath⟩)
    rw [hnone dir (hmem path), hnone dir' (hmem' path)]

/-- The bytes that Go hashes determine the payload tree without its stamp, and where the names are
UTF-8 the packager hashes the same bytes. -/
theorem stream_determines_payload_and_is_shared :
    (∀ dir dir' : PayloadDir, dir.Regular → dir'.Regular →
      go.stream dir.root = go.stream dir'.root →
      ∀ path, path ≠ utf8.encode stampFilename → dir.file? path = dir'.file? path) ∧
    (∀ listing : List (List UInt8 × Node) → List (List UInt8 × Node),
      (∀ es, (listing es).Perm es) → ∀ dir : PayloadDir, dir.Regular → dir.Names IsUtf8 →
      ∃ s, go.stream dir.root = .ok s ∧ (node listing).stream dir.root = .ok s) := by
  have hany : ∀ dir : PayloadDir, dir.Names (fun _ => True) := fun _ _ _ _ _ _ => trivial
  constructor
  · intro dir dir' hregular hregular' h path hpath
    exact file?_eq_of_stream_eq go_faithful hregular hregular' (hany dir) (hany dir') h hpath
  · intro listing hperm dir hregular hnames
    exact stream_shared go_faithful (node_faithful hperm) hregular (hany dir) hnames

lemma find?_flat {files : List (List UInt8 × List UInt8)} {names : List (List UInt8)} {n : Node}
    (h : (Node.directory (files.map (Prod.map id Node.file))).find? names = some n) :
    n = .directory (files.map (Prod.map id Node.file)) ∨ ∃ data, n = .file data := by
  cases names with
  | nil => exact .inl (Option.some.inj (Node.find?_nil.symm.trans h)).symm
  | cons name names =>
    right
    obtain ⟨entry, hentry, hrest⟩ := Option.bind_eq_some_iff.1 h
    obtain ⟨f, -, hf⟩ := mem_map.1 (mem_of_lookup hentry)
    cases hf
    cases names with
    | nil => exact ⟨f.2, (Option.some.inj hrest).symm⟩
    | cons => cases hrest

/-- A payload of regular files in its root. -/
def flatPayload (files : List (List UInt8 × List UInt8)) (hnodup : (files.map Prod.fst).Nodup)
    (hname : ∀ f ∈ files, IsName f.1) : PayloadDir where
  entries := files.map (Prod.map id Node.file)
  wellFormed names es h := by
    obtain heq | ⟨data, heq⟩ := find?_flat h
    · rw [Node.directory.injEq] at heq
      subst heq
      rw [List.map_map, List.forall_mem_map]
      exact ⟨hnodup, hname⟩
    · cases heq

section

variable {files : List (List UInt8 × List UInt8)} {hnodup : (files.map Prod.fst).Nodup}
  {hname : ∀ f ∈ files, IsName f.1}

lemma flatPayload_regular : (flatPayload files hnodup hname).Regular := by
  intro names h
  obtain heq | ⟨data, heq⟩ := find?_flat h <;> cases heq

lemma flatPayload_names {good : List UInt8 → Prop} (hgood : ∀ f ∈ files, good f.1) :
    (flatPayload files hnodup hname).Names good := by
  intro names es h
  obtain heq | ⟨data, heq⟩ := find?_flat h
  · rw [Node.directory.injEq] at heq
    subst heq
    exact forall_mem_map.2 hgood
  · cases heq

end

/-- A payload of one empty file `ÿ` under its Latin-1 name, which is not UTF-8. -/
def latin1Payload : PayloadDir :=
  flatPayload [([0xFF], [])] (by decide) (by simp [IsName])

/-- Node reads the name as U+FFFD and then finds no file under it. -/
theorem latin1Payload_streams :
    latin1Payload.Regular ∧ go.stream latin1Payload.root = .ok [0xFF, 0, 48, 0] ∧
    (node id).stream latin1Payload.root = .error (.notFound ['\uFFFD']) :=
  ⟨flatPayload_regular, by decide +kernel⟩

/-- Two files, of which one is the stamp. -/
def stampedPayload : PayloadDir :=
  flatPayload [([97], [1, 0]), (utf8.encode stampFilename, [2])] (by decide +kernel)
    (by simp [IsName]; decide +kernel)

theorem stampedPayload_streams :
    (∃ s, go.stream stampedPayload.root = .ok s ∧ (node List.reverse).stream stampedPayload.root = .ok s) ∧
    go.stream stampedPayload.root = .ok [97, 0, 50, 0, 1, 0] := by
  refine ⟨stream_determines_payload_and_is_shared.2 List.reverse reverse_perm stampedPayload
    flatPayload_regular (flatPayload_names ?_), by decide +kernel⟩
  rintro f hf
  simp at hf
  obtain rfl | rfl := hf
  · exact ⟨['a'], by decide⟩
  · exact ⟨_, rfl⟩

end PayloadDigest
