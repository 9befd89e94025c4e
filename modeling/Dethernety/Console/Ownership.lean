import Dethernety.Console.PlacedArtifacts

/-!
# The directories that the console touches

Where one request runs after the other, whatever file-system steps fail: a directory of the modules is written, renamed
or removed only when it has a marker that says it is the console's own, or was made by the same request, and no
directory comes to have markers of two kinds (`owned_of_reachable`). That rests on what the checks look at: a disconnect
takes a marker that its reader rejects for one of its own, and a look that fails sees nothing (`foreignMarker_removed`).
-/

open List Record Option Script

namespace Console.Daemon

open Threads Contract ModuleInstall

/-- A directory with the marker of a content mount, or with an artifact or knowledge-graph marker that its reader
accepts. -/
def owned (env : Platform) (tree : Tree) : Bool :=
  mountMarkerName ∈ tree.keys || (parseArtifactMarker env (tree.get? artifactMarkerName).join).isSome ||
    (parseKgMarker env (tree.get? kgMarkerName).join).isSome

/-- The directory of the modules that a call may overwrite, rename or remove. -/
def touches (c : Call) (d : Disk) (name : String) : Bool :=
  match c with
  | .writeFile p _ _ => d.follow p = some (.moduleDir name)
  | .rename p q => p = .moduleDir name || q = .moduleDir name
  | .removeAll p | .remove p => p = .moduleDir name
  | _ => false

def isMade (name : String) : Script.Event Answer → Bool
  | ⟨.mkdir p, .created⟩ => p = .moduleDir name
  | _ => false

/-- A directory that a step touches is the console's own, or the same request has made it. -/
def TouchesOwn (env : Platform) (st : LogStep) : Prop :=
  ∀ name tree, st.before.modules.get? (.moduleDir name) = some (.dir tree) →
    touches st.call st.before.modules name = true → owned env tree = true ∨ st.past.any (isMade name) = true

/-- No directory has markers of two kinds. -/
def Single (d : Disk) : Prop :=
  ∀ name, ∀ marker ∈ markerNames, ∀ marker' ∈ markerNames, carries d name marker = true →
    carries d name marker' = true → marker = marker'

/-- The disk that the first step of a log has found. -/
def initialDisk (log : List LogStep) (w : World) : Disk :=
  (log.head?.map (·.before.modules)).getD w.modules

/-! ## What the checks do not see -/

def markerCount (tree : Tree) : ℕ :=
  (markerNames.filter (· ∈ tree.keys)).length

def isUnseen (p : Path) : Script.Event Answer → Bool
  | ⟨.stat q, none⟩ => q = p
  | _ => false

/-- Every directory with one marker is the console's own. -/
def allOwned (env : Platform) (d : Disk) : Bool :=
  d.keys.all fun p => match p, d.get? p with
    | .moduleDir _, some (.dir tree) => owned env tree || markerCount tree ≠ 1
    | _, _ => true

/-- The looks see what is there: a disconnect that lists finds no foreign directory with one marker and misses no marker
of a foreign one, a mount that finds its directory there without having seen it finds its own marker in it, and an
install misses no marker in what it has staged. -/
def seesMarkers (env : Platform) (st : LogStep) : Bool :=
  let d := st.before.modules
  match st.request, st.event with
  | .cloudDisable _ _, ⟨.readDir, _⟩ => allOwned env d
  | .cloudDisable _ _, ⟨.hasMarkerNamed p marker, found⟩ =>
    found || (d.tree? p).all fun tree => owned env tree || marker ∉ tree.keys
  | .mountModule _ _ _ _ _, ⟨.mkdir p, made⟩ =>
    made ≠ .exists || !st.past.any (isUnseen p) || (d.tree? p).all fun tree => mountMarkerName ∈ tree.keys
  | .cloudApply _ _ _ _, ⟨.mkdir p, made⟩ =>
    made ≠ .exists || !st.past.any (isUnseen p) ||
      (d.tree? p).all fun tree => (parseKgMarker env (tree.get? kgMarkerName).join).isSome
  | .installArtifact _ _ key _ _, ⟨.hasMarkerNamed p marker, found⟩ =>
    p ≠ .staging key || found || (d.tree? p).all fun tree => marker ∉ tree.keys
  | _, _ => true

def Request.actsOnModules (req : Request) : Bool :=
  req.isOnModules || req.changesPosture

/-- A step touches what is the console's own, and leaves no directory with two markers when there was none. -/
structure Minds (env : Platform) (st : LogStep) : Prop where
  own : TouchesOwn env st
  single : Single st.before.modules → Single st.after.modules

def ownershipContract (env : Platform) : Contract Answer Request World where
  interleaved := false
  serves := Request.actsOnModules
  inv log w := Unmarked (initialDisk log w) → Single w.modules
  ok _ := seesMarkers env
  good _ := TouchesOwn env

variable {env : Platform} {i : ℕ} {req : Request} {o : Outside} {w w' : World} {c : Call} {a : Answer c}
  {past : List (Script.Event Answer)} {log : List LogStep} {st : LogStep}

lemma initialDisk_concat : initialDisk (log ++ [st]) w = initialDisk log st.before := by
  cases log with
  | nil | cons st' log => rfl

lemma kept_of_minds (hinv : (ownershipContract env).inv log st.before) (hst : Minds env st) :
    (ownershipContract env).Kept log st := by
  refine ⟨fun h => hst.single (hinv ?_), hst.own⟩
  rwa [initialDisk_concat] at h

/-! ## What is known between two steps -/

/-- What is known of the past of a request and of the modules directory. -/
abbrev Knows := List (Script.Event Answer) → Disk → Prop

def On (P : Knows) : Assertion Answer Request World :=
  fun past _ w => P past w.modules

/-- What is known when a script returns. -/
abbrev Gives {α : Type} (G : α → Knows) (r : Except Denied α) : Assertion Answer Request World :=
  Returns (fun a => On (G a)) r

/-- What a script needs to be known, and what it gives. -/
abbrev Owns {α : Type} (env : Platform) (i : ℕ) (req : Request) (P : Knows) (script : Handler α) (G : α → Knows) :
    Prop :=
  (ownershipContract env).Triple (machine env).exec i req (On P) script (Gives G)

variable {P : Knows}

lemma gives_ask {G : Answer c → Knows} (hstep : ∀ past w o a w', P past w.modules →
      act env i o { w with clock := w.clock + o.elapsed } c = some (a, w') →
      seesMarkers env ⟨i, req, past, c, a, w, w'⟩ = true →
        Minds env ⟨i, req, past, c, a, w, w'⟩ ∧ G a (past ++ [⟨c, a⟩]) w'.modules) : Owns env i req P (ask c) G := by
  refine .ask (stable_of_alone rfl) fun past log w o a w' hinv hs hexec hok => ?_
  obtain ⟨hminds, hgives⟩ := hstep past w o a w' hs (act_of_exec hexec) hok
  refine ⟨kept_of_minds hinv hminds, fun a' ha' => ?_⟩
  cases ha'
  exact hgives

lemma minds_of_modules_eq {w w' : World} (hc : c.changesModules = false) (h : w'.modules = w.modules) :
    Minds env ⟨i, req, past, c, a, w, w'⟩ := by
  refine ⟨fun name tree _ htouches => ?_, fun hsingle => ?_⟩
  · cases c with
    | writeFile _ _ _ | rename _ _ | removeAll _ | remove => cases hc
    | _ => cases htouches
  · rwa [h]

/-- A question: the answer tells something of what is there. -/
lemma gives_read {R : Answer c → Disk → Prop} (hc : c.changesModules = false)
    (hP : ∀ past e d, P past d → P (past ++ [e]) d) (htold : ∀ (o : Outside) (w : World) (a : Answer c) (w' : World),
      act env i o { w with clock := w.clock + o.elapsed } c = some (a, w') → R a w.modules) :
    Owns env i req P (ask c) (fun a past d => P past d ∧ R a d) := by
  refine gives_ask fun past w o a w' hs hact _ => ?_
  have hmodules : w'.modules = w.modules := (act_frame hact).modules hc
  rw [hmodules]
  exact ⟨minds_of_modules_eq hc hmodules, hP _ _ _ hs, htold o w a w' hact⟩

/-- Nothing is known. -/
abbrev Unknown : Knows :=
  fun _ _ => True

/-- A script that minds what it touches from any point on. -/
abbrev Behaves {α : Type} (env : Platform) (i : ℕ) (req : Request) (script : Handler α) : Prop :=
  Owns env i req Unknown script fun _ => Unknown

variable {α β : Type} {script : Handler α} {G : α → Knows} {K : Assertion Answer Request World}

lemma owns_pure {a : α} :
    (ownershipContract env).Triple (machine env).exec i req K (pure a) (Gives fun _ => Unknown) :=
  Returns.pure fun _ _ _ _ _ => trivial

lemma behaves_weaken (h : Owns env i req Unknown script G) : Owns env i req P script G :=
  Returns.weaken h fun _ _ _ _ _ => trivial

lemma behaves_bind {G : β → Knows} {first : Handler α} {f : α → Handler β}
    (h : Owns env i req P first fun _ => Unknown) (hf : ∀ x, Owns env i req Unknown (f x) G) :
    Owns env i req P (first >>= f) G :=
  Returns.bind h hf

/-! ## Directories and their markers -/

variable {d : Disk} {p : Path} {P : Disk → Prop} {tree : Tree} {name : String} {d d' : Disk}

lemma carries_congr (h : d'.get? (.moduleDir name) = d.get? (.moduleDir name))
    (marker : String) : carries d' name marker = carries d name marker := by
  unfold carries
  rw [h]

lemma Single.of_carries (hsingle : Single d)
    (h : ∀ name, ∀ marker ∈ markerNames, carries d' name marker = true → carries d name marker = true) : Single d' :=
  fun name marker hm marker' hm' hc hc' =>
    hsingle name marker hm marker' hm' (h name marker hm hc) (h name marker' hm' hc')

lemma Single.set {tree tree' : Tree} (hsingle : Single d) (hp : d.get? p = some (.dir tree))
    (h : ∀ marker ∈ markerNames, marker ∈ tree'.keys → marker ∈ tree.keys) : Single (d.set p (.dir tree')) := by
  refine hsingle.of_carries fun name marker hm hc => ?_
  obtain ⟨tree'', hget, hmem⟩ := mem_keys_of_carries hc
  rw [get?_set] at hget
  split_ifs at hget with hpath
  · cases hget
    unfold carries
    rw [← hpath, hp]
    exact decide_eq_true (h marker hm hmem)
  · unfold carries
    rw [hget]
    exact decide_eq_true hmem

variable {q : Path}

lemma followLinks_set (n : ℕ)
    (h : d.followLinks n p = some q) : Disk.followLinks (d.set q (.dir tree)) n p = some q := by
  induction n generalizing p with
  | zero => cases h
  | succ n ih =>
    unfold Disk.followLinks at h ⊢
    rw [get?_set]
    by_cases hpath : q = p
    · rw [if_pos hpath, hpath]
    · rw [if_neg hpath]
      split at h
      · exact ih h
      · exact h
      · cases h

lemma tree?_eq_some : d.tree? p = some tree ↔ ∃ q, d.follow p = some q ∧ d.get? q = some (.dir tree) := by
  unfold Disk.tree?
  cases hfollow : d.follow p with
  | none => simp
  | some q =>
    rw [bind_some]
    constructor
    · intro h
      split at h <;> cases h
      rename_i tree' hget
      exact ⟨q, rfl, hget⟩
    · rintro ⟨q', hq', hget⟩
      cases hq'
      rw [hget]

variable {content : Bytes}

lemma writeFile_eq_some (h : d.writeFile p name content = some d') :
    ∃ q tree, d.follow p = some q ∧ d.get? q = some (.dir tree) ∧
      d' = d.set q (.dir (tree.set name (some content))) ∧ d'.tree? p = some (tree.set name (some content)) := by
  unfold Disk.writeFile at h
  obtain ⟨q, hfollow, h⟩ := bind_eq_some_iff.1 h
  obtain ⟨entry, hget, h⟩ := bind_eq_some_iff.1 h
  cases entry with
  | file | link => cases h
  | dir tree =>
    simp only at h
    split_ifs at h
    · cases h
    · cases h
      refine ⟨q, tree, hfollow, hget, rfl, tree?_eq_some.2 ⟨q, followLinks_set _ hfollow, ?_⟩⟩
      rw [get?_set, if_pos rfl]

/-- A file is written, whole or torn, into the directory that is found at a path. -/
lemma modules_of_writeFile {a : Answer (.writeFile p name content)}
    (h : act env i o w (.writeFile p name content) = some (a, w')) :
    (a = true ∧ w.modules.writeFile p name content = some w'.modules) ∨
      (a = false ∧ (w'.modules = w.modules ∨ ∃ torn, w.modules.writeFile p name torn = some w'.modules)) := by
  obtain ⟨d, hd, rfl⟩ := act_files h rfl
  simp only [actFiles] at hd
  split_ifs at hd
  · cases hd
    refine .inr ⟨rfl, ?_⟩
    cases htorn : o.torn.bind (w.modules.writeFile p name) with
    | none => exact .inl rfl
    | some d =>
      obtain ⟨torn, -, hwrite⟩ := bind_eq_some_iff.1 htorn
      exact .inr ⟨torn, hwrite⟩
  · split at hd
    · cases hd
      exact .inr ⟨rfl, .inl rfl⟩
    · rename_i d' hwrite
      cases hd
      exact .inl ⟨rfl, hwrite⟩

/-- What holds however a file is written, or not. -/
lemma of_writeFile {a : Answer (.writeFile p name content)} {Q : Disk → Prop}
    (h : act env i o w (.writeFile p name content) = some (a, w')) (hsame : Q w.modules)
    (hwrite : ∀ content' d', w.modules.writeFile p name content' = some d' → Q d') : Q w'.modules := by
  rcases modules_of_writeFile h with ⟨-, hdone⟩ | ⟨-, hsame' | ⟨torn, htorn⟩⟩
  · exact hwrite _ _ hdone
  · rwa [hsame']
  · exact hwrite _ _ htorn

section

variable (hsingle : Single d)
include hsingle

lemma Single.erase (p : Path) : Single (d.erase p) := by
  refine hsingle.of_carries fun name marker _ hc => ?_
  obtain ⟨tree, hget, hmem⟩ := mem_keys_of_carries hc
  rw [get?_erase] at hget
  split_ifs at hget
  unfold carries
  rw [hget]
  exact decide_eq_true hmem

lemma Single.remove (p : Path) : Single (d.remove p) := by
  unfold Disk.remove
  split
  · split_ifs
    · exact hsingle.erase p
    · exact hsingle
  · exact hsingle.erase p

lemma Single.removeSome (p : Path) (kept : List String) : Single (d.removeSome p kept) := by
  unfold Disk.removeSome
  split
  · rename_i tree hget
    refine hsingle.set hget fun marker _ hmem => ?_
    rw [keys_filterKeys] at hmem
    exact mem_of_mem_filter hmem
  · exact hsingle

lemma Single.set_one (p : Path) (name : String) (content : Option Bytes) :
    Single (d.set p (.dir (Record.set ∅ name content))) := by
  have hmem : ∀ name' marker, carries (Record.set d p (.dir (Record.set ∅ name content))) name' marker = true →
      (p = .moduleDir name' ∧ marker = name) ∨ (p ≠ .moduleDir name' ∧ carries d name' marker = true) := by
    intro name' marker hc
    obtain ⟨tree, hget, hmem⟩ := mem_keys_of_carries hc
    rw [get?_set] at hget
    split_ifs at hget with hpath
    · cases hget
      exact .inl ⟨hpath, (mem_keys_set.1 hmem).resolve_right (by rw [keys_empty]; exact not_mem_nil)⟩
    · refine .inr ⟨hpath, ?_⟩
      unfold carries
      rw [hget]
      exact decide_eq_true hmem
  intro name' marker hm marker' hm' hc hc'
  rcases hmem name' marker hc with ⟨hpath, rfl⟩ | ⟨hpath, hc⟩
  · rcases hmem name' marker' hc' with ⟨-, rfl⟩ | ⟨hpath', -⟩
    · rfl
    · exact absurd hpath hpath'
  · rcases hmem name' marker' hc' with ⟨hpath', -⟩ | ⟨-, hc'⟩
    · exact absurd hpath' hpath
    · exact hsingle name' marker hm marker' hm' hc hc'

lemma Single.set_empty (p : Path) : Single (d.set p (.dir ∅)) := by
  refine hsingle.of_carries fun name marker _ hc => ?_
  obtain ⟨tree, hget, hmem⟩ := mem_keys_of_carries hc
  rw [get?_set] at hget
  split_ifs at hget
  · cases hget
    cases hmem
  · unfold carries
    rw [hget]
    exact decide_eq_true hmem

end

/-! ## The two mounts -/

/-- What makes a directory that of a mount: a marker, which a mount writes and its stub leaves alone. -/
structure MarksOwn (env : Platform) (marker : String) (content : Bytes) (stubName : String) (own : Tree → Prop) :
    Prop where
  mem : ∀ tree, own tree → marker ∈ tree.keys
  owned : ∀ tree, own tree → Daemon.owned env tree = true
  set : ∀ tree : Tree, own (tree.set marker (some content))
  stub : ∀ (tree : Tree) stub, own tree → own (tree.set stubName (some stub))
  stub_ne : stubName ∉ markerNames

section

variable {key marker stubName : String} {content stub : Bytes} {own : Tree → Prop}

/-- Before a mount writes: its directory is new, or its own. -/
def MayWrite (key : String) (own : Tree → Prop) (created : Bool) : Knows :=
  fun past d => if created then past.any (isMade key) = true ∧ d.get? (.moduleDir key) = some (.dir ∅)
    else ∀ tree, d.tree? (.moduleDir key) = some tree → own tree

lemma any_append {f : Script.Event Answer → Bool} (h : past.any f = true) (e : Script.Event Answer) :
    (past ++ [e]).any f = true := by
  rw [List.any_append, h]
  rfl

lemma follow_of_dir {d : Disk} {p : Path} {tree : Tree} (h : d.get? p = some (.dir tree)) : d.follow p = some p := by
  unfold Disk.follow Disk.maxLinks Disk.followLinks
  rw [h]

/-- The marker of a mount goes into a directory that is new, or its own. -/
lemma writeMarker_triple (hmarks : MarksOwn env marker content stubName own) (created : Bool) :
    Owns env i req (MayWrite key own created) (ask (.writeFile (.moduleDir key) marker content))
      (fun written past d => if written then ∀ tree, d.tree? (.moduleDir key) = some tree → own tree
        else created = true → past.any (isMade key) = true) := by
  refine gives_ask fun past w o a w' hs hact _ => ⟨⟨fun name tree hget htouches => ?_, fun hsingle => ?_⟩, ?_⟩
  · -- the directory that is written is the one that is found
    simp only [touches, decide_eq_true_eq] at htouches
    cases created with
    | false => exact .inl (hmarks.owned tree (hs tree (tree?_eq_some.2 ⟨_, htouches, hget⟩)))
    | true =>
      rw [follow_of_dir hs.2] at htouches
      cases htouches
      exact .inr hs.1
  · refine of_writeFile hact hsingle fun content' d' hwrite => ?_
    obtain ⟨q, tree, hfollow, hget, rfl, -⟩ := writeFile_eq_some hwrite
    cases created with
    | false =>
      refine hsingle.set hget fun marker' _ hmem => ?_
      rcases mem_keys_set.1 hmem with rfl | hmem
      · exact hmarks.mem tree (hs tree (tree?_eq_some.2 ⟨q, hfollow, hget⟩))
      · exact hmem
    | true =>
      rw [follow_of_dir hs.2] at hfollow
      cases hfollow
      cases hs.2.symm.trans hget
      exact hsingle.set_one _ _ _
  · rcases modules_of_writeFile hact with ⟨rfl, hdone⟩ | ⟨rfl, -⟩
    · intro tree htree
      obtain ⟨q, tree', -, -, -, hfound⟩ := writeFile_eq_some hdone
      cases hfound.symm.trans htree
      exact hmarks.set tree'
    · rintro rfl
      exact any_append hs.1 _

lemma writeStub_triple (hmarks : MarksOwn env marker content stubName own) :
    Owns env i req (fun _ d => ∀ tree, d.tree? (.moduleDir key) = some tree → own tree)
      (ask (.writeFile (.moduleDir key) stubName stub)) fun _ => Unknown := by
  refine gives_ask fun past w o a w' hs hact _ => ⟨⟨fun name tree hget htouches => ?_, fun hsingle => ?_⟩, trivial⟩
  · simp only [touches, decide_eq_true_eq] at htouches
    exact .inl (hmarks.owned tree (hs tree (tree?_eq_some.2 ⟨_, htouches, hget⟩)))
  · refine of_writeFile hact hsingle fun content' d' hwrite => ?_
    obtain ⟨q, tree, -, hget, rfl, -⟩ := writeFile_eq_some hwrite
    refine hsingle.set hget fun marker' hm hmem => (mem_keys_set.1 hmem).resolve_left ?_
    rintro rfl
    exact hmarks.stub_ne hm

lemma undoMountDir_triple (created : Bool) :
    Owns env i req (fun past _ => created = true → past.any (isMade key) = true)
      (undoMountDir (.moduleDir key) created) fun _ => Unknown := by
  cases created with
  | false => exact owns_pure
  | true =>
    refine gives_ask fun past w o a w' hs hact _ => ⟨⟨fun name tree _ htouches => ?_, fun hsingle => ?_⟩, trivial⟩
    · simp only [touches, decide_eq_true_eq] at htouches
      cases htouches
      exact .inr (hs rfl)
    · obtain ⟨d, hd, rfl⟩ := act_files hact rfl
      cases hd
      split_ifs
      · exact hsingle
      · exact hsingle.remove _

lemma writeMountFiles_triple (hmarks : MarksOwn env marker content stubName own) (created : Bool) :
    Owns env i req (MayWrite key own created)
      (writeMountFiles (.moduleDir key) created marker content stubName stub) fun _ => Unknown := by
  refine Returns.bind (writeMarker_triple hmarks created) fun written => ?_
  cases written with
  | true =>
    refine behaves_bind (writeStub_triple hmarks) fun done => ?_
    cases done with
    | true => exact owns_pure
    | false => exact Returns.throw
  | false => exact Returns.bind (undoMountDir_triple created) fun _ => Returns.throw

lemma modules_of_mkdir {p : Path} {a : Answer (.mkdir p)} (h : act env i o w (.mkdir p) = some (a, w')) :
    (a ≠ .created ∧ w'.modules = w.modules) ∨ (a = .created ∧ w'.modules = w.modules.set p (.dir ∅)) := by
  obtain ⟨d, hd, rfl⟩ := act_files h rfl
  simp only [actFiles] at hd
  split_ifs at hd
  · cases hd
    exact .inl ⟨fun ha => (by cases ha), rfl⟩
  · split at hd
    · cases hd
      exact .inl ⟨fun ha => (by cases ha), rfl⟩
    · rename_i d' hmkdir
      cases hd
      unfold Disk.mkdir at hmkdir
      split_ifs at hmkdir
      exact .inr ⟨rfl, (Option.some.inj hmkdir).symm⟩

/-- What a mount knows before it makes its directory: what is found there is its own, or was not seen. -/
def Checked (key : String) (own : Tree → Prop) : Knows :=
  fun past d => ∀ tree, d.tree? (.moduleDir key) = some tree → own tree ∨ past.any (isUnseen (.moduleDir key)) = true

/-- A directory that is there already is the mount's own. -/
lemma mkdir_triple
    (hsees : ∀ past w w', seesMarkers env ⟨i, req, past, .mkdir (.moduleDir key), .exists, w, w'⟩ = true →
      past.any (isUnseen (.moduleDir key)) = true → ∀ tree, w.modules.tree? (.moduleDir key) = some tree → own tree) :
    Owns env i req (Checked key own) (ask (.mkdir (.moduleDir key))) (fun a past d => match a with
        | .created => MayWrite key own true past d
        | .exists => MayWrite key own false past d
        | .failed => True) := by
  refine gives_ask fun past w o a w' hs hact hok => ⟨⟨fun name tree _ => nofun, fun hsingle => ?_⟩, ?_⟩
  · rcases modules_of_mkdir hact with ⟨-, hsame⟩ | ⟨-, hmade⟩
    · rw [hsame]
      exact hsingle
    · rw [hmade]
      exact hsingle.set_empty _
  · rcases modules_of_mkdir hact with ⟨hnot, hsame⟩ | ⟨rfl, hmade⟩
    · rw [hsame]
      cases a with
      | created => exact absurd rfl hnot
      | failed => trivial
      | «exists» =>
        exact fun tree htree => (hs tree htree).elim id fun hunseen => hsees past w w' hok hunseen tree htree
    · rw [hmade]
      refine ⟨?_, by rw [get?_set, if_pos rfl]⟩
      rw [List.any_append]
      simp [isMade]

lemma writeMount_triple (hmarks : MarksOwn env marker content stubName own)
    (hsees : ∀ past w w', seesMarkers env ⟨i, req, past, .mkdir (.moduleDir key), .exists, w, w'⟩ = true →
      past.any (isUnseen (.moduleDir key)) = true → ∀ tree, w.modules.tree? (.moduleDir key) = some tree → own tree) :
    Owns env i req (Checked key own) (writeMount (.moduleDir key) marker content stubName stub)
      fun _ => Unknown := by
  refine Returns.bind (mkdir_triple hsees) fun answer => ?_
  cases answer with
  | created => exact writeMountFiles_triple hmarks true
  | «exists» => exact writeMountFiles_triple hmarks false
  | failed => exact Returns.throw

end

lemma stat_of_tree? (h : d.tree? p = some tree) : d.stat p = some true := by
  obtain ⟨q, hfollow, hget⟩ := tree?_eq_some.1 h
  unfold Disk.stat
  rw [hfollow, bind_some, hget]
  rfl

/-- A look behind a path: a directory that it does not find was not seen. -/
lemma stat_triple (key : String) :
    Owns env i req Unknown (ask (.stat (.moduleDir key)))
      (fun a past d => a ≠ some true → ∀ tree, d.tree? (.moduleDir key) = some tree →
        past.any (isUnseen (.moduleDir key)) = true) := by
  refine gives_ask fun past w o a w' _ hact _ => ⟨minds_of_modules_eq rfl ((act_frame hact).modules rfl), ?_⟩
  cases hact
  intro ha tree htree
  cases hfails : o.fails with
  | true =>
    rw [List.any_append]
    simp [isUnseen]
  | false =>
    rw [hfails] at ha
    exact absurd (stat_of_tree? htree) ha

/-- A script that only reads returns what it finds. -/
lemma gives_finds {α : Type} {script : Handler α} (h : script.Every fun c => c.changesModules = false) :
    Owns env i req (fun _ d => P d) script (fun x _ d => P d ∧ ∃ events, Finds env d script events x) := by
  intro past log w hinv hs
  refine (Contract.Triple.yields (K := On fun _ d => P d ∧ d = w.modules) (A := Tells env w.modules) past
    (stable_of_alone rfl) (fun c hc past log w' o a w'' hinv hs hexec _ => ?_) h).mono (fun _ _ _ _ hs => hs)
    (fun r _ _ w' _ hs x hx => ?_) past log w hinv ⟨rfl, hs, rfl⟩
  · have hmodules : w''.modules = w'.modules := (exec_frame hexec).modules hc
    refine ⟨kept_of_minds hinv (minds_of_modules_eq hc hmodules), ?_, i, o,
      { w' with clock := w'.clock + o.elapsed }, w'', hs.2, hexec⟩
    rw [On, hmodules]
    exact hs
  · obtain ⟨events, -, hfinds⟩ := hs.2
    refine ⟨hs.1.1, events, ?_⟩
    rwa [Finds, hs.1.2, ← hx]

lemma gives_reads {α : Type} {script : Handler α} (h : script.Every fun c => c.changesModules = false) :
    Owns env i req (fun _ d => P d) script (fun _ _ d => P d) :=
  (gives_finds h).mono (fun _ _ _ _ hs => hs) fun _ _ _ _ _ hs x hx => (hs x hx).1

lemma Reads.unchanging {α : Type} {script : Handler α} (h : Reads script) :
    script.Every fun c => c.changesModules = false :=
  h.mono fun _ => Call.unchanging_of_isRead

lemma hasMarkerNamed_tells {marker : String} (h : Tells env d (.hasMarkerNamed p marker) true)
    (htree : d.tree? p = some tree) : marker ∈ tree.keys := by
  obtain ⟨_, o, w, w', rfl, h⟩ := h
  have hhas : w.modules.hasFile p marker = true := (Bool.and_eq_true_iff.1 (Prod.mk.inj (Option.some.inj h)).1).2
  unfold Disk.hasFile at hhas
  rw [htree] at hhas
  exact of_decide_eq_true hhas

lemma describeForeign_triple (dir : Path) {G : PUnit → Knows} :
    Owns env i req Unknown (describeForeign env dir) G := by
  have hask : ∀ {c : Call}, c.changesModules = false → (ask c).Every fun c => c.changesModules = false :=
    fun h => every_ask h
  refine behaves_bind (gives_reads (hask rfl)) fun answer => ?_
  split_ifs
  · refine behaves_bind (gives_reads ?_) fun artifact => ?_
    · exact ((hask rfl).bind fun _ => every_pure _).bind fun _ => every_pure _
    · split_ifs
      all_goals exact Returns.throw
  · exact Returns.throw

lemma refuseForeignMount_triple (key : String) :
    Owns env i req Unknown (refuseForeignMount env (.moduleDir key))
      fun _ => Checked key fun tree => mountMarkerName ∈ tree.keys := by
  refine Returns.bind (stat_triple key) fun answer => ?_
  split_ifs with hdir
  · refine behaves_weaken (Returns.bind (gives_finds (every_ask rfl)) fun ours => ?_)
    cases ours with
    | true =>
      exact Returns.pure fun _ _ _ _ ⟨_, _, hfinds⟩ tree htree =>
        .inl (hasMarkerNamed_tells hfinds.of_ask htree)
    | false => exact behaves_weaken (describeForeign_triple _)
  · exact Returns.pure fun _ _ _ _ hs tree htree => .inr (hs hdir tree htree)

lemma moduleFileName_notMem (key : String) : moduleFileName key ∉ markerNames := by
  have hlast : (moduleFileName key).toList.getLast? = some 's' := by
    unfold moduleFileName
    rw [String.toList_append, getLast?_append]
    rfl
  intro hmem
  have hall : markerNames.all (fun name => name.toList.getLast? ≠ some 's') = true := by decide
  exact absurd hlast (of_decide_eq_true (all_eq_true.1 hall _ hmem))

lemma marksOwn_mount (key : String) (content : Bytes) :
    MarksOwn env mountMarkerName content (moduleFileName key) fun tree => mountMarkerName ∈ tree.keys where
  mem _ h := h
  owned _ h := by simp [owned, h]
  set _ := mem_keys_set.2 (.inl rfl)
  stub _ _ h := mem_keys_set.2 (.inr h)
  stub_ne := moduleFileName_notMem key

lemma marker_of_isKgMount {events : List (Script.Event Answer)} (h : Finds env d (isKgMount env p) events true)
    (htree : d.tree? p = some tree) : (parseKgMarker env (tree.get? kgMarkerName).join).isSome = true := by
  obtain ⟨content, _, hcontent, -, -, hsome⟩ := h
  replace hsome : (parseKgMarker env content).isSome = true := Except.ok.inj hsome
  rcases readFile_tells hcontent with rfl | rfl
  · cases hsome
  · rwa [file?_of_tree? htree] at hsome

/-- The JSON of a knowledge-graph marker decodes to it. -/
def DecodesKgMarkers (env : Platform) : Prop :=
  ∀ time, env.decodeKgMarker (env.encodeKgMarker ⟨kgMarkerSchema, time⟩) = some ⟨kgMarkerSchema, time⟩

lemma marksOwn_kg (hdecode : DecodesKgMarkers env) (time : ℕ) :
    MarksOwn env kgMarkerName (env.encodeKgMarker ⟨kgMarkerSchema, time⟩) (moduleFileName kgModuleKey)
      fun tree => (parseKgMarker env (tree.get? kgMarkerName).join).isSome = true where
  mem tree h := by
    apply mem_keys_iff.2
    cases hget : tree.get? kgMarkerName with
    | none =>
      rw [hget] at h
      cases h
    | some content => rfl
  owned tree h := by simp [owned, h]
  set tree := by
    rw [get?_set, if_pos rfl]
    simp [parseKgMarker, hdecode time]
  stub tree stub h := by
    rwa [get?_set, if_neg (by decide +kernel)]
  stub_ne := moduleFileName_notMem _

lemma refuseForeignKg_triple :
    Owns env i req Unknown (refuseForeignKg env (.moduleDir kgModuleKey)) (fun _ => Checked kgModuleKey fun tree =>
        (parseKgMarker env (tree.get? kgMarkerName).join).isSome = true) := by
  refine Returns.bind (stat_triple _) fun answer => ?_
  split_ifs with hdir
  · refine behaves_weaken (Returns.bind (gives_finds (looks_isKgMount _).reads.unchanging) fun ours => ?_)
    cases ours with
    | true => exact Returns.pure fun _ _ _ _ ⟨_, _, hfinds⟩ tree htree => .inl (marker_of_isKgMount hfinds htree)
    | false => exact Returns.throw
  · exact Returns.pure fun _ _ _ _ hs tree htree => .inr (hs hdir tree htree)

lemma removeAll_triple (key : String) :
    Owns env i req (fun _ d => ∀ tree, d.tree? (.moduleDir key) = some tree → owned env tree = true)
      (ask (.removeAll (.moduleDir key))) fun _ => Unknown := by
  refine gives_ask fun past w o a w' hs hact _ => ⟨⟨fun name tree hget htouches => ?_, fun hsingle => ?_⟩, trivial⟩
  · simp only [touches, decide_eq_true_eq] at htouches
    cases htouches
    exact .inl (hs tree (tree?_of_dir hget))
  · obtain ⟨d, hd, rfl⟩ := act_files hact rfl
    cases hd
    split_ifs
    · exact hsingle.removeSome _ _
    · exact hsingle.erase _

lemma unmountKg_triple : Owns env i req Unknown (unmountKg env) (fun _ => Unknown) := by
  have hstat : (ask (.stat (.moduleDir kgModuleKey))).Every fun c => c.changesModules = false := every_ask rfl
  refine behaves_bind (gives_reads hstat) fun answer => ?_
  split_ifs
  · refine Returns.bind (gives_finds (looks_isKgMount _).reads.unchanging) fun ours => Returns.require ?_
    rintro rfl
    refine Returns.weaken (L := On fun _ d => ∀ tree, d.tree? (.moduleDir kgModuleKey) = some tree →
      owned env tree = true) ?_ fun _ _ _ _ ⟨_, _, hfinds⟩ tree htree =>
        by simp [owned, marker_of_isKgMount hfinds htree]
    refine Returns.bind (removeAll_triple _) fun removed => ?_
    cases removed with
    | true => exact owns_pure
    | false => exact Returns.throw
  · exact owns_pure

/-! ## Connect -/

lemma behaves_of_reads (h : script.Every fun c => c.changesModules = false) : Behaves env i req script :=
  gives_reads h

lemma behaves_ask (h : c.changesModules = false) : Behaves env i req (ask c) :=
  behaves_of_reads (every_ask h)

lemma behaves_attempt (h : Behaves env i req script) : Behaves env i req script.attempt :=
  (Contract.Triple.attempt h).mono (fun _ _ _ _ hs => hs) fun _ _ _ _ _ _ _ _ => trivial

variable {body : Handler α}

lemma behaves_deferring {deferred : Handler PUnit} (h : Behaves env i req body)
    (hdeferred : Behaves env i req deferred) : Behaves env i req (body.deferring deferred) := by
  refine behaves_bind (behaves_attempt h) fun r => behaves_bind hdeferred fun _ => ?_
  exact .ret fun _ _ _ _ _ _ _ => trivial

lemma mountKg_triple (hdecode : DecodesKgMarkers env) (id token : String) (recipe : Text) (redirectURI : String) :
    Behaves env i (.cloudApply id token recipe redirectURI) (mountKg env) := by
  refine Returns.bind refuseForeignKg_triple fun _ => ?_
  refine Returns.bind (gives_read (R := fun _ _ => True) rfl (fun past e d hs tree htree => ?_)
    fun _ _ _ _ _ => trivial) fun time => ?_
  · exact (hs tree htree).imp_right fun hunseen => any_append hunseen e
  · refine Returns.weaken (writeMount_triple (marksOwn_kg hdecode time) fun past w w' hsees hunseen tree htree => ?_)
      fun _ _ _ _ hs => hs.1
    simpa [seesMarkers, Step.event, hunseen, htree] using hsees

lemma applyKgMount_minds (hdecode : DecodesKgMarkers env) (id token : String) (recipe : Text) (redirectURI : String)
    (vars : Vars) : Behaves env i (.cloudApply id token recipe redirectURI) (applyKgMount env vars) := by
  refine behaves_bind (behaves_attempt ?_) fun _ => owns_pure
  split_ifs
  · exact unmountKg_triple
  · exact mountKg_triple hdecode id token recipe redirectURI

lemma behaves_writeModeLayer (vars : Vars) : Behaves env i req (writeModeLayer vars) := by
  refine behaves_bind (behaves_ask rfl) fun _ => behaves_deferring ?_ (behaves_ask rfl)
  exact behaves_bind (behaves_ask rfl) fun _ => behaves_of_reads (every_require _ _)

lemma cloudApply_minds (hdecode : DecodesKgMarkers env) (id token : String) (recipe : Text) (redirectURI : String) :
    Behaves env i (.cloudApply id token recipe redirectURI) (cloudApply env id recipe redirectURI) := by
  refine behaves_bind (behaves_ask rfl) fun file => Returns.lift fun vars _ => ?_
  refine behaves_bind ?_ fun vars => behaves_bind (behaves_writeModeLayer vars) fun _ => ?_
  · unfold pinKnowledgeGraph
    dsimp only
    split_ifs
    · exact owns_pure
    · exact behaves_bind (behaves_ask rfl) fun _ => owns_pure
  · refine behaves_bind (applyKgMount_minds hdecode id token recipe redirectURI vars) fun _ => ?_
    exact behaves_bind (behaves_ask rfl) fun _ => owns_pure

/-! ## Mounts and removals -/

lemma behaves_require {b : Bool} {e : Denied} {f : PUnit → Handler β} (h : Behaves env i req (f ⟨⟩)) :
    Behaves env i req (Script.require b e >>= f) :=
  Returns.require fun _ => h

lemma behaves_withModulesOps (h : Behaves env i req body) :
    Behaves env i req (withModulesOps body) :=
  behaves_bind (behaves_ask rfl) fun _ => behaves_require (behaves_deferring h (behaves_ask rfl))

lemma mountModule_minds (id token packageKey moduleKey pin : String) :
    Behaves env i (.mountModule id token packageKey moduleKey pin) (mountModule env packageKey moduleKey pin) := by
  refine behaves_bind (behaves_ask rfl) fun file => behaves_require (behaves_require (behaves_require ?_))
  refine behaves_require (behaves_require (behaves_withModulesOps ?_))
  refine Returns.bind (refuseForeignMount_triple moduleKey) fun _ => ?_
  refine Returns.bind (gives_read (R := fun _ _ => True) rfl (fun past e d hs tree htree => ?_)
    fun _ _ _ _ _ => trivial) fun time => ?_
  · exact (hs tree htree).imp_right fun hunseen => any_append hunseen e
  · refine behaves_bind ?_ fun _ => owns_pure
    refine Returns.weaken (writeMount_triple (marksOwn_mount moduleKey _) fun past w w' hsees hunseen tree htree => ?_)
      fun _ _ _ _ hs => hs.1
    simpa [seesMarkers, Step.event, hunseen, htree] using hsees

lemma unmountModule_minds (key : String) : Behaves env i req (unmountModule env key) := by
  refine behaves_bind (behaves_ask rfl) fun file => behaves_require (behaves_require (behaves_require ?_))
  refine behaves_withModulesOps (behaves_bind (behaves_ask rfl) fun _ => behaves_require ?_)
  refine Returns.bind (gives_finds (every_ask rfl)) fun ours => ?_
  cases ours with
  | true =>
    refine Returns.weaken (L := On fun _ d => ∀ tree, d.tree? (.moduleDir key) = some tree → owned env tree = true) ?_
      fun _ _ _ _ ⟨_, _, hfinds⟩ tree htree => by simp [owned, hasMarkerNamed_tells hfinds.of_ask htree]
    exact Returns.bind (removeAll_triple key) fun _ => Returns.require fun _ => owns_pure
  | false =>
    refine behaves_weaken ?_
    refine behaves_bind (behaves_of_reads ?_) fun artifact => ?_
    · exact Script.Every.bind (Script.Every.bind (every_ask rfl) fun _ => every_pure _)
        fun _ => every_pure _
    · split_ifs
      all_goals exact Returns.throw

variable {p : Path}

lemma modules_of_rename {a : Answer (.rename p q)} (h : act env i o w (.rename p q) = some (a, w')) :
    (a = false ∧ w'.modules = w.modules) ∨ (a = true ∧ w.modules.rename p q = some w'.modules) := by
  obtain ⟨d, hd, rfl⟩ := act_files h rfl
  simp only [actFiles] at hd
  split at hd
  · cases hd
    exact .inl ⟨rfl, rfl⟩
  · rename_i d' hrename
    cases hd
    split_ifs at hrename
    exact .inr ⟨rfl, hrename⟩

lemma single_of_rename {a : Answer (.rename p q)} (hq : q.moduleName? = none)
    (h : act env i o w (.rename p q) = some (a, w')) (hsingle : Single w.modules) : Single w'.modules := by
  rcases modules_of_rename h with ⟨-, hsame⟩ | ⟨-, hrename⟩
  · rwa [hsame]
  · obtain ⟨entry, -, -, hget⟩ := Disk.get?_rename hrename
    refine hsingle.of_carries fun name marker _ hc => ?_
    obtain ⟨tree, htree, hmem⟩ := mem_keys_of_carries hc
    have hne : q ≠ .moduleDir name := by
      rintro rfl
      cases hq
    rw [hget, if_neg hne] at htree
    split_ifs at htree
    unfold carries
    rw [htree]
    exact decide_eq_true hmem

/-- What is known of the directories that are to be removed. -/
def OwnedDirs (env : Platform) (names : List String) (d : Disk) : Prop :=
  ∀ name ∈ names, ∀ tree, d.get? (.moduleDir name) = some (.dir tree) → owned env tree = true

lemma touchesOwn_rename {a : Answer (.rename p q)}
    (hs : ∀ name tree, p = .moduleDir name ∨ q = .moduleDir name → w.modules.get? (.moduleDir name) = some (.dir tree) →
      owned env tree = true) : TouchesOwn env ⟨i, req, past, .rename p q, a, w, w'⟩ := by
  intro name tree hget htouches
  simp only [touches, Bool.or_eq_true, decide_eq_true_eq] at htouches
  exact .inl (hs name tree htouches hget)

lemma renameAway_triple (names : List String) (name : String) (time : ℕ) :
    Owns env i req (fun _ d => OwnedDirs env (name :: names) d)
      (ask (.rename (.moduleDir name) (.removing name time))) fun _ _ d => OwnedDirs env names d := by
  refine gives_ask fun past w o a w' hs hact _ =>
    ⟨⟨touchesOwn_rename fun name' tree htouches hget => ?_, fun hsingle => single_of_rename rfl hact hsingle⟩, ?_⟩
  · cases htouches.resolve_right nofun
    exact hs name (.head _) tree hget
  · intro name' hname' tree hget
    apply hs name' (.tail _ hname') tree
    rcases modules_of_rename hact with ⟨-, hsame⟩ | ⟨-, hrename⟩
    · rwa [hsame] at hget
    · obtain ⟨entry, -, -, hget'⟩ := Disk.get?_rename hrename
      rw [hget', if_neg nofun] at hget
      split_ifs at hget
      exact hget

lemma removeStaged_triple (hp : p.moduleName? = none)
    (hP : ∀ d d' : Disk, (∀ q, p ≠ q → d'.get? q = d.get? q) → P d → P d') :
    Owns env i req (fun _ d => P d) (ask (.removeAll p)) (fun _ _ d => P d) := by
  have hne : ∀ name, p ≠ .moduleDir name := by
    rintro name rfl
    cases hp
  refine gives_ask fun past w o a w' hs hact _ => ?_
  have hget := fun q (hq : p ≠ q) => get?_of_removeAll hq hact
  refine ⟨⟨fun name tree _ htouches => ?_, fun hsingle => hsingle.of_carries fun name marker _ hc => ?_⟩,
    hP _ _ hget hs⟩
  · simp only [touches, decide_eq_true_eq] at htouches
    exact absurd htouches (hne name)
  · exact (carries_congr (hget _ (hne name)) marker).symm.trans hc

lemma removeModuleTree_minds (names : List String) (name : String) :
    Owns env i req (fun _ d => OwnedDirs env (name :: names) d) (removeModuleTree name)
      fun _ _ d => OwnedDirs env names d := by
  refine Returns.bind (G := fun _ => On fun _ d => OwnedDirs env (name :: names) d) (gives_reads (every_ask rfl))
    fun time => Returns.bind (renameAway_triple names name time) fun gone => ?_
  split_ifs
  · refine Returns.bind (removeStaged_triple rfl fun d d' hget hs name hname tree htree => ?_) fun _ =>
      Returns.pure fun _ _ _ _ hs => hs
    exact hs name hname tree ((hget (.moduleDir name) nofun).symm.trans htree)
  · exact Returns.pure fun _ _ _ _ hs => hs

lemma removeEach_minds (names : List String) :
    Owns env i req (fun _ d => OwnedDirs env names d) (removeEach names) (fun _ => Unknown) := by
  induction names with
  | nil => exact owns_pure
  | cons name names ih =>
    refine Returns.bind (removeModuleTree_minds names name) fun gone => Returns.bind ih fun rest => ?_
    exact owns_pure

lemma refuseRemoval_triple (key : String) :
    Owns env i req Unknown (refuseRemoval env (.moduleDir key)) (fun _ _ d => OwnedDirs env [key] d) := by
  refine behaves_bind (gives_reads (every_ask rfl)) fun answer => ?_
  cases answer with
  | notExist | failed => exact Returns.throw
  | found isDir =>
    refine Returns.require fun _ =>
      Returns.bind (gives_finds (looks_isArtifactMount _).reads.unchanging) fun artifact => ?_
    cases artifact with
    | true =>
      refine Returns.pure fun _ _ _ _ ⟨_, _, hfinds⟩ name hname tree htree => ?_
      cases mem_singleton.1 hname
      simp [owned, marker_of_isArtifactMount hfinds (tree?_of_dir htree)]
    | false =>
      refine behaves_weaken ?_
      refine behaves_bind (behaves_ask rfl) fun _ => Returns.require fun _ => ?_
      refine behaves_bind (behaves_ask rfl) fun _ => ?_
      exact Returns.require fun _ => Returns.throw

lemma removeArtifact_minds (key : String) : Behaves env i req (removeArtifact env key) := by
  refine behaves_bind (behaves_ask rfl) fun file => behaves_require (behaves_require (behaves_require ?_))
  refine behaves_withModulesOps (Returns.bind (refuseRemoval_triple key) fun _ => ?_)
  refine Returns.bind (removeModuleTree_minds [] key) fun gone => Returns.require fun _ => ?_
  exact owns_pure

/-! ## Disconnect -/

/-- A foreign directory does not have one marker. -/
def NoneForeign (env : Platform) (d : Disk) : Prop :=
  ∀ name tree, d.get? (.moduleDir name) = some (.dir tree) → owned env tree = true ∨ markerCount tree ≠ 1

lemma noneForeign_of_allOwned (h : allOwned env d = true) : NoneForeign env d := by
  intro name tree hget
  have hdir := all_eq_true.1 h _ (mem_keys_of_get? hget)
  simp only [hget] at hdir
  simpa using hdir

/-- What the looks for the markers tell of a foreign directory: which of them it has. -/
def Told (env : Platform) (name marker : String) (found : Bool) (d : Disk) : Prop :=
  ∀ tree, d.get? (.moduleDir name) = some (.dir tree) → owned env tree = true ∨ found = decide (marker ∈ tree.keys)

lemma look_minds (id token name marker : String) :
    Owns env i (.cloudDisable id token) (fun _ d => P d)
      (ask (.hasMarkerNamed (.moduleDir name) marker))
      fun found _ d => P d ∧ Told env name marker found d := by
  refine gives_ask fun past w o found w' hs hact hsees => ?_
  have hmodules : w'.modules = w.modules := (act_frame hact).modules rfl
  rw [hmodules]
  refine ⟨minds_of_modules_eq rfl hmodules, hs, fun tree hget => ?_⟩
  have htree : w.modules.tree? (.moduleDir name) = some tree := tree?_of_dir hget
  have hhas : found = (!o.fails && w.modules.hasFile (.moduleDir name) marker) :=
    ((Prod.mk.inj (Option.some.inj hact)).1).symm
  have hfile : w.modules.hasFile (.moduleDir name) marker = decide (marker ∈ tree.keys) := by
    unfold Disk.hasFile
    rw [htree]
    rfl
  cases found with
  | false =>
    have hmissed : owned env tree = true ∨ marker ∉ tree.keys := by
      simpa [seesMarkers, Step.event, htree] using hsees
    exact hmissed.imp_right fun hmissed => (decide_eq_false hmissed).symm
  | true => exact .inr (((Bool.and_eq_true_iff.1 hhas.symm).2).symm.trans hfile)

lemma length_markers (tree : Tree) :
    ((if decide (mountMarkerName ∈ tree.keys) then [mountMarkerName] else []) ++
      (if decide (artifactMarkerName ∈ tree.keys) then [artifactMarkerName] else []) ++
      (if decide (kgMarkerName ∈ tree.keys) then [kgMarkerName] else [])).length = markerCount tree := by
  unfold markerCount markerNames
  simp only [filter_cons, filter_nil, decide_eq_true_eq]
  split_ifs <;> rfl

/-- A directory in which a disconnect finds one marker is the console's own. -/
lemma markersOf_minds (hP : ∀ d, P d → NoneForeign env d) (id token name : String) :
    Owns env i (.cloudDisable id token) (fun _ d => P d) (markersOf (.moduleDir name))
      fun markers _ d => P d ∧ (markers.length = 1 → OwnedDirs env [name] d) := by
  refine Returns.bind (look_minds id token name mountMarkerName) fun content => ?_
  refine Returns.bind (look_minds id token name artifactMarkerName) fun artifact => ?_
  refine Returns.bind (look_minds id token name kgMarkerName) fun kg => ?_
  refine Returns.pure fun past log w _ hs => ⟨hs.1.1.1, fun hone name' hname' tree hget => ?_⟩
  cases mem_singleton.1 hname'
  rcases hs.1.1.2 tree hget with howned | hcontent
  · exact howned
  rcases hs.1.2 tree hget with howned | hartifact
  · exact howned
  rcases hs.2 tree hget with howned | hkg
  · exact howned
  rw [hcontent, hartifact, hkg, length_markers] at hone
  exact (hP _ hs.1.1.1 name tree hget).resolve_right fun hnot => hnot hone

variable (id token : String)

lemma cloudMountsOf_minds (names : List String) (hP : ∀ d, P d → NoneForeign env d) :
    Owns env i (.cloudDisable id token) (fun _ d => P d) (cloudMountsOf names)
      fun found _ d => P d ∧ OwnedDirs env found d := by
  induction names generalizing P with
  | nil => exact Returns.pure fun _ _ _ _ hs => ⟨hs, fun _ => nofun⟩
  | cons name names ih =>
    have hlstat : (ask (.lstat (.moduleDir name))).Every fun c => c.changesModules = false := every_ask rfl
    refine Returns.bind (G := fun _ => On fun _ d => P d) (gives_reads hlstat) fun answer => ?_
    split_ifs
    · refine Returns.bind (markersOf_minds hP id token name) fun markers => ?_
      refine Returns.bind (ih fun d hs => hP d hs.1) fun rest => Returns.pure fun past log w _ hs => ⟨hs.1.1, ?_⟩
      split_ifs with hone
      · intro name' hname'
        rcases mem_cons.1 hname' with rfl | hname'
        · exact hs.1.2 hone name' (mem_singleton_self _)
        · exact hs.2 name' hname'
      · exact hs.2
    · exact ih hP

lemma removeCloudMounts_minds : Behaves env i (.cloudDisable id token) removeCloudMounts := by
  have hlist : Owns env i (.cloudDisable id token) Unknown (ask .readDir) (fun _ _ d => NoneForeign env d) := by
    refine gives_ask fun past w o a w' _ hact hsees => ?_
    have hmodules : w'.modules = w.modules := (act_frame hact).modules rfl
    rw [hmodules]
    exact ⟨minds_of_modules_eq rfl hmodules, noneForeign_of_allOwned hsees⟩
  refine Returns.bind (G := fun found => On fun _ d => NoneForeign env d ∧ OwnedDirs env found d) ?_ fun found => ?_
  · exact Returns.bind hlist fun names => cloudMountsOf_minds id token names fun _ hs => hs
  · exact Returns.weaken (removeEach_minds found) fun _ _ _ _ hs => hs.2

lemma cloudDisable_minds : Behaves env i (.cloudDisable id token) (cloudDisable id) := by
  refine behaves_bind ?_ fun _ => behaves_bind (behaves_writeModeLayer _) fun _ =>
    behaves_bind (behaves_ask rfl) fun _ => owns_pure
  refine behaves_bind (behaves_ask rfl) fun locked => ?_
  split_ifs
  · refine behaves_bind (removeCloudMounts_minds id token) fun _ => behaves_bind (behaves_ask rfl) fun _ => ?_
    exact owns_pure
  · exact owns_pure

/-! ## Installs -/

lemma minds_of_get?_eq {w w' : World} (htouches : ∀ name, touches c w.modules name = false)
    (hget : ∀ name, w'.modules.get? (.moduleDir name) = w.modules.get? (.moduleDir name)) :
    Minds env ⟨i, req, past, c, a, w, w'⟩ := by
  refine ⟨fun name tree _ htouched => ?_, fun hsingle => hsingle.of_carries fun name marker _ hc => ?_⟩
  · exact absurd ((htouches name).symm.trans htouched) nofun
  · exact (carries_congr (hget name) marker).symm.trans hc

lemma behaves_removeStaged (hp : p.moduleName? = none) : Behaves env i req (ask (.removeAll p)) :=
  removeStaged_triple hp fun _ _ _ hs => hs

lemma behaves_discardStaging (key : String) : Behaves env i req (discardStaging key) :=
  behaves_bind (behaves_removeStaged rfl) fun _ => owns_pure

def IsStaged (key : String) (d : Disk) : Prop :=
  ∃ payload : Option Tree, d.get? (.staging key) = payload.map .dir

lemma extract_triple (archive : Bytes) (key : String) :
    Owns env i req Unknown (ask (.extract archive key)) (fun done _ d => done = true → IsStaged key d) := by
  refine gives_ask fun past w o a w' _ hact _ => ?_
  obtain ⟨d, hd, rfl⟩ := act_files hact rfl
  simp only [actFiles] at hd
  split at hd
  · cases hd
    exact ⟨minds_of_get?_eq (fun _ => rfl) fun _ => rfl, fun hdone => by cases hdone⟩
  · rename_i dirs hdirs
    cases hd
    let payload := (dirs.get? key).map fun tree => if o.fails then tree.filterKeys (· ∈ o.kept) else tree
    refine ⟨minds_of_get?_eq (fun _ => rfl) fun name => ?_, fun _ => ⟨payload, ?_⟩⟩
    · rw [get?_put, if_neg (by simp)]
    · rw [get?_put, if_pos rfl]

lemma behaves_reads (h : Reads script) : Behaves env i req script :=
  gives_reads h.unchanging

lemma stage_minds (archive bundle : Bytes) (identity issuer expectedDigest key : String) :
    Owns env i req Unknown
      (stage fileOps env.tools archive bundle identity issuer expectedDigest key)
      fun r _ d => ∀ stamp, r = .ok stamp → IsStaged key d := by
  unfold stage
  cases stageChecks env.tools archive bundle identity issuer expectedDigest key with
  | error e => exact Returns.pure fun _ _ _ _ _ _ => nofun
  | ok u =>
    refine behaves_bind (behaves_removeStaged rfl) fun cleared => ?_
    cases cleared with
    | false => exact Returns.pure fun _ _ _ _ _ _ => nofun
    | true =>
      refine Returns.bind (extract_triple archive key) fun extracted => ?_
      cases extracted with
      | false => exact Returns.pure fun _ _ _ _ _ _ => nofun
      | true =>
        refine Returns.weaken (L := On fun _ d => IsStaged key d) ?_ fun _ _ _ _ hs => hs rfl
        exact (gives_reads (looks_checkPayload key).reads.unchanging).mono (fun _ _ _ _ hs => hs)
          fun r past log w _ hs a ha stamp _ => hs a ha

lemma stageVerified_minds (pre key version digest : String) (bundle archive : Bytes) :
    Owns env i req Unknown (stageVerified env pre key version digest bundle archive)
      fun _ _ d => IsStaged key d := by
  have hdiscard : ∀ {α : Type} {G : α → Assertion Answer Request World} {e : Denied}, (ownershipContract env).Triple
      (machine env).exec i req (On Unknown) (do discardStaging key; throw e) (Returns G) :=
    Returns.bind (behaves_discardStaging key) fun _ => Returns.throw
  refine Returns.bind (stage_minds _ _ _ _ _ _) fun result => ?_
  cases result with
  | error e => exact behaves_weaken hdiscard
  | ok stamp =>
    show (ownershipContract env).Triple _ i req _ (if stamp.name = key ∧ stamp.version = version then _ else _) _
    split_ifs
    · exact Returns.pure fun _ _ _ _ hs => hs stamp rfl
    · exact behaves_weaken hdiscard

lemma stageArtifact_minds (key version token : String) :
    Owns env i req Unknown (stageArtifact env key version token) (fun _ _ d => IsStaged key d) := by
  refine Returns.bind (behaves_reads (reads_artifactTarget key version token)) fun target => ?_
  refine Returns.bind (behaves_reads (reads_fetchArtifact _ _ _ _ _)) fun x => ?_
  obtain ⟨digest, bundle, archive⟩ := x
  exact stageVerified_minds _ _ _ _ _ _

/-- A directory with at most one marker. -/
def OneMarker (tree : Tree) : Prop :=
  ∀ marker ∈ markerNames, ∀ marker' ∈ markerNames, marker ∈ tree.keys → marker' ∈ tree.keys → marker = marker'

lemma Single.oneMarker (h : Single d) (hget : d.get? (.moduleDir name) = some (.dir tree)) : OneMarker tree := by
  have hcarries : ∀ marker, marker ∈ tree.keys → carries d name marker = true := by
    intro marker hmem
    unfold carries
    rw [hget]
    exact decide_eq_true hmem
  exact fun marker hm marker' hm' hmem hmem' => h name marker hm marker' hm' (hcarries _ hmem) (hcarries _ hmem')

variable {key : String}

lemma single_of_renameIn {a : Answer (.rename p (.moduleDir key))}
    (h : act env i o w (.rename p (.moduleDir key)) = some (a, w'))
    (hone : ∀ tree, w.modules.get? p = some (.dir tree) → OneMarker tree) (hsingle : Single w.modules) :
    Single w'.modules := by
  rcases modules_of_rename h with ⟨-, hsame⟩ | ⟨-, hrename⟩
  · rwa [hsame]
  · obtain ⟨entry, hentry, -, hget⟩ := Disk.get?_rename hrename
    intro name marker hm marker' hm' hc hc'
    obtain ⟨tree, htree, hmem⟩ := mem_keys_of_carries hc
    obtain ⟨tree', htree', hmem'⟩ := mem_keys_of_carries hc'
    cases htree.symm.trans htree'
    rw [hget] at htree
    split_ifs at htree
    · -- the directory that came in
      cases htree
      exact hone tree hentry marker hm marker' hm' hmem hmem'
    · exact hsingle.oneMarker htree marker hm marker' hm' hmem hmem'

lemma lookStaged_minds (x : Install) (marker : String) :
    Owns env i x.request (fun _ d => P d) (ask (.hasMarkerNamed (.staging x.key) marker)) fun found _ d =>
      P d ∧ (found = false → ∀ tree, d.tree? (.staging x.key) = some tree → marker ∉ tree.keys) := by
  refine gives_ask fun past w o found w' hs hact hsees => ?_
  have hmodules : w'.modules = w.modules := (act_frame hact).modules rfl
  rw [hmodules]
  refine ⟨minds_of_modules_eq rfl hmodules, hs, fun hfound tree htree => ?_⟩
  subst hfound
  simpa [seesMarkers, Install.request, Step.event, htree] using hsees

/-- What an install knows before it swaps: what it has staged has the artifact marker alone. -/
def IsMarked (key : String) (d : Disk) : Prop :=
  ∀ tree, d.get? (.staging key) = some (.dir tree) → OneMarker tree

/-- The artifact marker goes into the staged payload. -/
lemma mark_minds (key : String) (content : Bytes) :
    Owns env i req (fun _ d => (IsStaged key d ∧ ∀ tree, d.tree? (.staging key) = some tree →
      mountMarkerName ∉ tree.keys) ∧
        ∀ tree, d.tree? (.staging key) = some tree → kgMarkerName ∉ tree.keys)
          (ask (.writeFile (.staging key) artifactMarkerName content))
          (fun written _ d => written = true → IsMarked key d) := by
  refine gives_ask fun past w o a w' hs hact _ => ?_
  obtain ⟨⟨⟨payload, hpayload⟩, hmount⟩, hkg⟩ := hs
  -- what is written to is the staged directory itself
  have hfollow : ∀ q, w.modules.follow (.staging key) = some q → q = .staging key := by
    intro q hq
    unfold Disk.follow Disk.maxLinks Disk.followLinks at hq
    rw [hpayload] at hq
    cases payload with
    | none => cases hq
    | some tree =>
      cases hq
      rfl
  have hwrite : ∀ content' d', w.modules.writeFile (.staging key) artifactMarkerName content' = some d' →
      ∃ tree, w.modules.tree? (.staging key) = some tree ∧
        d' = w.modules.set (.staging key) (.dir (tree.set artifactMarkerName (some content'))) := by
    intro content' d' hwrite
    obtain ⟨q, tree, hq, hget, rfl, -⟩ := writeFile_eq_some hwrite
    cases hfollow q hq
    exact ⟨tree, tree?_eq_some.2 ⟨_, hq, hget⟩, rfl⟩
  refine ⟨minds_of_get?_eq (fun name => ?_) fun name => ?_, fun hwritten tree htree => ?_⟩
  · refine decide_eq_false fun hq => ?_
    cases hfollow _ hq
  · refine of_writeFile (Q := fun d => d.get? (.moduleDir name) = w.modules.get? (.moduleDir name)) hact rfl ?_
    intro content' d' hd'
    obtain ⟨tree, -, rfl⟩ := hwrite content' d' hd'
    rw [get?_set, if_neg (by simp)]
  · rcases modules_of_writeFile hact with ⟨-, hdone⟩ | ⟨hnot, -⟩
    · obtain ⟨tree', htree', hset⟩ := hwrite _ _ hdone
      rw [hset, get?_set, if_pos rfl] at htree
      cases htree
      have honly : ∀ marker ∈ markerNames, marker ∈ (tree'.set artifactMarkerName (some content)).keys →
          marker = artifactMarkerName := by
        intro marker hm hmem
        rcases mem_keys_set.1 hmem with rfl | hmem
        · rfl
        · simp only [markerNames, mem_cons, not_mem_nil, or_false] at hm
          rcases hm with rfl | rfl | rfl
          · exact absurd hmem (hmount tree' htree')
          · rfl
          · exact absurd hmem (hkg tree' htree')
      exact fun marker hm marker' hm' hmem hmem' => (honly marker hm hmem).trans (honly marker' hm' hmem').symm
    · cases hnot.symm.trans hwritten

lemma refuseForeignDirectory_minds (key : String) :
    Owns env i req (fun _ d => IsMarked key d) (refuseForeignDirectory env (.moduleDir key))
      fun refusal _ d => IsMarked key d ∧ (refusal = none → OwnedDirs env [key] d) := by
  refine (gives_finds (looks_refuseForeignDirectory _).reads.unchanging).mono (fun _ _ _ _ hs => hs)
    fun r _ _ _ _ hs x hx => ⟨(hs x hx).1, ?_⟩
  rintro rfl name hname tree htree
  cases mem_singleton.1 hname
  obtain ⟨-, events, hfinds⟩ := hs none hx
  rcases of_refuseForeignDirectory hfinds with hnone | ⟨tree', htree', hmarker⟩
  · cases hnone.symm.trans htree
  · cases htree'.symm.trans htree
    simp [owned, hmarker]

/-- What was moved aside for an install can come back. -/
def Aside (key : String) (log : List LogStep) (w : World) : Prop :=
  w.modules.get? (.moduleDir key) = none ∧
    (Unmarked (initialDisk log w) → ∀ tree, w.modules.get? (.backup key) = some (.dir tree) → OneMarker tree)

lemma moveAside_minds (key : String) :
    (ownershipContract env).Triple (machine env).exec i req (On fun _ d => IsMarked key d ∧ OwnedDirs env [key] d)
      (ask (.rename (.moduleDir key) (.backup key)))
      (Returns fun done _ log w => done = true → IsMarked key w.modules ∧ Aside key log w) := by
  refine .ask (stable_of_alone rfl) fun past log w o a w' hinv hs hexec _ => ?_
  have hact := act_of_exec hexec
  refine ⟨kept_of_minds hinv ⟨touchesOwn_rename fun name tree htouches hget => ?_, fun hsingle =>
    single_of_rename rfl hact hsingle⟩, fun a' ha' hdone => ?_⟩
  · cases htouches.resolve_right nofun
    exact hs.2 key (mem_singleton_self _) tree hget
  · cases ha'
    rcases modules_of_rename hact with ⟨hnot, -⟩ | ⟨-, hrename⟩
    · exact absurd (hnot.symm.trans hdone) nofun
    · obtain ⟨entry, hentry, -, hget⟩ := Disk.get?_rename hrename
      refine ⟨fun tree htree => hs.1 tree ?_, ?_, fun hunmarked tree htree => ?_⟩
      · rwa [hget, if_neg nofun, if_neg nofun] at htree
      · rw [hget, if_neg nofun, if_pos rfl]
      · rw [hget, if_pos rfl] at htree
        cases htree
        rw [initialDisk_concat] at hunmarked
        exact (hinv hunmarked).oneMarker hentry

lemma renameIn_touches (hs : OwnedDirs env [key] w.modules) {a : Answer (.rename p (.moduleDir key))}
    (hp : p.moduleName? = none) : TouchesOwn env ⟨i, req, past, .rename p (.moduleDir key), a, w, w'⟩ := by
  refine touchesOwn_rename fun name tree htouches hget => ?_
  rcases htouches with rfl | heq
  · cases hp
  · cases heq
    exact hs key (mem_singleton_self _) tree hget

lemma ownedDirs_of_none (h : d.get? (.moduleDir key) = none) : OwnedDirs env [key] d := by
  intro name hname tree htree
  cases mem_singleton.1 hname
  cases h.symm.trans htree

lemma restore_minds (key : String) :
    (ownershipContract env).Triple (machine env).exec i req (fun _ => Aside key)
      (ask (.rename (.backup key) (.moduleDir key))) (Gives fun _ => Unknown) := by
  refine .ask (stable_of_alone rfl) fun past log w o a w' hinv hs hexec _ =>
    ⟨⟨fun hunmarked => ?_, ?_⟩, fun _ _ => trivial⟩
  · rw [initialDisk_concat] at hunmarked
    exact single_of_renameIn (act_of_exec hexec) (hs.2 hunmarked) (hinv hunmarked)
  · exact renameIn_touches (ownedDirs_of_none hs.1) rfl

lemma clearBackup_minds {r : SwapResult Denied} (key : String) :
    (ownershipContract env).Triple (machine env).exec i req K
      (do let _ ← ask (.removeAll (.backup key)); return r : Handler (SwapResult Denied)) (Gives fun _ => Unknown) :=
  Returns.weaken (behaves_bind (behaves_removeStaged rfl) fun _ => owns_pure)
    fun _ _ _ _ _ => trivial

lemma renameIn_minds_of_aside (key : String) :
    (ownershipContract env).Triple (machine env).exec i req (fun _ log w => IsMarked key w.modules ∧ Aside key log w)
      (renameIn fileOps (.moduleDir key) (.staging key) (.backup key) true : Handler (SwapResult Denied))
      (Gives fun _ => Unknown) := by
  have hrename : (ownershipContract env).Triple (machine env).exec i req
      (fun _ log w => IsMarked key w.modules ∧ Aside key log w) (ask (.rename (.staging key) (.moduleDir key)))
      (Returns fun done _ log w => done = false → Aside key log w) := by
    refine .ask (stable_of_alone rfl) fun past log w o a w' hinv hs hexec _ => ?_
    have hact := act_of_exec hexec
    refine ⟨kept_of_minds hinv ⟨renameIn_touches (ownedDirs_of_none hs.2.1) rfl, fun hsingle => ?_⟩, ?_⟩
    · exact single_of_renameIn hact hs.1 hsingle
    intro a' ha' hfailed
    cases ha'
    rcases modules_of_rename hact with ⟨-, hsame⟩ | ⟨hdone, -⟩
    · unfold Aside
      rw [hsame, initialDisk_concat]
      exact hs.2
    · exact absurd (hdone.symm.trans hfailed) nofun
  refine Returns.bind hrename fun done => ?_
  cases done with
  | true => exact clearBackup_minds key
  | false =>
    refine Returns.weaken (L := fun _ => Aside key) ?_ fun _ _ _ _ hs => hs rfl
    refine Returns.bind (restore_minds key) fun restored => ?_
    cases restored with
    | true | false => exact owns_pure

lemma renameIn_minds_of_ready (key : String) :
    Owns env i req (fun _ d => IsMarked key d ∧ OwnedDirs env [key] d)
      (renameIn fileOps (.moduleDir key) (.staging key) (.backup key) false : Handler (SwapResult Denied))
      fun _ => Unknown := by
  have hrename : Owns env i req (fun _ d => IsMarked key d ∧ OwnedDirs env [key] d)
    (ask (.rename (.staging key) (.moduleDir key))) (fun _ => Unknown) := by
    refine gives_ask fun past w o a w' hs hact _ => ⟨⟨renameIn_touches hs.2 rfl, fun hsingle => ?_⟩, trivial⟩
    exact single_of_renameIn hact hs.1 hsingle
  refine Returns.bind hrename fun done => ?_
  cases done with
  | true => exact clearBackup_minds key
  | false => exact owns_pure

lemma swap_minds (key : String) :
    Owns env i req (fun _ d => IsMarked key d)
      (swap fileOps (.moduleDir key) (.staging key) (.backup key) (some (refuseForeignDirectory env)))
      fun _ => Unknown := by
  refine Returns.bind (refuseForeignDirectory_minds key) fun refusal => ?_
  cases refusal with
  | some e => exact owns_pure
  | none =>
    refine Returns.weaken (L := On fun _ d => IsMarked key d ∧ OwnedDirs env [key] d) ?_
      fun _ _ _ _ hs => ⟨hs.1, hs.2 rfl⟩
    refine Returns.bind (G := fun _ => On fun _ d => IsMarked key d ∧ OwnedDirs env [key] d) ?_ fun _ => ?_
    · refine removeStaged_triple rfl fun d d' hget hs =>
        ⟨fun tree htree => hs.1 tree ?_, fun name hname tree htree => ?_⟩
      · exact (hget (.staging key) nofun).symm.trans htree
      · exact hs.2 name hname tree ((hget (.moduleDir name) nofun).symm.trans htree)
    · refine Returns.bind (G := fun _ => On fun _ d => IsMarked key d ∧ OwnedDirs env [key] d)
        (gives_reads (every_ask rfl)) fun answer => ?_
      split_ifs
      · refine Returns.bind (moveAside_minds key) fun done => ?_
        cases done with
        | true => exact Returns.weaken (renameIn_minds_of_aside key) fun _ _ _ _ hs => hs rfl
        | false => exact owns_pure
      · exact renameIn_minds_of_ready key

lemma placeArtifact_minds (x : Install) : Owns env i x.request (fun _ d => IsStaged x.key d)
    (placeArtifact env x.key x.version x.allowDowngrade) fun _ => Unknown := by
  refine Returns.bind (gives_reads (looks_refuseDowngrade ..).reads.unchanging) fun _ => ?_
  refine Returns.bind (lookStaged_minds x mountMarkerName) fun mount => Returns.require fun hmount => ?_
  refine Returns.bind ((lookStaged_minds x kgMarkerName).weaken fun _ _ _ _ hs => hs) fun kg =>
    Returns.require fun hkg => ?_
  refine Returns.bind (gives_reads (every_ask rfl)) fun time => ?_
  refine Returns.bind (Returns.weaken (mark_minds x.key _) fun _ _ _ _ hs =>
    ⟨⟨hs.1.1, hs.1.2 (by simpa using hmount)⟩, hs.2 (by simpa using hkg)⟩) fun written =>
      Returns.require fun hwritten => ?_
  refine Returns.bind (Returns.weaken (swap_minds x.key) fun _ _ _ _ hs => hs hwritten) fun result => ?_
  cases result with
  | refused e | asideFailed | notInstalled => exact Returns.throw
  | installed => exact owns_pure

lemma installArtifact_minds (x : Install) :
    Behaves env i x.request (installArtifact env x.token x.key x.version x.allowDowngrade) := by
  refine behaves_withModulesOps (Returns.bind (stageArtifact_minds x.key x.version x.token) fun _ => ?_)
  refine behaves_bind ?_ fun _ => owns_pure
  refine behaves_bind ?_ fun _ => behaves_bind (behaves_discardStaging x.key) fun _ => .ret fun _ _ _ _ _ _ _ => trivial
  exact (Contract.Triple.attempt (placeArtifact_minds x)).mono (fun _ _ _ _ hs => hs) fun _ _ _ _ _ _ _ _ => trivial

/-! ## The requests -/

lemma behaves_gated {next : Handler Response} (recoveryPath : Bool) (h : Behaves env i req next) :
    Behaves env i req (requireSession id (gate env recoveryPath token next)) := by
  refine behaves_bind (behaves_ask rfl) fun valid => behaves_require (behaves_bind ?_ fun _ => h)
  refine behaves_of_reads ((question_gateCheck recoveryPath token).mono fun c hc => ?_)
  cases c with
  | valid _ | readModeLayer | resolveEntitlements => rfl
  | _ => cases hc

lemma behaves_routes (hdecode : DecodesKgMarkers env) (hreq : req.actsOnModules = true) :
    Behaves env i req ((machine env).program req) := by
  cases req with
  | session idToken =>
    refine behaves_of_reads ((mint_session idToken).mono fun c hc => ?_)
    cases c with
    | mkdir _ | remove _ | writeFile _ _ _ | removeAll _ | rename _ _ | extract => cases hc
    | _ => rfl
  | cloudApply id token recipe redirectURI =>
    refine behaves_bind (behaves_ask rfl) fun valid => behaves_require ?_
    exact cloudApply_minds hdecode id token recipe redirectURI
  | cloudDisable id token => exact behaves_gated id token true (cloudDisable_minds id token)
  | mountModule id token packageKey moduleKey pin =>
    exact behaves_gated id token false (mountModule_minds id token packageKey moduleKey pin)
  | unmountModule id token key => exact behaves_gated id token false (unmountModule_minds key)
  | installArtifact id token key version allowDowngrade =>
    exact behaves_gated id token false (installArtifact_minds ⟨id, token, key, version, allowDowngrade⟩)
  | removeArtifact id token key => exact behaves_gated id token false (removeArtifact_minds key)
  | cloudAllowlist _ _ _ | cloudKgUpdate => cases hreq

/-- Where one request runs after the other and the looks see what is there, every step touches what is the console's
own, and no directory comes to have two markers. -/
theorem owned_of_reachable (hdecode : DecodesKgMarkers env) {p : Pool} (h : (system env).Reachable (fun p e =>
    (Machine.alone p e && (machine env).allows Request.actsOnModules (fun _ => seesMarkers env) p e) = true) p) :
    (∀ before st after, p.log = before ++ st :: after → TouchesOwn env st) ∧
      (Unmarked (initialDisk p.log p.shared) → Single p.shared.modules) := by
  have hholds : (ownershipContract env).HoldsAlone (machine env) (fun _ _ _ _ _ _ => True) p := by
    refine .of_reachable (fun w _ hunmarked => ?_) (fun i req log w hinv hserves => ?_) h
    · intro name marker hm marker' _ hc _
      exact absurd ((hunmarked name marker hm).symm.trans hc) nofun
    · refine Contract.Triple.mono (behaves_routes hdecode hserves) (fun _ _ _ _ hs => hs) (fun _ _ _ _ _ _ => trivial)
        [] log w hinv trivial
  exact ⟨fun before st after hlog => hholds.good before st after hlog, hholds.inv⟩

/-- A platform whose knowledge-graph markers decode, and whose artifact markers do not. -/
def markerPlatform : Platform :=
  { samplePlatform with
    decodeKgMarker := fun content => some ⟨kgMarkerSchema, content.length⟩
    encodeKgMarker := fun marker => List.replicate marker.mountedAt 0 }

lemma decodesKgMarkers_markerPlatform : DecodesKgMarkers markerPlatform :=
  fun time => by simp [markerPlatform]

/-- A cloud daemon that finds a module whose artifact marker its reader does not accept. -/
def foreignPool : Pool :=
  ⟨{ sampleWorld with
      file := some sampleCloudFile
      modules := Record.set ∅ (.moduleDir "module") (.dir (Record.set ∅ artifactMarkerName (some [9]))) }, ∅, []⟩

def signedDisconnect : List (Threads.Event Request Outside) :=
  [.spawn 0 (.session "id")] ++ List.replicate 8 (.step 0 sampleAdmin) ++
    [.spawn 1 (.cloudDisable "a" "token")] ++ List.replicate 12 (.step 1 sampleAdmin)

/-- A step touches the sample module, which is not the console's own. -/
def touchesForeign (env : Platform) (st : LogStep) : Bool :=
  touches st.call st.before.modules "module" && !st.past.any (isMade "module") &&
    (match st.before.modules.get? (.moduleDir "module") with
      | some (.dir tree) => !owned env tree
      | _ => false)

/-- A disconnect renames what a mount has made. -/
theorem mounted_owned : ∃ (p : Pool) (st : LogStep), (system markerPlatform).Reachable (fun p e =>
      (Machine.alone p e && (machine markerPlatform).allows Request.actsOnModules (fun _ => seesMarkers markerPlatform)
        p e) = true) p ∧
    st ∈ p.log ∧ st.request.isDisconnect = true ∧ touches st.call st.before.modules "module" = true ∧
    TouchesOwn markerPlatform st ∧ (Unmarked (initialDisk p.log p.shared) → Single p.shared.modules) := by
  have hrun : ((system markerPlatform).run (fun p e => Machine.alone p e &&
      (machine markerPlatform).allows Request.actsOnModules (fun _ => seesMarkers markerPlatform) p e)
      sampleCloudPool (mountAround 10 16 0)).any (·.log.any fun st =>
        st.request.isDisconnect && touches st.call st.before.modules "module") = true := by
    decide +kernel
  obtain ⟨p, hreach, htouches⟩ := TransitionSystem.exists_reachable hrun ⟨⟨rfl, rfl, rfl, rfl, rfl⟩, rfl, rfl⟩
    fun _ _ hok => hok
  obtain ⟨st, hst, htouches⟩ := any_eq_true.1 htouches
  obtain ⟨hreq, htouches⟩ := Bool.and_eq_true_iff.1 htouches
  obtain ⟨before, after, hlog⟩ := append_of_mem hst
  obtain ⟨hown, hsingle⟩ := owned_of_reachable decodesKgMarkers_markerPlatform hreach
  exact ⟨p, st, hreach, hst, hreq, htouches, hown before st after hlog, hsingle⟩

/-- A disconnect removes a directory with an artifact marker that its reader does not accept. -/
theorem foreignMarker_removed : ∃ p : Pool, (system markerPlatform).Reachable (fun p e =>
      (Machine.alone p e && (machine markerPlatform).allows Request.actsOnModules (fun _ _ => true) p e) = true) p ∧
    ¬ ((∀ before st after, p.log = before ++ st :: after → TouchesOwn markerPlatform st) ∧
      (Unmarked (initialDisk p.log p.shared) → Single p.shared.modules)) := by
  have hrun : ((system markerPlatform).run (fun p e => Machine.alone p e &&
      (machine markerPlatform).allows Request.actsOnModules (fun _ _ => true) p e)
      foreignPool signedDisconnect).any (·.log.any (touchesForeign markerPlatform)) = true := by
    decide +kernel
  obtain ⟨p, hreach, hforeign⟩ := TransitionSystem.exists_reachable hrun ⟨⟨rfl, rfl, rfl, rfl, rfl⟩, rfl, rfl⟩
    fun _ _ hok => hok
  obtain ⟨st, hst, hforeign⟩ := any_eq_true.1 hforeign
  obtain ⟨before, after, hlog⟩ := append_of_mem hst
  refine ⟨p, hreach, fun hall => ?_⟩
  obtain ⟨hforeign, hnot⟩ := Bool.and_eq_true_iff.1 hforeign
  obtain ⟨htouches, hmade⟩ := Bool.and_eq_true_iff.1 hforeign
  split at hnot
  · rename_i tree hget
    rcases hall.1 before st after hlog "module" tree hget htouches with howned | hbefore
    · rw [howned] at hnot
      cases hnot
    · rw [hbefore] at hmade
      cases hmade
  · cases hnot

end Console.Daemon
