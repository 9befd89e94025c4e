import Mathlib.Data.List.DropRight
import Mathlib.Data.List.Sort
import Mathlib.Data.String.Basic
import Dethernety.Foundations.Record
import Dethernety.Foundations.Script

/-!
# The mode layer

The file with the variables that decide whether the deployment is connected: one `NAME=value` line for each of
them. `parseRecipe` reads it (and the recipe that an operator pastes), `serialize` is what
`writeModeLayerLocked` puts into it, and what was read is read again from what is written
(`parseRecipe_serialize`).
-/

open List Record

namespace Console

/-- The content of a file. -/
abbrev Text := List Char

/-- A Go map of variables; a missing one reads as the empty string. -/
abbrev Vars := Record String String

def Vars.value (vars : Vars) (name : String) : String :=
  (vars.get? name).getD ""

/-! ## Reading -/

/-- `unicode.IsSpace` -/
def isSpace (c : Char) : Bool :=
  [0x09, 0x0a, 0x0b, 0x0c, 0x0d, 0x20, 0x85, 0xa0, 0x1680, 0x2028, 0x2029, 0x202f, 0x205f, 0x3000].contains
    c.toNat || (0x2000 ≤ c.toNat && c.toNat ≤ 0x200a)

def trimSpace (l : Text) : Text :=
  (l.dropWhile isSpace).rdropWhile isSpace

inductive RecipeError
  | notNameValue (line : ℕ) (raw : Text)
  | duplicate (name : String)

/-- One line of `parseRecipe`, with its index. -/
def parseLine (out : Vars) (p : Text × ℕ) : Except RecipeError Vars :=
  let line := trimSpace p.1
  if line = [] ∨ ['#'] <+: line then .ok out
  else
    -- what is before the first `=`, and from it on
    match line.takeWhile (· ≠ '='), line.dropWhile (· ≠ '=') with
    | c :: before, _ :: after =>
      let name := String.ofList (trimSpace (c :: before))
      if name ∈ out.keys then .error (.duplicate name)
      else .ok (out.set name (String.ofList (trimSpace after)))
    | _, _ => .error (.notNameValue (p.2 + 1) p.1)

def parseRecipe (body : Text) : Except RecipeError Vars :=
  (body.splitOn '\n').zipIdx.foldlM parseLine ∅

/-- `readModeLayer`, `none` for a file that is missing or cannot be parsed. -/
def readModeLayer (file : Option Text) : Option Vars :=
  file.bind fun body => (parseRecipe body).toOption

inductive ModeIntent
  | none
  | cloud
  | pureOSS
  deriving DecidableEq

def modeFileIntent (file : Option Text) : ModeIntent :=
  match readModeLayer file with
  | .none => .none
  | some vars =>
    if "OIDC_SHARED_POOL" ∈ vars.keys then .cloud
    else if vars.value "NODE_ENV" = "development" ∨ vars.value "ENABLE_NOAUTH" ≠ "" then .pureOSS
    else .none

def isCloudModeFile (file : Option Text) : Bool :=
  modeFileIntent file = .cloud

def cloudModeFile (file : Option Text) : Option Vars :=
  (readModeLayer file).filter fun vars => "OIDC_SHARED_POOL" ∈ vars.keys

/-! ## Writing -/

def hasControlChar (s : String) : Bool :=
  s.toList.any fun c => c.toNat < 0x20 || c.toNat = 0x7f

def varLine (p : String × String) : Text :=
  p.1.toList ++ '=' :: p.2.toList

/-- The content that `writeModeLayerLocked` writes, or `none` when it refuses a value. -/
def serialize (vars : Vars) : Option Text :=
  if vars.entries.any (hasControlChar ·.2) then none
  else some ((vars.entries.insertionSort (·.1 ≤ ·.1)).flatMap fun p => varLine p ++ ['\n'])

/-- `pureOSSModeVars` -/
def pureOSSModeVars : Vars :=
  (Record.set ∅ "NODE_ENV" "development").set "ENABLE_NOAUTH" "true"

/-! ## The variables of a connected deployment -/

def acceptedRecipeVars : List String :=
  ["OIDC_ISSUER", "OIDC_JWKS_URI", "OIDC_CLIENT_ID", "OIDC_AUDIENCE", "OIDC_SCOPE", "OIDC_DOMAIN",
    "OIDC_SHARED_POOL", "PORTAL_ORIGIN", "MODULE_CONTENT_BASE_URL", "DEPLOYMENT_ALLOWLIST"]

def optionalRecipeVars : List String :=
  ["MODULE_KG_BASE_URL", "DEPLOYMENT_ARTIFACT_SIGNER", "DEPLOYMENT_TEAM_ID"]

def strippedRecipeVars : List String :=
  ["DEPLOYMENT_EXPOSURE", "COMMERCE_API_BASE_URL", "DEPLOYMENT_PACKAGES"]

def secureURLVars : List String :=
  ["OIDC_ISSUER", "OIDC_JWKS_URI", "MODULE_CONTENT_BASE_URL", "MODULE_KG_BASE_URL", "PORTAL_ORIGIN"]

/-- What rests on Go's URL parser, regular expressions and Unicode tables. -/
structure Checks where
  /-- `secureURL`, and `validateRedirectURI` -/
  secureURL : String → Bool
  redirectOrigin : String → Option String
  artifactSignerPrefix : String → Bool
  /-- `unicode.IsPrint` -/
  isPrint : Char → Bool

/-- Why a recipe is not applied. -/
inductive RecipeRefusal
  | foreign (names : List String)
  | missing (names : List String)
  | redirect
  | controlChar
  | insecureURL (name : String)
  | domain
  | signer
  | team

def missingRequiredVars (vars : Vars) : List String :=
  (acceptedRecipeVars.filter fun name => vars.value name = "").insertionSort (· ≤ ·)

def bareHost (raw : String) : Bool :=
  raw ≠ "" && raw.toList.all fun c => !":/?#*@\\ \t".toList.contains c

def teamID (raw : String) : Bool :=
  0 < raw.length && raw.length ≤ 64 && raw.toList.all fun c => c.isAlphanum || c = '-' || c = '_'

def cloudModeVars (checks : Checks) (recipe : Vars) (redirectURI contentCacheDir : String) :
    Except RecipeRefusal Vars := do
  let foreign := recipe.keys.filter fun name =>
    name ∉ acceptedRecipeVars ∧ name ∉ optionalRecipeVars ∧ name ∉ strippedRecipeVars
  if foreign ≠ [] then throw (.foreign (foreign.insertionSort (· ≤ ·)))
  let vars : Vars := recipe.filterKeys fun name => name ∈ acceptedRecipeVars ∨ name ∈ optionalRecipeVars
  let missing := missingRequiredVars vars
  if missing ≠ [] then throw (.missing missing)
  if !checks.secureURL redirectURI then throw .redirect
  let vars : Vars := ((vars.set "NODE_ENV" "production").set "OIDC_REDIRECT_URI" redirectURI).set
    "MODULE_CONTENT_CACHE_DIR" contentCacheDir
  let some origin := checks.redirectOrigin redirectURI | throw .redirect
  let vars : Vars := vars.set "ALLOWED_ORIGINS" origin
  if vars.entries.any (hasControlChar ·.2) then throw .controlChar
  let unsafeURL := secureURLVars.find? fun name =>
    !(vars.value name = "" && name ∈ optionalRecipeVars) && !checks.secureURL (vars.value name)
  if let some name := unsafeURL then throw (.insecureURL name)
  if !bareHost (vars.value "OIDC_DOMAIN") then throw .domain
  let signer := vars.value "DEPLOYMENT_ARTIFACT_SIGNER"
  if signer ≠ "" ∧ !checks.artifactSignerPrefix signer then throw .signer
  let team := vars.value "DEPLOYMENT_TEAM_ID"
  if team ≠ "" ∧ !teamID team then throw .team
  return vars.filterKeys fun name =>
    !((name = "MODULE_KG_BASE_URL" ∨ name = "DEPLOYMENT_TEAM_ID") ∧ vars.value name = "")

/-! ## What was written is read -/

section

variable {l : Text}

/-- A text without space around it. -/
structure Trimmed (l : Text) : Prop where
  head : ∀ c ∈ l.head?, isSpace c = false
  last : ∀ c ∈ l.getLast?, isSpace c = false

lemma trimSpace_eq_self (h : Trimmed l) : trimSpace l = l := by
  have hdrop : l.dropWhile isSpace = l := by
    cases l with
    | nil => rfl
    | cons c l => exact dropWhile_cons_of_neg (by simp [h.head c rfl])
  unfold trimSpace
  rw [hdrop, rdropWhile_eq_self_iff]
  intro hne
  simp [h.last _ (getLast?_eq_getLast_of_ne_nil hne)]

lemma trimmed_trimSpace (l : Text) : Trimmed (trimSpace l) where
  head c hc := by
    -- what is cut at the end does not change the first character
    obtain ⟨rest, hrest⟩ := List.rdropWhile_prefix isSpace (l.dropWhile isSpace)
    obtain ⟨tail, htail⟩ := head?_eq_some_iff.1 (Option.mem_def.1 hc)
    have hfirst : (l.dropWhile isSpace).head? = some c := by
      rw [← hrest]
      unfold trimSpace at htail
      rw [htail]
      rfl
    simpa [hfirst] using head?_dropWhile_not isSpace l
  last c hc := by
    have hne : trimSpace l ≠ [] := fun hnil => by
      rw [hnil] at hc
      cases hc
    have hlast := rdropWhile_last_not isSpace (l.dropWhile isSpace) hne
    rw [getLast?_eq_getLast_of_ne_nil hne, Option.mem_some_iff] at hc
    rw [← hc]
    exact Bool.eq_false_iff.2 hlast

lemma trimSpace_subset (l : Text) : trimSpace l ⊆ l := fun _ hc =>
  (dropWhile_sublist isSpace).subset ((List.rdropWhile_prefix isSpace _).subset hc)

lemma exists_trimSpace_cons {c : Char} (hc : isSpace c = false) (l : Text) :
    ∃ rest, trimSpace (c :: l) = c :: rest := by
  unfold trimSpace
  rw [dropWhile_cons_of_neg (by simp [hc])]
  obtain ⟨rest, hrest⟩ := List.rdropWhile_prefix isSpace (c :: l)
  cases hkept : (c :: l).rdropWhile isSpace with
  | nil =>
    have hspace := rdropWhile_eq_nil_iff.1 hkept c (.head _)
    cases hc.symm.trans hspace
  | cons a l' =>
    rw [hkept, cons_append] at hrest
    exact ⟨l', by rw [(List.cons.inj hrest).1]⟩

end

variable {vars out : Vars} {body : Text}

/-- A variable as a line of the file gives it. -/
structure IsVar (name value : String) : Prop where
  name_ne_nil : name.toList ≠ []
  name_trimmed : Trimmed name.toList
  comment : ¬ ['#'] <+: name.toList
  equals : '=' ∉ name.toList
  name_line : '\n' ∉ name.toList
  value_trimmed : Trimmed value.toList
  value_line : '\n' ∉ value.toList

lemma IsVar.isVar_nil {name value : String} (h : IsVar name value) : IsVar name "" :=
  { h with
    value_trimmed := ⟨fun _ hc => (by cases hc), fun _ hc => (by cases hc)⟩
    value_line := not_mem_nil }

/-- Variables that a file can hold. -/
def Vars.IsReadable (vars : Vars) : Prop :=
  ∀ p ∈ vars.entries, IsVar p.1 p.2

lemma Vars.IsReadable.set {name value : String} (h : vars.IsReadable) (hvar : IsVar name value) :
    Vars.IsReadable (vars.set name value) := by
  intro p hp
  have hget := mem_entries_iff.1 hp
  rw [get?_set] at hget
  split_ifs at hget with hname
  · cases hget
    rw [← hname]
    exact hvar
  · exact h p (mem_entries_iff.2 hget)

lemma parseLine_eq_ok {line : Text} {i : ℕ} (hline : '\n' ∉ line) (h : parseLine out (line, i) = .ok vars) :
    vars = out ∨ ∃ name value, IsVar name value ∧ vars = out.set name value := by
  unfold parseLine at h
  dsimp only at h
  split_ifs at h with hskip
  · exact .inl (Except.ok.inj h).symm
  · have htrim := trimmed_trimSpace line
    have hsubset := trimSpace_subset line
    generalize trimSpace line = text at h hskip htrim hsubset
    obtain ⟨_, hcomment⟩ := not_or.1 hskip
    have hsplit := takeWhile_append_dropWhile (p := (· ≠ '=')) (l := text)
    have hequals : ∀ a ∈ text.takeWhile (· ≠ '='), a ≠ '=' := fun a ha => by
      simpa using mem_takeWhile_imp ha
    split at h
    · rename_i c before sign after hbefore hafter
      split_ifs at h
      refine .inr ⟨_, _, ?_, (Except.ok.inj h).symm⟩
      rw [hbefore, hafter] at hsplit
      rw [hbefore] at hequals
      have hline' : ∀ a ∈ c :: before ++ sign :: after, a ≠ '\n' := fun a ha heq => by
        rw [hsplit] at ha
        exact hline (hsubset (heq ▸ ha))
      have hc : isSpace c = false := htrim.head c (by rw [← hsplit]; rfl)
      obtain ⟨rest, hrest⟩ := exists_trimSpace_cons hc before
      have hname : trimSpace (c :: before) ⊆ c :: before := trimSpace_subset _
      refine ⟨?_, ?_, ?_, ?_, ?_, ?_, ?_⟩
      · rw [String.toList_ofList, hrest]
        exact cons_ne_nil c rest
      · rw [String.toList_ofList]
        exact trimmed_trimSpace _
      · rw [String.toList_ofList, hrest]
        intro hstart
        apply hcomment
        rw [← hsplit, ← (cons_prefix_cons.1 hstart).1]
        exact prefix_append ['#'] _
      · rw [String.toList_ofList]
        exact fun hmem => hequals _ (hname hmem) rfl
      · rw [String.toList_ofList]
        exact fun hmem => hline' _ (mem_append_left _ (hname hmem)) rfl
      · rw [String.toList_ofList]
        exact trimmed_trimSpace _
      · rw [String.toList_ofList]
        exact fun hmem => hline' _ (mem_append_right _ (.tail _ (trimSpace_subset _ hmem))) rfl
    · cases h

lemma eq_false_of_mem_splitOnP {p : Char → Bool} {piece : Text} (h : piece ∈ body.splitOnP p) :
    ∀ c ∈ piece, p c = false := by
  induction body generalizing piece with
  | nil =>
    rw [splitOnP_nil, mem_singleton] at h
    rw [h]
    exact fun c hc => absurd hc not_mem_nil
  | cons c body ih =>
    rw [splitOnP_cons_eq_if_modifyHead] at h
    split_ifs at h with hc
    · rcases mem_cons.1 h with rfl | h
      · exact fun c hc => absurd hc not_mem_nil
      · exact ih h
    · obtain ⟨first, rest, hpieces⟩ := exists_cons_of_ne_nil (splitOnP_ne_nil p body)
      rw [hpieces, modifyHead_cons] at h
      rw [hpieces] at ih
      rcases mem_cons.1 h with rfl | h
      · intro a ha
        rcases mem_cons.1 ha with rfl | ha
        · exact Bool.eq_false_iff.2 hc
        · exact ih (.head _) a ha
      · exact ih (mem_cons_of_mem first h)

lemma notMem_of_mem_splitOn {line : Text} (h : line ∈ body.splitOn '\n') : '\n' ∉ line := by
  intro hmem
  simpa using eq_false_of_mem_splitOnP h _ hmem

/-- What is read from a file can be written to one. -/
theorem isReadable_parseRecipe (h : parseRecipe body = .ok vars) : vars.IsReadable := by
  have hrec : ∀ (lines : List (Text × ℕ)) (out : Vars), (∀ p ∈ lines, '\n' ∉ p.1) → out.IsReadable →
      lines.foldlM parseLine out = .ok vars → vars.IsReadable := by
    intro lines
    induction lines with
    | nil =>
      intro out _ hout h
      rw [← Except.ok.inj h]
      exact hout
    | cons p lines ih =>
      intro out hlines hout h
      obtain ⟨next, hnext, h⟩ := Except.exists_of_bind_ok h
      refine ih next (fun q hq => hlines q (mem_cons_of_mem p hq)) ?_ h
      rcases parseLine_eq_ok (hlines p (.head _)) hnext with rfl | ⟨name, value, hvar, rfl⟩
      · exact hout
      · exact hout.set hvar
  refine hrec _ ∅ (fun p hp => ?_) (fun p hp => absurd hp not_mem_nil) h
  have hmem : p.1 ∈ body.splitOn '\n' := by
    rw [← zipIdx_map_fst 0 (body.splitOn '\n')]
    exact mem_map_of_mem hp
  exact notMem_of_mem_splitOn hmem

def readValue (value : String) : String :=
  String.ofList (trimSpace (value.toList.rdropWhile isSpace))

lemma readValue_eq_self {value : String} (h : Trimmed value.toList) : readValue value = value := by
  have hlast : value.toList.rdropWhile isSpace = value.toList := by
    rw [rdropWhile_eq_self_iff]
    intro hne
    simp [h.last _ (getLast?_eq_getLast_of_ne_nil hne)]
  rw [readValue, hlast, trimSpace_eq_self h, String.ofList_toList]

lemma rdropWhile_append_cons {a : Char} (ha : isSpace a = false) (before after : Text) :
    (before ++ a :: after).rdropWhile isSpace = before ++ a :: after.rdropWhile isSpace := by
  induction after using List.reverseRecOn with
  | nil =>
    rw [rdropWhile_nil, rdropWhile_concat_neg _ _ _ (by simp [ha])]
  | append_singleton after c ih =>
    rw [← cons_append, ← append_assoc, rdropWhile_concat, rdropWhile_concat]
    split_ifs with hc
    · exact ih
    · rw [append_assoc, cons_append]

lemma parseLine_varLine {name value : String} (hvar : IsVar name "") (hnew : name ∉ out.keys) (i : ℕ) :
    parseLine out (varLine (name, value), i) = .ok (out.set name (readValue value)) := by
  obtain ⟨c, before, hname⟩ := exists_cons_of_ne_nil hvar.name_ne_nil
  have hequals : ∀ a ∈ name.toList, a ≠ '=' := fun a ha heq => hvar.equals (heq ▸ ha)
  have hc : isSpace c = false := hvar.name_trimmed.head c (by rw [hname]; rfl)
  have htrim : trimSpace (name.toList ++ '=' :: value.toList) =
      name.toList ++ '=' :: value.toList.rdropWhile isSpace := by
    unfold trimSpace
    rw [hname, cons_append, dropWhile_cons_of_neg (by simp [hc]), ← cons_append,
      rdropWhile_append_cons (by decide)]
  generalize hrest : value.toList.rdropWhile isSpace = rest at htrim
  have hskip : ¬ (name.toList ++ '=' :: rest = [] ∨ ['#'] <+: name.toList ++ '=' :: rest) := by
    rintro (hnil | hcomment)
    · exact hvar.name_ne_nil (append_eq_nil_iff.1 hnil).1
    · rw [hname, cons_append] at hcomment
      apply hvar.comment
      rw [hname, ← (cons_prefix_cons.1 hcomment).1]
      exact prefix_append ['#'] _
  have hbefore : (name.toList ++ '=' :: rest).takeWhile (· ≠ '=') = c :: before := by
    rw [takeWhile_append_of_pos (by simpa using hequals), hname]
    simp
  have hafter : (name.toList ++ '=' :: rest).dropWhile (· ≠ '=') = '=' :: rest := by
    rw [dropWhile_append_of_pos (by simpa using hequals)]
    simp
  unfold parseLine varLine readValue
  rw [htrim, if_neg hskip, hbefore, hafter, hrest]
  dsimp only
  rw [← hname, trimSpace_eq_self hvar.name_trimmed, String.ofList_toList, if_neg hnew]

lemma splitOn_flatMap_varLine {l : List (String × String)} (h : ∀ p ∈ l, '\n' ∉ varLine p) :
    (l.flatMap fun p => varLine p ++ ['\n']).splitOn '\n' = l.map varLine ++ [[]] := by
  induction l with
  | nil => rfl
  | cons p l ih =>
    rw [flatMap_cons, append_assoc, singleton_append,
      splitOn_append_cons_self_of_not_mem (h p (.head _)), ih fun q hq => h q (mem_cons_of_mem p hq)]
    rfl

lemma parseRecipe_serialize_cut {text : Text} (h : ∀ name ∈ vars.keys, IsVar name "")
    (hwritten : serialize vars = some text) :
    ∃ read, parseRecipe text = .ok read ∧ ∀ name, read.get? name = (vars.get? name).map readValue := by
  unfold serialize at hwritten
  split_ifs at hwritten with hcontrol
  cases hwritten
  have hperm := perm_insertionSort (fun p q : String × String => p.1 ≤ q.1) vars.entries
  generalize vars.entries.insertionSort (fun p q => p.1 ≤ q.1) = l at hperm
  have hnodup : (l.map Prod.fst).Nodup := (hperm.map Prod.fst).nodup_iff.2 vars.nodup_keys
  have hvars : ∀ p ∈ l, IsVar p.1 "" := fun p hp => h p.1 (mem_map_of_mem (hperm.mem_iff.1 hp))
  have hlines : ∀ p ∈ l, '\n' ∉ varLine p := by
    intro p hp hmem
    rcases mem_append.1 hmem with hmem | hmem
    · exact (hvars p hp).name_line hmem
    · rcases mem_cons.1 hmem with heq | hmem
      · exact absurd heq (by decide)
      · refine hcontrol (any_eq_true.2 ⟨p, hperm.mem_iff.1 hp, ?_⟩)
        exact any_eq_true.2 ⟨'\n', hmem, by decide⟩
  -- the loop over the lines of the variables, from any line on
  have hrec : ∀ (l : List (String × String)) (i : ℕ) (out : Vars), (∀ p ∈ l, IsVar p.1 "") →
      (l.map Prod.fst).Nodup → (∀ p ∈ l, p.1 ∉ out.keys) →
      ((l.map varLine ++ [[]]).zipIdx i).foldlM parseLine out =
        .ok ((l.map fun p => (p.1, readValue p.2)).foldl
          (fun (out : Vars) (p : String × String) => out.set p.1 p.2) out) := by
    intro l
    induction l with
    | nil => exact fun i out _ _ _ => rfl
    | cons p l ih =>
      intro i out hvars hnodup hnew
      rw [map_cons, nodup_cons] at hnodup
      rw [map_cons, cons_append, zipIdx_cons, foldlM_cons,
        parseLine_varLine (hvars p (.head _)) (hnew p (.head _))]
      refine ih _ _ (fun q hq => hvars q (mem_cons_of_mem p hq)) hnodup.2 fun q hq hmem => ?_
      rcases mem_keys_set.1 hmem with heq | hmem
      · exact hnodup.1 (heq ▸ mem_map_of_mem hq)
      · exact hnew q (mem_cons_of_mem p hq) hmem
  have hkeys : (l.map fun p => (p.1, readValue p.2)).map Prod.fst = l.map Prod.fst := by
    rw [map_map]
    rfl
  refine ⟨(l.map fun p => (p.1, readValue p.2)).foldl (fun (out : Vars) p => out.set p.1 p.2) ∅, ?_, fun name => ?_⟩
  · unfold parseRecipe
    rw [splitOn_flatMap_varLine hlines]
    exact hrec l 0 ∅ hvars hnodup fun p _ => not_mem_nil
  · let read : Vars := ⟨l.map fun p => (p.1, readValue p.2), by rw [hkeys]; exact hnodup⟩
    have hread : ((l.map fun p => (p.1, readValue p.2)).foldl (fun (out : Vars) p => out.set p.1 p.2) ∅).get? name =
        read.get? name := (get?_foldl_set read.nodup_keys ∅ name).trans (Option.or_none ..)
    rw [hread]
    ext value
    rw [← mem_entries_iff, Option.map_eq_some_iff]
    constructor
    · intro hmem
      obtain ⟨p, hp, heq⟩ := mem_map.1 hmem
      cases heq
      exact ⟨p.2, mem_entries_iff.1 (hperm.mem_iff.1 hp), rfl⟩
    · rintro ⟨written, hget, rfl⟩
      exact mem_map_of_mem (f := fun p : String × String => (p.1, readValue p.2))
        (hperm.mem_iff.2 (mem_entries_iff.2 hget))

/-- What is written is read again. -/
theorem parseRecipe_serialize {text : Text} (h : vars.IsReadable) (hwritten : serialize vars = some text) :
    ∃ read, parseRecipe text = .ok read ∧ ∀ name, read.get? name = vars.get? name := by
  have hname : ∀ name ∈ vars.keys, IsVar name "" := fun name hmem => by
    obtain ⟨value, hget⟩ := Option.isSome_iff_exists.1 (mem_keys_iff.1 hmem)
    exact (h _ (mem_entries_iff.2 hget)).isVar_nil
  obtain ⟨read, hread, hget⟩ := parseRecipe_serialize_cut hname hwritten
  refine ⟨read, hread, fun name => ?_⟩
  rw [hget name]
  cases hvalue : vars.get? name with
  | none => rfl
  | some value =>
    rw [Option.map_some, readValue_eq_self (h _ (mem_entries_iff.2 hvalue)).value_trimmed]

end Console
