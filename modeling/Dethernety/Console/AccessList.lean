import Dethernety.Console.GuardedWrites
import Dethernety.Foundations.Text

/-!
# The access list that the platform reads

Two routes write `DEPLOYMENT_ALLOWLIST`, and the platform makes a list of it with the white space of ECMAScript. The
allowlist apply always leaves the list that was submitted (`cloudAllowlistText_eq_some`). A connect leaves what the
recipe has, and that is no list at all where the value has nothing but separators
(`accessList_cloudApplyText`); the platform takes no list for no restriction.
-/

open List Record Except

namespace Console

variable {checks : Checks} {contentCacheDir : String}

/-! ## The list of the platform -/

/-- The entries that the platform makes of `DEPLOYMENT_ALLOWLIST`. -/
def platformAllowlist (value : String) : List String :=
  (((value.toList.splitOn ',').map ecmaTrim).filter (· ≠ [])).map String.ofList

def allowlistEmpty (vars : Vars) : Bool :=
  (platformAllowlist (vars.value "DEPLOYMENT_ALLOWLIST")).length = 0

/-- A value that is more than separators. -/
def NamesSomeone (value : String) : Prop :=
  ∃ c ∈ value.toList, c ≠ ',' ∧ isEcmaSpace c = false

/-! ## What the routes write -/

/-- What a connect writes, with the version listing that it reads when the recipe has a knowledge graph. -/
def cloudApplyText (checks : Checks) (contentCacheDir : String) (recipe : Text) (redirectURI : String)
    (file : Option Text) (list : Option KgVersionList) : Option Text :=
  (cloudApplyVars checks contentCacheDir recipe redirectURI file).toOption.bind fun vars =>
    serialize (if vars.value "MODULE_KG_BASE_URL" = "" then vars else pinKnowledgeGraph vars list)

/-- What an allowlist apply writes. -/
def cloudAllowlistText (checks : Checks) (allowlist sub : String) (file : Option Text) : Option Text :=
  (cloudAllowlistVars checks allowlist sub file).toOption.bind serialize

/-- The entries of a submitted list, repeats included. -/
def submittedEntries (allowlist : String) : List String :=
  ((allowlist.toList.splitOnP fun c => c = ',' || isSpace c).filter (· ≠ [])).map String.ofList

/-! ## What makes an entry -/

lemma ecmaTrim_eq_self {l : Text} (h : ∀ c ∈ l, isEcmaSpace c = false) : ecmaTrim l = l := by
  have hdrop : l.dropWhile isEcmaSpace = l := by
    cases l with
    | nil => rfl
    | cons c l => exact dropWhile_cons_of_neg (by simp [h c (.head _)])
  unfold ecmaTrim
  rw [hdrop, rdropWhile_eq_self_iff]
  intro hne
  simp [h _ (getLast_mem hne)]

lemma exists_mem_splitOn {l : Text} {sep c : Char} : (∃ piece ∈ l.splitOn sep, c ∈ piece) ↔ c ∈ l ∧ c ≠ sep := by
  induction l with
  | nil => simp
  | cons a l ih =>
    rw [splitOn_cons_eq_if_modifyHead]
    obtain ⟨first, rest, hpieces⟩ := exists_cons_of_ne_nil (splitOn_ne_nil sep l)
    rw [hpieces] at ih ⊢
    rw [exists_mem_cons_iff] at ih
    split_ifs with ha
    · -- a separator starts an empty piece
      rw [beq_iff_eq] at ha
      rw [exists_mem_cons_iff, exists_mem_cons_iff, ih, ha, mem_cons]
      grind
    · rw [modifyHead_cons, exists_mem_cons_iff, mem_cons, mem_cons, or_assoc, ih]
      grind

lemma platformAllowlist_ne_nil_iff {value : String} : platformAllowlist value ≠ [] ↔ NamesSomeone value := by
  unfold platformAllowlist NamesSomeone
  constructor
  · intro h
    obtain ⟨entry, hentry⟩ := exists_mem_of_ne_nil _ h
    obtain ⟨trimmed, htrimmed, -⟩ := mem_map.1 hentry
    obtain ⟨hmem, hne⟩ := mem_filter.1 htrimmed
    obtain ⟨piece, hpiece, rfl⟩ := mem_map.1 hmem
    have hspace : ¬ ∀ c ∈ piece, isEcmaSpace c = true := fun hall =>
      absurd (ecmaTrim_eq_nil_iff.2 hall) (by simpa using hne)
    push Not at hspace
    obtain ⟨c, hc, hspace⟩ := hspace
    obtain ⟨hvalue, hcomma⟩ := exists_mem_splitOn.1 ⟨piece, hpiece, hc⟩
    exact ⟨c, hvalue, hcomma, Bool.eq_false_iff.2 hspace⟩
  · rintro ⟨c, hc, hcomma, hspace⟩ hnil
    obtain ⟨piece, hpiece, hmem⟩ := exists_mem_splitOn.2 ⟨hc, hcomma⟩
    have hne : ecmaTrim piece ≠ [] := fun htrim => by
      rw [ecmaTrim_eq_nil_iff.1 htrim c hmem] at hspace
      cases hspace
    have hentry : String.ofList (ecmaTrim piece) ∈
        (((value.toList.splitOn ',').map ecmaTrim).filter (· ≠ [])).map String.ofList :=
      mem_map_of_mem (mem_filter.2 ⟨mem_map_of_mem hpiece, by simpa using hne⟩)
    rw [hnil] at hentry
    cases hentry

lemma platformAllowlist_intercalate {entries : List String} (hne : entries ≠ [])
    (h : ∀ entry ∈ entries, entry.toList ≠ [] ∧ ∀ c ∈ entry.toList, c ≠ ',' ∧ isEcmaSpace c = false) :
    platformAllowlist (",".intercalate entries) = entries := by
  have hsplit : (",".intercalate entries).toList.splitOn ',' = entries.map String.toList := by
    rw [String.toList_intercalate]
    refine splitOn_intercalate ',' (fun l hl hmem => ?_) (by simpa using hne)
    obtain ⟨entry, hentry, rfl⟩ := mem_map.1 hl
    exact ((h entry hentry).2 ',' hmem).1 rfl
  have htrim : (entries.map String.toList).map ecmaTrim = entries.map String.toList := by
    refine (map_congr_left fun l hl => ?_).trans (map_id _)
    obtain ⟨entry, hentry, rfl⟩ := mem_map.1 hl
    exact ecmaTrim_eq_self fun c hc => ((h entry hentry).2 c hc).2
  have hkeep : (entries.map String.toList).filter (· ≠ []) = entries.map String.toList := by
    refine filter_eq_self.2 fun l hl => ?_
    obtain ⟨entry, hentry, rfl⟩ := mem_map.1 hl
    simpa using (h entry hentry).1
  unfold platformAllowlist
  rw [hsplit, htrim, hkeep, map_map]
  exact map_id'' (fun entry => String.ofList_toList) entries

/-! ## The variables of a connect -/

/-- The variables that the console supplies. -/
def suppliedVars : List String :=
  ["NODE_ENV", "OIDC_REDIRECT_URI", "MODULE_CONTENT_CACHE_DIR", "ALLOWED_ORIGINS"]

/-- A connect takes the list over as the recipe has it, and no variable is new but the supplied ones. -/
lemma cloudModeVars_eq_ok {recipe vars : Vars} {redirectURI : String}
    (h : cloudModeVars checks recipe redirectURI contentCacheDir = .ok vars) :
    vars.get? "DEPLOYMENT_ALLOWLIST" = recipe.get? "DEPLOYMENT_ALLOWLIST" ∧
      ∀ name ∈ vars.keys, name ∈ recipe.keys ∨ name ∈ suppliedVars := by
  unfold cloudModeVars at h
  obtain ⟨-, h⟩ := Refusal.not_of_ok h
  obtain ⟨-, h⟩ := Refusal.not_of_ok h
  obtain ⟨-, h⟩ := Refusal.not_of_ok h
  dsimp only at h
  split at h
  · obtain ⟨-, h⟩ := Refusal.not_of_ok h
    split at h
    · cases h
    · obtain ⟨-, h⟩ := Refusal.not_of_ok h
      obtain ⟨-, h⟩ := Refusal.not_of_ok h
      obtain ⟨-, h⟩ := Refusal.not_of_ok h
      cases h
      constructor
      · rw [get?_filterKeys]
        simp [get?_set, get?_filterKeys, acceptedRecipeVars]
      · intro name hname
        rw [keys_filterKeys] at hname
        have hmem := mem_of_mem_filter hname
        simp only [mem_keys_set, keys_filterKeys, mem_filter] at hmem
        unfold suppliedVars
        grind
  · cases h

lemma isVar_of_supplied : ∀ name ∈ "MODULE_KG_VERSION" :: suppliedVars, IsVar name "" := by
  have hname : ∀ name : String, (name.toList ≠ [] ∧ (name.toList.all fun c => !isSpace c) = true ∧
      ¬ ['#'] <+: name.toList ∧ '=' ∉ name.toList) → IsVar name "" := fun name h =>
    ⟨h.1, trimmed_of_all h.2.1, h.2.2.1, h.2.2.2, fun hmem => absurd (all_eq_true.1 h.2.1 _ hmem) (by decide),
      trimmed_of_all (by decide), by decide⟩
  intro name hmem
  apply hname name
  unfold suppliedVars at hmem
  simp only [mem_cons, not_mem_nil, or_false] at hmem
  rcases hmem with rfl | rfl | rfl | rfl | rfl <;> decide

lemma isVar_pinKnowledgeGraph {vars : Vars} {list : Option KgVersionList} (h : ∀ name ∈ vars.keys, IsVar name "") :
    ∀ name ∈ (pinKnowledgeGraph vars list).keys, IsVar name "" := by
  intro name hname
  unfold pinKnowledgeGraph at hname
  split at hname
  · rcases mem_keys_set.1 hname with rfl | hname
    · exact isVar_of_supplied _ (.head _)
    · exact h name hname
  · refine h name (mem_keys_iff.2 ?_)
    rw [mem_keys_iff, get?_erase] at hname
    split_ifs at hname
    · cases hname
    · exact hname

/-- The list in the file that a connect writes is the one of its recipe. -/
lemma cloudApplyText_eq_some {recipe : Text} {redirectURI : String} {file : Option Text}
    {list : Option KgVersionList} {text : Text}
    (h : cloudApplyText checks contentCacheDir recipe redirectURI file list = some text) :
    ∃ pasted after, parseRecipe recipe = .ok pasted ∧ parseRecipe text = .ok after ∧
      after.value "DEPLOYMENT_ALLOWLIST" = pasted.value "DEPLOYMENT_ALLOWLIST" := by
  obtain ⟨vars, hvars, htext⟩ := Option.bind_eq_some_iff.1 h
  have hvars := eq_ok_of_toOption hvars
  unfold cloudApplyVars at hvars
  obtain ⟨-, hvars⟩ := Refusal.not_of_ok hvars
  obtain ⟨-, hvars⟩ := Refusal.not_of_ok hvars
  obtain ⟨pasted, hpasted, hvars⟩ := exists_of_bind_ok hvars
  have hpasted := eq_ok_of_mapError hpasted
  obtain ⟨hlist, hkeys⟩ := cloudModeVars_eq_ok (eq_ok_of_mapError hvars)
  have hreadable := isReadable_parseRecipe hpasted
  have hnames : ∀ name ∈ vars.keys, IsVar name "" := by
    intro name hname
    rcases hkeys name hname with hname | hname
    · obtain ⟨value, hvalue⟩ := Option.isSome_iff_exists.1 (mem_keys_iff.1 hname)
      exact (hreadable _ (mem_entries_iff.2 hvalue)).isVar_nil
    · exact isVar_of_supplied name (.tail _ hname)
  -- asking for the version leaves the list alone
  have hwritten : ∃ written : Vars, serialize written = some text ∧ (∀ name ∈ written.keys, IsVar name "") ∧
      written.get? "DEPLOYMENT_ALLOWLIST" = pasted.get? "DEPLOYMENT_ALLOWLIST" := by
    split_ifs at htext
    · exact ⟨vars, htext, hnames, hlist⟩
    · refine ⟨_, htext, isVar_pinKnowledgeGraph hnames, Eq.trans ?_ hlist⟩
      unfold pinKnowledgeGraph
      split
      · rw [get?_set, if_neg (by decide)]
      · rw [get?_erase, if_neg (by decide)]
  obtain ⟨written, hwritten, hnames, hlist⟩ := hwritten
  obtain ⟨after, hafter, hget⟩ := parseRecipe_serialize_cut hnames hwritten
  refine ⟨pasted, after, hpasted, hafter, ?_⟩
  unfold Vars.value
  rw [hget, hlist]
  cases hvalue : pasted.get? "DEPLOYMENT_ALLOWLIST" with
  | none => rfl
  | some value =>
    rw [Option.map_some, readValue_eq_self (hreadable _ (mem_entries_iff.2 hvalue)).value_trimmed]

/-- White space of ECMAScript is white space of Go, but for the byte order mark. -/
lemma isSpace_of_isEcmaSpace {c : Char} (h : isEcmaSpace c = true) : isSpace c = true ∨ c = '\uFEFF' := by
  rcases Bool.or_eq_true_iff.1 h with h | h
  · have hlist : ∀ n ∈ [0x09, 0x0a, 0x0b, 0x0c, 0x0d, 0x20, 0xa0, 0x1680, 0x2028, 0x2029, 0x202f, 0x205f, 0x3000,
        0xfeff], n ∈ [0x09, 0x0a, 0x0b, 0x0c, 0x0d, 0x20, 0x85, 0xa0, 0x1680, 0x2028, 0x2029, 0x202f, 0x205f,
        0x3000] ∨ n = 0xfeff := by decide
    rcases hlist _ (contains_iff_mem.1 h) with hspace | hmark
    · exact .inl (Bool.or_eq_true_iff.2 (.inl (contains_iff_mem.2 hspace)))
    · exact .inr (Char.toNat_inj.1 hmark)
  · exact .inl (Bool.or_eq_true_iff.2 (.inr h))

/-- Who is let in after a write. A connect leaves somebody if and only if its recipe names somebody, and an
allowlist apply leaves the entries that were submitted. -/
theorem platformAllowlist_of_write (hprint : checks.isPrint '\uFEFF' = false) :
    (∀ contentCacheDir recipe redirectURI file list text,
      cloudApplyText checks contentCacheDir recipe redirectURI file list = some text →
        ∃ pasted after, parseRecipe recipe = .ok pasted ∧ parseRecipe text = .ok after ∧
          (allowlistEmpty after = false ↔ NamesSomeone (pasted.value "DEPLOYMENT_ALLOWLIST"))) ∧
    ∀ allowlist sub file text, cloudAllowlistText checks allowlist sub file = some text →
      ∃ before after, cloudModeFile file = some before ∧ parseRecipe text = .ok after ∧
        allowlistEmpty after = false ∧
        (platformAllowlist (after.value "DEPLOYMENT_ALLOWLIST")).Nodup ∧
        (∀ entry, entry ∈ platformAllowlist (after.value "DEPLOYMENT_ALLOWLIST") ↔ entry ∈ submittedEntries allowlist) ∧
        sub ∈ platformAllowlist (after.value "DEPLOYMENT_ALLOWLIST") ∧
        ∀ other ≠ "DEPLOYMENT_ALLOWLIST", after.get? other = before.get? other := by
  constructor
  · intro contentCacheDir recipe redirectURI file list text h
    obtain ⟨pasted, after, hpasted, hafter, hvalue⟩ := cloudApplyText_eq_some h
    refine ⟨pasted, after, hpasted, hafter, ?_⟩
    rw [← hvalue, ← platformAllowlist_ne_nil_iff, allowlistEmpty]
    simp
  · intro allowlist sub file text h
    obtain ⟨vars, hvars, htext⟩ := Option.bind_eq_some_iff.1 h
    obtain ⟨before, hbefore, rfl, hne, hchars, hsub⟩ := cloudAllowlistVars_eq_ok (eq_ok_of_toOption hvars)
    obtain ⟨after, hafter, hvalue, hother⟩ := onlyChanged_of_serialize hbefore
      (isVar_of_forall isVar_DEPLOYMENT_ALLOWLIST (not_isSpace_of_parseAllowlist allowlist)) htext
    have hlist : platformAllowlist (after.value "DEPLOYMENT_ALLOWLIST") = parseAllowlist allowlist := by
      rw [Vars.value, hvalue]
      refine platformAllowlist_intercalate hne fun entry hentry => ?_
      obtain ⟨hentryne, hsep⟩ := not_separator_of_parseAllowlist hentry
      refine ⟨hentryne, fun c hc => ⟨(hsep c hc).1, Bool.eq_false_iff.2 fun hspace => ?_⟩⟩
      rcases isSpace_of_isEcmaSpace hspace with hgo | rfl
      · rw [(hsep c hc).2] at hgo
        cases hgo
      · -- the check of the route refuses the byte order mark
        rw [hchars entry hentry _ hc] at hprint
        cases hprint
    refine ⟨before, after, hbefore, hafter, ?_, ?_, fun entry => ?_, ?_, hother⟩
    · rw [allowlistEmpty, hlist]
      simpa using hne
    · rw [hlist, parseAllowlist]
      exact (perm_insertionSort _ _).nodup_iff.2 (nodup_dedup _)
    · rw [hlist, parseAllowlist, mem_insertionSort, mem_dedup, submittedEntries]
    · rw [hlist]
      exact hsub

/-- A recipe of the portal, with the access list that it has. -/
def recipeAdmitting (allowlist : String) : Text :=
  [("OIDC_ISSUER", "https://id.example"), ("OIDC_JWKS_URI", "https://id.example/jwks"), ("OIDC_CLIENT_ID", "one"),
    ("OIDC_AUDIENCE", "app"), ("OIDC_SCOPE", "openid"), ("OIDC_DOMAIN", "id.example"), ("OIDC_SHARED_POOL", "true"),
    ("PORTAL_ORIGIN", "https://portal.example"), ("MODULE_CONTENT_BASE_URL", "https://content.example"),
    ("DEPLOYMENT_ALLOWLIST", allowlist)].flatMap fun p => varLine p ++ ['\n']

/-- What a connect with the recipe writes where no file was. -/
def writtenAdmitting (allowlist : String) : Option Text :=
  cloudApplyText sampleChecks "/cache" (recipeAdmitting allowlist) "https://localhost:8443/callback" none none

theorem writtenAdmitting_allowlist :
    ∃ text text' after after', writtenAdmitting "ada, bob" = some text ∧
      cloudAllowlistText sampleChecks "eve\nada eve" "ada" (some text) = some text' ∧
      parseRecipe text = .ok after ∧ allowlistEmpty after = false ∧ parseRecipe text' = .ok after' ∧
      "eve" ∈ platformAllowlist (after'.value "DEPLOYMENT_ALLOWLIST") ∧
      "ada" ∈ platformAllowlist (after'.value "DEPLOYMENT_ALLOWLIST") := by
  have hrun : ((writtenAdmitting "ada, bob").bind fun text =>
      cloudAllowlistText sampleChecks "eve\nada eve" "ada" (some text)).isSome = true := by decide +kernel
  obtain ⟨text', hrun⟩ := Option.isSome_iff_exists.1 hrun
  obtain ⟨text, htext, htext'⟩ := Option.bind_eq_some_iff.1 hrun
  obtain ⟨hconnect, happly⟩ := @platformAllowlist_of_write sampleChecks (by decide)
  obtain ⟨pasted, after, hpasted, hafter, hnames⟩ := hconnect _ _ _ _ _ _ htext
  obtain ⟨-, after', -, hafter', -, -, hentries, hsub, -⟩ := happly _ _ _ _ htext'
  have hlist : ((parseRecipe (recipeAdmitting "ada, bob")).toOption.map (·.value "DEPLOYMENT_ALLOWLIST")) =
      some "ada, bob" := by decide +kernel
  rw [hpasted] at hlist
  have hvalue : pasted.value "DEPLOYMENT_ALLOWLIST" = "ada, bob" := Option.some.inj hlist
  refine ⟨text, text', after, after', htext, htext', hafter, hnames.2 ?_, hafter', (hentries _).2 (by decide), hsub⟩
  rw [hvalue]
  exact ⟨'a', by decide, by decide, by decide⟩

/-- A recipe with nothing but a comma for its access list is applied, and nobody is on the platform's list. -/
theorem writtenAdmitting_comma :
    ∃ text after, writtenAdmitting "," = some text ∧ parseRecipe text = .ok after ∧ allowlistEmpty after = true := by
  have hrun : ((writtenAdmitting ",").any fun text => (parseRecipe text).toOption.any allowlistEmpty) = true := by
    decide +kernel
  obtain ⟨text, htext, hread⟩ := (Option.any_eq_true _ _).1 hrun
  obtain ⟨after, hafter, hempty⟩ := (Option.any_eq_true _ _).1 hread
  exact ⟨text, after, htext, eq_ok_of_toOption hafter, hempty⟩

end Console
