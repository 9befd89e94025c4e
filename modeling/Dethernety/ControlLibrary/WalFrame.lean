import Dethernety.ControlLibrary.WalConvergence

/-!
# The frame of an id rewrite

A greenfield rewrite replaces the temp id wherever it occurs in the text of the model files. The
references in these files are JSON string literals, so this file relates the text to its literals:
since an id has neither quotes nor backslashes, the rewrite acts on each literal separately
(`stringLiterals_substitute`). A reference to another control is therefore kept exactly when the
rewritten id does not occur inside it.
-/

open List Option

namespace ControlLibrary.Wal

open Substitution Replay

/-! ## String literals of a JSON text -/

/-- The scan behind `stringLiterals`: `some body` inside a literal of which `body` has been read.
A backslash takes the next character along. -/
def literalsFrom : Option Text → Text → List Text
  | _, [] => []
  | none, '"' :: text => literalsFrom (some []) text
  | none, _ :: text => literalsFrom none text
  | some body, '\\' :: c :: text => literalsFrom (some (body ++ ['\\', c])) text
  | some body, '"' :: text => body :: literalsFrom none text
  | some body, c :: text => literalsFrom (some (body ++ [c])) text

/-- The string literals of a JSON text in order, as they are spelled between their quotes. -/
def stringLiterals (text : Text) : List Text :=
  literalsFrom none text

section

/-- The two characters that matter to the scan. -/
def IsDelimiter (c : Char) : Prop :=
  c = '"' ∨ c = '\\'

instance : DecidablePred IsDelimiter := fun c =>
  inferInstanceAs (Decidable (c = '"' ∨ c = '\\'))

/-- No quotes and no backslashes. -/
def IsPlain (text : Text) : Prop :=
  ∀ c ∈ text, ¬ IsDelimiter c

variable {t s p text rest body : Text} {c : Char}

lemma IsPlain.tail (h : IsPlain (c :: text)) : IsPlain text :=
  fun a ha => h a (.tail _ ha)

lemma IsPlain.ne_quote (h : IsPlain (c :: text)) : c ≠ '"' :=
  fun hc => h c (.head _) (.inl hc)

lemma IsPlain.ne_backslash (h : IsPlain (c :: text)) : c ≠ '\\' :=
  fun hc => h c (.head _) (.inr hc)

@[simp]
lemma literalsFrom_nil (state : Option Text) : literalsFrom state [] = [] := by
  cases state <;> rfl

lemma literalsFrom_none_cons (h : c ≠ '"') : literalsFrom none (c :: text) = literalsFrom none text := by
  rw [literalsFrom]
  exact h

lemma literalsFrom_some_cons (hquote : c ≠ '"') (hback : c ≠ '\\') :
    literalsFrom (some body) (c :: text) = literalsFrom (some (body ++ [c])) text := by
  rw [literalsFrom]
  · rintro d text' rfl
    exact absurd rfl hback
  · exact hquote

lemma literalsFrom_none_append (h : IsPlain p) : literalsFrom none (p ++ rest) = literalsFrom none rest := by
  induction p with
  | nil => rfl
  | cons c p ih => rw [cons_append, literalsFrom_none_cons h.ne_quote, ih h.tail]

lemma literalsFrom_some_append (h : IsPlain p) :
    literalsFrom (some body) (p ++ rest) = literalsFrom (some (body ++ p)) rest := by
  induction p generalizing body with
  | nil => simp
  | cons c p ih =>
    rw [cons_append, literalsFrom_some_cons h.ne_quote h.ne_backslash, ih h.tail,
      append_assoc, singleton_append]

lemma literalsFrom_escape_append (h : IsPlain p) (hne : p ≠ []) :
    literalsFrom (some body) ('\\' :: (p ++ rest)) =
      literalsFrom (some (body ++ '\\' :: p)) rest := by
  obtain ⟨c, p, rfl⟩ := exists_cons_of_ne_nil hne
  rw [cons_append, literalsFrom, literalsFrom_some_append h.tail]
  simp

lemma exists_plain_append (text : Text) :
    ∃ p rest, text = p ++ rest ∧ IsPlain p ∧
      (rest = [] ∨ ∃ c rest', rest = c :: rest' ∧ IsDelimiter c) := by
  induction text with
  | nil => exact ⟨[], [], rfl, by simp [IsPlain], .inl rfl⟩
  | cons a text ih =>
    by_cases ha : IsDelimiter a
    · exact ⟨[], a :: text, rfl, by simp [IsPlain], .inr ⟨a, text, rfl, ha⟩⟩
    · obtain ⟨p, rest, rfl, hp, hrest⟩ := ih
      refine ⟨a :: p, rest, rfl, ?_, hrest⟩
      intro c hc
      rcases mem_cons.mp hc with rfl | hc
      · exact ha
      · exact hp c hc

lemma IsPlain.substitute (hp : IsPlain p) (ht : t ≠ []) (hs : IsPlain s) : IsPlain (substitute t s p) := by
  intro c hc
  rcases mem_substitute ht hc with h | h
  · exact hs c h
  · exact hp c h

lemma IsPlain.notMem (ht : IsPlain t) (hc : IsDelimiter c) : c ∉ t :=
  fun hmem => ht c hmem hc

lemma substitute_cons_delimiter (hne : t ≠ []) (ht : IsPlain t) (hc : IsDelimiter c) :
    substitute t s (c :: rest) = c :: substitute t s rest := by
  have h : substitute t s ([] ++ c :: rest) = substitute t s [] ++ c :: substitute t s rest :=
    substitute_append_cons hne (ht.notMem hc)
  simpa [hne] using h

lemma substitute_append_delimiter (hne : t ≠ []) (ht : IsPlain t)
    (hrest : rest = [] ∨ ∃ c rest', rest = c :: rest' ∧ IsDelimiter c) :
    substitute t s (p ++ rest) = substitute t s p ++ substitute t s rest := by
  rcases hrest with rfl | ⟨c, rest', rfl, hc⟩
  · simp [hne]
  · rw [substitute_append_cons hne (ht.notMem hc), substitute_cons_delimiter hne ht hc]

/-- The scan of a rewritten text. Inside a literal the statement is about the ends of blocks, where
a rewrite of the body and of the text that follows cannot meet. -/
lemma literalsFrom_substitute (hne : t ≠ []) (ht : IsPlain t) (hnes : s ≠ []) (hs : IsPlain s) (text : Text) :
    literalsFrom none (substitute t s text) = (literalsFrom none text).map (substitute t s) ∧
      ∀ body, (text = [] ∨ ∃ c rest, text = c :: rest ∧ IsDelimiter c) →
        literalsFrom (some (substitute t s body)) (substitute t s text) =
          (literalsFrom (some body) text).map (substitute t s) := by
  induction hn : text.length using Nat.strong_induction_on generalizing text with
  | _ n ih =>
    -- both parts follow the first delimiter and the block after it
    have hdelim : ∀ c rest, (c :: rest).length ≤ n → IsDelimiter c →
        literalsFrom none (substitute t s (c :: rest)) =
          (literalsFrom none (c :: rest)).map (substitute t s) ∧
        ∀ body, literalsFrom (some (substitute t s body)) (substitute t s (c :: rest)) =
          (literalsFrom (some body) (c :: rest)).map (substitute t s) := by
      intro c rest hlen hc
      obtain ⟨p, rest, rfl, hp, hrest⟩ := exists_plain_append rest
      have hshort : rest.length < n := by simp at hlen; omega
      obtain ⟨ihout, ihin⟩ := ih rest.length hshort rest rfl
      have hsp : IsPlain (substitute t s p) := hp.substitute hne hs
      have hjoin : ∀ body, substitute t s (body ++ '\\' :: p) =
          substitute t s body ++ '\\' :: substitute t s p := fun body =>
        substitute_append_cons hne (ht.notMem (.inr rfl))
      rw [substitute_cons_delimiter hne ht hc, substitute_append_delimiter hne ht hrest]
      rcases hc with rfl | rfl
      · refine ⟨?_, fun body => ?_⟩
        · rw [literalsFrom, literalsFrom, literalsFrom_some_append hsp, literalsFrom_some_append hp]
          simpa using ihin p hrest
        · rw [literalsFrom, literalsFrom, literalsFrom_none_append hsp,
            literalsFrom_none_append hp, ihout, map_cons]
      · refine ⟨?_, fun body => ?_⟩
        · rw [literalsFrom_none_cons (by decide), literalsFrom_none_cons (by decide),
            literalsFrom_none_append hsp, literalsFrom_none_append hp, ihout]
        · by_cases hpne : p = []
          · subst hpne
            rcases hrest with rfl | ⟨c, rest, rfl, hc⟩
            · simp [hne, literalsFrom]
            · -- the backslash escapes the next delimiter
              obtain ⟨q, rest, rfl, hq, hrest⟩ := exists_plain_append rest
              have hshort' : rest.length < n := by simp at hshort; omega
              have hin := (ih rest.length hshort' rest rfl).2 (body ++ '\\' :: c :: q) hrest
              have hjoin' : substitute t s (body ++ '\\' :: c :: q) =
                  substitute t s body ++ '\\' :: c :: substitute t s q := by
                rw [substitute_append_cons hne (ht.notMem (.inr rfl)),
                  substitute_cons_delimiter hne ht hc]
              rw [substitute_cons_delimiter hne ht hc, substitute_append_delimiter hne ht hrest,
                substitute_nil hne, nil_append, nil_append, literalsFrom, literalsFrom,
                literalsFrom_some_append (hq.substitute hne hs), literalsFrom_some_append hq]
              rw [hjoin'] at hin
              simpa using hin
          · have hspne : substitute t s p ≠ [] := fun h =>
              hpne ((substitute_eq_nil_iff hne hnes).mp h)
            rw [literalsFrom_escape_append hsp hspne, literalsFrom_escape_append hp hpne,
              ← hjoin, ihin _ hrest]
    refine ⟨?_, ?_⟩
    · obtain ⟨p, rest, rfl, hp, hrest⟩ := exists_plain_append text
      rw [substitute_append_delimiter hne ht hrest,
        literalsFrom_none_append (hp.substitute hne hs), literalsFrom_none_append hp]
      rcases hrest with rfl | ⟨c, rest, rfl, hc⟩
      · simp [hne]
      · exact (hdelim c rest (by simp at hn; simp; omega) hc).1
    · rintro body (rfl | ⟨c, rest, rfl, hc⟩)
      · simp [hne]
      · exact (hdelim c rest hn.le hc).2 body

/-- Rewriting an id rewrites each literal. -/
theorem stringLiterals_substitute (hne : t ≠ []) (ht : IsPlain t) (hnes : s ≠ []) (hs : IsPlain s) (text : Text) :
    stringLiterals (substitute t s text) = (stringLiterals text).map (substitute t s) :=
  (literalsFrom_substitute hne ht hnes hs text).1

lemma SafeControlId.isPlain (h : SafeControlId t) : IsPlain t := by
  rintro c hc (rfl | rfl)
  all_goals exact h.notMem (by decide) hc

end

/-! ## The rewrite of one control -/

variable {t s u : Text} {d : Dir} {modelDir : Text}

/-- The files a greenfield rewrite leaves, whether or not its rename succeeds. -/
def afterGreenfieldRewrite (modelDir t s : Text) (d : Dir) : Dir :=
  (perform exec (applyGreenfieldRewrite modelDir (greenfieldRewrite t s)) d).1

lemma replaceIdInFile_apply (ht : t ≠ []) (d : Dir) (p q : Text) :
    replaceIdInFile d p t s q = if q = p then (d p).map (substitute t s) else d q := by
  cases hc : d p with
  | none =>
    by_cases hq : q = p
    all_goals simp [replaceIdInFile, hc, hq]
  | some content =>
    by_cases hin : t <:+: content
    · by_cases hq : q = p
      all_goals simp [replaceIdInFile, hc, hin, hq, writeFile]
    · by_cases hq : q = p
      · simp [replaceIdInFile, hc, hin, hq, substitute_eq_self ht hin]
      · simp [replaceIdInFile, hc, hin, hq]

lemma exists_perform_replaceIdInFile (ht : t ≠ []) {paths : List Text} (hnodup : paths.Nodup)
    (d : Dir) :
    ∃ d', perform exec (paths.map (.replaceIdInFile · t s)) d = (d', none) ∧
      ∀ q, d' q = if q ∈ paths then (d q).map (substitute t s) else d q := by
  induction paths generalizing d with
  | nil => exact ⟨d, rfl, by simp⟩
  | cons p paths ih =>
    obtain ⟨hp, hnodup⟩ := nodup_cons.mp hnodup
    obtain ⟨d', hrun, hd'⟩ := ih hnodup (replaceIdInFile d p t s)
    refine ⟨d', by simpa [perform, exec] using hrun, ?_⟩
    intro q
    rw [hd' q, replaceIdInFile_apply ht]
    by_cases hq : q = p
    · subst hq
      simp [hp]
    · simp [hq]

lemma perform_greenfieldRewrite (ht : SafeControlId t) (hs : SafeControlId s) (d : Dir) :
    perform exec (applyGreenfieldRewrite modelDir (greenfieldRewrite t s)) d =
      perform exec ((modelFiles ++ [controlFilePath t]).map (.replaceIdInFile · t s) ++
        [.renameControlFile modelDir (greenfieldRewrite t s)]) d := by
  rw [applyGreenfieldRewrite, append_assoc]
  refine perform_append (perform_of_settled fun f hf => WalStep.settled_of_done ?_) _
  simp only [mem_append, mem_mapIdx, mem_cons, not_mem_nil, or_false] at hf
  rcases hf with ⟨i, hi, rfl⟩ | rfl | rfl
  · have hmem : (greenfieldRewrite t s).filePaths[i] ∈ modelFiles ++ [controlFilePath t] :=
      getElem_mem hi
    rcases mem_append.mp hmem with h | h
    · exact assertSafeRelPath_modelFiles _ h
    · rw [mem_singleton.mp h]
      exact assertSafeRelPath_controlFilePath _ ht
  · exact assertSafeRelPath_controlFilePath _ ht
  · exact assertSafeRelPath_controlFilePath _ hs

lemma afterGreenfieldRewrite_modelFile (ht : SafeControlId t) (hs : SafeControlId s) {p : Text}
    (hp : p ∈ modelFiles) : afterGreenfieldRewrite modelDir t s d p = (d p).map (substitute t s) := by
  have hnodup : (modelFiles ++ [controlFilePath t]).Nodup := by
    refine nodup_append.mpr ⟨by decide, by simp, ?_⟩
    rintro a ha b hb rfl
    exact controlFilePath_notMem_modelFiles t (mem_singleton.mp hb ▸ ha)
  obtain ⟨d', hrun, hd'⟩ := exists_perform_replaceIdInFile (s := s) ht.1 hnodup d
  have hne : ∀ id, controlFilePath id ≠ p := fun id h =>
    controlFilePath_notMem_modelFiles id (h ▸ hp)
  have hkeep : (perform exec [.renameControlFile modelDir (greenfieldRewrite t s)] d').1 p = d' p := by
    cases hexec : exec (.renameControlFile modelDir (greenfieldRewrite t s)) d' with
    | error e => simp [perform, hexec]
    | ok d'' =>
      simp only [perform, hexec]
      rcases WalStep.exec_cases hexec p with h | ⟨_, _, _, h, _⟩ | ⟨h, _⟩ | ⟨h, _, _⟩
      · exact h
      · cases h
      · exact absurd (some.inj h) (hne t)
      · exact absurd (some.inj h) (hne s)
  rw [afterGreenfieldRewrite, perform_greenfieldRewrite ht hs, perform_append hrun, hkeep, hd']
  simp [hp]

/-- References to `u` survive the rewrite of `t` to `s`, references to `t` become `s`, and no other
reference becomes `s`: the literals of the model files before and after, position by position. -/
def KeepsReferences (t s u : Text) (d d' : Dir) : Prop :=
  ∀ p ∈ modelFiles, ∀ before after, d p = some before → d' p = some after →
    (stringLiterals before).length = (stringLiterals after).length ∧
    ∀ (i : ℕ) x y, (stringLiterals before)[i]? = some x → (stringLiterals after)[i]? = some y →
      (x = u → y = u) ∧ (x = t → y = s) ∧ (y = s → x = t ∨ x = s)

/-- Some model file refers to `u`. -/
def RefersTo (d : Dir) (u : Text) : Prop :=
  ∃ p ∈ modelFiles, ∃ content, d p = some content ∧ u ∈ stringLiterals content

lemma IsGreenfieldTempId.mem_g (h : IsGreenfieldTempId t) : 'g' ∈ t :=
  h.subset (by decide)

lemma IsUuid.notMem_g (h : IsUuid s) : 'g' ∉ s := by
  intro hmem
  exact absurd (h.2 'g' hmem) (by decide)

lemma substitute_ne_self (ht : SafeControlId t) (htemp : IsGreenfieldTempId t) (hs : IsUuid s)
    (h : t <:+: u) : substitute t s u ≠ u := by
  intro heq
  have hlt := count_substitute_lt ht.1 hs.notMem_g htemp.mem_g h
  rw [heq] at hlt
  omega

/-- The rewrite of `t` keeps the references to another id `u` exactly when `t` does not occur
inside `u`, or there are no references to `u`. -/
theorem keepsReferences_iff (ht : SafeControlId t) (htemp : IsGreenfieldTempId t) (hs : IsUuid s) :
    KeepsReferences t s u d (afterGreenfieldRewrite modelDir t s d) ↔
      ¬ t <:+: u ∨ ¬ RefersTo d u := by
  have hsafe := hs.safeControlId
  have hlit := stringLiterals_substitute ht.1 ht.isPlain hsafe.1 hsafe.isPlain
  constructor
  · intro hkeep
    by_contra hcond
    rw [not_or, not_not, not_not] at hcond
    obtain ⟨hin, p, hp, content, hc, hu⟩ := hcond
    obtain ⟨i, hi⟩ := mem_iff_getElem?.mp hu
    have hafter : afterGreenfieldRewrite modelDir t s d p = some (substitute t s content) := by
      rw [afterGreenfieldRewrite_modelFile ht hsafe hp, hc, map_some]
    have hi' : (stringLiterals (substitute t s content))[i]? = some (substitute t s u) := by
      rw [hlit, getElem?_map, hi, map_some]
    exact substitute_ne_self ht htemp hs hin
      (((hkeep p hp content _ hc hafter).2 i u _ hi hi').1 rfl)
  · intro hcond p hp before after hbefore hafter
    rw [afterGreenfieldRewrite_modelFile ht hsafe hp, hbefore, map_some] at hafter
    cases hafter
    rw [hlit, length_map]
    refine ⟨rfl, ?_⟩
    intro i x y hx hy
    rw [getElem?_map, hx, map_some] at hy
    cases hy
    refine ⟨?_, ?_, ?_⟩
    · rintro rfl
      rcases hcond with hin | hnone
      · exact substitute_eq_self ht.1 hin
      · exact absurd ⟨p, hp, before, hbefore, mem_iff_getElem?.mpr ⟨i, hx⟩⟩ hnone
    · rintro rfl
      exact substitute_self ht.1
    · intro heq
      by_cases hin : t <:+: x
      · exact .inl (eq_of_substitute_eq ht.1 hsafe.1 hin heq)
      · exact .inr ((substitute_eq_self ht.1 hin).symm.trans heq)

/-- A model that refers to three controls, the id of one a prefix of another's. -/
def referencesExample : Dir :=
  (modelDirOf [("structure.json",
    "[\"greenfield-1\",\"greenfield-12\",\"greenfield-2\"]")] []).files

/-- Ids of which neither occurs in the other do not disturb each other. -/
theorem keepsReferences_unrelated :
    KeepsReferences "greenfield-2".toList "0a000000-0000-4000-8000-000000000000".toList
      "greenfield-12".toList referencesExample
      (afterGreenfieldRewrite "model".toList "greenfield-2".toList
        "0a000000-0000-4000-8000-000000000000".toList referencesExample) :=
  (keepsReferences_iff (by decide +kernel) (by decide +kernel) (by decide +kernel)).mpr
    (.inl (by decide +kernel))

/-- Pushing `greenfield-1` turns the reference to `greenfield-12` into an id of no control. -/
theorem rewrite_breaks_longer_id :
    IsGreenfieldTempId "greenfield-1".toList ∧ IsGreenfieldTempId "greenfield-12".toList ∧
      ¬ KeepsReferences "greenfield-1".toList "0a000000-0000-4000-8000-000000000000".toList
        "greenfield-12".toList referencesExample
        (afterGreenfieldRewrite "model".toList "greenfield-1".toList
          "0a000000-0000-4000-8000-000000000000".toList referencesExample) := by
  refine ⟨by decide +kernel, by decide +kernel, ?_⟩
  intro h
  have hfile := h "structure.json".toList (by decide +kernel)
    "[\"greenfield-1\",\"greenfield-12\",\"greenfield-2\"]".toList
    ("[\"0a000000-0000-4000-8000-000000000000\"," ++
      "\"0a000000-0000-4000-8000-0000000000002\",\"greenfield-2\"]").toList
    (by decide +kernel) (by decide +kernel)
  have hkept := (hfile.2 1 "greenfield-12".toList
    "0a000000-0000-4000-8000-0000000000002".toList (by decide +kernel) (by decide +kernel)).1 rfl
  revert hkept
  decide +kernel

end ControlLibrary.Wal
