import Dethernety.ControlLibrary.Wal

/-!
# Convergence of journal replays

A run of `applyPendingRewrites` may be cut after any atomic step and is then started again from
the first operation. Whether this converges is decided by the text rewrites: `split(old).join(new)`
can put an id together across the edge of an inserted `new`, and the next replay then finds it
there. `SeamFreeRun` says that no rewrite of the uninterrupted run does so for an id that has been
rewritten in the same file; under it every sequence of cut and finished runs ends in the files of
the uninterrupted run.

The argument is about single steps. Every step is `Done` once it has been executed
(`WalStep.done_of_exec`), and no later step undoes it (`WalStep.Done.exec`): targets of an
operation are never removed, other control files are never created, and rewritten ids stay away.
-/

open List
open Except (ok)
open Option (some)

namespace ControlLibrary.Wal

open Substitution Replay

/-! ## Paths -/

section

variable {id : Text}

lemma controlFilePath_injective : Function.Injective controlFilePath := by
  intro a b h
  exact append_cancel_left (append_cancel_right h)

lemma head?_controlFilePath (id : Text) : (controlFilePath id).head? = some 'c' := by
  have hfolder : "controls/".toList = 'c' :: "ontrols/".toList := by decide
  rw [controlFilePath_eq, hfolder]
  simp only [cons_append, head?_cons]

lemma controlFilePath_notMem_modelFiles (id : Text) : controlFilePath id ∉ modelFiles := by
  intro h
  have hhead : ∀ p ∈ modelFiles, p.head? ≠ some 'c' := by decide
  exact hhead _ h (head?_controlFilePath id)

lemma mem_controlFilePath {id : Text} {c : Char} (h : c ∈ controlFilePath id) :
    c ∈ "controls/".toList ∨ c ∈ id ∨ c ∈ ".json".toList := by
  rwa [controlFilePath_eq, mem_append, mem_append, or_assoc] at h

/-- The test of `assertSafeRelPath`, with the segments replaced by a sufficient condition. -/
lemma assertSafeRelPath_eq_ok {relPath : Text} (fieldName : String) (hne : relPath ≠ [])
    (hnull : '\x00' ∉ relPath) (hback : '\\' ∉ relPath) (habs : ¬ ['/'] <+: relPath)
    (hdots : relPath.count '.' ≤ 1) : assertSafeRelPath relPath fieldName = .ok () := by
  have hseg : ['.', '.'] ∉ split ['/'] relPath := by
    intro h
    have hle := (infix_of_mem_split (by simp) h).sublist.count_le '.'
    have : List.count '.' ['.', '.'] = 2 := by decide
    omega
  simp [assertSafeRelPath, hne, hnull, hback, habs, hseg]

lemma assertSafeRelPath_modelFiles {relPath : Text} (fieldName : String)
    (h : relPath ∈ modelFiles) : assertSafeRelPath relPath fieldName = .ok () := by
  simp only [modelFiles, mem_cons, not_mem_nil, or_false] at h
  rcases h with rfl | rfl | rfl <;>
    exact assertSafeRelPath_eq_ok fieldName (by decide) (by decide) (by decide) (by decide)
      (by decide)

lemma SafeControlId.notMem (h : SafeControlId id) {c : Char} (hc : ¬ (c.isAlphanum ∨ c = '_' ∨ c = '-')) : c ∉ id :=
  fun hmem => hc (h.2 c hmem)

lemma assertSafeRelPath_controlFilePath (fieldName : String) (h : SafeControlId id) :
    assertSafeRelPath (controlFilePath id) fieldName = .ok () := by
  have hnull : '\x00' ∉ id := h.notMem (by decide)
  have hback : '\\' ∉ id := h.notMem (by decide)
  have hdot : '.' ∉ id := h.notMem (by decide)
  have hhead := head?_controlFilePath id
  refine assertSafeRelPath_eq_ok fieldName ?_ ?_ ?_ ?_ ?_
  · intro hnil
    simp [hnil] at hhead
  · intro hmem
    rcases mem_controlFilePath hmem with h | h | h
    · exact absurd h (by decide)
    · exact hnull h
    · exact absurd h (by decide)
  · intro hmem
    rcases mem_controlFilePath hmem with h | h | h
    · exact absurd h (by decide)
    · exact hback h
    · exact absurd h (by decide)
  · rintro ⟨r, hr⟩
    simp [← hr] at hhead
  · have hfolder : "controls/".toList.count '.' = 0 := by decide
    have hext : ".json".toList.count '.' = 1 := by decide
    rw [controlFilePath_eq, count_append, count_append, hfolder, hext,
      count_eq_zero_of_not_mem hdot]

lemma IsHexDigit.isAlphanum {c : Char} (h : IsHexDigit c) : c.isAlphanum := by
  rcases h with h | h | h
  · show (c.isAlpha || c.isDigit) = true
    rw [h, Bool.or_true]
  · have hlower : c.isLower = true := by
      show (c.val ≥ 'a'.val && c.val ≤ 'z'.val) = true
      have hfz : 'f' ≤ 'z' := by decide
      rw [Bool.and_eq_true]
      exact ⟨decide_eq_true h.1, decide_eq_true (Char.le_trans h.2 hfz)⟩
    show ((c.isUpper || c.isLower) || c.isDigit) = true
    rw [hlower, Bool.or_true, Bool.true_or]
  · have hupper : c.isUpper = true := by
      have hFZ : 'F' ≤ 'Z' := by decide
      exact decide_eq_true ⟨h.1, Char.le_trans h.2 hFZ⟩
    show ((c.isUpper || c.isLower) || c.isDigit) = true
    rw [hupper, Bool.true_or, Bool.true_or]

lemma IsUuid.safeControlId (h : IsUuid id) : SafeControlId id := by
  refine ⟨?_, ?_⟩
  · rintro rfl
    have := h.1
    revert this
    decide
  · intro c hc
    rcases h.2 c hc with rfl | hhex
    · exact .inr (.inr rfl)
    · exact .inl hhex.isAlphanum

end

/-! ## Single steps -/

namespace WalStep

/-- What a step leaves behind, by the source's own test for "already done". -/
def Done : WalStep → Dir → Prop
  | assertSafeRelPath relPath fieldName, _ => Wal.assertSafeRelPath relPath fieldName = .ok ()
  | replaceIdInFile filePath oldId _, d =>
    ∀ content, d filePath = some content → ¬ oldId <:+: content
  | renameControlFile _ op, d => d op.fromPath = none
  | writeIfAbsent path _, d => (d path).isSome
  | unlinkIfPresent path, d => d path = none

/-- The control file that a step creates. -/
def target : WalStep → Option Text
  | renameControlFile _ op => some op.toPath
  | writeIfAbsent path _ => some path
  | _ => none

/-- The control file that a step takes away. -/
def source : WalStep → Option Text
  | renameControlFile _ op => some op.fromPath
  | unlinkIfPresent path => some path
  | _ => none

/-- The step creates files only at targets `T` of the journal, and rewrites and removes files only
elsewhere; none of the old ids `O` of the journal occurs in an id it inserts. -/
def Within (T O : Text → Prop) : WalStep → Prop
  | assertSafeRelPath relPath fieldName => Wal.assertSafeRelPath relPath fieldName = .ok ()
  | replaceIdInFile filePath oldId newId =>
    ¬ T filePath ∧ O oldId ∧ oldId ≠ [] ∧ ∀ id, O id → ¬ id <:+: newId
  | renameControlFile _ op => ¬ T op.fromPath ∧ T op.toPath
  | writeIfAbsent path _ => T path
  | unlinkIfPresent path => ¬ T path

/-- The ids that `done` has rewritten in a file. -/
def rewrittenIn (filePath : Text) (done : List WalStep) : List Text :=
  done.filterMap fun
    | replaceIdInFile path oldId _ => if path = filePath then some oldId else none
    | _ => none

/-- The rewrite puts together no id that has been rewritten in the same file, nor the one it is
rewriting. -/
def SeamFree (done : List WalStep) : WalStep → Dir → Prop
  | replaceIdInFile filePath oldId newId, d =>
    ∀ content ∈ d filePath, ∀ id ∈ oldId :: rewrittenIn filePath done,
      Substitution.SeamFree id newId (split oldId content)
  | _, _ => True

instance (done : List WalStep) : (f : WalStep) → (d : Dir) → Decidable (f.SeamFree done d)
  | replaceIdInFile filePath oldId newId, d => inferInstanceAs (Decidable
      (∀ content ∈ d filePath, ∀ id ∈ oldId :: rewrittenIn filePath done,
        Substitution.SeamFree id newId (split oldId content)))
  | assertSafeRelPath _ _, _ => isTrue trivial
  | renameControlFile _ _, _ => isTrue trivial
  | writeIfAbsent _ _, _ => isTrue trivial
  | unlinkIfPresent _, _ => isTrue trivial

lemma mem_rewrittenIn {filePath oldId newId : Text} {done : List WalStep}
    (h : replaceIdInFile filePath oldId newId ∈ done) : oldId ∈ rewrittenIn filePath done :=
  mem_filterMap.mpr ⟨_, h, by simp⟩

variable {T O : Text → Prop} {f g : WalStep} {d d' : Dir} {p : Text}

lemma settled_of_done (h : f.Done d) : Settled exec f d := by
  cases f with
  | assertSafeRelPath relPath fieldName =>
    have h : Wal.assertSafeRelPath relPath fieldName = .ok () := h
    simp [Settled, exec, h, Except.map]
  | replaceIdInFile filePath oldId newId =>
    cases hc : d filePath with
    | none => simp [Settled, exec, Wal.replaceIdInFile, hc]
    | some content =>
      have hno : ¬ oldId <:+: content := h content hc
      simp [Settled, exec, Wal.replaceIdInFile, hc, hno]
  | renameControlFile modelDir op =>
    have h : d op.fromPath = none := h
    simp [Settled, exec, Wal.renameControlFile, h]
  | writeIfAbsent path content =>
    have h : (d path).isSome := h
    simp [Settled, exec, h]
  | unlinkIfPresent path =>
    have h : d path = none := h
    simp [Settled, exec, h]

/-- What a step can do to one file. -/
lemma exec_cases (hexec : exec f d = .ok d') (p : Text) : d' p = d p ∨
    (∃ oldId newId content, f = replaceIdInFile p oldId newId ∧ d p = some content ∧
      oldId <:+: content ∧ d' p = some (substitute oldId newId content)) ∨ (f.source = some p ∧ d' p = none) ∨
    (f.target = some p ∧ d p = none ∧ (d' p).isSome) := by
  cases f with
  | assertSafeRelPath relPath fieldName =>
    cases hsafe : Wal.assertSafeRelPath relPath fieldName with
    | error e => simp [exec, hsafe, Except.map] at hexec
    | ok =>
      simp only [exec, hsafe, Except.map, ok.injEq] at hexec
      exact .inl (by rw [hexec])
  | replaceIdInFile filePath oldId newId =>
    obtain rfl : Wal.replaceIdInFile d filePath oldId newId = d' := ok.inj hexec
    cases hc : d filePath with
    | none => exact .inl (by simp [Wal.replaceIdInFile, hc])
    | some content =>
      by_cases hin : oldId <:+: content
      · by_cases hp : p = filePath
        · subst hp
          exact .inr (.inl ⟨oldId, newId, content, rfl, hc, hin,
            by simp [Wal.replaceIdInFile, hc, hin, writeFile]⟩)
        · exact .inl (by simp [Wal.replaceIdInFile, hc, hin, writeFile, hp])
      · exact .inl (by simp [Wal.replaceIdInFile, hc, hin])
  | renameControlFile modelDir op =>
    cases hfrom : d op.fromPath with
    | none =>
      simp only [exec, Wal.renameControlFile, hfrom, ok.injEq] at hexec
      exact .inl (by rw [hexec])
    | some content =>
      cases hto : d op.toPath with
      | some => simp [exec, Wal.renameControlFile, hfrom, hto] at hexec
      | none =>
        simp only [exec, Wal.renameControlFile, hfrom, hto, ok.injEq] at hexec
        subst hexec
        by_cases hpto : p = op.toPath
        · subst hpto
          exact .inr (.inr (.inr ⟨rfl, hto, by simp [writeFile]⟩))
        · by_cases hpfrom : p = op.fromPath
          · subst hpfrom
            exact .inr (.inr (.inl ⟨rfl, by simp [writeFile, unlink, hpto]⟩))
          · exact .inl (by simp [writeFile, unlink, hpto, hpfrom])
  | writeIfAbsent path content =>
    cases hpath : d path with
    | some =>
      simp only [exec, hpath, Option.isSome_some, if_true, ok.injEq] at hexec
      exact .inl (by rw [hexec])
    | none =>
      simp only [exec, hpath, Option.isSome_none, Bool.false_eq_true, if_false,
        ok.injEq] at hexec
      subst hexec
      by_cases hp : p = path
      · subst hp
        exact .inr (.inr (.inr ⟨rfl, hpath, by simp [writeFile]⟩))
      · exact .inl (by simp [writeFile, hp])
  | unlinkIfPresent path =>
    obtain rfl : (if (d path).isSome then unlink d path else d) = d' := ok.inj hexec
    by_cases hsome : (d path).isSome
    · by_cases hp : p = path
      · subst hp
        exact .inr (.inr (.inl ⟨rfl, by simp [unlink, hsome]⟩))
      · exact .inl (by simp [unlink, hsome, hp])
    · exact .inl (by simp [hsome])

lemma Within.not_source (hf : f.Within T O) (h : f.source = some p) : ¬ T p := by
  cases f with
  | renameControlFile modelDir op =>
    obtain rfl : op.fromPath = p := some.inj h
    exact hf.1
  | unlinkIfPresent path =>
    obtain rfl : path = p := some.inj h
    exact hf
  | _ => cases h

lemma Within.target (hf : f.Within T O) (h : f.target = some p) : T p := by
  cases f with
  | renameControlFile modelDir op =>
    obtain rfl : op.toPath = p := some.inj h
    exact hf.2
  | writeIfAbsent path content =>
    obtain rfl : path = p := some.inj h
    exact hf
  | _ => cases h

lemma isSome_of_exec (hexec : exec f d = .ok d') (hp : f.source ≠ some p) (h : (d p).isSome) : (d' p).isSome := by
  rcases exec_cases hexec p with heq | ⟨_, _, _, _, _, _, heq⟩ | ⟨hsource, _⟩ | ⟨_, _, hsome⟩
  · rw [heq]
    exact h
  · simp [heq]
  · exact absurd hsource hp
  · exact hsome

lemma eq_none_of_exec (hf : f.Within T O) (hexec : exec f d = .ok d') (hp : ¬ T p)
    (h : d p = none) : d' p = none := by
  rcases exec_cases hexec p with heq | ⟨_, _, _, _, hc, _, _⟩ | ⟨_, hnone⟩ | ⟨htarget, _, _⟩
  · rw [heq]
    exact h
  · cases h.symm.trans hc
  · exact hnone
  · exact absurd (hf.target htarget) hp

/-- No step undoes an earlier one. -/
theorem Done.exec {done : List WalStep} (hg : g.Done d) (hgT : g.Within T O) (hmem : g ∈ done)
    (hfT : f.Within T O) (hseam : f.SeamFree done d) (hexec : exec f d = .ok d') : g.Done d' := by
  cases g with
  | assertSafeRelPath => exact hg
  | renameControlFile => exact eq_none_of_exec hfT hexec hgT.1 hg
  | unlinkIfPresent path => exact eq_none_of_exec hfT hexec hgT hg
  | writeIfAbsent =>
    exact isSome_of_exec hexec (fun h => hfT.not_source h hgT) hg
  | replaceIdInFile filePath oldId newId =>
    intro content' hc'
    rcases exec_cases hexec filePath with
      heq | ⟨o, n, content, rfl, hc, _, heq⟩ | ⟨_, hnone⟩ | ⟨htarget, _, _⟩
    · exact hg content' (heq ▸ hc')
    · cases heq.symm.trans hc'
      have hfree : Substitution.SeamFree oldId n (split o content) :=
        hseam content hc oldId (.tail _ (mem_rewrittenIn hmem))
      obtain ⟨-, -, hne, hforeign⟩ := hfT
      exact fun h => hg content hc (infix_of_infix_substitute hne hfree (hforeign oldId hgT.2.1) h)
    · cases hnone.symm.trans hc'
    · exact absurd (hfT.target htarget) hgT.1

/-- An executed step has nothing left to do. -/
theorem done_of_exec {done : List WalStep} (hfT : f.Within T O) (hseam : f.SeamFree done d)
    (hexec : exec f d = .ok d') : f.Done d' := by
  cases f with
  | assertSafeRelPath => exact hfT
  | renameControlFile modelDir op =>
    cases hfrom : d op.fromPath with
    | none =>
      simp only [Wal.exec, Wal.renameControlFile, hfrom, ok.injEq] at hexec
      exact hexec ▸ hfrom
    | some content =>
      cases hto : d op.toPath with
      | some => simp [Wal.exec, Wal.renameControlFile, hfrom, hto] at hexec
      | none =>
        have hne : op.fromPath ≠ op.toPath := fun heq => hfT.1 (heq ▸ hfT.2)
        simp only [Wal.exec, Wal.renameControlFile, hfrom, hto, ok.injEq] at hexec
        simp [Done, ← hexec, writeFile, unlink, hne]
  | writeIfAbsent path content =>
    cases hexec
    by_cases hsome : (d path).isSome
    · simp [Done, hsome]
    · simp [Done, hsome, writeFile]
  | unlinkIfPresent path =>
    cases hexec
    cases hpath : d path with
    | some => simp [Done, unlink]
    | none => simp [Done, hpath]
  | replaceIdInFile filePath oldId newId =>
    obtain ⟨-, hO, hne, hforeign⟩ := hfT
    cases hexec
    intro content' hc'
    cases hc : d filePath with
    | none => simp [Wal.replaceIdInFile, hc] at hc'
    | some content =>
      by_cases hin : oldId <:+: content
      · have hfree : Substitution.SeamFree oldId newId (split oldId content) :=
          hseam content hc oldId (.head _)
        obtain rfl : substitute oldId newId content = content' := by
          simpa [Wal.replaceIdInFile, hc, hin, writeFile] using hc'
        exact not_infix_substitute hne hfree (hforeign oldId hO)
      · obtain rfl : content = content' := by simpa [Wal.replaceIdInFile, hc, hin] using hc'
        exact hin

lemma exists_exec_eq_ok (hfT : f.Within T O)
    (hfree : ∀ modelDir op, f = renameControlFile modelDir op → d op.toPath = none) : ∃ d', exec f d = .ok d' := by
  cases f with
  | assertSafeRelPath relPath fieldName =>
    have hsafe : Wal.assertSafeRelPath relPath fieldName = .ok () := hfT
    exact ⟨d, by simp [Wal.exec, hsafe, Except.map]⟩
  | renameControlFile modelDir op =>
    have hto := hfree modelDir op rfl
    cases hfrom : d op.fromPath with
    | none => exact ⟨d, by simp [Wal.exec, Wal.renameControlFile, hfrom]⟩
    | some content =>
      exact ⟨writeFile (unlink d op.fromPath) op.toPath content,
        by simp only [Wal.exec, Wal.renameControlFile, hfrom, hto]⟩
  | _ => exact ⟨_, rfl⟩

lemma isSome_target_of_exec {modelDir : Text} {op : GreenfieldIdRewriteOp}
    (hexec : exec (renameControlFile modelDir op) d = .ok d') (h : (d op.fromPath).isSome) : (d' op.toPath).isSome := by
  obtain ⟨content, hfrom⟩ := Option.isSome_iff_exists.mp h
  cases hto : d op.toPath with
  | some => simp [Wal.exec, Wal.renameControlFile, hfrom, hto] at hexec
  | none =>
    simp only [Wal.exec, Wal.renameControlFile, hfrom, hto, ok.injEq] at hexec
    simp [← hexec, writeFile]

end WalStep

/-! ## Runs of steps -/

section

variable {T O : Text → Prop} {d₀ d : Dir} {done steps : List WalStep}

/-- Every rewrite of the uninterrupted run from `d` is seam-free with respect to the ids
rewritten before it in the same file. -/
def SeamFreeRun : List WalStep → List WalStep → Dir → Prop
  | _, [], _ => True
  | done, f :: todo, d =>
    f.SeamFree done d ∧
      match exec f d with
      | .ok d' => SeamFreeRun (done ++ [f]) todo d'
      | .error _ => True

instance SeamFreeRun.decidable :
    (done todo : List WalStep) → (d : Dir) → Decidable (SeamFreeRun done todo d)
  | _, [], _ => isTrue trivial
  | done, f :: todo, d =>
    haveI : Decidable (match exec f d with
        | .ok d' => SeamFreeRun (done ++ [f]) todo d'
        | .error _ => True) :=
      match exec f d with
      | .ok d' => SeamFreeRun.decidable (done ++ [f]) todo d'
      | .error _ => isTrue trivial
    inferInstanceAs (Decidable (f.SeamFree done d ∧
      match exec f d with
      | .ok d' => SeamFreeRun (done ++ [f]) todo d'
      | .error _ => True))

lemma SeamFreeRun.step {todo : List WalStep} {f : WalStep} {pre : List WalStep}
    (h : SeamFreeRun pre (done ++ f :: todo) d₀) (hrun : perform exec done d₀ = (d, none)) :
    f.SeamFree (pre ++ done) d := by
  induction done generalizing pre d₀ with
  | nil =>
    cases hrun
    simpa using h.1
  | cons g done ih =>
    obtain ⟨-, h⟩ := h
    cases hg : exec g d₀ with
    | error e => simp [perform, hg] at hrun
    | ok d₁ =>
      simp only [hg] at h
      simp only [perform, hg] at hrun
      simpa using ih h hrun

/-- What is known of the files after the steps `done`. -/
structure Progress (T : Text → Prop) (d₀ : Dir) (done : List WalStep) (d : Dir) : Prop where
  /-- Nothing is left to do of the steps performed. -/
  finished : ∀ g ∈ done, g.Done d
  /-- A target exists only if a step has created it. -/
  created : ∀ p, T p → (d p).isSome → ∃ g ∈ done, g.target = some p
  /-- A file disappears only if a step has taken it away. -/
  kept : ∀ p, (d₀ p).isSome → (∀ g ∈ done, g.source ≠ some p) → (d p).isSome
  /-- A control file that was there arrives where its first rename takes it. -/
  moved : ∀ pre modelDir op post, done = pre ++ .renameControlFile modelDir op :: post →
    (d₀ op.fromPath).isSome → (∀ g ∈ pre, g.source ≠ some op.fromPath) → (d op.toPath).isSome

lemma Progress.nil (habsent : ∀ p, T p → d₀ p = none) : Progress T d₀ [] d₀ where
  finished := by simp
  created p hp h := by simp [habsent p hp] at h
  kept p h _ := h
  moved pre modelDir op post h := by simp at h

/-- One step of the uninterrupted run. -/
theorem Progress.step {f : WalStep} {d' : Dir} (hd : Progress T d₀ done d)
    (hdone : ∀ g ∈ done, g.Within T O) (hf : f.Within T O) (hseam : f.SeamFree done d)
    (hexec : exec f d = .ok d') : Progress T d₀ (done ++ [f]) d' where
  finished := by
    intro g hg
    rcases mem_append.mp hg with hg | hg
    · exact (hd.finished g hg).exec (hdone g hg) hg hf hseam hexec
    · rw [mem_singleton.mp hg]
      exact WalStep.done_of_exec hf hseam hexec
  created := by
    intro p hp hsome
    by_cases hbefore : (d p).isSome
    · obtain ⟨g, hg, hgp⟩ := hd.created p hp hbefore
      exact ⟨g, mem_append_left _ hg, hgp⟩
    · refine ⟨f, mem_append_right _ (mem_singleton.mpr rfl), ?_⟩
      have hnone : d p = none := by simpa using hbefore
      rcases WalStep.exec_cases hexec p with
        h | ⟨_, _, _, _, h, _⟩ | ⟨_, h⟩ | ⟨h, _, _⟩
      · rw [h, hnone] at hsome
        cases hsome
      · rw [hnone] at h
        cases h
      · rw [h] at hsome
        cases hsome
      · exact h
  kept := by
    intro p hsome hsource
    have hbefore := hd.kept p hsome fun g hg => hsource g (mem_append_left _ hg)
    exact WalStep.isSome_of_exec hexec
      (hsource f (mem_append_right _ (mem_singleton.mpr rfl))) hbefore
  moved := by
    intro pre modelDir op post heq hsome hpre
    rcases eq_nil_or_concat post with rfl | ⟨post, x, rfl⟩
    · obtain ⟨rfl, hf⟩ := append_inj' heq rfl
      obtain rfl := singleton_inj.mp hf
      exact WalStep.isSome_target_of_exec hexec (hd.kept _ hsome hpre)
    · have heq : done ++ [f] = (pre ++ .renameControlFile modelDir op :: post) ++ [x] := by
        simpa using heq
      obtain ⟨rfl, -⟩ := append_inj' heq rfl
      have hmem : WalStep.renameControlFile modelDir op ∈
          pre ++ .renameControlFile modelDir op :: post := by simp
      exact WalStep.isSome_of_exec hexec (fun h => hf.not_source h (hdone _ hmem).2)
        (hd.moved pre modelDir op post rfl hsome hpre)

/-- A rename comes after no other step that creates its target. -/
def FreshTarget (g f : WalStep) : Prop :=
  ∀ modelDir op, f = .renameControlFile modelDir op → g.target ≠ some op.toPath

lemma exists_checkpoint (hsteps : ∀ f ∈ steps, f.Within T O)
    (habsent : ∀ p, T p → d₀ p = none) (hfresh : steps.Pairwise FreshTarget)
    (hseam : SeamFreeRun [] steps d₀) (done : List WalStep) (hdone : done <+: steps) :
    ∃ d, Checkpoint exec d₀ done d ∧ Progress T d₀ done d := by
  refine checkpoint_of_step (Progress.nil habsent) ?_ done hdone
  rintro done f ⟨todo, rfl⟩ d hd hI
  have hmem : f ∈ done ++ [f] ++ todo := by simp
  have hsub : ∀ g ∈ done, g ∈ done ++ [f] ++ todo := fun g hg => by simp [hg]
  have hf := hsteps f hmem
  have hfree : f.SeamFree done d := by
    have h : SeamFreeRun [] (done ++ f :: todo) d₀ := by simpa using hseam
    simpa using h.step hd.reached
  have hpair : ∀ g ∈ done, FreshTarget g f := by
    rw [append_assoc, pairwise_append] at hfresh
    exact fun g hg => hfresh.2.2 g hg f (by simp)
  obtain ⟨d', hexec⟩ := WalStep.exists_exec_eq_ok (d := d) hf <| by
    intro modelDir op hop
    by_contra hne
    obtain ⟨g, hg, htarget⟩ := hI.created op.toPath (by rw [hop] at hf; exact hf.2)
      (Option.isSome_iff_ne_none.mpr hne)
    exact hpair g hg modelDir op hop htarget
  have hI' := hI.step (fun g hg => hsteps g (hsub g hg)) hf hfree hexec
  refine ⟨d', hexec, ?_, fun g hg => ?_, hI'⟩
  · exact WalStep.settled_of_done (hI'.finished f (by simp))
  · exact WalStep.settled_of_done (hI'.finished g (by simp [hg]))

end

/-! ## Journals -/

/-- A journal of operations that the engine builds: the new ids are UUIDs in which no old id of
the journal occurs, and no control file has been created under them yet. -/
structure EngineJournal (d₀ : Dir) (ops : List PendingOperation) : Prop where
  engineBuilt : ∀ op ∈ ops, op.EngineBuilt
  newId_isUuid : ∀ op ∈ ops, IsUuid op.newId
  oldId_foreign : ∀ op ∈ ops, ∀ op' ∈ ops, ¬ op'.oldId <:+: op.newId
  target_absent : ∀ op ∈ ops, d₀ (controlFilePath op.newId) = none

/-- The journal has been carried out: no rewritten file holds the old id, and the control file
is at its new path and not at its old one. -/
structure CarriedOut (ops : List PendingOperation) (d₀ d : Dir) : Prop where
  oldId_gone : ∀ op ∈ ops, ∀ p ∈ op.filePaths, ∀ content, d p = some content →
    ¬ op.oldId <:+: content
  oldPath_absent : ∀ op ∈ ops, d (controlFilePath op.oldId) = none
  /-- A rename finds the control file if it was there and no earlier operation took it. -/
  newPath_present : ∀ pre op post, ops = pre ++ op :: post →
    (op.IsGreenfield → (d₀ (controlFilePath op.oldId)).isSome ∧ ∀ op' ∈ pre, op'.oldId ≠ op.oldId) →
    (d (controlFilePath op.newId)).isSome

/-- The control files that the journal creates. -/
def IsTarget (ops : List PendingOperation) (p : Text) : Prop :=
  ∃ op ∈ ops, p = controlFilePath op.newId

/-- The ids that the journal retires. -/
def IsOldId (ops : List PendingOperation) (id : Text) : Prop :=
  ∃ op ∈ ops, id = op.oldId

section

variable {d₀ : Dir} {ops : List PendingOperation} {op : PendingOperation} {f : WalStep}
  {modelDir p : Text}

lemma PendingOperation.EngineBuilt.safeControlId (h : op.EngineBuilt) : SafeControlId op.oldId := by
  cases op with
  | greenfieldIdRewrite op | cloneAndSwap op => exact h.2.1

lemma PendingOperation.EngineBuilt.mem_filePaths (h : op.EngineBuilt) (hp : p ∈ op.filePaths) :
    p ∈ modelFiles ∨ p = controlFilePath op.oldId := by
  cases op with
  | greenfieldIdRewrite op =>
    have heq : op.filePaths = modelFiles ++ [controlFilePath op.tempId] := by rw [h.1]; rfl
    simpa [PendingOperation.filePaths, PendingOperation.oldId, heq] using hp
  | cloneAndSwap op => exact .inl (h.2.2 hp)

lemma PendingOperation.EngineBuilt.mem_steps (h : op.EngineBuilt) (hf : f ∈ op.steps modelDir) :
    (∃ p fieldName, f = .assertSafeRelPath p fieldName ∧
      (p ∈ op.filePaths ∨ p = controlFilePath op.oldId ∨ p = controlFilePath op.newId)) ∨
    (∃ p ∈ op.filePaths, f = .replaceIdInFile p op.oldId op.newId) ∨
    (∃ g, op = .greenfieldIdRewrite g ∧ f = .renameControlFile modelDir g ∧
      g.fromPath = controlFilePath op.oldId ∧ g.toPath = controlFilePath op.newId) ∨
    (∃ content, f = .writeIfAbsent (controlFilePath op.newId) content) ∨
    f = .unlinkIfPresent (controlFilePath op.oldId) := by
  cases op with
  | greenfieldIdRewrite g =>
    have hfrom : g.fromPath = controlFilePath g.tempId := by rw [h.1]; rfl
    have hto : g.toPath = controlFilePath g.serverId := by rw [h.1]; rfl
    simp only [PendingOperation.steps, applyGreenfieldRewrite, mem_append, mem_mapIdx,
      mem_map, mem_cons, not_mem_nil, or_false] at hf
    rcases hf with ((⟨i, hi, rfl⟩ | rfl | rfl) | ⟨p, hp, rfl⟩) | rfl
    · exact .inl ⟨_, _, rfl, .inl (getElem_mem hi)⟩
    · exact .inl ⟨_, _, rfl, .inr (.inl hfrom)⟩
    · exact .inl ⟨_, _, rfl, .inr (.inr hto)⟩
    · exact .inr (.inl ⟨p, hp, rfl⟩)
    · exact .inr (.inr (.inl ⟨g, rfl, rfl, hfrom, hto⟩))
  | cloneAndSwap c =>
    have hwrite : c.controlFileWrite = controlFilePath c.newId := by rw [h.1]; rfl
    have hdelete : c.controlFileDelete = controlFilePath c.oldId := by rw [h.1]; rfl
    simp only [PendingOperation.steps, applyCloneAndSwap, mem_append, mem_mapIdx,
      mem_map, mem_cons, not_mem_nil, or_false] at hf
    rcases hf with ((⟨i, hi, rfl⟩ | rfl | rfl) | ⟨p, hp, rfl⟩) | rfl | rfl
    · exact .inl ⟨_, _, rfl, .inl (getElem_mem hi)⟩
    · exact .inl ⟨_, _, rfl, .inr (.inr hwrite)⟩
    · exact .inl ⟨_, _, rfl, .inr (.inl hdelete)⟩
    · exact .inr (.inl ⟨p, hp, rfl⟩)
    · exact .inr (.inr (.inr (.inl ⟨_, by rw [hwrite]; rfl⟩)))
    · exact .inr (.inr (.inr (.inr (by rw [hdelete]; rfl))))

lemma EngineJournal.not_isTarget_of_oldId (h : EngineJournal d₀ ops) (hop : op ∈ ops) :
    ¬ IsTarget ops (controlFilePath op.oldId) := by
  rintro ⟨op', hop', heq⟩
  have hid : op.oldId = op'.newId := controlFilePath_injective heq
  exact h.oldId_foreign op' hop' op hop (hid ▸ infix_rfl)

lemma EngineJournal.not_isTarget_of_mem_filePaths (h : EngineJournal d₀ ops) (hop : op ∈ ops)
    (hp : p ∈ op.filePaths) : ¬ IsTarget ops p := by
  rcases (h.engineBuilt op hop).mem_filePaths hp with hmodel | rfl
  · rintro ⟨op', _, rfl⟩
    exact controlFilePath_notMem_modelFiles _ hmodel
  · exact h.not_isTarget_of_oldId hop

lemma EngineJournal.within (h : EngineJournal d₀ ops) (hop : op ∈ ops)
    (hf : f ∈ op.steps modelDir) : f.Within (IsTarget ops) (IsOldId ops) := by
  have hbuilt := h.engineBuilt op hop
  have hold := hbuilt.safeControlId
  have hnew := (h.newId_isUuid op hop).safeControlId
  rcases hbuilt.mem_steps hf with ⟨p, fieldName, rfl, hp⟩ | ⟨p, hp, rfl⟩ | ⟨g, -, rfl, hfrom, hto⟩ |
    ⟨content, rfl⟩ | rfl
  · have hsafe : (p ∈ modelFiles) ∨ p = controlFilePath op.oldId ∨ p = controlFilePath op.newId := by
      rcases hp with hp | hp | hp
      · exact (hbuilt.mem_filePaths hp).imp_right .inl
      · exact .inr (.inl hp)
      · exact .inr (.inr hp)
    rcases hsafe with hp | rfl | rfl
    · exact assertSafeRelPath_modelFiles fieldName hp
    · exact assertSafeRelPath_controlFilePath fieldName hold
    · exact assertSafeRelPath_controlFilePath fieldName hnew
  · refine ⟨h.not_isTarget_of_mem_filePaths hop hp, ⟨op, hop, rfl⟩, hold.1, ?_⟩
    rintro id ⟨op', hop', rfl⟩
    exact h.oldId_foreign op hop op' hop'
  · refine ⟨?_, op, hop, hto⟩
    rw [hfrom]
    exact h.not_isTarget_of_oldId hop
  · exact ⟨op, hop, rfl⟩
  · exact h.not_isTarget_of_oldId hop

lemma PendingOperation.EngineBuilt.target_eq (h : op.EngineBuilt) (hf : f ∈ op.steps modelDir)
    (hp : f.target = some p) : p = controlFilePath op.newId := by
  rcases h.mem_steps hf with ⟨_, _, rfl, _⟩ | ⟨_, _, rfl⟩ | ⟨g, -, rfl, -, hto⟩ | ⟨_, rfl⟩ | rfl
  · cases hp
  · cases hp
  · exact (some.inj hp).symm.trans hto
  · exact (some.inj hp).symm
  · cases hp

lemma PendingOperation.EngineBuilt.source_eq (h : op.EngineBuilt) (hf : f ∈ op.steps modelDir)
    (hp : f.source = some p) : p = controlFilePath op.oldId := by
  rcases h.mem_steps hf with ⟨_, _, rfl, _⟩ | ⟨_, _, rfl⟩ | ⟨g, -, rfl, hfrom, -⟩ | ⟨_, rfl⟩ | rfl
  · cases hp
  · cases hp
  · exact (some.inj hp).symm.trans hfrom
  · cases hp
  · exact (some.inj hp).symm

lemma exists_steps_greenfield (modelDir : Text) (g : GreenfieldIdRewriteOp) :
    ∃ pre, PendingOperation.steps modelDir (.greenfieldIdRewrite g) = pre ++ [.renameControlFile modelDir g] ∧
      ∀ f ∈ pre, f.target = none ∧ f.source = none := by
  refine ⟨_, rfl, ?_⟩
  intro f hf
  simp only [mem_append, mem_mapIdx, mem_map, mem_cons, not_mem_nil, or_false] at hf
  rcases hf with (⟨i, hi, rfl⟩ | rfl | rfl) | ⟨p, _, rfl⟩ <;> exact ⟨rfl, rfl⟩

/-- Renames of different operations have different targets, so the steps of the journal do. -/
lemma EngineJournal.pairwise_freshTarget (h : EngineJournal d₀ ops) (modelDir : Text)
    (hfresh : ops.Pairwise fun a b => b.IsGreenfield → a.newId ≠ b.newId) :
    (journalSteps modelDir ops).Pairwise FreshTarget := by
  refine pairwise_flatMap.mpr ⟨?_, ?_⟩
  · intro op hop
    cases op with
    | greenfieldIdRewrite g =>
      obtain ⟨pre, heq, hpre⟩ := exists_steps_greenfield modelDir g
      rw [heq]
      refine pairwise_append.mpr ⟨?_, pairwise_singleton _ _, ?_⟩
      · apply pairwise_of_forall_mem_list
        rintro a _ b hb modelDir' op rfl
        cases (hpre _ hb).1
      · intro a ha b _ modelDir' op' _
        rw [(hpre a ha).1]
        exact (Option.some_ne_none _).symm
    | cloneAndSwap c =>
      apply pairwise_of_forall_mem_list
      rintro a _ b hb modelDir' op rfl
      rcases (h.engineBuilt _ hop).mem_steps hb with
        ⟨_, _, hb, _⟩ | ⟨_, _, hb⟩ | ⟨g, hb, _⟩ | ⟨_, hb⟩ | hb <;> cases hb
  · refine List.Pairwise.imp_of_mem ?_ hfresh
    rintro a b ha hb hne x hx y hy modelDir' op rfl htarget
    rcases (h.engineBuilt b hb).mem_steps hy with
      ⟨_, _, hy, _⟩ | ⟨_, _, hy⟩ | ⟨g, rfl, hy, -, hto⟩ | ⟨_, hy⟩ | hy
    · cases hy
    · cases hy
    · obtain ⟨-, rfl⟩ := WalStep.renameControlFile.inj hy
      have heq := (h.engineBuilt a ha).target_eq hx htarget
      rw [hto] at heq
      exact hne trivial (controlFilePath_injective heq).symm
    all_goals cases hy

lemma EngineJournal.carriedOut (h : EngineJournal d₀ ops) {d : Dir}
    (hd : Progress (IsTarget ops) d₀ (journalSteps modelDir ops) d) : CarriedOut ops d₀ d where
  oldId_gone := by
    intro op hop p hp
    apply hd.finished (.replaceIdInFile p op.oldId op.newId)
    refine mem_flatMap.mpr ⟨op, hop, ?_⟩
    cases op with
    | greenfieldIdRewrite g | cloneAndSwap c =>
      exact mem_append_left _ (mem_append_right _ (mem_map_of_mem hp))
  oldPath_absent := by
    intro op hop
    cases op with
    | greenfieldIdRewrite g =>
      have hfrom : g.fromPath = controlFilePath g.tempId := by rw [(h.engineBuilt _ hop).1]; rfl
      have hdone : d g.fromPath = none := hd.finished (.renameControlFile modelDir g)
        (mem_flatMap.mpr ⟨_, hop, mem_append_right _ (mem_singleton.mpr rfl)⟩)
      exact hfrom ▸ hdone
    | cloneAndSwap c =>
      have hdelete : c.controlFileDelete = controlFilePath c.oldId := by
        rw [(h.engineBuilt _ hop).1]; rfl
      have hdone : d c.controlFileDelete = none := hd.finished (.unlinkIfPresent c.controlFileDelete)
        (mem_flatMap.mpr ⟨_, hop, mem_append_right _ (by simp)⟩)
      exact hdelete ▸ hdone
  newPath_present := by
    rintro pre op post rfl hthere
    have hop : op ∈ pre ++ op :: post := by simp
    cases op with
    | greenfieldIdRewrite g =>
      obtain ⟨hsome, hfirst⟩ := hthere trivial
      have hfrom : g.fromPath = controlFilePath g.tempId := by rw [(h.engineBuilt _ hop).1]; rfl
      have hto : g.toPath = controlFilePath g.serverId := by rw [(h.engineBuilt _ hop).1]; rfl
      obtain ⟨init, hsteps, hinit⟩ := exists_steps_greenfield modelDir g
      have heq : journalSteps modelDir (pre ++ .greenfieldIdRewrite g :: post) =
          (journalSteps modelDir pre ++ init) ++
            .renameControlFile modelDir g :: journalSteps modelDir post := by
        simp [journalSteps, hsteps]
      have hmoved := hd.moved _ modelDir g _ heq (hfrom ▸ hsome) ?_
      · exact hto ▸ hmoved
      · intro f hf hsource
        rcases mem_append.mp hf with hf | hf
        · obtain ⟨op', hop', hf⟩ := mem_flatMap.mp hf
          have hpath := (h.engineBuilt op' (by simp [hop'])).source_eq hf hsource
          rw [hfrom] at hpath
          exact hfirst op' hop' (controlFilePath_injective hpath).symm
        · rw [(hinit f hf).2] at hsource
          cases hsource
    | cloneAndSwap c =>
      have hwrite : c.controlFileWrite = controlFilePath c.newId := by
        rw [(h.engineBuilt _ hop).1]; rfl
      have hdone : (d c.controlFileWrite).isSome :=
        hd.finished (.writeIfAbsent c.controlFileWrite c.controlFileContent)
          (mem_flatMap.mpr ⟨_, hop, mem_append_right _ (by simp)⟩)
      exact hwrite ▸ hdone

end

/-! ## Attempts -/

variable {m m' : ModelDir} {ops : List PendingOperation} {d : Dir}

lemma applyPendingRewrites_of_perform (hjournal : m.journal = some ops)
    (h : perform exec (journalSteps m.path ops) m.files = (d, none)) :
    (applyPendingRewrites m).2 = .ok ops.length ∧
      (applyPendingRewrites m).1 =
        { m with files := d, journal := if ops = [] then some [] else none } := by
  cases ops with
  | nil =>
    cases h
    cases m
    cases hjournal
    exact ⟨rfl, rfl⟩
  | cons => simp [applyPendingRewrites, hjournal, h]

/-- Where the attempts on the directory `m` can have got to. -/
structure Attempted (m : ModelDir) (ops : List PendingOperation) (m' : ModelDir) : Prop where
  path : m'.path = m.path
  files : ∃ done, done <+: journalSteps m.path ops ∧ Checkpoint exec m.files done m'.files ∧
    (m'.journal = some ops ∨ m'.journal = none ∧ done = journalSteps m.path ops)

/-- The run that completes from such a state. -/
theorem Attempted.applyPendingRewrites (hm : Attempted m ops m')
    (hrep : Replayable exec (journalSteps m.path ops) m.files) :
    (∃ n, (applyPendingRewrites m').2 = .ok n) ∧ Attempted m ops (applyPendingRewrites m').1 ∧
      Checkpoint exec m.files (journalSteps m.path ops) (applyPendingRewrites m').1.files := by
  obtain ⟨done, hdone, hcheck, hjournal | ⟨hjournal, rfl⟩⟩ := hm.files
  · obtain ⟨done', d', hdone', hcheck', hrun, hfull⟩ :=
      hcheck.perform_take hrep hdone (journalSteps m.path ops).length
    obtain rfl := hfull le_rfl
    rw [take_length, ← hm.path] at hrun
    obtain ⟨hresult, hleft⟩ := applyPendingRewrites_of_perform hjournal hrun
    rw [hleft]
    refine ⟨⟨_, hresult⟩, ⟨hm.path, _, hdone', hcheck', ?_⟩, hcheck'⟩
    by_cases hnil : ops = []
    all_goals simp [hnil]
  · have hnone : Wal.applyPendingRewrites m' = (m', .ok 0) := by
      simp [Wal.applyPendingRewrites, hjournal]
    rw [hnone]
    exact ⟨⟨0, rfl⟩, hm, hcheck⟩

lemma Attempted.killedAfter (hm : Attempted m ops m')
    (hrep : Replayable exec (journalSteps m.path ops) m.files) (n : ℕ) : Attempted m ops (killedAfter n m') := by
  obtain ⟨done, hdone, hcheck, hjournal | ⟨hjournal, rfl⟩⟩ := hm.files
  · cases ops with
    | nil => simpa [Wal.killedAfter, hjournal] using hm
    | cons op ops =>
      by_cases hn : (journalSteps m'.path (op :: ops)).length < n
      · simpa [Wal.killedAfter, hjournal, hn] using (hm.applyPendingRewrites hrep).2.1
      · obtain ⟨done', d', hdone', hcheck', hrun, -⟩ := hcheck.perform_take hrep hdone n
        rw [← hm.path] at hrun
        simp only [Wal.killedAfter, hjournal, hn, if_false, hrun]
        exact ⟨hm.path, done', hdone', hcheck', .inl rfl⟩
  · simpa [Wal.killedAfter, hjournal] using hm

lemma attempted_of_reachable (hjournal : m.journal = some ops)
    (hrep : Replayable exec (journalSteps m.path ops) m.files)
    (hreach : (replaySystem m).Reachable (fun _ _ => True) m') : Attempted m ops m' := by
  refine hreach.invariant (P := Attempted m ops) ?_ ?_
  · rintro s rfl
    exact ⟨rfl, [], List.nil_prefix, ⟨rfl, by simp⟩, .inl hjournal⟩
  · intro s a s' hs _ hnext
    cases a with
    | killed n =>
      cases hnext
      exact hs.killedAfter hrep n
    | finished =>
      cases hnext
      exact (hs.applyPendingRewrites hrep).2.1

/-- However runs are cut and replayed, a run that completes does so without an error, leaves the
files of the uninterrupted run, and has carried out the journal. -/
theorem replays_converge (hjournal : m.journal = some ops) (hengine : EngineJournal m.files ops)
    (hseam : SeamFreeRun [] (journalSteps m.path ops) m.files)
    (hfresh : ops.Pairwise fun a b => b.IsGreenfield → a.newId ≠ b.newId)
    (hreach : (replaySystem m).Reachable (fun _ _ => True) m') :
    (∃ n, (applyPendingRewrites m').2 = .ok n) ∧
      (applyPendingRewrites m').1.files = (applyPendingRewrites m).1.files ∧
      CarriedOut ops m.files (applyPendingRewrites m').1.files := by
  have hwithin : ∀ f ∈ journalSteps m.path ops, f.Within (IsTarget ops) (IsOldId ops) := by
    intro f hf
    obtain ⟨op, hop, hf⟩ := mem_flatMap.mp hf
    exact hengine.within hop hf
  have habsent : ∀ p, IsTarget ops p → m.files p = none := by
    rintro p ⟨op, hop, rfl⟩
    exact hengine.target_absent op hop
  have hcheck := exists_checkpoint hwithin habsent
    (hengine.pairwise_freshTarget m.path hfresh) hseam
  have hrep : Replayable exec (journalSteps m.path ops) m.files := fun done hdone =>
    (hcheck done hdone).imp fun _ h => h.1
  obtain ⟨d, hd, hprogress⟩ := hcheck _ prefix_rfl
  have hend : ∀ s, (replaySystem m).Reachable (fun _ _ => True) s →
      (∃ n, (applyPendingRewrites s).2 = .ok n) ∧ (applyPendingRewrites s).1.files = d := by
    intro s hs
    obtain ⟨hok, -, hfiles⟩ := (attempted_of_reachable hjournal hrep hs).applyPendingRewrites hrep
    exact ⟨hok, (Prod.mk.inj (hfiles.reached.symm.trans hd.reached)).1⟩
  obtain ⟨hok, hfiles⟩ := hend m' hreach
  obtain ⟨-, hfull⟩ := hend m (.init rfl)
  exact ⟨hok, hfiles.trans hfull.symm, hfiles ▸ hengine.carriedOut hprogress⟩

/-- A model directory with the given files and journal. -/
def modelDirOf (files : List (String × String)) (ops : List PendingOperation) : ModelDir where
  path := "model".toList
  files p := (files.find? fun file => file.1.toList = p).map (·.2.toList)
  journal := some ops

/-- Two pending operations: a pushed control and a cloned one. -/
def pendingExample : List PendingOperation :=
  [.greenfieldIdRewrite
      (greenfieldRewrite "greenfield-1".toList "0a000000-0000-4000-8000-000000000000".toList),
    .cloneAndSwap (cloneAndSwap "b".toList "0c000000-0000-4000-8000-000000000000".toList
      ["structure.json".toList] "clone".toList)]

/-- A directory that refers to both controls. -/
def pendingExampleDir : ModelDir :=
  modelDirOf [("structure.json", "[\"greenfield-1\",\"b\"]"),
    ("controls/greenfield-1.json", "\"greenfield-1\""), ("controls/b.json", "\"b\"")]
    pendingExample

lemma pendingExample_engineJournal : EngineJournal pendingExampleDir.files pendingExample where
  engineBuilt := by decide +kernel
  newId_isUuid := by decide +kernel
  oldId_foreign := by decide +kernel
  target_absent := by decide +kernel

/-- The hypotheses can be met: two operations, the first run killed inside the first of them and
the second run inside the second. -/
theorem replays_converge_two_kills :
    (∃ n, (applyPendingRewrites (killedAfter 14 (killedAfter 7 pendingExampleDir))).2 = .ok n) ∧
      (applyPendingRewrites (killedAfter 14 (killedAfter 7 pendingExampleDir))).1.files =
        (applyPendingRewrites pendingExampleDir).1.files ∧
      CarriedOut pendingExample pendingExampleDir.files
        (applyPendingRewrites (killedAfter 14 (killedAfter 7 pendingExampleDir))).1.files := by
  have hreach : (replaySystem pendingExampleDir).Reachable (fun _ _ => True)
      (killedAfter 14 (killedAfter 7 pendingExampleDir)) :=
    .step (a := .killed 14) (.step (a := .killed 7) (.init rfl) trivial rfl) trivial rfl
  exact @replays_converge _ _ pendingExample rfl pendingExample_engineJournal
    (by decide +kernel) (by decide +kernel) hreach

/-- A pending operation over a text in which the old id follows its own prefix. -/
def seamExample : List PendingOperation :=
  [.greenfieldIdRewrite
    (greenfieldRewrite "greenfield-0".toList "0a000000-0000-4000-8000-000000000000".toList)]

def seamExampleDir : ModelDir :=
  modelDirOf [("structure.json", "[\"greenfield-greenfield-0\"]"),
    ("controls/greenfield-0.json", "\"greenfield-0\"")] seamExample

lemma seamExample_engineJournal : EngineJournal seamExampleDir.files seamExample where
  engineBuilt := by decide +kernel
  newId_isUuid := by decide +kernel
  oldId_foreign := by decide +kernel
  target_absent := by decide +kernel

/-- `greenfield-greenfield-0` becomes `greenfield-0a…`: the completed run leaves the old id in
`structure.json`, and a run that replays it after a crash leaves another text. -/
theorem rewrite_reassembles_old_id :
    EngineJournal seamExampleDir.files seamExample ∧
      (applyPendingRewrites seamExampleDir).2 = .ok 1 ∧
      ¬ CarriedOut seamExample seamExampleDir.files (applyPendingRewrites seamExampleDir).1.files ∧
      (applyPendingRewrites (killedAfter 7 seamExampleDir)).1.files ≠
        (applyPendingRewrites seamExampleDir).1.files := by
  refine ⟨seamExample_engineJournal, by decide +kernel, ?_, ?_⟩
  · intro h
    refine h.oldId_gone _ (.head _) "structure.json".toList (by decide +kernel)
      "[\"greenfield-0a000000-0000-4000-8000-000000000000\"]".toList ?_ ?_
    all_goals decide +kernel
  · intro h
    have hfile := congrFun h "structure.json".toList
    revert hfile
    decide +kernel

end ControlLibrary.Wal
