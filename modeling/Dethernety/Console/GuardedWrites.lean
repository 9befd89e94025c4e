import Mathlib.Data.List.Dedup
import Dethernety.Console.CloudRoutes

/-!
# What may replace the file of a connected deployment

A connect looks at the mode file before it reads the version listing and waits for the lock, and it does not look
again. While no other connect lands in between (`undisturbed`), a file that reads as cloud is replaced only by the
disconnect, by an allowlist apply and by a knowledge-graph update, each with the variables it is allowed to change
(`guarded_of_reachable`).
-/

open List Bool

namespace Console

variable {checks : Checks} {contentCacheDir : String} {s s' : State} {i : ℕ}

/-! ## Guarded writes -/

/-- One variable has another value, and the others are the same. -/
def OnlyChanged (name value : String) (before after : Vars) : Prop :=
  after.get? name = some value ∧ ∀ other ≠ name, after.get? other = before.get? other

/-- The version was the usable latest one of a listing read from the base URL. -/
def WasLatest (reads : List (String × KgVersionList)) (version base : String) : Prop :=
  ∃ list, (base, list) ∈ reads ∧ list.usableLatest = version

/-- A write over a file that reads as cloud is the disconnect's, or it changes the one variable of its route. -/
def Write.IsGuarded (reads : List (String × KgVersionList)) (w : Write) : Prop :=
  ∀ vars, cloudModeFile w.before = some vars →
    (w.route = .disconnect ∧ serialize pureOSSModeVars = some w.after) ∨
      ∃ after, parseRecipe w.after = .ok after ∧
        ((w.route = .allowlist ∧ ∃ value, OnlyChanged "DEPLOYMENT_ALLOWLIST" value vars after) ∨
          ∃ version base, w.route = .kgUpdate version base ∧ OnlyChanged "MODULE_KG_VERSION" version vars after ∧
            vars.get? "MODULE_KG_BASE_URL" = some base ∧ WasLatest reads version base)

/-! ## The connect that comes too late -/

def Route.isConnect : Route → Bool
  | .connect _ => true
  | _ => false

/-- Connect and disconnect change the posture of the deployment. -/
def Route.changesPosture (route : Route) : Bool :=
  route.isConnect || route = .disconnect

/-- Since a number of writes another connect landed, and no disconnect after it. -/
def Overtaken (log : List Write) (since : ℕ) : Bool :=
  ((log.drop since).reverse.find? (·.route.changesPosture)).any (·.route.isConnect)

/-- No connect writes after another one landed that no disconnect undid. -/
def undisturbed (s : State) : Event → Bool
  | .write i _ =>
    match s.phases.get? i with
    | some (.writing (.connect since) _) => !Overtaken s.log since
    | _ => true
  | _ => true

lemma overtaken_append {log : List Write} {w : Write} {since : ℕ} (h : since ≤ log.length) :
    Overtaken (log ++ [w]) since = if w.route.changesPosture then w.route.isConnect else Overtaken log since := by
  unfold Overtaken
  rw [drop_append_of_le_length h, reverse_append, reverse_singleton, singleton_append, find?_cons]
  split <;> simp_all

/-! ## The files of the routes -/

lemma isCloudModeFile_eq (file : Option Text) : isCloudModeFile file = (cloudModeFile file).isSome := by
  unfold isCloudModeFile modeFileIntent cloudModeFile
  cases readModeLayer file with
  | none => rfl
  | some vars =>
    by_cases hpool : "OIDC_SHARED_POOL" ∈ vars.keys
    · simp [hpool]
    · have hdropped : (some vars).filter (fun vars : Vars => "OIDC_SHARED_POOL" ∈ vars.keys) = none := by
        simp [hpool]
      rw [hdropped, Option.isSome_none, decide_eq_false_iff_not]
      simp only [if_neg hpool]
      split_ifs <;> nofun

variable {file : Option Text}

lemma isReadable_of_cloudModeFile {vars : Vars} (h : cloudModeFile file = some vars) :
    vars.IsReadable := by
  obtain ⟨hread, -⟩ := Option.filter_eq_some_iff.1 h
  obtain ⟨body, -, hbody⟩ := Option.bind_eq_some_iff.1 hread
  cases hparse : parseRecipe body with
  | error e =>
    rw [hparse] at hbody
    cases hbody
  | ok read =>
    rw [hparse] at hbody
    cases hbody
    exact isReadable_parseRecipe hparse

lemma onlyChanged_of_serialize {vars : Vars} {name value : String} {text : Text}
    (hvars : cloudModeFile file = some vars) (hvar : IsVar name value)
    (htext : serialize (vars.set name value) = some text) :
    ∃ after, parseRecipe text = .ok after ∧ OnlyChanged name value vars after := by
  obtain ⟨after, hparse, hget⟩ := parseRecipe_serialize ((isReadable_of_cloudModeFile hvars).set hvar) htext
  refine ⟨after, hparse, ?_, fun other hother => ?_⟩
  · rw [hget, Record.get?_set, if_pos rfl]
  · rw [hget, Record.get?_set, if_neg hother.symm]

lemma isCloudModeFile_pureOSS {text : Text} (h : serialize pureOSSModeVars = some text) :
    isCloudModeFile (some text) = false := by
  have htext : serialize pureOSSModeVars = some "ENABLE_NOAUTH=true\nNODE_ENV=development\n".toList := by
    decide +kernel
  cases htext.symm.trans h
  decide +kernel

lemma trimmed_of_forall {l : Text} (h : ∀ c ∈ l, isSpace c = false) : Trimmed l where
  head c hc := h c (mem_of_mem_head? hc)
  last c hc := h c (mem_of_mem_getLast? hc)

lemma trimmed_of_all {l : Text} (h : (l.all fun c => !isSpace c) = true) : Trimmed l :=
  trimmed_of_forall fun c hc => by simpa using all_eq_true.1 h c hc

lemma isVar_of_forall {name value : String} (hname : IsVar name "") (h : ∀ c ∈ value.toList, isSpace c = false) :
    IsVar name value :=
  { hname with
    value_trimmed := trimmed_of_forall h
    value_line := fun hmem => absurd (h _ hmem) (by decide) }

lemma isVar_DEPLOYMENT_ALLOWLIST : IsVar "DEPLOYMENT_ALLOWLIST" "" :=
  ⟨by decide, trimmed_of_all (by decide), by decide, by decide, by decide, trimmed_of_all (by decide), by decide⟩

lemma isVar_MODULE_KG_VERSION : IsVar "MODULE_KG_VERSION" "" :=
  ⟨by decide, trimmed_of_all (by decide), by decide, by decide, by decide, trimmed_of_all (by decide), by decide⟩

lemma isSpace_eq_false {c : Char} (h : 0x21 ≤ c.toNat) (h' : c.toNat ≤ 0x7e) : isSpace c = false := by
  have hlist : ∀ n ∈ [0x09, 0x0a, 0x0b, 0x0c, 0x0d, 0x20, 0x85, 0xa0, 0x1680, 0x2028, 0x2029, 0x202f, 0x205f,
      0x3000], n < 0x21 ∨ 0x7e < n := by decide
  refine or_eq_false_iff.2 ⟨eq_false_iff.2 fun hmem => ?_, ?_⟩
  · have := hlist _ (contains_iff_mem.1 hmem)
    omega
  · rw [and_eq_false_iff, decide_eq_false_iff_not]
    omega

lemma not_isSpace_of_pinPattern {version : String} (h : pinPattern version = true) :
    ∀ c ∈ version.toList, isSpace c = false := by
  unfold pinPattern at h
  simp only [and_eq_true, decide_eq_true_eq, all_eq_true, or_eq_true] at h
  obtain ⟨⟨hscheme, -⟩, hdigits⟩ := h
  intro c hc
  rw [← take_append_drop 7 version.toList, hscheme] at hc
  rcases mem_append.1 hc with hc | hc
  · have hcolon : ("sha256:".toList.all fun c => !isSpace c) = true := by decide
    simpa using all_eq_true.1 hcolon c hc
  · rcases hdigits c hc with ⟨hlow, hhigh⟩ | ⟨hlow, hhigh⟩
    · have hlow' : 48 ≤ c.toNat := hlow
      have hhigh' : c.toNat ≤ 57 := hhigh
      exact isSpace_eq_false (by omega) (by omega)
    · have hlow' : 97 ≤ c.toNat := hlow
      have hhigh' : c.toNat ≤ 102 := hhigh
      exact isSpace_eq_false (by omega) (by omega)

lemma not_separator_of_parseAllowlist {raw entry : String} (h : entry ∈ parseAllowlist raw) :
    entry.toList ≠ [] ∧ ∀ c ∈ entry.toList, c ≠ ',' ∧ isSpace c = false := by
  unfold parseAllowlist at h
  rw [mem_insertionSort, mem_dedup, mem_map] at h
  obtain ⟨piece, hpiece, rfl⟩ := h
  obtain ⟨hpiece, hne⟩ := mem_filter.1 hpiece
  rw [String.toList_ofList]
  refine ⟨by simpa using hne, fun c hc => ?_⟩
  simpa using eq_false_of_mem_splitOnP hpiece c hc

lemma not_isSpace_of_parseAllowlist (raw : String) :
    ∀ c ∈ (",".intercalate (parseAllowlist raw)).toList, isSpace c = false := by
  have hentries : ∀ entry ∈ parseAllowlist raw, ∀ c ∈ entry.toList, isSpace c = false :=
    fun entry hentry c hc => ((not_separator_of_parseAllowlist hentry).2 c hc).2
  generalize parseAllowlist raw = entries at hentries
  rw [String.toList_intercalate]
  induction entries with
  | nil => exact fun c hc => absurd hc not_mem_nil
  | cons entry entries ih =>
    intro c hc
    have hfirst := hentries entry (.head _)
    cases entries with
    | nil => exact hfirst c (by simpa using hc)
    | cons =>
      rw [map_cons, map_cons, intercalate_cons_cons, append_assoc, mem_append, mem_append] at hc
      rcases hc with hc | hc | hc
      · exact hfirst c hc
      · obtain rfl : c = ',' := by simpa using hc
        decide
      · exact ih (fun other hother => hentries other (mem_cons_of_mem entry hother)) c hc

/-! ## What holds between the steps -/

/-- A file that is cloud now was not when the connect looked at it: another connect landed since. -/
def SinceOk (s : State) (since : ℕ) : Prop :=
  since ≤ s.log.length ∧ (isCloudModeFile s.file = true → Overtaken s.log since = true)

/-- What is known of the variables that a request writes next. -/
def WritingOk (s : State) (vars : Vars) : Route → Prop
  | .connect since => SinceOk s since
  | .disconnect => vars = pureOSSModeVars
  | .allowlist => ∃ current value, cloudModeFile s.file = some current ∧ IsVar "DEPLOYMENT_ALLOWLIST" value ∧
      vars = current.set "DEPLOYMENT_ALLOWLIST" value
  | .kgUpdate version base => ∃ current, cloudModeFile s.file = some current ∧ IsVar "MODULE_KG_VERSION" version ∧
      vars = current.set "MODULE_KG_VERSION" version ∧ current.get? "MODULE_KG_BASE_URL" = some base ∧
      WasLatest s.reads version base

/-- What a request relies on where it is. -/
def PhaseOk (s : State) (i : ℕ) : Phase → Prop
  | .dialling _ since => SinceOk s since
  | .connecting _ since => SinceOk s since
  | .listing version base => pinPattern version = true ∧ base ≠ ""
  | .updating version base => pinPattern version = true ∧ base ≠ "" ∧ WasLatest s.reads version base
  | .writing route vars => s.lock = some i ∧ WritingOk s vars route
  | _ => True

structure Invariant (s : State) : Prop where
  phases : ∀ i phase, s.phases.get? i = some phase → PhaseOk s i phase
  guarded : ∀ w ∈ s.log, w.IsGuarded s.reads

section

variable {reads reads' : List (String × KgVersionList)}

lemma WasLatest.mono {version base : String}
    (hreads : reads ⊆ reads') (h : WasLatest reads version base) : WasLatest reads' version base := by
  obtain ⟨list, hlist, hlatest⟩ := h
  exact ⟨list, hreads hlist, hlatest⟩

lemma Write.IsGuarded.mono {w : Write} (hreads : reads ⊆ reads')
    (h : w.IsGuarded reads) : w.IsGuarded reads' := by
  intro vars hvars
  rcases h vars hvars with hdisconnect | ⟨after, hparse, hallowlist | ⟨version, base, hroute, honly, hbase, hlatest⟩⟩
  · exact .inl hdisconnect
  · exact .inr ⟨after, hparse, .inl hallowlist⟩
  · exact .inr ⟨after, hparse, .inr ⟨version, base, hroute, honly, hbase, hlatest.mono hreads⟩⟩

variable {route : Route} {mounted : Bool} {phase : Phase}

lemma PhaseOk.mono (hfile : s'.file = s.file) (hlog : s'.log = s.log)
    (hreads : s.reads ⊆ s'.reads) (hlock : s.lock = some i → s'.lock = some i) (h : PhaseOk s i phase) :
    PhaseOk s' i phase := by
  have hsince : ∀ since, SinceOk s since → SinceOk s' since := fun since h => by
    unfold SinceOk at h ⊢
    rw [hfile, hlog]
    exact h
  cases phase with
  | dialling vars since | connecting vars since => exact hsince since h
  | listing => exact h
  | updating => exact ⟨h.1, h.2.1, h.2.2.mono hreads⟩
  | writing route vars =>
    refine ⟨hlock h.1, ?_⟩
    have hok := h.2
    cases route with
    | connect since => exact hsince since hok
    | disconnect => exact hok
    | allowlist =>
      obtain ⟨current, value, hcurrent, hrest⟩ := hok
      exact ⟨current, value, by rw [hfile, hcurrent], hrest⟩
    | kgUpdate =>
      obtain ⟨current, hcurrent, hvar, hvars, hbase, hlatest⟩ := hok
      exact ⟨current, by rw [hfile, hcurrent], hvar, hvars, hbase, hlatest.mono hreads⟩
  | disconnecting | applying allowlist sub | refused refusal | done => trivial

lemma Invariant.move (h : Invariant s) (hphases : s'.phases = s.phases.set i phase)
    (hfile : s'.file = s.file) (hlog : s'.log = s.log) (hreads : s.reads ⊆ s'.reads)
    (hlock : ∀ j ≠ i, s.lock = some j → s'.lock = some j) (hphase : PhaseOk s' i phase) : Invariant s' where
  phases j other hj := by
    rw [hphases, Record.get?_set] at hj
    split_ifs at hj with hij
    · cases hj
      rw [← hij]
      exact hphase
    · exact (h.phases j other hj).mono hfile hlog hreads (hlock j (Ne.symm hij))
  guarded w hw := by
    rw [hlog] at hw
    exact (h.guarded w hw).mono hreads

lemma Invariant.goto (h : Invariant s) (hphase : PhaseOk s i phase) : Invariant (s.goto i phase) :=
  h.move rfl rfl rfl (List.Subset.refl _) (fun _ _ hj => hj) (hphase.mono rfl rfl (List.Subset.refl _) id)

lemma Invariant.answer {α : Type} {result : Except Refusal α} {phase : α → Phase} (h : Invariant s)
    (hphase : ∀ a, result = .ok a → PhaseOk s i (phase a)) : Invariant (s.answer i result phase) := by
  cases result with
  | error e => exact h.goto trivial
  | ok a => exact h.goto (hphase a rfl)

lemma Invariant.hold {vars : Vars} (h : Invariant s) (hfree : s.lock = none)
    (hok : WritingOk s vars route) : Invariant (s.hold i route vars) := by
  refine h.move rfl rfl rfl (List.Subset.refl _) (fun j _ hj => ?_) ⟨rfl, ?_⟩
  · cases hfree.symm.trans hj
  · cases route <;> exact hok

lemma Invariant.enter {result : Except Refusal (Option Vars)} (h : Invariant s)
    (hfree : s.lock = none) (hok : ∀ vars, result = .ok (some vars) → WritingOk s vars route) :
    Invariant (s.enter i route result) := by
  match result with
  | .error e | .ok none => exact h.goto trivial
  | .ok (some vars) => exact h.hold hfree (hok vars rfl)

/-! What the routes compute. -/

variable {file : Option Text} {vars : Vars} {version base : String}

lemma Refusal.not_of_ok {ε α : Type} {c : Prop} [Decidable c] {e : ε} {rest : Unit → Except ε α} {a : α}
    (h : (if c then throw e >>= rest else rest ()) = .ok a) : ¬ c ∧ rest () = .ok a := by
  split_ifs at h with hc
  · cases h
  · exact ⟨hc, h⟩

lemma cloudApplyVars_eq_ok {recipe : Text} {redirectURI : String}
    (h : cloudApplyVars checks contentCacheDir recipe redirectURI file = .ok vars) : isCloudModeFile file = false := by
  unfold cloudApplyVars at h
  exact eq_false_iff.2 (Refusal.not_of_ok h).1

lemma cloudAllowlistVars_eq_ok {allowlist sub : String}
    (h : cloudAllowlistVars checks allowlist sub file = .ok vars) :
    ∃ current, cloudModeFile file = some current ∧
      vars = current.set "DEPLOYMENT_ALLOWLIST" (",".intercalate (parseAllowlist allowlist)) ∧
      parseAllowlist allowlist ≠ [] ∧
      (∀ entry ∈ parseAllowlist allowlist, ∀ c ∈ entry.toList, checks.isPrint c = true) ∧
      sub ∈ parseAllowlist allowlist := by
  unfold cloudAllowlistVars at h
  cases hfile : cloudModeFile file with
  | none =>
    rw [hfile] at h
    cases h
  | some current =>
    rw [hfile] at h
    obtain ⟨hne, h⟩ := Refusal.not_of_ok h
    obtain ⟨-, h⟩ := Refusal.not_of_ok h
    obtain ⟨hprint, h⟩ := Refusal.not_of_ok h
    obtain ⟨-, h⟩ := Refusal.not_of_ok h
    obtain ⟨hsub, h⟩ := Refusal.not_of_ok h
    obtain ⟨-, h⟩ := Refusal.not_of_ok h
    exact ⟨current, rfl, (Except.ok.inj h).symm, hne, by simpa using hprint, by simpa using hsub⟩

lemma cloudKgUpdateBase_eq_ok (h : cloudKgUpdateBase checks version mounted file = .ok base) :
    pinPattern version = true ∧ base ≠ "" := by
  unfold cloudKgUpdateBase at h
  cases hfile : cloudModeFile file with
  | none =>
    rw [hfile] at h
    cases h
  | some current =>
    rw [hfile] at h
    obtain ⟨hversion, h⟩ := Refusal.not_of_ok h
    obtain ⟨hbase, h⟩ := Refusal.not_of_ok h
    obtain ⟨-, h⟩ := Refusal.not_of_ok h
    obtain ⟨-, h⟩ := Refusal.not_of_ok h
    rw [not_eq_true', not_eq_false] at hversion
    exact ⟨hversion, Except.ok.inj h ▸ hbase⟩

variable {list : Option KgVersionList}

lemma cloudKgUpdateListing_eq_ok {u : Unit}
    (h : cloudKgUpdateListing version list = .ok u) : ∃ l, list = some l ∧ l.usableLatest = version := by
  cases list with
  | none => cases h
  | some l =>
    unfold cloudKgUpdateListing at h
    obtain ⟨-, h⟩ := Refusal.not_of_ok h
    obtain ⟨hlatest, -⟩ := Refusal.not_of_ok h
    exact ⟨l, rfl, (not_not.1 hlatest).symm⟩

lemma cloudKgUpdateVars_eq_ok (h : cloudKgUpdateVars version base mounted file = .ok (some vars)) :
    ∃ current, cloudModeFile file = some current ∧ current.value "MODULE_KG_BASE_URL" = base ∧
      vars = current.set "MODULE_KG_VERSION" version := by
  unfold cloudKgUpdateVars at h
  cases hfile : cloudModeFile file with
  | none =>
    rw [hfile] at h
    cases h
  | some current =>
    rw [hfile] at h
    obtain ⟨hbase, h⟩ := Refusal.not_of_ok h
    obtain ⟨-, h⟩ := Refusal.not_of_ok h
    obtain ⟨-, h⟩ := Refusal.not_of_ok h
    by_cases hpinned : current.value "MODULE_KG_VERSION" = version
    · rw [if_pos hpinned] at h
      cases h
    · rw [if_neg hpinned] at h
      obtain ⟨-, h⟩ := Refusal.not_of_ok h
      exact ⟨current, rfl, not_not.1 hbase, (Option.some.inj (Except.ok.inj h)).symm⟩

lemma get?_of_value {name : String} (h : vars.value name = base) (hbase : base ≠ "") :
    vars.get? name = some base := by
  unfold Vars.value at h
  cases hget : vars.get? name with
  | none =>
    rw [hget] at h
    exact absurd h.symm hbase
  | some value =>
    rw [hget] at h
    exact congrArg some h

/-! The steps. -/

lemma isCloudModeFile_of_some (h : cloudModeFile file = some vars) : isCloudModeFile file = true := by
  rw [isCloudModeFile_eq, h]
  rfl

lemma SinceOk.write {since : ℕ} {text : Text} (h : SinceOk s since)
    (hok : WritingOk s vars route) (htext : serialize vars = some text) (hfile : s'.file = some text)
    (hlog : s'.log = s.log ++ [⟨route, s.file, text⟩]) : SinceOk s' since := by
  refine ⟨by rw [hlog, length_append]; exact h.1.trans (Nat.le_add_right _ _), fun hcloud => ?_⟩
  rw [hfile] at hcloud
  rw [hlog, overtaken_append h.1]
  cases route with
  | connect other => rfl
  | disconnect =>
    obtain rfl : vars = pureOSSModeVars := hok
    rw [isCloudModeFile_pureOSS htext] at hcloud
    cases hcloud
  | allowlist =>
    obtain ⟨current, -, hcurrent, -⟩ := hok
    exact h.2 (isCloudModeFile_of_some hcurrent)
  | kgUpdate =>
    obtain ⟨current, hcurrent, -⟩ := hok
    exact h.2 (isCloudModeFile_of_some hcurrent)

lemma WritingOk.isGuarded {text : Text} (hok : WritingOk s vars route)
    (hundisturbed : ∀ since, route = .connect since → Overtaken s.log since = false)
    (htext : serialize vars = some text) : Write.IsGuarded s.reads ⟨route, s.file, text⟩ := by
  intro before hbefore
  cases route with
  | connect since =>
    have hovertaken := hok.2 (isCloudModeFile_of_some hbefore)
    rw [hundisturbed since rfl] at hovertaken
    cases hovertaken
  | disconnect =>
    obtain rfl : vars = pureOSSModeVars := hok
    exact .inl ⟨rfl, htext⟩
  | allowlist =>
    obtain ⟨current, value, hcurrent, hvar, rfl⟩ := hok
    cases hcurrent.symm.trans hbefore
    obtain ⟨after, hparse, honly⟩ := onlyChanged_of_serialize hcurrent hvar htext
    exact .inr ⟨after, hparse, .inl ⟨rfl, value, honly⟩⟩
  | kgUpdate version base =>
    obtain ⟨current, hcurrent, hvar, rfl, hbase, hlatest⟩ := hok
    cases hcurrent.symm.trans hbefore
    obtain ⟨after, hparse, honly⟩ := onlyChanged_of_serialize hcurrent hvar htext
    exact .inr ⟨after, hparse, .inr ⟨version, base, rfl, honly, hbase, hlatest⟩⟩

lemma Invariant.write (h : Invariant s) (hphase : s.phases.get? i = some (.writing route vars))
    (hundisturbed : ∀ since, route = .connect since → Overtaken s.log since = false) (lands : Bool) :
    Invariant (s.writeModeLayerLocked i route vars lands) := by
  obtain ⟨hlock, hok⟩ := h.phases i _ hphase
  have hother : ∀ j ≠ i, ¬ s.lock = some j := fun j hji hj =>
    hji (Option.some.inj (hj.symm.trans hlock))
  unfold State.writeModeLayerLocked
  cases hwritten : (if lands then serialize vars else none) with
  | none =>
    exact h.move rfl rfl rfl (List.Subset.refl _) (fun j hji hj => absurd hj (hother j hji)) trivial
  | some text =>
    have htext : serialize vars = some text := by
      cases lands with
      | false => cases hwritten
      | true => exact hwritten
    refine ⟨fun j other hj => ?_, fun w hw => ?_⟩
    · dsimp only [State.goto] at hj
      rw [Record.get?_set] at hj
      split_ifs at hj with hij
      · cases hj
        trivial
      · -- only the writer relied on the file as it was
        have hold := h.phases j other hj
        cases other with
        | dialling vars since | connecting vars since => exact SinceOk.write hold hok htext rfl rfl
        | listing version base | updating version base => exact hold
        | writing => exact absurd hold.1 (hother j (Ne.symm hij))
        | disconnecting | applying allowlist sub | refused refusal | done => trivial
    · rcases mem_append.1 hw with hw | hw
      · exact h.guarded w hw
      · obtain rfl := mem_singleton.1 hw
        exact hok.isGuarded hundisturbed htext

lemma Invariant.onListing (h : Invariant s)
    (hstep : onListing s i list = some s') : Invariant s' := by
  unfold Console.onListing at hstep
  split at hstep
  · rename_i vars since hphase
    cases hstep
    exact h.move rfl rfl rfl (subset_append_left _ _) (fun _ _ hj => hj) (h.phases i _ hphase)
  · rename_i version base hphase
    obtain ⟨hpin, hbase⟩ := h.phases i _ hphase
    cases hlisting : cloudKgUpdateListing version list with
    | error e =>
      rw [hlisting] at hstep
      cases hstep
      exact h.move rfl rfl rfl (subset_append_left _ _) (fun _ _ hj => hj) trivial
    | ok u =>
      obtain ⟨l, rfl, hlatest⟩ := cloudKgUpdateListing_eq_ok hlisting
      rw [hlisting] at hstep
      cases hstep
      refine h.move rfl rfl rfl (subset_append_left _ _) (fun _ _ hj => hj) ⟨hpin, hbase, l, ?_, hlatest⟩
      exact mem_append_right _ (.head _)
  · cases hstep

lemma Invariant.onAcquire (h : Invariant s) (hfree : s.lock = none)
    (hstep : onAcquire checks s i mounted = some s') : Invariant s' := by
  unfold Console.onAcquire at hstep
  split at hstep
  · rename_i vars since hphase
    cases hstep
    exact h.hold hfree (h.phases i _ hphase)
  · cases hstep
    exact h.hold hfree rfl
  · rename_i allowlist sub hphase
    cases hstep
    refine h.enter hfree fun vars hvars => ?_
    cases hroute : cloudAllowlistVars checks allowlist sub s.file with
    | error e =>
      rw [hroute] at hvars
      cases hvars
    | ok written =>
      rw [hroute] at hvars
      cases hvars
      obtain ⟨current, hcurrent, hset, -⟩ := cloudAllowlistVars_eq_ok hroute
      exact ⟨current, _, hcurrent,
        isVar_of_forall isVar_DEPLOYMENT_ALLOWLIST (not_isSpace_of_parseAllowlist allowlist), hset⟩
  · rename_i version base hphase
    cases hstep
    obtain ⟨hpin, hbase, hlatest⟩ := h.phases i _ hphase
    refine h.enter hfree fun vars hvars => ?_
    obtain ⟨current, hcurrent, hvalue, hset⟩ := cloudKgUpdateVars_eq_ok hvars
    exact ⟨current, hcurrent, isVar_of_forall isVar_MODULE_KG_VERSION (not_isSpace_of_pinPattern hpin), hset,
      get?_of_value hvalue hbase, hlatest⟩
  · cases hstep

/-- Every step keeps what holds between the steps, unless a connect comes too late. -/
lemma invariant_next {event : Event} (h : Invariant s) (hundisturbed : undisturbed s event = true)
    (hstep : next checks contentCacheDir s event = some s') : Invariant s' := by
  cases event with simp only [next] at hstep
  | cloudApply i =>
    split_ifs at hstep
    cases hstep
    refine h.answer fun vars hvars => ?_
    have hsince : SinceOk s s.log.length := ⟨le_rfl, fun hcloud => by
      rw [cloudApplyVars_eq_ok hvars] at hcloud
      cases hcloud⟩
    split_ifs
    all_goals exact hsince
  | cloudDisable i | cloudAllowlist i allowlist sub =>
    split_ifs at hstep
    cases hstep
    exact h.goto trivial
  | cloudKgUpdate i =>
    split_ifs at hstep
    cases hstep
    exact h.answer fun base hbase => cloudKgUpdateBase_eq_ok hbase
  | listing i list => exact h.onListing hstep
  | acquire i mounted =>
    split_ifs at hstep with hfree
    exact h.onAcquire hfree hstep
  | write i lands =>
    split at hstep <;> cases hstep
    rename_i route vars hphase
    refine h.write hphase (fun since hroute => ?_) lands
    rw [hroute] at hphase
    simp only [undisturbed, hphase, not_eq_true'] at hundisturbed
    exact hundisturbed

lemma invariant_init (h : (daemon checks contentCacheDir).init s) : Invariant s := by
  obtain ⟨-, hphases, hlog, -⟩ := h
  refine ⟨fun i phase hphase => ?_, fun w hw => ?_⟩
  · rw [hphases] at hphase
    cases hphase
  · rw [hlog] at hw
    cases hw

end

/-- In a run in which no connect comes too late, every write over a connected deployment is guarded. -/
theorem guarded_of_reachable (h : (daemon checks contentCacheDir).Reachable (undisturbed · ·) s) :
    ∀ w ∈ s.log, w.IsGuarded s.reads :=
  (h.invariant (P := Invariant) (fun _ h0 => invariant_init h0)
    fun _ _ _ hinv hok hnext => invariant_next hinv hok hnext).guarded

lemma not_isGuarded_of_connect {reads : List (String × KgVersionList)} {w : Write}
    (hroute : w.route.isConnect = true) (hcloud : isCloudModeFile w.before = true) : ¬ w.IsGuarded reads := by
  intro h
  rw [isCloudModeFile_eq] at hcloud
  obtain ⟨vars, hvars⟩ := Option.isSome_iff_exists.1 hcloud
  rcases h vars hvars with ⟨hother, -⟩ | ⟨after, -, ⟨hother, -⟩ | ⟨version, base, hother, -⟩⟩
  all_goals
    rw [hother] at hroute
    cases hroute

def sampleChecks : Checks where
  secureURL raw := "https://".toList.isPrefixOf raw.toList
  redirectOrigin raw := some (String.ofList (raw.toList.take 8 ++ (raw.toList.drop 8).takeWhile (· ≠ '/')))
  artifactSignerPrefix _ := false
  isPrint c := 0x20 ≤ c.toNat && c.toNat ≤ 0x7e

/-- A recipe of the portal, with the client it is for. -/
def sampleRecipe (client : String) : Text :=
  [("OIDC_ISSUER", "https://id.example"), ("OIDC_JWKS_URI", "https://id.example/jwks"), ("OIDC_CLIENT_ID", client),
    ("OIDC_AUDIENCE", "app"), ("OIDC_SCOPE", "openid"), ("OIDC_DOMAIN", "id.example"), ("OIDC_SHARED_POOL", "true"),
    ("PORTAL_ORIGIN", "https://portal.example"), ("MODULE_CONTENT_BASE_URL", "https://content.example"),
    ("DEPLOYMENT_ALLOWLIST", "ada")].flatMap fun p => varLine p ++ ['\n']

def sampleStart : State := ⟨none, none, ∅, [], []⟩

lemma sampleStart_init : (daemon sampleChecks "/cache").init sampleStart := ⟨rfl, rfl, rfl, rfl⟩

def samplePin (digit : Char) : String :=
  "sha256:" ++ String.ofList (replicate 64 digit)

def sampleKgUpdate : Route :=
  .kgUpdate (samplePin '1') "https://kg.example"

/-- A connect with a knowledge graph, an allowlist apply over the file it wrote, and an update to the next version. -/
def sampleSchedule : List Event :=
  [.cloudApply 0 (sampleRecipe "one" ++ "MODULE_KG_BASE_URL=https://kg.example\n".toList)
      "https://localhost:8443/callback",
    .listing 0 (some ⟨samplePin '0', []⟩), .acquire 0 false, .write 0 true,
    .cloudAllowlist 1 "ada bob" "ada", .acquire 1 false, .write 1 true,
    .cloudKgUpdate 2 (samplePin '1') true, .listing 2 (some ⟨samplePin '1', []⟩), .acquire 2 true, .write 2 true]

/-- Two connects that both look at the file before one of them writes. -/
def overlappingConnects : List Event :=
  [.cloudApply 0 (sampleRecipe "one") "https://localhost:8443/callback",
    .cloudApply 1 (sampleRecipe "two") "https://localhost:8443/callback",
    .acquire 0 false, .write 0 true, .acquire 1 false, .write 1 true]

theorem sampleSchedule_guarded :
    ∃ s, (daemon sampleChecks "/cache").run undisturbed sampleStart sampleSchedule = some s ∧
      s.log.map Write.route = [.connect 0, .allowlist, sampleKgUpdate] ∧ ∀ w ∈ s.log, w.IsGuarded s.reads := by
  have hrun : (((daemon sampleChecks "/cache").run undisturbed sampleStart sampleSchedule).map
      fun s => s.log.map Write.route) = some [.connect 0, .allowlist, sampleKgUpdate] := by decide +kernel
  obtain ⟨s, hs, hroutes⟩ := Option.map_eq_some_iff.1 hrun
  exact ⟨s, hs, hroutes, guarded_of_reachable
    (TransitionSystem.reachable_of_run (fun _ _ h => h) (.init sampleStart_init) hs)⟩

/-- The second of two connects replaces the configuration of the first. -/
theorem overlappingConnects_not_guarded :
    ∃ s w, (daemon sampleChecks "/cache").Reachable (fun _ _ => True) s ∧ w ∈ s.log ∧ ¬ w.IsGuarded s.reads := by
  have hrun : (((daemon sampleChecks "/cache").run (fun _ _ => true) sampleStart overlappingConnects).any
      fun s => s.log.any fun w => w.route.isConnect && isCloudModeFile w.before) = true := by decide +kernel
  obtain ⟨s, hs, hlog⟩ := TransitionSystem.exists_reachable hrun sampleStart_init fun _ _ _ => trivial
  obtain ⟨w, hw, hlate⟩ := any_eq_true.1 hlog
  obtain ⟨hroute, hcloud⟩ := and_eq_true_iff.1 hlate
  exact ⟨s, w, hs, hw,
    not_isGuarded_of_connect hroute hcloud⟩

end Console
