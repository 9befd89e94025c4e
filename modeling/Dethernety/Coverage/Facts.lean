import Dethernety.Coverage.Aggregate

/-!
# What the aggregation reports

The facts of a pair of an exposure and a technique are those of the rows that cover it (`exists_tierFact`), and an
exposure is reported with the techniques of its base rows (`Reports`).
-/

open List Record

namespace Coverage

open ThreatReport (sortBy sortBy_perm)

/-- A row of one of the three tiers. -/
inductive CoveringRow
  | direct (r : DirectRow)
  | mitigation (r : MitigationRow)
  | d3fend (r : D3fendRow)

namespace CoveringRow

def exposureId : CoveringRow → String
  | direct r => r.exposureId
  | mitigation r => r.exposureId
  | d3fend r => r.exposureId

def techniqueId : CoveringRow → String
  | direct r => r.techniqueId
  | mitigation r => r.techniqueId
  | d3fend r => r.techniqueId

def cmId : CoveringRow → String
  | direct r => r.cmId
  | mitigation r => r.cmId
  | d3fend r => r.cmId

def controlId : CoveringRow → String
  | direct r => r.controlId
  | mitigation r => r.controlId
  | d3fend r => r.controlId

def tier : CoveringRow → CoverageTier
  | direct _ => .DIRECT
  | mitigation _ => .INDIRECT_MITIGATION
  | d3fend _ => .INDIRECT_D3FEND

/-- What the countermeasure of a row does. -/
def functions : CoveringRow → List CoverageFunction
  | direct r => [directFunction r.relType]
  | mitigation _ => [.PREVENT]
  | d3fend r => d3fendFunctions r.tactics

/-- The row covers a technique of an exposure: it names both, and a countermeasure. -/
def Covers (r : CoveringRow) (exposureId techniqueId : String) : Prop :=
  r.exposureId = exposureId ∧ r.techniqueId = techniqueId ∧ exposureId ≠ "" ∧ techniqueId ≠ "" ∧ r.cmId ≠ ""

instance (r : CoveringRow) (e t : String) : Decidable (r.Covers e t) :=
  inferInstanceAs (Decidable (_ ∧ _ ∧ _ ∧ _ ∧ _))

/-- A preventive row. -/
def Prevents (r : CoveringRow) : Prop :=
  .PREVENT ∈ r.functions

instance (r : CoveringRow) : Decidable r.Prevents :=
  inferInstanceAs (Decidable (_ ∈ _))

def contributions (r : CoveringRow) : List Contribution :=
  r.functions.map fun fn => ⟨r.exposureId, r.techniqueId, r.tier, fn, r.cmId, r.controlId⟩

lemma functions_ne_nil (r : CoveringRow) : r.functions ≠ [] := by
  cases r with
  | direct r | mitigation r => exact cons_ne_nil _ _
  | d3fend r =>
    show d3fendFunctions r.tactics ≠ []
    unfold d3fendFunctions
    cases r.tactics.any (containsWord "detect") with
    | true => exact cons_ne_nil _ _
    | false => simp

end CoveringRow

/-! ## Cells -/

section

variable {k x : String} {tier : CoverageTier} {fn : CoverageFunction} {l : List Contribution}

/-- What holds of the contributions of a key, a tier and a function. -/
def AtCell (cells : Record String TierMap) (k : String) (tier : CoverageTier) (fn : CoverageFunction)
    (m : Contrib → Prop) : Prop :=
  ∃ tm, cells.get? k = some tm ∧ ∃ fm, tm.get? tier = some fm ∧ ∃ c, fm.get? fn = some c ∧ m c

lemma foldl_add_eq (l : List Contribution) : l.foldl add ∅ = (l.filter Contribution.isGiven).foldl
    (fun r a => Record.update r (KEY a.exposureId a.techniqueId) (extendTierMap a)) ∅ := by
  rw [foldl_filter]
  rfl

lemma atCell_foldl_add {m : Contrib → Prop} {n : Contribution → Prop}
    (h : ∀ a c, m (extendContrib a c) ↔ n a ∨ ∃ w, c = some w ∧ m w) :
    AtCell (l.foldl add ∅) k tier fn m ↔
      ∃ a ∈ l, a.isGiven = true ∧ KEY a.exposureId a.techniqueId = k ∧ a.tier = tier ∧ a.function = fn ∧ n a := by
  rw [AtCell, foldl_add_eq]
  refine (exists_foldl_update_empty (n := fun a => a.tier = tier ∧ a.function = fn ∧ n a) ?_ _).trans ?_
  · intro a v
    exact exists_update_getD fun o => exists_update_getD fun o => h a o
  · simp only [mem_filter, and_assoc]

lemma cms_size_ne_zero (h : AtCell (l.foldl add ∅) k tier fn fun c => c.cms.size = 0) : False := by
  have hfalse : ∀ (a : Contribution) (c : Option Contrib), (extendContrib a c).cms.size = 0 ↔ False :=
    fun a c => iff_false_intro (Record.Members.size_add_ne_zero _ _)
  obtain ⟨tm, htm, fm, hfm, c, hc, hsize⟩ := h
  have hkeep : ∀ tm, (l.foldl add ∅).get? k = some tm →
      ∀ fm, tm.get? tier = some fm → ∀ c, fm.get? fn = some c → c.cms.size ≠ 0 := by
    rw [foldl_add_eq]
    refine forall_foldl_update (fun a _ _ tm htm fm hfm c hc => ?_) fun w hw => by cases hw
    rw [extendTierMap, get?_update] at hfm
    split_ifs at hfm with htier
    · cases hfm
      rw [extendFnMap, get?_update] at hc
      split_ifs at hc with hfn
      · cases hc
        exact fun hzero => (hfalse a _).1 hzero
      · subst htier
        cases tm with
        | none => cases hc
        | some tm =>
          rw [Option.getD_some] at hc
          cases hold : tm.get? a.tier with
          | none =>
            rw [hold] at hc
            cases hc
          | some fm =>
            rw [hold] at hc
            exact htm tm rfl fm hold c hc
    · cases tm with
      | none => cases hfm
      | some tm => exact htm tm rfl fm hfm c hc
  exact hkeep tm htm fm hfm c hc hsize

lemma mem_TIER_ORDER (tier : CoverageTier) : tier ∈ TIER_ORDER := by
  cases tier <;> decide

lemma mem_FN_ORDER (fn : CoverageFunction) : fn ∈ FN_ORDER := by
  cases fn <;> decide

/-- The fact that a cell is reported as. -/
def tierFact (tier : CoverageTier) (fn : CoverageFunction) (c : Contrib) : TierFact :=
  ⟨tier, fn, sortedMembers c.cms, sortedMembers c.controls⟩

lemma mem_tierFactsFor {e t : String} {fact : TierFact} : fact ∈ tierFactsFor (l.foldl add ∅) e t ↔
    ∃ tier fn, AtCell (l.foldl add ∅) (KEY e t) tier fn fun c => fact = tierFact tier fn c := by
  unfold tierFactsFor AtCell
  cases htm : (l.foldl add ∅).get? (KEY e t) with
  | none => simp
  | some tm =>
    simp only [mem_flatMap, mem_TIER_ORDER, true_and, Option.some.injEq, exists_eq_left']
    refine exists_congr fun tier => ?_
    cases hfm : tm.get? tier with
    | none => simp
    | some fm =>
      simp only [mem_filterMap, mem_FN_ORDER, true_and, Option.some.injEq, exists_eq_left']
      refine exists_congr fun fn => ?_
      cases hc : fm.get? fn with
      | none => simp
      | some c =>
        have hsize : c.cms.size ≠ 0 := fun hzero => cms_size_ne_zero ⟨tm, htm, fm, hfm, c, hc, hzero⟩
        simp only [if_neg hsize, Option.some.injEq, exists_eq_left', tierFact]
        exact eq_comm

end

namespace AggregateInput

variable (input : AggregateInput)

/-- The rows of the three tiers in the order of the loops. -/
def coveringRows : List CoveringRow :=
  input.directRows.map .direct ++ input.mitigationRows.map .mitigation ++ input.d3fendRows.map .d3fend

/-- The exposure is mapped to the technique. -/
def Exploits (e t : String) : Prop :=
  ∃ r ∈ input.baseRows, r.exposureId = e ∧ r.technique = some t

/-- The exposure is mapped to some technique. -/
def Mapped (e : String) : Prop :=
  ∃ r ∈ input.baseRows, r.exposureId = e ∧ r.technique.isSome = true

instance (e : String) : Decidable (input.Mapped e) :=
  inferInstanceAs (Decidable (∃ _ ∈ _, _))

/-- A row covers the technique of the exposure. -/
def Covered (e t : String) : Prop :=
  ∃ r ∈ input.coveringRows, r.Covers e t

instance (e t : String) : Decidable (input.Covered e t) :=
  inferInstanceAs (Decidable (∃ _ ∈ _, _))

/-- A preventive row covers the technique of the exposure. -/
def Prevented (e t : String) : Prop :=
  ∃ r ∈ input.coveringRows, r.Covers e t ∧ r.Prevents

instance (e t : String) : Decidable (input.Prevented e t) :=
  inferInstanceAs (Decidable (∃ _ ∈ _, _))

/-- No technique has a blank, or the sign that the view puts between an exposure and a technique. -/
def PlainTechniques : Prop :=
  (∀ r ∈ input.baseRows, ∀ t, r.technique = some t → ' ' ∉ t.toList ∧ '|' ∉ t.toList) ∧
    ∀ r ∈ input.coveringRows, ' ' ∉ r.techniqueId.toList ∧ '|' ∉ r.techniqueId.toList

instance : Decidable input.PlainTechniques :=
  inferInstanceAs (Decidable (_ ∧ _))

def OnOneElement : Prop :=
  ∀ r ∈ input.baseRows, ∀ r' ∈ input.baseRows, r.exposureId = r'.exposureId →
    r.elementId = r'.elementId ∧ r.elementKind = r'.elementKind

instance : Decidable input.OnOneElement :=
  inferInstanceAs (Decidable (∀ _ ∈ _, _))

variable {input}

lemma cells_eq : input.cells = (input.coveringRows.flatMap CoveringRow.contributions).foldl add ∅ := by
  simp only [cells, coveringRows, flatMap_append, foldl_append, foldl_flatMap, foldl_map,
    CoveringRow.contributions]
  rfl

end AggregateInput

lemma append_cons_inj {α : Type} {c : α} {x x' z z' : List α} (hx : c ∉ x) (hx' : c ∉ x')
    (h : x ++ c :: z = x' ++ c :: z') : x = x' ∧ z = z' := by
  induction x generalizing x' with
  | nil =>
    cases x' with
    | nil => exact ⟨rfl, tail_eq_of_cons_eq h⟩
    | cons a x' => exact absurd (head_eq_of_cons_eq h ▸ (.head _)) hx'
  | cons a x ih =>
    cases x' with
    | nil => exact absurd (head_eq_of_cons_eq h ▸ (.head _)) hx
    | cons =>
      obtain ⟨rfl, hrest⟩ := List.cons.inj h
      obtain ⟨rfl, rfl⟩ := ih (fun hmem => hx (mem_cons_of_mem a hmem))
        (fun hmem => hx' (mem_cons_of_mem a hmem)) hrest
      exact ⟨rfl, rfl⟩

lemma append_separator_inj {e e' t t' : String} {c : Char} (ht : c ∉ t.toList) (ht' : c ∉ t'.toList)
    (h : e ++ String.singleton c ++ t = e' ++ String.singleton c ++ t') : e = e' ∧ t = t' := by
  have hlists := congrArg String.toList h
  simp only [String.toList_append, String.toList_singleton, append_assoc, singleton_append] at hlists
  -- From the end, the separator is the first one.
  have hreverse := congrArg List.reverse hlists
  simp only [reverse_append, reverse_cons, append_assoc, singleton_append] at hreverse
  obtain ⟨hright, hleft⟩ := append_cons_inj (fun h => ht (mem_reverse.1 h))
    (fun h => ht' (mem_reverse.1 h)) hreverse
  exact ⟨String.toList_inj.1 (reverse_injective hleft), String.toList_inj.1 (reverse_injective hright)⟩

lemma KEY_inj {e e' t t' : String} (ht : ' ' ∉ t.toList) (ht' : ' ' ∉ t'.toList) :
    KEY e t = KEY e' t' ↔ e = e' ∧ t = t' := by
  constructor
  · exact append_separator_inj ht ht'
  · rintro ⟨rfl, rfl⟩
    rfl

section

variable {input : AggregateInput} {e t : String}

variable (hplain : input.PlainTechniques)
include hplain

/-- The facts of a pair are those of the rows that cover it. -/
theorem exists_tierFact (ht : ' ' ∉ t.toList) {F : CoverageFunction → Prop}
    {M : TierFact → Prop} {m : Contrib → Prop} {n : String → Prop} (hM : ∀ tier fn c, M (tierFact tier fn c) ↔ m c)
    (hm : ∀ a c, m (extendContrib a c) ↔ n a.controlId ∨ ∃ w, c = some w ∧ m w) :
    (∃ fact ∈ tierFactsFor input.cells e t, F fact.function ∧ M fact) ↔
      ∃ r ∈ input.coveringRows, r.Covers e t ∧ (∃ fn ∈ r.functions, F fn) ∧ n r.controlId := by
  have hcell : (∃ fact ∈ tierFactsFor input.cells e t, F fact.function ∧ M fact) ↔
      ∃ tier fn, F fn ∧ AtCell input.cells (KEY e t) tier fn m := by
    rw [AggregateInput.cells_eq]
    simp only [mem_tierFactsFor]
    constructor
    · rintro ⟨fact, ⟨tier, fn, tm, htm, fm, hfm, c, hc, rfl⟩, hF, hmem⟩
      exact ⟨tier, fn, hF, tm, htm, fm, hfm, c, hc, (hM tier fn c).1 hmem⟩
    · rintro ⟨tier, fn, hF, tm, htm, fm, hfm, c, hc, hmem⟩
      exact ⟨_, ⟨tier, fn, tm, htm, fm, hfm, c, hc, rfl⟩, hF, (hM tier fn c).2 hmem⟩
  rw [hcell, AggregateInput.cells_eq]
  simp only [atCell_foldl_add hm, mem_flatMap, CoveringRow.contributions, mem_map]
  constructor
  · rintro ⟨tier, fn, hF, a, ⟨r, hr, fn', hfn', rfl⟩, hgiven, hkey, -, rfl, hn⟩
    obtain ⟨rfl, rfl⟩ := (KEY_inj (hplain.2 r hr).1 ht).1 hkey
    simp only [Contribution.isGiven, Bool.and_eq_true, decide_eq_true_eq] at hgiven
    exact ⟨r, hr, ⟨rfl, rfl, hgiven.1.1, hgiven.1.2, hgiven.2⟩, ⟨fn', hfn', hF⟩, hn⟩
  · rintro ⟨r, hr, ⟨rfl, rfl, he, hne, hcm⟩, ⟨fn, hfn, hF⟩, hn⟩
    refine ⟨r.tier, fn, hF, _, ⟨r, hr, fn, hfn, rfl⟩, ?_, rfl, rfl, rfl, hn⟩
    simp [Contribution.isGiven, he, hne, hcm]

/-- A pair has no facts when no row covers it. -/
theorem tierFactsFor_eq_nil_iff (ht : ' ' ∉ t.toList) :
    tierFactsFor input.cells e t = [] ↔ ¬ input.Covered e t := by
  have h := exists_tierFact (e := e) hplain ht (F := fun _ => True) (M := fun _ => True) (m := fun _ => True)
    (n := fun _ => True) (fun _ _ _ => Iff.rfl) fun _ c => by simp
  rw [eq_nil_iff_forall_not_mem, AggregateInput.Covered]
  constructor
  · rintro hnone ⟨r, hr, hcovers⟩
    obtain ⟨fn, hfn⟩ := exists_mem_of_ne_nil _ r.functions_ne_nil
    obtain ⟨fact, hfact, -⟩ := h.2 ⟨r, hr, hcovers, ⟨fn, hfn, trivial⟩, trivial⟩
    exact hnone fact hfact
  · rintro hnone fact hfact
    obtain ⟨r, hr, hcovers, -⟩ := h.1 ⟨fact, hfact, trivial, trivial⟩
    exact hnone ⟨r, hr, hcovers⟩

/-- A pair has a preventive fact when a preventive row covers it. -/
theorem any_prevent_iff (ht : ' ' ∉ t.toList) :
    (tierFactsFor input.cells e t).any (·.function = .PREVENT) = true ↔ input.Prevented e t := by
  have h := exists_tierFact (e := e) hplain ht (F := fun fn => fn = .PREVENT) (M := fun _ => True) (m := fun _ => True)
    (n := fun _ => True) (fun _ _ _ => Iff.rfl) fun _ c => by simp
  simpa [CoveringRow.Prevents, AggregateInput.Prevented] using h

/-- The controls of the facts of a pair are those of the rows that cover it. -/
theorem mem_controlIds_iff (ht : ' ' ∉ t.toList) {x : String} :
    (∃ fact ∈ tierFactsFor input.cells e t, x ∈ fact.controlIds) ↔
      x ≠ "" ∧ ∃ r ∈ input.coveringRows, r.Covers e t ∧ r.controlId = x := by
  have h := exists_tierFact (e := e) hplain ht (F := fun _ => True) (M := fun fact => x ∈ fact.controlIds)
    (m := fun c => x ∈ c.controls.keys) (n := fun id => id ≠ "" ∧ id = x) (fun _ _ c => ?_) fun a c => ?_
  · constructor
    · rintro ⟨fact, hfact, hx⟩
      obtain ⟨r, hr, hcovers, -, hne, rfl⟩ := h.1 ⟨fact, hfact, trivial, hx⟩
      exact ⟨hne, r, hr, hcovers, rfl⟩
    · rintro ⟨hne, r, hr, hcovers, rfl⟩
      obtain ⟨fn, hfn⟩ := exists_mem_of_ne_nil _ r.functions_ne_nil
      obtain ⟨fact, hfact, -, hx⟩ := h.2 ⟨r, hr, hcovers, ⟨fn, hfn, trivial⟩, hne, rfl⟩
      exact ⟨fact, hfact, hx⟩
  · exact (sortBy_perm _ _).mem_iff
  · have hold : x ∈ (c.getD ⟨∅, ∅⟩).controls.keys ↔ ∃ w, c = some w ∧ x ∈ w.controls.keys := by
      cases c with
      | none | some w => simp
    rw [extendContrib, ← hold]
    split_ifs with hid
    · simp [hid]
    · rw [Record.Members.mem_add]
      simp [hid, eq_comm]

end

/-! ## Exposures -/

variable {input : AggregateInput} {e t : String} {w : ExposureEntry}

lemma get?_byExposure_element (hone : input.OnOneElement) (hw : (byExposure input.baseRows).get? e = some w)
    {r : BaseRow} (hr : r ∈ input.baseRows) (he : r.exposureId = e) :
    w.elementId = r.elementId ∧ w.elementKind = r.elementKind := by
  refine forall_foldl_update (m := fun w => w.elementId = r.elementId ∧ w.elementKind = r.elementKind)
    (fun a ha hkey v hv => ?_) (fun w hw => by cases hw) w hw
  have hfirst : (v.getD ⟨a.elementId, a.elementKind, ∅⟩).elementId = r.elementId ∧
      (v.getD ⟨a.elementId, a.elementKind, ∅⟩).elementKind = r.elementKind := by
    cases v with
    | none => exact hone a ha r hr (hkey.trans he.symm)
    | some w => exact hv w rfl
  unfold visitBase
  cases a.technique with
  | none | some t => exact hfirst

lemma mem_techniques_iff (hw : (byExposure input.baseRows).get? e = some w) :
    t ∈ w.techniques.keys ↔ input.Exploits e t := by
  have hall : (∃ w, (byExposure input.baseRows).get? e = some w ∧ t ∈ w.techniques.keys) ↔
      ∃ r ∈ input.baseRows, r.exposureId = e ∧ r.technique = some t := by
    refine exists_foldl_update_empty (fun a v => ?_) _
    have hold : t ∈ (v.getD ⟨a.elementId, a.elementKind, ∅⟩).techniques.keys ↔
        ∃ w, v = some w ∧ t ∈ w.techniques.keys := by
      cases v with
      | none | some w => simp
    rw [visitBase, ← hold]
    cases a.technique with
    | none => simp
    | some t' =>
      show t ∈ (Record.update _ _ _).keys ↔ _
      rw [Record.update, mem_keys_set, Option.some.injEq, eq_comm]
  rw [AggregateInput.Exploits, ← hall]
  constructor
  · exact fun ht => ⟨w, hw, ht⟩
  · rintro ⟨w', hw', ht⟩
    rwa [Option.some.inj (hw.symm.trans hw')]

/-- What an exposure of the result says of the rows. -/
structure Reports (input : AggregateInput) (x : ExposureCoverage) : Prop where
  element : ∀ r ∈ input.baseRows, r.exposureId = x.exposureId →
    x.elementId = r.elementId ∧ x.elementKind = r.elementKind
  soft : x.soft = true ↔ ¬ input.Mapped x.exposureId
  techniques : ∀ t, t ∈ x.techniques.map (·.techniqueId) ↔ input.Exploits x.exposureId t
  nodup : (x.techniques.map (·.techniqueId)).Nodup
  tiers : ∀ tc ∈ x.techniques, tc.tiers = tierFactsFor input.cells x.exposureId tc.techniqueId

variable {localeCompare : String → String → Ordering} {x : ExposureCoverage}

lemma techniqueIds_exposureCoverage (cells : Record String TierMap) (e : String) (w : ExposureEntry) :
    (exposureCoverage cells e w).techniques.map (·.techniqueId) = sortBy compareTexts w.techniques.keys := by
  unfold exposureCoverage
  rw [map_map]
  exact map_id _

lemma reports_exposureCoverage (hone : input.OnOneElement) (hw : (byExposure input.baseRows).get? e = some w) :
    Reports input (exposureCoverage input.cells e w) where
  element r hr he := get?_byExposure_element hone hw hr he
  soft := by
    show w.techniques.keys.isEmpty = true ↔ ¬ input.Mapped e
    rw [List.isEmpty_iff, eq_nil_iff_forall_not_mem]
    constructor
    · rintro hnone ⟨r, hr, he, htechnique⟩
      obtain ⟨t, ht⟩ := Option.isSome_iff_exists.1 htechnique
      exact hnone t ((mem_techniques_iff hw).2 ⟨r, hr, he, ht⟩)
    · rintro hnone t ht
      obtain ⟨r, hr, he, htechnique⟩ := (mem_techniques_iff hw).1 ht
      exact hnone ⟨r, hr, he, by rw [htechnique]; rfl⟩
  techniques t := by
    rw [techniqueIds_exposureCoverage, (sortBy_perm _ _).mem_iff]
    exact mem_techniques_iff hw
  nodup := by
    rw [techniqueIds_exposureCoverage, (sortBy_perm _ _).nodup_iff]
    exact w.techniques.nodup
  tiers tc htc := by
    obtain ⟨t, -, rfl⟩ := mem_map.1 htc
    rfl

/-- The exposures of the result, each with what it says of the rows. -/
theorem reports_of_mem (hone : input.OnOneElement) (hx : x ∈ (aggregateCoverage localeCompare input).exposures) :
    Reports input x := by
  obtain ⟨⟨e, w⟩, hmem, rfl⟩ := mem_map.1 ((sortBy_perm _ _).mem_iff.1 hx)
  exact reports_exposureCoverage hone (mem_entries_iff.1 hmem)

def AggregateInput.exposureIds (input : AggregateInput) : List String :=
  (input.baseRows.map (·.exposureId)).dedup

/-- Every exposure of the base rows is reported once. -/
theorem exposureIds_perm (localeCompare : String → String → Ordering) (input : AggregateInput) :
    ((aggregateCoverage localeCompare input).exposures.map (·.exposureId)).Perm input.exposureIds := by
  have hkeys : (((byExposure input.baseRows).entries.map fun e => exposureCoverage input.cells e.1 e.2).map
      (·.exposureId)) = (byExposure input.baseRows).keys := by
    rw [map_map]
    rfl
  apply ((sortBy_perm _ _).map _).trans
  rw [hkeys]
  refine (perm_ext_iff_of_nodup (byExposure input.baseRows).nodup (nodup_dedup _)).2 fun e => ?_
  rw [mem_dedup]
  exact mem_keys_foldl_update

end Coverage
