import Dethernety.Coverage.Facts
import Dethernety.Coverage.Matrix

/-!
# The coverage view is honest

The view counts every exposure once, grades every pair of the rest by the rows that cover it, and names the controls
that cover nothing of an element (`Honest`, `honest_coverageView`). The pairs that the loop visits (`gradedPairs`)
are those of the rest, each with the facts of its rows; every accumulator is described over them. A row for a
technique that its exposure is not mapped to counts for nothing (`mismatched_strayRow`).
-/

open List Record

namespace Coverage

open ThreatReport (sortBy sortBy_perm)

/-! ## The ledger -/

/-- No finding of the ledger mutes the exposure. -/
def Live (ledger : List LedgerElement) (e : String) : Prop :=
  ∀ el ∈ ledger, ∀ f ∈ el.findings, f.id = e → f.id ≠ "" → isLiveKind f.dispositionKind = true

instance (ledger : List LedgerElement) (e : String) : Decidable (Live ledger e) :=
  inferInstanceAs (Decidable (∀ _ ∈ _, _))

def DistinctIds (ledger : List LedgerElement) : Prop :=
  (ledger.map (·.id)).Nodup ∧ ((ledger.flatMap (·.findings)).map (·.id)).Nodup

instance (ledger : List LedgerElement) : Decidable (DistinctIds ledger) :=
  inferInstanceAs (Decidable (_ ∧ _))

section

variable {ledger : List LedgerElement} {e : String}

lemma exists_finding {l : List Finding} {m : Record String (Option String)} {kind : Option String}
    (h : (l.foldl setDisposition m).get? e = some kind) :
    (∃ f ∈ l, f.id = e ∧ f.id ≠ "" ∧ f.dispositionKind = kind) ∨ m.get? e = some kind := by
  induction l generalizing m with
  | nil => exact .inr h
  | cons f l ih =>
    rcases ih h with ⟨f', hf', hrest⟩ | hm
    · exact .inl ⟨f', mem_cons_of_mem f hf', hrest⟩
    · unfold setDisposition at hm
      split_ifs at hm with hid
      · exact .inr hm
      · rw [get?_set] at hm
        split_ifs at hm with he
        · exact .inl ⟨f, .head _, he, hid, Option.some.inj hm⟩
        · exact .inr hm

lemma isLive_iff (h : DistinctIds ledger) : isLive ledger e = true ↔ Live ledger e := by
  have hflat : dispositionById ledger = (ledger.flatMap (·.findings)).foldl setDisposition ∅ := by
    rw [foldl_flatMap]
    rfl
  have hentries : ∀ (l : List Finding) (m : Record String (Option String)), l.foldl setDisposition m =
      l.foldl (fun m f => (if f.id = "" then none else some f.dispositionKind).elim m (m.set f.id)) m := by
    intro l m
    congr 1
    funext m f
    unfold setDisposition
    split_ifs <;> rfl
  unfold isLive
  rw [hflat]
  cases hget : ((ledger.flatMap (·.findings)).foldl setDisposition ∅).get? e with
  | none =>
    refine iff_of_true rfl fun el hel f hf he hid => ?_
    have hmem : f ∈ ledger.flatMap (·.findings) := mem_flatMap.2 ⟨el, hel, hf⟩
    have hsome : (((ledger.flatMap (·.findings)).foldl setDisposition ∅).get? f.id) =
        if f.id = "" then none else some f.dispositionKind := by
      rw [hentries]
      exact get?_foldl_entries h.2 ∅ hmem rfl
    rw [he, hget, if_neg (he ▸ hid)] at hsome
    cases hsome
  | some kind =>
    obtain ⟨f, hf, he, hid, rfl⟩ := (exists_finding hget).resolve_right nofun
    obtain ⟨el, hel, hfel⟩ := mem_flatMap.1 hf
    refine ⟨fun hlive el' hel' f' hf' he' _ => ?_, fun hlive => hlive el hel f hfel he hid⟩
    have heq : f' = f :=
      inj_on_of_nodup_map h.2 (mem_flatMap.2 ⟨el', hel', hf'⟩) hf (he'.trans he.symm)
    exact heq ▸ hlive

end

/-! ## The exposures that are graded -/

/-- The exposure is on a data element. -/
def AggregateInput.IsData (input : AggregateInput) (e : String) : Prop :=
  ∃ r ∈ input.baseRows, r.exposureId = e ∧ r.elementKind = some "Data"

instance (input : AggregateInput) (e : String) : Decidable (input.IsData e) :=
  inferInstanceAs (Decidable (∃ _ ∈ _, _))

/-- The exposures that are neither muted nor unmapped, and not on data. -/
def AggregateInput.rest (input : AggregateInput) (ledger : List LedgerElement) : List String :=
  input.exposureIds.filter fun e => Live ledger e ∧ input.Mapped e ∧ ¬ input.IsData e

def AggregateInput.restPairs (input : AggregateInput) (ledger : List LedgerElement) : List (String × String) :=
  ((input.baseRows.filterMap fun r => r.technique.map fun t => (r.exposureId, t)).filter fun p =>
    Live ledger p.1 ∧ ¬ input.IsData p.1).dedup

def isGraded (ledger : List LedgerElement) (x : ExposureCoverage) : Bool :=
  isLive ledger x.exposureId && !x.soft && x.elementKind ≠ some "Data"

/-- The pairs that the loop hands on, in its order. -/
def gradedPairs (ledger : List LedgerElement) (l : List ExposureCoverage) :
    List (ExposureCoverage × TechniqueCoverage) :=
  (l.filter (isGraded ledger)).flatMap fun x => (x.techniques.filter (·.techniqueId ≠ "")).map (x, ·)

section

variable {ledger : List LedgerElement} {info : Record String TechniqueInfo}

lemma graded_visitExposure (acc : Acc) (x : ExposureCoverage) : (visitExposure ledger info acc x).graded =
    if isGraded ledger x then x.techniques.foldl (visitTechnique x) acc.graded else acc.graded := by
  unfold visitExposure isGraded
  cases isLive ledger x.exposureId with
  | false => rfl
  | true =>
    cases x.soft with
    | true => rfl
    | false =>
      by_cases hdata : x.elementKind = some "Data"
      all_goals simp [hdata]

lemma foldl_visitTechnique (x : ExposureCoverage) (g : Graded) : x.techniques.foldl (visitTechnique x) g =
    ((x.techniques.filter (·.techniqueId ≠ "")).map (x, ·)).foldl (fun g p => visitTechnique p.1 g p.2) g := by
  rw [foldl_map, foldl_filter]
  congr 1
  funext g t
  by_cases ht : t.techniqueId = ""
  · simp [ht, visitTechnique]
  · simp [ht]

lemma graded_foldl_visitExposure (l : List ExposureCoverage) (acc : Acc) :
    (l.foldl (visitExposure ledger info) acc).graded =
      (gradedPairs ledger l).foldl (fun g p => visitTechnique p.1 g p.2) acc.graded := by
  induction l generalizing acc with
  | nil => rfl
  | cons x l ih =>
    rw [foldl_cons, ih, graded_visitExposure]
    unfold gradedPairs
    rw [filter_cons]
    split_ifs with hgraded
    · rw [flatMap_cons, foldl_append, foldl_visitTechnique]
    · rfl

/-- What the loop counts besides. -/
lemma counts_foldl_visitExposure (ledger : List LedgerElement) (info : Record String TechniqueInfo)
    (l : List ExposureCoverage) (acc : Acc) :
    (l.foldl (visitExposure ledger info) acc).dispositionedExcluded =
        acc.dispositionedExcluded + l.countP (fun x => !isLive ledger x.exposureId) ∧
      (l.foldl (visitExposure ledger info) acc).softCount =
        acc.softCount + l.countP (fun x => isLive ledger x.exposureId && x.soft) ∧
      (l.foldl (visitExposure ledger info) acc).dataMappedCount = acc.dataMappedCount +
          l.countP (fun x => isLive ledger x.exposureId && !x.soft && x.elementKind = some "Data") := by
  induction l generalizing acc with
  | nil => exact ⟨rfl, rfl, rfl⟩
  | cons x l ih =>
    obtain ⟨hexcluded, hsoft, hdata⟩ := ih (visitExposure ledger info acc x)
    rw [foldl_cons, hexcluded, hsoft, hdata]
    simp only [countP_cons]
    unfold visitExposure
    cases isLive ledger x.exposureId with
    | false => simp; omega
    | true =>
      cases x.soft with
      | true => simp; omega
      | false =>
        by_cases hdata : x.elementKind = some "Data"
        · simp [hdata]; omega
        · simp [hdata]

end

/-! ## The pairs of the loop and those of the rows -/

section

variable {input : AggregateInput} {ledger : List LedgerElement} {localeCompare : String → String → Ordering}
  {e t : String} {p : ExposureCoverage × TechniqueCoverage}

lemma mem_restPairs : (e, t) ∈ input.restPairs ledger ↔ input.Exploits e t ∧ Live ledger e ∧ ¬ input.IsData e := by
  unfold AggregateInput.restPairs AggregateInput.Exploits
  rw [mem_dedup, mem_filter, mem_filterMap]
  simp only [Option.map_eq_some_iff, Prod.mk.injEq, decide_eq_true_eq]
  refine and_congr_left' ⟨?_, ?_⟩
  · rintro ⟨r, hr, t', htechnique, rfl, rfl⟩
    exact ⟨r, hr, rfl, htechnique⟩
  · rintro ⟨r, hr, rfl, htechnique⟩
    exact ⟨r, hr, t, htechnique, rfl, rfl⟩

abbrev pairsOf (localeCompare : String → String → Ordering) (input : AggregateInput) (ledger : List LedgerElement) :
    List (ExposureCoverage × TechniqueCoverage) :=
  gradedPairs ledger (aggregateCoverage localeCompare input).exposures

lemma ne_empty_of_technique {r : BaseRow} (h : r.technique = some t) : t ≠ "" := by
  have hfilter := (Option.filter_eq_some_iff.1 h).2
  exact of_decide_eq_true hfilter

lemma exposure_of_base (localeCompare : String → String → Ordering) {r : BaseRow} (hr : r ∈ input.baseRows) :
    ∃ x ∈ (aggregateCoverage localeCompare input).exposures, x.exposureId = r.exposureId := by
  have hmem : r.exposureId ∈ input.exposureIds := mem_dedup.2 (mem_map_of_mem hr)
  exact mem_map.1 ((exposureIds_perm localeCompare input).mem_iff.2 hmem)

lemma base_of_exposure {x : ExposureCoverage} (hx : x ∈ (aggregateCoverage localeCompare input).exposures) :
    ∃ r ∈ input.baseRows, r.exposureId = x.exposureId := by
  have hmem := (exposureIds_perm localeCompare input).mem_iff.1 (mem_map_of_mem hx)
  exact mem_map.1 (mem_dedup.1 hmem)

lemma isData_iff (hone : input.OnOneElement) {x : ExposureCoverage}
    (hx : x ∈ (aggregateCoverage localeCompare input).exposures) :
    x.elementKind = some "Data" ↔ input.IsData x.exposureId := by
  have hreports := reports_of_mem hone hx
  constructor
  · intro hkind
    obtain ⟨r, hr, he⟩ := base_of_exposure hx
    exact ⟨r, hr, he, (hreports.element r hr he).2.symm.trans hkind⟩
  · rintro ⟨r, hr, he, hkind⟩
    exact (hreports.element r hr he).2.trans hkind

lemma of_mem_pairsOf (hone : input.OnOneElement) (hids : DistinctIds ledger)
    (hp : p ∈ pairsOf localeCompare input ledger) :
    (p.1.exposureId, p.2.techniqueId) ∈ input.restPairs ledger ∧ Reports input p.1 ∧
      p.2.tiers = tierFactsFor input.cells p.1.exposureId p.2.techniqueId := by
  obtain ⟨x, hx, hp⟩ := mem_flatMap.1 hp
  obtain ⟨tc, htc, rfl⟩ := mem_map.1 hp
  obtain ⟨hx, hgraded⟩ := mem_filter.1 hx
  obtain ⟨htc, -⟩ := mem_filter.1 htc
  have hreports := reports_of_mem hone hx
  simp only [isGraded, Bool.and_eq_true, decide_eq_true_eq] at hgraded
  refine ⟨mem_restPairs.2 ⟨?_, (isLive_iff hids).1 hgraded.1.1, ?_⟩, hreports, hreports.tiers tc htc⟩
  · exact (hreports.techniques _).1 (mem_map_of_mem htc)
  · exact fun hdata => hgraded.2 ((isData_iff hone hx).2 hdata)

lemma exists_mem_pairsOf (localeCompare : String → String → Ordering) (hone : input.OnOneElement)
    (hids : DistinctIds ledger) (h : (e, t) ∈ input.restPairs ledger) :
    ∃ p ∈ pairsOf localeCompare input ledger, p.1.exposureId = e ∧ p.2.techniqueId = t := by
  obtain ⟨hexploits, hlive, hdata⟩ := mem_restPairs.1 h
  obtain ⟨r, hr, rfl, htechnique⟩ := hexploits
  obtain ⟨x, hx, hid⟩ := exposure_of_base localeCompare hr
  have hreports := reports_of_mem hone hx
  obtain ⟨tc, htc, rfl⟩ := mem_map.1 ((hreports.techniques t).2 ⟨r, hr, hid.symm, htechnique⟩)
  have hmapped : input.Mapped x.exposureId := ⟨r, hr, hid.symm, by rw [htechnique]; rfl⟩
  have hsoft : x.soft = false := Bool.eq_false_iff.2 fun hsoft => hreports.soft.1 hsoft hmapped
  refine ⟨(x, tc), mem_flatMap.2 ⟨x, mem_filter.2 ⟨hx, ?_⟩, mem_map.2 ⟨tc, ?_, rfl⟩⟩, hid, rfl⟩
  · have hkind : x.elementKind ≠ some "Data" := fun hkind => hdata (hid ▸ (isData_iff hone hx).1 hkind)
    simp [isGraded, hid, (isLive_iff hids).2 hlive, hsoft, hkind]
  · exact mem_filter.2 ⟨htc, decide_eq_true (ne_empty_of_technique htechnique)⟩

end

/-! ## Accumulators -/

section

variable {l : List (ExposureCoverage × TechniqueCoverage)} {g : Graded} {b : Bucket} {e : ExposureCoverage}
  {tc : TechniqueCoverage} {k x : String}

lemma covered_reduceTiers (tiers : List TierFact) : (reduceTiers tiers).covered = !tiers.isEmpty := by
  cases tiers with
  | nil | cons tf tiers => rfl

lemma status_reduceTiers {tiers : List TierFact} (h : tiers ≠ []) :
    (reduceTiers tiers).status = .DETECT_ONLY ↔ tiers.any (·.function = .PREVENT) = false := by
  unfold reduceTiers
  rw [if_neg (by simpa using h)]
  cases tiers.any (·.function = .PREVENT) with
  | true | false => simp

@[simp]
lemma uncovered_foldl_countFact (l : List TierFact) (b : Bucket) :
    (l.foldl (countFact k) b).uncovered = b.uncovered := by
  induction l generalizing b with
  | nil => rfl
  | cons tf _ ih => exact ih _

@[simp]
lemma detectOnly_foldl_countFact (l : List TierFact) (b : Bucket) :
    (l.foldl (countFact k) b).detectOnly = b.detectOnly := by
  induction l generalizing b with
  | nil => rfl
  | cons tf _ ih => exact ih _

lemma mem_visitBucket :
    (k ∈ (visitBucket b e tc).uncovered.keys ↔ (pairKey e tc = k ∧ tc.tiers = []) ∨ k ∈ b.uncovered.keys) ∧
      (k ∈ (visitBucket b e tc).detectOnly.keys ↔
        (pairKey e tc = k ∧ tc.tiers ≠ [] ∧ tc.tiers.any (·.function = .PREVENT) = false) ∨ k ∈ b.detectOnly.keys) := by
  simp only [visitBucket, covered_reduceTiers]
  by_cases htiers : tc.tiers = []
  · simp [htiers, Record.Members.mem_add, eq_comm (a := k)]
  · have hempty : tc.tiers.isEmpty = false := by simpa using htiers
    simp only [hempty, Bool.not_false, Bool.not_true, Bool.false_eq_true, if_false, status_reduceTiers htiers]
    split_ifs with hany
    · simp [htiers, hany, Record.Members.mem_add, eq_comm (a := k)]
    · simp [htiers, hany]

/-! What one pair adds to the accumulators. -/

lemma bucket_visitTechnique (h : tc.techniqueId ≠ "") :
    (visitTechnique e g tc).bucket = visitBucket g.bucket e tc := by
  rw [visitTechnique, if_neg h]

lemma covering_visitTechnique (h : tc.techniqueId ≠ "") : (visitTechnique e g tc).coveringControlsByElement =
    if (reduceTiers tc.tiers).covered then
      g.coveringControlsByElement.update e.elementId fun set => (set.getD ∅).addAll (controlsOf tc.tiers)
    else g.coveringControlsByElement := by
  rw [visitTechnique, if_neg h]

lemma grid_visitTechnique (h : tc.techniqueId ≠ "") : (visitTechnique e g tc).grid =
    if e.inGrid then g.grid.update tc.techniqueId (visitCell e tc) else g.grid := by
  rw [visitTechnique, if_neg h]

lemma bucket_foldl_visitTechnique (h : ∀ p ∈ l, p.2.techniqueId ≠ "") (g : Graded) :
    (l.foldl (fun g p => visitTechnique p.1 g p.2) g).bucket = l.foldl (fun b p => visitBucket b p.1 p.2) g.bucket := by
  induction l generalizing g with
  | nil => rfl
  | cons p l ih =>
    rw [foldl_cons, ih fun q hq => h q (mem_cons_of_mem p hq), bucket_visitTechnique (h p (.head _))]
    rfl

/-- The buckets of pairs without and with detective facts. -/
lemma mem_bucket_foldl (l : List (ExposureCoverage × TechniqueCoverage)) (b : Bucket) :
    (k ∈ (l.foldl (fun b p => visitBucket b p.1 p.2) b).uncovered.keys ↔
        (∃ p ∈ l, pairKey p.1 p.2 = k ∧ p.2.tiers = []) ∨ k ∈ b.uncovered.keys) ∧
      (k ∈ (l.foldl (fun b p => visitBucket b p.1 p.2) b).detectOnly.keys ↔
        (∃ p ∈ l, pairKey p.1 p.2 = k ∧ p.2.tiers ≠ [] ∧ p.2.tiers.any (·.function = .PREVENT) = false) ∨
          k ∈ b.detectOnly.keys) := by
  induction l generalizing b with
  | nil => simp
  | cons p l ih =>
    rw [foldl_cons, (ih _).1, (ih _).2, mem_visitBucket.1, mem_visitBucket.2]
    simp only [mem_cons, exists_eq_or_imp, or_assoc, or_left_comm, and_self]

lemma mem_covering_foldl (h : ∀ p ∈ l, p.2.techniqueId ≠ "") {el : String} :
    x ∈ (((l.foldl (fun g p => visitTechnique p.1 g p.2) Graded.empty).coveringControlsByElement.get? el).getD ∅).keys ↔
      ∃ p ∈ l, p.1.elementId = el ∧ x ∈ controlsOf p.2.tiers := by
  have hfold : ∀ g : Graded, (l.foldl (fun g p => visitTechnique p.1 g p.2) g).coveringControlsByElement =
      (l.filter fun p => (reduceTiers p.2.tiers).covered).foldl (fun m p => Record.update m p.1.elementId fun set =>
        (set.getD ∅).addAll (controlsOf p.2.tiers)) g.coveringControlsByElement := by
    induction l with
    | nil => exact fun _ => rfl
    | cons p l ih =>
      intro g
      rw [foldl_cons, ih (fun q hq => h q (mem_cons_of_mem p hq)), filter_cons,
        covering_visitTechnique (h p (.head _))]
      split_ifs with hcovered
      all_goals rfl
  have hall : (∃ w, ((l.filter fun p => (reduceTiers p.2.tiers).covered).foldl (fun m p =>
      Record.update m p.1.elementId fun set => (set.getD ∅).addAll (controlsOf p.2.tiers))
        (∅ : Record String (Record.Members String))).get? el = some w ∧ x ∈ w.keys) ↔
      ∃ p ∈ l.filter fun p => (reduceTiers p.2.tiers).covered, p.1.elementId = el ∧ x ∈ controlsOf p.2.tiers := by
    refine exists_foldl_update_empty (fun p v => ?_) _
    rw [Record.Members.mem_addAll]
    cases v with
    | none | some w => simp
  rw [hfold]
  have hget : ∀ o : Option (Record.Members String), x ∈ (o.getD ∅).keys ↔ ∃ w, o = some w ∧ x ∈ w.keys := by
    intro o
    cases o with
    | none | some w => simp
  rw [hget]
  refine hall.trans ⟨?_, ?_⟩
  · rintro ⟨p, hp, hel, hx⟩
    exact ⟨p, (mem_filter.1 hp).1, hel, hx⟩
  · rintro ⟨p, hp, hel, hx⟩
    refine ⟨p, mem_filter.2 ⟨hp, ?_⟩, hel, hx⟩
    rw [covered_reduceTiers]
    cases htiers : p.2.tiers with
    | nil =>
      rw [htiers] at hx
      exact absurd hx not_mem_nil
    | cons => rfl

lemma grid_foldl (h : ∀ p ∈ l, p.2.techniqueId ≠ "") (g : Graded) :
    (l.foldl (fun g p => visitTechnique p.1 g p.2) g).grid = (l.filter fun p => p.1.inGrid).foldl
        (fun m p => Record.update m p.2.techniqueId (visitCell p.1 p.2)) g.grid := by
  induction l generalizing g with
  | nil => rfl
  | cons p l ih =>
    rw [foldl_cons, ih fun q hq => h q (mem_cons_of_mem p hq), filter_cons,
      grid_visitTechnique (h p (.head _))]
    split_ifs with hgrid
    all_goals rfl

/-- The elements of a cell, and those of them that are covered. -/
lemma mem_cell {t : String} {cell : GridCell} (hcell : ((l.filter fun p => p.1.inGrid).foldl
      (fun m p => Record.update m p.2.techniqueId (visitCell p.1 p.2)) (∅ : Record String GridCell)).get? t =
        some cell) :
    (x ∈ cell.elementsTotal.keys ↔ ∃ p ∈ l, p.1.inGrid = true ∧ p.2.techniqueId = t ∧ p.1.elementId = x) ∧
      (x ∈ cell.elementsCovered.keys ↔
        ∃ p ∈ l, p.1.inGrid = true ∧ p.2.techniqueId = t ∧ p.2.tiers ≠ [] ∧ p.1.elementId = x) := by
  have hsome : ∀ m : GridCell → Prop, (∃ w, ((l.filter fun p => p.1.inGrid).foldl
      (fun m p => Record.update m p.2.techniqueId (visitCell p.1 p.2)) (∅ : Record String GridCell)).get? t = some w ∧
        m w) ↔ m cell := by
    intro m
    constructor
    · rintro ⟨w, hw, hm⟩
      rwa [Option.some.inj (hcell.symm.trans hw)]
    · exact fun hm => ⟨cell, hcell, hm⟩
  constructor
  · apply (hsome fun w => x ∈ w.elementsTotal.keys).symm.trans
    refine (exists_foldl_update_empty (n := fun p => p.1.elementId = x) (fun p v => ?_) _).trans ?_
    · rw [visitCell, Record.Members.mem_add, eq_comm]
      cases v with
      | none | some w => simp
    · simp only [mem_filter, and_assoc]
  · apply (hsome fun w => x ∈ w.elementsCovered.keys).symm.trans
    refine (exists_foldl_update_empty (n := fun p => p.2.tiers ≠ [] ∧ p.1.elementId = x)
      (fun p v => ?_) _).trans ?_
    · rw [visitCell, covered_reduceTiers]
      by_cases htiers : p.2.tiers = []
      · cases v with
        | none | some w => simp [htiers]
      · have hempty : p.2.tiers.isEmpty = false := by simpa using htiers
        simp only [hempty, Bool.not_false, if_true, Record.Members.mem_add]
        cases v with
        | none | some w => simp [htiers, eq_comm]
    · simp only [mem_filter, and_assoc]

end

/-! ## Tiers of rows -/

/-- The choices of the tier control besides all rows. -/
def TIER_OPTIONS : List String :=
  ["DIRECT", "INDIRECT_MITIGATION", "INDIRECT_D3FEND", "UNCOVERED"]

lemma isSome_foldl_betterTier (facts : List TierFact) {best : Option CoverageTier} (h : best.isSome = true) :
    (facts.foldl betterTier best).isSome = true := by
  induction facts generalizing best with
  | nil => exact h
  | cons _ _ ih =>
    apply ih
    unfold betterTier
    cases best with
    | none => rfl
    | some b =>
      simp only
      split_ifs <;> rfl

lemma isSome_bestTier (facts : List TierFact) :
    (reduceTiers facts).bestTier.isSome = (reduceTiers facts).covered := by
  cases facts with
  | nil => rfl
  | cons tf facts => exact isSome_foldl_betterTier facts rfl

lemma filterByTier_perm {rows : List Row} (h : ∀ r ∈ rows, r.bestTier.isSome = r.covered) :
    (TIER_OPTIONS.flatMap (filterByTier rows)).Perm rows := by
  have hfilter : ∀ o ∈ TIER_OPTIONS, filterByTier rows o = rows.filter fun r =>
      if o = "UNCOVERED" then !r.covered else decide (r.bestTier.map tierText = some o) := by
    intro o ho
    have hall : ∀ o ∈ TIER_OPTIONS, ¬ (o = "all" || o = "") = true := by decide
    unfold filterByTier
    rw [if_neg (hall o ho)]
    split_ifs <;> rfl
  refine perm_iff_count.2 fun r => ?_
  rw [flatMap_congr hfilter]
  by_cases hr : r ∈ rows
  · -- The row is under its best tier, or under none of them and uncovered.
    have hbest := h r hr
    simp only [TIER_OPTIONS, flatMap_cons, flatMap_nil, append_nil, count_append]
    cases hcase : r.bestTier with
    | none =>
      rw [hcase] at hbest
      simp [count_filter, count_eq_zero.2, mem_filter, hcase, ← hbest]
    | some tier =>
      rw [hcase] at hbest
      cases tier <;>
        simp [count_filter, count_eq_zero.2, mem_filter, hcase, ← hbest, tierText]
  · rw [count_eq_zero.2 hr, count_eq_zero]
    intro hmem
    obtain ⟨o, -, hmem⟩ := mem_flatMap.1 hmem
    exact hr (mem_filter.1 hmem).1

/-! ## The view -/

namespace AggregateInput

variable (input : AggregateInput) (ledger : List LedgerElement)

/-- The base rows of the live exposures of components and data flows to a technique. -/
def gridRows (t : String) : List BaseRow :=
  input.baseRows.filter fun r =>
    r.technique = some t && r.elementKind.any (· ∈ GRID_KINDS) && Live ledger r.exposureId

def gridElements (t : String) : List String :=
  ((input.gridRows ledger t).map (·.elementId)).dedup

/-- Those of them with an exposure that a row covers. -/
def coveredElements (t : String) : List String :=
  (((input.gridRows ledger t).filter fun r => input.Covered r.exposureId t).map (·.elementId)).dedup

/-- The control contributes a row that covers a technique of a live exposure of the element. -/
def CoversOn (elementId control : String) : Prop :=
  ∃ r ∈ input.baseRows, r.elementId = elementId ∧ Live ledger r.exposureId ∧ ∃ t, r.technique = some t ∧
    ∃ row ∈ input.coveringRows, row.Covers r.exposureId t ∧ row.controlId = control

/-- Neither the ledger nor a base row says that the element is data. -/
def OffData (el : LedgerElement) : Prop :=
  el.type ≠ "Data" ∧ ∀ r ∈ input.baseRows, r.elementId = el.id → r.elementKind ≠ some "Data"

end AggregateInput

/-- The view of the result of the aggregation. -/
def coverageView (localeCompare : String → String → Ordering) (input : AggregateInput) (ledger : List LedgerElement) :
    CoverageView :=
  buildCoverageView localeCompare ledger (aggregateCoverage localeCompare input)

/-- The buckets behind the numbers of the view. -/
def coverageBucket (localeCompare : String → String → Ordering) (input : AggregateInput)
    (ledger : List LedgerElement) : Bucket :=
  (accumulate (aggregateCoverage localeCompare input) ledger).graded.bucket

/-- The view drops no exposure and no pair, and claims no more than the rows say. -/
structure Honest (input : AggregateInput) (ledger : List LedgerElement) (v : CoverageView) (b : Bucket) : Prop where
  excluded : v.offGrid.dispositionedExcluded = (input.exposureIds.filter fun e => ¬ Live ledger e).length
  soft : v.offGrid.softCount = (input.exposureIds.filter fun e => Live ledger e ∧ ¬ input.Mapped e).length
  data : v.offGrid.dataMappedCount =
    (input.exposureIds.filter fun e => Live ledger e ∧ input.Mapped e ∧ input.IsData e).length
  once : v.offGrid.dispositionedExcluded + v.offGrid.softCount + v.offGrid.dataMappedCount +
    (input.rest ledger).length = input.exposureIds.length
  pairs : ∀ e t, (e, t) ∈ input.restPairs ledger →
    (e ++ "|" ++ t ∈ b.uncovered.keys ↔ ¬ input.Covered e t) ∧
      (e ++ "|" ++ t ∈ b.detectOnly.keys ↔ input.Covered e t ∧ ¬ input.Prevented e t) ∧
      (e ++ "|" ++ t ∉ b.uncovered.keys → e ++ "|" ++ t ∉ b.detectOnly.keys → input.Prevented e t)
  uncovered : v.summary.uncovered = ((input.restPairs ledger).filter fun p => ¬ input.Covered p.1 p.2).length
  detectOnly : v.summary.detectOnly =
    ((input.restPairs ledger).filter fun p => input.Covered p.1 p.2 ∧ ¬ input.Prevented p.1 p.2).length
  rows : (v.rows.map (·.techniqueId)).Nodup ∧
    ∀ t, t ∈ v.rows.map (·.techniqueId) ↔ input.gridElements ledger t ≠ []
  elements : ∀ row ∈ v.rows, row.elementsTotal = (input.gridElements ledger row.techniqueId).length ∧
    row.elementsCovered = (input.coveredElements ledger row.techniqueId).length
  mismatch : ∀ el ∈ ledger, input.OffData el → ∀ c ∈ el.supporting,
    (c ∈ (v.mismatchByElement.get? el.id).getD [] ↔ ¬ input.CoversOn ledger el.id c)
  tiers : (TIER_OPTIONS.flatMap (filterByTier v.rows)).Perm v.rows ∧ filterByTier v.rows "all" = v.rows

section

variable {input : AggregateInput} {ledger : List LedgerElement} {localeCompare : String → String → Ordering}
  {e t k x : String}

lemma countP_exposures {p : ExposureCoverage → Bool} {q : String → Bool}
    (h : ∀ x ∈ (aggregateCoverage localeCompare input).exposures, p x = q x.exposureId) :
    (aggregateCoverage localeCompare input).exposures.countP p = (input.exposureIds.filter q).length := by
  rw [← countP_eq_length_filter, ← (exposureIds_perm localeCompare input).countP_eq, countP_map]
  exact countP_congr fun x hx => by rw [h x hx]; rfl

lemma soft_eq (hone : input.OnOneElement) {x : ExposureCoverage}
    (hx : x ∈ (aggregateCoverage localeCompare input).exposures) : x.soft = decide (¬ input.Mapped x.exposureId) :=
  Bool.eq_iff_iff.2 ((reports_of_mem hone hx).soft.trans decide_eq_true_iff.symm)

lemma isLive_eq (hids : DistinctIds ledger) : isLive ledger e = decide (Live ledger e) :=
  Bool.eq_iff_iff.2 ((isLive_iff hids).trans decide_eq_true_iff.symm)

/-- What the loop counts, by the rows. -/
lemma counts_accumulate (localeCompare : String → String → Ordering) (hone : input.OnOneElement)
    (hids : DistinctIds ledger) :
    (accumulate (aggregateCoverage localeCompare input) ledger).dispositionedExcluded =
        (input.exposureIds.filter fun e => ¬ Live ledger e).length ∧
      (accumulate (aggregateCoverage localeCompare input) ledger).softCount =
        (input.exposureIds.filter fun e => Live ledger e ∧ ¬ input.Mapped e).length ∧
      (accumulate (aggregateCoverage localeCompare input) ledger).dataMappedCount =
        (input.exposureIds.filter fun e => Live ledger e ∧ input.Mapped e ∧ input.IsData e).length := by
  have hcounts := counts_foldl_visitExposure ledger (aggregateCoverage localeCompare input).techniques
    (aggregateCoverage localeCompare input).exposures Acc.empty
  refine ⟨hcounts.1.trans ?_, hcounts.2.1.trans ?_, hcounts.2.2.trans ?_⟩
  · refine (Nat.zero_add _).trans (countP_exposures fun x _ => ?_)
    rw [isLive_eq hids, decide_not]
  · refine (Nat.zero_add _).trans (countP_exposures fun x hx => ?_)
    rw [isLive_eq hids, soft_eq hone hx, Bool.decide_and]
  · refine (Nat.zero_add _).trans (countP_exposures fun x hx => ?_)
    have hdata := isData_iff hone hx
    rw [isLive_eq hids, soft_eq hone hx]
    simp only [hdata, Bool.decide_and, decide_not, Bool.not_not, Bool.and_assoc]

/-- The four sorts of exposures leave none out. -/
lemma length_exposureIds (input : AggregateInput) (ledger : List LedgerElement) :
    (input.exposureIds.filter fun e => ¬ Live ledger e).length +
        (input.exposureIds.filter fun e => Live ledger e ∧ ¬ input.Mapped e).length +
        (input.exposureIds.filter fun e => Live ledger e ∧ input.Mapped e ∧ input.IsData e).length +
        (input.rest ledger).length = input.exposureIds.length := by
  unfold AggregateInput.rest
  induction input.exposureIds with
  | nil => rfl
  | cons e l ih =>
    simp only [filter_cons, decide_eq_true_eq]
    by_cases hlive : Live ledger e
    · by_cases hmapped : input.Mapped e
      · by_cases hdata : input.IsData e
        · simp only [hlive, hmapped, hdata, not_true, and_self, and_false, if_true, if_false, length_cons]
          omega
        · simp only [hlive, hmapped, hdata, not_true, not_false_eq_true, and_self, and_false, if_true, if_false,
            length_cons]
          omega
      · simp only [hlive, hmapped, not_true, not_false_eq_true, and_self, and_false, false_and, if_true, if_false,
          length_cons]
        omega
    · simp only [hlive, not_false_eq_true, false_and, if_true, if_false, length_cons]
      omega

lemma techniqueId_ne_empty {p : ExposureCoverage × TechniqueCoverage} {l : List ExposureCoverage}
    (hp : p ∈ gradedPairs ledger l) : p.2.techniqueId ≠ "" := by
  obtain ⟨x, -, hp⟩ := mem_flatMap.1 hp
  obtain ⟨tc, htc, rfl⟩ := mem_map.1 hp
  exact of_decide_eq_true (mem_filter.1 htc).2

lemma plain_of_restPairs (hplain : input.PlainTechniques) (h : (e, t) ∈ input.restPairs ledger) :
    ' ' ∉ t.toList ∧ '|' ∉ t.toList := by
  obtain ⟨⟨r, hr, -, htechnique⟩, -⟩ := mem_restPairs.1 h
  exact hplain.1 r hr t htechnique

lemma graded_accumulate (localeCompare : String → String → Ordering) (input : AggregateInput)
    (ledger : List LedgerElement) : (accumulate (aggregateCoverage localeCompare input) ledger).graded =
      (pairsOf localeCompare input ledger).foldl (fun g p => visitTechnique p.1 g p.2) Graded.empty :=
  graded_foldl_visitExposure _ _

/-- What is in a bucket, by the pairs of the rest: a bucket takes the pairs whose facts satisfy `Q`. -/
lemma exists_pair_iff (hone : input.OnOneElement) (hids : DistinctIds ledger) {Q : List TierFact → Prop} :
    (∃ p ∈ pairsOf localeCompare input ledger, pairKey p.1 p.2 = k ∧ Q p.2.tiers) ↔
      ∃ p ∈ input.restPairs ledger, p.1 ++ "|" ++ p.2 = k ∧ Q (tierFactsFor input.cells p.1 p.2) := by
  constructor
  · rintro ⟨p, hp, hkey, hQ⟩
    obtain ⟨hrest, -, htiers⟩ := of_mem_pairsOf hone hids hp
    exact ⟨_, hrest, hkey, htiers ▸ hQ⟩
  · rintro ⟨⟨e, t⟩, hrest, hkey, hQ⟩
    obtain ⟨p, hp, rfl, rfl⟩ := exists_mem_pairsOf localeCompare hone hids hrest
    obtain ⟨-, -, htiers⟩ := of_mem_pairsOf hone hids hp
    exact ⟨p, hp, hkey, htiers ▸ hQ⟩

section

variable (hplain : input.PlainTechniques)
include hplain

lemma mem_coverageBucket (hone : input.OnOneElement) (hids : DistinctIds ledger) :
    (k ∈ (coverageBucket localeCompare input ledger).uncovered.keys ↔
      ∃ p ∈ input.restPairs ledger, p.1 ++ "|" ++ p.2 = k ∧ ¬ input.Covered p.1 p.2) ∧
    (k ∈ (coverageBucket localeCompare input ledger).detectOnly.keys ↔
      ∃ p ∈ input.restPairs ledger, p.1 ++ "|" ++ p.2 = k ∧ input.Covered p.1 p.2 ∧ ¬ input.Prevented p.1 p.2) := by
  have hmem := mem_bucket_foldl (k := k) (pairsOf localeCompare input ledger) Graded.empty.bucket
  rw [coverageBucket, graded_accumulate, bucket_foldl_visitTechnique fun p hp => techniqueId_ne_empty hp, hmem.1,
    hmem.2, or_iff_left (show k ∉ (Graded.empty.bucket.uncovered).keys from not_mem_nil),
    or_iff_left (show k ∉ (Graded.empty.bucket.detectOnly).keys from not_mem_nil),
    exists_pair_iff (Q := fun tiers => tiers = []) hone hids,
    exists_pair_iff (Q := fun tiers => tiers ≠ [] ∧ tiers.any (·.function = .PREVENT) = false) hone hids]
  constructor
  all_goals
    refine exists_congr fun p => and_congr_right fun hp => and_congr_right fun _ => ?_
    have hspace := (plain_of_restPairs hplain hp).1
    simp only [Ne, tierFactsFor_eq_nil_iff hplain hspace, ← any_prevent_iff hplain hspace, not_not, Bool.not_eq_true]

lemma pair_of_key {p : String × String} (hp : p ∈ input.restPairs ledger)
    (ht : '|' ∉ t.toList) (h : p.1 ++ "|" ++ p.2 = e ++ "|" ++ t) : p = (e, t) := by
  obtain ⟨h₁, h₂⟩ := append_separator_inj (plain_of_restPairs hplain hp).2 ht h
  exact Prod.ext h₁ h₂

lemma size_eq_length {s : Record.Members String} {q : String × String → Bool}
    (h : ∀ k, k ∈ s.keys ↔ ∃ p ∈ input.restPairs ledger, p.1 ++ "|" ++ p.2 = k ∧ q p = true) :
    s.size = ((input.restPairs ledger).filter q).length := by
  have hnodup : (((input.restPairs ledger).filter q).map fun p => p.1 ++ "|" ++ p.2).Nodup := by
    refine List.Nodup.map_on (fun p hp p' hp' heq => ?_) ((nodup_dedup _).filter _)
    exact pair_of_key hplain (mem_filter.1 hp).1 (plain_of_restPairs hplain (mem_filter.1 hp').1).2 heq
  rw [Record.Members.size_eq_dedup (l := ((input.restPairs ledger).filter q).map fun p => p.1 ++ "|" ++ p.2),
    hnodup.dedup, length_map]
  intro k
  rw [h, mem_map]
  simp only [mem_filter]
  constructor
  · rintro ⟨p, hp, hk, hq⟩
    exact ⟨p, ⟨hp, hq⟩, hk⟩
  · rintro ⟨p, ⟨hp, hq⟩, hk⟩
    exact ⟨p, hp, hk, hq⟩

lemma pairs_coverageBucket (hone : input.OnOneElement) (hids : DistinctIds ledger)
    (h : (e, t) ∈ input.restPairs ledger) :
    (e ++ "|" ++ t ∈ (coverageBucket localeCompare input ledger).uncovered.keys ↔ ¬ input.Covered e t) ∧
      (e ++ "|" ++ t ∈ (coverageBucket localeCompare input ledger).detectOnly.keys ↔
        input.Covered e t ∧ ¬ input.Prevented e t) ∧
      (e ++ "|" ++ t ∉ (coverageBucket localeCompare input ledger).uncovered.keys →
        e ++ "|" ++ t ∉ (coverageBucket localeCompare input ledger).detectOnly.keys → input.Prevented e t) := by
  have hplain' := (plain_of_restPairs hplain h).2
  have huncovered : e ++ "|" ++ t ∈ (coverageBucket localeCompare input ledger).uncovered.keys ↔
      ¬ input.Covered e t := by
    rw [(mem_coverageBucket hplain hone hids).1]
    constructor
    · rintro ⟨p, hp, hkey, hnot⟩
      rwa [pair_of_key hplain hp hplain' hkey] at hnot
    · exact fun hnot => ⟨(e, t), h, rfl, hnot⟩
  have hdetect : e ++ "|" ++ t ∈ (coverageBucket localeCompare input ledger).detectOnly.keys ↔
      input.Covered e t ∧ ¬ input.Prevented e t := by
    rw [(mem_coverageBucket hplain hone hids).2]
    constructor
    · rintro ⟨p, hp, hkey, hnot⟩
      rwa [pair_of_key hplain hp hplain' hkey] at hnot
    · exact fun hnot => ⟨(e, t), h, rfl, hnot⟩
  refine ⟨huncovered, hdetect, fun hcovered hprevented => ?_⟩
  by_contra hnot
  exact hprevented (hdetect.2 ⟨not_not.1 fun hc => hcovered (huncovered.2 hc), hnot⟩)

end

/-! ### The grid -/

/-- The grid after the loop. -/
def coverageGrid (localeCompare : String → String → Ordering) (input : AggregateInput) (ledger : List LedgerElement) :
    Record String GridCell :=
  (accumulate (aggregateCoverage localeCompare input) ledger).graded.grid

lemma coverageGrid_eq : coverageGrid localeCompare input ledger =
    ((pairsOf localeCompare input ledger).filter fun p => p.1.inGrid).foldl
      (fun m p => Record.update m p.2.techniqueId (visitCell p.1 p.2)) ∅ := by
  rw [coverageGrid, graded_accumulate, grid_foldl fun p hp => techniqueId_ne_empty hp]
  rfl

/-- The grid pairs of a technique are the grid rows of it; what holds of the ids of a pair is read off its row. -/
lemma exists_gridPair_iff (hone : input.OnOneElement) (hids : DistinctIds ledger) {Q : List TierFact → Prop} :
    (∃ p ∈ pairsOf localeCompare input ledger, p.1.inGrid = true ∧ p.2.techniqueId = t ∧ Q p.2.tiers ∧
        p.1.elementId = x) ↔
      ∃ r ∈ input.gridRows ledger t, Q (tierFactsFor input.cells r.exposureId t) ∧ r.elementId = x := by
  constructor
  · rintro ⟨p, hp, hgrid, rfl, hQ, rfl⟩
    obtain ⟨hrest, hreports, htiers⟩ := of_mem_pairsOf hone hids hp
    obtain ⟨⟨r, hr, he, htechnique⟩, hlive, -⟩ := mem_restPairs.1 hrest
    obtain ⟨hel, hkind⟩ := hreports.element r hr he
    refine ⟨r, mem_filter.2 ⟨hr, ?_⟩, ?_, hel.symm⟩
    · rw [ExposureCoverage.inGrid, hkind] at hgrid
      simp [htechnique, hgrid, he, hlive]
    · rw [he, ← htiers]
      exact hQ
  · rintro ⟨r, hr, hQ, rfl⟩
    obtain ⟨hbase, hcond⟩ := mem_filter.1 hr
    simp only [Bool.and_eq_true, decide_eq_true_eq] at hcond
    obtain ⟨⟨htechnique, hgrid⟩, hlive⟩ := hcond
    have hdata : ¬ input.IsData r.exposureId := by
      rintro ⟨r', hr', he, hkind⟩
      rw [← (hone r' hr' r hbase he).2, hkind] at hgrid
      revert hgrid
      decide
    obtain ⟨p, hp, he, rfl⟩ := exists_mem_pairsOf localeCompare hone hids
      (mem_restPairs.2 ⟨⟨r, hbase, rfl, htechnique⟩, hlive, hdata⟩)
    obtain ⟨-, hreports, htiers⟩ := of_mem_pairsOf hone hids hp
    obtain ⟨hel, hkind⟩ := hreports.element r hbase he.symm
    refine ⟨p, hp, ?_, rfl, ?_, hel⟩
    · rw [ExposureCoverage.inGrid, hkind]
      exact hgrid
    · rw [htiers, he]
      exact hQ

lemma mem_gridElements : x ∈ input.gridElements ledger t ↔ ∃ r ∈ input.gridRows ledger t, r.elementId = x := by
  rw [AggregateInput.gridElements, mem_dedup, mem_map]

lemma mem_coveredElements : x ∈ input.coveredElements ledger t ↔
    ∃ r ∈ input.gridRows ledger t, input.Covered r.exposureId t ∧ r.elementId = x := by
  rw [AggregateInput.coveredElements, mem_dedup, mem_map]
  simp only [mem_filter, decide_eq_true_eq, and_assoc]

lemma elements_coverageGrid (hplain : input.PlainTechniques) (hone : input.OnOneElement) (hids : DistinctIds ledger)
    {cell : GridCell} (h : (coverageGrid localeCompare input ledger).get? t = some cell) :
    cell.elementsTotal.size = (input.gridElements ledger t).length ∧
      cell.elementsCovered.size = (input.coveredElements ledger t).length := by
  rw [coverageGrid_eq] at h
  constructor
  · rw [Record.Members.size_eq_dedup (l := input.gridElements ledger t),
      List.Nodup.dedup (l := input.gridElements ledger t) (nodup_dedup _)]
    intro x
    have hpairs : (∃ p ∈ pairsOf localeCompare input ledger, p.1.inGrid = true ∧ p.2.techniqueId = t ∧ True ∧
        p.1.elementId = x) ↔ ∃ r ∈ input.gridRows ledger t, True ∧ r.elementId = x :=
      exists_gridPair_iff (Q := fun _ => True) hone hids
    simp only [true_and] at hpairs
    rw [(mem_cell h).1, hpairs, mem_gridElements]
  · rw [Record.Members.size_eq_dedup (l := input.coveredElements ledger t),
      List.Nodup.dedup (l := input.coveredElements ledger t) (nodup_dedup _)]
    intro x
    rw [(mem_cell h).2, exists_gridPair_iff (Q := fun tiers => tiers ≠ []) hone hids, mem_coveredElements]
    refine exists_congr fun r => and_congr_right fun hr => and_congr_left' ?_
    have htechnique : r.technique = some t := by
      have hcond := (mem_filter.1 hr).2
      simp only [Bool.and_eq_true, decide_eq_true_eq] at hcond
      exact hcond.1.1
    rw [Ne, tierFactsFor_eq_nil_iff hplain (hplain.1 r (mem_filter.1 hr).1 t htechnique).1, not_not]

lemma mem_keys_coverageGrid (hone : input.OnOneElement) (hids : DistinctIds ledger) :
    t ∈ (coverageGrid localeCompare input ledger).keys ↔ input.gridElements ledger t ≠ [] := by
  have hkeys : t ∈ (coverageGrid localeCompare input ledger).keys ↔
      ∃ p ∈ pairsOf localeCompare input ledger, p.1.inGrid = true ∧ p.2.techniqueId = t := by
    rw [coverageGrid_eq, mem_keys_foldl_update, mem_map]
    simp only [mem_filter, and_assoc]
  have hpairs : (∃ p ∈ pairsOf localeCompare input ledger, p.1.inGrid = true ∧ p.2.techniqueId = t) ↔
      ∃ x, x ∈ input.gridElements ledger t := by
    constructor
    · rintro ⟨p, hp, hgrid, ht⟩
      obtain ⟨r, hr, -, -⟩ := (exists_gridPair_iff (Q := fun _ => True) hone hids).1 ⟨p, hp, hgrid, ht, trivial, rfl⟩
      exact ⟨r.elementId, mem_gridElements.2 ⟨r, hr, rfl⟩⟩
    · rintro ⟨x, hx⟩
      obtain ⟨r, hr, hel⟩ := mem_gridElements.1 hx
      have hpair : ∃ p ∈ pairsOf localeCompare input ledger, p.1.inGrid = true ∧ p.2.techniqueId = t ∧ True ∧
          p.1.elementId = x := (exists_gridPair_iff (Q := fun _ => True) hone hids).2 ⟨r, hr, trivial, hel⟩
      obtain ⟨p, hp, hgrid, ht, -⟩ := hpair
      exact ⟨p, hp, hgrid, ht⟩
  rw [hkeys, hpairs]
  exact ⟨fun ⟨x, hx⟩ => ne_nil_of_mem hx, exists_mem_of_ne_nil _⟩

/-! ### Mismatched controls -/

lemma get?_mismatchByElement (hids : DistinctIds ledger) (covering : Record String (Record.Members String))
    {el : LedgerElement} (hel : el ∈ ledger) (htype : el.type ≠ "Data") :
    ((mismatchByElement ledger covering).get? el.id).getD [] = mismatched covering el := by
  have hentries : mismatchByElement ledger covering = ledger.foldl (fun m el =>
      (if el.type = "Data" || (mismatched covering el).isEmpty then none
        else some (mismatched covering el)).elim m (m.set el.id)) ∅ := by
    unfold mismatchByElement
    congr 1
    funext m el
    split_ifs <;> rfl
  have hget : (mismatchByElement ledger covering).get? el.id =
      if el.type = "Data" || (mismatched covering el).isEmpty then none else some (mismatched covering el) := by
    rw [hentries]
    exact get?_foldl_entries hids.1 ∅ hel rfl
  rw [hget, decide_eq_false htype, Bool.false_or]
  split_ifs with hempty
  · exact (List.isEmpty_iff.1 hempty).symm
  · rfl

/-- The controls that cover something of an element are those with a row for one of its exposures. -/
lemma mem_coveringControls (hplain : input.PlainTechniques) (hone : input.OnOneElement) (hids : DistinctIds ledger)
    {el : LedgerElement} (hel : input.OffData el) (hx : x ≠ "") :
    x ∈ (((accumulate (aggregateCoverage localeCompare input) ledger).graded.coveringControlsByElement.get?
        el.id).getD ∅).keys ↔ input.CoversOn ledger el.id x := by
  rw [graded_accumulate, mem_covering_foldl fun p hp => techniqueId_ne_empty hp]
  have hcontrols : ∀ tiers : List TierFact, x ∈ controlsOf tiers ↔ ∃ fact ∈ tiers, x ∈ fact.controlIds :=
    fun _ => mem_flatMap
  constructor
  · rintro ⟨p, hp, hel, hmem⟩
    obtain ⟨hrest, hreports, htiers⟩ := of_mem_pairsOf hone hids hp
    obtain ⟨⟨r, hr, he, htechnique⟩, hlive, -⟩ := mem_restPairs.1 hrest
    rw [hcontrols, htiers, mem_controlIds_iff hplain (plain_of_restPairs hplain hrest).1] at hmem
    refine ⟨r, hr, (hreports.element r hr he).1.symm.trans hel, he ▸ hlive, _, htechnique, ?_⟩
    rw [he]
    exact hmem.2
  · rintro ⟨r, hr, hrel, hlive, t, htechnique, hrow⟩
    have hdata : ¬ input.IsData r.exposureId := by
      rintro ⟨r', hr', he, hkind⟩
      refine hel.2 r' hr' ?_ hkind
      rw [(hone r' hr' r hr he).1, hrel]
    have hrest : (r.exposureId, t) ∈ input.restPairs ledger :=
      mem_restPairs.2 ⟨⟨r, hr, rfl, htechnique⟩, hlive, hdata⟩
    obtain ⟨p, hp, he, rfl⟩ := exists_mem_pairsOf localeCompare hone hids hrest
    obtain ⟨-, hreports, htiers⟩ := of_mem_pairsOf hone hids hp
    refine ⟨p, hp, (hreports.element r hr he.symm).1.trans hrel, ?_⟩
    rw [hcontrols, htiers, he, mem_controlIds_iff hplain (plain_of_restPairs hplain hrest).1]
    exact ⟨hx, hrow⟩

lemma mem_mismatchByElement (localeCompare : String → String → Ordering) (hplain : input.PlainTechniques)
    (hone : input.OnOneElement) (hids : DistinctIds ledger) {el : LedgerElement} (hel : el ∈ ledger)
    (hdata : input.OffData el) (hx : x ∈ el.supporting) :
    x ∈ ((coverageView localeCompare input ledger).mismatchByElement.get? el.id).getD [] ↔
      ¬ input.CoversOn ledger el.id x := by
  have hne : x ≠ "" := of_decide_eq_true (mem_filter.1 hx).2
  show x ∈ ((mismatchByElement ledger _).get? el.id).getD [] ↔ _
  rw [get?_mismatchByElement hids _ hel hdata.1, mismatched, mem_filter, decide_eq_true_eq,
    mem_coveringControls hplain hone hids hdata hne]
  exact and_iff_right hx

/-! ### Main result -/

lemma rows_perm : (coverageView localeCompare input ledger).rows.Perm
    ((coverageGrid localeCompare input ledger).entries.map fun g =>
      gridRow localeCompare ledger (aggregateCoverage localeCompare input).techniques g.1 g.2) :=
  sortBy_perm _ _

lemma techniqueIds_perm : ((coverageView localeCompare input ledger).rows.map (·.techniqueId)).Perm
    (coverageGrid localeCompare input ledger).keys := by
  apply (rows_perm.map _).trans
  rw [map_map]
  exact List.Perm.refl _

/-- The report neither drops nor over-claims. -/
theorem honest_coverageView (localeCompare : String → String → Ordering) (hplain : input.PlainTechniques)
    (hone : input.OnOneElement) (hids : DistinctIds ledger) :
    Honest input ledger (coverageView localeCompare input ledger) (coverageBucket localeCompare input ledger) := by
  obtain ⟨hexcluded, hsoft, hdata⟩ := counts_accumulate localeCompare hone hids
  have hrow : ∀ row ∈ (coverageView localeCompare input ledger).rows, ∃ t cell,
      (coverageGrid localeCompare input ledger).get? t = some cell ∧
        row = gridRow localeCompare ledger (aggregateCoverage localeCompare input).techniques t cell := by
    intro row hmem
    obtain ⟨⟨t, cell⟩, hcell, rfl⟩ := mem_map.1 (rows_perm.mem_iff.1 hmem)
    exact ⟨t, cell, mem_entries_iff.1 hcell, rfl⟩
  exact
    { excluded := hexcluded
      soft := hsoft
      data := hdata
      once := by
        show (accumulate _ _).dispositionedExcluded + (accumulate _ _).softCount +
          (accumulate _ _).dataMappedCount + _ = _
        rw [hexcluded, hsoft, hdata]
        exact length_exposureIds input ledger
      pairs := fun e t h => pairs_coverageBucket hplain hone hids h
      uncovered := size_eq_length (s := (coverageBucket localeCompare input ledger).uncovered) hplain fun k => by
        rw [(mem_coverageBucket hplain hone hids).1]
        simp only [decide_eq_true_eq]
      detectOnly := size_eq_length (s := (coverageBucket localeCompare input ledger).detectOnly) hplain fun k => by
        rw [(mem_coverageBucket hplain hone hids).2]
        simp only [decide_eq_true_eq]
      rows := by
        refine ⟨techniqueIds_perm.nodup_iff.2 (coverageGrid localeCompare input ledger).nodup, fun t => ?_⟩
        rw [techniqueIds_perm.mem_iff]
        exact mem_keys_coverageGrid hone hids
      elements := by
        intro row hmem
        obtain ⟨t, cell, hcell, rfl⟩ := hrow row hmem
        exact elements_coverageGrid hplain hone hids hcell
      mismatch := fun el hel hoff c hc => mem_mismatchByElement localeCompare hplain hone hids hel hoff hc
      tiers := by
        refine ⟨filterByTier_perm fun row hmem => ?_, rfl⟩
        obtain ⟨t, cell, -, rfl⟩ := hrow row hmem
        exact isSome_bestTier cell.facts }

end

/-! ### An input -/

/-- A component and a data element with one exposure each. The exposure of the component is mapped to two techniques,
of which one is prevented by a control and detected by another one. -/
def sampleInput : AggregateInput where
  modelId := "m"
  generatedAt := "now"
  baseRows := [⟨"web", some "Component", "e1", some "T1", none, none, []⟩,
    ⟨"web", some "Component", "e1", some "T2", none, none, []⟩,
    ⟨"db", some "Data", "e2", some "T1", none, none, []⟩]
  directRows := [⟨"e1", "T1", "cm1", "waf", "COUNTERMEASURE_MITIGATES"⟩,
    ⟨"e1", "T1", "cm2", "siem", "COUNTERMEASURE_DETECTS"⟩]
  mitigationRows := []
  d3fendRows := []

def sampleLedger : List LedgerElement :=
  [⟨"web", none, "Component", [⟨"waf", none⟩, ⟨"edr", none⟩], [⟨"e1", none⟩]⟩, ⟨"db", none, "Data", [], [⟨"e2", none⟩]⟩]

theorem honest_sample : Honest sampleInput sampleLedger (coverageView compareTexts sampleInput sampleLedger)
    (coverageBucket compareTexts sampleInput sampleLedger) :=
  honest_coverageView compareTexts (by decide +kernel) (by decide +kernel) (by decide +kernel)

/-- A control with a row for another technique than those of the exposure. -/
def strayRow : AggregateInput :=
  { sampleInput with
    directRows := [⟨"e1", "T9", "cm9", "edr", "COUNTERMEASURE_MITIGATES"⟩] }

/-- The row names a live exposure of the element that is mapped to techniques, and its control is mismatched. -/
theorem mismatched_strayRow : ¬ ∀ (input : AggregateInput) (ledger : List LedgerElement), input.PlainTechniques →
    input.OnOneElement → DistinctIds ledger → ∀ el ∈ ledger, input.OffData el → ∀ c ∈ el.supporting,
      (c ∈ ((coverageView compareTexts input ledger).mismatchByElement.get? el.id).getD [] ↔
        ¬ ∃ r ∈ input.baseRows, r.elementId = el.id ∧ Live ledger r.exposureId ∧ input.Mapped r.exposureId ∧
          ∃ row ∈ input.coveringRows, row.exposureId = r.exposureId ∧ row.cmId ≠ "" ∧ row.controlId = c) := by
  intro h
  have hoff : strayRow.OffData ⟨"web", none, "Component", [⟨"waf", none⟩, ⟨"edr", none⟩], [⟨"e1", none⟩]⟩ :=
    ⟨by decide +kernel, by decide +kernel⟩
  have hplain : strayRow.PlainTechniques := by decide +kernel
  have hone : strayRow.OnOneElement := by decide +kernel
  have hids : DistinctIds sampleLedger := by decide +kernel
  have hcontrol : "edr" ∈ LedgerElement.supporting
      ⟨"web", none, "Component", [⟨"waf", none⟩, ⟨"edr", none⟩], [⟨"e1", none⟩]⟩ := by decide +kernel
  -- No base row maps an exposure to the technique of the row.
  have hstray : ∀ r ∈ strayRow.baseRows, ∀ row ∈ strayRow.coveringRows, r.technique ≠ some row.techniqueId := by
    decide +kernel
  have hreported := (mem_mismatchByElement compareTexts hplain hone hids (.head _) hoff
    hcontrol).2 fun ⟨r, hr, _, _, t, ht, row, hrow, hcovers, _⟩ => hstray r hr row hrow (ht.trans (by rw [hcovers.2.1]))
  exact (h strayRow sampleLedger hplain hone hids _ (.head _) hoff "edr" hcontrol).1 hreported
    (by decide +kernel)

end Coverage
