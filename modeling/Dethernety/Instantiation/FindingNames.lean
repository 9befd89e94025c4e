import Dethernety.Instantiation.FindingWriter

/-!
# Names of findings

A storable name is written as it is, and it is in the list of valid names by Cypher's comparison on every
engine (`inList_of_storable`).
-/

open List Record

namespace Findings

open ModelDirectory (Json)

variable {engine : Engine} {kind : FindingKind} {finding : Finding} {i : ℕ} {f : StorableFinding}

/-- A name that can be stored, as the property that it is written as. -/
def IsStorableName (findings : List Finding) (v : Value) : Prop :=
  ∃ finding ∈ findings, ∃ j ∈ finding.name, describeNonPrimitiveValue j = none ∧ toValue j = some v

lemma get?_name_sanitise (kind : FindingKind) (finding : Finding) :
    (sanitise kind finding).get? "name" = finding.name := by
  have hnodup : (kind.attrKeys.map id).Nodup := by cases kind <;> decide
  have hmem : "name" ∈ kind.attrKeys := by cases kind <;> decide
  exact get?_foldl_entries hnodup ∅ hmem rfl

lemma mem_propertyViolations {properties : Record String Json} {p : String × String} :
    p ∈ propertyViolations properties ↔ ∃ j ∈ properties.get? p.1, describeNonPrimitiveValue j = some p.2 := by
  unfold propertyViolations
  rw [mem_filterMap]
  constructor
  · rintro ⟨e, he, hp⟩
    obtain ⟨text, htext, rfl⟩ := Option.map_eq_some_iff.1 hp
    exact ⟨e.2, mem_entries_iff.1 he, htext⟩
  · rintro ⟨j, hj, htext⟩
    exact ⟨(p.1, j), mem_entries_iff.2 hj, by rw [htext]; rfl⟩

lemma storableFinding_eq_none_iff : storableFinding kind (finding, i) = none ↔
    ∃ j ∈ finding.name, (describeNonPrimitiveValue j).isSome := by
  unfold storableFinding
  rw [ite_eq_left_iff, ← get?_name_sanitise kind finding]
  simp only [reduceCtorEq, imp_false, not_not, any_eq_true, decide_eq_true_eq]
  constructor
  · rintro ⟨p, hp, hname⟩
    obtain ⟨j, hj, htext⟩ := mem_propertyViolations.1 hp
    exact ⟨j, hname ▸ hj, by rw [htext]; rfl⟩
  · rintro ⟨j, hj, htext⟩
    obtain ⟨text, htext⟩ := Option.isSome_iff_exists.1 htext
    exact ⟨("name", text), mem_propertyViolations.2 ⟨j, hj, htext⟩, rfl⟩

lemma attributeName_of_storableFinding (h : storableFinding kind (finding, i) = some f) :
    f.attributeName = finding.name.bind toValue ∧ f.finding = finding ∧ f.key = nameKey i finding.name := by
  have hnone : ∀ p ∈ propertyViolations (sanitise kind finding), p.1 ≠ "name" := fun p hp hname => by
    have hsome : storableFinding kind (finding, i) = none := by
      exact if_pos (any_eq_true.2 ⟨p, hp, decide_eq_true hname⟩)
    cases hsome.symm.trans h
  unfold storableFinding at h
  rw [if_neg fun hany => by
    obtain ⟨p, hp, hname⟩ := any_eq_true.1 hany
    exact hnone p hp (of_decide_eq_true hname)] at h
  cases h
  refine ⟨?_, rfl, rfl⟩
  unfold StorableFinding.attributeName
  rw [get?_mapValues, get?_filterKeys, if_pos, get?_name_sanitise]
  · cases finding.name <;> rfl
  · exact all_eq_true.2 fun p hp => decide_eq_true (hnone p hp)

/-- The names that the writer goes through: those of the findings that are not skipped. -/
lemma mem_attributeNames {findings : List Finding} {name : Option Value} :
    name ∈ (storableFindings kind findings).map StorableFinding.attributeName ↔
      ∃ finding ∈ findings, (∀ j ∈ finding.name, describeNonPrimitiveValue j = none) ∧
        finding.name.bind toValue = name := by
  rw [mem_map]
  constructor
  · rintro ⟨f, hf, rfl⟩
    obtain ⟨⟨finding, i⟩, hp, hsome⟩ := mem_filterMap.1 hf
    refine ⟨finding, ?_, fun j hj => ?_, (attributeName_of_storableFinding hsome).1.symm⟩
    · rw [← zipIdx_map_fst 0 findings]
      exact mem_map_of_mem hp
    · by_contra hviolation
      rw [storableFinding_eq_none_iff.2 ⟨j, hj, Option.isSome_iff_ne_none.2 hviolation⟩] at hsome
      cases hsome
  · rintro ⟨finding, hfinding, hstorable, rfl⟩
    rw [← zipIdx_map_fst 0 findings] at hfinding
    obtain ⟨⟨finding', i⟩, hp, rfl⟩ := mem_map.1 hfinding
    cases hsome : storableFinding kind (finding', i) with
    | none =>
      obtain ⟨j, hj, hviolation⟩ := storableFinding_eq_none_iff.1 hsome
      rw [hstorable j hj] at hviolation
      cases hviolation
    | some f =>
      exact ⟨f, mem_filterMap.2 ⟨_, hp, hsome⟩, (attributeName_of_storableFinding hsome).1⟩

lemma isStorableName_iff {findings : List Finding} {v : Value} :
    IsStorableName findings v ↔ some v ∈ (storableFindings kind findings).map StorableFinding.attributeName := by
  rw [mem_attributeNames]
  refine exists_congr fun finding => and_congr_right fun _ => ?_
  cases finding.name with
  | none | some j => simp

/-! ## Storable names in the list of valid names -/

lemma eqJson_of_toPrimitive {p : Primitive} {j : Json} (h : toPrimitive j = some p) :
    p.eqJson j = some true ∧ elementEq engine p j = some true := by
  match j with
  | .null | .array _ | .object _ => cases h
  | .string s | .number s | .boolean b =>
    cases h
    exact ⟨congrArg some (decide_eq_true rfl), congrArg some (decide_eq_true rfl)⟩

lemma toPrimitive_isSome_of_describeElements {l : List Json} {n : ℕ} {t : Option String}
    (h : describeElements n t l = none) : ∀ j ∈ l, (toPrimitive j).isSome := by
  induction l generalizing n t with
  | nil => exact fun j hj => absurd hj not_mem_nil
  | cons elem rest ih =>
    have hrest : (toPrimitive elem).isSome ∧ ∃ n t, describeElements n t rest = none := by
      match elem, t with
      | .null, _ | .array _, _ | .object _, _ => cases h
      | .string _, none | .number _, none | .boolean _, none => exact ⟨rfl, _, _, h⟩
      | .string _, some t | .number _, some t | .boolean _, some t =>
        unfold describeElements at h
        dsimp only at h
        split_ifs at h
        exact ⟨rfl, _, _, h⟩
    obtain ⟨helem, n', t', hrest⟩ := hrest
    intro j hj
    rcases mem_cons.1 hj with rfl | hj
    · exact helem
    · exact ih hrest j hj

lemma conj_zipWith_filterMap {l : List Json} (h : ∀ j ∈ l, (toPrimitive j).isSome) :
    (l.filterMap toPrimitive).length = l.length ∧
      conj (List.zipWith (elementEq engine) (l.filterMap toPrimitive) l) = some true := by
  have hall : (l.filterMap toPrimitive).length = l.length ∧
      ∀ r ∈ List.zipWith (elementEq engine) (l.filterMap toPrimitive) l, r = some true := by
    induction l with
    | nil => exact ⟨rfl, fun r hr => absurd hr not_mem_nil⟩
    | cons j l ih =>
      obtain ⟨p, hp⟩ := Option.isSome_iff_exists.1 (h j (.head _))
      obtain ⟨hlength, hrest⟩ := ih fun j hj => h j (.tail _ hj)
      rw [filterMap_cons_some hp]
      refine ⟨congrArg Nat.succ hlength, fun r hr => ?_⟩
      rcases mem_cons.1 hr with rfl | hr
      · exact (eqJson_of_toPrimitive hp).2
      · exact hrest r hr
  refine ⟨hall.1, ?_⟩
  unfold conj
  rw [if_neg fun hmem => ?_, if_neg fun hmem => ?_]
  all_goals cases hall.2 _ hmem

lemma eqJson_of_toValue {j : Json} {v : Value} (hstorable : describeNonPrimitiveValue j = none)
    (h : toValue j = some v) : v.eqJson engine j = some true := by
  match j with
  | .null => cases h
  | .object _ => cases hstorable
  | .string _ | .number _ | .boolean _ =>
    cases h
    exact congrArg some (decide_eq_true rfl)
  | .array l =>
    cases h
    obtain ⟨hlength, hconj⟩ := conj_zipWith_filterMap (toPrimitive_isSome_of_describeElements hstorable)
    exact (if_pos hlength).trans hconj

/-- What is written under a storable name is valid. -/
theorem inList_of_storable {findings : List Finding} {v : Value} (h : IsStorableName findings v) :
    inList engine (some v) (findings.map nameParam) = some true := by
  obtain ⟨finding, hfinding, j, hj, hstorable, hv⟩ := h
  unfold inList
  dsimp only
  rw [if_pos]
  have hparam : nameParam finding = j := by
    unfold nameParam
    rw [Option.mem_def.1 hj]
    rfl
  refine mem_map.2 ⟨j, ?_, eqJson_of_toValue hstorable hv⟩
  rw [← hparam]
  exact mem_map_of_mem hfinding

/-- Without a name a finding is valid for no list but the empty one, and not invalid for it. -/
theorem inList_none_ne_false {list : List Json} (h : list ≠ []) : inList engine none list ≠ some false := by
  unfold inList
  rw [if_neg fun hempty => h (List.isEmpty_iff.1 hempty)]
  exact fun h => nomatch h

end Findings
