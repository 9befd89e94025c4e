import Dethernety.Foundations.Distance
import Dethernety.Zoning.Context

/-!
# The trust cascade

Model of `determineZoneTier`. The nested predicates of the cascade test how far a boundary is from the
outside: the boundaries that are declared `UNTRUSTED` or `VENDOR` are at distance 0, and each edge of
the boundary adjacency is a step. The tier of a boundary is a function of that distance, of the assets
that it holds and of whether anything reaches it.
-/

open List Nat

namespace Zoning

open Distance

section

variable (ctx : ZoningContext)

def ingressOf (id : String) : List String :=
  (ctx.adjacency.into.get? id).getD []

def isExternal (id : String) : Bool :=
  id ∈ ctx.externalIds ∨ id ∈ ctx.vendorIds

def isPublic (id : String) : Bool :=
  if isExternal ctx id then false else (ingressOf ctx id).any (isExternal ctx)

def isExposed (id : String) : Bool :=
  if isExternal ctx id ∨ isPublic ctx id then false else (ingressOf ctx id).any (isPublic ctx)

def isExposingSource (id : String) : Bool :=
  isExternal ctx id ∨ isPublic ctx id ∨ isExposed ctx id

/-- Why an asset does not make a boundary `RESTRICTED`. -/
inductive BlockedBy
  | exposure
  | vendor
  | noIngress
  | noAsset
  deriving DecidableEq

structure ZoneTierResult where
  tier : Zone
  reason : String
  blockedBy : Option BlockedBy

def determineZoneTier (boundary : BoundaryData) : ZoneTierResult :=
  let id := boundary.id
  -- the external entity itself
  if id ∈ ctx.vendorIds then ⟨.vendor, "external entity (vetted partner)", none⟩
  else if id ∈ ctx.externalIds then ⟨.untrusted, "external entity (open/unknown)", none⟩
  -- reachable from an external source
  else if isPublic ctx id then
    ⟨.publicZone, "directly reachable from an external source", none⟩
  else if isExposed ctx id then
    ⟨.exposed, "reachable one hop behind a public front door (DMZ)", none⟩
  -- high-value asset, isolated by positive ingress evidence
  else if id ∈ ctx.directAssetIds then
    let ingress := ingressOf ctx id
    if ingress.length = 0 then
      ⟨.internal, "asset-bearing but no modelled ingress — cannot verify isolation", some .noIngress⟩
    else
      match ingress.find? (isExposingSource ctx) with
      | some exposingSource =>
        ⟨.internal, s!"asset-bearing but ingress from an exposed source ({exposingSource})",
          some (if exposingSource ∈ ctx.vendorIds then .vendor else .exposure)⟩
      | none =>
        ⟨.restricted, "high-value asset, ingress only from internal/restricted peers", none⟩
  else ⟨.internal, "internal connectivity, no qualifying asset", some .noAsset⟩

end

variable {s : ModelStructure} {flows flows' : List DataFlow} {dataItems : List DataItem}

/-- An edge of the boundary adjacency. -/
def Reaches (ctx : ZoningContext) (x y : String) : Prop :=
  y ∈ (ctx.adjacency.outOf.get? x).getD []

/-- The ids of the boundaries that are declared `UNTRUSTED` or `VENDOR`. -/
def outside (s : ModelStructure) : Set String :=
  {x | ∃ b ∈ s.nodes, b.id = x ∧ (b.zone = some .untrusted ∨ b.zone = some .vendor)}

/-- How far a boundary is from the outside. -/
noncomputable def outsideDistance (s : ModelStructure) (flows : List DataFlow)
    (dataItems : List DataItem) (id : String) : ℕ∞ :=
  distance (Reaches (buildZoningContext s flows dataItems)) (outside s) id

lemma mem_ingressOf {x y : String} :
    x ∈ ingressOf (buildZoningContext s flows dataItems) y ↔
      Reaches (buildZoningContext s flows dataItems) x y := by
  obtain ⟨hinto, hout⟩ := mem_buildBoundaryAdjacency s flows x y
  exact hinto.trans hout.symm

lemma ne_root_of_reaches {x y : String} (h : Reaches (buildZoningContext s flows dataItems) x y) :
    x ≠ s.data.id ∧ y ≠ s.data.id := by
  obtain ⟨flow, -, hedge⟩ := (mem_buildBoundaryAdjacency s flows x y).2.1 h
  unfold boundaryEdge at hedge
  split at hedge
  next srcB tgtB _ _ =>
    split_ifs at hedge with _ hroot
    cases hedge
    exact not_or.1 hroot
  next => cases hedge

lemma reaches_mono (h : flows ⊆ flows') {x y : String} (he : Reaches (buildZoningContext s flows dataItems) x y) :
    Reaches (buildZoningContext s flows' dataItems) x y := by
  obtain ⟨flow, hmem, hedge⟩ := (mem_buildBoundaryAdjacency s flows x y).2.1 he
  exact (mem_buildBoundaryAdjacency s flows' x y).2.2 ⟨flow, h hmem, hedge⟩

lemma mem_foldl_declared {z : Zone} {rootId x : String} (l : List BoundaryData) (t : List String) :
    x ∈ l.foldl (fun t b => if b.id ≠ rootId ∧ b.zone = some z then addTo t b.id else t) t ↔
      x ∈ t ∨ ∃ b ∈ l, b.id = x ∧ x ≠ rootId ∧ b.zone = some z := by
  induction l generalizing t with
  | nil => simp
  | cons b l ih =>
    rw [foldl_cons, ih, exists_mem_cons_iff]
    split_ifs with h
    · rw [mem_addTo, or_assoc]
      refine or_congr_right (or_congr_left ⟨?_, ?_⟩)
      · rintro rfl
        exact ⟨rfl, h⟩
      · exact fun h' => h'.1.symm
    · refine or_congr_right ⟨.inr, ?_⟩
      rintro (⟨rfl, h'⟩ | h')
      · exact absurd h' h
      · exact h'

lemma mem_vendorIds {x : String} : x ∈ (buildZoningContext s flows dataItems).vendorIds ↔
    ∃ b ∈ s.nodes, b.id = x ∧ x ≠ s.data.id ∧ b.zone = some .vendor := by
  show x ∈ ((flattenStructure s).boundaries.foldl _ []) ↔ _
  rw [mem_foldl_declared, (flattenStructure_fields s).1]
  simp

lemma mem_externalIds {x : String} : x ∈ (buildZoningContext s flows dataItems).externalIds ↔
    ∃ b ∈ s.nodes, b.id = x ∧ x ≠ s.data.id ∧ b.zone = some .untrusted := by
  show x ∈ ((flattenStructure s).boundaries.foldl _ []) ↔ _
  rw [mem_foldl_declared, (flattenStructure_fields s).1]
  simp

section

variable {x : String}

lemma isExternal_iff (hx : x ≠ s.data.id) :
    isExternal (buildZoningContext s flows dataItems) x = true ↔
      outsideDistance s flows dataItems x ≤ (0 : ℕ) := by
  rw [outsideDistance, distance_le_zero_iff, isExternal, decide_eq_true_eq, mem_externalIds,
    mem_vendorIds, outside, Set.mem_ofPred_eq, ← exists_or]
  refine exists_congr fun b => ?_
  rw [← and_or_left, ← and_or_left, ← and_or_left]
  simp only [hx, ne_eq, not_false_eq_true, true_and]

/-- A stage of the cascade: what is one step behind what is within `n`. -/
lemma le_succ_iff_any {p : String → Bool} {n : ℕ}
    (hp : ∀ y, y ≠ s.data.id → (p y = true ↔ outsideDistance s flows dataItems y ≤ n))
    (hx : ¬ outsideDistance s flows dataItems x ≤ (0 : ℕ)) :
    (ingressOf (buildZoningContext s flows dataItems) x).any p = true ↔
      outsideDistance s flows dataItems x ≤ (n + 1 : ℕ) := by
  have hmem : ¬ x ∈ outside s := fun h => hx (distance_le_zero_iff.2 h)
  rw [any_eq_true, outsideDistance, distance_le_succ_iff, or_iff_right hmem]
  refine exists_congr fun y => ?_
  rw [mem_ingressOf]
  refine and_congr_right fun he => hp y (ne_root_of_reaches he).1

lemma isPublic_iff (hx : x ≠ s.data.id) :
    isPublic (buildZoningContext s flows dataItems) x = true ↔
      outsideDistance s flows dataItems x = (1 : ℕ) := by
  rw [eq_natCast_succ_iff, isPublic]
  by_cases hexternal : isExternal (buildZoningContext s flows dataItems) x = true
  · rw [if_pos hexternal]
    exact iff_of_false Bool.false_ne_true fun h => h.2 ((isExternal_iff hx).1 hexternal)
  · have hfar := fun h => hexternal ((isExternal_iff hx).2 h)
    rw [if_neg hexternal, le_succ_iff_any (fun y hy => isExternal_iff hy) hfar, and_iff_left hfar]

lemma isExternal_or_isPublic_iff (hx : x ≠ s.data.id) :
    (isExternal (buildZoningContext s flows dataItems) x = true ∨
        isPublic (buildZoningContext s flows dataItems) x = true) ↔ outsideDistance s flows dataItems x ≤ (1 : ℕ) := by
  rw [isExternal_iff hx, isPublic_iff hx, eq_natCast_succ_iff]
  constructor
  · rintro (h | ⟨h, -⟩)
    · exact h.trans (cast_le.2 (zero_le 1))
    · exact h
  · intro h
    by_cases h0 : outsideDistance s flows dataItems x ≤ (0 : ℕ)
    · exact .inl h0
    · exact .inr ⟨h, h0⟩

lemma isExposed_iff (hx : x ≠ s.data.id) :
    isExposed (buildZoningContext s flows dataItems) x = true ↔
      outsideDistance s flows dataItems x = (2 : ℕ) := by
  rw [eq_natCast_succ_iff, isExposed]
  by_cases hnear : isExternal (buildZoningContext s flows dataItems) x = true ∨
      isPublic (buildZoningContext s flows dataItems) x = true
  · rw [if_pos hnear]
    exact iff_of_false Bool.false_ne_true fun h => h.2 ((isExternal_or_isPublic_iff hx).1 hnear)
  · have hfar : ¬ outsideDistance s flows dataItems x ≤ (1 : ℕ) :=
      fun h => hnear ((isExternal_or_isPublic_iff hx).2 h)
    have hfar' : ¬ outsideDistance s flows dataItems x ≤ (0 : ℕ) :=
      fun h => hfar (h.trans (cast_le.2 (zero_le 1)))
    rw [if_neg hnear, and_iff_left hfar]
    -- a source at distance 0 would have made the boundary public
    have hany : (ingressOf (buildZoningContext s flows dataItems) x).any
        (isPublic (buildZoningContext s flows dataItems)) = true ↔
        (ingressOf (buildZoningContext s flows dataItems) x).any
          (fun y => isExternal (buildZoningContext s flows dataItems) y ||
            isPublic (buildZoningContext s flows dataItems) y) = true := by
      simp only [any_eq_true, Bool.or_eq_true]
      refine exists_congr fun y => and_congr_right fun hy => ⟨.inr, ?_⟩
      rintro (hext | hpub)
      · have hone : outsideDistance s flows dataItems x ≤ (0 + 1 : ℕ) :=
          (le_succ_iff_any (fun y hy => isExternal_iff hy) hfar').1 (any_eq_true.2 ⟨y, hy, hext⟩)
        exact absurd hone hfar
      · exact hpub
    rw [hany]
    refine le_succ_iff_any (fun y hy => ?_) hfar'
    rw [Bool.or_eq_true]
    exact isExternal_or_isPublic_iff hy

lemma isExposingSource_iff (hx : x ≠ s.data.id) :
    isExposingSource (buildZoningContext s flows dataItems) x = true ↔
      outsideDistance s flows dataItems x ≤ (2 : ℕ) := by
  rw [isExposingSource, decide_eq_true_eq, ← or_assoc, isExternal_or_isPublic_iff hx,
    isExposed_iff hx, eq_natCast_succ_iff]
  constructor
  · rintro (h | ⟨h, -⟩)
    · exact h.trans (cast_le.2 (le_succ 1))
    · exact h
  · intro h
    by_cases h1 : outsideDistance s flows dataItems x ≤ (1 : ℕ)
    · exact .inl h1
    · exact .inr ⟨h, h1⟩

end

section

variable {b : BoundaryData}

/-- The condition for `RESTRICTED`: an asset that the boundary holds itself, something that reaches it,
and nothing near the outside that does. -/
def Isolated (s : ModelStructure) (flows : List DataFlow) (dataItems : List DataItem)
    (b : BoundaryData) : Prop :=
  HoldsAsset s dataItems b ∧ (∃ x, Reaches (buildZoningContext s flows dataItems) x b.id) ∧
    4 ≤ outsideDistance s flows dataItems b.id

variable (flows dataItems) in
lemma determineZoneTier_cases (hids : (ids s).Nodup) (hb : b ∈ s.nodes) (hroot : b.id ≠ s.data.id) :
    let result := determineZoneTier (buildZoningContext s flows dataItems) b
    let d := outsideDistance s flows dataItems b.id
    (d = 0 ∧ result.tier = (if b.id ∈ (buildZoningContext s flows dataItems).vendorIds
      then .vendor else .untrusted) ∧ result.blockedBy = none) ∨
    (d = 1 ∧ result.tier = .publicZone ∧ result.blockedBy = none) ∨
    (d = 2 ∧ result.tier = .exposed ∧ result.blockedBy = none) ∨
    (3 ≤ d ∧ Isolated s flows dataItems b ∧ result.tier = .restricted ∧ result.blockedBy = none) ∨
    (3 ≤ d ∧ ¬ Isolated s flows dataItems b ∧ result.tier = .internal ∧
      result.blockedBy ≠ some .vendor) := by
  intro result d
  have hzero : isExternal (buildZoningContext s flows dataItems) b.id = true → d = 0 := by
    intro h
    exact nonpos_iff_eq_zero.1 ((isExternal_iff hroot).1 h)
  have hasset : b.id ∈ (buildZoningContext s flows dataItems).directAssetIds ↔
      HoldsAsset s dataItems b := mem_directAssetIds hids hb hroot
  simp only [result, determineZoneTier]
  split_ifs with hvendor hexternal hpublic hexposed hdirect hingress
  · exact .inl ⟨hzero (decide_eq_true (.inr hvendor)), rfl, rfl⟩
  · exact .inl ⟨hzero (decide_eq_true (.inl hexternal)), rfl, rfl⟩
  · exact .inr (.inl ⟨(isPublic_iff hroot).1 hpublic, rfl, rfl⟩)
  · exact .inr (.inr (.inl ⟨(isExposed_iff hroot).1 hexposed, rfl, rfl⟩))
  all_goals
    -- what is left is farther than two steps
    have hfar : ¬ d ≤ (2 : ℕ) := fun h => by
      have hsource := (isExposingSource_iff hroot).2 h
      simp only [isExposingSource, isExternal, decide_eq_true_eq] at hsource
      tauto
    have hthree : 3 ≤ d := natCast_succ_le_iff.2 hfar
    have hfar' : ¬ d ≤ (0 : ℕ) := fun h => hfar (h.trans (cast_le.2 (zero_le 2)))
    refine .inr (.inr (.inr ?_))
  · refine .inr ⟨hthree, fun hisolated => ?_, rfl, fun h => by cases h⟩
    obtain ⟨x, hx⟩ := hisolated.2.1
    have hmem := mem_ingressOf.2 hx
    rw [length_eq_zero_iff.1 hingress] at hmem
    exact absurd hmem not_mem_nil
  · cases hfind : (ingressOf (buildZoningContext s flows dataItems) b.id).find?
        (isExposingSource (buildZoningContext s flows dataItems)) with
    | some src =>
      have hsrc := mem_of_find?_eq_some hfind
      have hthreeBehind : d ≤ (2 + 1 : ℕ) :=
        (le_succ_iff_any (fun y hy => isExposingSource_iff hy) hfar').1
          (any_eq_true.2 ⟨src, hsrc, find?_some hfind⟩)
      refine .inr ⟨hthree, fun hisolated => ?_, rfl, fun hblocked => ?_⟩
      · exact natCast_succ_le_iff.1 hisolated.2.2 hthreeBehind
      · -- a vendor source would have made the boundary public
        have hvendorSource : src ∈ (buildZoningContext s flows dataItems).vendorIds := by
          by_contra hnot
          simp only [if_neg hnot] at hblocked
          cases hblocked
        have hone : d ≤ (0 + 1 : ℕ) := (le_succ_iff_any (fun y hy => isExternal_iff hy) hfar').1
          (any_eq_true.2 ⟨src, hsrc, decide_eq_true (.inr hvendorSource)⟩)
        exact hfar (hone.trans (cast_le.2 (le_succ 1)))
    | none =>
      refine .inl ⟨hthree, ⟨hasset.1 hdirect, ?_, ?_⟩, rfl, rfl⟩
      · obtain ⟨x, hx⟩ := exists_mem_of_ne_nil _ (fun hnil => hingress (length_eq_zero_iff.2 hnil))
        exact ⟨x, mem_ingressOf.1 hx⟩
      · refine natCast_succ_le_iff.2 fun hle => ?_
        obtain ⟨y, hy, hsource⟩ := any_eq_true.1
          ((le_succ_iff_any (fun y hy => isExposingSource_iff hy) hfar').2 hle)
        exact find?_eq_none.1 hfind y hy hsource
  · exact .inr ⟨hthree, fun hisolated => hdirect (hasset.2 hisolated.1), rfl, fun h => by cases h⟩

variable (flows dataItems) in
lemma tier_iffs (hids : (ids s).Nodup) (hb : b ∈ s.nodes) (hroot : b.id ≠ s.data.id) :
    let tier := (determineZoneTier (buildZoningContext s flows dataItems) b).tier
    let d := outsideDistance s flows dataItems b.id
    (tier = .vendor ∨ tier = .untrusted ↔ d = 0) ∧ (tier = .publicZone ↔ d = 1) ∧
    (tier = .exposed ↔ d = 2) ∧ (tier = .restricted ↔ Isolated s flows dataItems b) ∧
    (tier = .internal ↔ d ≠ 0 ∧ d ≠ 1 ∧ d ≠ 2 ∧ ¬ Isolated s flows dataItems b) := by
  intro tier d
  have hfar : 3 ≤ d → d ≠ 0 ∧ d ≠ 1 ∧ d ≠ 2 := by
    intro hd
    refine ⟨?_, ?_, ?_⟩
    all_goals
      intro heq
      rw [heq] at hd
      revert hd
      decide
  have hnear : d ≤ 2 → ¬ Isolated s flows dataItems b := by
    intro hd hisolated
    have hle : (4 : ℕ∞) ≤ 2 := hisolated.2.2.trans hd
    revert hle
    decide
  obtain ⟨hd, ht, -⟩ | ⟨hd, ht, -⟩ | ⟨hd, ht, -⟩ | ⟨hd, hi, ht, -⟩ | ⟨hd, hi, ht, -⟩ :=
    determineZoneTier_cases flows dataItems hids hb hroot
  · have hi := hnear (hd.trans_le (by decide))
    have ht' : tier = .vendor ∨ tier = .untrusted := by
      simp only [tier, ht]
      split_ifs
      · exact .inl rfl
      · exact .inr rfl
    have hd' : d = 0 := hd
    obtain ht | ht := ht'
    all_goals simp [ht, hd', hi]
  · have hi := hnear (hd.trans_le (by decide))
    simp only [tier, d, ht, hd, hi]
    decide
  · have hi := hnear (hd.trans_le le_rfl)
    simp only [tier, d, ht, hd, hi]
    decide
  all_goals
    obtain ⟨h0, h1, h2⟩ := hfar hd
    simp [tier, ht, h0, h1, h2, hi]

lemma outsideDistance_mono (h : flows ⊆ flows') (x : String) :
    outsideDistance s flows' dataItems x ≤ outsideDistance s flows dataItems x :=
  distance_mono (fun _ _ he => reaches_mono h he) x

lemma isolated_congr (h : ∀ flow, flow ∈ flows ↔ flow ∈ flows') :
    Isolated s flows dataItems b ↔ Isolated s flows' dataItems b := by
  have hsub : flows ⊆ flows' := fun flow => (h flow).1
  have hsub' : flows' ⊆ flows := fun flow => (h flow).2
  have hd : outsideDistance s flows dataItems b.id = outsideDistance s flows' dataItems b.id :=
    le_antisymm (outsideDistance_mono hsub' _) (outsideDistance_mono hsub _)
  unfold Isolated
  rw [hd]
  refine and_congr_right fun _ => and_congr_left fun _ => exists_congr fun x => ?_
  exact ⟨reaches_mono hsub, reaches_mono hsub'⟩

/-- The tier of a boundary is its distance from the outside, except that an isolated holder of an
asset is `RESTRICTED`. More data flows bring a boundary nearer to the outside and never farther away,
and their order does not matter. -/
theorem determineZoneTier_eq_distance (s : ModelStructure) (flows : List DataFlow)
    (dataItems : List DataItem) (hids : (ids s).Nodup) (b : BoundaryData) (hb : b ∈ s.nodes)
    (hroot : b.id ≠ s.data.id) :
    let tier := fun flows => (determineZoneTier (buildZoningContext s flows dataItems) b).tier
    let d := fun flows => outsideDistance s flows dataItems b.id
    (tier flows = .vendor ∨ tier flows = .untrusted ↔ d flows = 0) ∧
    (tier flows = .publicZone ↔ d flows = 1) ∧
    (tier flows = .exposed ↔ d flows = 2) ∧
    (tier flows = .restricted ↔ HoldsAsset s dataItems b ∧
      (∃ x, Reaches (buildZoningContext s flows dataItems) x b.id) ∧ 4 ≤ d flows) ∧
    (tier flows = .internal ↔ d flows ≠ 0 ∧ d flows ≠ 1 ∧ d flows ≠ 2 ∧
      ¬ (HoldsAsset s dataItems b ∧
        (∃ x, Reaches (buildZoningContext s flows dataItems) x b.id) ∧ 4 ≤ d flows)) ∧
    (determineZoneTier (buildZoningContext s flows dataItems) b).blockedBy ≠ some .vendor ∧
    (∀ flows', flows ⊆ flows' → d flows' ≤ d flows ∧
      (tier flows = .publicZone → tier flows' = .publicZone) ∧
      (tier flows = .exposed → tier flows' = .exposed ∨ tier flows' = .publicZone)) ∧
    (∀ flows', (∀ flow, flow ∈ flows ↔ flow ∈ flows') → tier flows' = tier flows) := by
  intro tier d
  obtain ⟨hexternal, hpublic, hexposed, hrestricted, hinternal⟩ := tier_iffs flows dataItems hids hb hroot
  refine ⟨hexternal, hpublic, hexposed, hrestricted, hinternal, ?_, fun flows' hsub => ?_,
    fun flows' hsame => ?_⟩
  · obtain ⟨-, -, h⟩ | ⟨-, -, h⟩ | ⟨-, -, h⟩ | ⟨-, -, -, h⟩ | ⟨-, -, -, h⟩ :=
      determineZoneTier_cases flows dataItems hids hb hroot
    on_goal 5 => exact h
    all_goals exact fun hvendor => by cases h.symm.trans hvendor
  · obtain ⟨_, hpublic', hexposed', -, -⟩ := tier_iffs flows' dataItems hids hb hroot
    have hd : d flows' ≤ d flows := outsideDistance_mono hsub b.id
    -- what is outside is declared, whatever the data flows are
    have hzero : d flows' ≤ (0 : ℕ) → d flows = 0 := fun h =>
      nonpos_iff_eq_zero.1 (distance_le_zero_iff.2 (distance_le_zero_iff.1 h))
    refine ⟨hd, fun h => ?_, fun h => ?_⟩
    · have hone : d flows = 1 := hpublic.1 h
      refine hpublic'.2 (eq_natCast_succ_iff.2 ⟨hd.trans hone.le, fun h0 => ?_⟩)
      exact absurd (hone.symm.trans (hzero h0)) (by decide)
    · have htwo : d flows = 2 := hexposed.1 h
      by_cases hle : d flows' ≤ (1 : ℕ)
      · refine .inr (hpublic'.2 (eq_natCast_succ_iff.2 ⟨hle, fun h0 => ?_⟩))
        exact absurd (htwo.symm.trans (hzero h0)) (by decide)
      · exact .inl (hexposed'.2 (eq_natCast_succ_iff.2 ⟨hd.trans htwo.le, hle⟩))
  · obtain ⟨-, hpublic', hexposed', hrestricted', hinternal'⟩ := tier_iffs flows' dataItems hids hb hroot
    have hd : d flows' = d flows :=
      le_antisymm (outsideDistance_mono (fun flow => (hsame flow).1) b.id)
        (outsideDistance_mono (fun flow => (hsame flow).2) b.id)
    have hi : Isolated s flows dataItems b ↔ Isolated s flows' dataItems b := isolated_congr hsame
    obtain ⟨h, ht, -⟩ | ⟨h, ht, -⟩ | ⟨h, ht, -⟩ | ⟨-, h, ht, -⟩ | ⟨-, -, ht, -⟩ :=
      determineZoneTier_cases flows dataItems hids hb hroot
    · -- `vendorIds` does not depend on the data flows
      obtain ⟨-, ht', -⟩ | ⟨h', -⟩ | ⟨h', -⟩ | ⟨h', -⟩ | ⟨h', -⟩ :=
        determineZoneTier_cases flows' dataItems hids hb hroot
      · exact ht'.trans ht.symm
      all_goals
        have hzero : d flows' = 0 := hd.trans h
        rw [show outsideDistance s flows' dataItems b.id = 0 from hzero] at h'
        exact absurd h' (by decide)
    · exact (hpublic'.2 (hd.trans h)).trans ht.symm
    · exact (hexposed'.2 (hd.trans h)).trans ht.symm
    · exact (hrestricted'.2 (hi.1 h)).trans ht.symm
    · refine (hinternal'.2 ?_).trans ht.symm
      rw [← hi, show outsideDistance s flows' dataItems b.id = _ from hd]
      exact hinternal.1 ht

end

/-- A boundary with a component of the same name. -/
def sampleSegment (id : String) (h : id ≠ "") (zone : Option Zone) : ModelStructure :=
  .node ⟨id, h, zone, none, none⟩ none (some [⟨id ++ "-host", none, none⟩])

/-- The internet in front of a web segment, within one default boundary. -/
def sampleStructure : ModelStructure :=
  .node ⟨"site", by decide, none, none, none⟩ (some [
    sampleSegment "internet" (by decide) (some .untrusted),
    sampleSegment "web" (by decide) none]) none

theorem determineZoneTier_eq_distance_sample :
    (determineZoneTier (buildZoningContext sampleStructure [⟨"internet-host", "web-host"⟩] [])
        ⟨"web", by decide, none, none, none⟩).tier = .publicZone ∧
      outsideDistance sampleStructure [⟨"internet-host", "web-host"⟩] [] "web" = 1 :=
  have htier : (determineZoneTier
      (buildZoningContext sampleStructure [⟨"internet-host", "web-host"⟩] [])
      ⟨"web", by decide, none, none, none⟩).tier = .publicZone := by decide +kernel
  ⟨htier, (determineZoneTier_eq_distance sampleStructure _ [] (by decide +kernel)
    ⟨"web", by decide, none, none, none⟩ (by decide +kernel) (by decide)).2.1.1 htier⟩

end Zoning
