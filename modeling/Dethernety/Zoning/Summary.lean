import Dethernety.Zoning.Findings

/-!
# The summary of a container

Model of `computeContainerSummary`: a walk down from a container that gathers the tiers of the leaf
boundaries and of the containers that hold an asset themselves. It describes the same tree as the asset
roll-up, which walks up, and as the findings, which have no walk down at all.
-/

open List Nat

namespace Zoning

open ThreatReport (sortBy sortBy_perm sortBy_eq_nil_iff pairwise_sortBy transCmp_comap)

section

/-- `EXPOSURE_RANK`; `VENDOR` is off the gradient and is not ranked. -/
def exposureRank : Zone → ℕ
  | .untrusted => 0
  | .publicZone => 1
  | .exposed => 2
  | .internal => 3
  | .restricted => 4
  | .vendor => 5

structure ContainerSummary where
  range : Option (Zone × Zone)
  maxExposure : Option Zone
  containsAssets : Bool
  containsVendor : Bool
  reachesExternal : Bool
  unclassifiedDescendants : ℕ

/-- The variables of `computeContainerSummary` that `walk` writes. -/
structure SummaryWalk where
  signature : List Zone
  unclassifiedDescendants : ℕ
  seen : List String

/-- `signature.add` -/
def SummaryWalk.addTier (w : SummaryWalk) (z : Zone) : SummaryWalk :=
  { w with signature := if z ∈ w.signature then w.signature else w.signature ++ [z] }

variable (ctx : ModelContext)

/-- A leaf boundary adds its tier and counts if its zone is the default. -/
def addLeaf (child : Model) (w : SummaryWalk) : SummaryWalk :=
  let w := w.addTier (tierOf ctx child).tier
  if (effectiveZone ctx child.data.id).source = .default then
    { w with unclassifiedDescendants := w.unclassifiedDescendants + 1 }
  else w

/-- A container adds its tier if it holds an asset itself. -/
def addHolder (b : Model) (w : SummaryWalk) : SummaryWalk :=
  if b.data.id ∈ ctx.directAssetIds then w.addTier (tierOf ctx b).tier else w

mutual

def walk : Model → ℕ → SummaryWalk → SummaryWalk
  | .node b children _, depth, w =>
    if depth ≥ maxDepth ∨ b.id ∈ w.seen then w
    else walkOption children depth { w with seen := b.id :: w.seen }

def walkOption : Option (List Model) → ℕ → SummaryWalk → SummaryWalk
  | none, _, w => w
  | some l, depth, w => walkChildren l depth w

/-- The loop of `walk`. -/
def walkChildren : List Model → ℕ → SummaryWalk → SummaryWalk
  | [], _, w => w
  | child :: l, depth, w =>
    if isStructuralContainer child then
      walkChildren l depth (walk child (depth + 1) (addHolder ctx child w))
    else walkChildren l depth (addLeaf ctx child w)

end

/-- What the walk has gathered in the end. -/
def gathered (boundary : Model) : SummaryWalk :=
  walk ctx boundary 0 (addHolder ctx boundary ⟨[], 0, []⟩)

def computeContainerSummary (boundary : Model) : Option ContainerSummary :=
  if isStructuralContainer boundary = false then none
  else
    let w := gathered ctx boundary
    if w.signature = [] then none
    else
      let containsVendor := decide (Zone.vendor ∈ w.signature)
      let gradient := w.signature.filter (· ≠ .vendor)
      let sorted := sortBy (fun a b => compare (exposureRank a) (exposureRank b)) gradient
      some {
        -- without a member of the gradient there is no span
        range := sorted.head?.bind fun lo => sorted.getLast?.map fun hi => (lo, hi)
        maxExposure := sorted.head?
        containsAssets := boundary.data.id ∈ ctx.assetIds
        containsVendor
        reachesExternal := containsVendor ||
          gradient.any fun z => z = .untrusted ∨ z = .publicZone ∨ z = .exposed
        unclassifiedDescendants := w.unclassifiedDescendants }

end

section

variable {ctx : ModelContext}

/-- A boundary whose tier the walk gathers: a leaf or a container that holds an asset itself. -/
def Counts (ctx : ModelContext) (b : Model) : Prop :=
  isStructuralContainer b = false ∨ b.data.id ∈ ctx.directAssetIds

/-- A leaf boundary whose zone is the default. -/
def isUnclassified (ctx : ModelContext) (b : Model) : Bool :=
  (effectiveZone ctx b.data.id).source = .default ∧ isStructuralContainer b = false

/-- What the walk from `w` to `w'` takes from a list of boundaries. -/
structure Gathers (ctx : ModelContext) (l : List Model) (w w' : SummaryWalk) : Prop where
  signature : ∀ z, z ∈ w'.signature ↔
    z ∈ w.signature ∨ ∃ b ∈ l, Counts ctx b ∧ (tierOf ctx b).tier = z
  unclassified : w'.unclassifiedDescendants =
    w.unclassifiedDescendants + (l.filter (isUnclassified ctx)).length

lemma Gathers.refl (w : SummaryWalk) : Gathers ctx [] w w where
  signature := by simp
  unclassified := rfl

variable {w : SummaryWalk} {l l' : List Model}

lemma Gathers.append {w w' w'' : SummaryWalk} (h : Gathers ctx l w w')
    (h' : Gathers ctx l' w' w'') : Gathers ctx (l ++ l') w w'' where
  signature z := by
    rw [h'.signature, h.signature, or_assoc]
    refine or_congr_right ?_
    simp only [mem_append, or_and_right, exists_or]
  unclassified := by
    rw [h'.unclassified, h.unclassified, filter_append, length_append, add_assoc]

lemma mem_addTier {z z' : Zone} : z ∈ (w.addTier z').signature ↔ z ∈ w.signature ∨ z = z' := by
  unfold SummaryWalk.addTier
  simp only
  split_ifs with h
  · refine ⟨.inl, ?_⟩
    rintro (hz | rfl)
    · exact hz
    · exact h
  · rw [mem_append, mem_singleton]

lemma gathers_addLeaf {child : Model} (h : isStructuralContainer child = false) (w : SummaryWalk) :
    Gathers ctx [child] w (addLeaf ctx child w) where
  signature z := by
    have hsignature : (addLeaf ctx child w).signature = (w.addTier (tierOf ctx child).tier).signature := by
      simp only [addLeaf]
      split_ifs
      all_goals rfl
    have hcounts : Counts ctx child := .inl h
    rw [hsignature, mem_addTier]
    simp [hcounts, eq_comm]
  unclassified := by
    simp only [addLeaf]
    by_cases hdefault : (effectiveZone ctx child.data.id).source = .default
    · rw [if_pos hdefault]
      simp [isUnclassified, h, hdefault, SummaryWalk.addTier]
    · rw [if_neg hdefault]
      simp [isUnclassified, hdefault, SummaryWalk.addTier]

lemma gathers_addHolder {b : Model} (h : isStructuralContainer b = true) (w : SummaryWalk) :
    Gathers ctx [b] w (addHolder ctx b w) where
  signature z := by
    unfold addHolder
    split_ifs with hdirect
    · have hcounts : Counts ctx b := .inr hdirect
      rw [mem_addTier]
      simp [hcounts, eq_comm]
    · simp [Counts, hdirect, h]
  unclassified := by
    unfold addHolder
    split_ifs
    · simp [isUnclassified, h, SummaryWalk.addTier]
    · simp [isUnclassified, h]

lemma seen_addLeaf (child : Model) (w : SummaryWalk) : (addLeaf ctx child w).seen = w.seen := by
  simp only [addLeaf]
  split_ifs
  all_goals rfl

lemma seen_addHolder (b : Model) (w : SummaryWalk) : (addHolder ctx b w).seen = w.seen := by
  unfold addHolder
  split_ifs
  all_goals rfl

variable (ctx)

mutual

lemma seen_walk {x : String} : ∀ {t : Model} {depth : ℕ} {w : SummaryWalk},
    x ∈ (walk ctx t depth w).seen → x ∈ w.seen ∨ x ∈ t.subtrees.map fun b => b.data.id
  | .node b children leaves, depth, w, h => by
    rw [walk] at h
    split_ifs at h
    · exact .inl h
    · obtain hmem | hmem := seen_walkOption h
      · exact (mem_cons.1 hmem).symm.imp id fun hx => mem_cons.2 (.inl hx)
      · exact .inr (.tail _ hmem)

lemma seen_walkOption {x : String} : ∀ {o : Option (List Model)} {depth : ℕ} {w : SummaryWalk},
    x ∈ (walkOption ctx o depth w).seen →
      x ∈ w.seen ∨ x ∈ (Nesting.subtreesOption o).map fun b => b.data.id
  | none, _, _, h => .inl h
  | some _, _, _, h => seen_walkChildren h

lemma seen_walkChildren {x : String} : ∀ {l : List Model} {depth : ℕ} {w : SummaryWalk},
    x ∈ (walkChildren ctx l depth w).seen →
      x ∈ w.seen ∨ x ∈ (Nesting.subtreesList l).map fun b => b.data.id
  | [], _, _, h => .inl h
  | child :: l, depth, w, h => by
    rw [walkChildren] at h
    rw [Nesting.subtreesList, map_append, mem_append]
    split_ifs at h
    · obtain hmem | hmem := seen_walkChildren h
      · obtain hmem | hmem := seen_walk hmem
        · rw [seen_addHolder] at hmem
          exact .inl hmem
        · exact .inr (.inl hmem)
      · exact .inr (.inr hmem)
    · obtain hmem | hmem := seen_walkChildren h
      · rw [seen_addLeaf] at hmem
        exact .inl hmem
      · exact .inr (.inr hmem)

end

/-- No two boundaries of the list have the same id, and the walk has seen none of them. -/
def Fresh (l : List Model) (w : SummaryWalk) : Prop :=
  (l.map fun b => b.data.id).Nodup ∧ ∀ b ∈ l, b.data.id ∉ w.seen

lemma Fresh.tail {b : Model} {l : List Model} (h : Fresh (b :: l) w) :
    Fresh l { w with seen := b.data.id :: w.seen } := by
  obtain ⟨hnodup, hseen⟩ := h
  rw [map_cons, nodup_cons] at hnodup
  refine ⟨hnodup.2, fun b' hb' hmem => ?_⟩
  obtain heq | hmem := mem_cons.1 hmem
  · exact hnodup.1 (heq ▸ mem_map_of_mem (f := fun b : Model => b.data.id) hb')
  · exact hseen b' (.tail _ hb') hmem

lemma Fresh.left (h : Fresh (l ++ l') w) : Fresh l w := by
  obtain ⟨hnodup, hseen⟩ := h
  rw [map_append] at hnodup
  exact ⟨hnodup.of_append_left, fun b hb => hseen b (mem_append_left _ hb)⟩

lemma Fresh.right {w w' : SummaryWalk} (h : Fresh (l ++ l') w)
    (hw' : ∀ x ∈ w'.seen, x ∈ w.seen ∨ x ∈ l.map fun b => b.data.id) : Fresh l' w' := by
  obtain ⟨hnodup, hseen⟩ := h
  rw [map_append] at hnodup
  refine ⟨hnodup.of_append_right, fun b hb hmem => ?_⟩
  obtain hmem | hmem := hw' _ hmem
  · exact hseen b (mem_append_right _ hb) hmem
  · exact disjoint_of_nodup_append hnodup hmem (mem_map_of_mem (f := fun b : Model => b.data.id) hb)

lemma Gathers.of_seen {l : List Model} {w w' : SummaryWalk} {seen : List String}
    (h : Gathers ctx l { w with seen := seen } w') : Gathers ctx l w w' :=
  ⟨h.signature, h.unclassified⟩

mutual

/-- The walk gathers from every boundary below a container, as long as it does not come to its depth
limit. -/
lemma gathers_walk : ∀ {t : Model} {depth : ℕ} {w : SummaryWalk}, depth + t.height ≤ maxDepth →
    Fresh t.subtrees w → Gathers ctx (t.children.flatMap Nesting.subtrees) w (walk ctx t depth w)
  | .node b children leaves, depth, w, hdepth, hfresh => by
    have hchildren : (Nesting.node b children leaves).children.flatMap Nesting.subtrees =
        Nesting.subtreesOption children := by
      cases children with
      | none => rfl
      | some l => exact (Nesting.subtreesList_eq_flatMap l).symm
    have hseen : b.id ∉ w.seen := hfresh.2 _ (Nesting.self_mem_subtrees _)
    rw [walk, hchildren]
    by_cases hlimit : depth ≥ maxDepth
    · -- there is nothing below a container at the limit
      rw [if_pos (.inl hlimit)]
      cases children with
      | none => exact Gathers.refl w
      | some l =>
        cases l with
        | nil => exact Gathers.refl w
        | cons child l =>
          have hpos : 1 ≤ (Nesting.node b (some (child :: l)) leaves).height :=
            le_trans (le_add_left 1 _) (le_max_left _ _)
          omega
    · rw [if_neg (not_or.2 ⟨hlimit, hseen⟩)]
      exact (gathers_walkOption hdepth hfresh.tail).of_seen

lemma gathers_walkOption : ∀ {o : Option (List Model)} {depth : ℕ} {w : SummaryWalk},
    depth + Nesting.heightOption o ≤ maxDepth → Fresh (Nesting.subtreesOption o) w →
      Gathers ctx (Nesting.subtreesOption o) w (walkOption ctx o depth w)
  | none, _, w, _, _ => Gathers.refl w
  | some _, _, _, hdepth, hfresh => gathers_walkChildren hdepth hfresh

lemma gathers_walkChildren : ∀ {l : List Model} {depth : ℕ} {w : SummaryWalk},
    depth + Nesting.heightList l ≤ maxDepth → Fresh (Nesting.subtreesList l) w →
      Gathers ctx (Nesting.subtreesList l) w (walkChildren ctx l depth w)
  | [], _, w, _, _ => Gathers.refl w
  | child :: l, depth, w, hdepth, hfresh => by
    rw [Nesting.heightList] at hdepth
    have hchild : depth + 1 + child.height ≤ maxDepth := by
      omega
    have hrest : depth + Nesting.heightList l ≤ maxDepth := by
      omega
    rw [Nesting.subtreesList] at hfresh ⊢
    rw [walkChildren]
    by_cases hcontainer : isStructuralContainer child = true
    · rw [if_pos hcontainer]
      have hsplit := Nesting.subtrees_eq child
      have hbelow : Fresh child.subtrees (addHolder ctx child w) :=
        ⟨hfresh.left.1, fun b hb => by
          rw [seen_addHolder]
          exact hfresh.left.2 b hb⟩
      have hholder : Gathers ctx child.subtrees w (walk ctx child (depth + 1) (addHolder ctx child w)) := by
        rw [hsplit]
        exact (gathers_addHolder hcontainer w).append (gathers_walk hchild hbelow)
      refine hholder.append (gathers_walkChildren hrest (hfresh.right fun x hx => ?_))
      obtain hmem | hmem := seen_walk ctx hx
      · rw [seen_addHolder] at hmem
        exact .inl hmem
      · exact .inr hmem
    · -- a leaf is the only boundary at or under it
      have hleaf : isStructuralContainer child = false := Bool.eq_false_iff.2 hcontainer
      have hnil : child.children = [] := by
        simpa [isStructuralContainer] using hleaf
      rw [if_neg hcontainer, Nesting.subtrees_eq, hnil, flatMap_nil]
      refine (gathers_addLeaf hleaf w).append (gathers_walkChildren hrest (hfresh.right fun x hx => ?_))
      rw [seen_addLeaf] at hx
      exact .inl hx

end

/-- What the summary of a container gathers from: the boundaries at and under it. -/
lemma gathers_gathered {c : Model} (hc : isStructuralContainer c = true)
    (hnodup : (c.subtrees.map fun b => b.data.id).Nodup) (hheight : c.height ≤ maxDepth) :
    Gathers ctx c.subtrees ⟨[], 0, []⟩ (gathered ctx c) := by
  rw [Nesting.subtrees_eq, gathered]
  refine (gathers_addHolder hc _).append (gathers_walk ctx (by omega) ⟨hnodup, fun b _ => ?_⟩)
  rw [seen_addHolder]
  exact not_mem_nil

end

section

variable {m : Model} {flows : List DataFlow} {dataItems : List DataItem}

/-- The span of a set of tiers, `VENDOR` excluded; none if there is no other tier in it. -/
def IsSpan (tiers : Zone → Prop) : Option (Zone × Zone) → Prop
  | none => ∀ z, tiers z → z = .vendor
  | some (lo, hi) => (tiers lo ∧ lo ≠ .vendor) ∧ (tiers hi ∧ hi ≠ .vendor) ∧
      ∀ z, tiers z → z ≠ .vendor → exposureRank lo ≤ exposureRank z ∧ exposureRank z ≤ exposureRank hi

lemma isSpan_sorted (signature : List Zone) :
    let sorted := sortBy (fun a b => compare (exposureRank a) (exposureRank b))
      (signature.filter (· ≠ .vendor))
    IsSpan (· ∈ signature) (sorted.head?.bind fun lo => sorted.getLast?.map fun hi => (lo, hi)) := by
  intro sorted
  have hmem : ∀ z, z ∈ sorted ↔ z ∈ signature ∧ z ≠ .vendor := by
    intro z
    rw [(sortBy_perm _ _).mem_iff, mem_filter, decide_eq_true_eq]
  have htrans : Std.TransCmp fun a b : Zone => compare (exposureRank a) (exposureRank b) :=
    transCmp_comap exposureRank
  have hsorted : sorted.Pairwise fun a b => exposureRank a ≤ exposureRank b :=
    (pairwise_sortBy _).imp fun hle => Nat.isLE_compare.1 hle
  cases hcases : sorted with
  | nil =>
    intro z hz
    by_contra hne
    have habsurd := (hmem z).2 ⟨hz, hne⟩
    rw [hcases] at habsurd
    exact absurd habsurd not_mem_nil
  | cons lo rest =>
    rw [hcases] at hmem hsorted
    have hlast := getLast?_eq_some_getLast (cons_ne_nil lo rest)
    rw [head?_cons, Option.bind_some, hlast]
    refine ⟨(hmem lo).1 (.head _), (hmem _).1 (getLast_mem _), fun z hz hne => ?_⟩
    have hzmem := (hmem z).2 ⟨hz, hne⟩
    constructor
    · obtain rfl | hrest := mem_cons.1 hzmem
      · exact le_rfl
      · exact (pairwise_cons.1 hsorted).1 z hrest
    · obtain ⟨before, hsplit⟩ : ∃ before, lo :: rest = before ++ [(lo :: rest).getLast (cons_ne_nil _ _)] :=
        ⟨_, (dropLast_append_getLast _).symm⟩
      rw [hsplit] at hzmem hsorted
      obtain hbefore | hz := mem_append.1 hzmem
      · exact (pairwise_append.1 hsorted).2.2 z hbefore _ (mem_singleton.2 rfl)
      · rw [mem_singleton.1 hz]

/-- The boundary holds an asset itself. The default boundary does not count as a holder. -/
def HoldsDirectly (m : Model) (dataItems : List DataItem) (b : Model) : Prop :=
  b.data.id ≠ m.data.id ∧ HoldsAsset (structureOf m) dataItems b.data.toBoundaryData

lemma data_mem_nodes_structureOf {b : Model} (hb : b ∈ m.subtrees) :
    b.data.toBoundaryData ∈ (structureOf m).nodes := by
  rw [nodes_structureOf, ← Nesting.map_data_subtrees]
  exact mem_map_of_mem (mem_map_of_mem hb)

lemma data_structureOf (m : Model) : (structureOf m).data = m.data.toBoundaryData :=
  Nesting.data_map _ _ _

variable (flows) in
lemma mem_directAssetIds_iff (hids : (ids (structureOf m)).Nodup) {b : Model} (hb : b ∈ m.subtrees) :
    b.data.id ∈ (modelContext m flows dataItems).directAssetIds ↔ HoldsDirectly m dataItems b := by
  show b.data.id ∈ (collectAssetBoundaries (structureOf m) dataItems).directAssetIds ↔ _
  by_cases hroot : b.data.id = m.data.id
  · refine iff_of_false (fun hmem => ?_) fun h => h.1 hroot
    rw [hroot, show m.data.id = (structureOf m).data.id by rw [data_structureOf]] at hmem
    exact root_notMem_directAssetIds hmem
  · rw [mem_directAssetIds hids (data_mem_nodes_structureOf hb) (by rwa [data_structureOf])]
    exact (and_iff_right hroot).symm

lemma nodup_subtrees (hids : (ids (structureOf m)).Nodup) : (m.subtrees.map fun b => b.data.id).Nodup := by
  have hnodup := nodup_nodes hids
  rwa [nodes_structureOf, ← Nesting.map_data_subtrees, map_map, map_map] at hnodup

variable (flows) in
lemma mem_assetIds_iff (hids : (ids (structureOf m)).Nodup) {c : Model} (hc : c ∈ m.subtrees) :
    c.data.id ∈ (modelContext m flows dataItems).assetIds ↔
      c.data.id ≠ m.data.id ∧ ∃ b ∈ c.subtrees, HoldsDirectly m dataItems b := by
  have hsub : structureOf c ∈ (structureOf m).subtrees := by
    rw [structureOf, Nesting.subtrees_map]
    exact mem_map_of_mem hc
  -- the boundaries at and under the container are those whose chains go through it
  have hunder : ∀ b : BoundaryData, b ∈ (structureOf m).nodes →
      (Under (structureOf m) c.data.id b ↔ b ∈ (structureOf c).nodes) := by
    intro b hb
    obtain ⟨enclosing, hchain⟩ := exists_enclosing hb
    rw [Nesting.mem_nodes_iff_of_mem_chains ((nodup_nodes hids).of_map _) hsub hchain, data_structureOf]
    constructor
    · rintro ⟨enclosing', hchain', hmem⟩
      obtain rfl := enclosing_unique hids hchain' hchain
      obtain ⟨a, ha, hid⟩ := mem_map.1 hmem
      have heq : a = c.data.toBoundaryData := inj_on_of_nodup_map (nodup_nodes hids)
        (mem_nodes_of_mem_chain hchain ha) (data_mem_nodes_structureOf hc) hid
      exact heq ▸ ha
    · exact fun hmem => ⟨enclosing, hchain, mem_map_of_mem (f := BoundaryData.id) hmem⟩
  show c.data.id ∈ (collectAssetBoundaries (structureOf m) dataItems).assetIds ↔ _
  rw [mem_assetIds hids, data_structureOf]
  refine and_congr_right fun hne => ?_
  constructor
  · rintro ⟨b, hb, hholds, hmem⟩
    have hinside := (hunder b hb).1 hmem
    rw [nodes_structureOf, ← Nesting.map_data_subtrees, map_map] at hinside
    obtain ⟨b', hb', rfl⟩ := mem_map.1 hinside
    refine ⟨b', hb', fun hroot => hne ?_, hholds⟩
    -- only the default boundary is around itself
    obtain ⟨enclosing, hchain, hid⟩ := hmem
    cases enclosing with
    | nil => exact (mem_singleton.1 hid).trans hroot
    | cons a rest =>
      refine absurd ?_ (id_ne_root_of_mem_chains hids hchain)
      rw [data_structureOf]
      exact hroot
  · rintro ⟨b, hb, -, hholds⟩
    have hnode := data_mem_nodes_structureOf ((Nesting.subtrees_sublist hc).subset hb)
    refine ⟨_, hnode, hholds, (hunder _ hnode).2 ?_⟩
    rw [nodes_structureOf, ← Nesting.map_data_subtrees, map_map]
    exact mem_map_of_mem (f := Boundary.toBoundaryData ∘ Nesting.data) hb

/-- The findings that a leaf has no zone, about the boundaries of a list of ids. -/
def unclassifiedReports (findings : List ZoningFinding) (ids : List String) : List ZoningFinding :=
  findings.filter fun f => f.kind = .unclassified ∧ f.boundaryId ∈ ids

lemma unclassifiedReports_append (l l' : List ZoningFinding) (ids : List String) :
    unclassifiedReports (l ++ l') ids = unclassifiedReports l ids ++ unclassifiedReports l' ids :=
  filter_append _ _

lemma length_flatMap_of_ite {α β : Type*} {l : List α} {f : α → List β} {p : α → Bool}
    (h : ∀ a ∈ l, (f a).length = if p a then 1 else 0) : (l.flatMap f).length = (l.filter p).length := by
  induction l with
  | nil => rfl
  | cons a l ih =>
    rw [flatMap_cons, length_append, h a (.head _),
      ih fun a' ha' => h a' (.tail _ ha'), filter_cons]
    split_ifs
    · rw [length_cons, add_comm]
    · rw [zero_add]

lemma length_unclassified_segment (ctx : ModelContext) (b : Model) (ids : List String) :
    (unclassifiedReports (segmentFindings ctx (b.data.id, b)) ids).length =
      if decide (b.data.id ≠ ctx.defaultBoundaryId ∧ isUnclassified ctx b = true ∧ b.data.id ∈ ids) = true
      then 1 else 0 := by
  unfold unclassifiedReports segmentFindings
  by_cases hroot : b.data.id = ctx.defaultBoundaryId
  · simp [hroot]
  · have hunder : (underProtectedFinding ctx b.data.id b).toList.filter
        (fun f => decide (f.kind = .unclassified ∧ f.boundaryId ∈ ids)) = [] := by
      unfold underProtectedFinding
      split_ifs
      all_goals rfl
    have hplane : (mgmtPlaneFinding ctx b.data.id b).toList.filter
        (fun f => decide (f.kind = .unclassified ∧ f.boundaryId ∈ ids)) = [] := by
      unfold mgmtPlaneFinding
      split_ifs
      all_goals rfl
    rw [if_neg hroot, filter_append, filter_append, hunder, hplane, append_nil, append_nil]
    unfold unclassifiedFinding isUnclassified
    by_cases hdefault : (effectiveZone ctx b.data.id).source = .default ∧ isStructuralContainer b = false
    · by_cases hmem : b.data.id ∈ ids
      · simp [hdefault, hroot, hmem]
      · simp [hdefault, hmem]
    · simp [hdefault]

lemma below_sublist {c : Model} (hc : c ∈ m.subtrees) :
    (c.children.flatMap Nesting.subtrees).Sublist (m.children.flatMap Nesting.subtrees) := by
  have hsub := Nesting.subtrees_sublist hc
  rw [Nesting.subtrees_eq, Nesting.subtrees_eq m] at hsub
  exact hsub.tail

lemma entries_modelContext (hids : (ids (structureOf m)).Nodup) :
    (modelContext m flows dataItems).boundaries.entries = m.subtrees.map fun b => (b.data.id, b) := by
  refine Record.entries_ofList ?_
  rw [map_map]
  exact nodup_subtrees hids

/-- What the findings say about the boundaries under a container is what its summary counts. -/
lemma length_unclassifiedReports (hids : (ids (structureOf m)).Nodup) {c : Model} (hc : c ∈ m.subtrees)
    (toLowerCase : String → String) :
    (unclassifiedReports (computeZoningFindings (modelContext m flows dataItems) toLowerCase)
        ((c.children.flatMap Nesting.subtrees).map fun b => b.data.id)).length =
      ((c.children.flatMap Nesting.subtrees).filter (isUnclassified (modelContext m flows dataItems))).length := by
  let ctx := modelContext m flows dataItems
  let below := c.children.flatMap Nesting.subtrees
  have hbelow : below.Sublist (m.children.flatMap Nesting.subtrees) := below_sublist hc
  have hwhole : below.Sublist m.subtrees := by
    rw [Nesting.subtrees_eq m]
    exact hbelow.cons _
  have hnodup := nodup_subtrees hids
  have hroot : (structureOf m).data.id = m.data.id := by rw [data_structureOf]
  -- the other loops have other kinds of findings
  have hcrossings : unclassifiedReports (crossingFindings ctx) (below.map fun b => b.data.id) = [] := by
    refine filter_eq_nil_iff.2 fun f hf => ?_
    obtain ⟨p, -, hfinding⟩ := mem_filterMap.1 hf
    obtain ⟨hkind | hkind, -⟩ := key_crossingFinding hfinding
    all_goals simp [hkind]
  have hchannels : unclassifiedReports (channelFindings ctx) (below.map fun b => b.data.id) = [] := by
    refine filter_eq_nil_iff.2 fun f hf => ?_
    obtain ⟨entry, -, hmem⟩ := mem_flatMap.1 hf
    obtain ⟨conduit, -, hfinding⟩ := mem_flatMap.1 hmem
    simp [(of_mem_channelFinding hfinding).1]
  have hdomains : unclassifiedReports (domainFindings ctx toLowerCase) (below.map fun b => b.data.id) =
      [] := by
    refine filter_eq_nil_iff.2 fun f hf => ?_
    simp [kind_domainFindings hf]
  have hsegments : unclassifiedReports (ctx.boundaries.entries.flatMap (segmentFindings ctx))
      (below.map fun b => b.data.id) =
      m.subtrees.flatMap fun b => unclassifiedReports (segmentFindings ctx (b.data.id, b))
        (below.map fun b => b.data.id) := by
    unfold unclassifiedReports
    rw [entries_modelContext hids, filter_flatMap, flatMap_map]
  rw [computeZoningFindings, unclassifiedReports_append, unclassifiedReports_append,
    unclassifiedReports_append, hcrossings, hchannels, hdomains, append_nil, append_nil,
    append_nil, hsegments, length_flatMap_of_ite fun b _ => length_unclassified_segment ctx b _]
  refine List.Perm.length_eq ?_
  rw [perm_ext_iff_of_nodup ((hnodup.of_map _).filter _) ((hwhole.nodup (hnodup.of_map _)).filter _)]
  intro b
  simp only [mem_filter, decide_eq_true_eq]
  constructor
  · rintro ⟨hb, -, hunclassified, hmem⟩
    obtain ⟨b', hb', hid⟩ := mem_map.1 hmem
    obtain rfl := inj_on_of_nodup_map hnodup (hwhole.subset hb') hb hid
    exact ⟨hb', hunclassified⟩
  · rintro ⟨hb, hunclassified⟩
    refine ⟨hwhole.subset hb, ?_, hunclassified, mem_map_of_mem (f := fun b : Model => b.data.id) hb⟩
    -- the default boundary is not under a container
    rw [Nesting.subtrees_eq, map_cons, nodup_cons] at hnodup
    rintro hdefault
    refine hnodup.1 ?_
    rw [← hroot, ← show b.data.id = (structureOf m).data.id from hdefault]
    exact mem_map_of_mem (f := fun b : Model => b.data.id) (hbelow.subset hb)

/-- The boundaries at or under a container whose tiers its summary spans: the leaves and the containers
that hold an asset themselves. -/
def IsSegment (m : Model) (dataItems : List DataItem) (c b : Model) : Prop :=
  b ∈ c.subtrees ∧
    (isStructuralContainer b = false ∨ (isStructuralContainer b = true ∧ HoldsDirectly m dataItems b))

variable (flows) in
lemma counts_iff (hids : (ids (structureOf m)).Nodup) {c b : Model} (hc : c ∈ m.subtrees) :
    b ∈ c.subtrees ∧ Counts (modelContext m flows dataItems) b ↔ IsSegment m dataItems c b := by
  refine and_congr_right fun hb => ?_
  rw [Counts, mem_directAssetIds_iff flows hids ((Nesting.subtrees_sublist hc).subset hb)]
  cases isStructuralContainer b with
  | false | true => simp

/-- The summary of a container agrees with the tree and with the findings: it is missing exactly if
there is nothing to summarize, it spans the tiers of the segments at and under the container, it has the
asset roll-up, and it counts the leaves that the findings report. -/
theorem computeContainerSummary_spec (toLowerCase : String → String) (m : Model) (flows : List DataFlow)
    (dataItems : List DataItem) (hids : (ids (structureOf m)).Nodup) (hheight : m.height ≤ 50)
    (c : Model) (hc : c ∈ m.subtrees) (hcontainer : isStructuralContainer c = true) :
    let ctx := modelContext m flows dataItems
    (computeContainerSummary ctx c = none ↔
      (∀ b ∈ c.subtrees, isStructuralContainer b = true) ∧
        ∀ b ∈ c.subtrees, isStructuralContainer b = true → ¬ HoldsDirectly m dataItems b) ∧
    ∀ summary, computeContainerSummary ctx c = some summary →
      IsSpan (fun z => ∃ b, IsSegment m dataItems c b ∧ (tierOf ctx b).tier = z) summary.range ∧
      (summary.containsAssets = true ↔
        c.data.id ≠ m.data.id ∧ ∃ b ∈ c.subtrees, HoldsDirectly m dataItems b) ∧
      summary.unclassifiedDescendants =
        (unclassifiedReports (computeZoningFindings ctx toLowerCase)
          ((c.children.flatMap Nesting.subtrees).map fun b => b.data.id)).length := by
  intro ctx
  have hnodup : (c.subtrees.map fun b => b.data.id).Nodup :=
    ((Nesting.subtrees_sublist hc).map _).nodup (nodup_subtrees hids)
  have hlow : c.height ≤ maxDepth := le_trans (Nesting.exists_chains_subset [] hc).1 hheight
  obtain ⟨hsignature, hunclassified⟩ := gathers_gathered ctx hcontainer hnodup hlow
  have htiers : ∀ z, z ∈ (gathered ctx c).signature ↔
      ∃ b, IsSegment m dataItems c b ∧ (tierOf ctx b).tier = z := by
    intro z
    rw [hsignature]
    simp only [not_mem_nil, false_or, ← and_assoc]
    exact exists_congr fun b => and_congr_left fun _ => counts_iff flows hids hc
  have hcomputed : computeContainerSummary ctx c = _ := if_neg (by rw [hcontainer]; decide)
  simp only at hcomputed
  constructor
  · rw [hcomputed]
    by_cases hempty : (gathered ctx c).signature = []
    · rw [if_pos hempty]
      have hnone : ∀ b, ¬ IsSegment m dataItems c b := by
        intro b hb
        have hmem := (htiers _).2 ⟨b, hb, rfl⟩
        rw [hempty] at hmem
        exact absurd hmem not_mem_nil
      refine iff_of_true rfl ⟨fun b hb => ?_, fun b hb hcont hholds => ?_⟩
      · by_contra hleaf
        exact hnone b ⟨hb, .inl (Bool.eq_false_iff.2 hleaf)⟩
      · exact hnone b ⟨hb, .inr ⟨hcont, hholds⟩⟩
    · rw [if_neg hempty]
      refine iff_of_false (fun h => by cases h) ?_
      rintro ⟨hleaves, hholders⟩
      obtain ⟨z, hz⟩ := exists_mem_of_ne_nil _ hempty
      obtain ⟨b, ⟨hb, hleaf | ⟨hcont, hholds⟩⟩, -⟩ := (htiers z).1 hz
      · rw [hleaves b hb] at hleaf
        cases hleaf
      · exact hholders b hb hcont hholds
  · intro summary hsummary
    rw [hcomputed] at hsummary
    split_ifs at hsummary
    cases hsummary
    refine ⟨?_, ?_, ?_⟩
    · have hspan := isSpan_sorted (gathered ctx c).signature
      rwa [funext fun z => propext (htiers z)] at hspan
    · rw [decide_eq_true_eq]
      exact mem_assetIds_iff flows hids hc
    · have hself : isUnclassified ctx c = false := by
        simp [isUnclassified, hcontainer]
      simp only
      rw [hunclassified, zero_add, length_unclassifiedReports hids hc, Nesting.subtrees_eq,
        filter_cons_of_neg (by rw [hself]; exact Bool.false_ne_true)]

end

/-- A vault with a crown jewel, within a default boundary. -/
def jewelSite : Model :=
  .node (plainBoundary "campus" (by decide) none none)
    (some [.node (plainBoundary "cellar" (by decide) none none) none (some [⟨"safe", some true, none⟩])])
    none

/-- The default boundary is a container of a holder, and its summary does not say so. -/
theorem containsAssets_default : ¬ ∀ (m : Model) (flows : List DataFlow) (dataItems : List DataItem),
    (ids (structureOf m)).Nodup → m.height < 50 → ∀ c ∈ m.subtrees, isStructuralContainer c = true →
      ∀ summary, computeContainerSummary (modelContext m flows dataItems) c = some summary →
        (summary.containsAssets = true ↔
          ∃ b ∈ c.subtrees, HoldsAsset (structureOf m) dataItems b.data.toBoundaryData) := by
  intro h
  have hsignature : (gathered (modelContext jewelSite [] []) jewelSite).signature ≠ [] := by
    decide +kernel
  have hcomputed : computeContainerSummary (modelContext jewelSite [] []) jewelSite = _ :=
    (if_neg (by decide)).trans (if_neg hsignature)
  have hagree := h jewelSite [] [] (by decide +kernel) (by decide) jewelSite
    (Nesting.self_mem_subtrees _) (by decide) _ hcomputed
  have hholds : ∃ b ∈ jewelSite.subtrees,
      HoldsAsset (structureOf jewelSite) [] b.data.toBoundaryData :=
    ⟨_, .tail _ (.head _), .inl ⟨⟨"safe", some true, none⟩, .tail _ (.head _), .inl rfl⟩⟩
  have hmarked : jewelSite.data.id ∈ (modelContext jewelSite [] []).assetIds := by
    simpa using hagree.2 hholds
  exact absurd hmarked (by decide +kernel)

theorem computeContainerSummary_jewelSite :
    ∃ summary, computeContainerSummary (modelContext jewelSite [] []) jewelSite = some summary ∧
      IsSpan (fun z => ∃ b, IsSegment jewelSite [] jewelSite b ∧ (tierOf (modelContext jewelSite [] []) b).tier = z)
        summary.range ∧ summary.containsAssets = false := by
  have hsome : (computeContainerSummary (modelContext jewelSite [] []) jewelSite).isSome = true := by decide +kernel
  obtain ⟨summary, hsummary⟩ := Option.isSome_iff_exists.1 hsome
  obtain ⟨hspan, hholds, -⟩ := (computeContainerSummary_spec id jewelSite [] [] (by decide +kernel) (by decide)
    jewelSite (Nesting.self_mem_subtrees _) (by decide)).2 summary hsummary
  exact ⟨summary, hsummary, hspan, Bool.eq_false_iff.2 fun h => (hholds.1 h).1 rfl⟩

end Zoning
