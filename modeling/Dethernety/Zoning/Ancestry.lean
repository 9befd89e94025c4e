import Dethernety.Foundations.Subtrees
import Dethernety.Zoning.Inheritance

/-!
# What is around a boundary

The walks up the nesting that `isAncestorOf` and the asset roll-up of `collectAssetBoundaries` make, as
conditions on the boundaries around a boundary. The roll-up stops below the default boundary.
`isAncestorOf` does not: it goes on to the boundary that the default boundary refers to as its parent,
as the walk of `resolveEffectiveZone` does.
-/

open List

namespace Zoning

variable {s : ModelStructure} {flows : List DataFlow} {dataItems : List DataItem}

section

variable {b : BoundaryData} {enclosing : List BoundaryData}

lemma enclosing_unique (hids : (ids s).Nodup) {l l' : List BoundaryData}
    (h : (b, l) ∈ s.chains []) (h' : (b, l') ∈ s.chains []) : l = l' := by
  have hnodup : ((s.chains []).map Prod.fst).Nodup := by
    rw [Nesting.map_fst_chains]
    exact (nodup_nodes hids).of_map _
  exact (Prod.mk.inj (inj_on_of_nodup_map hnodup h h' rfl)).2

lemma exists_enclosing (hb : b ∈ s.nodes) : ∃ enclosing, (b, enclosing) ∈ s.chains [] := by
  rw [← Nesting.map_fst_chains []] at hb
  obtain ⟨⟨b', enclosing⟩, h, rfl⟩ := mem_map.1 hb
  exact ⟨enclosing, h⟩

lemma parentOf_of_mem_chains (hids : (ids s).Nodup) (h : (b, enclosing) ∈ s.chains []) :
    (flattenStructure s).parentOf b.id = enclosing.head?.map BoundaryData.id := by
  obtain hroot | ⟨a, rest, henclosing, hlink, -⟩ := Nesting.chains_cases h
  · cases hroot
    exact parentOf_root hids
  · obtain rfl : enclosing = a :: rest := henclosing
    exact parentOf_of_mem_links hids hlink

lemma id_ne_root_of_mem_chains (hids : (ids s).Nodup) {a b : BoundaryData} {rest : List BoundaryData}
    (h : (b, a :: rest) ∈ s.chains []) : b.id ≠ s.data.id := by
  have hnodup := nodup_chain hids h
  rw [map_cons, nodup_cons] at hnodup
  intro heq
  refine hnodup.1 (heq ▸ mem_map_of_mem ?_)
  exact root_mem_chain hids (mem_chains_tail h)

/-- The walk marks a boundary and those around it, without the default boundary. -/
lemma mem_markWithAncestors (hids : (ids s).Nodup)
    (h : (b, enclosing) ∈ s.chains []) {fuel : ℕ} (hfuel : enclosing.length < fuel)
    {seen marked : List String} (hseen : ∀ a ∈ b :: enclosing, a.id ∉ seen) {x : String} :
    x ∈ markWithAncestors (flattenStructure s) s.data.id fuel seen (some b.id) marked ↔
      x ∈ marked ∨ (x ≠ s.data.id ∧ x ∈ (b :: enclosing).map BoundaryData.id) := by
  induction enclosing generalizing b fuel seen marked with
  | nil =>
    obtain ⟨fuel, rfl⟩ := Nat.exists_eq_add_of_lt hfuel
    obtain rfl := (normalized_of_mem_chains hids h).2.2 rfl
    simp [markWithAncestors]
  | cons a rest ih =>
    obtain ⟨fuel, rfl⟩ : ∃ fuel', fuel = fuel' + 1 := Nat.exists_eq_succ_of_ne_zero (by omega)
    have hroot := id_ne_root_of_mem_chains hids h
    have hnodup := nodup_chain hids h
    rw [map_cons, nodup_cons] at hnodup
    have hseen' := notMem_seen_cons hnodup.1 hseen
    rw [markWithAncestors, if_pos ⟨hroot, hseen b (.head _)⟩, parentOf_of_mem_chains hids h,
      head?_cons, Option.map_some,
      ih (mem_chains_tail h) (by rw [length_cons] at hfuel; omega) hseen', mem_addTo, or_assoc,
      map_cons (a := b), mem_cons (a := x) (b := b.id)]
    refine or_congr_right ⟨?_, ?_⟩
    · rintro (rfl | ⟨hne, hmem⟩)
      · exact ⟨hroot, .inl rfl⟩
      · exact ⟨hne, .inr hmem⟩
    · rintro ⟨hne, rfl | hmem⟩
      · exact .inl rfl
      · exact .inr ⟨hne, hmem⟩

lemma mem_nodes_of_mem_chain {a b : BoundaryData}
    (h : (b, enclosing) ∈ s.chains []) (ha : a ∈ b :: enclosing) : a ∈ s.nodes := by
  obtain hnil | ⟨c, hc, rfl, -⟩ := Nesting.exists_subtree_of_mem_chains h ha
  · exact absurd hnil not_mem_nil
  · rw [← Nesting.map_data_subtrees]
    exact mem_map_of_mem hc

lemma length_chain_lt (hids : (ids s).Nodup) (h : (b, enclosing) ∈ s.chains []) :
    enclosing.length < (flattenStructure s).parentMap.keys.length + 1 := by
  have hkeys : ((b :: enclosing).map BoundaryData.id) ⊆ (flattenStructure s).parentMap.keys := by
    intro x hx
    obtain ⟨a, ha, rfl⟩ := mem_map.1 hx
    rw [(flattenStructure_fields s).2.2, Record.mem_keys_foldl_set]
    have hmem : elementId (.inl a) ∈ ids s :=
      mem_map_of_mem (Nesting.mem_nodes.1 (mem_nodes_of_mem_chain h ha))
    rw [ids_eq_cons_links] at hmem
    obtain heq | hmem := mem_cons.1 hmem
    · exact .inr (Record.mem_keys_set.2 (.inl heq))
    · exact .inl hmem
  have hle := ((nodup_chain hids h).subperm hkeys).length_le
  rw [length_map, length_cons] at hle
  omega

end

section

variable (ancestorId : String)

/-- A round of the walk that is about to go to the boundary `a`. -/
lemma ancestorLoop_succ {byId : Record String BoundaryData} {root cur : String} {a : BoundaryData}
    (hnext : ((byId.get? cur).map (nextId root)).getD root = a.id) (n : ℕ) (seen : List String) :
    ancestorLoop byId root ancestorId (n + 1) cur seen =
      if a.id ∈ seen then false
      else if a.id = ancestorId then true
      else ancestorLoop byId root ancestorId n a.id (a.id :: seen) := by
  rw [ancestorLoop, hnext]
  simp only [a.id_ne_empty, false_or]

variable {enclosing : List BoundaryData} {b : BoundaryData}

variable (flows dataItems) in
lemma next_of_mem_chains (hids : (ids s).Nodup) (h : (b, enclosing) ∈ s.chains []) :
    (((buildZoningContext s flows dataItems).boundariesById.get? b.id).map (nextId s.data.id)).getD s.data.id =
      (enclosing.head?.map BoundaryData.id).getD (nextId s.data.id s.data) := by
  rw [get?_boundariesById hids (mem_nodes_of_mem_chains h), Option.map_some, Option.getD_some]
  exact (normalized_of_mem_chains hids h).2.1

variable (flows dataItems) in
/-- The walk along the boundaries around `b`, and then on from the default boundary. -/
lemma ancestorLoop_chain (hids : (ids s).Nodup) (h : (b, enclosing) ∈ s.chains []) (n : ℕ) {seen : List String}
    (hseen : ∀ a ∈ enclosing, a.id ∉ seen) :
    ancestorLoop (buildZoningContext s flows dataItems).boundariesById s.data.id ancestorId n b.id seen = true ↔
      ancestorId ∈ (enclosing.take n).map BoundaryData.id ∨
        ancestorLoop (buildZoningContext s flows dataItems).boundariesById s.data.id ancestorId
          (n - enclosing.length) s.data.id ((enclosing.map BoundaryData.id).reverse ++ seen) = true := by
  induction enclosing generalizing b n seen with
  | nil =>
    obtain rfl := (normalized_of_mem_chains hids h).2.2 rfl
    simp
  | cons a rest ih =>
    have htail := mem_chains_tail h
    have hnodup := nodup_chain hids htail
    rw [map_cons, nodup_cons] at hnodup
    cases n with
    | zero => simp [ancestorLoop]
    | succ n =>
      rw [ancestorLoop_succ ancestorId (next_of_mem_chains flows dataItems hids h),
        if_neg (hseen a (.head _))]
      by_cases ha : a.id = ancestorId
      · rw [if_pos ha]
        simp [ha]
      · have hseen' := notMem_seen_cons hnodup.1 hseen
        have hlength : n + 1 - (a :: rest).length = n - rest.length := by
          rw [length_cons]
          omega
        rw [if_neg ha, ih htail n hseen', hlength, take_succ_cons, map_cons, mem_cons]
        simp [Ne.symm ha]

variable (flows dataItems) in
/-- The walk that has been at the default boundary ends where it meets what it has seen. -/
lemma ancestorLoop_seen (hids : (ids s).Nodup)
    (h : (b, enclosing) ∈ s.chains []) (n : ℕ) {cur : String} {seen : List String}
    (hnext : (((buildZoningContext s flows dataItems).boundariesById.get? cur).map
      (nextId s.data.id)).getD s.data.id = b.id) (hroot : s.data.id ∈ seen) :
    ancestorLoop (buildZoningContext s flows dataItems).boundariesById s.data.id ancestorId n cur seen = true ↔
      ancestorId ∈ (((b :: enclosing).takeWhile (·.id ∉ seen)).take n).map BoundaryData.id := by
  induction enclosing generalizing b n cur seen with
  | nil =>
    obtain rfl := (normalized_of_mem_chains hids h).2.2 rfl
    cases n with
    | zero => simp [ancestorLoop]
    | succ n =>
      rw [ancestorLoop_succ ancestorId hnext, if_pos hroot]
      simp [hroot]
  | cons a rest ih =>
    have hnodup := nodup_chain hids h
    rw [map_cons, nodup_cons] at hnodup
    cases n with
    | zero => simp [ancestorLoop]
    | succ n =>
      rw [ancestorLoop_succ ancestorId hnext]
      by_cases hmem : b.id ∈ seen
      · rw [if_pos hmem]
        simp [hmem]
      · rw [if_neg hmem, takeWhile_cons_of_pos (by simpa using hmem), take_succ_cons,
          map_cons, mem_cons]
        by_cases hb : b.id = ancestorId
        · rw [if_pos hb]
          simp [hb]
        · have hrest := ih (mem_chains_tail h) n (next_of_mem_chains flows dataItems hids h)
            (mem_cons_of_mem b.id hroot)
          rw [takeWhile_notMem_cons hnodup.1] at hrest
          rw [if_neg hb, hrest]
          simp [Ne.symm hb]

variable (flows dataItems) in
/-- `isAncestorOf` as a condition on what is around the boundary: the first 50 of the boundaries around
it and of those that the default boundary's own reference leads to. -/
theorem isAncestorOf_iff (hids : (ids s).Nodup) (hancestor : ancestorId ∈ s.nodes.map BoundaryData.id)
    {b a : BoundaryData} {rest : List BoundaryData} (h : (b, a :: rest) ∈ s.chains []) :
    isAncestorOf (buildZoningContext s flows dataItems).boundariesById s.data.id ancestorId b.id = true ↔
      ancestorId ∈ ((a :: rest ++ detour s (a :: rest)).take maxDepth).map BoundaryData.id := by
  have hroot : s.data.id ∈ ((a :: rest).map BoundaryData.id).reverse :=
    mem_reverse.2 (mem_map_of_mem (root_mem_chain hids (mem_chains_tail h)))
  have hdata : (s.data, []) ∈ s.chains [] := by
    obtain ⟨enclosing, hchain⟩ := exists_enclosing (Nesting.data_mem_nodes s)
    cases enclosing with
    | nil => exact hchain
    | cons => exact absurd rfl (id_ne_root_of_mem_chains hids hchain)
  rw [isAncestorOf, ancestorLoop_chain flows dataItems ancestorId hids h maxDepth
    (fun _ _ => not_mem_nil), append_nil, take_append, map_append, mem_append]
  refine or_congr_right ?_
  have hnext := next_of_mem_chains flows dataItems hids hdata
  rw [head?_nil, Option.map_none, Option.getD_none] at hnext
  unfold detour
  cases hfind : (s.chains []).find? (fun p => some p.1.id = s.data.parentBoundary) with
  | some p =>
    obtain ⟨y, around⟩ := p
    have hparent : s.data.parentBoundary = some y.id := by
      have hp := find?_some hfind
      exact (of_decide_eq_true hp).symm
    rw [show nextId s.data.id s.data = y.id by simp [nextId, hparent, y.id_ne_empty]] at hnext
    rw [ancestorLoop_seen flows dataItems ancestorId hids (mem_of_find?_eq_some hfind) _ hnext hroot]
    simp only [mem_reverse]
  | none =>
    -- the reference leads back to the default boundary or out of the structure
    have hnone : ∀ p ∈ s.chains [], some p.1.id ≠ s.data.parentBoundary := by
      intro p hp heq
      exact find?_eq_none.1 hfind p hp (decide_eq_true heq)
    have hout : nextId s.data.id s.data = s.data.id ∨
        nextId s.data.id s.data ∉ s.nodes.map BoundaryData.id := by
      cases hparent : s.data.parentBoundary with
      | none => exact .inl (by simp [nextId, hparent])
      | some q =>
        by_cases hq : q = ""
        · exact .inl (by simp [nextId, hparent, hq])
        · refine .inr ?_
          rw [show nextId s.data.id s.data = q by simp [nextId, hparent, hq],
            ← Nesting.map_fst_chains [], map_map]
          intro hmem
          obtain ⟨p, hp, heq⟩ := mem_map.1 hmem
          exact hnone p hp (hparent ▸ congrArg some heq)
    rw [take_nil, map_nil, iff_false_right not_mem_nil, Bool.not_eq_true]
    obtain hout | hout := hout
    · rw [hout] at hnext
      cases maxDepth - (a :: rest).length with
      | zero => rfl
      | succ n => rw [ancestorLoop_succ ancestorId hnext, if_pos hroot]
    · cases maxDepth - (a :: rest).length with
      | zero => rfl
      | succ n =>
        rw [ancestorLoop, hnext]
        have hne : nextId s.data.id s.data ≠ ancestorId := fun heq => hout (heq ▸ hancestor)
        split_ifs
        · rfl
        · have hback : (((buildZoningContext s flows dataItems).boundariesById.get?
              (nextId s.data.id s.data)).map (nextId s.data.id)).getD s.data.id = s.data.id := by
            rw [get?_boundariesById_of_notMem hout]
            rfl
          cases n with
          | zero => rfl
          | succ n =>
            rw [ancestorLoop_succ ancestorId hback, if_pos (.tail _ hroot)]

end

/-- The boundary is, or is in, one with the id. -/
def Under (s : ModelStructure) (id : String) (b : BoundaryData) : Prop :=
  ∃ enclosing, (b, enclosing) ∈ s.chains [] ∧ id ∈ (b :: enclosing).map BoundaryData.id

lemma mem_mark_assetIds (hids : (ids s).Nodup) {b : BoundaryData} (hb : b ∈ s.nodes)
    (t : AssetBoundaries) {x : String} :
    x ∈ (t.mark (flattenStructure s) s.data.id (some b.id)).assetIds ↔
      x ∈ t.assetIds ∨ (x ≠ s.data.id ∧ Under s x b) := by
  obtain ⟨enclosing, h⟩ := exists_enclosing hb
  rw [AssetBoundaries.mark, mem_markWithAncestors hids h (length_chain_lt hids h)
    (fun _ _ => not_mem_nil)]
  refine or_congr_right (and_congr_right fun _ => ⟨fun hx => ⟨enclosing, h, hx⟩, ?_⟩)
  rintro ⟨enclosing', h', hx⟩
  rwa [enclosing_unique hids h h']

/-- One of the three loops of `collectAssetBoundaries`, each round of which marks a boundary. -/
lemma mem_assetIds_foldl (hids : (ids s).Nodup) {α : Type} (holder : α → Option String)
    {p : α → Prop} [DecidablePred p] (place : α → BoundaryData) (l : List α)
    (hplace : ∀ a ∈ l, place a ∈ s.nodes ∧ holder a = some (place a).id) (t : AssetBoundaries) {x : String} :
    x ∈ (l.foldl (fun t a => if p a then t.mark (flattenStructure s) s.data.id (holder a) else t)
        t).assetIds ↔
      x ∈ t.assetIds ∨ (x ≠ s.data.id ∧ ∃ a ∈ l, p a ∧ Under s x (place a)) := by
  induction l generalizing t with
  | nil => simp
  | cons a l ih =>
    obtain ⟨hnode, hholder⟩ := hplace a (.head _)
    rw [foldl_cons, ih fun a' ha' => hplace a' (.tail _ ha'), exists_mem_cons_iff]
    by_cases h : p a
    · rw [if_pos h, hholder, mem_mark_assetIds hids hnode]
      simp only [h, true_and, or_assoc, and_or_left]
    · rw [if_neg h]
      simp only [h, false_and, false_or]

lemma exists_holder {c : ComponentData} (hc : c ∈ s.leaves) : ∃ b, (b, .inr c) ∈ s.links := by
  have hmem := Nesting.mem_leaves.1 hc
  rw [Nesting.elements_eq_cons_links] at hmem
  obtain heq | hmem := mem_cons.1 hmem
  · cases heq
  · obtain ⟨⟨b, e⟩, hlink, heq⟩ := mem_map.1 hmem
    obtain rfl : e = .inr c := heq
    exact ⟨b, hlink⟩

/-- The boundaries that bear an asset are those that a holder of one is, or is in, without the default
boundary. -/
theorem mem_assetIds (hids : (ids s).Nodup) {x : String} :
    x ∈ (collectAssetBoundaries s dataItems).assetIds ↔
      x ≠ s.data.id ∧ ∃ b ∈ s.nodes, HoldsAsset s dataItems b ∧ Under s x b := by
  obtain ⟨hboundaries, hcomponents, -⟩ := flattenStructure_fields s
  classical
  -- the boundary that a component is in
  let place := fun c : ComponentData => if h : ∃ b, (b, Sum.inr c) ∈ s.links then h.choose else s.data
  have hplace : ∀ c ∈ s.leaves, (place c, Sum.inr c) ∈ s.links := by
    intro c hc
    simp only [place, dif_pos (exists_holder hc)]
    exact (exists_holder hc).choose_spec
  have hnode : ∀ {b : BoundaryData} {e}, (b, e) ∈ s.links → b ∈ s.nodes := fun hlink =>
    Nesting.mem_nodes.2 (Nesting.mem_elements_of_mem_links hlink)
  have hleaf : ∀ {b : BoundaryData} {c : ComponentData}, (b, .inr c) ∈ s.links →
      c ∈ s.leaves ∧ place c = b := by
    intro b c hlink
    have hc : c ∈ s.leaves := by
      rw [Nesting.mem_leaves, Nesting.elements_eq_cons_links]
      exact .tail _ (mem_map_of_mem (f := Prod.snd) hlink)
    refine ⟨hc, ?_⟩
    have hid := (parentOf_of_mem_links hids (hplace c hc)).symm.trans (parentOf_of_mem_links hids hlink)
    exact inj_on_of_nodup_map (nodup_nodes hids) (hnode (hplace c hc)) (hnode hlink)
      (Option.some.inj hid)
  have hcomponent : ∀ c ∈ (flattenStructure s).components, place c ∈ s.nodes ∧
      (flattenStructure s).parentOf c.id = some (place c).id := by
    intro c hc
    rw [hcomponents] at hc
    exact ⟨hnode (hplace c hc), parentOf_of_mem_links hids (hplace c hc)⟩
  have hboundary : ∀ b ∈ (flattenStructure s).boundaries, id b ∈ s.nodes ∧ some b.id = some (id b).id := by
    intro b hb
    exact ⟨hboundaries ▸ hb, rfl⟩
  -- what the loops over the components mark
  have hloop : ∀ (p : ComponentData → Prop), (∃ c ∈ (flattenStructure s).components, p c ∧
      Under s x (place c)) ↔ ∃ b ∈ s.nodes, (∃ c, (b, .inr c) ∈ s.links ∧ p c) ∧ Under s x b := by
    intro p
    rw [hcomponents]
    constructor
    · rintro ⟨c, hc, hp, hunder⟩
      exact ⟨place c, hnode (hplace c hc), ⟨c, hplace c hc, hp⟩, hunder⟩
    · rintro ⟨b, -, ⟨c, hlink, hp⟩, hunder⟩
      obtain ⟨hc, rfl⟩ := hleaf hlink
      exact ⟨c, hc, hp, hunder⟩
  unfold collectAssetBoundaries
  extract_lets flat _ mark jewels items held
  have hjewels : x ∈ jewels.assetIds ↔ x ≠ s.data.id ∧
      ∃ b ∈ s.nodes, (∃ c, (b, .inr c) ∈ s.links ∧ c.crownJewel = some true) ∧ Under s x b := by
    rw [mem_assetIds_foldl hids (fun c : ComponentData => flat.parentOf c.id) place _ hcomponent, hloop]
    simp
  by_cases hitems : items.length > 0
  · rw [if_pos hitems, mem_assetIds_foldl hids (fun b : BoundaryData => some b.id) id _ hboundary,
      mem_assetIds_foldl hids (fun c : ComponentData => flat.parentOf c.id) place _ hcomponent, hjewels,
      hloop, hboundaries, ← and_or_left, ← and_or_left]
    simp only [refsAsset_iff, items, id]
    refine and_congr_right fun _ => ?_
    constructor
    · rintro ((⟨b, hb, ⟨c, hlink, hjewel⟩, hunder⟩ | ⟨b, hb, ⟨c, hlink, hrefs⟩, hunder⟩) |
        ⟨b, hb, hrefs, hunder⟩)
      · exact ⟨b, hb, .inl ⟨c, hlink, .inl hjewel⟩, hunder⟩
      · exact ⟨b, hb, .inl ⟨c, hlink, .inr hrefs⟩, hunder⟩
      · exact ⟨b, hb, .inr hrefs, hunder⟩
    · rintro ⟨b, hb, ⟨c, hlink, hjewel | hrefs⟩ | hrefs, hunder⟩
      · exact .inl (.inl ⟨b, hb, ⟨c, hlink, hjewel⟩, hunder⟩)
      · exact .inl (.inr ⟨b, hb, ⟨c, hlink, hrefs⟩, hunder⟩)
      · exact .inr ⟨b, hb, hrefs, hunder⟩
  · -- there is no data item of high value to refer to
    rw [if_neg hitems, hjewels]
    simp only [HoldsAsset, not_refersToAsset hitems, or_false]

/-- The default boundary is never marked. -/
theorem root_notMem_directAssetIds : s.data.id ∉ (collectAssetBoundaries s dataItems).directAssetIds := by
  unfold collectAssetBoundaries
  extract_lets flat rootId mark jewels items held
  have hjewels : s.data.id ∉ jewels.directAssetIds := by
    rw [mem_directAssetIds_foldl]
    rintro (hnil | ⟨c, -, -, -, hne⟩)
    · exact absurd hnil not_mem_nil
    · exact hne rfl
  split_ifs
  · rw [mem_directAssetIds_foldl, mem_directAssetIds_foldl]
    rintro ((hjewel | ⟨c, -, -, -, hne⟩) | ⟨b, -, -, -, hne⟩)
    · exact hjewels hjewel
    all_goals exact hne rfl
  · exact hjewels

end Zoning
