import Dethernety.Coverage.Facts
import Dethernety.Zoning.Ancestry
import Dethernety.Zoning.Determination

/-!
# The coherence findings

Model of `computeZoningFindings` of `zone-determination.ts`. What is new here are the crossings between
boundaries: those of the boundary adjacency that bear a risk are reported once each, unless a conduit
declares them or one end is nested in the other. The findings do not depend on the order of the data
flows. Nesting is read off by `isAncestorOf`, which follows the reference of the default boundary too,
so that it may take two boundaries for nested that are not.
-/

open List Record

namespace Zoning

open ThreatReport (Plane ConduitDirection Conduit sortBy)

/-- A boundary with all that the findings read of it. -/
structure Boundary extends BoundaryData where
  /-- Ids are UUIDs. -/
  notMem_id : '\x00' ∉ id.toList
  name : String
  domains : Option (List String)
  planes : Option (List Plane)
  conduits : Option (List Conduit)

/-- The default boundary with all that is in it. -/
abbrev Model := Nesting Boundary ComponentData

/-- The structure as the context builder reads it. -/
def structureOf (m : Model) : ModelStructure :=
  m.map Boundary.toBoundaryData id

def isStructuralContainer (b : Model) : Bool :=
  b.children.length > 0

/-- A `ZoningContext` with the entries of `boundariesById` as they are, not only with what the walks
read of them. -/
structure ModelContext extends ZoningContext where
  boundaries : Record String Model

/-- `buildZoningContext` -/
def modelContext (m : Model) (flows : List DataFlow) (dataItems : List DataItem) : ModelContext :=
  { buildZoningContext (structureOf m) flows dataItems with
    boundaries := .ofList (m.subtrees.map fun b => (b.data.id, b)) }

section

inductive FindingKind
  | unclassified
  | underProtected
  | mgmtPlane
  | externalIngress
  | flowChannel
  | crossTierDomain
  deriving DecidableEq

inductive Severity
  | info
  | warning

structure ZoningFinding where
  kind : FindingKind
  boundaryId : String
  detail : String
  severity : Severity
  peerId : Option String

def ZoningFinding.key (f : ZoningFinding) : FindingKind × String × Option String :=
  (f.kind, f.boundaryId, f.peerId)

def Zone.text : Zone → String
  | .restricted => "RESTRICTED"
  | .internal => "INTERNAL"
  | .exposed => "EXPOSED"
  | .publicZone => "PUBLIC"
  | .untrusted => "UNTRUSTED"
  | .vendor => "VENDOR"

variable (ctx : ModelContext)

/-- `resolveEffectiveZone`, with the map and the default boundary of the context -/
def effectiveZone (id : String) : EffectiveZone :=
  resolveEffectiveZone id ctx.boundariesById ctx.defaultBoundaryId

/-- `determineZoneTier` of an entry of the context -/
def tierOf (b : Model) : ZoneTierResult :=
  determineZoneTier ctx.toZoningContext b.data.toBoundaryData

/-- The first finding: no boundary up the nesting declares a zone. -/
def unclassifiedFinding (id : String) (b : Model) : Option ZoningFinding :=
  if (effectiveZone ctx id).source = .default ∧ isStructuralContainer b = false then
    some ⟨.unclassified, id, "no zone declared in its inheritance chain — falls back to Internal",
      .info, none⟩
  else none

/-- The text of the second finding. -/
def underProtectedDetail (tier : ZoneTierResult) : String :=
  if tier.tier = .publicZone ∨ tier.tier = .exposed then
    "holds a high-value asset but sits in an externally-reachable segment — " ++
      "relocate the asset to a restricted segment (misplaced)"
  else if tier.blockedBy = some .exposure then
    "holds a high-value asset reached from an exposed tier — add an internal hop so it can be " ++
      "Restricted (under-segmented)"
  else if tier.blockedBy = some .noIngress then
    "holds a high-value asset but has no modelled ingress — cannot verify isolation to promote to Restricted"
  else "holds a high-value asset but does not qualify for Restricted"

/-- The second finding: a direct holder of an asset that is not `RESTRICTED`. -/
def underProtectedFinding (id : String) (b : Model) : Option ZoningFinding :=
  if id ∈ ctx.directAssetIds ∧ (tierOf ctx b).tier ≠ .restricted then
    some ⟨.underProtected, id, underProtectedDetail (tierOf ctx b), .warning, none⟩
  else none

/-- The fourth finding: a management plane that is reachable from the outside. -/
def mgmtPlaneFinding (id : String) (b : Model) : Option ZoningFinding :=
  if Plane.management ∈ b.data.planes.getD [] ∧
      ((tierOf ctx b).tier = .exposed ∨ (tierOf ctx b).tier = .publicZone) then
    some ⟨.mgmtPlane, id, s!"management-plane boundary resolves to {(tierOf ctx b).tier.text} — " ++
      "management surfaces should not be externally reachable",
      .warning, none⟩
  else none

/-- The findings about one entry of `boundariesById`. -/
def segmentFindings (entry : String × Model) : List ZoningFinding :=
  if entry.1 = ctx.defaultBoundaryId then []
  else (unclassifiedFinding ctx entry.1 entry.2).toList ++
    (underProtectedFinding ctx entry.1 entry.2).toList ++ (mgmtPlaneFinding ctx entry.1 entry.2).toList

def conduitEdgeKey (src tgt : String) : String :=
  src ++ "\x00" ++ tgt

/-- The key that a conduit of the boundary adds to `declaredEdges`. -/
def declaredEdge (id : String) (c : Conduit) : Option String :=
  if c.peerId = "" then none
  else
    match c.direction with
    | .outbound => some (conduitEdgeKey id c.peerId)
    | .inbound => some (conduitEdgeKey c.peerId id)

def declaredEdges : List String :=
  ctx.boundaries.entries.flatMap fun entry =>
    (entry.2.data.conduits.getD []).filterMap (declaredEdge entry.1)

def nameOf (id : String) : String :=
  ((ctx.boundaries.get? id).map fun b => b.data.name).getD id

/-- One of two boundaries is an ancestor of the other one, as the findings see it. -/
def takenAsNested (src tgt : String) : Bool :=
  isAncestorOf ctx.boundariesById ctx.defaultBoundaryId src tgt ||
    isAncestorOf ctx.boundariesById ctx.defaultBoundaryId tgt src

def crossingFinding (src tgt : String) : Option ZoningFinding :=
  if conduitEdgeKey src tgt ∈ declaredEdges ctx then none
  else if takenAsNested ctx src tgt then none
  else if isExternal ctx.toZoningContext src ∧
      ((effectiveZone ctx tgt).zone = .internal ∨ (effectiveZone ctx tgt).zone = .restricted) then
    some ⟨.externalIngress, src, s!"external-tier boundary has a modelled flow into {nameOf ctx tgt} " ++
      "(a trusted tier) with no approved channel — ratify a conduit or route it through an " ++
      "approved path",
      .warning, some tgt⟩
  else if isExposingSource ctx.toZoningContext src ∧ tgt ∈ ctx.assetIds then
    some ⟨.flowChannel, src, s!"risk-bearing crossing into {nameOf ctx tgt} (asset-bearing) " ++
      "has no declared channel — undeclared path",
      .warning, some tgt⟩
  else none

/-- The crossings of the adjacency, in the order of the loop. -/
def crossings (a : Adjacency) : List (String × String) :=
  a.outOf.entries.flatMap fun entry => entry.2.map (entry.1, ·)

def crossingFindings : List ZoningFinding :=
  (crossings ctx.adjacency).filterMap fun p => crossingFinding ctx p.1 p.2

/-- The findings about a conduit of a boundary: no flow matches it, or it has no justification. -/
def channelFinding (id : String) (c : Conduit) : List ZoningFinding :=
  if c.peerId = "" ∨ c.direction ≠ .outbound then []
  else
    (if c.peerId ∈ (ctx.adjacency.outOf.get? id).getD [] then []
      else [⟨.flowChannel, id, s!"declared channel to {nameOf ctx c.peerId} has no matching " ++
          "flow — dead intent (declared but dormant)",
        .info, some c.peerId⟩]) ++
    (if c.justification.all (fun text => ecmaTrim text.toList = []) then
        [⟨.flowChannel, id, s!"declared channel to {nameOf ctx c.peerId} has no " ++
          "justification — unreviewable declaration",
          .info, some c.peerId⟩]
      else [])

/-- The loop over the conduits. -/
def channelFindings : List ZoningFinding :=
  ctx.boundaries.entries.flatMap fun entry =>
    (entry.2.data.conduits.getD []).flatMap (channelFinding ctx entry.1)

/-- `byDomain`: the first spelling of a tag and the boundaries that have it. -/
abbrev DomainMap := Record String (String × List String)

variable (toLowerCase : String → String)

def addTag (id : String) (byDomain : DomainMap) (raw : String) : DomainMap :=
  let display := String.ofList (ecmaTrim raw.toList)
  let key := toLowerCase display
  if key = "" then byDomain
  else
    let entry := (byDomain.get? key).getD (display, [])
    byDomain.set key (entry.1, addTo entry.2 id)

def byDomain : DomainMap :=
  ctx.boundaries.entries.foldl (fun r entry =>
    if entry.1 = ctx.defaultBoundaryId ∨ isStructuralContainer entry.2 = true then r
    else (entry.2.data.domains.getD []).foldl (addTag toLowerCase entry.1) r) ∅

/-- The tier of the boundary with an id, which is a key of the map. -/
def tierAt (id : String) : Zone :=
  ((ctx.boundaries.get? id).map fun b => (tierOf ctx b).tier).getD .internal

def isExternalTier (id : String) : Bool :=
  tierAt ctx id ∈ [Zone.untrusted, .publicZone, .exposed, .vendor]

def isProtected (id : String) : Bool :=
  id ∈ ctx.directAssetIds ∨ (effectiveZone ctx id).zone = .restricted

/-- The finding about a tag that couples a boundary reachable from the outside with a protected one. -/
def domainFinding (entry : String × List String) : Option ZoningFinding :=
  if entry.2.length < 2 then none
  else
    let members := sortBy Coverage.compareTexts entry.2
    let external := members.filter (isExternalTier ctx)
    match (members.filter (isProtected ctx)).find? (fun p => external.any (· ≠ p)) with
    | none => none
    | some anchor =>
      (external.find? (· ≠ anchor)).map fun peer =>
        let among := if entry.2.length > 2 then s!", among {entry.2.length} tagged boundaries" else ""
        ⟨.crossTierDomain, anchor, s!"domain \"{entry.1}\" couples externally-reachable " ++
          s!"{nameOf ctx peer} ({(tierAt ctx peer).text}) with a protected boundary {nameOf ctx anchor} " ++
          s!"(holds an asset or is declared Restricted){among} — if this tag denotes a shared " ++
          "identity/principal or compute co-tenancy, owning the exposed member may reach the protected " ++
          "one; a business-domain tag may be benign",
          .info, some peer⟩

/-- The loop over the tags. -/
def domainFindings : List ZoningFinding :=
  (byDomain ctx toLowerCase).entries.filterMap fun entry => domainFinding ctx entry.2

def computeZoningFindings : List ZoningFinding :=
  ctx.boundaries.entries.flatMap (segmentFindings ctx) ++ crossingFindings ctx ++
    channelFindings ctx ++ domainFindings ctx toLowerCase

end

section

variable {s : ModelStructure} {flows flows' : List DataFlow} {dataItems : List DataItem}

lemma nodup_addTo {l : List String} (h : l.Nodup) (x : String) : (addTo l x).Nodup := by
  unfold addTo
  split_ifs with hx
  · exact h
  · exact nodup_append.2 ⟨h, nodup_singleton x, fun a ha b hb => by
      rintro rfl
      exact hx (mem_singleton.1 hb ▸ ha)⟩

lemma nodup_addEdge {a : Adjacency}
    (ha : ∀ src targets, a.outOf.get? src = some targets → targets.Nodup) {x y src : String}
    {targets : List String} (h : (a.addEdge x y).outOf.get? src = some targets) : targets.Nodup := by
  unfold Adjacency.addEdge at h
  rw [get?_set] at h
  split_ifs at h with hsrc
  · cases h
    refine nodup_addTo ?_ _
    cases hold : a.outOf.get? x with
    | none => exact nodup_nil
    | some old => exact ha _ _ hold
  · exact ha _ _ h

lemma nodup_targets (s : ModelStructure) (flows : List DataFlow) {src : String} {targets : List String}
    (h : (buildBoundaryAdjacency s flows).outOf.get? src = some targets) : targets.Nodup := by
  have hwalk : ∀ src targets, (buildBoundaryAdjacency s flows).outOf.get? src = some targets → targets.Nodup := by
    refine List.foldlRecOn (motive := fun a : Adjacency =>
      ∀ src targets, a.outOf.get? src = some targets → targets.Nodup) flows _ ?_ ?_
    · intro src targets hget
      cases hget
    · intro a ha flow _
      cases boundaryEdge (flattenStructure s) s.data.id flow with
      | none => exact ha
      | some e => exact fun src targets => nodup_addEdge ha
  exact hwalk src targets h

lemma nodup_crossings (s : ModelStructure) (flows : List DataFlow) :
    (crossings (buildBoundaryAdjacency s flows)).Nodup := by
  rw [crossings, nodup_flatMap]
  constructor
  · intro entry hentry
    exact (nodup_targets s flows (mem_entries_iff.1 hentry)).map (Prod.mk_right_injective entry.1)
  · have hkeys : ((buildBoundaryAdjacency s flows).outOf.entries.map Prod.fst).Nodup :=
      (buildBoundaryAdjacency s flows).outOf.nodup
    refine (pairwise_map.1 hkeys).imp fun {e e'} hne p hp hp' => ?_
    obtain ⟨x, -, rfl⟩ := mem_map.1 hp
    obtain ⟨y, -, heq⟩ := mem_map.1 hp'
    exact hne (Prod.mk.inj heq).1.symm

lemma mem_crossings {x y : String} : (x, y) ∈ crossings (buildBoundaryAdjacency s flows) ↔
    ∃ flow ∈ flows, boundaryEdge (flattenStructure s) s.data.id flow = some (x, y) := by
  rw [← (mem_buildBoundaryAdjacency s flows x y).2, crossings, mem_flatMap]
  constructor
  · rintro ⟨⟨src, targets⟩, hentry, hmem⟩
    obtain ⟨tgt, htgt, heq⟩ := mem_map.1 hmem
    cases heq
    rw [mem_entries_iff.1 hentry]
    exact htgt
  · intro hmem
    cases hget : (buildBoundaryAdjacency s flows).outOf.get? x with
    | none => simp [hget] at hmem
    | some targets =>
      rw [hget] at hmem
      exact ⟨(x, targets), mem_entries_iff.2 hget, mem_map.2 ⟨y, hmem, rfl⟩⟩

lemma filter_filterMap_of_nodup {α β : Type} [DecidableEq α] {l : List α} (h : l.Nodup)
    {f : α → Option β} {q : β → Bool} {a : α} (hq : ∀ a' b, f a' = some b → (q b = true ↔ a' = a)) :
    (l.filterMap f).filter q = if a ∈ l then (f a).toList else [] := by
  induction l with
  | nil => simp
  | cons a' l ih =>
    rw [nodup_cons] at h
    have hrest := ih h.2
    rw [filterMap_cons]
    cases hf : f a' with
    | none =>
      simp only [hrest, mem_cons]
      by_cases haa' : a = a'
      · subst haa'
        simp [hf, h.1]
      · simp [haa']
    | some b =>
      simp only [filter_cons, hrest, mem_cons]
      by_cases haa' : a' = a
      · subst haa'
        simp [(hq a' b hf).2 rfl, h.1, hf]
      · have hb : q b = false := Bool.eq_false_iff.2 fun hb => haa' ((hq a' b hf).1 hb)
        simp [hb, Ne.symm haa']

end

section

variable {m : Model} {flows flows' : List DataFlow} {dataItems : List DataItem}

section

variable (h : ∀ flow, flow ∈ flows ↔ flow ∈ flows')
include h

lemma reaches_congr {x y : String} :
    Reaches (modelContext m flows dataItems).toZoningContext x y ↔
      Reaches (modelContext m flows' dataItems).toZoningContext x y :=
  ⟨reaches_mono fun flow => (h flow).1, reaches_mono fun flow => (h flow).2⟩

lemma any_ingressOf_congr (p : String → Bool) (id : String) :
    (ingressOf (modelContext m flows dataItems).toZoningContext id).any p =
      (ingressOf (modelContext m flows' dataItems).toZoningContext id).any p := by
  have hmem : ∀ src, src ∈ ingressOf (modelContext m flows dataItems).toZoningContext id ↔
      src ∈ ingressOf (modelContext m flows' dataItems).toZoningContext id := fun src =>
    (mem_ingressOf.trans (reaches_congr h)).trans mem_ingressOf.symm
  rw [Bool.eq_iff_iff, any_eq_true, any_eq_true]
  exact exists_congr fun src => and_congr_left fun _ => hmem src

lemma isPublic_congr :
    isPublic (modelContext m flows dataItems).toZoningContext =
      isPublic (modelContext m flows' dataItems).toZoningContext := by
  funext id
  rw [isPublic, any_ingressOf_congr h]
  rfl

lemma isExposed_congr :
    isExposed (modelContext m flows dataItems).toZoningContext =
      isExposed (modelContext m flows' dataItems).toZoningContext := by
  funext id
  rw [isExposed, any_ingressOf_congr h, isPublic_congr h]
  rfl

lemma isExposingSource_congr :
    isExposingSource (modelContext m flows dataItems).toZoningContext =
      isExposingSource (modelContext m flows' dataItems).toZoningContext := by
  funext id
  rw [isExposingSource, isPublic_congr h, isExposed_congr h]
  rfl

end

/-- The tier without the reasons for it: what reaches a boundary matters as a set only. -/
lemma tier_determineZoneTier (ctx : ZoningContext) (b : BoundaryData) :
    (determineZoneTier ctx b).tier =
      if b.id ∈ ctx.vendorIds then .vendor
      else if b.id ∈ ctx.externalIds then .untrusted
      else if isPublic ctx b.id then .publicZone
      else if isExposed ctx b.id then .exposed
      else if b.id ∈ ctx.directAssetIds ∧ (ingressOf ctx b.id).any (fun _ => true) = true ∧
          (ingressOf ctx b.id).any (isExposingSource ctx) = false then .restricted
      else .internal := by
  simp only [determineZoneTier]
  by_cases hvendor : b.id ∈ ctx.vendorIds
  · rw [if_pos hvendor, if_pos hvendor]
  by_cases hexternal : b.id ∈ ctx.externalIds
  · rw [if_neg hvendor, if_neg hvendor, if_pos hexternal, if_pos hexternal]
  by_cases hpublic : isPublic ctx b.id = true
  · rw [if_neg hvendor, if_neg hvendor, if_neg hexternal, if_neg hexternal, if_pos hpublic, if_pos hpublic]
  by_cases hexposed : isExposed ctx b.id = true
  · rw [if_neg hvendor, if_neg hvendor, if_neg hexternal, if_neg hexternal, if_neg hpublic, if_neg hpublic,
      if_pos hexposed, if_pos hexposed]
  rw [if_neg hvendor, if_neg hvendor, if_neg hexternal, if_neg hexternal, if_neg hpublic, if_neg hpublic,
    if_neg hexposed, if_neg hexposed]
  by_cases hdirect : b.id ∈ ctx.directAssetIds
  · cases hingress : ingressOf ctx b.id with
    | nil => simp [hdirect]
    | cons src rest =>
      rw [if_pos hdirect, if_neg (by simp)]
      cases hfind : (src :: rest).find? (isExposingSource ctx) with
      | some src' =>
        have hany : (src :: rest).any (isExposingSource ctx) = true :=
          any_eq_true.2 ⟨src', mem_of_find?_eq_some hfind, find?_some hfind⟩
        simp [hany]
      | none =>
        have hany : (src :: rest).any (isExposingSource ctx) = false :=
          any_eq_false.2 fun src' hsrc => find?_eq_none.1 hfind src' hsrc
        simp [hany, hdirect]
  · simp [hdirect]

section

variable (h : ∀ flow, flow ∈ flows ↔ flow ∈ flows')
include h

lemma tier_congr (b : Model) :
    (tierOf (modelContext m flows dataItems) b).tier = (tierOf (modelContext m flows' dataItems) b).tier := by
  rw [tierOf, tierOf, tier_determineZoneTier, tier_determineZoneTier, isPublic_congr h,
    isExposed_congr h, isExposingSource_congr h, any_ingressOf_congr h, any_ingressOf_congr h]
  rfl

lemma segmentFindings_congr (entry : String × Model) :
    (segmentFindings (modelContext m flows dataItems) entry).map ZoningFinding.key =
      (segmentFindings (modelContext m flows' dataItems) entry).map ZoningFinding.key := by
  have hunder : (underProtectedFinding (modelContext m flows dataItems) entry.1 entry.2).map
      ZoningFinding.key = (underProtectedFinding (modelContext m flows' dataItems) entry.1 entry.2).map
        ZoningFinding.key := by
    unfold underProtectedFinding
    rw [tier_congr h]
    by_cases hasset : entry.1 ∈ (modelContext m flows dataItems).directAssetIds ∧
        (tierOf (modelContext m flows' dataItems) entry.2).tier ≠ .restricted
    · have hasset' : entry.1 ∈ (modelContext m flows' dataItems).directAssetIds ∧ _ := hasset
      rw [if_pos hasset, if_pos hasset']
      rfl
    · have hasset' : ¬ (entry.1 ∈ (modelContext m flows' dataItems).directAssetIds ∧ _) := hasset
      rw [if_neg hasset, if_neg hasset']
  have hplane : mgmtPlaneFinding (modelContext m flows dataItems) entry.1 entry.2 =
      mgmtPlaneFinding (modelContext m flows' dataItems) entry.1 entry.2 := by
    unfold mgmtPlaneFinding
    rw [tier_congr h]
  unfold segmentFindings
  by_cases hroot : entry.1 = (modelContext m flows dataItems).defaultBoundaryId
  · have hroot' : entry.1 = (modelContext m flows' dataItems).defaultBoundaryId := hroot
    rw [if_pos hroot, if_pos hroot']
  · have hroot' : entry.1 ≠ (modelContext m flows' dataItems).defaultBoundaryId := hroot
    rw [if_neg hroot, if_neg hroot']
    simp only [map_append, ← Option.toList_map, hunder, hplane]
    rfl

lemma crossingFinding_congr (src tgt : String) :
    crossingFinding (modelContext m flows dataItems) src tgt =
      crossingFinding (modelContext m flows' dataItems) src tgt := by
  unfold crossingFinding
  rw [isExposingSource_congr h]
  rfl

lemma channelFinding_congr (id : String) (c : Conduit) :
    channelFinding (modelContext m flows dataItems) id c = channelFinding (modelContext m flows' dataItems) id c := by
  have hout : (c.peerId ∈ ((modelContext m flows dataItems).adjacency.outOf.get? id).getD []) =
      (c.peerId ∈ ((modelContext m flows' dataItems).adjacency.outOf.get? id).getD []) :=
    propext (show Reaches _ _ _ ↔ Reaches _ _ _ from reaches_congr h)
  unfold channelFinding
  simp only [hout]
  rfl

lemma domainFinding_congr (entry : String × List String) :
    domainFinding (modelContext m flows dataItems) entry = domainFinding (modelContext m flows' dataItems) entry := by
  have htier : tierAt (modelContext m flows dataItems) = tierAt (modelContext m flows' dataItems) := by
    funext id
    unfold tierAt
    simp only [tier_congr h]
    rfl
  have hexternal : isExternalTier (modelContext m flows dataItems) =
      isExternalTier (modelContext m flows' dataItems) := by
    funext id
    rw [isExternalTier, isExternalTier, htier]
  unfold domainFinding
  rw [hexternal, htier]
  rfl

end

lemma computeZoningFindings_perm (h : flows.Perm flows') (toLowerCase : String → String) :
    ((computeZoningFindings (modelContext m flows dataItems) toLowerCase).map ZoningFinding.key).Perm
      ((computeZoningFindings (modelContext m flows' dataItems) toLowerCase).map ZoningFinding.key) := by
  have hmem : ∀ flow, flow ∈ flows ↔ flow ∈ flows' := fun flow => h.mem_iff
  have hcrossings : (crossings (buildBoundaryAdjacency (structureOf m) flows)).Perm
      (crossings (buildBoundaryAdjacency (structureOf m) flows')) := by
    rw [perm_ext_iff_of_nodup (nodup_crossings _ _) (nodup_crossings _ _)]
    rintro ⟨x, y⟩
    rw [mem_crossings, mem_crossings]
    exact exists_congr fun flow => and_congr_left fun _ => hmem flow
  have hsegments : ((modelContext m flows dataItems).boundaries.entries.flatMap
      (segmentFindings (modelContext m flows dataItems))).map ZoningFinding.key =
      ((modelContext m flows' dataItems).boundaries.entries.flatMap
        (segmentFindings (modelContext m flows' dataItems))).map ZoningFinding.key := by
    rw [map_flatMap, map_flatMap]
    exact congrArg (List.flatMap · _) (funext fun entry => segmentFindings_congr hmem entry)
  have hchannels : channelFindings (modelContext m flows dataItems) =
      channelFindings (modelContext m flows' dataItems) := by
    exact congrArg (List.flatMap · _) (funext fun entry =>
      congrArg (List.flatMap · _) (funext fun c => channelFinding_congr hmem entry.1 c))
  have hdomains : domainFindings (modelContext m flows dataItems) toLowerCase =
      domainFindings (modelContext m flows' dataItems) toLowerCase := by
    exact congrArg (List.filterMap · _) (funext fun entry => domainFinding_congr hmem entry.2)
  unfold computeZoningFindings
  simp only [map_append, hsegments, hchannels, hdomains]
  refine ((List.Perm.refl _).append ?_).append_right _ |>.append_right _
  unfold crossingFindings
  rw [show (fun p : String × String => crossingFinding (modelContext m flows dataItems) p.1 p.2) =
    fun p => crossingFinding (modelContext m flows' dataItems) p.1 p.2 from
      funext fun p => crossingFinding_congr hmem p.1 p.2]
  exact (hcrossings.filterMap _).map _

end

section

variable {m : Model} {flows : List DataFlow} {dataItems : List DataItem}

lemma nodes_structureOf (m : Model) : (structureOf m).nodes = m.nodes.map Boundary.toBoundaryData :=
  Nesting.nodes_map _ _ _

/-- A data flow goes from something that is directly in the one boundary to something that is directly
in the other one. -/
def Joined (m : Model) (flows : List DataFlow) (s t : String) : Prop :=
  ∃ flow ∈ flows, (flattenStructure (structureOf m)).parentOf flow.source = some s ∧
    (flattenStructure (structureOf m)).parentOf flow.target = some t

/-- The second boundary is nested in the first one. -/
def Encloses (m : Model) (a d : String) : Prop :=
  ∃ b enclosing, (b, enclosing) ∈ (structureOf m).chains [] ∧ b.id = d ∧
    a ∈ enclosing.map BoundaryData.id

/-- A conduit on one of the two boundaries declares the crossing. -/
def Declared (m : Model) (s t : String) : Prop :=
  (∃ b ∈ m.nodes, b.id = s ∧ ∃ c ∈ b.conduits.getD [], c.direction = .outbound ∧ c.peerId = t) ∨
    ∃ b ∈ m.nodes, b.id = t ∧ ∃ c ∈ b.conduits.getD [], c.direction = .inbound ∧ c.peerId = s

/-- Two different boundaries other than the default one that a data flow joins, neither of which
encloses the other, without a conduit for them. -/
structure UndeclaredCrossing (m : Model) (flows : List DataFlow) (s t : Boundary) : Prop where
  source : s ∈ m.nodes
  target : t ∈ m.nodes
  ne : s.id ≠ t.id
  source_ne : s.id ≠ m.data.id
  target_ne : t.id ≠ m.data.id
  joined : Joined m flows s.id t.id
  not_encloses : ¬ Encloses m s.id t.id
  not_enclosed : ¬ Encloses m t.id s.id
  undeclared : ¬ Declared m s.id t.id

/-- The source is external and the target's zone a trusted one, or the source is external or reachable
from the outside by the cascade and the target bears an asset. -/
def RiskBearing (ctx : ModelContext) (s t : Boundary) : Prop :=
  (isExternal ctx.toZoningContext s.id = true ∧
    ((effectiveZone ctx t.id).zone = .internal ∨ (effectiveZone ctx t.id).zone = .restricted)) ∨
  ((isExternal ctx.toZoningContext s.id = true ∨
      (determineZoneTier ctx.toZoningContext s.toBoundaryData).tier = .publicZone ∨
      (determineZoneTier ctx.toZoningContext s.toBoundaryData).tier = .exposed) ∧ t.id ∈ ctx.assetIds)

/-- The findings of the two kinds about the crossing. -/
def crossingReports (findings : List ZoningFinding) (s t : String) : List ZoningFinding :=
  findings.filter fun f =>
    (f.kind = .externalIngress ∨ f.kind = .flowChannel) ∧ f.boundaryId = s ∧ f.peerId = some t

/-- Every crossing without a conduit is reported once if it bears a risk, else not at all, and the
findings are the same ones for the data flows in any other order. -/
def CrossingsReported (toLowerCase : String → String) (m : Model) (flows : List DataFlow)
    (dataItems : List DataItem) : Prop :=
  (∀ s t, UndeclaredCrossing m flows s t →
    let reports := crossingReports
      (computeZoningFindings (modelContext m flows dataItems) toLowerCase) s.id t.id
    (RiskBearing (modelContext m flows dataItems) s t → reports.length = 1) ∧
    (¬ RiskBearing (modelContext m flows dataItems) s t → reports.length = 0)) ∧
  ∀ flows', flows.Perm flows' →
    ((computeZoningFindings (modelContext m flows dataItems) toLowerCase).map ZoningFinding.key).Perm
      ((computeZoningFindings (modelContext m flows' dataItems) toLowerCase).map ZoningFinding.key)

/-- The reference of the default boundary leads from the second boundary to the first one, in the rounds
that are left when the walk has come to the default boundary. -/
def RefersTo (m : Model) (a d : String) : Prop :=
  ∃ b enclosing, (b, enclosing) ∈ (structureOf m).chains [] ∧ b.id = d ∧
    a ∈ ((detour (structureOf m) enclosing).take (maxDepth - enclosing.length)).map BoundaryData.id

/-- What reaches a boundary exposes it if and only if its tier says so. -/
lemma isExposingSource_iff_tier (ctx : ZoningContext) (b : BoundaryData) :
    isExposingSource ctx b.id = true ↔ isExternal ctx b.id = true ∨
      (determineZoneTier ctx b).tier = .publicZone ∨ (determineZoneTier ctx b).tier = .exposed := by
  rw [isExposingSource, decide_eq_true_eq, tier_determineZoneTier]
  by_cases hexternal : isExternal ctx b.id = true
  · simp only [hexternal, true_or]
  · have hout : ¬ b.id ∈ ctx.externalIds ∧ ¬ b.id ∈ ctx.vendorIds := by
      simpa [isExternal, not_or] using hexternal
    rw [or_iff_right hexternal, or_iff_right hexternal, if_neg hout.2, if_neg hout.1]
    split_ifs with hpublic hexposed
    · simp [hpublic]
    all_goals simp [hpublic, hexposed]

lemma conduitEdgeKey_inj {s t p q : String} (h : conduitEdgeKey s t = conduitEdgeKey p q)
    (hends : ('\x00' ∉ s.toList ∧ '\x00' ∉ p.toList) ∨ ('\x00' ∉ t.toList ∧ '\x00' ∉ q.toList)) : s = p ∧ t = q := by
  obtain ⟨hs, hp⟩ | ⟨ht, hq⟩ := hends
  · have hchars : s.toList ++ '\x00' :: t.toList = p.toList ++ '\x00' :: q.toList := by
      simpa [conduitEdgeKey] using congrArg String.toList h
    obtain ⟨hsource, htarget⟩ := Coverage.append_cons_inj hs hp hchars
    exact ⟨String.toList_inj.1 hsource, String.toList_inj.1 htarget⟩
  · exact Coverage.append_separator_inj ht hq h

/-- The entries of `boundariesById` are boundaries of the structure under their ids. -/
lemma mem_boundaries {entry : String × Model} (h : entry ∈ (modelContext m flows dataItems).boundaries.entries) :
    entry.2.data ∈ m.nodes ∧ entry.2.data.id = entry.1 := by
  have hget : (modelContext m flows dataItems).boundaries.get? entry.1 = some entry.2 :=
    mem_entries_iff.1 h
  obtain ⟨b, hb, heq⟩ := mem_map.1 (mem_of_get?_ofList hget)
  obtain ⟨hid, rfl⟩ := Prod.mk.inj heq
  refine ⟨?_, hid⟩
  rw [← Nesting.map_data_subtrees]
  exact mem_map_of_mem hb

variable {f : ZoningFinding} {ctx : ModelContext} {s t : Boundary}

/-- What `declaredEdges` has about two boundaries is declared on one of them. -/
lemma declared_of_mem_declaredEdges (h : conduitEdgeKey s.id t.id ∈ declaredEdges (modelContext m flows dataItems)) :
    Declared m s.id t.id := by
  obtain ⟨entry, hentry, hmem⟩ := mem_flatMap.1 h
  obtain ⟨c, hc, hedge⟩ := mem_filterMap.1 hmem
  obtain ⟨hnode, hid⟩ := mem_boundaries hentry
  have hclean : '\x00' ∉ entry.1.toList := hid ▸ entry.2.data.notMem_id
  unfold declaredEdge at hedge
  split_ifs at hedge
  cases hdirection : c.direction with
  | outbound =>
    rw [hdirection] at hedge
    obtain ⟨hs, ht⟩ := conduitEdgeKey_inj (Option.some.inj hedge) (.inl ⟨hclean, s.notMem_id⟩)
    exact .inl ⟨_, hnode, hid.trans hs, c, hc, hdirection, ht⟩
  | inbound =>
    rw [hdirection] at hedge
    obtain ⟨hs, ht⟩ := conduitEdgeKey_inj (Option.some.inj hedge) (.inr ⟨hclean, t.notMem_id⟩)
    exact .inr ⟨_, hnode, hid.trans ht, c, hc, hdirection, hs⟩

lemma key_crossingFinding {src tgt : String} (h : crossingFinding ctx src tgt = some f) :
    (f.kind = .externalIngress ∨ f.kind = .flowChannel) ∧ f.boundaryId = src ∧ f.peerId = some tgt := by
  unfold crossingFinding at h
  split_ifs at h
  · cases h
    exact ⟨.inl rfl, rfl, rfl⟩
  · cases h
    exact ⟨.inr rfl, rfl, rfl⟩

variable (flows dataItems) in
lemma isSome_crossingFinding (hdeclared : ¬ Declared m s.id t.id) :
    (crossingFinding (modelContext m flows dataItems) s.id t.id).isSome = true ↔
      RiskBearing (modelContext m flows dataItems) s t ∧
        takenAsNested (modelContext m flows dataItems) s.id t.id = false := by
  have hkey : conduitEdgeKey s.id t.id ∉ declaredEdges (modelContext m flows dataItems) := fun hmem =>
    hdeclared (declared_of_mem_declaredEdges hmem)
  unfold crossingFinding RiskBearing
  rw [if_neg hkey, ← isExposingSource_iff_tier]
  cases takenAsNested (modelContext m flows dataItems) s.id t.id with
  | true => simp
  | false =>
    rw [if_neg Bool.false_ne_true]
    split_ifs with hingress hasset
    · simp [hingress]
    · simp [hasset]
    · refine iff_of_false Bool.false_ne_true ?_
      rintro ⟨hrisk | hrisk, -⟩
      · exact hingress hrisk
      · exact hasset hrisk

lemma kind_segmentFindings {entry : String × Model} (h : f ∈ segmentFindings ctx entry) :
    f.boundaryId = entry.1 ∧
      (f.kind = .unclassified ∨ f.kind = .underProtected ∨ f.kind = .mgmtPlane) := by
  unfold segmentFindings at h
  split_ifs at h
  · exact absurd h not_mem_nil
  · simp only [mem_append, Option.mem_toList, unclassifiedFinding, underProtectedFinding,
      mgmtPlaneFinding] at h
    obtain (h | h) | h := h
    · split_ifs at h
      cases h
      exact ⟨rfl, .inl rfl⟩
    · split_ifs at h
      cases h
      exact ⟨rfl, .inr (.inl rfl)⟩
    · split_ifs at h
      cases h
      exact ⟨rfl, .inr (.inr rfl)⟩

lemma kind_domainFindings {toLowerCase : String → String}
    (h : f ∈ domainFindings ctx toLowerCase) : f.kind = .crossTierDomain := by
  obtain ⟨entry, -, hfinding⟩ := mem_filterMap.1 h
  simp only [domainFinding] at hfinding
  by_cases hfew : entry.2.2.length < 2
  · rw [if_pos hfew] at hfinding
    cases hfinding
  · rw [if_neg hfew] at hfinding
    split at hfinding
    next => cases hfinding
    next =>
      obtain ⟨peer, -, rfl⟩ := Option.map_eq_some_iff.1 hfinding
      rfl

lemma of_mem_channelFinding {id : String} {c : Conduit} (h : f ∈ channelFinding ctx id c) :
    f.kind = .flowChannel ∧ c.direction = .outbound ∧ f.boundaryId = id ∧ f.peerId = some c.peerId := by
  unfold channelFinding at h
  by_cases hskip : c.peerId = "" ∨ c.direction ≠ .outbound
  · rw [if_pos hskip] at h
    exact absurd h not_mem_nil
  · have hdirection : c.direction = .outbound := by_contra fun hne => hskip (.inr hne)
    rw [if_neg hskip, mem_append] at h
    obtain h | h := h
    · split_ifs at h
      · exact absurd h not_mem_nil
      · obtain rfl := mem_singleton.1 h
        exact ⟨rfl, hdirection, rfl, rfl⟩
    · split_ifs at h
      · obtain rfl := mem_singleton.1 h
        exact ⟨rfl, hdirection, rfl, rfl⟩
      · exact absurd h not_mem_nil

lemma declared_of_mem_channelFindings
    (h : f ∈ channelFindings (modelContext m flows dataItems)) {t : String} (ht : f.peerId = some t) :
    Declared m f.boundaryId t := by
  obtain ⟨entry, hentry, hmem⟩ := mem_flatMap.1 h
  obtain ⟨c, hc, hfinding⟩ := mem_flatMap.1 hmem
  obtain ⟨hnode, hid⟩ := mem_boundaries hentry
  obtain ⟨-, hdirection, hboundary, hpeer⟩ := of_mem_channelFinding hfinding
  exact .inl ⟨_, hnode, hid.trans hboundary.symm, c, hc, hdirection,
    Option.some.inj (hpeer.symm.trans ht)⟩

lemma crossingReports_eq (h : UndeclaredCrossing m flows s t) (toLowerCase : String → String) :
    crossingReports (computeZoningFindings (modelContext m flows dataItems) toLowerCase) s.id t.id =
      (crossingFinding (modelContext m flows dataItems) s.id t.id).toList := by
  obtain ⟨flow, hflow, hsource, htarget⟩ := h.joined
  have hdata : (structureOf m).data.id = m.data.id := by
    rw [structureOf, Nesting.data_map]
  have hedge : boundaryEdge (flattenStructure (structureOf m)) (structureOf m).data.id flow =
      some (s.id, t.id) := by
    unfold boundaryEdge
    rw [hsource, htarget, hdata]
    simp [h.ne, h.source_ne, h.target_ne]
  have hcrossing : (s.id, t.id) ∈ crossings (modelContext m flows dataItems).adjacency :=
    mem_crossings.2 ⟨flow, hflow, hedge⟩
  have hnodup : (crossings (modelContext m flows dataItems).adjacency).Nodup := nodup_crossings _ _
  have hsegments : crossingReports ((modelContext m flows dataItems).boundaries.entries.flatMap
      (segmentFindings (modelContext m flows dataItems))) s.id t.id = [] := by
    refine filter_eq_nil_iff.2 fun f hf => ?_
    obtain ⟨entry, -, hmem⟩ := mem_flatMap.1 hf
    obtain ⟨-, hkind | hkind | hkind⟩ := kind_segmentFindings hmem
    all_goals simp [hkind]
  have hchannels : crossingReports (channelFindings (modelContext m flows dataItems)) s.id t.id = [] := by
    refine filter_eq_nil_iff.2 fun f hf hq => ?_
    obtain ⟨-, hboundary, hpeer⟩ := of_decide_eq_true hq
    exact h.undeclared (hboundary ▸ declared_of_mem_channelFindings hf hpeer)
  have hdomains : crossingReports (domainFindings (modelContext m flows dataItems) toLowerCase) s.id t.id =
      [] := by
    refine filter_eq_nil_iff.2 fun f hf => ?_
    simp [kind_domainFindings hf]
  have hcrossings : crossingReports (crossingFindings (modelContext m flows dataItems)) s.id t.id =
      (crossingFinding (modelContext m flows dataItems) s.id t.id).toList := by
    unfold crossingReports crossingFindings
    rw [filter_filterMap_of_nodup (a := (s.id, t.id)) hnodup, if_pos hcrossing]
    rintro ⟨src, tgt⟩ f hf
    obtain ⟨hkind, hboundary, hpeer⟩ := key_crossingFinding hf
    rw [decide_eq_true_eq, hboundary, hpeer, Prod.mk.injEq, Option.some.injEq]
    exact and_iff_right hkind
  unfold computeZoningFindings
  unfold crossingReports at hsegments hchannels hdomains hcrossings ⊢
  rw [filter_append, filter_append, filter_append, hsegments, hchannels, hdomains,
    hcrossings, nil_append, append_nil, append_nil]

variable (flows dataItems) in
/-- `isAncestorOf` is true of a boundary that does not enclose the other one only where the reference of
the default boundary leads to it. -/
lemma isAncestorOf_iff_refersTo (hids : (ids (structureOf m)).Nodup) {a d : Boundary} (ha : a ∈ m.nodes)
    (hd : d ∈ m.nodes) (hroot : d.id ≠ m.data.id) (hnot : ¬ Encloses m a.id d.id) :
    isAncestorOf (modelContext m flows dataItems).boundariesById (structureOf m).data.id a.id d.id = true ↔
      RefersTo m a.id d.id := by
  have hmem : ∀ b ∈ m.nodes, b.toBoundaryData ∈ (structureOf m).nodes := fun b hb => by
    rw [nodes_structureOf]
    exact mem_map_of_mem hb
  obtain ⟨enclosing, hchain⟩ := exists_enclosing (hmem d hd)
  cases enclosing with
  | nil =>
    have heq := (normalized_of_mem_chains hids hchain).2.2 rfl
    rw [structureOf, Nesting.data_map] at heq
    exact absurd (congrArg BoundaryData.id heq) hroot
  | cons b rest =>
    rw [show (modelContext m flows dataItems).boundariesById =
      (buildZoningContext (structureOf m) flows dataItems).boundariesById from rfl,
      isAncestorOf_iff flows dataItems a.id hids (mem_map_of_mem (hmem a ha)) hchain,
      take_append, map_append, mem_append]
    constructor
    · rintro (henclosing | hdetour)
      · obtain ⟨x, hx, hxa⟩ := mem_map.1 henclosing
        exact absurd ⟨_, _, hchain, rfl, mem_map.2 ⟨x, mem_of_mem_take hx, hxa⟩⟩ hnot
      · exact ⟨_, _, hchain, rfl, hdetour⟩
    · rintro ⟨b', enclosing', hchain', hid, hdetour⟩
      obtain rfl : b' = d.toBoundaryData := inj_on_of_nodup_map (nodup_nodes hids)
        (mem_nodes_of_mem_chains hchain') (hmem d hd) hid
      obtain rfl := enclosing_unique hids hchain' hchain
      exact .inr hdetour

/-- The crossings are reported as they are meant to be, and the findings do not depend on the order of
the data flows, if and only if no crossing that bears a risk is taken for nesting. With distinct ids that
happens only where the reference of the default boundary leads from one end to the other. -/
theorem crossingsReported_iff (toLowerCase : String → String) (m : Model) (flows : List DataFlow)
    (dataItems : List DataItem) :
    (CrossingsReported toLowerCase m flows dataItems ↔
      ∀ s t, UndeclaredCrossing m flows s t → RiskBearing (modelContext m flows dataItems) s t →
        takenAsNested (modelContext m flows dataItems) s.id t.id = false) ∧
    ((ids (structureOf m)).Nodup → ∀ s t, UndeclaredCrossing m flows s t →
      (takenAsNested (modelContext m flows dataItems) s.id t.id = true ↔
        RefersTo m s.id t.id ∨ RefersTo m t.id s.id)) := by
  refine ⟨⟨?_, ?_⟩, ?_⟩
  · rintro ⟨hreported, -⟩ s t h hrisk
    have hone := (hreported s t h).1 hrisk
    rw [crossingReports_eq h] at hone
    cases hfinding : crossingFinding (modelContext m flows dataItems) s.id t.id with
    | none => simp [hfinding] at hone
    | some f => exact ((isSome_crossingFinding flows dataItems h.undeclared).1 (by rw [hfinding]; rfl)).2
  · intro hseen
    refine ⟨fun s t h => ?_, fun flows' hperm => computeZoningFindings_perm hperm toLowerCase⟩
    have hsome := isSome_crossingFinding flows dataItems h.undeclared
    rw [crossingReports_eq h]
    cases hfinding : crossingFinding (modelContext m flows dataItems) s.id t.id with
    | none =>
      rw [hfinding] at hsome
      refine ⟨fun hrisk => ?_, fun _ => rfl⟩
      cases hsome.2 ⟨hrisk, hseen s t h hrisk⟩
    | some f =>
      rw [hfinding] at hsome
      exact ⟨fun _ => rfl, fun hnot => absurd (hsome.1 rfl).1 hnot⟩
  · intro hids s t h
    show (isAncestorOf _ (structureOf m).data.id _ _ || isAncestorOf _ (structureOf m).data.id _ _) = true ↔ _
    rw [Bool.or_eq_true]
    exact or_congr
      (isAncestorOf_iff_refersTo flows dataItems hids h.source h.target h.target_ne h.not_encloses)
      (isAncestorOf_iff_refersTo flows dataItems hids h.target h.source h.source_ne h.not_enclosed)

end

/-- A boundary without conduits, tags and planes. -/
def plainBoundary (id : String) (h : id ≠ "" ∧ '\x00' ∉ id.toList) (zone : Option Zone)
    (parentBoundary : Option String) : Boundary :=
  ⟨⟨id, h.1, zone, parentBoundary, none⟩, h.2, id, none, none, none⟩

/-- A boundary with a component of the same name. -/
def segment (id : String) (h : id ≠ "" ∧ '\x00' ∉ id.toList) (zone : Option Zone) : Model :=
  .node (plainBoundary id h zone none) none (some [⟨id ++ "-host", none, none⟩])

/-- The internet and a vault within a default boundary, which refers to the internet as its parent. -/
def referringSite : Model :=
  .node (plainBoundary "site" (by decide) none (some "internet"))
    (some [segment "internet" (by decide) (some .untrusted), segment "vault" (by decide) (some .restricted)])
    none

lemma conduits_referringSite {b : Boundary} (hb : b ∈ referringSite.nodes) : b.conduits = none := by
  have hall : referringSite.nodes.map Boundary.conduits = List.replicate 3 none := rfl
  exact eq_of_mem_replicate (hall ▸ mem_map_of_mem hb)

lemma not_encloses_of_chains {m : Model} {a d : String}
    (h : ¬ ∃ p ∈ (structureOf m).chains [], p.1.id = d ∧ a ∈ p.2.map BoundaryData.id) : ¬ Encloses m a d := by
  rintro ⟨b, enclosing, hchain, hid, hmem⟩
  exact h ⟨(b, enclosing), hchain, hid, hmem⟩

/-- The flow from the internet into the vault is not reported. -/
theorem crossings_missed :
    ¬ CrossingsReported id referringSite [⟨"internet-host", "vault-host"⟩] [] := by
  intro h
  have hcrossing : UndeclaredCrossing referringSite [⟨"internet-host", "vault-host"⟩]
      (plainBoundary "internet" (by decide) (some .untrusted) none)
      (plainBoundary "vault" (by decide) (some .restricted) none) := {
    source := .tail _ (.head _)
    target := .tail _ (.tail _ (.head _))
    ne := by decide
    source_ne := by decide
    target_ne := by decide
    joined := by
      unfold Joined
      decide +kernel
    not_encloses := not_encloses_of_chains (by decide +kernel)
    not_enclosed := not_encloses_of_chains (by decide +kernel)
    undeclared := by
      rintro (⟨b, hb, -, c, hc, -⟩ | ⟨b, hb, -, c, hc, -⟩)
      all_goals
        rw [conduits_referringSite hb] at hc
        exact absurd hc not_mem_nil }
  have hrisk : RiskBearing (modelContext referringSite [⟨"internet-host", "vault-host"⟩] [])
      (plainBoundary "internet" (by decide) (some .untrusted) none)
      (plainBoundary "vault" (by decide) (some .restricted) none) :=
    .inl ⟨by decide +kernel, by decide +kernel⟩
  have hone := ((h.1 _ _ hcrossing).1 hrisk)
  have hzero : (crossingReports (computeZoningFindings (modelContext referringSite
      [⟨"internet-host", "vault-host"⟩] []) id) "internet" "vault").length = 0 := by
    decide +kernel
  exact absurd (hzero.symm.trans hone) (by decide)

end Zoning
