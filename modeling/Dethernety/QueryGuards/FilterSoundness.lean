import Dethernety.Foundations.Script
import Dethernety.QueryGuards.InputItems

/-!
# Soundness of the filter walk

What the walk counts on a request that it accepts is what the full expansion of the request costs, and no
item of the expansion is refused. Only the depth of the lists and objects in scalar values can be missed: the
size of such an object is kept, and where it is met again, how deep it nests there is not looked at.
-/

open List Except Nat

namespace QueryGuards

section

variable (schema : Schema)

/-- The items keep to the limits, counted one by one. -/
structure WithinLimits (items : List InputItem) : Prop where
  single : ∀ field rendered path, .filter .SINGLE field rendered path ∈ items →
    targetsAbstractType schema field = false
  depth : ∀ frame, .value frame ∈ items → frame.depth ≤ maxInputDepth
  nesting : ∀ v frame, .scalar v frame ∈ items → Fits maxInputDepth v frame.depth
  budget : (items.map (InputItem.budget schema)).sum ≤ maxBudget
  counts : ∀ counter, (items.map fun item => item.amount schema counter).sum ≤ limitOf counter

/-- The scalar values of the items have `u` at depth `d`. -/
def ScalarAt (items : List InputItem) (u : JsValue) (d : ℕ) : Prop :=
  ∃ v frame, .scalar v frame ∈ items ∧ Within v frame.depth u d

/-- What the scalar values have at several places nests within the limit at all of them or at none. -/
def NestsAlike (items : List InputItem) : Prop :=
  ∀ u d d', ScalarAt items u d → ScalarAt items u d' → Fits maxInputDepth u d → Fits maxInputDepth u d'

lemma WithinLimits.nestsAlike {items : List InputItem} (h : WithinLimits schema items) : NestsAlike items := by
  rintro u d d' - ⟨v, frame, hmem, hwithin⟩ -
  exact (h.nesting v frame hmem).within hwithin

end

section

/-- Places of values that are closed under the entries, where a value that is at several places nests within
the limit at all of them or at none. -/
structure Alike (used : JsValue → ℕ → Prop) : Prop where
  within : ∀ {v d u d'}, used v d → Within v d u d' → used u d'
  fits : ∀ {u d d'}, used u d → used u d' → Fits maxInputDepth u d → Fits maxInputDepth u d'

lemma NestsAlike.alike {items : List InputItem} (h : NestsAlike items) : Alike (ScalarAt items) where
  within := by
    rintro v d u d' ⟨w, frame, hmem, hw⟩ hwithin
    exact ⟨w, frame, hmem, hw.trans hwithin⟩
  fits hu hu' hfits := h _ _ _ hu hu' hfits

/-- The kept sizes are right, and the values nested within the limit where they were measured. -/
def SizesOf (used : JsValue → ℕ → Prop) (sizes : Sizes) : Prop :=
  ∀ u size, sizes.get? u = some size → size = plainSize u ∧ ∃ d, used u d ∧ Fits maxInputDepth u d

variable {used : JsValue → ℕ → Prop} {path : String}

mutual

/-- A size that the limit allows is the plain size, and it is that of a value which fits. -/
lemma sizeOfValue_spec (h : Alike used) : ∀ (v : JsValue) {depth : ℕ} {sizes : Sizes} {size : ℕ} {sizes' : Sizes},
    used v depth → SizesOf used sizes → sizeOfValue path v depth sizes = .ok (size, sizes') →
    size ≤ maxScalarSize → size = plainSize v ∧ Fits maxInputDepth v depth ∧ SizesOf used sizes'
  | .null, depth, sizes, size, sizes', _, hsizes, hok, _ | .primitive, depth, sizes, size, sizes', _, hsizes, hok, _
  | .text s, depth, sizes, size, sizes', _, hsizes, hok, _ => by
    cases hok
    exact ⟨rfl, .of_not_isObject rfl, hsizes⟩
  | .object ref isArray entries, depth, sizes, size, sizes', hused, hsizes, hok, hle => by
    rw [sizeOfValue] at hok
    split_ifs at hok with hdeep
    cases hget : sizes.get? (.object ref isArray entries) with
    | some known =>
      -- measured before, at a place where it fits
      rw [hget] at hok
      cases hok
      obtain ⟨hsize, d, hd, hfits⟩ := hsizes _ _ hget
      exact ⟨hsize, h.fits hd hused hfits, hsizes⟩
    | none =>
      simp only [hget] at hok
      obtain ⟨⟨sum, sizes₁⟩, hentries, hok⟩ := exists_of_bind_ok hok
      cases hok
      have hsum : sum ≤ maxScalarSize := le_trans (le_max_right 1 sum) hle
      have hinner : ∀ key u, (key, u) ∈ entries → used u (depth + 1) := fun key u hmem =>
        h.within hused (.entry hmem .refl)
      obtain ⟨hsize, hfit, hsizes₁⟩ := sizeOfEntries_spec h isArray entries hinner hsizes hentries hsum
      have hplain : max 1 sum = plainSize (.object ref isArray entries) := by
        rw [plainSize, hsize, Nat.zero_add]
      have hfits : Fits maxInputDepth (.object ref isArray entries) depth :=
        .object (Nat.le_of_not_lt hdeep) hfit
      refine ⟨hplain, hfits, fun u known hknown => ?_⟩
      rw [Record.get?_set] at hknown
      split_ifs at hknown with hu
      · cases hknown
        obtain rfl := hu
        exact ⟨hplain, depth, hused, hfits⟩
      · exact hsizes₁ u known hknown

lemma sizeOfEntries_spec (h : Alike used) (isArray : Bool) :
    ∀ (entries : List (String × JsValue)) {depth size : ℕ} {sizes : Sizes} {sum : ℕ} {sizes' : Sizes},
    (∀ key u, (key, u) ∈ entries → used u (depth + 1)) → SizesOf used sizes →
    sizeOfEntries path isArray entries depth size sizes = .ok (sum, sizes') → sum ≤ maxScalarSize →
    sum = size + plainSizes isArray entries ∧
      (∀ key u, (key, u) ∈ entries → Fits maxInputDepth u (depth + 1)) ∧ SizesOf used sizes'
  | [], depth, size, sizes, sum, sizes', _, hsizes, hok, _ => by
    cases hok
    exact ⟨rfl, fun key u hmem => absurd hmem not_mem_nil, hsizes⟩
  | (key, v) :: rest, depth, size, sizes, sum, sizes', hused, hsizes, hok, hle => by
    obtain ⟨⟨inner, sizes₁⟩, hv, hok⟩ := exists_of_bind_ok hok
    simp only at hok
    split_ifs at hok with hlarge
    · -- the loop has stopped past the limit
      cases hok
      exact absurd hle (Nat.not_le_of_lt hlarge)
    · have hinner : inner ≤ maxScalarSize := by omega
      obtain ⟨hsize, hfits, hsizes₁⟩ :=
        sizeOfValue_spec h v (hused key v (.head _)) hsizes hv hinner
      obtain ⟨hsum, hrest, hsizes'⟩ := sizeOfEntries_spec h isArray rest
        (fun key' u hmem => hused key' u (.tail _ hmem)) hsizes₁ hok hle
      refine ⟨?_, fun key' u hmem => ?_, hsizes'⟩
      · rw [hsum, plainSizes, hsize]
        omega
      · obtain heq | hmem := mem_cons.1 hmem
        · cases heq
          exact hfits
        · exact hrest key' u hmem

end

end

section

variable {used : JsValue → ℕ → Prop} {t t' : Tally}

/-- A tally within the limits, with sizes that are right. -/
structure Tally.Good (used : JsValue → ℕ → Prop) (t : Tally) : Prop where
  budget : t.budget ≤ maxBudget
  counts : ∀ counter, t.counts counter ≤ limitOf counter
  sizes : SizesOf used t.sizes

/-- A step from one tally to the next adds a cost to the budget and an amount to each counter. -/
structure Adds (used : JsValue → ℕ → Prop) (cost : ℕ) (amount : Counter → ℕ) (t t' : Tally) : Prop where
  good : t'.Good used
  budget : t'.budget = t.budget + cost
  counts : ∀ counter, t'.counts counter = t.counts counter + amount counter

lemma Adds.nothing (ht : t.Good used) : Adds used 0 (fun _ => 0) t t :=
  ⟨ht, rfl, fun _ => rfl⟩

variable {cost : ℕ} {amount amount' : Counter → ℕ}

lemma Adds.trans {t'' : Tally} {cost' : ℕ}
    (h : Adds used cost amount t t') (h' : Adds used cost' amount' t' t'') :
    Adds used (cost + cost') (fun counter => amount counter + amount' counter) t t'' where
  good := h'.good
  budget := by rw [h'.budget, h.budget, add_assoc]
  counts counter := by rw [h'.counts, h.counts, add_assoc]

lemma Adds.congr {cost' : ℕ} (h : Adds used cost amount t t')
    (hcost : cost = cost') (hamount : ∀ counter, amount counter = amount' counter) :
    Adds used cost' amount' t t' where
  good := h.good
  budget := hcost ▸ h.budget
  counts counter := by rw [h.counts, hamount]

variable {counter : Counter} {path : String}

lemma Tally.Good.count (ht : t.Good used) {amount : ℕ}
    (hok : t.count counter amount path = .ok t') :
    Adds used 0 (fun c => if c = counter then amount else 0) t t' := by
  unfold Tally.count at hok
  simp only at hok
  split_ifs at hok with hle
  cases hok
  have hcounts : ∀ c, Function.update t.counts counter (t.counts counter + amount) c =
      t.counts c + if c = counter then amount else 0 := by
    intro c
    rw [Function.update_apply]
    split_ifs with hc
    · rw [hc]
    · rfl
  refine ⟨⟨ht.budget, fun c => ?_, ht.sizes⟩, rfl, hcounts⟩
  show Function.update t.counts counter (t.counts counter + amount) c ≤ limitOf c
  rw [Function.update_apply]
  split_ifs with hc
  · rwa [hc]
  · exact ht.counts c

lemma Tally.Good.countIf (ht : t.Good used) {condition : Bool} {amount : ℕ}
    (hok : t.countIf condition counter amount path = .ok t') :
    Adds used 0 (fun c => if condition = true ∧ c = counter then amount else 0) t t' := by
  unfold Tally.countIf at hok
  split_ifs at hok with hcondition
  · refine (ht.count hok).congr rfl fun c => ?_
    simp only [hcondition, true_and]
  · cases hok
    refine (Adds.nothing ht).congr rfl fun c => ?_
    rw [if_neg fun hc => hcondition hc.1]

lemma Tally.Good.charge (ht : t.Good used) (hok : t.charge cost path = .ok t') :
    Adds used cost (fun _ => 0) t t' := by
  unfold Tally.charge at hok
  split_ifs at hok with hlarge
  cases hok
  exact ⟨⟨Nat.le_of_not_lt hlarge, ht.counts, ht.sizes⟩, rfl, fun _ => rfl⟩

variable (schema : Schema) {frame : InputFrame}

lemma Tally.Good.countObject (ht : t.Good used) {type : String} {fields : Record String TypeRef}
    (hok : QueryGuards.countObject schema type fields frame t = .ok t') :
    Adds used 0 (InputItem.amount schema (.object type fields frame)) t t' := by
  obtain ⟨t₁, h₁, hok⟩ := exists_of_bind_ok hok
  obtain ⟨t₂, h₂, h₃⟩ := exists_of_bind_ok hok
  have hobjects := ht.count h₁
  have hfilters := hobjects.good.countIf h₂
  have hoperands := hfilters.good.countIf h₃
  refine ((hobjects.trans hfilters).trans hoperands).congr rfl fun counter => ?_
  cases counter with
  | inputObjects | filterObjects | operands | scalarSize => simp [InputItem.amount]

lemma Tally.Good.countScalar (h : Alike used) (ht : t.Good used) {v : JsValue}
    (hused : used v frame.depth) (hpos : 0 < frame.multiplier) (hok : QueryGuards.countScalar v frame t = .ok t') :
    Fits maxInputDepth v frame.depth ∧ Adds used 0 (InputItem.amount schema (.scalar v frame)) t t' := by
  obtain ⟨⟨size, sizes⟩, hsize, hok⟩ := exists_of_bind_ok hok
  have hle : t.counts .scalarSize + size * frame.multiplier ≤ maxScalarSize := by
    unfold Tally.count at hok
    simp only at hok
    split_ifs at hok with hle
    exact hle
  have hsizele : size ≤ maxScalarSize := by
    have hmul : size ≤ size * frame.multiplier := Nat.le_mul_of_pos_right size hpos
    omega
  obtain ⟨hplain, hfits, hsizes⟩ := sizeOfValue_spec h v hused ht.sizes hsize hsizele
  have hgood : Tally.Good used { t with sizes } := ⟨ht.budget, ht.counts, hsizes⟩
  have hadds := hgood.count hok
  refine ⟨hfits, hadds.good, hadds.budget, fun counter => ?_⟩
  rw [hadds.counts, hplain]
  cases counter with
  | inputObjects | filterObjects | operands | scalarSize => simp [InputItem.amount]

end

section

variable (schema : Schema)

/-- Nothing is wrong with an item. -/
def InputItem.Sound : InputItem → Prop
  | .value frame => frame.depth ≤ maxInputDepth
  | .scalar v frame => Fits maxInputDepth v frame.depth
  | .filter quantifier field _ _ => quantifier = .SINGLE → targetsAbstractType schema field = false
  | _ => True

variable {used : JsValue → ℕ → Prop}

/-- The scalars of the items are at the places, and they are rendered at least once. -/
def PlacedAt (used : JsValue → ℕ → Prop) (items : List InputItem) : Prop :=
  ∀ v frame, .scalar v frame ∈ items → used v frame.depth ∧ 0 < frame.multiplier

lemma perform_spec (h : Alike used) {item : InputItem} {t t' : Tally} (hplaced : PlacedAt used [item])
    (ht : t.Good used) (hok : perform schema t item = .ok t') :
    item.Sound schema ∧ Adds used (item.budget schema) (item.amount schema) t t' := by
  cases item with
  | value frame =>
    rw [perform] at hok
    split_ifs at hok with hdeep
    cases hok
    exact ⟨Nat.le_of_not_lt hdeep, (Adds.nothing ht).congr rfl fun _ => rfl⟩
  | nullEntry frame =>
    refine ⟨trivial, (ht.count hok).congr rfl fun counter => ?_⟩
    cases counter with
    | inputObjects | filterObjects | operands | scalarSize => rfl
  | scalar v frame =>
    obtain ⟨hused, hpos⟩ := hplaced v frame (mem_singleton.2 rfl)
    exact ht.countScalar schema h hused hpos hok
  | object => exact ⟨trivial, ht.countObject schema hok⟩
  | misfit type frame | stranger type path => cases hok
  | filter =>
    rw [perform, chargeFilter] at hok
    split_ifs at hok with hsingle
    refine ⟨fun hq => ?_, (ht.charge hok).congr rfl fun _ => rfl⟩
    exact Bool.eq_false_iff.2 fun habstract => hsingle ⟨hq, habstract⟩
  | aggregate aggregated rendered path
  | cypher => exact ⟨trivial, (ht.charge hok).congr rfl fun _ => rfl⟩

/-- The walk accepts a list of items only if nothing is wrong with any of them, and adds what they cost. -/
lemma performAll_spec (h : Alike used) : ∀ {items : List InputItem} {t t' : Tally}, PlacedAt used items →
    t.Good used → performAll schema items t = .ok t' → (∀ item ∈ items, item.Sound schema) ∧
      Adds used (items.map (InputItem.budget schema)).sum
        (fun counter => (items.map fun item => item.amount schema counter).sum) t t'
  | [], t, t', _, ht, hok => by
    cases hok
    exact ⟨fun item hmem => absurd hmem not_mem_nil, Adds.nothing ht⟩
  | item :: items, t, t', hplaced, ht, hok => by
    obtain ⟨t₁, hitem, hok⟩ := exists_of_bind_ok hok
    have hfirst : PlacedAt used [item] := fun v frame hmem =>
      hplaced v frame (mem_singleton.1 hmem ▸ (.head _))
    have hothers : PlacedAt used items := fun v frame hmem => hplaced v frame (.tail _ hmem)
    obtain ⟨hsound, hadds⟩ := perform_spec schema h hfirst ht hitem
    obtain ⟨hrest, hadds'⟩ := performAll_spec h hothers hadds.good hok
    refine ⟨fun item' hmem => ?_, (hadds.trans hadds').congr rfl fun _ => rfl⟩
    obtain rfl | hmem := mem_cons.1 hmem
    · exact hsound
    · exact hrest item' hmem

lemma WithinLimits.of_performAll {items : List InputItem} {t : Tally} (hrendered : Rendered items)
    (hnests : NestsAlike items)
    (hok : performAll schema items { budget := 0, counts := fun _ => 0, sizes := ∅ } = .ok t) :
    WithinLimits schema items := by
  have hplaced : PlacedAt (ScalarAt items) items := fun v frame hmem =>
    ⟨⟨v, frame, hmem, .refl⟩, hrendered v frame hmem⟩
  have hstart : Tally.Good (ScalarAt items) { budget := 0, counts := fun _ => 0, sizes := ∅ } :=
    ⟨zero_le _, fun _ => zero_le _, fun u size hget => by cases hget⟩
  obtain ⟨hsound, hadds⟩ := performAll_spec schema hnests.alike hplaced hstart hok
  refine ⟨fun field rendered path hmem => hsound _ hmem rfl, fun frame hmem => hsound _ hmem,
    fun v frame hmem => hsound _ hmem, ?_, fun counter => ?_⟩
  · have hbudget := hadds.budget
    rw [zero_add] at hbudget
    exact hbudget ▸ hadds.good.budget
  · have hcounts := hadds.counts counter
    rw [zero_add] at hcounts
    exact hcounts ▸ hadds.good.counts counter

end

section

variable {L : Type} [DecidableEq L] (schema : Schema) (literals : Literals L)

section

variable (effective : Record String JsValue)

/-- The kept values are those of their arguments. -/
def ValuesOf (walk : Walk L) : Prop :=
  ∀ argument type v, walk.argumentValues.get? argument = some (type, v) →
    v = literals.valueFromAST argument.value type effective

variable {literals effective} {walk : Walk L}

lemma ValuesOf.argumentValue (h : ValuesOf literals effective walk) (argument : Argument L)
    (type : TypeRef) :
    let read := QueryGuards.argumentValue literals effective argument type walk
    read.1 = literals.valueFromAST argument.value type effective ∧ read.2.tally = walk.tally ∧
      ValuesOf literals effective read.2 := by
  let v := literals.valueFromAST argument.value type effective
  have hset : ValuesOf literals effective
      { walk with argumentValues := walk.argumentValues.set argument (type, v) } := by
    intro argument' type' v hget
    rw [Record.get?_set] at hget
    split_ifs at hget with hargument
    · cases hget
      obtain rfl := hargument
      rfl
    · exact h argument' type' v hget
  unfold QueryGuards.argumentValue
  cases hget : walk.argumentValues.get? argument with
  | none => exact ⟨rfl, rfl, hset⟩
  | some kept =>
    obtain ⟨type', known⟩ := kept
    simp only
    split_ifs with htype
    · obtain rfl := htype
      exact ⟨h argument _ known hget, rfl, h⟩
    · exact ⟨rfl, rfl, hset⟩

variable {schema}

lemma ValuesOf.visitArgument {walk' : Walk L} (h : ValuesOf literals effective walk) {use : Argument L × TypeRef}
    (hok : QueryGuards.visitArgument schema literals effective walk use = .ok walk') :
    performAll schema (useItems schema literals effective use) walk.tally = .ok walk'.tally ∧
      ValuesOf literals effective walk' := by
  obtain ⟨hvalue, htally, hkept⟩ := h.argumentValue use.1 use.2
  unfold QueryGuards.visitArgument at hok
  unfold useItems
  simp only [hvalue] at hok
  cases hread : literals.valueFromAST use.1.value use.2 effective with
  | none =>
    simp only [hread] at hok
    split_ifs at hok
    cases hok
    exact ⟨congrArg _ htally.symm, hkept⟩
  | some v =>
    simp only [hread] at hok
    obtain ⟨tally, hv, hok⟩ := exists_of_bind_ok hok
    cases hok
    rw [htally, value_eq] at hv
    exact ⟨hv, hkept⟩

lemma ValuesOf.visitArguments : ∀ {uses : List (Argument L × TypeRef)} {walk walk' : Walk L},
    ValuesOf literals effective walk →
    uses.foldlM (QueryGuards.visitArgument schema literals effective) walk = .ok walk' →
    performAll schema (uses.flatMap (useItems schema literals effective)) walk.tally = .ok walk'.tally ∧
      ValuesOf literals effective walk'
  | [], walk, walk', h, hok => by
    cases hok
    exact ⟨rfl, h⟩
  | use :: uses, walk, walk', h, hok => by
    obtain ⟨walk₁, huse, hok⟩ := exists_of_bind_ok hok
    obtain ⟨hitems, hkept⟩ := h.visitArgument huse
    obtain ⟨hrest, hkept'⟩ := ValuesOf.visitArguments hkept hok
    refine ⟨?_, hkept'⟩
    rw [flatMap_cons, performAll_append, hitems]
    exact hrest

/-- The walk of a selection set that is accepted visits the arguments of its full expansion. -/
lemma Uses.selectionSet {fragments : Fragments L} {parent : String} {set : List (Selection L)}
    {uses : List (Argument L × TypeRef)} {n : ℕ} (h : Uses schema fragments parent set uses n)
    {spreading : List String} {selections selections' : ℕ} {walk' : Walk L}
    (hinside : Inside schema fragments spreading n)
    (hok : QueryGuards.selectionSet schema literals effective fragments spreading parent set selections walk =
      .ok (selections', walk')) :
    uses.foldlM (QueryGuards.visitArgument schema literals effective) walk = .ok walk' := by
  induction h generalizing spreading selections selections' walk walk' with rw [QueryGuards.selectionSet] at hok
  | nil =>
    cases hok
    rfl
  | undefinedField hfield _ ih =>
    split_ifs at hok
    simp only [hfield] at hok
    exact ih (hinside.mono (le_succ _)) hok
  | leaf hfield _ ih =>
    split_ifs at hok
    simp only [hfield] at hok
    obtain ⟨walk₁, huses, hok⟩ := exists_of_bind_ok hok
    rw [foldlM_append, huses]
    exact ih (hinside.mono (le_succ _)) hok
  | field hfield _ _ ihinner ih =>
    split_ifs at hok
    simp only [hfield] at hok
    obtain ⟨walk₁, huses, hok⟩ := exists_of_bind_ok hok
    obtain ⟨⟨selections₂, walk₂⟩, hinner, hok⟩ := exists_of_bind_ok hok
    have hfirst := ihinner (hinside.mono (by omega)) hinner
    have hrest := ih (hinside.mono (by omega)) hok
    rw [foldlM_append, huses]
    show List.foldlM _ walk₁ _ = _
    rw [foldlM_append, hfirst]
    exact hrest
  | inlineFragment htype _ _ ihinner ih =>
    split_ifs at hok
    simp only [htype] at hok
    obtain ⟨⟨selections₂, walk₂⟩, hinner, hok⟩ := exists_of_bind_ok hok
    rw [foldlM_append, ihinner (hinside.mono (by omega)) hinner]
    exact ih (hinside.mono (by omega)) hok
  | unknownCondition htype _ ih =>
    split_ifs at hok
    simp only [htype] at hok
    exact ih (hinside.mono (le_succ _)) hok
  | @spread _ name fragment _ _ _ n n' hfragment htype hinner _ ihinner ih =>
    have hspreading : name ∉ spreading := by
      -- a fragment does not hold itself: its expansion would be larger than it is
      intro hmem
      have hle := hinside name hmem fragment _ _ hfragment hinner
      omega
    have henter : Inside schema fragments (name :: spreading) n' := by
      intro m hm fragment' uses₂ n₂ hget huses
      obtain rfl | hm := mem_cons.1 hm
      · cases hfragment.symm.trans hget
        exact (hinner.unique huses).2.le
      · have hle := hinside m hm fragment' uses₂ n₂ hget huses
        omega
    split_ifs at hok
    split at hok
    · next hnone =>
      cases hfragment.symm.trans hnone
    · next fragment' hfragment' =>
      cases hfragment.symm.trans hfragment'
      rw [if_neg (by rw [htype]; exact Bool.false_ne_true)] at hok
      obtain ⟨⟨selections₂, walk₂⟩, hselect, hok⟩ := exists_of_bind_ok hok
      rw [foldlM_append, ihinner henter hselect]
      exact ih (hinside.mono (by omega)) hok
  | unknownType hfragment htype _ ih =>
    split_ifs at hok with _ hspreading
    · split at hok
      all_goals exact ih (hinside.mono (le_succ _)) hok
    · split at hok
      · exact ih (hinside.mono (le_succ _)) hok
      · next fragment' hfragment' =>
        cases hfragment.symm.trans hfragment'
        rw [if_pos htype] at hok
        exact ih (hinside.mono (le_succ _)) hok
  | unknownFragment hfragment _ ih =>
    split_ifs at hok with _ hspreading
    · split at hok
      all_goals exact ih (hinside.mono (le_succ _)) hok
    · split at hok
      · exact ih (hinside.mono (le_succ _)) hok
      · next fragment' hfragment' =>
        cases hfragment.symm.trans hfragment'

end

lemma RequestItems.performAll {document : Document L} {given : Record String JsValue}
    {operationName : Option String} {items : List InputItem}
    (h : RequestItems schema literals document given operationName items)
    (hrun : run schema literals document given operationName = none) :
    ∃ t, QueryGuards.performAll schema items { budget := 0, counts := fun _ => 0, sizes := ∅ } = .ok t := by
  obtain ⟨op, root, uses, n, hop, hroot, huses, rfl⟩ := h
  unfold run walkRequest at hrun
  simp only [hop, hroot] at hrun
  cases hselect : selectionSet schema literals (declared schema literals op given) (fragmentsOf document) []
      root op.selectionSet 0 Walk.start with
  | error message =>
    rw [hselect] at hrun
    cases hrun
  | ok result =>
    have hstart : ValuesOf literals (declared schema literals op given) (Walk.start (L := L)) :=
      fun argument type v hget => by cases hget
    have hvisits := huses.selectionSet (fun m hm => absurd hm not_mem_nil) hselect
    exact ⟨result.2.tally, (hstart.visitArguments hvisits).1⟩

/-- The filter walk is sound about a request that it accepts if and only if what its scalar values have at
several places nests within the limit at all of them or at none. -/
theorem withinLimits_iff (document : Document L) (given : Record String JsValue)
    (operationName : Option String) (haccepted : run schema literals document given operationName = none)
    (items : List InputItem) (hitems : RequestItems schema literals document given operationName items) :
    WithinLimits schema items ↔ NestsAlike items := by
  constructor
  · exact fun h => h.nestsAlike
  · intro hnests
    obtain ⟨t, ht⟩ := hitems.performAll schema literals haccepted
    exact .of_performAll schema (hitems.rendered schema literals) hnests ht

end

/-- A literal that is a variable, or a list that holds one. -/
inductive SampleLiteral
  | reference (name : String)
  | listOf (name : String)
  deriving DecidableEq

def sampleLiterals : Literals SampleLiteral where
  isVariable
    | .reference _ => true
    | .listOf _ => false
  valueFromAST
    | .reference name, _, effective => effective.get? name
    | .listOf name, _, effective => some (.object 0 true [("0", (effective.get? name).getD .null)])

/-- `getDocument(analysisId: String!, filter: JSON!): JSON!` -/
def sampleField : FieldDefinition :=
  ⟨[("analysisId", .nonNull (.named "String")), ("filter", .nonNull (.named "JSON"))], .nonNull (.named "JSON")⟩

def sampleSchema : Schema where
  types := (∅ : Record String NamedType).set "String" .leaf |>.set "JSON" .leaf |>.set "Query"
    (.object ((∅ : Record String FieldDefinition).set "getDocument" sampleField))
  rootType
    | .query => some "Query"
    | _ => none
  possibleTypes := fun _ => []
  cypherCosts := ∅

/-- `[[...[]...]]`, with `n` lists around the innermost one -/
def nestedList : ℕ → JsValue
  | 0 => .object 1 true []
  | n + 1 => .object (n + 2) true [("0", nestedList n)]

lemma within_nestedList : ∀ n d, Within (nestedList n) d (nestedList 0) (d + n)
  | 0, _ => .refl
  | n + 1, d => .entry (.head _) (by
      have h := within_nestedList n (d + 1)
      rwa [show d + 1 + n = d + (n + 1) by omega] at h)

def firstArguments : List (Argument SampleLiteral) :=
  [⟨0, "analysisId", .reference "id"⟩, ⟨1, "filter", .reference "filter"⟩]

def secondArguments : List (Argument SampleLiteral) :=
  [⟨2, "analysisId", .reference "id"⟩, ⟨3, "filter", .listOf "filter"⟩]

def sampleOperation : OperationDefinition SampleLiteral where
  operation := .query
  name := none
  variableDefinitions :=
    [⟨"id", .nonNull (.named "String"), none⟩, ⟨"filter", .nonNull (.named "JSON"), none⟩]
  selectionSet := [.field "getDocument" firstArguments none, .field "getDocument" secondArguments none]

/-- `query($id: String!, $filter: JSON!)` that reads a document with `filter: $filter` and one with
`filter: [$filter]`. -/
def filterTwice : Document SampleLiteral :=
  [.operation sampleOperation]

def sampleGiven : Record String JsValue :=
  (∅ : Record String JsValue).set "id" (.text "analysis") |>.set "filter" (nestedList 64)

/-- What the arguments of the request hold. -/
def sampleItems : List InputItem :=
  (usesOf sampleField firstArguments ++ usesOf sampleField secondArguments).flatMap
    (useItems sampleSchema sampleLiterals sampleGiven)

lemma sample_declared : declared sampleSchema sampleLiterals sampleOperation sampleGiven = sampleGiven := by
  decide +kernel

lemma requestItems_sample : RequestItems sampleSchema sampleLiterals filterTwice sampleGiven none sampleItems := by
  refine ⟨sampleOperation, "Query", _, 2, rfl, rfl, .leaf rfl (.leaf rfl .nil), ?_⟩
  rw [sample_declared, append_nil]
  rfl

/-- How an argument of a scalar type is counted. -/
def countUse (t : Tally) (use : Argument SampleLiteral × TypeRef) : Except String Tally :=
  match sampleLiterals.valueFromAST use.1.value use.2 sampleGiven with
  | some v => countScalar v (argumentFrame use.1.name) t
  | none => .ok t

/-- An argument of a scalar type with a value. -/
def isScalarUse (use : Argument SampleLiteral × TypeRef) : Bool :=
  (sampleSchema.inputFields? use.2.namedType).isNone &&
    (sampleLiterals.valueFromAST use.1.value use.2 sampleGiven).any fun v => !v.isNullish

lemma visitArgument_sample {walk : Walk SampleLiteral} {t : Tally} {use : Argument SampleLiteral × TypeRef}
    (hkept : ValuesOf sampleLiterals sampleGiven walk) (hscalar : isScalarUse use = true)
    (hcount : countUse walk.tally use = .ok t) :
    ∃ walk', visitArgument sampleSchema sampleLiterals sampleGiven walk use = .ok walk' ∧ walk'.tally = t ∧
      ValuesOf sampleLiterals sampleGiven walk' := by
  obtain ⟨hvalue, htally, hkept'⟩ := hkept.argumentValue use.1 use.2
  obtain ⟨hleaf, hsome⟩ := Bool.and_eq_true_iff.1 hscalar
  obtain ⟨v, hread, hnull⟩ := (Option.any_eq_true _ _).1 hsome
  have hpresent : v.isNullish = false := by
    rw [← Bool.not_eq_true]
    intro h
    rw [h] at hnull
    cases hnull
  have hshallow : ¬ (argumentFrame use.1.name).depth > maxInputDepth := not_lt.2 (zero_le _)
  have hv : value sampleSchema v use.2 (argumentFrame use.1.name) walk.tally = .ok t := by
    rw [value_eq, itemsOf_leaf sampleSchema hpresent (Option.isNone_iff_eq_none.1 hleaf),
      performAll_of_not_deep sampleSchema hshallow, performAll_singleton]
    rwa [countUse, hread] at hcount
  refine ⟨{ (argumentValue sampleLiterals sampleGiven use.1 use.2 walk).2 with tally := t }, ?_, rfl, hkept'⟩
  unfold visitArgument
  simp only [hvalue, hread, htally, hv]
  rfl

lemma visitArguments_sample : ∀ {uses : List (Argument SampleLiteral × TypeRef)} {walk : Walk SampleLiteral}
    {t : Tally}, ValuesOf sampleLiterals sampleGiven walk → uses.all isScalarUse = true →
    uses.foldlM countUse walk.tally = .ok t →
    ∃ walk', uses.foldlM (visitArgument sampleSchema sampleLiterals sampleGiven) walk = .ok walk'
  | [], walk, _, _, _, _ => ⟨walk, rfl⟩
  | use :: uses, walk, t, hkept, hscalar, hcount => by
    obtain ⟨huse, huses⟩ := Bool.and_eq_true_iff.1 hscalar
    obtain ⟨t₁, hfirst, hcount⟩ := exists_of_bind_ok hcount
    obtain ⟨walk₁, hwalk₁, rfl, hkept₁⟩ := visitArgument_sample hkept huse hfirst
    obtain ⟨walk', hwalk'⟩ := visitArguments_sample hkept₁ huses hcount
    refine ⟨walk', ?_⟩
    rw [foldlM_cons, hwalk₁]
    exact hwalk'

lemma run_sample : run sampleSchema sampleLiterals filterTwice sampleGiven none = none := by
  have hcounts : ((usesOf sampleField firstArguments ++ usesOf sampleField secondArguments).foldlM countUse
      (Walk.start : Walk SampleLiteral).tally).isOk = true := by
    -- the size of the second filter is found with that of the first one kept
    decide +kernel
  have hscalar : (usesOf sampleField firstArguments ++ usesOf sampleField secondArguments).all isScalarUse := by
    decide +kernel
  have hstart : ValuesOf sampleLiterals sampleGiven (Walk.start : Walk SampleLiteral) :=
    fun argument type v hget => by cases hget
  cases hcount : (usesOf sampleField firstArguments ++ usesOf sampleField secondArguments).foldlM countUse
      (Walk.start : Walk SampleLiteral).tally with
  | error message =>
    rw [hcount] at hcounts
    cases hcounts
  | ok t =>
    obtain ⟨walk', hvisits⟩ := visitArguments_sample hstart hscalar hcount
    rw [foldlM_append] at hvisits
    obtain ⟨walk, hfirst, hsecond⟩ := exists_of_bind_ok hvisits
    have hselect : selectionSet sampleSchema sampleLiterals sampleGiven (fragmentsOf filterTwice) [] "Query"
        [.field "getDocument" firstArguments none, .field "getDocument" secondArguments none] 0 Walk.start =
          .ok (2, walk') := by
      have hfield : sampleSchema.field? "Query" "getDocument" = some sampleField := rfl
      rw [selectionSet, if_neg (by decide)]
      simp only [hfield]
      rw [hfirst]
      change selectionSet sampleSchema sampleLiterals sampleGiven _ [] "Query"
        [.field "getDocument" secondArguments none] 1 walk = _
      rw [selectionSet, if_neg (by decide)]
      simp only [hfield]
      rw [hsecond]
      change selectionSet sampleSchema sampleLiterals sampleGiven _ [] "Query" [] 2 walk' = _
      rw [selectionSet]
    have hop : getOperationAST filterTwice none = some sampleOperation := rfl
    have hroot : sampleSchema.rootType sampleOperation.operation = some "Query" := rfl
    unfold run walkRequest
    simp only [hop, hroot, sample_declared]
    rw [show sampleOperation.selectionSet = [.field "getDocument" firstArguments none,
      .field "getDocument" secondArguments none] from rfl, hselect]
    rfl

/-- The walk accepts a request that uses a list of 65 levels, and then uses it again one level deeper. -/
theorem nesting_missed : ¬ ∀ items, run sampleSchema sampleLiterals filterTwice sampleGiven none = none →
    RequestItems sampleSchema sampleLiterals filterTwice sampleGiven none items →
    WithinLimits sampleSchema items := by
  intro h
  have hlimits := h sampleItems run_sample requestItems_sample
  have huse : ((⟨3, "filter", .listOf "filter"⟩, .nonNull (.named "JSON")) : Argument SampleLiteral × TypeRef) ∈
      usesOf sampleField firstArguments ++ usesOf sampleField secondArguments := by
    decide +kernel
  have hmem : .scalar (.object 0 true [("0", nestedList 64)]) (argumentFrame "filter") ∈ sampleItems := by
    refine mem_flatMap.2 ⟨_, huse, ?_⟩
    have hitems : useItems sampleSchema sampleLiterals sampleGiven
        (⟨3, "filter", .listOf "filter"⟩, .nonNull (.named "JSON")) =
          [.value (argumentFrame "filter"), .scalar (.object 0 true [("0", nestedList 64)]) (argumentFrame "filter")] :=
      itemsOf_leaf sampleSchema rfl rfl
    rw [hitems]
    exact .tail _ (.head _)
  have hdeep : Within (.object 0 true [("0", nestedList 64)]) 0 (nestedList 0) 65 :=
    .entry (.head _) (within_nestedList 64 1)
  exact absurd (hlimits.nesting _ _ hmem _ _ hdeep rfl) (by decide)

theorem withinLimits_sample : WithinLimits sampleSchema sampleItems ↔ NestsAlike sampleItems :=
  withinLimits_iff sampleSchema sampleLiterals filterTwice sampleGiven none run_sample sampleItems
    requestItems_sample

end QueryGuards
