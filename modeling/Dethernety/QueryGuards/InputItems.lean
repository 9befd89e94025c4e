import Mathlib.Algebra.BigOperators.Group.List.Basic
import Mathlib.Algebra.Ring.Nat
import Dethernety.QueryGuards.FilterWalk

/-!
# The full expansion of a request

What the executed operation uses once its fragments are inlined, and its arguments hold the values of their
variables: a list of items, one for every place of a value. Nothing is kept and nothing is refused here. What
an item costs is read off it, and the walk performs the items one after another.
-/

open List

namespace QueryGuards

section

/-- What an input value holds at one place. -/
inductive InputItem
  /-- A value. -/
  | value (frame : InputFrame)
  /-- A `null` in a list. -/
  | nullEntry (frame : InputFrame)
  /-- A scalar. -/
  | scalar (v : JsValue) (frame : InputFrame)
  /-- An object of an input type. -/
  | object (type : String) (fields : Record String TypeRef) (frame : InputFrame)
  /-- Something else where an object of an input type is expected. -/
  | misfit (type : String) (frame : InputFrame)
  /-- An entry that is not a field of the input type. -/
  | stranger (type : String) (path : String)
  /-- A filter with a quantifier, on a field of a type. -/
  | filter (quantifier : Quantifier) (field : TypeRef) (rendered : ℕ) (path : String)
  /-- An aggregate filter. -/
  | aggregate (aggregated : TypeRef) (rendered : ℕ) (path : String)
  /-- A filter on a `@cypher` field. -/
  | cypher (cost rendered : ℕ) (path : String)

variable (schema : Schema)

/-- The filters that an entry of an input object applies. -/
def filterItems (type : String) (fields : Record String TypeRef) (key : String) (field : TypeRef)
    (rendered : ℕ) (path : String) : List InputItem :=
  let quantified := (quantifierOf type key).toList.map fun quantifier =>
    InputItem.filter quantifier field rendered path
  let aggregated := (aggregateTarget schema type fields key).toList.map fun aggregated =>
    InputItem.aggregate aggregated rendered path
  let computed :=
    if cypherCost schema type key = 0 then [] else [InputItem.cypher (cypherCost schema type key) rendered path]
  quantified ++ (aggregated ++ computed)

mutual

/-- The items of a value that is used as a type. -/
def itemsOf (v : JsValue) (type : TypeRef) (frame : InputFrame) : List InputItem :=
  if v.isNullish then []
  else .value frame ::
    if (schema.inputFields? type.namedType).isNone then [.scalar v frame]
    else
      match type with
      | .nonNull type => itemsOf v type frame
      | .list type =>
        match v with
        | .object _ true entries => itemsOfList entries type frame
        | v => itemsOf v type { frame with depth := frame.depth + 1 }
      | .named name =>
        match schema.inputFields? name with
        | none => []
        | some fields =>
          match v with
          | .object _ false entries => .object name fields frame ::
            itemsOfObject name fields (frame.multiplier * renderedMembers schema name fields) entries frame
          | _ => [.misfit name frame]
termination_by (sizeOf v, sizeOf type)

def itemsOfList (items : List (String × JsValue)) (type : TypeRef) (frame : InputFrame) : List InputItem :=
  match items with
  | [] => []
  | (index, entry) :: rest =>
    let inner := { frame with path := frame.path ++ "[" ++ index ++ "]", depth := frame.depth + 1 }
    (if entry.isNullish then [.nullEntry inner] else itemsOf entry type inner) ++ itemsOfList rest type frame
termination_by (sizeOf items, 0)

/-- The items of the entries of an input object, each rendered `rendered` times. -/
def itemsOfObject (name : String) (fields : Record String TypeRef) (rendered : ℕ)
    (entries : List (String × JsValue)) (frame : InputFrame) : List InputItem :=
  match entries with
  | [] => []
  | (key, entry) :: rest =>
    let path := frame.path ++ "." ++ key
    match fields.get? key with
    | none => .stranger name path :: itemsOfObject name fields rendered rest frame
    | some field =>
      (if entry.isNullish then []
        else filterItems schema name fields key field rendered path ++
          itemsOf entry field
            { frame with
              path, depth := frame.depth + 1
              multiplier := entryMultiplier schema name key field rendered }) ++
        itemsOfObject name fields rendered rest frame
termination_by (sizeOf entries, 0)

end

/-- A value of a scalar type is a scalar, whatever it holds. -/
theorem itemsOf_leaf {v : JsValue} {type : TypeRef} {frame : InputFrame} (hnull : v.isNullish = false)
    (hleaf : schema.inputFields? type.namedType = none) :
    itemsOf schema v type frame = [.value frame, .scalar v frame] := by
  rw [itemsOf.eq_def, hnull, hleaf]
  rfl

/-- What an item costs against the filter budget. -/
def InputItem.budget : InputItem → ℕ
  | .filter quantifier field rendered _ => quantifierCost schema quantifier field rendered
  | .aggregate aggregated rendered _ => memberCount schema aggregated * rendered
  | .cypher cost rendered _ => cost * rendered
  | _ => 0

/-- What an item adds to a counter. -/
def InputItem.amount : InputItem → Counter → ℕ
  | .nullEntry frame, .inputObjects => frame.multiplier
  | .object _ _ frame, .inputObjects => frame.multiplier
  | .object _ _ frame, .filterObjects => if frame.inWhere then frame.multiplier else 0
  | .object type fields frame, .operands =>
    if isOperandType type then operandMembers schema fields * frame.multiplier else 0
  | .scalar v frame, .scalarSize => plainSize v * frame.multiplier
  | _, _ => 0

end

section

variable (schema : Schema)

lemma renderedMembers_pos (type : String) (fields : Record String TypeRef) :
    0 < renderedMembers schema type fields := by
  unfold renderedMembers
  split_ifs
  · exact operandMembers_pos schema fields
  · exact Nat.one_pos

lemma entryMultiplier_pos (type key : String) (field : TypeRef) {rendered : ℕ} (h : 0 < rendered) :
    0 < entryMultiplier schema type key field rendered := by
  unfold entryMultiplier
  cases quantifierOf type key with
  | none => exact h
  | some quantifier =>
    have htwice : 0 < if quantifier = .ALL then 2 else 1 := by split_ifs <;> decide
    exact Nat.mul_pos (Nat.mul_pos h (memberCount_pos schema field)) htwice

/-- Every scalar of the items is rendered at least once. -/
def Rendered (items : List InputItem) : Prop :=
  ∀ v frame, .scalar v frame ∈ items → 0 < frame.multiplier

lemma Rendered.nil : Rendered [] :=
  fun _ _ h => absurd h not_mem_nil

lemma Rendered.cons {item : InputItem} {items : List InputItem} (hitem : ∀ v frame, item ≠ .scalar v frame)
    (h : Rendered items) : Rendered (item :: items) :=
  fun v frame hmem => (mem_cons.1 hmem).elim (fun heq => absurd heq.symm (hitem v frame)) (h v frame)

lemma Rendered.append {items items' : List InputItem} (h : Rendered items) (h' : Rendered items') :
    Rendered (items ++ items') :=
  fun v frame hmem => (mem_append.1 hmem).elim (h v frame) (h' v frame)

lemma Rendered.scalar {v : JsValue} {frame : InputFrame} (hpos : 0 < frame.multiplier) :
    Rendered [.scalar v frame] := by
  intro u at_ hmem
  cases mem_singleton.1 hmem
  exact hpos

lemma rendered_filterItems (type key path : String) (fields : Record String TypeRef) (field : TypeRef)
    (rendered : ℕ) : Rendered (filterItems schema type fields key field rendered path) := by
  refine .append ?_ (.append ?_ ?_)
  · intro v frame hmem
    obtain ⟨quantifier, -, heq⟩ := mem_map.1 hmem
    cases heq
  · intro v frame hmem
    obtain ⟨aggregated, -, heq⟩ := mem_map.1 hmem
    cases heq
  · split_ifs
    · exact .nil
    · exact .cons nofun .nil

mutual

lemma rendered_itemsOf (v : JsValue) (type : TypeRef) (frame : InputFrame) (hpos : 0 < frame.multiplier) :
    Rendered (itemsOf schema v type frame) := by
  rw [itemsOf.eq_def]
  by_cases hnull : v.isNullish = true
  · rw [if_pos hnull]
    exact .nil
  rw [if_neg hnull]
  refine .cons nofun ?_
  by_cases hscalar : (schema.inputFields? type.namedType).isNone = true
  · rw [if_pos hscalar]
    exact .scalar hpos
  rw [if_neg hscalar]
  cases type with
  | nonNull type => exact rendered_itemsOf v type frame hpos
  | list type =>
    cases v with
    | object ref isArray entries =>
      cases isArray with
      | true => exact rendered_itemsOfList entries type frame hpos
      | false => exact rendered_itemsOf (.object ref false entries) type _ hpos
    | null => exact rendered_itemsOf .null type _ hpos
    | primitive => exact rendered_itemsOf .primitive type _ hpos
    | text s => exact rendered_itemsOf (.text s) type _ hpos
  | named name =>
    simp only
    cases schema.inputFields? name with
    | none => exact .nil
    | some fields =>
      cases v with
      | object ref isArray entries =>
        cases isArray with
        | true => exact .cons nofun .nil
        | false =>
          have hrendered := Nat.mul_pos hpos (renderedMembers_pos schema name fields)
          exact .cons nofun (rendered_itemsOfObject name fields _ entries frame hrendered)
      | null | primitive | text s => exact .cons nofun .nil
termination_by (sizeOf v, sizeOf type)

lemma rendered_itemsOfList (items : List (String × JsValue)) (type : TypeRef) (frame : InputFrame)
    (hpos : 0 < frame.multiplier) : Rendered (itemsOfList schema items type frame) := by
  rw [itemsOfList.eq_def]
  cases items with
  | nil => exact .nil
  | cons item rest =>
    obtain ⟨index, entry⟩ := item
    refine .append ?_ (rendered_itemsOfList rest type frame hpos)
    split_ifs
    · exact .cons nofun .nil
    · exact rendered_itemsOf entry type _ hpos
termination_by (sizeOf items, 0)

lemma rendered_itemsOfObject (name : String) (fields : Record String TypeRef) (rendered : ℕ)
    (entries : List (String × JsValue)) (frame : InputFrame) (hpos : 0 < rendered) :
    Rendered (itemsOfObject schema name fields rendered entries frame) := by
  rw [itemsOfObject.eq_def]
  cases entries with
  | nil => exact .nil
  | cons item rest =>
    obtain ⟨key, entry⟩ := item
    simp only
    cases fields.get? key with
    | none => exact .cons nofun (rendered_itemsOfObject name fields rendered rest frame hpos)
    | some field =>
      refine .append ?_ (rendered_itemsOfObject name fields rendered rest frame hpos)
      split_ifs
      · exact .nil
      · exact .append (rendered_filterItems schema name key _ fields field rendered)
          (rendered_itemsOf entry field _ (entryMultiplier_pos schema name key field hpos))
termination_by (sizeOf entries, 0)

end

end

section

variable (schema : Schema)

/-- What the walk does about an item. -/
def perform (t : Tally) : InputItem → Except String Tally
  | .value frame => if frame.depth > maxInputDepth then .error (tooDeep frame.path) else .ok t
  | .nullEntry frame => t.count .inputObjects frame.multiplier frame.path
  | .scalar v frame => countScalar v frame t
  | .object type fields frame => countObject schema type fields frame t
  | .misfit type frame => .error (notAnObject frame.path type)
  | .stranger type path => .error (notAField path type)
  | .filter quantifier field rendered path => chargeFilter schema quantifier field rendered path t
  | .aggregate aggregated rendered path => t.charge (memberCount schema aggregated * rendered) path
  | .cypher cost rendered path => t.charge (cost * rendered) path

/-- The walk performs a list of items. -/
def performAll (items : List InputItem) (t : Tally) : Except String Tally :=
  items.foldlM (perform schema) t

@[simp]
lemma performAll_nil (t : Tally) : performAll schema [] t = .ok t :=
  rfl

@[simp]
lemma performAll_cons (item : InputItem) (items : List InputItem) (t : Tally) :
    performAll schema (item :: items) t = perform schema t item >>= performAll schema items :=
  rfl

lemma performAll_append (items items' : List InputItem) (t : Tally) :
    performAll schema (items ++ items') t = performAll schema items t >>= performAll schema items' :=
  foldlM_append

lemma performAll_singleton (item : InputItem) (t : Tally) : performAll schema [item] t = perform schema t item := by
  rw [performAll_cons]
  exact bind_pure (perform schema t item)

lemma performAll_of_deep {frame : InputFrame} (h : frame.depth > maxInputDepth) (items : List InputItem)
    (t : Tally) : performAll schema (.value frame :: items) t = .error (tooDeep frame.path) := by
  rw [performAll_cons, perform, if_pos h]
  rfl

lemma performAll_of_not_deep {frame : InputFrame} (h : ¬ frame.depth > maxInputDepth)
    (items : List InputItem) (t : Tally) : performAll schema (.value frame :: items) t = performAll schema items t := by
  rw [performAll_cons, perform, if_neg h]
  rfl

lemma chargeEntry_eq (type : String) (fields : Record String TypeRef) (key : String) (field : TypeRef)
    (rendered : ℕ) (path : String) (t : Tally) :
    chargeEntry schema type fields key field rendered path t =
      performAll schema (filterItems schema type fields key field rendered path) t := by
  have hquantifier : ∀ t, chargeQuantifier schema type key field rendered path t =
      performAll schema ((quantifierOf type key).toList.map fun quantifier =>
        .filter quantifier field rendered path) t := by
    intro t
    unfold chargeQuantifier
    cases quantifierOf type key with
    | none => rfl
    | some quantifier => exact (performAll_singleton schema (.filter quantifier field rendered path) t).symm
  have haggregate : ∀ t, chargeAggregate schema type fields key rendered path t =
      performAll schema ((aggregateTarget schema type fields key).toList.map fun aggregated =>
        .aggregate aggregated rendered path) t := by
    intro t
    unfold chargeAggregate
    cases aggregateTarget schema type fields key with
    | none => rfl
    | some aggregated => exact (performAll_singleton schema (.aggregate aggregated rendered path) t).symm
  have hcypher : ∀ t, chargeCypher schema type key rendered path t =
      performAll schema (if cypherCost schema type key = 0 then []
        else [.cypher (cypherCost schema type key) rendered path]) t := by
    intro t
    unfold chargeCypher
    split_ifs
    · rfl
    · exact (performAll_singleton schema (.cypher (cypherCost schema type key) rendered path) t).symm
  unfold chargeEntry filterItems
  rw [performAll_append, hquantifier]
  refine bind_congr fun t => ?_
  rw [performAll_append, haggregate]
  exact bind_congr fun t => hcypher t

mutual

lemma value_eq (v : JsValue) (type : TypeRef) (frame : InputFrame) (t : Tally) :
    value schema v type frame t = performAll schema (itemsOf schema v type frame) t := by
  rw [value.eq_def, itemsOf.eq_def]
  by_cases hnull : v.isNullish = true
  · rw [if_pos hnull, if_pos hnull, performAll_nil]
  rw [if_neg hnull, if_neg hnull]
  by_cases hdeep : frame.depth > maxInputDepth
  · rw [if_pos hdeep, performAll_of_deep schema hdeep]
  rw [if_neg hdeep, performAll_of_not_deep schema hdeep]
  by_cases hscalar : (schema.inputFields? type.namedType).isNone = true
  · rw [if_pos hscalar, if_pos hscalar, performAll_singleton, perform]
  rw [if_neg hscalar, if_neg hscalar]
  cases type with
  | nonNull type => exact value_eq v type frame t
  | list type =>
    cases v with
    | object ref isArray entries =>
      cases isArray with
      | true => exact valueOfItems_eq entries type frame t
      | false => exact value_eq (.object ref false entries) type _ t
    | null => exact value_eq .null type _ t
    | primitive => exact value_eq .primitive type _ t
    | text s => exact value_eq (.text s) type _ t
  | named name =>
    simp only
    cases schema.inputFields? name with
    | none => rfl
    | some fields =>
      cases v with
      | object ref isArray entries =>
        cases isArray with
        | true => rfl
        | false =>
          simp only
          rw [performAll_cons, perform]
          exact bind_congr fun t => valueOfEntries_eq name fields _ entries frame t
      | null | primitive | text s => rfl
termination_by (sizeOf v, sizeOf type)

lemma valueOfItems_eq (items : List (String × JsValue)) (type : TypeRef) (frame : InputFrame) (t : Tally) :
    valueOfItems schema items type frame t = performAll schema (itemsOfList schema items type frame) t := by
  rw [valueOfItems.eq_def, itemsOfList.eq_def]
  cases items with
  | nil => rfl
  | cons item rest =>
    obtain ⟨index, entry⟩ := item
    simp only
    rw [performAll_append]
    split_ifs with hnull
    · rw [performAll_singleton, perform]
      exact bind_congr fun t => valueOfItems_eq rest type frame t
    · rw [value_eq entry]
      exact bind_congr fun t => valueOfItems_eq rest type frame t
termination_by (sizeOf items, 0)

lemma valueOfEntries_eq (name : String) (fields : Record String TypeRef) (rendered : ℕ)
    (entries : List (String × JsValue)) (frame : InputFrame) (t : Tally) :
    valueOfEntries schema name fields rendered entries frame t =
      performAll schema (itemsOfObject schema name fields rendered entries frame) t := by
  rw [valueOfEntries.eq_def, itemsOfObject.eq_def]
  cases entries with
  | nil => rfl
  | cons item rest =>
    obtain ⟨key, entry⟩ := item
    simp only
    cases fields.get? key with
    | none => rfl
    | some field =>
      simp only
      rw [performAll_append]
      split_ifs with hnull
      · exact valueOfEntries_eq name fields rendered rest frame t
      · rw [performAll_append, bind_assoc, chargeEntry_eq]
        refine bind_congr fun t => ?_
        rw [value_eq entry]
        exact bind_congr fun t => valueOfEntries_eq name fields rendered rest frame t
termination_by (sizeOf entries, 0)

end

end

variable {L : Type} (schema : Schema) (fragments : Fragments L)

/-- `Uses parent set uses n`: with all fragments inlined, a selection set under a type has `n` selections, and
their fields are given the arguments `uses`. A field, a fragment or a type that is not known selects nothing. -/
inductive Uses : String → List (Selection L) → List (Argument L × TypeRef) → ℕ → Prop
  | nil {parent} : Uses parent [] [] 0
  | undefinedField {parent name arguments inner rest uses n} (hfield : schema.field? parent name = none)
      (h : Uses parent rest uses n) : Uses parent (.field name arguments inner :: rest) uses (n + 1)
  | leaf {parent name arguments rest uses n field} (hfield : schema.field? parent name = some field)
      (h : Uses parent rest uses n) :
      Uses parent (.field name arguments none :: rest) (usesOf field arguments ++ uses) (n + 1)
  | field {parent name arguments inner rest uses uses' n n' field}
      (hfield : schema.field? parent name = some field)
      (hinner : Uses field.type.namedType inner uses' n') (h : Uses parent rest uses n) :
      Uses parent (.field name arguments (some inner) :: rest) (usesOf field arguments ++ (uses' ++ uses))
        (n' + n + 1)
  | inlineFragment {parent typeCondition type inner rest uses uses' n n'}
      (htype : conditionType schema typeCondition parent = some type) (hinner : Uses type inner uses' n')
      (h : Uses parent rest uses n) :
      Uses parent (.inlineFragment typeCondition inner :: rest) (uses' ++ uses) (n' + n + 1)
  | unknownCondition {parent typeCondition inner rest uses n}
      (htype : conditionType schema typeCondition parent = none) (h : Uses parent rest uses n) :
      Uses parent (.inlineFragment typeCondition inner :: rest) uses (n + 1)
  | spread {parent name fragment rest uses uses' n n'} (hfragment : fragments.get? name = some fragment)
      (htype : (schema.types.get? fragment.typeCondition).isNone = false)
      (hinner : Uses fragment.typeCondition fragment.selectionSet uses' n') (h : Uses parent rest uses n) :
      Uses parent (.fragmentSpread name :: rest) (uses' ++ uses) (n' + n + 1)
  | unknownType {parent name fragment rest uses n} (hfragment : fragments.get? name = some fragment)
      (htype : (schema.types.get? fragment.typeCondition).isNone = true) (h : Uses parent rest uses n) :
      Uses parent (.fragmentSpread name :: rest) uses (n + 1)
  | unknownFragment {parent name rest uses n} (hfragment : fragments.get? name = none)
      (h : Uses parent rest uses n) : Uses parent (.fragmentSpread name :: rest) uses (n + 1)

variable {schema fragments}

/-- There is at most one expansion. -/
theorem Uses.unique {parent : String} {set : List (Selection L)} {uses uses' : List (Argument L × TypeRef)}
    {n n' : ℕ} (h : Uses schema fragments parent set uses n) (h' : Uses schema fragments parent set uses' n') :
    uses = uses' ∧ n = n' := by
  induction h generalizing uses' n' with
  | nil =>
    cases h'
    exact ⟨rfl, rfl⟩
  | undefinedField hfield _ ih =>
    cases h' with
    | undefinedField _ h' =>
      obtain ⟨rfl, rfl⟩ := ih h'
      exact ⟨rfl, rfl⟩
    | leaf hfield' | field hfield' => cases hfield.symm.trans hfield'
  | leaf hfield _ ih =>
    cases h' with
    | undefinedField hfield' => cases hfield.symm.trans hfield'
    | leaf hfield' h' =>
      cases hfield.symm.trans hfield'
      obtain ⟨rfl, rfl⟩ := ih h'
      exact ⟨rfl, rfl⟩
  | field hfield _ _ ihinner ih =>
    cases h' with
    | undefinedField hfield' => cases hfield.symm.trans hfield'
    | field hfield' hinner' h' =>
      cases hfield.symm.trans hfield'
      obtain ⟨rfl, rfl⟩ := ihinner hinner'
      obtain ⟨rfl, rfl⟩ := ih h'
      exact ⟨rfl, rfl⟩
  | inlineFragment htype _ _ ihinner ih =>
    cases h' with
    | inlineFragment htype' hinner' h' =>
      cases htype.symm.trans htype'
      obtain ⟨rfl, rfl⟩ := ihinner hinner'
      obtain ⟨rfl, rfl⟩ := ih h'
      exact ⟨rfl, rfl⟩
    | unknownCondition htype' => cases htype.symm.trans htype'
  | unknownCondition htype _ ih =>
    cases h' with
    | inlineFragment htype' => cases htype.symm.trans htype'
    | unknownCondition _ h' =>
      obtain ⟨rfl, rfl⟩ := ih h'
      exact ⟨rfl, rfl⟩
  | spread hfragment htype _ _ ihinner ih =>
    cases h' with
    | spread hfragment' _ hinner' h' =>
      cases hfragment.symm.trans hfragment'
      obtain ⟨rfl, rfl⟩ := ihinner hinner'
      obtain ⟨rfl, rfl⟩ := ih h'
      exact ⟨rfl, rfl⟩
    | unknownType hfragment' htype' =>
      cases hfragment.symm.trans hfragment'
      cases htype.symm.trans htype'
    | unknownFragment hfragment' => cases hfragment.symm.trans hfragment'
  | unknownType hfragment htype _ ih =>
    cases h' with
    | spread hfragment' htype' =>
      cases hfragment.symm.trans hfragment'
      cases htype.symm.trans htype'
    | unknownType _ _ h' =>
      obtain ⟨rfl, rfl⟩ := ih h'
      exact ⟨rfl, rfl⟩
    | unknownFragment hfragment' => cases hfragment.symm.trans hfragment'
  | unknownFragment hfragment _ ih =>
    cases h' with
    | spread hfragment' | unknownType hfragment' => cases hfragment.symm.trans hfragment'
    | unknownFragment _ h' =>
      obtain ⟨rfl, rfl⟩ := ih h'
      exact ⟨rfl, rfl⟩

mutual

/-- The fragments that a selection spreads. -/
def spreadNamesOf : Selection L → List String
  | .field _ _ none => []
  | .field _ _ (some inner) => spreadNames inner
  | .inlineFragment _ inner => spreadNames inner
  | .fragmentSpread name => [name]

/-- The fragments that a selection set spreads. -/
def spreadNames : List (Selection L) → List String
  | [] => []
  | selection :: rest => spreadNamesOf selection ++ spreadNames rest

end

variable (schema)

mutual

/-- What spreads fragments that have expansions has one itself. -/
lemma exists_uses_cons : ∀ (selection : Selection L) {parent : String} {rest : List (Selection L)},
    (∀ name ∈ spreadNamesOf selection, ∀ fragment, fragments.get? name = some fragment →
      ∃ uses n, Uses schema fragments fragment.typeCondition fragment.selectionSet uses n) →
    (∃ uses n, Uses schema fragments parent rest uses n) →
    ∃ uses n, Uses schema fragments parent (selection :: rest) uses n
  | .field name arguments none, parent, rest, _, ⟨uses, n, hrest⟩ => by
    cases hfield : schema.field? parent name with
    | none => exact ⟨_, _, .undefinedField hfield hrest⟩
    | some field => exact ⟨_, _, .leaf hfield hrest⟩
  | .field name arguments (some inner), parent, rest, h, ⟨uses, n, hrest⟩ => by
    cases hfield : schema.field? parent name with
    | none => exact ⟨_, _, .undefinedField hfield hrest⟩
    | some field =>
      obtain ⟨uses', n', hinner⟩ := exists_uses inner field.type.namedType h
      exact ⟨_, _, .field hfield hinner hrest⟩
  | .inlineFragment typeCondition inner, parent, rest, h, ⟨uses, n, hrest⟩ => by
    cases htype : conditionType schema typeCondition parent with
    | none => exact ⟨_, _, .unknownCondition htype hrest⟩
    | some type =>
      obtain ⟨uses', n', hinner⟩ := exists_uses inner type h
      exact ⟨_, _, .inlineFragment htype hinner hrest⟩
  | .fragmentSpread name, parent, rest, h, ⟨uses, n, hrest⟩ => by
    cases hfragment : fragments.get? name with
    | none => exact ⟨_, _, .unknownFragment hfragment hrest⟩
    | some fragment =>
      cases htype : (schema.types.get? fragment.typeCondition).isNone with
      | true => exact ⟨_, _, .unknownType hfragment htype hrest⟩
      | false =>
        obtain ⟨uses', n', hinner⟩ := h name (mem_singleton.2 rfl) fragment hfragment
        exact ⟨_, _, .spread hfragment htype hinner hrest⟩

lemma exists_uses : ∀ (set : List (Selection L)) (parent : String),
    (∀ name ∈ spreadNames set, ∀ fragment, fragments.get? name = some fragment →
      ∃ uses n, Uses schema fragments fragment.typeCondition fragment.selectionSet uses n) →
    ∃ uses n, Uses schema fragments parent set uses n
  | [], _, _ => ⟨_, _, .nil⟩
  | selection :: rest, parent, h =>
    exists_uses_cons selection (fun name hname => h name (mem_append_left _ hname))
      (exists_uses rest parent fun name hname => h name (mem_append_right _ hname))

end

lemma Acyclic.exists_uses (hacyclic : Acyclic fun a b => ∃ fragment, fragments.get? a = some fragment ∧
      b ∈ spreadNames fragment.selectionSet) (set : List (Selection L)) (parent : String) :
    ∃ uses n, Uses schema fragments parent set uses n := by
  have hfragments : ∀ name fragment, fragments.get? name = some fragment →
      ∃ uses n, Uses schema fragments fragment.typeCondition fragment.selectionSet uses n := by
    intro name
    have hcallers : ∀ a b, (∃ fragment, fragments.get? a = some fragment ∧
        b ∈ spreadNames fragment.selectionSet) → a ∈ fragments.keys :=
      fun a b ⟨fragment, hfragment, _⟩ => Record.mem_keys_of_get? hfragment
    induction hacyclic.acc hcallers name with
    | intro name _ ih =>
      intro fragment hfragment
      exact QueryGuards.exists_uses schema _ _ fun name' hname' => ih name' ⟨fragment, hfragment, hname'⟩
  exact QueryGuards.exists_uses schema set parent fun name _ => hfragments name

variable {schema}

/-- The expansion of a selection set is not larger than those of the fragments in which it is met. -/
def Inside (schema : Schema) (fragments : Fragments L) (spreading : List String) (n : ℕ) : Prop :=
  ∀ name ∈ spreading, ∀ fragment uses n', fragments.get? name = some fragment →
    Uses schema fragments fragment.typeCondition fragment.selectionSet uses n' → n ≤ n'

lemma Inside.mono {spreading : List String} {m n : ℕ}
    (h : Inside schema fragments spreading n) (hle : m ≤ n) : Inside schema fragments spreading m :=
  fun name hname fragment uses n' hget huses => le_trans hle (h name hname fragment uses n' hget huses)

variable (schema) (literals : Literals L)

/-- The items of an argument, under the variables. -/
def useItems (effective : Record String JsValue) (use : Argument L × TypeRef) : List InputItem :=
  match literals.valueFromAST use.1.value use.2 effective with
  | some v => itemsOf schema v use.2 (argumentFrame use.1.name)
  | none => []

/-- The items of the operation that a request runs: those of the arguments in its full expansion, under the
variables that it is given and the defaults of the others. -/
def RequestItems (document : Document L) (given : Record String JsValue) (operationName : Option String)
    (items : List InputItem) : Prop :=
  ∃ op root uses n, getOperationAST document operationName = some op ∧
    schema.rootType op.operation = some root ∧
    Uses schema (fragmentsOf document) root op.selectionSet uses n ∧
    items = uses.flatMap (useItems schema literals (declared schema literals op given))

lemma RequestItems.rendered {document : Document L} {given : Record String JsValue}
    {operationName : Option String} {items : List InputItem}
    (h : RequestItems schema literals document given operationName items) : Rendered items := by
  obtain ⟨op, root, uses, n, -, -, -, rfl⟩ := h
  intro v frame hmem
  obtain ⟨use, -, hmem⟩ := mem_flatMap.1 hmem
  unfold useItems at hmem
  cases hvalue : literals.valueFromAST use.1.value use.2 (declared schema literals op given) with
  | none =>
    rw [hvalue] at hmem
    exact absurd hmem not_mem_nil
  | some w =>
    rw [hvalue] at hmem
    exact rendered_itemsOf schema w use.2 _ Nat.one_pos v frame hmem

end QueryGuards
