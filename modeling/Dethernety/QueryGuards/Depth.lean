import Dethernety.QueryGuards.Document

/-!
# The depth limit

Model of `checkDepth` of `query-guards.ts`. A fragment is measured once, up to the cap, and its depth is
kept; a selection set is measured up to a budget. The measure is the depth of the selection tree with all
fragments expanded, cut at the budget, as no fragment is met again while it is measured.
-/

open List

namespace QueryGuards

variable {L : Type}

section

abbrev FragmentDepths := Record String ℤ

/-- An introspection field, which is not followed. -/
def isIntrospection (name : String) : Bool :=
  name.startsWith "__"

variable (fragments : Fragments L) (cap : ℤ)

/-- `depthOf`, from the loop variable `deepest` on. What is in `measuring` is the stack of the fragments
that are being measured: a name is added before the recursion and deleted after it. -/
def depthOf (measuring : List String) (set : List (Selection L)) (budget deepest : ℤ)
    (known : FragmentDepths) : ℤ × FragmentDepths :=
  match set with
  | [] => (deepest, known)
  | selection :: rest =>
    if deepest ≥ budget then (deepest, known)
    else
      match selection with
      | .field _ _ none => depthOf measuring rest budget (max deepest 0) known
      | .field name _ (some selectionSet) =>
        if isIntrospection name then depthOf measuring rest budget (max deepest 0) known
        else
          let inner := depthOf measuring selectionSet (budget - 1) 0 known
          depthOf measuring rest budget (max deepest (1 + inner.1)) inner.2
      | .inlineFragment _ selectionSet =>
        let inner := depthOf measuring selectionSet budget 0 known
        depthOf measuring rest budget (max deepest inner.1) inner.2
      | .fragmentSpread name =>
        match _hfragment : fragments.get? name with
        | none => depthOf measuring rest budget (max deepest 0) known
        | some fragment =>
          if _hmeasuring : name ∈ measuring then depthOf measuring rest budget (max deepest 0) known
          else
            match known.get? name with
            | some depth => depthOf measuring rest budget (max deepest (min depth budget)) known
            | none =>
              let inner := depthOf (name :: measuring) fragment.selectionSet cap 0 known
              depthOf measuring rest budget (max deepest (min inner.1 budget)) (inner.2.set name inner.1)
termination_by (unentered fragments measuring, sizeOf set)
decreasing_by
  all_goals first
    | exact Prod.Lex.left _ _ (unentered_lt _hfragment _hmeasuring)
    | (refine Prod.Lex.right _ ?_
       simp only [List.cons.sizeOf_spec, Selection.field.sizeOf_spec, Selection.inlineFragment.sizeOf_spec,
         Option.some.sizeOf_spec]
       omega)

/-- The error that the rule reports about an operation. -/
structure DepthError (L : Type) where
  message : String
  node : OperationDefinition L

/-- The error about an operation. -/
def depthError (maxDepth : ℤ) (op : OperationDefinition L) : DepthError L :=
  ⟨"'" ++ op.name.getD "" ++ "' exceeds maximum operation depth of " ++ toString maxDepth, op⟩

def checkOperations (maxDepth : ℤ) : List (OperationDefinition L) → FragmentDepths → List (DepthError L)
  | [], _ => []
  | op :: rest, known =>
    let measured := depthOf fragments (maxDepth + 1) [] op.selectionSet (maxDepth + 1) 0 known
    if measured.1 > maxDepth then depthError maxDepth op :: checkOperations maxDepth rest measured.2
    else checkOperations maxDepth rest measured.2

def checkDepth (document : Document L) (maxDepth : ℤ) : List (DepthError L) :=
  checkOperations (fragmentsOf document) maxDepth (operations document) ∅

end

inductive FieldTree
  | leaf (name : String)
  | node (name : String) (selectionSet : List FieldTree)

mutual

/-- How deep the selections of a field nest under it. -/
def FieldTree.depth : FieldTree → ℕ
  | .leaf _ => 0
  | .node _ selectionSet => 1 + selectionDepth selectionSet

/-- The depth of a selection tree; a top-level field is at depth 0. -/
def selectionDepth : List FieldTree → ℕ
  | [] => 0
  | t :: l => max t.depth (selectionDepth l)

end

lemma selectionDepth_append (l l' : List FieldTree) :
    selectionDepth (l ++ l') = max (selectionDepth l) (selectionDepth l') := by
  induction l with
  | nil => simp [selectionDepth]
  | cons t l ih => rw [cons_append, selectionDepth, selectionDepth, ih, Nat.max_assoc]

/-- The expansion of a selection set: every spread is replaced by what its fragment selects, an unknown
fragment by nothing. What is under an introspection field is left out. -/
inductive Expands (fragments : Fragments L) : List (Selection L) → List FieldTree → Prop
  | nil : Expands fragments [] []
  | leaf {name arguments rest l} (h : Expands fragments rest l) :
      Expands fragments (.field name arguments none :: rest) (.leaf name :: l)
  | introspection {name arguments selectionSet rest l} (hname : isIntrospection name = true)
      (h : Expands fragments rest l) :
      Expands fragments (.field name arguments (some selectionSet) :: rest) (.leaf name :: l)
  | field {name arguments selectionSet inner rest l} (hname : isIntrospection name = false)
      (hinner : Expands fragments selectionSet inner) (h : Expands fragments rest l) :
      Expands fragments (.field name arguments (some selectionSet) :: rest) (.node name inner :: l)
  | inlineFragment {typeCondition selectionSet inner rest l}
      (hinner : Expands fragments selectionSet inner) (h : Expands fragments rest l) :
      Expands fragments (.inlineFragment typeCondition selectionSet :: rest) (inner ++ l)
  | spread {name fragment inner rest l} (hfragment : fragments.get? name = some fragment)
      (hinner : Expands fragments fragment.selectionSet inner) (h : Expands fragments rest l) :
      Expands fragments (.fragmentSpread name :: rest) (inner ++ l)
  | unknown {name rest l} (hfragment : fragments.get? name = none) (h : Expands fragments rest l) :
      Expands fragments (.fragmentSpread name :: rest) l

lemma Expands.unique {fragments : Fragments L} {set : List (Selection L)} {l l' : List FieldTree}
    (h : Expands fragments set l) (h' : Expands fragments set l') : l = l' := by
  induction h generalizing l' with
  | nil =>
    cases h'
    rfl
  | leaf _ ih =>
    cases h' with
    | leaf h' => rw [ih h']
  | introspection hname _ ih =>
    cases h' with
    | introspection _ h' => rw [ih h']
    | field hname' => cases hname.symm.trans hname'
  | field hname _ _ ihinner ih =>
    cases h' with
    | introspection hname' => cases hname.symm.trans hname'
    | field _ hinner' h' => rw [ihinner hinner', ih h']
  | inlineFragment _ _ ihinner ih =>
    cases h' with
    | inlineFragment hinner' h' => rw [ihinner hinner', ih h']
  | spread hfragment _ _ ihinner ih =>
    cases h' with
    | spread hfragment' hinner' h' =>
      cases hfragment.symm.trans hfragment'
      rw [ihinner hinner', ih h']
    | unknown hfragment' => cases hfragment.symm.trans hfragment'
  | unknown hfragment _ ih =>
    cases h' with
    | spread hfragment' => cases hfragment.symm.trans hfragment'
    | unknown _ h' => exact ih h'

section

variable {fragments : Fragments L}

mutual

/-- The fragments that a selection spreads, as far as it is followed. -/
def spreadsOf : Selection L → List String
  | .field _ _ none => []
  | .field name _ (some selectionSet) => if isIntrospection name then [] else spreads selectionSet
  | .inlineFragment _ selectionSet => spreads selectionSet
  | .fragmentSpread name => [name]

/-- The fragments that a selection set spreads. -/
def spreads : List (Selection L) → List String
  | [] => []
  | selection :: rest => spreadsOf selection ++ spreads rest

end

/-- A fragment of the document spreads another one. -/
def Calls (fragments : Fragments L) (name name' : String) : Prop :=
  ∃ fragment, fragments.get? name = some fragment ∧ name' ∈ spreads fragment.selectionSet

lemma Expands.acc {set : List (Selection L)} {l : List FieldTree} (h : Expands fragments set l) :
    ∀ name ∈ spreads set, Acc (fun b a => Calls fragments a b) name := by
  induction h with
  | nil => exact fun name hname => absurd hname not_mem_nil
  | leaf _ ih => exact fun name hname => ih name hname
  | introspection hintro _ ih =>
    intro name hname
    rw [spreads, spreadsOf, if_pos hintro] at hname
    exact ih name hname
  | field hintro _ _ ihinner ih =>
    intro name hname
    rw [spreads, spreadsOf, if_neg (by rw [hintro]; exact Bool.false_ne_true), mem_append] at hname
    exact hname.elim (ihinner name) (ih name)
  | inlineFragment _ _ ihinner ih =>
    intro name hname
    rw [spreads, spreadsOf, mem_append] at hname
    exact hname.elim (ihinner name) (ih name)
  | spread hfragment _ _ ihinner ih =>
    intro name hname
    rw [spreads, spreadsOf, mem_append, mem_singleton] at hname
    obtain rfl | hname := hname
    · refine Acc.intro _ fun name' hcall => ?_
      obtain ⟨fragment', hfragment', hmem⟩ := hcall
      cases hfragment.symm.trans hfragment'
      exact ihinner name' hmem
    · exact ih name hname
  | unknown hfragment _ ih =>
    intro name hname
    rw [spreads, spreadsOf, mem_append, mem_singleton] at hname
    obtain rfl | hname := hname
    · -- an unknown fragment calls nothing
      refine Acc.intro _ fun name' hcall => ?_
      obtain ⟨fragment', hfragment', -⟩ := hcall
      cases hfragment.symm.trans hfragment'
    · exact ih name hname

mutual

/-- What spreads fragments that can be expanded can be expanded itself. -/
lemma exists_expands_cons : ∀ (selection : Selection L) {rest : List (Selection L)} {l : List FieldTree},
    (∀ name ∈ spreadsOf selection, ∀ fragment, fragments.get? name = some fragment →
      ∃ l, Expands fragments fragment.selectionSet l) →
    Expands fragments rest l → ∃ l, Expands fragments (selection :: rest) l
  | .field name arguments none, _, _, _, hrest => ⟨_, .leaf hrest⟩
  | .field name arguments (some selectionSet), _, _, h, hrest => by
    cases hintro : isIntrospection name with
    | true => exact ⟨_, .introspection hintro hrest⟩
    | false =>
      rw [spreadsOf, if_neg (by rw [hintro]; exact Bool.false_ne_true)] at h
      obtain ⟨inner, hinner⟩ := exists_expands selectionSet h
      exact ⟨_, .field hintro hinner hrest⟩
  | .inlineFragment typeCondition selectionSet, _, _, h, hrest => by
    obtain ⟨inner, hinner⟩ := exists_expands selectionSet h
    exact ⟨_, .inlineFragment hinner hrest⟩
  | .fragmentSpread name, _, _, h, hrest => by
    cases hfragment : fragments.get? name with
    | none => exact ⟨_, .unknown hfragment hrest⟩
    | some fragment =>
      obtain ⟨inner, hinner⟩ := h name (mem_singleton.2 rfl) fragment hfragment
      exact ⟨_, .spread hfragment hinner hrest⟩

lemma exists_expands : ∀ (set : List (Selection L)),
    (∀ name ∈ spreads set, ∀ fragment, fragments.get? name = some fragment →
      ∃ l, Expands fragments fragment.selectionSet l) →
    ∃ l, Expands fragments set l
  | [], _ => ⟨[], .nil⟩
  | selection :: rest, h => by
    obtain ⟨l, hrest⟩ := exists_expands rest fun name hname =>
      h name (mem_append_right _ hname)
    exact exists_expands_cons selection (fun name hname => h name (mem_append_left _ hname)) hrest

end

lemma Acyclic.exists_expands (h : Acyclic (Calls fragments)) (set : List (Selection L)) :
    ∃ l, Expands fragments set l := by
  have hcallers : ∀ a b, Calls fragments a b → a ∈ fragments.keys := fun a b hcall => by
    obtain ⟨fragment, hfragment, -⟩ := hcall
    exact Record.mem_keys_of_get? hfragment
  have hfragments : ∀ name fragment, fragments.get? name = some fragment →
      ∃ l, Expands fragments fragment.selectionSet l := by
    intro name
    induction h.acc hcallers name with
    | intro name _ ih =>
      intro fragment hfragment
      exact QueryGuards.exists_expands _ fun name' hname' => ih name' ⟨fragment, hfragment, hname'⟩
  exact QueryGuards.exists_expands _ fun name _ => hfragments name

end

section

variable {fragments : Fragments L} {cap : ℤ}

/-- The kept depths are those of the fragments, cut at the cap. -/
def Measured (fragments : Fragments L) (cap : ℤ) (known : FragmentDepths) : Prop :=
  ∀ name depth fragment l, known.get? name = some depth → fragments.get? name = some fragment →
    Expands fragments fragment.selectionSet l → depth = min (selectionDepth l : ℤ) cap

/-- Calls lead from the fragments that are being measured to all that the selection set spreads. -/
def LeadTo (fragments : Fragments L) (measuring : List String) (set : List (Selection L)) : Prop :=
  ∀ m ∈ measuring, ∀ name ∈ spreads set, Relation.TransGen (Calls fragments) m name

variable {measuring : List String}

lemma LeadTo.rest {selection : Selection L} {rest : List (Selection L)}
    (h : LeadTo fragments measuring (selection :: rest)) : LeadTo fragments measuring rest :=
  fun m hm name hname => h m hm name (mem_append_right _ hname)

lemma LeadTo.enter {name : String} {rest : List (Selection L)}
    {fragment : FragmentDefinition L} (h : LeadTo fragments measuring (.fragmentSpread name :: rest))
    (hfragment : fragments.get? name = some fragment) : LeadTo fragments (name :: measuring) fragment.selectionSet := by
  intro m hm name' hname'
  have hcall : Calls fragments name name' := ⟨fragment, hfragment, hname'⟩
  obtain rfl | hm := mem_cons.1 hm
  · exact Relation.TransGen.single hcall
  · have hlead : Relation.TransGen (Calls fragments) m name :=
      h m hm name (mem_append_left _ (mem_singleton.2 rfl))
    exact hlead.tail hcall

lemma not_expands_of_measuring {name : String} {rest : List (Selection L)}
    {l : List FieldTree} (h : LeadTo fragments measuring (.fragmentSpread name :: rest))
    (hmeasuring : name ∈ measuring) : ¬ Expands fragments (.fragmentSpread name :: rest) l := by
  intro hexpands
  have hmem : name ∈ spreads (Selection.fragmentSpread name :: rest) :=
    mem_append_left _ (mem_singleton.2 rfl)
  exact not_transGen_self (hexpands.acc name hmem) (h name hmeasuring name hmem)

/-- The measure of a selection set is its depth, cut at the budget, and the kept depths stay right. -/
structure Measures (fragments : Fragments L) (cap : ℤ) (set : List (Selection L)) (budget deepest : ℤ)
    (r : ℤ × FragmentDepths) : Prop where
  known : Measured fragments cap r.2
  depth : ∀ l, Expands fragments set l →
    r.1 = if deepest ≥ budget then deepest else min (max deepest (selectionDepth l)) budget

/-- A round of the loop that measures the selection as `x`, its depth cut at the budget. -/
lemma Measures.step {budget deepest x : ℤ} {selection : Selection L} {rest : List (Selection L)}
    {r : ℤ × FragmentDepths} (h : Measures fragments cap rest budget (max deepest x) r) (hlt : ¬ deepest ≥ budget)
    (hx : ∀ l, Expands fragments (selection :: rest) l → ∃ (d : ℕ) (l' : List FieldTree),
      Expands fragments rest l' ∧ selectionDepth l = max d (selectionDepth l') ∧ x = min (d : ℤ) budget) :
    Measures fragments cap (selection :: rest) budget deepest r := by
  refine ⟨h.known, fun l hl => ?_⟩
  obtain ⟨d, l', hl', heq, hx⟩ := hx l hl
  rw [if_neg hlt, h.depth l' hl', heq, hx]
  split_ifs
  all_goals omega

lemma depthOf_spec (fragments : Fragments L) (cap : ℤ) (measuring : List String)
    (set : List (Selection L)) (budget deepest : ℤ) (known : FragmentDepths) :
    budget ≤ cap → 0 ≤ deepest → Measured fragments cap known → LeadTo fragments measuring set →
    Measures fragments cap set budget deepest (depthOf fragments cap measuring set budget deepest known) := by
  fun_induction depthOf fragments cap measuring set budget deepest known with intro hbudget hdeepest hknown hlead
  | case1 =>
    refine ⟨hknown, fun l hl => ?_⟩
    cases hl
    simp only [selectionDepth]
    split_ifs
    · rfl
    · omega
  | case2 _ _ _ _ _ _ hge => exact ⟨hknown, fun l _ => (if_pos hge).symm⟩
  | case3 _ _ _ _ _ hlt _ _ ih =>
    refine (ih hbudget (by omega) hknown hlead.rest).step hlt fun l hl => ?_
    cases hl with
    | leaf hl => exact ⟨0, _, hl, rfl, by omega⟩
  | case4 _ _ _ _ _ hlt _ _ _ hintro ih =>
    refine (ih hbudget (by omega) hknown hlead.rest).step hlt fun l hl => ?_
    cases hl with
    | introspection _ hl => exact ⟨0, _, hl, rfl, by omega⟩
    | field hintro' => cases hintro.symm.trans hintro'
  | case5 measuring _ _ _ _ hlt _ _ selectionSet hintro inner ihinner ih =>
    have hinside : LeadTo fragments measuring selectionSet := by
      intro m hm name' hname'
      refine hlead m hm name' (mem_append_left _ ?_)
      rwa [spreadsOf, if_neg hintro]
    obtain ⟨hknown', hinner⟩ := ihinner (by omega) le_rfl hknown hinside
    refine (ih hbudget (by omega) hknown' hlead.rest).step hlt fun l hl => ?_
    cases hl with
    | introspection hintro' => exact absurd hintro' hintro
    | field _ hl' hl =>
      -- the selections of the field have one level less to go
      refine ⟨_, _, hl, rfl, ?_⟩
      rw [FieldTree.depth, show inner.1 = _ from hinner _ hl']
      push_cast
      split_ifs
      all_goals omega
  | case6 measuring _ _ _ _ hlt _ selectionSet inner ihinner ih =>
    have hinside : LeadTo fragments measuring selectionSet := fun m hm name' hname' =>
      hlead m hm name' (mem_append_left _ hname')
    obtain ⟨hknown', hinner⟩ := ihinner hbudget le_rfl hknown hinside
    refine (ih hbudget (by omega) hknown' hlead.rest).step hlt fun l hl => ?_
    cases hl with
    | inlineFragment hl' hl =>
      refine ⟨_, _, hl, selectionDepth_append _ _, ?_⟩
      rw [show inner.1 = _ from hinner _ hl']
      split_ifs
      all_goals omega
  | case7 _ _ _ _ _ hlt _ hfragment ih =>
    refine (ih hbudget (by omega) hknown hlead.rest).step hlt fun l hl => ?_
    cases hl with
    | spread hfragment' => cases hfragment.symm.trans hfragment'
    | unknown _ hl => exact ⟨0, _, hl, (Nat.zero_max _).symm, by omega⟩
  | case8 _ _ _ _ _ hlt _ _ _ hmeasuring ih =>
    exact (ih hbudget (by omega) hknown hlead.rest).step hlt fun l hl =>
      absurd hl (not_expands_of_measuring hlead hmeasuring)
  | case9 _ _ _ _ _ hlt name fragment hfragment _ depth hget ih =>
    refine (ih hbudget (by omega) hknown hlead.rest).step hlt fun l hl => ?_
    cases hl with
    | spread hfragment' hl' hl =>
      cases hfragment.symm.trans hfragment'
      refine ⟨_, _, hl, selectionDepth_append _ _, ?_⟩
      rw [hknown name depth fragment _ hget hfragment hl']
      omega
    | unknown hfragment' => cases hfragment.symm.trans hfragment'
  | case10 _ _ _ _ _ hlt name fragment hfragment _ _ inner ihinner ih =>
    obtain ⟨hknown', hinner⟩ := ihinner le_rfl le_rfl hknown (hlead.enter hfragment)
    have hdepth : ∀ l, Expands fragments fragment.selectionSet l →
        inner.1 = min (selectionDepth l : ℤ) cap := by
      intro l hl
      rw [show inner.1 = _ from hinner l hl]
      split_ifs
      all_goals omega
    have hset : Measured fragments cap (inner.2.set name inner.1) := by
      intro name' depth' fragment' l hget' hfragment' hl
      rw [Record.get?_set] at hget'
      split_ifs at hget' with hname
      · obtain rfl := hname
        cases hget'
        cases hfragment.symm.trans hfragment'
        exact hdepth l hl
      · exact hknown' name' depth' fragment' l hget' hfragment' hl
    refine (ih hbudget (by omega) hset hlead.rest).step hlt fun l hl => ?_
    cases hl with
    | spread hfragment' hl' hl =>
      cases hfragment.symm.trans hfragment'
      refine ⟨_, _, hl, selectionDepth_append _ _, ?_⟩
      rw [hdepth _ hl']
      omega
    | unknown hfragment' => cases hfragment.symm.trans hfragment'

/-- The errors about the operations, each of which has its expansion. -/
lemma checkOperations_eq (fragments : Fragments L) (maxDepth : ℤ)
    (expansion : OperationDefinition L → List FieldTree) :
    ∀ (ops : List (OperationDefinition L)) (known : FragmentDepths),
      (∀ op ∈ ops, Expands fragments op.selectionSet (expansion op)) →
      Measured fragments (maxDepth + 1) known →
      checkOperations fragments maxDepth ops known = ops.filterMap fun op =>
        if maxDepth < selectionDepth (expansion op) then some (depthError maxDepth op) else none
  | [], _, _, _ => rfl
  | op :: ops, known, hops, hknown => by
    obtain ⟨hknown', hdepth⟩ := depthOf_spec fragments (maxDepth + 1) [] op.selectionSet (maxDepth + 1) 0
      known le_rfl le_rfl hknown fun m hm => absurd hm not_mem_nil
    have hmeasured := hdepth _ (hops op (.head _))
    have hrest := checkOperations_eq fragments maxDepth expansion ops _
      (fun op' hop' => hops op' (.tail _ hop')) hknown'
    have hiff : (depthOf fragments (maxDepth + 1) [] op.selectionSet (maxDepth + 1) 0 known).1 > maxDepth ↔
        maxDepth < selectionDepth (expansion op) := by
      rw [hmeasured]
      split_ifs
      all_goals omega
    simp only [checkOperations]
    by_cases hdeep : maxDepth < selectionDepth (expansion op)
    · rw [if_pos (hiff.2 hdeep), hrest, filterMap_cons, if_pos hdeep]
    · rw [if_neg (mt hiff.1 hdeep), hrest, filterMap_cons, if_neg hdeep]

/-- The check refuses the operations whose selection trees are too deep. -/
theorem checkDepth_eq (document : Document L) (maxDepth : ℤ)
    (hacyclic : Acyclic (Calls (fragmentsOf document))) :
    ∃ expansion : OperationDefinition L → List FieldTree,
      (∀ op ∈ operations document, ∀ l,
        Expands (fragmentsOf document) op.selectionSet l ↔ l = expansion op) ∧
      checkDepth document maxDepth = (operations document).filterMap fun op =>
        if maxDepth < selectionDepth (expansion op) then some (depthError maxDepth op) else none := by
  choose expansion hexpansion using fun op : OperationDefinition L =>
    hacyclic.exists_expands op.selectionSet
  refine ⟨expansion, fun op _ l => ⟨fun h => h.unique (hexpansion op), ?_⟩, ?_⟩
  · rintro rfl
    exact hexpansion op
  · apply checkOperations_eq
    · exact fun op _ => hexpansion op
    · intro name depth fragment l hget
      cases hget

end

/-- `{ root { ...Names } ...Names } fragment Names on Child { name }` -/
def sharedNames : Document Unit :=
  [.operation ⟨.query, none, [], [.field "root" [] (some [.fragmentSpread "Names"]), .fragmentSpread "Names"]⟩,
    .fragment ⟨"Names", "Child", [.field "name" [] none]⟩]

theorem checkDepth_sharedNames : ∃ expansion : OperationDefinition Unit → List FieldTree,
    (∀ op ∈ operations sharedNames, ∀ l,
      Expands (fragmentsOf sharedNames) op.selectionSet l ↔ l = expansion op) ∧
    checkDepth sharedNames 1 = (operations sharedNames).filterMap fun op =>
      if 1 < (selectionDepth (expansion op) : ℤ) then some (depthError 1 op) else none := by
  have hnone : ∀ name name', ¬ Calls (fragmentsOf sharedNames) name name' := by
    rintro name name' ⟨fragment, hget, hmem⟩
    have hentries : (fragmentsOf sharedNames).entries =
        [("Names", ⟨"Names", "Child", [.field "name" [] none]⟩)] := rfl
    have hentry := Record.mem_entries_iff.2 hget
    rw [hentries, mem_singleton] at hentry
    cases hentry
    exact absurd hmem not_mem_nil
  exact checkDepth_eq sharedNames 1 fun name hcycle => by
    obtain ⟨name', hcall, -⟩ := Relation.TransGen.head'_iff.1 hcycle
    exact hnone _ _ hcall

end QueryGuards
