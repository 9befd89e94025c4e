import Mathlib.Data.Set.Finite.Basic
import Dethernety.Foundations.Record

/-!
# GraphQL documents

A parsed document as the guards of `query-guards.ts` read it, over an arbitrary type `L` of literals. A
fragment calls the fragments that it spreads; where these calls make no cycle, they are well-founded.
-/

open List

namespace QueryGuards

variable {L : Type}

/-- `ArgumentNode`; `node` says which node of the document it is. -/
structure Argument (L : Type) where
  node : ℕ
  name : String
  value : L
  deriving DecidableEq

/-- `SelectionNode` -/
inductive Selection (L : Type)
  | field (name : String) (arguments : List (Argument L)) (selectionSet : Option (List (Selection L)))
  | inlineFragment (typeCondition : Option String) (selectionSet : List (Selection L))
  | fragmentSpread (name : String)

structure FragmentDefinition (L : Type) where
  name : String
  typeCondition : String
  selectionSet : List (Selection L)

inductive OperationKind
  | query
  | mutation
  | subscription

/-- A type as a document or a schema writes it. -/
inductive TypeRef
  | named (name : String)
  | list (item : TypeRef)
  | nonNull (type : TypeRef)
  deriving DecidableEq

structure VariableDefinition (L : Type) where
  name : String
  type : TypeRef
  defaultValue : Option L

structure OperationDefinition (L : Type) where
  operation : OperationKind
  name : Option String
  variableDefinitions : List (VariableDefinition L)
  selectionSet : List (Selection L)

/-- `DefinitionNode`; what is neither an operation nor a fragment is not looked at. -/
inductive Definition (L : Type)
  | operation (definition : OperationDefinition L)
  | fragment (definition : FragmentDefinition L)
  | other

/-- `DocumentNode` -/
abbrev Document (L : Type) := List (Definition L)

abbrev Fragments (L : Type) := Record String (FragmentDefinition L)

/-- The map of the fragments by their names. -/
def fragmentsOf (document : Document L) : Fragments L :=
  document.foldl (fun fragments definition =>
    match definition with
    | .fragment f => fragments.set f.name f
    | _ => fragments) ∅

def operations (document : Document L) : List (OperationDefinition L) :=
  document.filterMap fun definition =>
    match definition with
    | .operation op => some op
    | _ => none

/-- How many fragments are left that a recursion into the fragments of `stack` has not entered. -/
def unentered (fragments : Fragments L) (stack : List String) : ℕ :=
  (fragments.keys.filter (· ∉ stack)).length

/-- Entering a fragment leaves fewer of them. -/
theorem unentered_lt {fragments : Fragments L} {stack : List String} {name : String}
    {f : FragmentDefinition L} (h : fragments.get? name = some f) (hnot : name ∉ stack) :
    unentered fragments (name :: stack) < unentered fragments stack := by
  have hmem : name ∈ fragments.keys.filter (· ∉ stack) :=
    mem_filter.2 ⟨Record.mem_keys_of_get? h, decide_eq_true hnot⟩
  have hfilter : fragments.keys.filter (· ∉ name :: stack) =
      (fragments.keys.filter (· ∉ stack)).filter (· ≠ name) := by
    rw [filter_filter]
    apply filter_congr
    intro x _
    simp
  unfold unentered
  rw [hfilter]
  exact length_filter_lt_length_iff_exists.2 ⟨name, hmem, by simp⟩

/-- No chain of calls leads from a fragment back to it. -/
def Acyclic {α : Type} (calls : α → α → Prop) : Prop :=
  ∀ a, ¬ Relation.TransGen calls a a

/-- Calls without a cycle are well-founded if only the members of a list call anything. -/
theorem Acyclic.acc {α : Type} {calls : α → α → Prop} (h : Acyclic calls) {callers : List α}
    (hcallers : ∀ a b, calls a b → a ∈ callers) (a : α) : Acc (fun b a => calls a b) a := by
  let later (b a : {x // x ∈ callers}) : Prop := Relation.TransGen calls a.1 b.1
  have hirrefl : Std.Irrefl later := ⟨fun a => h a.1⟩
  have hfinite : Finite {x // x ∈ callers} := (finite_toSet callers).to_subtype
  have hwf : WellFounded later := Finite.wellFounded_of_trans_of_irrefl later
  have hcaller : ∀ a : {x // x ∈ callers}, Acc (fun b a => calls a b) a.1 := by
    intro a
    induction a using hwf.induction with
    | _ a ih =>
      refine Acc.intro _ fun b hb => ?_
      by_cases hmem : b ∈ callers
      · exact ih ⟨b, hmem⟩ (Relation.TransGen.single hb)
      · -- what is not in the list calls nothing
        exact Acc.intro _ fun c hc => absurd (hcallers b c hc) hmem
  by_cases hmem : a ∈ callers
  · exact hcaller ⟨a, hmem⟩
  · exact Acc.intro _ fun b hb => absurd (hcallers a b hb) hmem

/-- What is well-founded does not come back to itself. -/
theorem not_transGen_self {α : Type} {calls : α → α → Prop} {a : α}
    (h : Acc (fun b a => calls a b) a) : ¬ Relation.TransGen calls a a := by
  intro hcycle
  have hacc : Acc (Relation.TransGen fun b a => calls a b) a := h.transGen
  have hback : Relation.TransGen (fun b a => calls a b) a a := Relation.transGen_swap.1 hcycle
  induction hacc with
  | intro a _ ih => exact ih a hback (h := h) hcycle hback

end QueryGuards
