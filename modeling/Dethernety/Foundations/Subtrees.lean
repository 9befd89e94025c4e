import Mathlib.Data.List.Nodup
import Dethernety.Foundations.Nesting

/-!
# The containers of a nesting with what is in them

`subtrees` are the containers of a `Nesting`, each with its contents, in the order of the walk. A
container is in another one if and only if its chain goes through it, as long as the containers can be
told apart by their data.
-/

open List

namespace Nesting

variable {B C B' C' : Type*}

/-- The containers that are directly in a container. -/
def children : Nesting B C → List (Nesting B C)
  | node _ children _ => children.getD []

mutual

/-- The container itself and all those in it, each with its contents. -/
def subtrees : Nesting B C → List (Nesting B C)
  | t@(node _ children _) => t :: subtreesOption children

def subtreesOption : Option (List (Nesting B C)) → List (Nesting B C)
  | none => []
  | some l => subtreesList l

def subtreesList : List (Nesting B C) → List (Nesting B C)
  | [] => []
  | t :: l => subtrees t ++ subtreesList l

end

mutual

/-- The most containers that a container is in. -/
def height : Nesting B C → ℕ
  | node _ children _ => heightOption children

def heightOption : Option (List (Nesting B C)) → ℕ
  | none => 0
  | some l => heightList l

def heightList : List (Nesting B C) → ℕ
  | [] => 0
  | t :: l => max (height t + 1) (heightList l)

end

lemma subtreesList_eq_flatMap (l : List (Nesting B C)) : subtreesList l = l.flatMap subtrees :=
  eq_flatMap rfl (fun _ _ => rfl) l

lemma subtrees_eq (t : Nesting B C) : t.subtrees = t :: t.children.flatMap subtrees := by
  obtain ⟨d, children, leaves⟩ := t
  cases children with
  | none => rfl
  | some l => rw [subtrees, subtreesOption, subtreesList_eq_flatMap, Nesting.children, Option.getD_some]

lemma self_mem_subtrees (t : Nesting B C) : t ∈ t.subtrees := by
  rw [subtrees_eq]
  exact .head _

lemma map_data_subtrees (t : Nesting B C) : t.subtrees.map data = t.nodes := by
  induction t with
  | node d children leaves ih =>
    rw [subtrees_eq, nodes_node, map_cons, map_flatMap, Nesting.children, flatMap_congr ih]
    rfl

lemma data_mem_nodes (t : Nesting B C) : t.data ∈ t.nodes := by
  rw [← map_data_subtrees]
  exact mem_map_of_mem (self_mem_subtrees t)

lemma height_lt {t c : Nesting B C} (h : t ∈ c.children) : t.height < c.height := by
  obtain ⟨d, children, leaves⟩ := c
  cases children with
  | none => cases h
  | some l =>
    show t.height < heightList l
    replace h : t ∈ l := h
    induction l with
    | nil => cases h
    | cons t' l ih =>
      rw [heightList]
      obtain rfl | h := mem_cons.1 h
      · exact Nat.le_max_left _ _
      · exact Nat.lt_of_lt_of_le (ih h) (Nat.le_max_right _ _)

/-- A container of a container is one of the whole, within the same ones, and not higher. -/
lemma exists_chains_subset (outer : List B) {c t : Nesting B C} (h : c ∈ t.subtrees) :
    c.height ≤ t.height ∧ ∃ inner, c.chains inner ⊆ t.chains outer := by
  induction t generalizing outer with
  | node d children leaves ih =>
    rw [subtrees_eq] at h
    obtain rfl | h := mem_cons.1 h
    · exact ⟨Nat.le_refl _, outer, List.Subset.refl _⟩
    · obtain ⟨t, ht, h⟩ := mem_flatMap.1 h
      obtain ⟨hheight, inner, hsub⟩ := ih t ht (d :: outer) h
      refine ⟨Nat.le_trans hheight (Nat.le_of_lt (height_lt ht)), inner, fun p hp => ?_⟩
      rw [chains_node]
      exact .tail _ (mem_flatMap.2 ⟨t, ht, hsub hp⟩)

lemma subset_of_mem_chains {outer : List B} {p : B × List B} {t : Nesting B C} (h : p ∈ t.chains outer) :
    outer ⊆ p.2 := by
  induction t generalizing outer with
  | node d children leaves ih =>
    rw [chains_node] at h
    obtain rfl | h := mem_cons.1 h
    · exact List.Subset.refl _
    · obtain ⟨t, ht, h⟩ := mem_flatMap.1 h
      exact List.Subset.trans (subset_cons_self d outer) (ih t ht h)

lemma data_mem_of_mem_chains {t : Nesting B C} {outer : List B} {p : B × List B}
    (h : p ∈ t.chains outer) : t.data ∈ p.1 :: p.2 := by
  obtain ⟨d, children, leaves⟩ := t
  rw [chains_node] at h
  obtain rfl | h := mem_cons.1 h
  · exact .head _
  · obtain ⟨t, -, h⟩ := mem_flatMap.1 h
    exact .tail _ (subset_of_mem_chains h (.head _))

/-- What a chain goes through is around the container as a container of the tree. -/
lemma exists_subtree_of_mem_chains {outer : List B} {p : B × List B} {a : B} {t : Nesting B C}
    (h : p ∈ t.chains outer) (ha : a ∈ p.1 :: p.2) : a ∈ outer ∨ ∃ c ∈ t.subtrees, c.data = a ∧ p.1 ∈ c.nodes := by
  induction t generalizing outer with
  | node d children leaves ih =>
    have hself : a = d → ∃ c ∈ (node d children leaves).subtrees, c.data = a ∧ p.1 ∈ c.nodes := by
      rintro rfl
      refine ⟨node a children leaves, self_mem_subtrees _, rfl, ?_⟩
      rw [← map_fst_chains outer]
      exact mem_map_of_mem (f := Prod.fst) h
    rw [chains_node] at h
    obtain rfl | h := mem_cons.1 h
    · exact (mem_cons.1 ha).symm.imp id hself
    · obtain ⟨t, ht, h⟩ := mem_flatMap.1 h
      obtain hmem | ⟨c, hc, hdata, hp⟩ := ih t ht h
      · exact (mem_cons.1 hmem).symm.imp id hself
      · rw [subtrees_eq]
        exact .inr ⟨c, .tail _ (mem_flatMap.2 ⟨t, ht, hc⟩), hdata, hp⟩

/-- A container is in another one if and only if its chain goes through it. -/
theorem mem_nodes_iff_of_mem_chains {t c : Nesting B C} (hnodup : t.nodes.Nodup) (hc : c ∈ t.subtrees)
    {b : B} {enclosing : List B} (h : (b, enclosing) ∈ t.chains []) : b ∈ c.nodes ↔ c.data ∈ b :: enclosing := by
  constructor
  · intro hb
    obtain ⟨-, inner, hsub⟩ := exists_chains_subset [] hc
    rw [← map_fst_chains inner] at hb
    obtain ⟨p, hp, hfst⟩ := mem_map.1 hb
    -- the data tell the chains of the tree
    have hchains : ((t.chains []).map Prod.fst).Nodup := by rwa [map_fst_chains]
    obtain rfl := inj_on_of_nodup_map hchains (hsub hp) h hfst
    exact data_mem_of_mem_chains hp
  · intro hmem
    obtain hnil | ⟨c', hc', hdata, hb⟩ := exists_subtree_of_mem_chains h hmem
    · exact absurd hnil not_mem_nil
    · rw [← map_data_subtrees] at hnodup
      obtain rfl := inj_on_of_nodup_map hnodup hc' hc hdata
      exact hb

lemma subtrees_sublist {c t : Nesting B C} (h : c ∈ t.subtrees) : c.subtrees.Sublist t.subtrees := by
  induction t with
  | node d children leaves ih =>
    rw [subtrees_eq] at h
    obtain rfl | h := mem_cons.1 h
    · exact List.Sublist.refl _
    · obtain ⟨t, ht, h⟩ := mem_flatMap.1 h
      rw [subtrees_eq (node d children leaves)]
      exact ((ih t ht h).trans (sublist_flatten_of_mem (mem_map_of_mem ht))).cons _

lemma subtrees_map (f : B → B') (g : C → C') (t : Nesting B C) :
    (t.map f g).subtrees = t.subtrees.map (map f g) := by
  induction t with
  | node d children leaves ih =>
    have hchildren : ((node d children leaves).map f g).children = (children.getD []).map (map f g) := by
      rw [map_node]
      exact Option.getD_map (List.map (map f g)) [] children
    rw [subtrees_eq, subtrees_eq, hchildren, flatMap_map, flatMap_congr ih, map_cons, map_flatMap]
    rfl

end Nesting
