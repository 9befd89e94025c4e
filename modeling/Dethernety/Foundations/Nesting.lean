import Mathlib.Data.List.Basic

/-!
# Nested containers

A `Nesting` is a container with some data, an optional list of containers within it and an optional
list of leaves. `map` rewrites the data everywhere, `fold` walks over a container, its leaves and then
the containers within it, which is the order of `elements`, and `links` pairs what is in a container
with the container.
-/

/-- A container with data in `B` and leaves in `C`. -/
inductive Nesting (B C : Type*)
  | node (data : B) (children : Option (List (Nesting B C))) (leaves : Option (List C))

open List

namespace Nesting

variable {B C B' C' B'' C'' S : Type*}

def data : Nesting B C → B
  | node d _ _ => d

mutual

/-- Rewrite the data of every container and every leaf. -/
def map (f : B → B') (g : C → C') : Nesting B C → Nesting B' C'
  | node d children leaves => node (f d) (mapOption f g children) (leaves.map (List.map g))

def mapOption (f : B → B') (g : C → C') : Option (List (Nesting B C)) → Option (List (Nesting B' C'))
  | none => none
  | some l => some (mapList f g l)

def mapList (f : B → B') (g : C → C') : List (Nesting B C) → List (Nesting B' C')
  | [] => []
  | t :: l => map f g t :: mapList f g l

end

mutual

/-- Walk over a container, its leaves and then the containers within it. -/
def fold (f : S → B → S) (g : S → C → S) : S → Nesting B C → S
  | s, node d children leaves => foldOption f g ((leaves.getD []).foldl g (f s d)) children

def foldOption (f : S → B → S) (g : S → C → S) : S → Option (List (Nesting B C)) → S
  | s, none => s
  | s, some l => foldList f g s l

def foldList (f : S → B → S) (g : S → C → S) : S → List (Nesting B C) → S
  | s, [] => s
  | s, t :: l => foldList f g (fold f g s t) l

end

mutual

/-- The containers and leaves in the order of the walk. -/
def elements : Nesting B C → List (B ⊕ C)
  | node d children leaves => .inl d :: ((leaves.getD []).map .inr ++ elementsOption children)

def elementsOption : Option (List (Nesting B C)) → List (B ⊕ C)
  | none => []
  | some l => elementsList l

def elementsList : List (Nesting B C) → List (B ⊕ C)
  | [] => []
  | t :: l => elements t ++ elementsList l

end

mutual

/-- Every container and leaf other than the outermost, with the container that it is directly in. -/
def links : Nesting B C → List (B × (B ⊕ C))
  | node d children leaves => (leaves.getD []).map (fun c => (d, .inr c)) ++ linksOption d children

def linksOption (parent : B) : Option (List (Nesting B C)) → List (B × (B ⊕ C))
  | none => []
  | some l => linksList parent l

def linksList (parent : B) : List (Nesting B C) → List (B × (B ⊕ C))
  | [] => []
  | t :: l => (parent, .inl t.data) :: (links t ++ linksList parent l)

end

mutual

/-- Every container and leaf other than the outermost, the containers first, with the containers
that it is in below the outermost. -/
def inner : Nesting B C → List (List B × (B ⊕ C))
  | node _ children leaves => innerOption children ++ (leaves.getD []).map (fun c => ([], .inr c))

def innerOption : Option (List (Nesting B C)) → List (List B × (B ⊕ C))
  | none => []
  | some l => innerList l

def innerList : List (Nesting B C) → List (List B × (B ⊕ C))
  | [] => []
  | t :: l => ([], .inl t.data) :: ((inner t).map (Prod.map (t.data :: ·) id) ++ innerList l)

end

mutual

/-- Walk over a container, its leaves and then the containers within it, with what each is in. -/
def foldWithin (f : S → Option B → B → S) (g : S → B → C → S) : S → Option B → Nesting B C → S
  | s, parent, node d children leaves =>
    foldWithinOption f g ((leaves.getD []).foldl (fun s c => g s d c) (f s parent d)) d children

def foldWithinOption (f : S → Option B → B → S) (g : S → B → C → S) :
    S → B → Option (List (Nesting B C)) → S
  | s, _, none => s
  | s, parent, some l => foldWithinList f g s parent l

def foldWithinList (f : S → Option B → B → S) (g : S → B → C → S) : S → B → List (Nesting B C) → S
  | s, _, [] => s
  | s, parent, t :: l => foldWithinList f g (foldWithin f g s (some parent) t) parent l

end

mutual

/-- Every container with the containers that it is in, from the nearest to the outermost. -/
def chains (outer : List B) : Nesting B C → List (B × List B)
  | node d children _ => (d, outer) :: chainsOption (d :: outer) children

def chainsOption (outer : List B) : Option (List (Nesting B C)) → List (B × List B)
  | none => []
  | some l => chainsList outer l

def chainsList (outer : List B) : List (Nesting B C) → List (B × List B)
  | [] => []
  | t :: l => chains outer t ++ chainsList outer l

end

/-- The data of all containers. -/
def nodes (t : Nesting B C) : List B :=
  t.elements.filterMap Sum.getLeft?

def leaves (t : Nesting B C) : List C :=
  t.elements.filterMap Sum.getRight?

lemma data_map (f : B → B') (g : C → C') : ∀ t : Nesting B C, (t.map f g).data = f t.data
  | node _ _ _ => rfl

/-! ## One level -/

/-- What carries over from the containers in a container to that container holds of all. -/
@[induction_eliminator]
theorem induct {motive : Nesting B C → Prop}
    (node : ∀ d children leaves, (∀ t ∈ Option.getD children [], motive t) → motive (node d children leaves)) :
    ∀ t, motive t
  | .node d none leaves => node d none leaves (forall_mem_nil _)
  | .node d (some l) leaves => node d (some l) leaves fun t _ => induct node t

section

variable (d : B) (children : Option (List (Nesting B C))) (leaves : Option (List C))

lemma eq_flatMap {f : Nesting B C → List S} {g : List (Nesting B C) → List S} (hnil : g [] = [])
    (hcons : ∀ t l, g (t :: l) = f t ++ g l) (l : List (Nesting B C)) : g l = l.flatMap f := by
  induction l with
  | nil => exact hnil
  | cons t l ih => rw [hcons, ih, flatMap_cons]

lemma map_node (f : B → B') (g : C → C') : (node d children leaves).map f g =
    node (f d) (children.map (List.map (map f g))) (leaves.map (List.map g)) := by
  have hlist : ∀ l : List (Nesting B C), mapList f g l = l.map (map f g) := by
    intro l
    induction l with
    | nil => rfl
    | cons t l ih => rw [mapList, ih, map_cons]
  cases children with
  | none => rfl
  | some l => rw [map, mapOption, hlist, Option.map_some]

lemma elements_node : (node d children leaves).elements =
    .inl d :: ((leaves.getD []).map .inr ++ (children.getD []).flatMap elements) := by
  cases children with
  | none => rfl
  | some l =>
    have hlist : elementsList l = l.flatMap elements := eq_flatMap rfl (fun _ _ => rfl) l
    rw [elements, elementsOption, hlist, Option.getD_some]

lemma links_node : (node d children leaves).links = (leaves.getD []).map (fun c => (d, .inr c)) ++
    (children.getD []).flatMap fun t => (d, .inl t.data) :: t.links := by
  cases children with
  | none => rfl
  | some l => exact congrArg _ (eq_flatMap (f := fun t => (d, .inl t.data) :: t.links) (g := linksList d) rfl (fun _ _ => rfl) l)

lemma chains_node (outer : List B) : (node d children leaves).chains outer =
    (d, outer) :: (children.getD []).flatMap (chains (d :: outer)) := by
  cases children with
  | none => rfl
  | some l => exact congrArg _ (eq_flatMap rfl (fun _ _ => rfl) l)

end

/-! ## All levels -/

lemma map_map (f : B → B') (g : C → C') (f' : B' → B'') (g' : C' → C'') (t : Nesting B C) :
    (t.map f g).map f' g' = t.map (f' ∘ f) (g' ∘ g) := by
  induction t with
  | node d children leaves ih =>
    cases children with
    | none => simp [map_node]
    | some l => simpa [map_node] using ih

/-- Two rewritings agree on a container if they agree on all that is in it. -/
lemma map_congr {f f' : B → B'} {g g' : C → C'} {t : Nesting B C} (hf : ∀ b, .inl b ∈ t.elements → f b = f' b)
    (hg : ∀ c, .inr c ∈ t.elements → g c = g' c) : t.map f g = t.map f' g' := by
  induction t with
  | node d children leaves ih =>
    simp only [elements_node, mem_cons, mem_append, mem_flatMap] at hf hg
    have hleaves : leaves.map (List.map g) = leaves.map (List.map g') :=
      Option.map_congr fun l hl => map_congr_left fun c hc => hg c (.inr (.inl (mem_map_of_mem (hl ▸ hc))))
    have hchildren : children.map (List.map (map f g)) = children.map (List.map (map f' g')) :=
      Option.map_congr fun l hl => map_congr_left fun t ht => ih t (hl ▸ ht)
        (fun b hb => hf b (.inr (.inr ⟨t, hl ▸ ht, hb⟩))) fun c hc => hg c (.inr (.inr ⟨t, hl ▸ ht, hc⟩))
    rw [map_node, map_node, hf d (.inl rfl), hchildren, hleaves]

lemma elements_eq_cons_links (t : Nesting B C) : t.elements = .inl t.data :: t.links.map Prod.snd := by
  induction t with
  | node d children leaves ih =>
    rw [elements_node, links_node, map_append, map_flatMap, flatMap_congr ih, List.map_map]
    rfl

mutual

lemma mem_elements_of_mem_inner {p : List B × (B ⊕ C)} : ∀ {t : Nesting B C},
    p ∈ t.inner → p.2 ∈ t.elements
  | node d children leaves, h => by
    rw [inner, mem_append] at h
    rw [elements, mem_cons, mem_append]
    obtain h | h := h
    · exact .inr (.inr (mem_elementsOption_of_mem_inner h))
    · obtain ⟨c, hc, rfl⟩ := mem_map.1 h
      exact .inr (.inl (mem_map_of_mem hc))

lemma mem_elementsOption_of_mem_inner {p : List B × (B ⊕ C)} :
    ∀ {o : Option (List (Nesting B C))}, p ∈ innerOption o → p.2 ∈ elementsOption o
  | none, h => absurd h not_mem_nil
  | some _, h => mem_elementsList_of_mem_inner h

lemma mem_elementsList_of_mem_inner {p : List B × (B ⊕ C)} :
    ∀ {l : List (Nesting B C)}, p ∈ innerList l → p.2 ∈ elementsList l
  | [], h => absurd h not_mem_nil
  | t :: l, h => by
    rw [innerList, mem_cons, mem_append] at h
    rw [elementsList, mem_append]
    obtain rfl | h | h := h
    · rw [elements_eq_cons_links]
      exact .inl (.head _)
    · obtain ⟨q, hq, rfl⟩ := mem_map.1 h
      have helements := mem_elements_of_mem_inner hq
      exact .inl helements
    · exact .inr (mem_elementsList_of_mem_inner h)

end

/-- Rewriting the data rewrites the elements. -/
lemma elements_map (f : B → B') (g : C → C') (t : Nesting B C) :
    (t.map f g).elements = t.elements.map (Sum.map f g) := by
  induction t with
  | node d children leaves ih =>
    have hchildren : (children.map (List.map (map f g))).getD [] = (children.getD []).map (map f g) :=
      Option.getD_map (List.map (map f g)) [] children
    have hleaves : (leaves.map (List.map g)).getD [] = (leaves.getD []).map g :=
      Option.getD_map (List.map g) [] leaves
    rw [map_node, elements_node, elements_node, hchildren, hleaves, flatMap_map, map_cons, map_append, map_flatMap,
      flatMap_congr ih, List.map_map, List.map_map]
    rfl

mutual

/-- The walk goes over the elements in order. -/
lemma fold_eq_foldl (f : S → B → S) (g : S → C → S) : ∀ (s : S) (t : Nesting B C),
    t.fold f g s = t.elements.foldl (fun s e => e.elim (f s) (g s)) s
  | s, node d children leaves => by
    rw [fold, foldOption_eq_foldl, elements, foldl_cons, foldl_append, foldl_map]
    rfl

lemma foldOption_eq_foldl (f : S → B → S) (g : S → C → S) :
    ∀ (s : S) (o : Option (List (Nesting B C))),
      foldOption f g s o = (elementsOption o).foldl (fun s e => e.elim (f s) (g s)) s
  | _, none => rfl
  | s, some l => foldList_eq_foldl f g s l

lemma foldList_eq_foldl (f : S → B → S) (g : S → C → S) :
    ∀ (s : S) (l : List (Nesting B C)),
      foldList f g s l = (elementsList l).foldl (fun s e => e.elim (f s) (g s)) s
  | _, [] => rfl
  | s, t :: l => by
    rw [foldList, foldList_eq_foldl, fold_eq_foldl, elementsList, foldl_append]

end

mutual

/-- The walk with parents goes over the outermost container and then the links in order. -/
lemma foldWithin_eq_foldl (f : S → Option B → B → S) (g : S → B → C → S) :
    ∀ (s : S) (parent : Option B) (t : Nesting B C),
      t.foldWithin f g s parent = t.links.foldl
        (fun s l => l.2.elim (f s (some l.1)) (g s l.1)) (f s parent t.data)
  | s, parent, node d children leaves => by
    rw [foldWithin, foldWithinOption_eq_foldl, links, foldl_append, foldl_map]
    rfl

lemma foldWithinOption_eq_foldl (f : S → Option B → B → S) (g : S → B → C → S) :
    ∀ (s : S) (parent : B) (o : Option (List (Nesting B C))),
      foldWithinOption f g s parent o = (linksOption parent o).foldl
        (fun s l => l.2.elim (f s (some l.1)) (g s l.1)) s
  | _, _, none => rfl
  | s, parent, some l => foldWithinList_eq_foldl f g s parent l

lemma foldWithinList_eq_foldl (f : S → Option B → B → S) (g : S → B → C → S) :
    ∀ (s : S) (parent : B) (l : List (Nesting B C)),
      foldWithinList f g s parent l = (linksList parent l).foldl
        (fun s l => l.2.elim (f s (some l.1)) (g s l.1)) s
  | _, _, [] => rfl
  | s, parent, t :: l => by
    rw [foldWithinList, foldWithinList_eq_foldl, foldWithin_eq_foldl, linksList, foldl_cons,
      foldl_append]
    rfl

end

/-- A container is the outermost one, or it is linked to the first of those that it is in, which is
itself a container with the rest around it. -/
lemma chains_cases {outer : List B} {p : B × List B} {t : Nesting B C} (h : p ∈ t.chains outer) :
    p = (t.data, outer) ∨
      ∃ a rest, p.2 = a :: rest ∧ (a, .inl p.1) ∈ t.links ∧ (a, rest) ∈ t.chains outer := by
  induction t generalizing outer with
  | node d children leaves ih =>
    rw [chains_node] at h ⊢
    rw [links_node]
    obtain rfl | h := mem_cons.1 h
    · exact .inl rfl
    obtain ⟨t, ht, h⟩ := mem_flatMap.1 h
    obtain rfl | ⟨a, rest, hp, hlink, hchain⟩ := ih t ht h
    · exact .inr ⟨d, outer, rfl, mem_append_right _ (mem_flatMap.2 ⟨t, ht, .head _⟩), .head _⟩
    · exact .inr ⟨a, rest, hp, mem_append_right _ (mem_flatMap.2 ⟨t, ht, .tail _ hlink⟩),
        .tail _ (mem_flatMap.2 ⟨t, ht, hchain⟩)⟩

lemma nodes_node (d : B) (children : Option (List (Nesting B C))) (leaves : Option (List C)) :
    (node d children leaves).nodes = d :: (children.getD []).flatMap nodes := by
  rw [nodes, elements_node, filterMap_cons, filterMap_append, filterMap_map, filterMap_flatMap]
  simp [Function.comp_def]
  rfl

lemma map_fst_chains (outer : List B) (t : Nesting B C) : (t.chains outer).map Prod.fst = t.nodes := by
  induction t generalizing outer with
  | node d children leaves ih =>
    rw [chains_node, nodes_node, map_cons, map_flatMap, flatMap_congr fun t ht => ih t ht (d :: outer)]

/-- A container and those that it is in are met by the walk from the outermost on. -/
lemma exists_sublist_of_mem_chains {outer : List B} {p : B × List B} {t : Nesting B C} (h : p ∈ t.chains outer) :
    ∃ l : List B, p.1 :: p.2 = l.reverse ++ outer ∧ l.Sublist t.nodes := by
  induction t generalizing outer with
  | node d children leaves ih =>
    rw [chains_node] at h
    rw [nodes_node]
    obtain rfl | h := mem_cons.1 h
    · exact ⟨[d], rfl, (nil_sublist _).cons_cons d⟩
    · obtain ⟨t, ht, h⟩ := mem_flatMap.1 h
      obtain ⟨l, hl, hsub⟩ := ih t ht h
      refine ⟨d :: l, ?_, (hsub.trans (sublist_flatten_of_mem (mem_map_of_mem ht))).cons_cons d⟩
      rw [hl, reverse_cons, append_assoc]
      rfl

/-- What something is in is a container of the tree. -/
lemma mem_elements_of_mem_links {p : B × (B ⊕ C)} {t : Nesting B C} (h : p ∈ t.links) : .inl p.1 ∈ t.elements := by
  induction t with
  | node d children leaves ih =>
    rw [links_node, mem_append, mem_flatMap] at h
    rw [elements_node]
    obtain h | ⟨t, ht, h⟩ := h
    · obtain ⟨c, -, rfl⟩ := mem_map.1 h
      exact .head _
    · obtain rfl | h := mem_cons.1 h
      · exact .head _
      · exact .tail _ (mem_append_right _ (mem_flatMap.2 ⟨t, ht, ih t ht h⟩))

lemma nodes_map (f : B → B') (g : C → C') (t : Nesting B C) : (t.map f g).nodes = t.nodes.map f := by
  rw [nodes, nodes, elements_map, filterMap_map, map_filterMap]
  refine filterMap_congr fun e _ => ?_
  rcases e with b | c
  all_goals rfl

lemma leaves_map (f : B → B') (g : C → C') (t : Nesting B C) : (t.map f g).leaves = t.leaves.map g := by
  rw [leaves, leaves, elements_map, filterMap_map, map_filterMap]
  refine filterMap_congr fun e _ => ?_
  rcases e with b | c
  all_goals rfl

lemma mem_nodes {t : Nesting B C} {b : B} : b ∈ t.nodes ↔ .inl b ∈ t.elements := by
  simp [nodes, mem_filterMap, Sum.getLeft?_eq_some_iff]

lemma mem_leaves {t : Nesting B C} {c : C} : c ∈ t.leaves ↔ .inr c ∈ t.elements := by
  simp [leaves, mem_filterMap, Sum.getRight?_eq_some_iff]

end Nesting
