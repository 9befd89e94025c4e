import Mathlib.Data.List.Nodup
import Mathlib.Logic.Function.Iterate
import Dethernety.Foundations.Nesting

/-!
# Trees from lists of children

Containers that refer to their children by key, as objects refer to objects, form a graph. `unfold`
reads the graph as a tree, as far as its fuel goes. Where every child is one level below its parent
and the levels are bounded, the graph is a tree (`unfold_eq_grow`) in which every key occurs once
(`nodup_growKeys`).
-/

open List

namespace Nesting

variable {K B C : Type*} (label : K → B) (children : K → List K) (leaves : K → Option (List C))

mutual

/-- The tree under a key, or `none` where the fuel runs out. -/
def unfold : ℕ → K → Option (Nesting B C)
  | 0, _ => none
  | fuel + 1, k => (unfoldList fuel (children k)).map fun l => node (label k) (some l) (leaves k)

def unfoldList : ℕ → List K → Option (List (Nesting B C))
  | _, [] => some []
  | fuel, k :: ks =>
    (unfold fuel k).bind fun t => (unfoldList fuel ks).map fun l => t :: l

end

/-- The tree under a key down to `n` levels. -/
def grow : ℕ → K → Nesting B C
  | 0, k => node (label k) (some []) (leaves k)
  | n + 1, k => node (label k) (some ((children k).map (grow n))) (leaves k)

/-- The keys of the tree down to `n` levels, in the order of the walk. -/
def growKeys : ℕ → K → List K
  | 0, k => [k]
  | n + 1, k => k :: (children k).flatMap (growKeys n)

section

variable {label children leaves} {rank : K → ℕ}

/-- With levels bounded by `d`, the tree under a key is finite. -/
theorem unfold_eq_grow {d : ℕ} (hrank : ∀ k, ∀ c ∈ children k, rank c = rank k + 1)
    (hd : ∀ k, rank k ≤ d) {n fuel : ℕ} (k : K) (hn : d ≤ rank k + n) (hfuel : n < fuel) :
    unfold label children leaves fuel k = some (grow label children leaves n k) := by
  induction n generalizing fuel k with
  | zero =>
    obtain ⟨fuel, rfl⟩ := Nat.exists_eq_succ_of_ne_zero (Nat.ne_of_gt hfuel)
    -- nothing is below the last level
    have hnone : children k = [] := by
      refine eq_nil_iff_forall_not_mem.2 fun c hc => ?_
      have hrankc := hrank k c hc
      have hdc := hd c
      omega
    rw [unfold, hnone, unfoldList, grow]
    rfl
  | succ n ih =>
    obtain ⟨fuel, rfl⟩ := Nat.exists_eq_succ_of_ne_zero (Nat.ne_of_gt (Nat.zero_lt_of_lt hfuel))
    have hlist : ∀ ks : List K, (∀ c ∈ ks, rank c = rank k + 1) →
        unfoldList label children leaves fuel ks =
          some (ks.map (grow label children leaves n)) := by
      intro ks hks
      induction ks with
      | nil => rw [unfoldList, map_nil]
      | cons c ks ihks =>
        have hc := hks c (.head _)
        rw [unfoldList, ih c (by omega) (by omega), ihks fun c' hc' => hks c' (.tail _ hc')]
        rfl
    rw [unfold, hlist _ (hrank k), grow]
    rfl

lemma head_mem_growKeys (n : ℕ) (k : K) : k ∈ growKeys children n k := by
  cases n with
  | zero | succ n => exact .head _

lemma mem_growKeys_of_mem_children (hrank : ∀ k, ∀ c ∈ children k, rank c = rank k + 1) {n : ℕ}
    {r k c : K} (hk : k ∈ growKeys children n r) (hn : rank k < rank r + n) (hc : c ∈ children k) :
    c ∈ growKeys children n r := by
  induction n generalizing r with
  | zero =>
    obtain rfl := mem_singleton.1 hk
    exact absurd hn (Nat.lt_irrefl _)
  | succ n ih =>
    refine .tail _ (mem_flatMap.2 ?_)
    obtain rfl | hk := mem_cons.1 hk
    · exact ⟨c, hc, head_mem_growKeys n c⟩
    · obtain ⟨r', hr', hk⟩ := mem_flatMap.1 hk
      have hlevel := hrank r r' hr'
      exact ⟨r', hr', ih hk (by omega)⟩

/-- A key below `r` is as many levels below as steps lead up to `r`. -/
lemma iterate_up_of_mem_growKeys {up : K → Option K} (hup : ∀ k, ∀ c ∈ children k, up c = some k)
    (hrank : ∀ k, ∀ c ∈ children k, rank c = rank k + 1) {n : ℕ} {r x : K} (hx : x ∈ growKeys children n r) :
    ∃ j, rank x = rank r + j ∧ (fun o : Option K => o.bind up)^[j] (some x) = some r := by
  induction n generalizing r with
  | zero =>
    obtain rfl := mem_singleton.1 hx
    exact ⟨0, rfl, rfl⟩
  | succ n ih =>
    obtain rfl | hx := mem_cons.1 hx
    · exact ⟨0, rfl, rfl⟩
    · obtain ⟨c, hc, hx⟩ := mem_flatMap.1 hx
      obtain ⟨j, hj, hiter⟩ := ih hx
      refine ⟨j + 1, by rw [hj, hrank r c hc]; omega, ?_⟩
      rw [Function.iterate_succ_apply', hiter]
      exact hup r c hc

/-- Every key occurs once. -/
theorem nodup_growKeys {up : K → Option K} (hup : ∀ k, ∀ c ∈ children k, up c = some k)
    (hrank : ∀ k, ∀ c ∈ children k, rank c = rank k + 1) (hnodup : ∀ k, (children k).Nodup)
    (n : ℕ) (r : K) : (growKeys children n r).Nodup := by
  induction n generalizing r with
  | zero => exact nodup_singleton r
  | succ n ih =>
    refine nodup_cons.2 ⟨fun hr => ?_, nodup_flatMap.2 ⟨fun c _ => ih c, ?_⟩⟩
    · obtain ⟨c, hc, hr⟩ := mem_flatMap.1 hr
      obtain ⟨j, hj, -⟩ := iterate_up_of_mem_growKeys hup hrank hr
      have hlevel := hrank r c hc
      omega
    · refine (hnodup r).imp_of_mem fun {c c'} hc hc' hne x hx hx' => hne ?_
      obtain ⟨j, hj, hiter⟩ := iterate_up_of_mem_growKeys hup hrank hx
      obtain ⟨j', hj', hiter'⟩ := iterate_up_of_mem_growKeys hup hrank hx'
      have hsame : j = j' := by
        have hlevel := hrank r c hc
        have hlevel' := hrank r c' hc'
        omega
      rw [← hsame, hiter] at hiter'
      exact Option.some.inj hiter'

/-- The elements of the tree are the containers and leaves of its keys. -/
theorem elements_grow (n : ℕ) (k : K) :
    (grow label children leaves n k).elements = (growKeys children n k).flatMap
      fun k => .inl (label k) :: ((leaves k).getD []).map .inr := by
  induction n generalizing k with
  | zero => simp [grow, growKeys, elements, elementsOption, elementsList]
  | succ n ih =>
    have hlist : ∀ ks : List K, elementsList (ks.map (grow label children leaves n)) =
        (ks.flatMap (growKeys children n)).flatMap
          fun k => .inl (label k) :: ((leaves k).getD []).map .inr := by
      intro ks
      induction ks with
      | nil => rfl
      | cons c ks ihks =>
        rw [map_cons, elementsList, ih c, ihks, flatMap_cons, flatMap_append]
    rw [grow, growKeys, elements, elementsOption, hlist, flatMap_cons]
    rfl

/-- What is directly in the container of a key. -/
theorem leaf_mem_links_grow {n : ℕ} {r : K} {b : B} {c : C} :
    (b, .inr c) ∈ (grow label children leaves n r).links ↔
      ∃ k ∈ growKeys children n r, label k = b ∧ c ∈ (leaves k).getD [] := by
  induction n generalizing r with
  | zero => simp [grow, growKeys, links, linksOption, linksList, eq_comm, and_comm]
  | succ n ih =>
    have hlist : ∀ ks : List K,
        (b, .inr c) ∈ linksList (label r) (ks.map (grow label children leaves n)) ↔
          ∃ k ∈ ks.flatMap (growKeys children n), label k = b ∧ c ∈ (leaves k).getD [] := by
      intro ks
      induction ks with
      | nil => simp [linksList]
      | cons _ _ ihks =>
        rw [map_cons, linksList, mem_cons, mem_append, ih, ihks]
        simp only [flatMap_cons, mem_append, or_and_right, exists_or, Prod.mk.injEq,
          reduceCtorEq, and_false, false_or]
    rw [grow, growKeys, links, linksOption, mem_append, hlist, exists_mem_cons_iff]
    refine or_congr_left ?_
    simp [and_comm, eq_comm]

/-- `l` leads from `x` up to `r`. -/
inductive UpTo (children : K → List K) (r : K) : K → List K → Prop
  | top : UpTo children r r []
  | step {x p : K} {l : List K} (hx : x ∈ children p) (h : UpTo children r p l) :
    UpTo children r x (p :: l)

/-- The tree under a key is where its chain leads. -/
theorem chains_grow {n : ℕ} {r x : K} {l : List K} (h : UpTo children r x l) (hn : l.length ≤ n)
    (outer : List B) : (label x, l.map label ++ outer) ∈ (grow label children leaves n r).chains outer := by
  have hsub : ∀ p ∈ (grow label children leaves (n - l.length) x).chains (l.map label ++ outer),
      p ∈ (grow label children leaves n r).chains outer := by
    induction h with
    | top => exact fun p hp => hp
    | @step x p l hx _ ih =>
      rw [length_cons] at hn ⊢
      intro q hq
      refine ih (Nat.le_of_succ_le hn) q ?_
      have hlevel : n - l.length = (n - (l.length + 1)) + 1 := by omega
      have hlist : ∀ ks : List K, x ∈ ks → q ∈ chainsList (label p :: (l.map label ++ outer))
          (ks.map (grow label children leaves (n - (l.length + 1)))) := by
        intro ks hks
        induction ks with
        | nil => cases hks
        | cons c ks ihks =>
          rw [map_cons, chainsList, mem_append]
          obtain rfl | hks := mem_cons.1 hks
          · exact .inl hq
          · exact .inr (ihks hks)
      rw [hlevel, grow, chains, chainsOption]
      exact .tail _ (hlist _ hx)
  refine hsub _ ?_
  cases n - l.length with
  | zero | succ m => exact .head _

end

variable {label children leaves}

/-- Children that form a tree under `r` with at most `d` levels below it. -/
structure Rooted (children : K → List K) (up : K → Option K) (r : K) (d : ℕ) : Prop where
  up_eq : ∀ k, ∀ c ∈ children k, up c = some k
  up_root : up r = none
  nodup : ∀ k, (children k).Nodup
  reached : ∀ k, children k ≠ [] → ∃ l, UpTo children r k l
  length_le : ∀ k l, UpTo children r k l → l.length ≤ d

variable {up : K → Option K} {r : K} {d : ℕ}

/-- One way leads up. -/
lemma UpTo.unique (hup : ∀ k, ∀ c ∈ children k, up c = some k) (hroot : up r = none) {x : K}
    {l l' : List K} (hl : UpTo children r x l) (hl' : UpTo children r x l') : l = l' := by
  induction hl generalizing l' with
  | top =>
    cases hl' with
    | top => rfl
    | step hx => exact absurd (hroot.symm.trans (hup _ _ hx)) (Option.some_ne_none _).symm
  | step hx _ ih =>
    cases hl' with
    | top => exact absurd (hroot.symm.trans (hup _ _ hx)) (Option.some_ne_none _).symm
    | step hx' hrest =>
      cases (hup _ _ hx).symm.trans (hup _ _ hx')
      rw [ih hrest]

open Classical in
/-- How far below `r` a key is. -/
noncomputable def level (children : K → List K) (r k : K) : ℕ :=
  if h : ∃ l, UpTo children r k l then h.choose.length else 0

variable (h : Rooted children up r d)
include h

lemma level_eq {x : K} {l : List K} (hl : UpTo children r x l) : level children r x = l.length := by
  have hex : ∃ l, UpTo children r x l := ⟨l, hl⟩
  rw [level, dif_pos hex, UpTo.unique h.up_eq h.up_root hex.choose_spec hl]

lemma level_le (x : K) : level children r x ≤ d := by
  by_cases hex : ∃ l, UpTo children r x l
  · obtain ⟨l, hl⟩ := hex
    rw [level_eq h hl]
    exact h.length_le x l hl
  · rw [level, dif_neg hex]
    exact Nat.zero_le d

lemma level_of_mem_children (k : K) (c : K) (hc : c ∈ children k) :
    level children r c = level children r k + 1 := by
  obtain ⟨l, hl⟩ := h.reached k (ne_nil_of_mem hc)
  rw [level_eq h hl, level_eq h (.step hc hl), length_cons]

/-- The objects are a tree. -/
theorem Rooted.unfold_eq {fuel : ℕ} (hfuel : d < fuel) :
    unfold label children leaves fuel r = some (grow label children leaves d r) :=
  unfold_eq_grow (level_of_mem_children h) (level_le h) r (Nat.le_add_left _ _) hfuel

lemma Rooted.nodup_growKeys (n : ℕ) : (growKeys children n r).Nodup :=
  Nesting.nodup_growKeys h.up_eq (level_of_mem_children h) h.nodup n r

/-- The keys of the tree are those from which a way leads up. -/
theorem Rooted.mem_growKeys {x : K} : x ∈ growKeys children d r ↔ ∃ l, UpTo children r x l := by
  constructor
  · -- a key below a key that is reached is reached
    have hbelow : ∀ (n : ℕ) (k : K) (m : List K), UpTo children r k m → x ∈ growKeys children n k →
        ∃ l, UpTo children r x l := by
      intro n
      induction n with
      | zero =>
        intro k m hk hx
        rw [mem_singleton.1 hx]
        exact ⟨m, hk⟩
      | succ n ih =>
        intro k m hk hx
        obtain rfl | hx := mem_cons.1 hx
        · exact ⟨m, hk⟩
        · obtain ⟨c, hc, hx⟩ := mem_flatMap.1 hx
          exact ih c (k :: m) (.step hc hk) hx
    exact hbelow d r [] .top
  · rintro ⟨l, hl⟩
    have hroot : level children r r = 0 := level_eq h .top
    have hle := h.length_le x l hl
    induction hl with
    | top => exact head_mem_growKeys d r
    | @step x p l hx hl ih =>
      rw [length_cons] at hle
      refine mem_growKeys_of_mem_children (level_of_mem_children h) (ih (by omega)) ?_ hx
      rw [hroot, level_eq h hl]
      omega

end Nesting
