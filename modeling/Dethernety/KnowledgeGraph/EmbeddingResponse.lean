import Mathlib.Data.List.Sort
import Mathlib.Data.Rat.Cast.Order

/-!
# Embedding responses

`parseEmbeddingResponse`. The vectors of an OpenAI response are put in the order of their indexes, and the caller
takes the `i`-th one for its `i`-th input. A response that is not refused can have two items with one index: then
some input gets the vector of another one.
-/

open List

namespace Embeddings

/-- What a response holds in a place: a finite number, a list, or anything else. -/
inductive Value
  | number (n : ℚ)
  | array (entries : List Value)
  | other

/-- An item of `data`; `embedding` is `other` if it is absent. -/
structure Item where
  index : Option ℚ
  embedding : Value

inductive Response
  /-- `{ data: [{ index, embedding }, …] }` -/
  | openAi (data : List Item)
  /-- `{ embeddings: [[…], […]] }` -/
  | ollama (embeddings : List Value)
  /-- `{ embedding: […] }` -/
  | legacy (embedding : List Value)
  | unexpected (keys : List String)

inductive ParseError
  | format (keys : List String)
  | malformed (i : ℕ)
  | count (vectors inputs : ℕ)

def ParseError.message : ParseError → String
  | .format keys => "Unexpected embedding API response format. Expected OpenAI (\x7b data: [...] \x7d) or Ollama " ++
      "(\x7b embeddings: [...] \x7d) format, got keys: [" ++ ", ".intercalate keys ++ "]"
  | .malformed i => "Embedding response item " ++ toString i ++ " is not a non-empty numeric array — malformed " ++
      "response, refusing to store a mis-shaped vector."
  | .count vectors inputs => "Embedding response returned " ++ toString vectors ++ " vectors for " ++ toString inputs ++
      " inputs — count mismatch, refusing to mis-align vectors to inputs."

/-- `index ?? 0` -/
def Item.position (item : Item) : ℚ :=
  item.index.getD 0

def Value.isNumber : Value → Bool
  | .number _ => true
  | _ => false

/-- A non-empty list of finite numbers. -/
def Value.isVector : Value → Bool
  | .array entries => !entries.isEmpty && entries.all isNumber
  | _ => false

/-- The items by their index; items with one index stay in their order. -/
def sorted (data : List Item) : List Item :=
  data.insertionSort fun a b => a.position ≤ b.position

/-- The checks of `parseEmbeddingResponse`. -/
def checked (vectors : List Value) (expectedCount : ℕ) : Except ParseError (List Value) :=
  match vectors.findIdx? fun v => !v.isVector with
  | some i => .error (.malformed i)
  | none => if vectors.length = expectedCount then .ok vectors else .error (.count vectors.length expectedCount)

def parseEmbeddingResponse (data : Response) (expectedCount : ℕ) : Except ParseError (List Value) :=
  match data with
  | .openAi data => checked ((sorted data).map Item.embedding) expectedCount
  | .ollama embeddings => checked embeddings expectedCount
  | .legacy embedding => checked [.array embedding] expectedCount
  | .unexpected keys => .error (.format keys)

/-! ## Vectors and inputs -/

variable {data : List Item} {n : ℕ}

/-- Each input gets the vector of an item with its index, or the response is refused. -/
def Aligned (data : List Item) (n : ℕ) : Prop :=
  match parseEmbeddingResponse (.openAi data) n with
  | .ok vectors => vectors.length = n ∧
      ∀ i < n, ∃ item ∈ data, item.index = some (i : ℚ) ∧ vectors[i]? = some item.embedding
  | .error _ => True

/-- A response that is not refused. -/
def Accepted (data : List Item) (n : ℕ) : Prop :=
  data.length = n ∧ ∀ item ∈ data, item.embedding.isVector = true

instance : Decidable (Accepted data n) :=
  inferInstanceAs (Decidable (_ ∧ _))

lemma perm_sorted (data : List Item) : (sorted data).Perm data :=
  perm_insertionSort ..

lemma parse_openAi (data : List Item) (n : ℕ) :
    (Accepted data n → parseEmbeddingResponse (.openAi data) n = .ok ((sorted data).map Item.embedding)) ∧
      (¬ Accepted data n → ∃ e, parseEmbeddingResponse (.openAi data) n = .error e) := by
  have hlength : ((sorted data).map Item.embedding).length = data.length := by
    rw [length_map, (perm_sorted data).length_eq]
  have hvectors : ((sorted data).map Item.embedding).findIdx? (fun v => !v.isVector) = none ↔
      ∀ item ∈ data, item.embedding.isVector = true := by
    simp [findIdx?_eq_none_iff, (perm_sorted data).mem_iff]
  simp only [parseEmbeddingResponse, checked, Accepted, ← hvectors, hlength]
  cases ((sorted data).map Item.embedding).findIdx? fun v => !v.isVector <;> simp +contextual

lemma position_sorted (hlength : data.length = n) (hindexes : ∀ i < n, ∃ item ∈ data, item.index = some (i : ℚ)) :
    (sorted data).map Item.position = (List.range n).map fun i : ℕ => (i : ℚ) := by
  have hnodup : ((List.range n).map fun i : ℕ => (i : ℚ)).Nodup := nodup_range.map Nat.cast_injective
  have hsubset : (List.range n).map (fun i : ℕ => (i : ℚ)) ⊆ (sorted data).map Item.position := by
    intro q hq
    obtain ⟨i, hi, rfl⟩ := mem_map.1 hq
    obtain ⟨item, hitem, hindex⟩ := hindexes i (mem_range.1 hi)
    exact mem_map.2 ⟨item, (perm_sorted data).mem_iff.2 hitem, by simp [Item.position, hindex]⟩
  have hperm := (subperm_of_subset hnodup hsubset).perm_of_length_le (by simp [(perm_sorted data).length_eq, hlength])
  refine hperm.symm.eq_of_pairwise (fun (a b : ℚ) _ _ (hab : a ≤ b) hba => le_antisymm hab hba) ?_ ?_
  · exact pairwise_map.2 (pairwise_insertionSort ..)
  · exact pairwise_map.2 (pairwise_lt_range.imp fun h => Nat.cast_le.2 h.le)

/-- Each input gets its own vector exactly if the response is refused, or has an item for each index. -/
theorem aligned_iff (hcarried : ∀ item ∈ data, item.index.isSome) (n : ℕ) :
    Aligned data n ↔ (Accepted data n → ∀ i < n, ∃ item ∈ data, item.index = some (i : ℚ)) := by
  obtain ⟨hok, herror⟩ := parse_openAi data n
  unfold Aligned
  by_cases haccepted : Accepted data n
  · rw [hok haccepted]
    constructor
    · rintro ⟨-, h⟩ - i hi
      obtain ⟨item, hitem, hindex, -⟩ := h i hi
      exact ⟨item, hitem, hindex⟩
    · intro h
      have hlength : (sorted data).length = n := (perm_sorted data).length_eq.trans haccepted.1
      refine ⟨(length_map _).trans hlength, fun i hi => ?_⟩
      have hi' : i < (sorted data).length := hlength.symm ▸ hi
      have hitem := (perm_sorted data).mem_iff.1 (getElem_mem hi')
      refine ⟨(sorted data)[i], hitem, ?_, by rw [getElem?_map, getElem?_eq_getElem hi']; rfl⟩
      -- the item at `i` has that index
      have hposition := congrArg (·[i]?) (position_sorted haccepted.1 (h haccepted))
      obtain ⟨q, hq⟩ := Option.isSome_iff_exists.1 (hcarried _ hitem)
      simp only [getElem?_map, getElem?_eq_getElem hi', getElem?_range hi, Option.map_some,
        Item.position, hq, Option.getD_some, Option.some.injEq] at hposition
      rw [hq, hposition]
  · obtain ⟨e, he⟩ := herror haccepted
    rw [he]
    exact ⟨fun _ h => absurd h haccepted, fun _ => trivial⟩

theorem aligned_swapped : Aligned [⟨some 1, .array [.number 2]⟩, ⟨some 0, .array [.number 3]⟩] 2 := by
  refine (aligned_iff (by decide) 2).2 fun _ i hi => ?_
  rcases i with _ | _ | i
  · exact ⟨_, .tail _ (.head _), rfl⟩
  · exact ⟨_, .head _, rfl⟩
  · omega

/-- Both items have the index 0, and the second input gets the vector of one of them. -/
theorem not_aligned_repeatedIndex : ¬ ∀ data : List Item, (∀ item ∈ data, item.index.isSome) → ∀ n, Aligned data n := by
  intro h
  have haligned := h [⟨some 0, .array [.number 2]⟩, ⟨some 0, .array [.number 3]⟩] (by decide) 2
  obtain ⟨item, hitem, hindex, -⟩ := haligned.2 1 (by decide)
  simp only [mem_cons, not_mem_nil, or_false] at hitem
  rcases hitem with rfl | rfl <;> simp at hindex

end Embeddings
