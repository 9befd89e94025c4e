import Dethernety.FlatKeys.PlainForm

/-!
# Reading plain keys back

`parseFlatKey` reads the parts back that a plain key was made of, if each is within the limits: the
names are not empty, hold no dot or bracket and are not reserved, and the indexes are not above the
maximum.
-/

open List Nat

namespace FlatKeys

/-- A name that a key can hold as one part. -/
def PlainName (n : Key) : Prop :=
  n ≠ [] ∧ (∀ u ∈ n, isPlain u = true) ∧ n ∉ reserved

instance (n : Key) : Decidable (PlainName n) :=
  inferInstanceAs (Decidable (n ≠ [] ∧ (∀ u ∈ n, isPlain u = true) ∧ n ∉ reserved))

/-- A part that is read back from its text. -/
def Segment.Plain : Segment → Prop
  | name n => PlainName n
  | index i => i ≤ maxIndex

/-- The decimal digits of an index. -/
def digitsOf (i : ℕ) : Key :=
  (Nat.toDigits 10 i).map Char.toNat

lemma digitsOf_ne_nil (i : ℕ) : digitsOf i ≠ [] := by
  rw [digitsOf, ne_eq, map_eq_nil_iff]
  exact toDigits_ne_nil

lemma isDigit_of_mem_digitsOf {i u : ℕ} (h : u ∈ digitsOf i) : isDigit u = true := by
  obtain ⟨c, hc, rfl⟩ := mem_map.1 h
  have hdigit := isDigit_of_mem_toDigits (by decide) (by decide) hc
  rw [Char.isDigit, Bool.and_eq_true_iff, decide_eq_true_eq, decide_eq_true_eq] at hdigit
  have hlow : 48 ≤ c.toNat := hdigit.1
  have hhigh : c.toNat ≤ 57 := hdigit.2
  rw [isDigit, decide_eq_true_eq]
  exact ⟨hlow, hhigh⟩

lemma number_digitsOf (i : ℕ) : number (digitsOf i) = i := by
  have h : Nat.ofDigitChars 10 (Nat.toDigits 10 i) 0 = i := ofDigitChars_ten_toDigits
  rw [ofDigitChars_eq_foldl] at h
  rw [number, digitsOf, foldl_map]
  exact h

lemma length_digitsOf_le {i : ℕ} (h : i ≤ maxIndex) : (digitsOf i).length ≤ (Nat.toDigits 10 maxIndex).length := by
  have hfive : (Nat.toDigits 10 maxIndex).length = 5 := by decide
  rw [hfive, digitsOf, length_map, length_toDigits_le_iff (by decide) (by decide)]
  have hmax : maxIndex = 10000 := rfl
  omega

lemma head?_digitsOf {i : ℕ} (h : 0 < i) : (digitsOf i).head? ≠ some 48 := by
  induction i using Nat.strong_induction_on with
  | _ i ih =>
    by_cases hi : i < 10
    · rw [digitsOf, Nat.toDigits_of_lt_base hi]
      have hchar := Nat.toNat_digitChar_sub_48_of_lt_ten hi
      intro heq
      have hzero : i.digitChar.toNat = 48 := Option.some.inj heq
      omega
    · have hle : 10 ≤ i := Nat.le_of_not_lt hi
      have hdiv : 0 < i / 10 := Nat.div_pos hle (by decide)
      have hrest := ih (i / 10) (Nat.div_lt_self h (by decide)) hdiv
      have hsplit : digitsOf i = digitsOf (i / 10) ++ [(i % 10).digitChar.toNat] := by
        rw [digitsOf, Nat.toDigits_of_base_le (by decide) hle, map_append]
        rfl
      rw [hsplit, head?_append_of_ne_nil _ (digitsOf_ne_nil _)]
      exact hrest

lemma stripZeros_digitsOf (i : ℕ) : stripZeros (digitsOf i) = digitsOf i := by
  by_cases hi : i = 0
  · rw [hi]
    rfl
  · have hhead := head?_digitsOf (Nat.pos_of_ne_zero hi)
    generalize digitsOf i = ds at hhead
    match ds with
    | [] | [u] => rfl
    | u :: u' :: ds =>
      have hu : u ≠ 48 := fun hu => hhead (congrArg some hu)
      rw [stripZeros, if_neg hu]

/-- The match that a part is read from. -/
def matchOf : Segment → Match
  | .name n => .name n
  | .index i => .digits (digitsOf i)

lemma segmentOf_matchOf {segment : Segment} (h : segment.Plain) : segmentOf (matchOf segment) = .ok segment := by
  cases segment with
  | name n => rw [matchOf, segmentOf, if_neg h.2.2]
  | index i =>
    have hle : i ≤ maxIndex := h
    simp only [matchOf, segmentOf, stripZeros_digitsOf, number_digitsOf]
    rw [if_neg]
    rintro (hlength | hindex)
    · exact absurd (length_digitsOf_le hle) (not_le_of_gt hlength)
    · exact absurd hle (not_le_of_gt hindex)

lemma parseMatches_map {path : List Segment} : ∀ {segments : List Segment},
    (∀ s ∈ path, s.Plain) → (segments ++ path).length ≤ maxSegments →
      parseMatches segments (path.map matchOf) = .ok (segments ++ path) := by
  induction path with
  | nil =>
    intro segments _ _
    rw [map_nil, parseMatches, append_nil]
  | cons segment path ih =>
    intro segments hplain hlength
    have hsplit : segments ++ segment :: path = (segments ++ [segment]) ++ path := by
      rw [append_assoc, singleton_append]
    rw [hsplit] at hlength ⊢
    have hshort : ¬ (segments ++ [segment]).length > maxSegments := by
      rw [length_append] at hlength
      omega
    rw [map_cons, parseMatches, segmentOf_matchOf (hplain segment (.head _))]
    simp only [if_neg hshort]
    exact ih (fun s hs => hplain s (.tail _ hs)) hlength

lemma matchAll_name {n rest : Key} (hne : n ≠ []) (hplain : ∀ u ∈ n, isPlain u = true)
    (hrest : ∀ u, rest.head? = some u → isPlain u = false) : matchAll (n ++ rest) = .name n :: matchAll rest := by
  obtain ⟨u, n, rfl⟩ := exists_cons_of_ne_nil hne
  have hu := hplain u (.head _)
  have hn : ∀ u ∈ n, isPlain u = true := fun u hmem => hplain u (.tail _ hmem)
  have htake : (n ++ rest).takeWhile isPlain = n := by
    rw [takeWhile_append_of_pos hn]
    cases rest with
    | nil => exact append_nil n
    | cons v rest =>
      rw [takeWhile_cons, hrest v rfl]
      exact append_nil n
  have hdrop : (n ++ rest).dropWhile isPlain = rest := by
    rw [dropWhile_append_of_pos hn]
    cases rest with
    | nil => rfl
    | cons v rest =>
      rw [dropWhile_cons, hrest v rfl]
      rfl
  rw [cons_append, matchAll, if_pos hu, htake, hdrop]

lemma matchAll_dot (rest : Key) : matchAll (dot :: rest) = matchAll rest := by
  rw [matchAll, if_neg (by decide), if_neg]
  exact fun h => absurd h.1 (by decide)

lemma matchAll_index (i : ℕ) (rest : Key) :
    matchAll (plainPart (.index i) ++ rest) = .digits (digitsOf i) :: matchAll rest := by
  have hdigits : ∀ u ∈ digitsOf i, isDigit u = true := fun u => isDigit_of_mem_digitsOf
  have hkey : plainPart (.index i) ++ rest = openBracket :: (digitsOf i ++ closeBracket :: rest) := by
    rw [plainPart, cons_append, append_assoc]
    rfl
  have htake : (digitsOf i ++ closeBracket :: rest).takeWhile isDigit = digitsOf i := by
    rw [takeWhile_append_of_pos hdigits]
    exact append_nil _
  have hdrop : (digitsOf i ++ closeBracket :: rest).dropWhile isDigit = closeBracket :: rest := by
    rw [dropWhile_append_of_pos hdigits]
    rfl
  rw [hkey, matchAll, if_neg (by decide), if_pos, htake, hdrop]
  · rfl
  · rw [htake, hdrop]
    exact ⟨rfl, digitsOf_ne_nil i, rfl⟩

lemma head?_flatMap_plainPart (path : List Segment) (u : ℕ)
    (h : (path.flatMap plainPart).head? = some u) : isPlain u = false := by
  cases path with
  | nil => cases h
  | cons segment path =>
    cases segment with
    | name n =>
      obtain rfl : dot = u := Option.some.inj h
      decide
    | index i =>
      obtain rfl : openBracket = u := Option.some.inj h
      decide

lemma matchAll_flatMap {path : List Segment} (hplain : ∀ s ∈ path, s.Plain) :
    matchAll (path.flatMap plainPart) = path.map matchOf := by
  induction path with
  | nil => rw [flatMap_nil, matchAll, map_nil]
  | cons segment path ih =>
    have hrest := ih fun s hs => hplain s (.tail _ hs)
    rw [flatMap_cons, map_cons, ← hrest]
    cases segment with
    | name n =>
      obtain ⟨hne, hunits, -⟩ : PlainName n := hplain _ (.head _)
      rw [plainPart, cons_append, matchAll_dot, matchAll_name hne hunits (head?_flatMap_plainPart path)]
      rfl
    | index i => exact matchAll_index i _

/-- A path within the limits that starts with a name is read back from its plain form. -/
theorem parseFlatKey_plainKey {n : Key} {path : List Segment} (hn : PlainName n)
    (hplain : ∀ s ∈ path, s.Plain) (hlength : path.length + 1 ≤ maxSegments) :
    parseFlatKey (plainKey (.name n :: path)) = .ok (.name n :: path) := by
  have hmatches : matchAll (plainKey (.name n :: path)) = (Segment.name n :: path).map matchOf := by
    rw [plainKey, matchAll_name hn.1 hn.2.1 (head?_flatMap_plainPart path),
      matchAll_flatMap hplain, map_cons]
    rfl
  have hall : ∀ s ∈ Segment.name n :: path, s.Plain := by
    intro s hs
    obtain rfl | hs := mem_cons.1 hs
    · exact hn
    · exact hplain s hs
  have hparse : parseMatches [] ((Segment.name n :: path).map matchOf) = .ok ([] ++ _) :=
    parseMatches_map hall (by simpa using hlength)
  rw [parseFlatKey, hmatches, hparse]
  rfl

end FlatKeys
