import Dethernety.ThreatReport.ZoningPolicy

/-!
# The effect of conduits

What the verdict on a flow takes from the declared conduits: whether one covers the crossing, and
whether one that does is illegal as declared. More conduits can only lower the severity of a
verdict, and only where an added one covers the flow.
-/

open List

namespace ThreatReport

open Zoning (Zone)

section

variable (S T : Endpoint)

/-- What a conduit is for on a crossing: the verdict with one that covers it and that without. -/
inductive ConduitRole : Option VerdictKind → Option VerdictKind → Prop
  | indifferent (k : Option VerdictKind) : ConduitRole k k
  /-- A required conduit. -/
  | required : ConduitRole (some .allowed) (some .warning)
  /-- The approved channel out of the modelled system. -/
  | channel {k : VerdictKind} (hk : k = .allowed ∨ k = .warning)
      (hout : isExternal S.zone = false ∧ isExternal T.zone = true) :
      ConduitRole (some k) (some .violation)

/-- The verdict of a classifier has the kinds of a role, whatever the clause for violations. -/
def HasRole (f : Bool → ConduitClause → Verdict) : Prop :=
  ∃ k₁ k₀, ConduitRole S T k₁ k₀ ∧
    ∀ conduit clause, (f conduit clause).verdict = if conduit then k₁ else k₀

variable {S T}

variable {f : Bool → ConduitClause → Verdict}

lemma HasRole.indifferent (k : Option VerdictKind)
    (h : ∀ conduit clause, (f conduit clause).verdict = k) : HasRole S T f :=
  ⟨k, k, .indifferent k, fun conduit clause => by rw [h, ite_self]⟩

lemma HasRole.required (h : ∀ conduit clause, (f conduit clause).verdict =
      if conduit then some .allowed else some .warning) : HasRole S T f :=
  ⟨_, _, .required, h⟩

lemma HasRole.channel {k : VerdictKind} (hk : k = .allowed ∨ k = .warning)
    (hout : isExternal S.zone = false ∧ isExternal T.zone = true)
    (h : ∀ conduit clause, (f conduit clause).verdict =
      if conduit then some k else some .violation) : HasRole S T f :=
  ⟨_, _, .channel hk hout, h⟩

variable (S T)

lemma typeAxisIngress_role : HasRole S T fun conduit clause => typeAxisIngress conduit clause S T := by
  simp only [typeAxisIngress]
  by_cases hs : S.zone = .untrusted
  · simp only [if_pos hs]
    by_cases hp : T.zone = .publicZone
    · exact .indifferent (some .allowed) fun _ _ => by rw [if_pos hp]; rfl
    · by_cases he : T.zone = .exposed
      · refine .required fun conduit clause => ?_
        rw [if_neg hp, if_pos he]
        cases conduit <;> rfl
      · exact .indifferent (some .violation) fun _ _ => by rw [if_neg hp, if_neg he]; rfl
  · simp only [if_neg hs]
    by_cases hp : T.zone = .publicZone
    · exact .indifferent (some .allowed) fun _ _ => by rw [if_pos hp]; rfl
    · by_cases he : T.zone = .exposed ∨ T.zone = .internal
      · refine .required fun conduit clause => ?_
        rw [if_neg hp, if_pos he]
        cases conduit <;> rfl
      · exact .indifferent (some .violation) fun _ _ => by rw [if_neg hp, if_neg he]; rfl

lemma typeAxisEgress_role (hout : isExternal S.zone = false ∧ isExternal T.zone = true) :
    HasRole S T fun conduit _ => typeAxisEgress conduit S T := by
  simp only [typeAxisEgress]
  by_cases ht : T.zone = .untrusted
  · simp only [if_pos ht]
    by_cases hs : S.zone = .internal ∨ S.zone = .restricted
    · refine .channel (.inr rfl) hout fun conduit _ => ?_
      rw [if_pos hs]
      cases conduit <;> rfl
    · exact .indifferent none fun _ _ => by rw [if_neg hs]; rfl
  · refine .channel (.inl rfl) hout fun conduit _ => ?_
    rw [if_neg ht]
    cases conduit <;> rfl

lemma managementLens_role : HasRole S T fun conduit _ => managementLens conduit S T := by
  simp only [managementLens]
  by_cases h : T.zone = .restricted ∧ S.zone ≠ .restricted ∧ hasMgmt S.planes = true
  · exact .indifferent (some .advisory) fun _ _ => by rw [if_pos h]; rfl
  · refine .required fun conduit _ => ?_
    rw [if_neg h]
    cases conduit <;> rfl

lemma zonePairMatrix_role : HasRole S T fun conduit clause => zonePairMatrix conduit clause S T := by
  simp only [zonePairMatrix]
  by_cases hd : sameDomain S.domains T.domains = true
  · simp only [if_pos hd]
    by_cases hup : tierRank T.zone - tierRank S.zone ≥ 2
    · exact .indifferent (some .violation) fun _ _ => by rw [if_pos hup]; rfl
    · exact .indifferent (some .allowed) fun _ _ => by rw [if_neg hup]; rfl
  · simp only [if_neg hd]
    by_cases hr : T.zone = .restricted
    · exact .indifferent (some .violation) fun _ _ => by rw [if_pos hr]; rfl
    · by_cases hup : tierRank T.zone - tierRank S.zone ≥ 2
      · exact .indifferent (some .violation) fun _ _ => by rw [if_neg hr, if_pos hup]; rfl
      · refine .required fun conduit clause => ?_
        rw [if_neg hr, if_neg hup]
        cases conduit <;> rfl

lemma classify_role : HasRole S T fun conduit clause => classify conduit clause S T := by
  simp only [classify]
  by_cases hext : (isExternal S.zone || isExternal T.zone) = true
  · simp only [if_pos hext]
    by_cases hboth : (isExternal S.zone && isExternal T.zone) = true
    · exact .indifferent none fun _ _ => by rw [if_pos hboth]; rfl
    · simp only [if_neg hboth]
      by_cases hs : isExternal S.zone = true
      · simpa only [if_pos hs] using typeAxisIngress_role S T
      · have hout : isExternal S.zone = false ∧ isExternal T.zone = true := by
          simpa [Bool.not_eq_true _ ▸ hs] using hext
        simpa only [if_neg hs] using typeAxisEgress_role S T hout
  · simp only [if_neg hext]
    by_cases hm : isMgmtFlow S T = true
    · simpa only [if_pos hm] using managementLens_role S T
    · simp only [if_neg hm]
      by_cases hdown : tierRank T.zone < tierRank S.zone
      · simp only [if_pos hdown]
        by_cases hr : S.zone = .restricted
        · exact .indifferent (some .advisory) fun _ _ => by rw [if_pos hr]; rfl
        · exact .indifferent none fun _ _ => by rw [if_neg hr]; rfl
      · simpa only [if_neg hdown] using zonePairMatrix_role S T

lemma classify_verdict_clause (conduit : Bool) (clause clause' : ConduitClause) :
    (classify conduit clause S T).verdict = (classify conduit clause' S T).verdict := by
  obtain ⟨k₁, k₀, -, h⟩ := classify_role S T
  rw [h, h]

variable {conduit' : Bool}

lemma rankOf_classify_le {conduit : Bool} (hle : conduit = true → conduit' = true)
    (clause clause' : ConduitClause) :
    rankOf (classify conduit' clause' S T).verdict ≤ rankOf (classify conduit clause S T).verdict := by
  obtain ⟨k₁, k₀, hrole, h⟩ := classify_role S T
  have hroles : rankOf k₁ ≤ rankOf k₀ := by
    cases hrole with
    | indifferent => exact Nat.le_refl _
    | required => decide
    | channel hk hout =>
      obtain rfl | rfl := hk
      all_goals decide
  rw [h, h]
  cases conduit with
  | true =>
    obtain rfl := hle rfl
    exact Nat.le_refl _
  | false =>
    cases conduit' with
    | true => exact hroles
    | false => exact Nat.le_refl _

/-- A covering conduit lifts a violation only on the way out of the modelled system. -/
lemma classify_violation_of_covered {conduit : Bool} {clause : ConduitClause}
    (clause' : ConduitClause) (hle : conduit = true → conduit' = true)
    (hin : ¬ (isExternal S.zone = false ∧ isExternal T.zone = true))
    (hv : (classify conduit clause S T).verdict = some .violation) :
    (classify conduit' clause' S T).verdict = some .violation := by
  obtain ⟨k₁, k₀, hrole, h⟩ := classify_role S T
  rw [h] at hv ⊢
  cases hrole with
  | indifferent => simpa only [ite_self] using hv
  | required => cases conduit <;> cases hv
  | channel hk hout => exact absurd hout hin

/-- The fields of a verdict that follow from its kind and its ends. -/
structure Judged (conduit : Bool) (clause : ConduitClause) (v : Verdict) : Prop where
  verdictRank : v.verdictRank = rankOf v.verdict
  srcZone : v.srcZone = S.zone
  tgtZone : v.tgtZone = T.zone
  /-- A violation has the clause for violations, except one that a covering conduit would lift. -/
  conduitClause : v.verdict = some .violation →
    v.conduitClause = clause ∨ (conduit = false ∧ v.conduitClause = .none)

variable {S T} {conduit : Bool} {clause : ConduitClause}

variable {r : DomainRel} {k : Option VerdictKind} {d : Option String} {c : ConduitClause}

lemma judged_mk (hc : k = some .violation → c = clause ∨ (conduit = false ∧ c = .none)) :
    Judged S T conduit clause (mk S T r k c d) :=
  ⟨rfl, rfl, rfl, hc⟩

lemma judged_mk_of_ne (hk : k ≠ some .violation) : Judged S T conduit clause (mk S T r k c d) :=
  judged_mk fun h => absurd h hk

lemma judged_mk_clause : Judged S T conduit clause (mk S T r k clause d) :=
  judged_mk fun _ => .inl rfl

lemma judged_typeAxisIngress : Judged S T conduit clause (typeAxisIngress conduit clause S T) := by
  simp only [typeAxisIngress]
  split_ifs <;> first | exact judged_mk_clause | exact judged_mk_of_ne nofun

lemma judged_typeAxisEgress : Judged S T conduit clause (typeAxisEgress conduit S T) := by
  simp only [typeAxisEgress]
  cases conduit with
  | true =>
    simp only [if_true]
    split_ifs <;> exact judged_mk_of_ne nofun
  | false =>
    simp only [Bool.false_eq_true, if_false]
    split_ifs <;> exact judged_mk fun _ => .inr ⟨rfl, rfl⟩

lemma judged_managementLens : Judged S T conduit clause (managementLens conduit S T) := by
  simp only [managementLens]
  split_ifs <;> exact ⟨rfl, rfl, rfl, nofun⟩

lemma judged_zonePairMatrix : Judged S T conduit clause (zonePairMatrix conduit clause S T) := by
  simp only [zonePairMatrix]
  split_ifs <;> first | exact judged_mk_clause | exact judged_mk_of_ne nofun

lemma judged_classify : Judged S T conduit clause (classify conduit clause S T) := by
  simp only [classify]
  split_ifs
  · exact judged_mk_of_ne nofun
  · exact judged_typeAxisIngress
  · exact judged_typeAxisEgress
  · exact judged_managementLens
  · exact judged_mk_of_ne nofun
  · exact judged_mk_of_ne nofun
  · exact judged_zonePairMatrix

end

section

/-- A boundary `p` of the graph declares an outbound conduit to `q`. -/
def Declares (mg : ModelGraph) (p q : String) : Prop :=
  ∃ b ∈ mg.boundaries, b.id = p ∧ ∃ c ∈ b.conduits, c.peerId = q ∧ q ≠ "" ∧ c.direction = .outbound

/-- The boundary `id` is `p` or is nested in it. -/
def AtOrUnder (mg : ModelGraph) (p id : String) : Prop :=
  Relation.ReflTransGen (fun a b => parentOf mg a = some b) id p

lemma conduitKey_inj {p q p' q' : String} (hp : '>' ∉ p.toList) (hp' : '>' ∉ p'.toList)
    (h : conduitKey p q = conduitKey p' q') : p = p' ∧ q = q' := by
  have hchars : p.toList ++ '>' :: q.toList = p'.toList ++ '>' :: q'.toList := by
    simpa [conduitKey] using congrArg String.toList h
  -- the source is what comes before the first separator
  have htake : ∀ {l : List Char} (r : List Char), '>' ∉ l →
      (l ++ '>' :: r).takeWhile (· ≠ '>') = l := by
    intro l r hl
    rw [takeWhile_append_of_pos]
    · simp
    · exact fun c hc => by simpa using ne_of_mem_of_not_mem hc hl
  have hsource : p.toList = p'.toList := by
    rw [← htake q.toList hp, hchars, htake q'.toList hp']
  rw [hsource] at hchars
  exact ⟨String.toList_inj.1 hsource,
    String.toList_inj.1 (List.cons.inj (append_cancel_left hchars)).2⟩

variable {mg : ModelGraph}

/-- The entries of a list of conduits are keyed by their ends. -/
def Keyed (list : List DeclaredConduit) : Prop :=
  ∀ c ∈ list, c.key = conduitKey c.source c.peer ∧ '>' ∉ c.source.toList

variable {list : List DeclaredConduit}

lemma keyed_addConduit (h : Keyed list) (b : ModelGraphBoundary)
    (c : Conduit) : Keyed (addConduit b list c) := by
  unfold addConduit
  split_ifs
  · exact h
  · exact h
  · intro d hd
    obtain hd | hd := mem_append.1 hd
    · exact h d hd
    · obtain rfl := mem_singleton.1 hd
      exact ⟨rfl, b.notMem_id⟩

lemma mem_addConduit (h : Keyed list) (b : ModelGraphBoundary)
    (c : Conduit) (p q : String) :
    (∃ d ∈ addConduit b list c, d.source = p ∧ d.peer = q) ↔
      (∃ d ∈ list, d.source = p ∧ d.peer = q) ∨ (b.id = p ∧ c.peerId = q ∧ q ≠ "" ∧ c.direction = .outbound) := by
  unfold addConduit
  split_ifs with hskip hseen
  · -- the conduit does not count
    refine ⟨.inl, ?_⟩
    rintro (hold | ⟨-, rfl, hne, hdir⟩)
    · exact hold
    · obtain hempty | hin := hskip
      · exact absurd hempty hne
      · exact absurd hdir hin
  · -- its key is there, and so are its ends
    refine ⟨.inl, ?_⟩
    rintro (hold | ⟨rfl, rfl, -⟩)
    · exact hold
    · obtain ⟨d, hd, hkey⟩ := mem_map.1 hseen
      obtain ⟨hdkey, hdsep⟩ := h d hd
      exact ⟨d, hd, conduitKey_inj hdsep b.notMem_id (hdkey.symm.trans hkey)⟩
  · obtain ⟨hne, hdir⟩ := not_or.1 hskip
    constructor
    · rintro ⟨d, hd, rfl, rfl⟩
      obtain hd | hd := mem_append.1 hd
      · exact .inl ⟨d, hd, rfl, rfl⟩
      · obtain rfl := mem_singleton.1 hd
        exact .inr ⟨rfl, rfl, hne, not_not.1 hdir⟩
    · rintro (⟨d, hd, hends⟩ | ⟨rfl, rfl, -⟩)
      · exact ⟨d, mem_append_left _ hd, hends⟩
      · exact ⟨_, mem_append_right _ (.head _), rfl, rfl⟩

lemma conduitList_eq (mg : ModelGraph) :
    conduitList mg = (mg.boundaries.flatMap fun b => b.conduits.map fun c => (b, c)).foldl
      (fun list e => addConduit e.1 list e.2) [] := by
  rw [foldl_flatMap, conduitList]
  simp only [foldl_map]

/-- The list has the ends of the declared conduits. -/
lemma mem_foldl_addConduit (l : List (ModelGraphBoundary × Conduit)) (h : Keyed list) :
    Keyed (l.foldl (fun list e => addConduit e.1 list e.2) list) ∧ ∀ p q,
      (∃ d ∈ l.foldl (fun list e => addConduit e.1 list e.2) list, d.source = p ∧ d.peer = q) ↔
        (∃ d ∈ list, d.source = p ∧ d.peer = q) ∨
          ∃ e ∈ l, e.1.id = p ∧ e.2.peerId = q ∧ q ≠ "" ∧ e.2.direction = .outbound := by
  induction l generalizing list with
  | nil => exact ⟨h, fun p q => by simp⟩
  | cons e l ih =>
    obtain ⟨hkeyed, hmem⟩ := ih (keyed_addConduit h e.1 e.2)
    refine ⟨hkeyed, fun p q => ?_⟩
    rw [foldl_cons, hmem, mem_addConduit h, exists_mem_cons_iff, or_assoc]

lemma keyed_conduitList (mg : ModelGraph) : Keyed (conduitList mg) := by
  rw [conduitList_eq]
  exact (mem_foldl_addConduit _ fun c hc => absurd hc not_mem_nil).1

lemma mem_conduitList_iff {p q : String} : (∃ d ∈ conduitList mg, d.source = p ∧ d.peer = q) ↔ Declares mg p q := by
  rw [conduitList_eq, (mem_foldl_addConduit _ fun c hc => absurd hc not_mem_nil).2]
  simp only [not_mem_nil, false_and, exists_false, false_or, mem_flatMap, mem_map]
  constructor
  · rintro ⟨e, ⟨b, hb, c, hc, rfl⟩, hp, hq⟩
    exact ⟨b, hb, hp, c, hc, hq⟩
  · rintro ⟨b, hb, hp, c, hc, hq⟩
    exact ⟨(b, c), ⟨b, hb, c, hc, rfl⟩, hp, hq⟩

end

section

variable {mg : ModelGraph}

/-- The ancestor of a boundary `n` levels up. -/
def ancestorAt (mg : ModelGraph) (id : String) : ℕ → Option String
  | 0 => some id
  | n + 1 => (ancestorAt mg id n).bind (parentOf mg)

variable {k : ℕ}

lemma ancestorAt_add (id : String) {j : ℕ} (h : ancestorAt mg id j = ancestorAt mg id k)
    (m : ℕ) : ancestorAt mg id (j + m) = ancestorAt mg id (k + m) := by
  induction m with
  | zero => exact h
  | succ m ih => exact congrArg (·.bind (parentOf mg)) ih

lemma exists_lt_ancestorAt (id : String) {j : ℕ} (hjk : j < k)
    (h : ancestorAt mg id j = ancestorAt mg id k) (n : ℕ) : ∃ m < k, ancestorAt mg id m = ancestorAt mg id n := by
  induction n using Nat.strongRecOn with
  | ind n ih =>
    by_cases hn : n < k
    · exact ⟨n, hn, rfl⟩
    · obtain ⟨d, rfl⟩ := Nat.exists_eq_add_of_le (Nat.le_of_not_lt hn)
      obtain ⟨m, hm, heq⟩ := ih (j + d) (by omega)
      exact ⟨m, hm, heq.trans (ancestorAt_add id h d)⟩

lemma mem_ancestorsLoop_iff (id : String) (depth : ℕ) {set : List String}
    (hset : ∀ x, x ∈ set ↔ ∃ n < k, ancestorAt mg id n = some x) (x : String) :
    x ∈ ancestorsLoop mg depth set (ancestorAt mg id k) ↔ ∃ n < k + depth, ancestorAt mg id n = some x := by
  induction depth generalizing k set with
  | zero => exact hset x
  | succ depth ih =>
    -- what the levels below `k` have is there with more levels
    have hmono : (∃ n < k, ancestorAt mg id n = some x) →
        ∃ n < k + (depth + 1), ancestorAt mg id n = some x :=
      fun ⟨n, hn, hx⟩ => ⟨n, by omega, hx⟩
    cases hcur : ancestorAt mg id k with
    | none =>
      -- nothing is above the top
      have htop : ancestorAt mg id k = ancestorAt mg id (k + 1) := by rw [ancestorAt, hcur]; rfl
      refine (hset x).trans ⟨hmono, fun ⟨n, _, hx⟩ => ?_⟩
      obtain ⟨m, hm, heq⟩ := exists_lt_ancestorAt id (Nat.lt_succ_self k) htop n
      obtain hlt | rfl := Nat.lt_succ_iff_lt_or_eq.1 hm
      · exact ⟨m, hlt, heq.trans hx⟩
      · cases hcur.symm.trans (heq.trans hx)
    | some y =>
      rw [ancestorsLoop]
      split_ifs with hseen
      · -- the chain has come back
        obtain ⟨j, hj, hy⟩ := (hset y).1 hseen
        refine (hset x).trans ⟨hmono, fun ⟨n, _, hx⟩ => ?_⟩
        obtain ⟨m, hm, heq⟩ := exists_lt_ancestorAt id hj (hy.trans hcur.symm) n
        exact ⟨m, hm, heq.trans hx⟩
      · have hset' : ∀ z, z ∈ set ++ [y] ↔ ∃ n < k + 1, ancestorAt mg id n = some z := by
          intro z
          rw [mem_append, mem_singleton, hset]
          constructor
          · rintro (⟨n, hn, hz⟩ | rfl)
            · exact ⟨n, Nat.lt_succ_of_lt hn, hz⟩
            · exact ⟨k, Nat.lt_succ_self k, hcur⟩
          · rintro ⟨n, hn, hz⟩
            obtain hlt | rfl := Nat.lt_succ_iff_lt_or_eq.1 hn
            · exact .inl ⟨n, hlt, hz⟩
            · exact .inr (Option.some.inj (hz.symm.trans hcur))
        have hnext : parentOf mg y = ancestorAt mg id (k + 1) := by rw [ancestorAt, hcur]; rfl
        rw [hnext, ih hset', Nat.add_right_comm, Nat.add_assoc]

/-- `ancestorsOf` has a boundary and its ancestors below the depth limit. -/
lemma mem_ancestorsOf_iff {p id : String} :
    p ∈ ancestorsOf mg id ↔ ∃ n < maxAncestorDepth, ancestorAt mg id n = some p := by
  have hnone : ∀ x, x ∈ ([] : List String) ↔ ∃ n < 0, ancestorAt mg id n = some x := fun x => by simp
  have hloop := mem_ancestorsLoop_iff id maxAncestorDepth hnone p
  rwa [Nat.zero_add] at hloop

/-- What `ancestorsOf` returns is above. -/
lemma atOrUnder_of_mem_ancestorsOf {p id : String} (h : p ∈ ancestorsOf mg id) : AtOrUnder mg p id := by
  obtain ⟨n, -, hp⟩ := mem_ancestorsOf_iff.1 h
  clear h
  induction n generalizing p with
  | zero =>
    cases hp
    exact .refl
  | succ n ih =>
    obtain ⟨q, hq, hparent⟩ := Option.bind_eq_some_iff.1 hp
    exact .tail (ih hq) hparent

lemma self_mem_ancestorsOf (id : String) : id ∈ ancestorsOf mg id :=
  mem_ancestorsOf_iff.2 ⟨0, by decide, rfl⟩

/-- A conduit from `p` to `q` covers the crossing from `sB` to `tB`: `p` is `sB` or one of its
ancestors, and `q` is `tB` or one of its ancestors. -/
def Covers (mg : ModelGraph) (sB tB p q : String) : Prop :=
  p ∈ ancestorsOf mg sB ∧ q ∈ ancestorsOf mg tB

variable {sB tB : String}

lemma hasConduit_iff :
    hasConduit mg sB tB = true ↔ ∃ p q, Declares mg p q ∧ Covers mg sB tB p q := by
  simp only [hasConduit, Bool.not_eq_true', isEmpty_eq_false_iff_exists_mem, coveringConduits,
    mem_filter, decide_eq_true_eq, ← mem_conduitList_iff, Covers]
  constructor
  · rintro ⟨d, hd, hcov⟩
    exact ⟨_, _, ⟨d, hd, rfl, rfl⟩, hcov⟩
  · rintro ⟨_, _, ⟨d, hd, rfl, rfl⟩, hcov⟩
    exact ⟨d, hd, hcov⟩

variable {illegal : List String}

lemma violationConduitClause_eq_error_iff : violationConduitClause mg illegal sB tB = .error ↔
      ∃ p q, Declares mg p q ∧ Covers mg sB tB p q ∧ conduitKey p q ∈ illegal := by
  have herror : violationConduitClause mg illegal sB tB = .error ↔
      ∃ d ∈ coveringConduits mg sB tB, d.key ∈ illegal := by
    unfold violationConduitClause
    split_ifs with h
    all_goals simpa using h
  simp only [herror, coveringConduits, mem_filter, decide_eq_true_eq, ← mem_conduitList_iff, Covers]
  constructor
  · rintro ⟨d, ⟨hd, hcov⟩, hkey⟩
    exact ⟨_, _, ⟨d, hd, rfl, rfl⟩, hcov, (keyed_conduitList mg d hd).1 ▸ hkey⟩
  · rintro ⟨_, _, ⟨d, hd, rfl, rfl⟩, hcov, hkey⟩
    exact ⟨d, ⟨hd, hcov⟩, (keyed_conduitList mg d hd).1.symm ▸ hkey⟩

lemma violationConduitClause_of_ne
    (h : violationConduitClause mg illegal sB tB ≠ .error) : violationConduitClause mg illegal sB tB = .none := by
  unfold violationConduitClause at h ⊢
  split_ifs with hany
  · rw [if_pos hany] at h
    exact absurd rfl h
  · rfl

end

section

variable {mg : ModelGraph} {effectiveZones : EffectiveZones}

/-- A conduit from `p` to `q` authorizes a crossing that is a violation. -/
def Illegal (mg : ModelGraph) (effectiveZones : EffectiveZones) (p q : String) : Prop :=
  (classify true .none (endpointOf mg effectiveZones p) (endpointOf mg effectiveZones q)).verdict =
    some .violation

variable {p q : String}

variable (effectiveZones) in
lemma judge_verdict_of_declares (h : Declares mg p q) (illegal : List String) :
    (judge mg effectiveZones illegal p q).verdict = some .violation ↔ Illegal mg effectiveZones p q := by
  have hcov : hasConduit mg p q = true :=
    hasConduit_iff.2 ⟨p, q, h, self_mem_ancestorsOf p, self_mem_ancestorsOf q⟩
  rw [judge, hcov, classify_verdict_clause _ _ _ _ .none, Illegal]

variable (effectiveZones) in
lemma staticStep_spec (s : StaticPass) (c : DeclaredConduit) (h : Declares mg c.source c.peer) :
    (Illegal mg effectiveZones c.source c.peer ∧
        (staticStep mg effectiveZones s c).illegalConduitKeys = s.illegalConduitKeys ++ [c.key] ∧
        ∃ e : ConduitError, e.sourceId = c.source ∧ e.peerId = c.peer ∧
          (staticStep mg effectiveZones s c).conduitErrors = s.conduitErrors ++ [e]) ∨
      (¬ Illegal mg effectiveZones c.source c.peer ∧
        (staticStep mg effectiveZones s c).illegalConduitKeys = s.illegalConduitKeys ∧
        (staticStep mg effectiveZones s c).conduitErrors = s.conduitErrors) := by
  have hiff := judge_verdict_of_declares effectiveZones h s.illegalConduitKeys
  by_cases hv : (judge mg effectiveZones s.illegalConduitKeys c.source c.peer).verdict =
      some .violation
  · simp only [staticStep, if_pos hv]
    exact .inl ⟨hiff.1 hv, trivial, _, rfl, rfl, rfl⟩
  · simp only [staticStep, if_neg hv]
    refine .inr ⟨fun hill => hv (hiff.2 hill), ?_⟩
    split_ifs
    all_goals exact ⟨rfl, rfl⟩

/-- The pass over a list finds its illegal conduits. -/
lemma foldl_staticStep_spec (l : List DeclaredConduit) (s : StaticPass) (h : ∀ c ∈ l, Declares mg c.source c.peer) :
    (∀ k, k ∈ (l.foldl (staticStep mg effectiveZones) s).illegalConduitKeys ↔
      k ∈ s.illegalConduitKeys ∨ ∃ c ∈ l, Illegal mg effectiveZones c.source c.peer ∧ c.key = k) ∧
    ∀ p q, (∃ e ∈ (l.foldl (staticStep mg effectiveZones) s).conduitErrors, e.sourceId = p ∧ e.peerId = q) ↔
      (∃ e ∈ s.conduitErrors, e.sourceId = p ∧ e.peerId = q) ∨
        ∃ c ∈ l, Illegal mg effectiveZones c.source c.peer ∧ c.source = p ∧ c.peer = q := by
  induction l generalizing s with
  | nil => simp
  | cons c l ih =>
    obtain ⟨hkeys, herrors⟩ := ih (staticStep mg effectiveZones s c) fun d hd => h d (.tail _ hd)
    simp only [foldl_cons, hkeys, herrors, exists_mem_cons_iff]
    obtain ⟨hill, hk, e, he₁, he₂, he⟩ | ⟨hill, hk, he⟩ :=
      staticStep_spec effectiveZones s c (h c (.head _))
    · rw [hk, he]
      constructor
      · intro k
        simp only [mem_append, mem_singleton, hill, true_and, or_assoc, eq_comm]
      · intro p q
        simp only [mem_append, or_and_right, exists_or, mem_singleton, exists_eq_left,
          hill, true_and, or_assoc, he₁, he₂]
    · simp only [hk, he, hill, false_and, false_or, implies_true, and_self]

lemma declares_of_mem_conduitList {c : DeclaredConduit} (h : c ∈ conduitList mg) : Declares mg c.source c.peer :=
  mem_conduitList_iff.1 ⟨c, h, rfl, rfl⟩

lemma mem_illegalConduitKeys_iff (h : Declares mg p q) :
    conduitKey p q ∈ (staticPass mg effectiveZones).illegalConduitKeys ↔ Illegal mg effectiveZones p q := by
  rw [staticPass, (foldl_staticStep_spec _ _ fun c => declares_of_mem_conduitList).1]
  simp only [not_mem_nil, false_or]
  obtain ⟨d, hd, rfl, rfl⟩ := mem_conduitList_iff.2 h
  constructor
  · rintro ⟨c, hc, hill, hkey⟩
    obtain ⟨hckey, hcsep⟩ := keyed_conduitList mg c hc
    obtain ⟨hs, hp⟩ :=
      conduitKey_inj hcsep (keyed_conduitList mg d hd).2 (hckey.symm.trans hkey)
    rwa [hs, hp] at hill
  · exact fun hill => ⟨d, hd, hill, (keyed_conduitList mg d hd).1⟩

lemma mem_conduitErrors_iff (localeCompare : String → String → Ordering) :
    (∃ e ∈ (evaluateDataFlowPolicy mg effectiveZones localeCompare).conduitErrors,
      e.sourceId = p ∧ e.peerId = q) ↔ Declares mg p q ∧ Illegal mg effectiveZones p q := by
  have hmem : ∀ e, e ∈ (evaluateDataFlowPolicy mg effectiveZones localeCompare).conduitErrors ↔
      e ∈ (staticPass mg effectiveZones).conduitErrors := fun e => mem_mergeSort
  simp only [hmem]
  rw [staticPass, (foldl_staticStep_spec _ _ fun c => declares_of_mem_conduitList).2]
  simp only [not_mem_nil, false_and, exists_false, false_or]
  constructor
  · rintro ⟨c, hc, hill, rfl, rfl⟩
    exact ⟨declares_of_mem_conduitList hc, hill⟩
  · rintro ⟨hdec, hill⟩
    obtain ⟨d, hd, rfl, rfl⟩ := mem_conduitList_iff.2 hdec
    exact ⟨d, hd, hill, rfl, rfl⟩

end

section

variable (mg : ModelGraph) (effectiveZones : EffectiveZones)

/-- The crossings of the flows by id, in the order of the flows. -/
def flowPairs : List (String × String × String) :=
  mg.flows.filterMap fun f => if f.id = "" then none else (crossedPair mg f).map (f.id, ·)

/-- The verdict on the crossing from `e.1` to `e.2`. -/
def verdictOn (e : String × String) : Verdict :=
  judge mg effectiveZones (staticPass mg effectiveZones).illegalConduitKeys e.1 e.2

lemma foldl_flowStep_eq (r : Record String Verdict) :
    mg.flows.foldl (flowStep mg effectiveZones) r =
      ((flowPairs mg).map fun e => (e.1, verdictOn mg effectiveZones e.2)).foldl (fun r e => r.set e.1 e.2) r := by
  unfold flowPairs
  induction mg.flows generalizing r with
  | nil => rfl
  | cons f l ih =>
    rw [foldl_cons, ih, filterMap_cons, flowStep]
    by_cases hid : f.id = ""
    · rw [if_pos hid, if_pos hid]
    · rw [if_neg hid, if_neg hid]
      cases crossedPair mg f with
      | none | some e => rfl

lemma get?_byFlow (localeCompare : String → String → Ordering) (id : String) :
    (evaluateDataFlowPolicy mg effectiveZones localeCompare).byFlow.get? id =
      ((Record.ofList (flowPairs mg)).get? id).map (verdictOn mg effectiveZones) := by
  show (mg.flows.foldl (flowStep mg effectiveZones) ∅).get? id = _
  rw [foldl_flowStep_eq]
  exact Record.get?_ofList_map (verdictOn mg effectiveZones) (flowPairs mg) id

variable {mg} in
lemma exists_flow_of_mem_flowPairs {id : String} {e : String × String}
    (h : (id, e) ∈ flowPairs mg) : ∃ f ∈ mg.flows, f.id = id ∧ crossedPair mg f = some e := by
  obtain ⟨f, hf, hpair⟩ := mem_filterMap.1 h
  split_ifs at hpair with hid
  obtain ⟨e', he', heq⟩ := Option.map_eq_some_iff.1 hpair
  cases heq
  exact ⟨f, hf, rfl, he'⟩

end

section

/-- The graph `mg'` is `mg` with more conduits. -/
structure AddsConduits (mg mg' : ModelGraph) : Prop where
  boundaries : List.Forall₂ (fun b b' => b.conduits.Sublist b'.conduits ∧
    b' = { b with conduits := b'.conduits }) mg.boundaries mg'.boundaries
  components : mg'.components = mg.components
  flows : mg'.flows = mg.flows

def withoutConduits (b : ModelGraphBoundary) : ModelGraphBoundary :=
  { b with conduits := [] }

variable {mg mg' : ModelGraph} (h : AddsConduits mg mg')

include h

lemma AddsConduits.map_withoutConduits : mg'.boundaries.map withoutConduits = mg.boundaries.map withoutConduits := by
  have hall := h.boundaries
  generalize mg.boundaries = l, mg'.boundaries = l' at hall ⊢
  induction hall with
  | nil => rfl
  | cons hb _ ih =>
    rw [map_cons, map_cons, ih, hb.2]
    rfl

lemma AddsConduits.get?_boundaryById (id : String) :
    ((boundaryById mg').get? id).map withoutConduits =
      ((boundaryById mg).get? id).map withoutConduits := by
  have hmap : ∀ mg : ModelGraph, ((boundaryById mg).get? id).map withoutConduits =
      (Record.ofList ((mg.boundaries.map withoutConduits).map fun b => (b.id, b))).get? id := by
    intro mg
    rw [boundaryById, ← Record.get?_ofList_map, map_map, map_map]
    rfl
  rw [hmap, hmap, h.map_withoutConduits]

lemma AddsConduits.map_boundaryById {β : Type} (g : ModelGraphBoundary → β)
    (hg : ∀ b, g (withoutConduits b) = g b) (id : String) :
    ((boundaryById mg').get? id).map g = ((boundaryById mg).get? id).map g := by
  have hmap : ∀ mg : ModelGraph, ((boundaryById mg).get? id).map g =
      (((boundaryById mg).get? id).map withoutConduits).map g := by
    intro mg
    rw [Option.map_map]
    exact congrArg (fun g => ((boundaryById mg).get? id).map g) (funext fun b => (hg b).symm)
  rw [hmap, hmap mg, h.get?_boundaryById]

lemma AddsConduits.declares {p q : String} (hd : Declares mg p q) : Declares mg' p q := by
  obtain ⟨b, hb, rfl, c, hc, hq⟩ := hd
  have hpair : ∃ b' ∈ mg'.boundaries, b.conduits.Sublist b'.conduits ∧ b'.id = b.id := by
    have hall := h.boundaries
    generalize mg.boundaries = l, mg'.boundaries = l' at hall hb ⊢
    induction hall with
    | nil => cases hb
    | cons hrel _ ih =>
      obtain rfl | hb := mem_cons.1 hb
      · exact ⟨_, .head _, hrel.1, by rw [hrel.2]⟩
      · obtain ⟨b', hb', hrel'⟩ := ih hb
        exact ⟨b', .tail _ hb', hrel'⟩
  obtain ⟨b', hb', hsub, hid⟩ := hpair
  exact ⟨b', hb', hid, c, hsub.subset hc, hq⟩

lemma AddsConduits.parentOf_eq : parentOf mg' = parentOf mg := by
  funext id
  have hbind : ∀ mg : ModelGraph, parentOf mg id =
      (((boundaryById mg).get? id).map ModelGraphBoundary.parentBoundaryId).join := by
    intro mg
    rw [parentOf]
    cases (boundaryById mg).get? id <;> rfl
  rw [hbind, hbind, h.map_boundaryById _ fun b => rfl]

lemma AddsConduits.ancestorsOf_eq : ancestorsOf mg' = ancestorsOf mg := by
  have hloop : ∀ depth set cur, ancestorsLoop mg' depth set cur = ancestorsLoop mg depth set cur := by
    intro depth
    induction depth with
    | zero => exact fun _ _ => rfl
    | succ depth ih =>
      intro set cur
      cases cur with
      | none => rfl
      | some x => rw [ancestorsLoop, ancestorsLoop, ih, h.parentOf_eq]
  exact funext fun id => hloop _ _ _

lemma AddsConduits.endpointOf_eq (effectiveZones : EffectiveZones) :
    endpointOf mg' effectiveZones = endpointOf mg effectiveZones := by
  funext id
  rw [endpointOf, endpointOf, h.map_boundaryById _ fun b => rfl, h.map_boundaryById _ fun b => rfl]

lemma AddsConduits.flowPairs_eq : flowPairs mg' = flowPairs mg := by
  have hcomp : componentById mg' = componentById mg := by
    rw [componentById, componentById, h.components]
  have hpair : crossedPair mg' = crossedPair mg := by
    funext f
    simp only [crossedPair, componentBoundary, hcomp]
  rw [flowPairs, flowPairs, h.flows, hpair]

variable {sB tB : String}

lemma AddsConduits.covers_iff {p q : String} : Covers mg' sB tB p q ↔ Covers mg sB tB p q := by
  rw [Covers, Covers, h.ancestorsOf_eq]

lemma AddsConduits.hasConduit (hc : hasConduit mg sB tB = true) :
    ThreatReport.hasConduit mg' sB tB = true := by
  obtain ⟨p, q, hd, hcov⟩ := hasConduit_iff.1 hc
  exact hasConduit_iff.2 ⟨p, q, h.declares hd, h.covers_iff.2 hcov⟩

lemma AddsConduits.verdictOn_eq (effectiveZones : EffectiveZones)
    (hnone : ∀ p q, Declares mg' p q → ¬ Declares mg p q → ¬ Covers mg sB tB p q) :
    verdictOn mg' effectiveZones (sB, tB) = verdictOn mg effectiveZones (sB, tB) := by
  have hsame : ∀ p q, Declares mg' p q ∧ Covers mg' sB tB p q ↔
      Declares mg p q ∧ Covers mg sB tB p q := by
    intro p q
    rw [h.covers_iff]
    refine ⟨fun hd => ⟨by_contra fun hnew => hnone p q hd.1 hnew hd.2, hd.2⟩, ?_⟩
    exact fun hd => ⟨h.declares hd.1, hd.2⟩
  have hcond : ThreatReport.hasConduit mg' sB tB = ThreatReport.hasConduit mg sB tB := by
    rw [Bool.eq_iff_iff, hasConduit_iff, hasConduit_iff]
    simp only [hsame]
  have herror : violationConduitClause mg' (staticPass mg' effectiveZones).illegalConduitKeys sB tB =
        .error ↔
      violationConduitClause mg (staticPass mg effectiveZones).illegalConduitKeys sB tB = .error := by
    rw [violationConduitClause_eq_error_iff, violationConduitClause_eq_error_iff]
    refine exists_congr fun p => exists_congr fun q => ?_
    rw [← and_assoc, ← and_assoc, hsame]
    refine and_congr_right fun hd => ?_
    rw [mem_illegalConduitKeys_iff hd.1, mem_illegalConduitKeys_iff (h.declares hd.1), Illegal,
      Illegal, h.endpointOf_eq]
  have hclause :
      violationConduitClause mg' (staticPass mg' effectiveZones).illegalConduitKeys sB tB =
        violationConduitClause mg (staticPass mg effectiveZones).illegalConduitKeys sB tB := by
    by_cases he : violationConduitClause mg (staticPass mg effectiveZones).illegalConduitKeys sB tB =
        .error
    · rw [he, herror.2 he]
    · rw [violationConduitClause_of_ne he,
        violationConduitClause_of_ne fun he' => he (herror.1 he')]
  simp only [verdictOn, judge, hcond, hclause, h.endpointOf_eq]

end

variable {mg mg' : ModelGraph}

/-- Conduits are fail-closed: whatever conduits are added, every flow keeps a verdict, the rank of no
verdict goes up, a violation that is not one of a missing channel out of the modelled system stays a
violation, and a verdict changes only where an added conduit lies at or above both ends of the
flow. -/
theorem evaluateDataFlowPolicy_addsConduits (h : AddsConduits mg mg')
    (effectiveZones : EffectiveZones) (localeCompare : String → String → Ordering) (id : String) :
    ((evaluateDataFlowPolicy mg' effectiveZones localeCompare).byFlow.get? id).isSome =
        ((evaluateDataFlowPolicy mg effectiveZones localeCompare).byFlow.get? id).isSome ∧
      ∀ v v', (evaluateDataFlowPolicy mg effectiveZones localeCompare).byFlow.get? id = some v →
        (evaluateDataFlowPolicy mg' effectiveZones localeCompare).byFlow.get? id = some v' →
        v'.verdictRank ≤ v.verdictRank ∧
        (v.verdict = some .violation →
          ¬ (isExternal v.srcZone = false ∧ isExternal v.tgtZone = true) →
          v'.verdict = some .violation) ∧
        (v' ≠ v → ∃ f ∈ mg.flows, f.id = id ∧ ∃ sB tB, crossedPair mg f = some (sB, tB) ∧
          ∃ p q, Declares mg' p q ∧ ¬ Declares mg p q ∧ AtOrUnder mg p sB ∧ AtOrUnder mg q tB) := by
  rw [get?_byFlow, get?_byFlow, h.flowPairs_eq, Option.isSome_map, Option.isSome_map]
  refine ⟨rfl, ?_⟩
  intro v v' hv hv'
  obtain ⟨⟨sB, tB⟩, hpair, rfl⟩ := Option.map_eq_some_iff.1 hv
  obtain ⟨e, hpair', rfl⟩ := Option.map_eq_some_iff.1 hv'
  cases hpair.symm.trans hpair'
  refine ⟨?_, ?_, ?_⟩
  · rw [verdictOn, verdictOn, judge, judge, judged_classify.verdictRank,
      judged_classify.verdictRank, h.endpointOf_eq]
    exact rankOf_classify_le _ _ h.hasConduit _ _
  · intro hviol hin
    rw [verdictOn, judge] at hviol hin
    rw [judged_classify.srcZone, judged_classify.tgtZone] at hin
    rw [verdictOn, judge, h.endpointOf_eq]
    exact classify_violation_of_covered _ _ _ h.hasConduit hin hviol
  · intro hne
    obtain ⟨f, hf, hid, hcross⟩ := exists_flow_of_mem_flowPairs (Record.mem_of_get?_ofList hpair)
    refine ⟨f, hf, hid, sB, tB, hcross, ?_⟩
    by_contra hnone
    refine hne (h.verdictOn_eq effectiveZones fun p q hd hnew hcov => hnone ?_)
    exact ⟨p, q, hd, hnew, atOrUnder_of_mem_ancestorsOf hcov.1, atOrUnder_of_mem_ancestorsOf hcov.2⟩

/-- A flow from a boundary of the internet to one behind the front door. -/
def frontDoor (conduits : List Conduit) : ModelGraph where
  boundaries := [ ⟨"net", by decide, by decide, by decide, "Internet", none, [], [], conduits⟩,
    ⟨"dmz", by decide, by decide, by decide, "DMZ", none, [], [], []⟩,
    ⟨"api", by decide, by decide, by decide, "API", some "dmz", [], [], []⟩]
  components := [⟨"user", by decide, "User", none, some "net", false⟩,
    ⟨"gate", by decide, "Gateway", none, some "api", false⟩]
  flows := [⟨"call", "Call", some "user", some "gate", [], 0⟩]
  dataNodes := []

def frontDoorZones : EffectiveZones :=
  .ofList [("net", .untrusted), ("dmz", .exposed), ("api", .exposed)]

/-- A conduit to the enclosing boundary approves the call. -/
theorem frontDoor_approved :
    ∃ v v', (evaluateDataFlowPolicy (frontDoor []) frontDoorZones compare).byFlow.get? "call" = some v ∧
      (evaluateDataFlowPolicy (frontDoor [⟨"dmz", .outbound, none⟩]) frontDoorZones
        compare).byFlow.get? "call" = some v' ∧
      v.verdict = some .warning ∧ v'.verdict = some .allowed ∧ v'.verdictRank ≤ v.verdictRank := by
  have hadds : AddsConduits (frontDoor []) (frontDoor [⟨"dmz", .outbound, none⟩]) :=
    ⟨.cons ⟨nil_sublist _, rfl⟩ (.cons ⟨List.Sublist.refl _, rfl⟩
      (.cons ⟨List.Sublist.refl _, rfl⟩ .nil)), rfl, rfl⟩
  refine ⟨_, _, rfl, rfl, by decide +kernel, by decide +kernel, ?_⟩
  exact ((evaluateDataFlowPolicy_addsConduits hadds frontDoorZones compare "call").2 _ _ rfl rfl).1

end ThreatReport
