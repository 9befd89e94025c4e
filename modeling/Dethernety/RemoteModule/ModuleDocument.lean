import Dethernety.Foundations.JsonTree

/-!
# Module documents and policy hashes

What a remote module reads of a module document (`SERVED_CLASS_ARRAYS`, `countClasses`, `servedClassIds`), how it
checks a body of policy hashes (`parsePolicyHashes`), and the copy of the document that it serves (`withPolicyHashes`).
-/

open List

namespace RemoteModule

def servedClassArrays : List String :=
  ["componentClasses", "dataFlowClasses", "securityBoundaryClasses", "dataClasses", "controlClasses"]

def allClassArrays : List String :=
  servedClassArrays ++ ["analysisClasses", "issueClasses"]

/-- The entries of a class array of a module. -/
def classesOf (module : JsonTree) (key : String) : List JsonTree :=
  ((module.get? key).bind JsonTree.items?).getD []

def countClasses (module : JsonTree) : ℕ :=
  servedClassArrays.foldl (fun n key => n + (classesOf module key).length) 0

lemma countClasses_reread (module : JsonTree) : countClasses module.reread = countClasses module := by
  refine foldl_ext _ _ 0 fun n key _ => ?_
  unfold classesOf
  rw [JsonTree.get?_reread]
  cases module.get? key with
  | none => rfl
  | some value =>
    rw [Option.map_some, Option.bind_some, Option.bind_some, JsonTree.items?_reread]
    cases value.items? with
    | none => rfl
    | some items => rw [Option.map_some, Option.getD_some, Option.getD_some, JsonTree.length_rereadItems]

/-- The `id` of a class entry, if it is a string. An id that has unpaired surrogates is the key of no hash here. -/
def classId? (cls : JsonTree) : Option String :=
  (cls.get? "id").bind JsonTree.string?

def servedClassIds (module : JsonTree) : List String :=
  servedClassArrays.flatMap fun key => (classesOf module key).filterMap classId?

/-! ## Policy hashes -/

def policyHashAlgorithm : String := "policy-source-sha256/1"

/-- `HASH_PATTERN` -/
def isHash (s : String) : Bool :=
  s.toList.length = 64 ∧ s.toList.all fun c => ('0' ≤ c ∧ c ≤ '9') ∨ ('a' ≤ c ∧ c ≤ 'f')

abbrev Hashes := Record String String

/-- The loop of `parsePolicyHashes`. -/
def parseEntries (classIds : List String) : List (String × JsonTree) → Hashes → Option Hashes
  | [], hashes => some hashes
  | (classId, value) :: served, hashes =>
    if classId = "__proto__" then none
    else
      match value with
      | .string hash =>
        if isHash hash then
          parseEntries classIds served (if classId ∈ classIds then hashes.set classId hash else hashes)
        else none
      | _ => none

def parsePolicyHashes (body : JsonTree) (moduleKey pin : String) (classIds : List String) : Option Hashes :=
  if body.get? "moduleKey" = some (.string moduleKey) ∧ body.get? "version" = some (.string pin) ∧
      body.get? "algorithm" = some (.string policyHashAlgorithm) then
    match body.get? "policyHashes" with
    | some (.object served) => parseEntries classIds served ∅
    | _ => none
  else none

def policyHashesBody (moduleKey pin : String) (hashes : Hashes) : JsonTree :=
  .object [("moduleKey", .string moduleKey), ("version", .string pin), ("algorithm", .string policyHashAlgorithm),
    ("policyHashes", .object (hashes.entries.map fun e => (e.1, .string e.2)))]

/-- A body with the key, the version and the algorithm that was asked for, and with 64 hex digits for every value. -/
structure IsHashesBody (moduleKey pin : String) (served : List (String × JsonTree)) (body : JsonTree) : Prop where
  moduleKey : body.get? "moduleKey" = some (.string moduleKey)
  version : body.get? "version" = some (.string pin)
  algorithm : body.get? "algorithm" = some (.string policyHashAlgorithm)
  policyHashes : body.get? "policyHashes" = some (.object served)
  hashes : ∀ e ∈ served, ∃ hash, e.2 = .string hash ∧ isHash hash = true

/-- A hash comes from a body that checks out. -/
def IsHashOf (moduleKey pin : String) (body : JsonTree) (classId hash : String) : Prop :=
  ∃ served, IsHashesBody moduleKey pin served body ∧ (classId, .string hash) ∈ served

lemma parseEntries_spec {classIds : List String} {served : List (String × JsonTree)} {hashes hashes' : Hashes}
    (h : parseEntries classIds served hashes = some hashes') :
    (∀ e ∈ served, ∃ hash, e.2 = .string hash ∧ isHash hash = true) ∧ ∀ classId hash, hashes'.get? classId = some hash →
        hashes.get? classId = some hash ∨ (classId, .string hash) ∈ served := by
  induction served generalizing hashes with
  | nil =>
    cases h
    exact ⟨by simp, fun classId hash hget => .inl hget⟩
  | cons e served ih =>
    obtain ⟨key, value⟩ := e
    have hproto : key ≠ "__proto__" := by
      rintro rfl
      cases value <;> simp [parseEntries] at h
    cases value with
    | string text =>
      rw [parseEntries, if_neg hproto] at h
      split_ifs at h with hhash hserved
      · obtain ⟨hall, hfrom⟩ := ih h
        refine ⟨forall_mem_cons.2 ⟨⟨text, rfl, hhash⟩, hall⟩, fun classId hash hget => ?_⟩
        rcases hfrom classId hash hget with hold | hmem
        · rw [Record.get?_set] at hold
          split_ifs at hold with hkey
          · cases hold
            exact .inr (hkey ▸ (.head _))
          · exact .inl hold
        · exact .inr (.tail _ hmem)
      · obtain ⟨hall, hfrom⟩ := ih h
        refine ⟨forall_mem_cons.2 ⟨⟨text, rfl, hhash⟩, hall⟩, fun classId hash hget => ?_⟩
        exact (hfrom classId hash hget).imp_right (mem_cons_of_mem _)
    | null | boolean | number | unpaired | array | object => simp [parseEntries, hproto] at h

lemma isHashOf_of_parsePolicyHashes {body : JsonTree} {moduleKey pin : String} {classIds : List String}
    {hashes : Hashes} (h : parsePolicyHashes body moduleKey pin classIds = some hashes) {classId hash : String}
    (hget : hashes.get? classId = some hash) : IsHashOf moduleKey pin body classId hash := by
  unfold parsePolicyHashes at h
  split_ifs at h with hfields
  split at h
  · rename_i served hserved
    obtain ⟨hall, hfrom⟩ := parseEntries_spec h
    refine ⟨served, ⟨hfields.1, hfields.2.1, hfields.2.2, hserved, hall⟩, ?_⟩
    rcases hfrom classId hash hget with hempty | hmem
    · cases hempty
    · exact hmem
  · cases h

/-! ## The served copy -/

/-- The hash of a class entry, of a served array or of another one. -/
def hashOf? (served : Bool) (hashes : Option Hashes) (cls : JsonTree) : Option String :=
  if served then (classId? cls).bind fun classId => hashes.bind fun h => h.get? classId else none

/-- The class entry that is served: without the hash that it carries, and with its own. -/
def withHash (served : Bool) (hashes : Option Hashes) (cls : JsonTree) : JsonTree :=
  match cls with
  | .object fields =>
    let rest := fields.filter fun e => e.1 ≠ "policyHash"
    match hashOf? served hashes cls with
    | some hash => if hash = "" then .object rest else .object (rest ++ [("policyHash", .string hash)])
    | none => .object rest
  -- the rest of an array is an object with its indices
  | .array items => .object (items.zipIdx.map fun e => (toString e.2, e.1))
  | cls => cls

lemma toString_ne_of_notDigit {s : String} (n : ℕ) (h : ∃ c ∈ s.toList, c.isDigit = false) : toString n ≠ s := by
  rintro rfl
  obtain ⟨c, hc, hdigit⟩ := h
  have hmem : c ∈ Nat.toDigits 10 n := by simpa [Nat.toString_eq_repr, Nat.repr] using hc
  rw [Nat.isDigit_of_mem_toDigits (by decide) (by decide) hmem] at hdigit
  cases hdigit

lemma lookup_indices {s : String} (hs : ∃ c ∈ s.toList, c.isDigit = false) (items : List JsonTree) :
    Record.lookup s (items.zipIdx.map fun e => (toString e.2, e.1)) = none := by
  rw [← Option.not_isSome_iff_eq_none, Record.lookup_isSome_iff]
  simp only [map_map, mem_map, Function.comp_apply, not_exists, not_and]
  exact fun e _ => toString_ne_of_notDigit e.2 hs

lemma lookup_append {V : Type} (k : String) (l l' : List (String × V)) :
    Record.lookup k (l ++ l') = (Record.lookup k l).or (Record.lookup k l') := by
  induction l with
  | nil => rfl
  | cons e l ih =>
    rw [cons_append, Record.lookup, Record.lookup]
    split_ifs
    · rfl
    · exact ih

/-- A field other than `policyHash` is served as it is. -/
lemma get?_withHash_object (served : Bool) (hashes : Option Hashes) (fields : List (String × JsonTree)) {key : String}
    (hkey : key ≠ "policyHash") : (withHash served hashes (.object fields)).get? key = Record.lookup key fields := by
  have hrest : Record.lookup key (fields.filter fun e => e.1 ≠ "policyHash") = Record.lookup key fields := by
    rw [Record.lookup_filter_ne, if_neg hkey.symm]
  unfold withHash
  dsimp only
  split
  · split_ifs
    · exact hrest
    · rw [JsonTree.get?, lookup_append, hrest]
      simp [Record.lookup, hkey.symm]
  · exact hrest

lemma classId?_withHash (served : Bool) (hashes : Option Hashes) (cls : JsonTree) :
    classId? (withHash served hashes cls) = classId? cls := by
  unfold classId?
  cases cls with
  | object fields =>
    rw [get?_withHash_object served hashes fields (by decide)]
    rfl
  | array items =>
    dsimp only [withHash, JsonTree.get?]
    rw [lookup_indices ⟨'i', by decide, rfl⟩]
  | null | boolean | number | string | unpaired => rfl

/-- The hash that a served class entry carries is its own. -/
theorem policyHash_withHash {served : Bool} {hashes : Option Hashes}
    (hhash : ∀ h classId hash, hashes = some h → h.get? classId = some hash → isHash hash = true) (cls : JsonTree) :
    (withHash served hashes cls).get? "policyHash" = (hashOf? served hashes cls).map JsonTree.string := by
  have hnone : ∀ cls : JsonTree, classId? cls = none → hashOf? served hashes cls = none := fun cls hcls => by
    unfold hashOf?
    rw [hcls]
    split_ifs <;> rfl
  cases cls with
  | object fields =>
    have hrest : Record.lookup "policyHash" (fields.filter fun e => e.1 ≠ "policyHash") = none := by
      rw [Record.lookup_filter_ne, if_pos rfl]
    unfold withHash
    cases hown : hashOf? served hashes (.object fields) with
    | none => exact hrest
    | some hash =>
      have hne : hash ≠ "" := by
        rintro rfl
        unfold hashOf? at hown
        split_ifs at hown
        obtain ⟨classId, -, hget⟩ := Option.bind_eq_some_iff.1 hown
        obtain ⟨h, hh, hget⟩ := Option.bind_eq_some_iff.1 hget
        exact absurd (hhash h classId "" hh hget) (by decide)
      dsimp only
      rw [if_neg hne, JsonTree.get?, lookup_append, hrest]
      rfl
  | array items =>
    rw [hnone (.array items) rfl]
    dsimp only [withHash, JsonTree.get?]
    rw [lookup_indices ⟨'p', by decide, rfl⟩]
    rfl
  | null | boolean | number | string | unpaired => rw [hnone _ rfl]; rfl

def servedField (hashes : Option Hashes) (key : String) (value : JsonTree) : JsonTree :=
  if key ∈ allClassArrays then
    match value with
    | .array classes => .array (classes.map (withHash (key ∈ servedClassArrays) hashes))
    | value => value
  else value

/-- `withPolicyHashes`; a module without fields has no class arrays. -/
def withPolicyHashes (module : JsonTree) (hashes : Option Hashes) : JsonTree :=
  match module with
  | .object fields => .object (fields.map fun e => (e.1, servedField hashes e.1 e.2))
  | module => module

lemma lookup_map {V W : Type} (f : String → V → W) (key : String) (l : List (String × V)) :
    Record.lookup key (l.map fun e => (e.1, f e.1 e.2)) = (Record.lookup key l).map (f key) := by
  induction l with
  | nil => rfl
  | cons e l ih =>
    rw [map_cons, Record.lookup, Record.lookup]
    split_ifs with h
    · rw [h]
      rfl
    · exact ih

lemma classesOf_withPolicyHashes (module : JsonTree) (hashes : Option Hashes) {key : String}
    (hkey : key ∈ allClassArrays) : classesOf (withPolicyHashes module hashes) key =
      (classesOf module key).map (withHash (key ∈ servedClassArrays) hashes) := by
  cases module with
  | object fields =>
    unfold classesOf withPolicyHashes JsonTree.get?
    dsimp only
    rw [lookup_map]
    cases Record.lookup key fields with
    | none => rfl
    | some value =>
      simp only [Option.map_some, servedField, if_pos hkey]
      cases value <;> rfl
  | null | boolean | number | string | unpaired | array => rfl

end RemoteModule
