import Mathlib.Data.Set.Basic
import Dethernety.Foundations.Text

/-!
# Link deltas

Model of `link-delta.ts` and of the id check of `connect-id.ts`. A save sends at most one connect and
one disconnect, each with one operand that names its ids. The server holds the set of ids that an
element is linked to. Two saves that were made from the same baseline compose: whatever the order in
which their operations arrive, the same links remain.
-/

open List

namespace LinkDelta

/-- An entry of a list of ids; `none` is `null` or `undefined`. -/
abbrev Entry := Option String

/-- `IdList`; `none` is `undefined`. -/
abbrev IdList := Option (List Entry)

def isConnectId : Entry → Bool
  | some value => (ecmaTrim value.toList).length > 0
  | none => false

def connectIds (ids : IdList) : List String :=
  ((ids.getD []).filter isConnectId).filterMap id

/-- The list has the id, which is not blank. -/
def Names (ids : IdList) (x : String) : Prop :=
  some x ∈ ids.getD [] ∧ NonBlank x.toList

variable {x : String}

lemma isConnectId_iff : isConnectId (some x) = true ↔ NonBlank x.toList :=
  decide_eq_true_iff.trans (length_pos_iff.trans ecmaTrim_ne_nil_iff)

lemma mem_connectIds {ids : IdList} : x ∈ connectIds ids ↔ Names ids x := by
  simp [connectIds, Names, isConnectId_iff]

/-- `LinkWhere`: the ids of an `in` operand. -/
structure LinkWhere where
  ids : List String

structure LinkOps where
  connect : Option (List LinkWhere)
  disconnect : Option (List LinkWhere)

def idOperands (ids : List String) : List LinkWhere :=
  if ids.length ≠ 0 then [⟨ids⟩] else []

/-- `new Set(ids)`, in insertion order. -/
def idSet (ids : List String) : List String :=
  ids.eraseDups

def buildLinkOps (current baseline : IdList) : Option LinkOps :=
  let cur := idSet (connectIds current)
  let base := idSet (connectIds baseline)
  let connect := idOperands (cur.filter (· ∉ base))
  let disconnect := idOperands (base.filter (· ∉ cur))
  if connect.length = 0 ∧ disconnect.length = 0 then none
  else some {
    connect := if connect.length ≠ 0 then some connect else none
    disconnect := if disconnect.length ≠ 0 then some disconnect else none }

structure LinkBaselines where
  controls : Option (List String)
  dataItems : Option (List String)

/-- The value of a link key of an update input. -/
inductive LinkInput
  | ops (delta : LinkOps)
  /-- `LinkReplace`: every link is removed, then the list is connected. -/
  | replace (connect : List LinkWhere)

def linkInput (current : IdList) (baselines : Option LinkBaselines)
    (key : LinkBaselines → Option (List String)) : Option LinkInput :=
  match current with
  | none => none
  | some _ =>
    match baselines with
    | none => some (.replace (idOperands (idSet (connectIds current))))
    | some known =>
      (buildLinkOps current (some (((key known).getD []).map some))).map .ops

def LinkOps.operands (ops : LinkOps) : List LinkWhere :=
  ops.connect.getD [] ++ ops.disconnect.getD []

def LinkInput.operands : LinkInput → List LinkWhere
  | .ops delta => delta.operands
  | .replace connect => connect

/-- An operand that names at least one id, and only ids that can be used. -/
def LinkWhere.Usable (w : LinkWhere) : Prop :=
  w.ids ≠ [] ∧ ∀ x ∈ w.ids, NonBlank x.toList

variable {ids : List String} {w : LinkWhere}

lemma usable_of_mem_idOperands (hw : w ∈ idOperands ids)
    (hids : ∀ x ∈ ids, NonBlank x.toList) : w.Usable := by
  unfold idOperands at hw
  split_ifs at hw with hne
  · obtain rfl := mem_singleton.1 hw
    refine ⟨fun hnil => hne ?_, hids⟩
    rw [show ids = [] from hnil]
    rfl
  · exact absurd hw not_mem_nil

lemma mem_idSet : x ∈ idSet ids ↔ x ∈ ids :=
  mem_eraseDups

lemma nonBlank_of_mem_idSet {ids : IdList} (h : x ∈ idSet (connectIds ids)) : NonBlank x.toList :=
  (mem_connectIds.1 (mem_idSet.1 h)).2

variable {current baseline : IdList}

/-- The operands of a delta, without the wrapping. -/
lemma buildLinkOps_eq_some {ops : LinkOps}
    (h : buildLinkOps current baseline = some ops) :
    ops.connect.getD [] = idOperands ((idSet (connectIds current)).filter (· ∉ idSet (connectIds baseline))) ∧
      ops.disconnect.getD [] = idOperands ((idSet (connectIds baseline)).filter (· ∉ idSet (connectIds current))) := by
  have hgetD : ∀ l : List LinkWhere, (if l.length ≠ 0 then some l else none).getD [] = l := by
    intro l
    split_ifs with hne
    · rfl
    · exact (length_eq_zero_iff.1 (not_not.1 hne)).symm
  have hsome := h
  unfold buildLinkOps at hsome
  extract_lets _ _ connect disconnect at hsome
  by_cases hempty : connect.length = 0 ∧ disconnect.length = 0
  · rw [if_pos hempty] at hsome
    cases hsome
  · rw [if_neg hempty] at hsome
    rw [← Option.some.inj hsome]
    exact ⟨hgetD _, hgetD _⟩

lemma usable_of_mem_buildLinkOps {ops : LinkOps}
    (h : buildLinkOps current baseline = some ops) (hw : w ∈ ops.operands) : w.Usable := by
  obtain ⟨hconnect, hdisconnect⟩ := buildLinkOps_eq_some h
  unfold LinkOps.operands at hw
  rw [hconnect, hdisconnect] at hw
  obtain hw | hw := mem_append.1 hw
  all_goals exact usable_of_mem_idOperands hw fun x hx => nonBlank_of_mem_idSet (mem_filter.1 hx).1

lemma usable_of_mem_linkInput {baselines : Option LinkBaselines}
    {key : LinkBaselines → Option (List String)} {input : LinkInput}
    (h : linkInput current baselines key = some input) (hw : w ∈ input.operands) : w.Usable := by
  unfold linkInput at h
  split at h
  next => cases h
  next ids =>
    split at h
    next =>
      rw [← Option.some.inj h] at hw
      exact usable_of_mem_idOperands hw fun x hx => nonBlank_of_mem_idSet hx
    next known =>
      obtain ⟨ops, hops, rfl⟩ := Option.map_eq_some_iff.1 h
      exact usable_of_mem_buildLinkOps hops hw

section

/-- One operation of a save as the server carries it out. -/
inductive LinkEffect
  | connect (operand : LinkWhere)
  | disconnect (operand : LinkWhere)

/-- The operations of a save. -/
def effects : Option LinkOps → List LinkEffect
  | none => []
  | some ops => (ops.disconnect.getD []).map .disconnect ++ (ops.connect.getD []).map .connect

/-- What an operation does to the links of the element. -/
def applyEffect (links : Set String) : LinkEffect → Set String
  | .connect w => links ∪ {x | x ∈ w.ids}
  | .disconnect w => links \ {x | x ∈ w.ids}

/-- Operations one after the other. -/
def applyEffects (links : Set String) (l : List LinkEffect) : Set String :=
  l.foldl applyEffect links

/-- The id is connected by one of the operations. -/
def Connects (l : List LinkEffect) (x : String) : Prop :=
  ∃ w, .connect w ∈ l ∧ x ∈ w.ids

/-- The id is disconnected by one of the operations. -/
def Disconnects (l : List LinkEffect) (x : String) : Prop :=
  ∃ w, .disconnect w ∈ l ∧ x ∈ w.ids

variable {l : List LinkEffect} {x : String}

lemma mem_applyEffects (h : ¬ (Connects l x ∧ Disconnects l x))
    (links : Set String) : x ∈ applyEffects links l ↔ Connects l x ∨ (x ∈ links ∧ ¬ Disconnects l x) := by
  induction l generalizing links with
  | nil =>
    have hnone : ¬ Connects [] x := fun ⟨w, hw, _⟩ => absurd hw not_mem_nil
    have hnone' : ¬ Disconnects [] x := fun ⟨w, hw, _⟩ => absurd hw not_mem_nil
    rw [or_iff_right hnone, and_iff_left hnone']
    rfl
  | cons e l ih =>
    have hrest : ¬ (Connects l x ∧ Disconnects l x) := fun ⟨⟨w, hw, hx⟩, w', hw', hx'⟩ =>
      h ⟨⟨w, .tail _ hw, hx⟩, w', .tail _ hw', hx'⟩
    show x ∈ applyEffects (applyEffect links e) l ↔ _
    rw [ih hrest]
    cases e with
    | connect w =>
      have hconnects : Connects (.connect w :: l) x ↔ x ∈ w.ids ∨ Connects l x := by
        simp [Connects, or_and_right, exists_or]
      have hdisconnects : Disconnects (.connect w :: l) x ↔ Disconnects l x := by
        simp [Disconnects]
      rw [hconnects, hdisconnects] at h
      rw [hconnects, hdisconnects, applyEffect, Set.mem_union, Set.mem_ofPred_eq]
      tauto
    | disconnect w =>
      have hconnects : Connects (.disconnect w :: l) x ↔ Connects l x := by
        simp [Connects]
      have hdisconnects : Disconnects (.disconnect w :: l) x ↔ x ∈ w.ids ∨ Disconnects l x := by
        simp [Disconnects, or_and_right, exists_or]
      rw [hconnects, hdisconnects, applyEffect, Set.mem_sdiff, Set.mem_ofPred_eq]
      tauto

variable {l' : List LinkEffect}

lemma connects_append : Connects (l ++ l') x ↔ Connects l x ∨ Connects l' x := by
  simp [Connects, or_and_right, exists_or]

lemma disconnects_append : Disconnects (l ++ l') x ↔ Disconnects l x ∨ Disconnects l' x := by
  simp [Disconnects, or_and_right, exists_or]

lemma mem_of_idOperands {ids : List String} : (∃ w ∈ idOperands ids, x ∈ w.ids) ↔ x ∈ ids := by
  unfold idOperands
  split_ifs with hne
  · simp
  · rw [length_eq_zero_iff.1 (not_not.1 hne)]
    simp

lemma names_singleton {y : String} (hy : NonBlank y.toList) : Names (some [some y]) x ↔ x = y := by
  simpa [Names] using fun h : x = y => h ▸ hy

/-- A usable id that the list has and the baseline has not. -/
def Added (current baseline : IdList) (x : String) : Prop :=
  Names current x ∧ ¬ Names baseline x

/-- A usable id that the baseline has and the list has not. -/
def Removed (current baseline : IdList) (x : String) : Prop :=
  Names baseline x ∧ ¬ Names current x

variable {current baseline : IdList} {x : String}

lemma connects_and_disconnects_buildLinkOps :
    (Connects (effects (buildLinkOps current baseline)) x ↔ Added current baseline x) ∧
      (Disconnects (effects (buildLinkOps current baseline)) x ↔ Removed current baseline x) := by
  cases hops : buildLinkOps current baseline with
  | none =>
    -- neither side has an id that the other has not
    have hsides : ∀ y, ¬ Added current baseline y ∧ ¬ Removed current baseline y := by
      unfold buildLinkOps at hops
      simp only at hops
      split_ifs at hops with hempty
      intro y
      rw [length_eq_zero_iff, length_eq_zero_iff] at hempty
      constructor
      · rintro ⟨hcur, hbase⟩
        have hmem : y ∈ (idSet (connectIds current)).filter (· ∉ idSet (connectIds baseline)) := by
          simpa [mem_idSet, mem_connectIds] using And.intro hcur hbase
        obtain ⟨w, hw, -⟩ := mem_of_idOperands.2 hmem
        rw [hempty.1] at hw
        cases hw
      · rintro ⟨hbase, hcur⟩
        have hmem : y ∈ (idSet (connectIds baseline)).filter (· ∉ idSet (connectIds current)) := by
          simpa [mem_idSet, mem_connectIds] using And.intro hbase hcur
        obtain ⟨w, hw, -⟩ := mem_of_idOperands.2 hmem
        rw [hempty.2] at hw
        cases hw
    refine ⟨iff_of_false ?_ (hsides x).1, iff_of_false ?_ (hsides x).2⟩
    all_goals exact fun ⟨w, hw, _⟩ => absurd hw not_mem_nil
  | some ops =>
    obtain ⟨hconnect, hdisconnect⟩ := buildLinkOps_eq_some hops
    constructor
    · have hwhere : Connects (effects (some ops)) x ↔ ∃ w ∈ ops.connect.getD [], x ∈ w.ids := by
        simp [Connects, effects]
      rw [hwhere, hconnect, mem_of_idOperands]
      simp [Added, mem_idSet, mem_connectIds]
    · have hwhere : Disconnects (effects (some ops)) x ↔
          ∃ w ∈ ops.disconnect.getD [], x ∈ w.ids := by
        simp [Disconnects, effects]
      rw [hwhere, hdisconnect, mem_of_idOperands]
      simp [Removed, mem_idSet, mem_connectIds]

end

variable {baseline current₁ current₂ : IdList} {l : List LinkEffect} {x : String}

/-- The links after two saves: what was there and neither removed, and what either added. -/
lemma mem_applyEffects_saves (links : Set String) (hl : l.Perm (effects (buildLinkOps current₁ baseline) ++
      effects (buildLinkOps current₂ baseline))) :
    x ∈ applyEffects links l ↔ Added current₁ baseline x ∨ Added current₂ baseline x ∨
      (x ∈ links ∧ ¬ Removed current₁ baseline x ∧ ¬ Removed current₂ baseline x) := by
  have hconnects : Connects l x ↔ Added current₁ baseline x ∨ Added current₂ baseline x := by
    have hperm : Connects l x ↔ Connects (effects (buildLinkOps current₁ baseline) ++
        effects (buildLinkOps current₂ baseline)) x :=
      exists_congr fun w => and_congr_left fun _ => hl.mem_iff
    rw [hperm, connects_append, connects_and_disconnects_buildLinkOps.1,
      connects_and_disconnects_buildLinkOps.1]
  have hdisconnects : Disconnects l x ↔ Removed current₁ baseline x ∨ Removed current₂ baseline x := by
    have hperm : Disconnects l x ↔ Disconnects (effects (buildLinkOps current₁ baseline) ++
        effects (buildLinkOps current₂ baseline)) x :=
      exists_congr fun w => and_congr_left fun _ => hl.mem_iff
    rw [hperm, disconnects_append, connects_and_disconnects_buildLinkOps.2,
      connects_and_disconnects_buildLinkOps.2]
  -- what is added is not in the baseline, what is removed is
  have hdisjoint : ¬ (Connects l x ∧ Disconnects l x) := by
    rw [hconnects, hdisconnects]
    rintro ⟨hadded | hadded, hremoved | hremoved⟩
    all_goals exact hadded.2 hremoved.1
  rw [mem_applyEffects hdisjoint, hconnects, hdisconnects, not_or, or_assoc]

/-- Two saves that start from one baseline compose. `order` ranges over every order in which their
operations can be carried out, so in particular over the two orders of the saves. -/
theorem saves_compose (links : Set String) (baseline current₁ current₂ : IdList) :
    ∃ result : Set String,
      (∀ order : List LinkEffect,
        order.Perm (effects (buildLinkOps current₁ baseline) ++
          effects (buildLinkOps current₂ baseline)) → applyEffects links order = result) ∧
      (∀ x, Added current₁ baseline x ∨ Added current₂ baseline x → x ∈ result) ∧
      (∀ x, Removed current₁ baseline x ∨ Removed current₂ baseline x →
        ¬ Added current₁ baseline x → ¬ Added current₂ baseline x → x ∉ result) ∧
      (∀ x, some x ∉ baseline.getD [] → some x ∉ current₁.getD [] → some x ∉ current₂.getD [] →
        (x ∈ result ↔ x ∈ links)) ∧
      (∀ current ∈ [current₁, current₂], ∀ ops ∈ buildLinkOps current baseline,
        ∀ w ∈ ops.operands, w.Usable) ∧
      (∀ current ∈ [current₁, current₂], ∀ baselines key,
        ∀ input ∈ linkInput current baselines key, ∀ w ∈ input.operands, w.Usable) := by
  have hmem : ∀ x, x ∈ applyEffects links (effects (buildLinkOps current₁ baseline) ++
      effects (buildLinkOps current₂ baseline)) ↔ _ :=
    fun x => mem_applyEffects_saves links (List.Perm.refl _)
  refine ⟨applyEffects links (effects (buildLinkOps current₁ baseline) ++
    effects (buildLinkOps current₂ baseline)), fun order horder => ?_, fun x hx => ?_,
    fun x hx h₁ h₂ => ?_, fun x hb h₁ h₂ => ?_, ?_, ?_⟩
  · ext x
    rw [hmem x]
    exact mem_applyEffects_saves links horder
  · rw [hmem x]
    tauto
  · rw [hmem x]
    tauto
  · have hnone : ∀ {ids : IdList}, some x ∉ ids.getD [] → ¬ Names ids x := fun hids hx => hids hx.1
    rw [hmem x]
    simp only [Added, Removed, hnone hb, hnone h₁, hnone h₂, false_or, not_false_eq_true, and_true]
  · exact fun current _ ops hops w hw => usable_of_mem_buildLinkOps hops hw
  · exact fun current _ baselines key input hinput w hw => usable_of_mem_linkInput hinput hw

/-- One editor adds `b`, and the other one, whose list has nothing usable, removes `a`. -/
theorem saves_compose_links : ∃ result : Set String, "b" ∈ result ∧ "a" ∉ result ∧ "z" ∈ result ∧
    applyEffects {"a", "z"} (effects (buildLinkOps (some [some "a", some "b"]) (some [some "a"])) ++
      effects (buildLinkOps (some [none, some " "]) (some [some "a"]))) = result := by
  obtain ⟨result, horder, hadded, hremoved, hother, -⟩ :=
    saves_compose {"a", "z"} (some [some "a"]) (some [some "a", some "b"]) (some [none, some " "])
  have hnonBlank : NonBlank ['a'] ∧ NonBlank ['b'] := ⟨⟨'a', by decide⟩, 'b', by decide⟩
  refine ⟨result, hadded "b" (.inl ?_), hremoved "a" (.inr ?_) ?_ ?_, (hother "z" ?_ ?_ ?_).2 (.inr rfl),
    horder _ (.refl _)⟩
  all_goals simp [Added, Removed, Names, hnonBlank]

/-! ## Editing sessions -/

/-- The links of an element, and the list that each editor last got from the server. -/
structure Sessions (E : Type) where
  links : Set String
  known : E → IdList

/-- A list that an editor saves, and the list in the answer. -/
structure Save (E : Type) where
  editor : E
  current : IdList
  answer : IdList

variable {E : Type} [DecidableEq E]

/-- A save carries out what the list changes in the one that the editor knows. -/
def Sessions.save (s : Sessions E) (a : Save E) : Sessions E where
  links := applyEffects s.links (effects (buildLinkOps a.current (s.known a.editor)))
  known := Function.update s.known a.editor a.answer

/-- The answers have the links as they are then, and no editor but `e` changes `x`. -/
def ChangedBy (e : E) (x : String) : Sessions E → List (Save E) → Prop
  | _, [] => True
  | s, a :: saves => (∀ y, Names a.answer y ↔ y ∈ (s.save a).links) ∧
      (a.editor ≠ e → (Names a.current x ↔ Names (s.known a.editor) x)) ∧ ChangedBy e x (s.save a) saves

lemma mem_save_links (s : Sessions E) (a : Save E) : x ∈ (s.save a).links ↔
    Added a.current (s.known a.editor) x ∨ (x ∈ s.links ∧ ¬ Removed a.current (s.known a.editor) x) := by
  obtain ⟨hconnects, hdisconnects⟩ :=
    @connects_and_disconnects_buildLinkOps a.current (s.known a.editor) x
  have hdisjoint : ¬ (Connects (effects (buildLinkOps a.current (s.known a.editor))) x ∧
      Disconnects (effects (buildLinkOps a.current (s.known a.editor))) x) := by
    rw [hconnects, hdisconnects]
    exact fun ⟨hadded, hremoved⟩ => hadded.2 hremoved.1
  rw [Sessions.save, mem_applyEffects hdisjoint, hconnects, hdisconnects]

/-- However the saves of any editors follow each other, an id that only `e` changes is linked as `e` knows it, and the
next save of `e` links it as its list has it. -/
theorem own_change_stays (e : E) (x : String) {s : Sessions E} {saves : List (Save E)}
    (hknown : x ∈ s.links ↔ Names (s.known e) x) (hsaves : ChangedBy e x s saves) :
    let s' := saves.foldl Sessions.save s
    (x ∈ s'.links ↔ Names (s'.known e) x) ∧
      ∀ a : Save E, a.editor = e → (x ∈ (s'.save a).links ↔ Names a.current x) := by
  have hown : ∀ (s : Sessions E) (a : Save E), (x ∈ s.links ↔ Names (s.known e) x) → a.editor = e →
      (x ∈ (s.save a).links ↔ Names a.current x) := by
    rintro s a hs rfl
    rw [mem_save_links, Added, Removed, hs]
    tauto
  intro s'
  suffices hs' : x ∈ s'.links ↔ Names (s'.known e) x from ⟨hs', fun a => hown s' a hs'⟩
  induction saves generalizing s with
  | nil => exact hknown
  | cons a saves ih =>
    obtain ⟨hanswer, hothers, hrest⟩ := hsaves
    refine ih ?_ hrest
    show _ ↔ Names (Function.update s.known a.editor a.answer e) x
    by_cases ha : a.editor = e
    · rw [← hanswer, ha, Function.update_self]
    · -- the other editor leaves the id as it is
      rw [mem_save_links, Added, Removed, Function.update_of_ne (Ne.symm ha), ← hknown, hothers ha]
      tauto

/-- One editor attaches a control, and another one saves a list without it that was loaded before. -/
theorem own_change_stays_stale : "c" ∈ ((⟨∅, fun _ => none⟩ : Sessions ℕ).save ⟨0, some [some "c"], some [some "c"]⟩
    |>.save ⟨1, some [], some [some "c"]⟩).links := by
  have hattached : ∀ y, Names (some [some "c"]) y ↔ y = "c" := fun y => names_singleton ⟨'c', by decide⟩
  have hnone : ∀ y, ¬ Names none y ∧ ¬ Names (some []) y := fun y => by simp [Names]
  have hstays := @own_change_stays ℕ _ 0 "c" ⟨∅, fun _ => none⟩ [⟨0, some [some "c"], some [some "c"]⟩,
    ⟨1, some [], some [some "c"]⟩] (by simp [hnone]) ⟨fun y => ?_, nofun, fun y => ?_, fun _ => Iff.rfl, trivial⟩
  · exact hstays.1.2 ((hattached "c").2 rfl)
  · simp [mem_save_links, Added, Removed, hattached, hnone]
  · have hknown : ((⟨∅, fun _ => none⟩ : Sessions ℕ).save ⟨0, some [some "c"], some [some "c"]⟩).known 1 = none := rfl
    simp [mem_save_links, Added, Removed, hattached, hnone, hknown]

end LinkDelta
