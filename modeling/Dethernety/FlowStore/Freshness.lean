import Dethernety.FlowStore.DataItemSaves
import Mathlib.Data.List.Nodup
import Mathlib.Tactic.SplitIfs

/-!
# Freshness of the cached data items

With the answers to the own saves of a data item in the order in which the server has executed them, the cached data
items are never older than what their own saves have returned, as long as no element save adds one in an older copy or
joins a request with one. A copy of an item that is cached is left alone when a save of the item overlapped; a copy of
one that is not cached is added without that test, and the request that an element save joins may have been executed
before its mark.
-/

open List Record Option
open Nat (le_succ_of_le)

namespace FlowStore

/-- A save of the data item that was sent since the last reset. -/
def ItemSave.isSaveOf (dataItemId : String) (c : ItemSave) : Bool :=
  !c.stale && decide (c.dataItemId = dataItemId)

lemma ItemSave.isSaveOf_iff {dataItemId : String} {c : ItemSave} :
    c.isSaveOf dataItemId = true ↔ c.stale = false ∧ c.dataItemId = dataItemId := by
  rw [isSaveOf, Bool.and_eq_true, Bool.not_eq_true', decide_eq_true_iff]

namespace ItemStore

/-- No save of an item that the server has executed earlier waits for its answer. -/
def InOrder (s : ItemStore) : ItemEvent → Prop
  | .answerItem c _ => ∀ version ∈ c.executed, ∀ c' ∈ s.itemSaves, c'.dataItemId = c.dataItemId →
      ∀ version' ∈ c'.executed, version ≤ version'
  | _ => True

/-- The answer to an element save adds no data item in a copy older than what a save of the item has returned. -/
def AddsNoOlder (s : ItemStore) : ItemEvent → Prop
  | .answerElement e true => e.stale = false → ∀ copies ∈ e.copies, ∀ d ∈ copies,
      d.id ∉ s.dataItems.map DataItem.id → ∀ r ∈ s.returned, r.id = d.id → r.version ≤ d.version
  | _ => True

/-- No element save joins a request with a copy that is older than what a save of the item has returned, unless a save
of the item overlapped. -/
def JoinsNoOlder (s : ItemStore) : ItemEvent → Prop
  | .joinElement e e' => e.stale = false → ∀ copies ∈ e'.copies, ∀ d ∈ copies, s.overlapped e.mark d.id = false →
      ∀ r ∈ s.returned, r.id = d.id → r.version ≤ d.version
  | _ => True

/-- No cached data item is older than what one of its own saves has returned. -/
def Fresh (s : ItemStore) : Prop :=
  ∀ d ∈ s.dataItems, ∀ r ∈ s.returned, r.id = d.id → r.version ≤ d.version

/-- The number of saves of an item on the way. -/
def saving (s : ItemStore) (dataItemId : String) : ℕ :=
  s.itemSaves.countP (ItemSave.isSaveOf dataItemId)

variable {s : ItemStore} {c : ItemSave} {dataItemId : String} {mark : DataItemSyncMark} {a : ItemEvent}

lemma saving_pos_iff : 0 < s.saving dataItemId ↔ ∃ c ∈ s.itemSaves, c.dataItemId = dataItemId ∧ c.stale = false := by
  rw [saving, countP_pos_iff]
  refine exists_congr fun c => and_congr_right fun _ => ?_
  rw [ItemSave.isSaveOf_iff, and_comm]

lemma operationKey_inj {a b : String} : operationKey a = operationKey b ↔ a = b :=
  String.append_right_inj _

section

variable {V : Type*} (r : Record String V) (a b : String)

lemma get?_set_operationKey (v : V) :
    (r.set (operationKey a) v).get? (operationKey b) = if a = b then some v else r.get? (operationKey b) := by
  rw [get?_set]
  simp only [operationKey_inj]

lemma get?_erase_operationKey :
    (r.erase (operationKey a)).get? (operationKey b) = if a = b then none else r.get? (operationKey b) := by
  rw [get?_erase]
  simp only [operationKey_inj]

end

/-- A save of the item was on the way with the mark's save, or has started since. -/
def Marked (s : ItemStore) (mark : DataItemSyncMark) (dataItemId : String) : Prop :=
  operationKey dataItemId ∈ mark.busy ∨ mark.seq < (s.lastDataItemSaveStart.get? (operationKey dataItemId)).getD 0

lemma overlapped_of_marked (h : s.Marked mark dataItemId) : s.overlapped mark dataItemId = true := by
  rw [overlapped, Bool.or_eq_true, Bool.or_eq_true]
  obtain hbusy | hseq := h
  · exact .inr (.inl (contains_iff_mem.2 hbusy))
  · exact .inr (.inr (decide_eq_true hseq))

/-- What the flags, counts, numbers and marks say of the saves on the way. -/
structure Tracked (s : ItemStore) : Prop where
  nodup : (s.dataItems.map DataItem.id).Nodup
  saves : ∀ c ∈ s.itemSaves, c.epoch ≤ s.storeEpoch ∧ (c.stale = false ↔ c.epoch = s.storeEpoch)
  marks : ∀ e ∈ s.elementSaves, e.mark.epoch ≤ s.storeEpoch ∧ (e.stale = false ↔ e.mark.epoch = s.storeEpoch)
  inFlight : ∀ id, s.dataItemSavesInFlight.get? (operationKey id) =
    if s.saving id = 0 then none else some (s.saving id)
  loading : ∀ id, s.isOperationLoading (operationKey id) = decide (0 < s.saving id)
  seq : ∀ e ∈ s.elementSaves, e.mark.seq ≤ s.dataItemSaveSeq
  marked : ∀ e ∈ s.elementSaves, e.stale = false → ∀ id, 0 < s.saving id → s.Marked e.mark id

/-- How the copies and the answers on the way stand to what the items' own saves have returned. -/
structure Current (s : ItemStore) : Prop where
  returned : ∀ r ∈ s.returned, r.version ≤ s.versions r.id
  executed : ∀ c ∈ s.itemSaves, ∀ version ∈ c.executed,
    version ≤ s.versions c.dataItemId ∧ ∀ r ∈ s.returned, r.id = c.dataItemId → r.version ≤ version
  copies : ∀ e ∈ s.elementSaves, e.stale = false → ∀ copies ∈ e.copies, ∀ d ∈ copies,
    s.Marked e.mark d.id ∨ ∀ r ∈ s.returned, r.id = d.id → r.version ≤ d.version
  fresh : s.Fresh

/-- A save of an element is marked for the items whose saves overlapped it. -/
lemma Tracked.marked_of_overlapped {e : ElementSave} (h : s.Tracked) (he : e ∈ s.elementSaves) (hlive : e.stale = false)
    (hover : s.overlapped e.mark dataItemId = true) : s.Marked e.mark dataItemId := by
  rw [overlapped, Bool.or_eq_true, Bool.or_eq_true, h.loading] at hover
  obtain hsaving | hbusy | hseq := hover
  · exact h.marked e he hlive dataItemId (of_decide_eq_true hsaving)
  · exact .inl (contains_iff_mem.1 hbusy)
  · exact .inr (of_decide_eq_true hseq)

lemma tracked_of_started (h : Started s) : s.Tracked where
  nodup := h.nodup
  saves c hc := by
    rw [h.itemSaves] at hc
    cases hc
  marks e he := by
    rw [h.elementSaves] at he
    cases he
  inFlight id := by
    rw [h.inFlight, saving, h.itemSaves]
    rfl
  loading id := by
    rw [h.idle, saving, h.itemSaves]
    rfl
  seq e he := by
    rw [h.elementSaves] at he
    cases he
  marked e he := by
    rw [h.elementSaves] at he
    cases he

lemma current_of_started (h : Started s) : s.Current where
  returned r hr := by
    rw [h.returned] at hr
    cases hr
  executed c hc := by
    rw [h.itemSaves] at hc
    cases hc
  copies e he := by
    rw [h.elementSaves] at he
    cases he
  fresh d _ r hr := by
    rw [h.returned] at hr
    cases hr

/-! ### Items -/

lemma ids_spliceItem {item : DataItem} (hid : item.id = dataItemId) (items : List DataItem) :
    (spliceItem dataItemId item items).map DataItem.id = items.map DataItem.id := by
  induction items with
  | nil => rfl
  | cons d items ih =>
    rw [spliceItem]
    split_ifs with hd
    · rw [map_cons, map_cons, hid, hd]
    · rw [map_cons, map_cons, ih]

lemma mem_spliceItem {item d : DataItem} {items : List DataItem}
    (hnodup : (items.map DataItem.id).Nodup) (hd : d ∈ spliceItem dataItemId item items) :
    d = item ∨ d ∈ items ∧ d.id ≠ dataItemId := by
  induction items with
  | nil => cases hd
  | cons _ _ ih =>
    obtain ⟨hnew, hnodup⟩ := nodup_cons.1 hnodup
    rw [spliceItem] at hd
    split_ifs at hd with hid
    · obtain rfl | hd := mem_cons.1 hd
      · exact .inl rfl
      · refine .inr ⟨.tail _ hd, fun heq => hnew ?_⟩
        rw [hid, ← heq]
        exact mem_map_of_mem hd
    · obtain rfl | hd := mem_cons.1 hd
      · exact .inr ⟨.head _, hid⟩
      · exact (ih hnodup hd).imp_right fun h => ⟨.tail _ h.1, h.2⟩

section

variable {s : ItemStore} {mark : DataItemSyncMark}

lemma nodup_syncItem {items : List DataItem} (h : (items.map DataItem.id).Nodup) (d : DataItem) :
    ((s.syncItem mark items d).map DataItem.id).Nodup := by
  rw [syncItem]
  split_ifs with hmem hover
  · exact h
  · rwa [ids_spliceItem rfl]
  · rw [map_append, map_singleton, ← concat_eq_append]
    exact List.Nodup.concat hmem h

lemma subset_syncItem (items : List DataItem) (d : DataItem) :
    items.map DataItem.id ⊆ (s.syncItem mark items d).map DataItem.id := by
  rw [syncItem]
  split_ifs with hmem hover
  · exact List.Subset.refl _
  · rw [ids_spliceItem rfl]
    exact List.Subset.refl _
  · rw [map_append]
    exact subset_append_left _ _

lemma nodup_foldl_syncItem (copies : List DataItem) {items : List DataItem}
    (h : (items.map DataItem.id).Nodup) : ((copies.foldl (s.syncItem mark) items).map DataItem.id).Nodup := by
  induction copies generalizing items with
  | nil => exact h
  | cons d _ ih => exact ih (nodup_syncItem h d)

/-- A property of the cached items stays when each copy has it that is added or whose item did not overlap. -/
lemma forall_foldl_syncItem {P : DataItem → Prop} {ids : List String} (copies : List DataItem)
    {items : List DataItem} (hnodup : (items.map DataItem.id).Nodup) (hids : ids ⊆ items.map DataItem.id)
    (hitems : ∀ d ∈ items, P d) (hadds : ∀ d ∈ copies, d.id ∉ ids → P d)
    (hover : ∀ d ∈ copies, s.overlapped mark d.id = true ∨ P d) : ∀ d ∈ copies.foldl (s.syncItem mark) items, P d := by
  induction copies generalizing items with
  | nil => exact hitems
  | cons copy copies ih =>
    refine ih (nodup_syncItem hnodup copy) (List.Subset.trans hids (subset_syncItem items copy)) ?_
      (fun d hd => hadds d (.tail _ hd)) fun d hd => hover d (.tail _ hd)
    intro d hd
    rw [syncItem] at hd
    split_ifs at hd with hmem hoverlap
    · exact hitems d hd
    · obtain rfl | ⟨hd, -⟩ := mem_spliceItem hnodup hd
      · exact (hover d (.head _)).resolve_left hoverlap
      · exact hitems d hd
    · obtain hd | hd := mem_append.1 hd
      · exact hitems d hd
      · rw [mem_singleton.1 hd]
        exact hadds copy (.head _) fun hid => hmem (hids hid)

end

/-! ### The counts and marks -/

/-- Flags, counts and numbers that stay, with saves on the way that stay up to what the server has made of them. -/
lemma Tracked.frame {s t : ItemStore} (h : s.Tracked) (hnodup : (t.dataItems.map DataItem.id).Nodup)
    (hmarks : ∀ e ∈ t.elementSaves, ∃ e' ∈ s.elementSaves, e'.mark = e.mark ∧ e'.stale = e.stale := by
      exact fun e he => ⟨e, he, rfl, rfl⟩)
    (hsaves : ∀ c ∈ t.itemSaves, ∃ c' ∈ s.itemSaves, c'.epoch = c.epoch ∧ c'.stale = c.stale := by
      exact fun c hc => ⟨c, hc, rfl, rfl⟩)
    (hsaving : ∀ id, t.saving id = s.saving id := by exact fun _ => rfl)
    (hstates : t.operationStates = s.operationStates := by rfl)
    (hinFlight : t.dataItemSavesInFlight = s.dataItemSavesInFlight := by rfl)
    (hseq : t.dataItemSaveSeq = s.dataItemSaveSeq := by rfl)
    (hstarts : t.lastDataItemSaveStart = s.lastDataItemSaveStart := by rfl)
    (hepoch : t.storeEpoch = s.storeEpoch := by rfl) : t.Tracked where
  nodup := hnodup
  saves c hc := by
    obtain ⟨c', hc', hce, hcs⟩ := hsaves c hc
    rw [hepoch, ← hce, ← hcs]
    exact h.saves c' hc'
  marks e he := by
    obtain ⟨e', he', hem, hes⟩ := hmarks e he
    rw [hepoch, ← hem, ← hes]
    exact h.marks e' he'
  inFlight id := by
    rw [hinFlight, hsaving]
    exact h.inFlight id
  loading id := by
    rw [isOperationLoading, hstates, hsaving]
    exact h.loading id
  seq e he := by
    obtain ⟨e', he', hem, -⟩ := hmarks e he
    rw [hseq, ← hem]
    exact h.seq e' he'
  marked e he hlive id hsave := by
    obtain ⟨e', he', hem, hes⟩ := hmarks e he
    rw [Marked, hstarts, ← hem]
    exact h.marked e' he' (hes.trans hlive) id (hsaving id ▸ hsave)

lemma saving_cons_erase {l : List ItemSave} {c c' : ItemSave} (hc : c ∈ l) {p : ItemSave → Bool}
    (hp : p c' = p c) : (c' :: l.erase c).countP p = l.countP p := by
  rw [(perm_cons_erase hc).countP_eq p, countP_cons, countP_cons, hp]

lemma countP_erase_add {l : List ItemSave} (hc : c ∈ l) (p : ItemSave → Bool) :
    (l.erase c).countP p + (if p c = true then 1 else 0) = l.countP p := by
  rw [(perm_cons_erase hc).countP_eq p, countP_cons]

lemma saving_startItemSave (s : ItemStore) (dataItemId id : String) :
    (s.startItemSave dataItemId).saving id = s.saving id + if dataItemId = id then 1 else 0 := by
  show List.countP _ (_ :: s.itemSaves) = _
  rw [countP_cons]
  refine congrArg (s.saving id + ·) ?_
  by_cases hid : dataItemId = id
  · rw [if_pos hid, if_pos (ItemSave.isSaveOf_iff.2 ⟨rfl, hid⟩)]
  · rw [if_neg hid, if_neg fun h => hid (ItemSave.isSaveOf_iff.1 h).2]

lemma Marked.startItemSave {id : String}
    (hseq : mark.seq ≤ s.dataItemSaveSeq) (h : s.Marked mark id) (dataItemId : String) :
    (s.startItemSave dataItemId).Marked mark id := by
  refine h.imp_right fun hstart => ?_
  show mark.seq < ((s.lastDataItemSaveStart.set _ _).get? _).getD 0
  rw [get?_set]
  split_ifs with hkey
  · exact Nat.lt_succ_of_le hseq
  · exact hstart

lemma marked_startItemSave (hseq : mark.seq ≤ s.dataItemSaveSeq)
    (dataItemId : String) : (s.startItemSave dataItemId).Marked mark dataItemId := by
  right
  show mark.seq < ((s.lastDataItemSaveStart.set _ _).get? _).getD 0
  rw [get?_set, if_pos rfl]
  exact Nat.lt_succ_of_le hseq

lemma Tracked.getD_inFlight (h : s.Tracked) (id : String) :
    (s.dataItemSavesInFlight.get? (operationKey id)).getD 0 = s.saving id := by
  rw [h.inFlight]
  split_ifs with hzero
  · exact hzero.symm
  · rfl

lemma Tracked.startItemSave (h : s.Tracked) (dataItemId : String) :
    (s.startItemSave dataItemId).Tracked where
  nodup := h.nodup
  saves c hc := by
    obtain rfl | hc := mem_cons.1 hc
    · exact ⟨Nat.le_refl _, iff_of_true rfl rfl⟩
    · exact h.saves c hc
  marks := h.marks
  inFlight id := by
    show (s.dataItemSavesInFlight.set _ _).get? _ = _
    rw [get?_set_operationKey, saving_startItemSave]
    by_cases hid : dataItemId = id
    · rw [if_pos hid, if_pos hid, if_neg (Nat.succ_ne_zero _), h.getD_inFlight, hid]
    · rw [if_neg hid, if_neg hid, Nat.add_zero]
      exact h.inFlight id
  loading id := by
    show ((s.operationStates.set _ _).get? _).getD false = _
    rw [get?_set_operationKey, saving_startItemSave]
    by_cases hid : dataItemId = id
    · rw [if_pos hid, if_pos hid]
      exact (decide_eq_true (Nat.succ_pos _)).symm
    · rw [if_neg hid, if_neg hid, Nat.add_zero]
      exact h.loading id
  seq e he := le_succ_of_le (h.seq e he)
  marked e he hlive id hsave := by
    rw [saving_startItemSave] at hsave
    by_cases hid : dataItemId = id
    · rw [← hid]
      exact marked_startItemSave (h.seq e he) dataItemId
    · rw [if_neg hid] at hsave
      exact (h.marked e he hlive id hsave).startItemSave (h.seq e he) dataItemId

/-- An answer takes its save off the count, whatever becomes of the cached items. -/
lemma Tracked.finishItemSave (h : s.Tracked) (hc : c ∈ s.itemSaves)
    {items returned : List DataItem} (hitems : (items.map DataItem.id).Nodup) :
    Tracked
      ({ s with itemSaves := s.itemSaves.erase c, dataItems := items, returned := returned }.finishItemSave c) := by
  have hcount := fun id => countP_erase_add hc (ItemSave.isSaveOf id)
  obtain ⟨-, hepoch⟩ := h.saves c hc
  rw [ItemStore.finishItemSave]
  by_cases heq : c.epoch = s.storeEpoch
  · -- a save of this generation
    have hlive := hepoch.2 heq
    rw [if_pos heq]
    have hleft : (s.dataItemSavesInFlight.get? (operationKey c.dataItemId)).getD 1 - 1 =
        (s.itemSaves.erase c).countP (ItemSave.isSaveOf c.dataItemId) := by
      have hone := hcount c.dataItemId
      rw [if_pos (ItemSave.isSaveOf_iff.2 ⟨hlive, rfl⟩)] at hone
      rw [h.inFlight, saving, if_neg (by omega), getD_some]
      omega
    have hother : ∀ {id}, c.dataItemId ≠ id →
        (s.itemSaves.erase c).countP (ItemSave.isSaveOf id) = s.saving id := by
      intro id hid
      have hnone := hcount id
      rwa [if_neg fun hsave => hid (ItemSave.isSaveOf_iff.1 hsave).2, Nat.add_zero] at hnone
    refine
      { nodup := hitems
        saves := fun c' hc' => h.saves c' (mem_of_mem_erase hc')
        marks := h.marks
        inFlight := fun id => ?_
        loading := fun id => ?_
        seq := h.seq
        marked := fun e he hlive id hsave => h.marked e he hlive id ?_ }
    · show Record.get? (if _ > 0 then _ else _) _ =
        if (s.itemSaves.erase c).countP (ItemSave.isSaveOf id) = 0 then none
        else some ((s.itemSaves.erase c).countP (ItemSave.isSaveOf id))
      rw [hleft]
      by_cases hid : c.dataItemId = id
      · subst hid
        by_cases hzero : (s.itemSaves.erase c).countP (ItemSave.isSaveOf c.dataItemId) = 0
        · rw [if_pos hzero, if_neg (Nat.not_lt.2 (Nat.le_of_eq hzero)), get?_erase_operationKey, if_pos rfl]
        · rw [if_neg hzero, if_pos (Nat.pos_of_ne_zero hzero), get?_set_operationKey, if_pos rfl]
      · rw [hother hid, ← h.inFlight]
        split_ifs
        · rw [get?_set_operationKey, if_neg hid]
        · rw [get?_erase_operationKey, if_neg hid]
    · show ((s.operationStates.set _ _).get? _).getD false =
        decide (0 < (s.itemSaves.erase c).countP (ItemSave.isSaveOf id))
      rw [hleft, get?_set_operationKey]
      split_ifs with hid
      · rw [← hid]
        rfl
      · rw [hother hid]
        exact h.loading id
    · have hless := hcount id
      have hsave' : 0 < (s.itemSaves.erase c).countP (ItemSave.isSaveOf id) := hsave
      rw [← saving] at hless
      omega
  · -- a save of an earlier one
    rw [if_neg heq]
    refine h.frame hitems (fun e he => ⟨e, he, rfl, rfl⟩) (fun c' hc' => ⟨c', mem_of_mem_erase hc', rfl, rfl⟩)
      fun id => ?_
    have hnone := hcount id
    have hstale : ¬c.isSaveOf id = true := fun hsave => heq (hepoch.1 (ItemSave.isSaveOf_iff.1 hsave).1)
    rwa [if_neg hstale, Nat.add_zero] at hnone

lemma Tracked.resetStore (h : s.Tracked) : s.resetStore.Tracked := by
  have hzero : ∀ id, s.resetStore.saving id = 0 := by
    intro id
    show List.countP _ (s.itemSaves.map _) = 0
    rw [countP_eq_zero]
    intro c hc hsave
    obtain ⟨c', -, rfl⟩ := mem_map.1 hc
    cases (ItemSave.isSaveOf_iff.1 hsave).1
  exact
    { nodup := nodup_nil
      saves := by
        intro c hc
        obtain ⟨c', hc', rfl⟩ := mem_map.1 hc
        have hle := (h.saves c' hc').1
        refine ⟨le_succ_of_le hle, iff_of_false Bool.noConfusion ?_⟩
        exact Nat.ne_of_lt (Nat.lt_succ_of_le hle)
      marks := by
        intro e he
        obtain ⟨e', he', rfl⟩ := mem_map.1 he
        have hle := (h.marks e' he').1
        refine ⟨le_succ_of_le hle, iff_of_false Bool.noConfusion ?_⟩
        exact Nat.ne_of_lt (Nat.lt_succ_of_le hle)
      inFlight := fun id => by
        rw [hzero]
        rfl
      loading := fun id => by
        rw [hzero]
        rfl
      seq := by
        intro e he
        obtain ⟨e', he', rfl⟩ := mem_map.1 he
        exact h.seq e' he'
      marked := fun _ _ _ id hsave => absurd hsave (by rw [hzero]; exact Nat.lt_irrefl 0) }

/-! ### The events -/

lemma answerItem_cases {s s' : ItemStore} {ok : Bool} (h : s.answerItem c ok = some s') :
    (∃ version, c.executed = some version ∧ ok = true ∧
      s' = ItemStore.finishItemSave
        { s with
          itemSaves := s.itemSaves.erase c
          dataItems :=
            if c.epoch = s.storeEpoch then spliceItem c.dataItemId ⟨c.dataItemId, version⟩ s.dataItems
            else s.dataItems
          returned := if c.stale then s.returned else ⟨c.dataItemId, version⟩ :: s.returned } c) ∨
    ok = false ∧ s' = ItemStore.finishItemSave { s with itemSaves := s.itemSaves.erase c } c := by
  unfold answerItem at h
  cases hexec : c.executed with
  | none =>
    rw [hexec] at h
    cases ok with
    | true => cases h
    | false => exact .inr ⟨rfl, (some.inj h).symm⟩
  | some version =>
    rw [hexec] at h
    cases ok with
    | false => exact .inr ⟨rfl, (some.inj h).symm⟩
    | true =>
      refine .inl ⟨version, rfl, rfl, ?_⟩
      rw [← some.inj h]
      unfold applyItem ItemStore.finishItemSave
      split_ifs <;> rfl

lemma answerElement_cases {s s' : ItemStore} {e : ElementSave} {ok : Bool}
    (h : s.next (.answerElement e ok) = some s') : e ∈ s.elementSaves ∧
      (s' = { s with elementSaves := s.elementSaves.erase e } ∨ ∃ copies, e.copies = some copies ∧ ok = true ∧
        s' = { s with elementSaves := s.elementSaves.erase e }.syncDataItems copies e.mark) := by
  rw [ItemStore.next] at h
  split_ifs at h with he
  refine ⟨he, ?_⟩
  cases hcopies : e.copies with
  | none =>
    rw [hcopies] at h
    cases ok with
    | true => cases h
    | false => exact .inl (some.inj h).symm
  | some copies =>
    rw [hcopies] at h
    cases ok with
    | false => exact .inl (some.inj h).symm
    | true => exact .inr ⟨copies, rfl, rfl, (some.inj h).symm⟩

lemma Tracked.next {s s' : ItemStore} (h : s.Tracked) (hnext : s.next a = some s') : s'.Tracked := by
  cases a with
  | saveItem dataItemId valid =>
    cases hnext
    cases valid with
    | true => exact h.startItemSave dataItemId
    | false => exact h
  | joinItem c c' =>
    rw [ItemStore.next] at hnext
    split_ifs at hnext with hc
    cases hnext
    refine h.frame h.nodup (fun e he => ⟨e, he, rfl, rfl⟩) (fun c₁ hc₁ => ?_) fun id => saving_cons_erase hc.1 rfl
    obtain rfl | hc₁ := mem_cons.1 hc₁
    · exact ⟨c, hc.1, rfl, rfl⟩
    · exact ⟨c₁, mem_of_mem_erase hc₁, rfl, rfl⟩
  | executeItem c =>
    rw [ItemStore.next] at hnext
    split_ifs at hnext with hc
    cases hnext
    refine h.frame h.nodup (fun e he => ⟨e, he, rfl, rfl⟩) (fun c₁ hc₁ => ?_) fun id => ?_
    · obtain ⟨c', hc', rfl⟩ := mem_map.1 hc₁
      refine ⟨c', hc', ?_⟩
      split_ifs <;> exact ⟨rfl, rfl⟩
    · show countP _ (map _ s.itemSaves) = _
      rw [countP_map]
      refine countP_congr fun c' _ => ?_
      rw [Function.comp_apply]
      split_ifs <;> rfl
  | answerItem c ok =>
    rw [ItemStore.next] at hnext
    split_ifs at hnext with hc
    obtain ⟨version, -, -, rfl⟩ | ⟨-, rfl⟩ := answerItem_cases hnext
    · refine h.finishItemSave hc ?_
      split_ifs
      · rw [ids_spliceItem (by rfl)]
        exact h.nodup
      · exact h.nodup
    · exact h.finishItemSave hc h.nodup
  | saveElement =>
    cases hnext
    exact { h with
      marks := fun e he => by
        obtain rfl | he := mem_cons.1 he
        · exact ⟨Nat.le_refl _, iff_of_true rfl rfl⟩
        · exact h.marks e he
      seq := fun e he => by
        obtain rfl | he := mem_cons.1 he
        · exact Nat.le_refl _
        · exact h.seq e he
      marked := fun e he hlive id hsave => by
        obtain rfl | he := mem_cons.1 he
        · -- the mark takes the saves on the way along
          refine .inl (mem_keys_of_get? ((h.inFlight id).trans (if_neg ?_)))
          exact Nat.pos_iff_ne_zero.1 hsave
        · exact h.marked e he hlive id hsave }
  | joinElement e e' =>
    rw [ItemStore.next] at hnext
    split_ifs at hnext with he
    cases hnext
    refine h.frame h.nodup fun e₁ he₁ => ?_
    obtain rfl | he₁ := mem_cons.1 he₁
    · exact ⟨e, he.1, rfl, rfl⟩
    · exact ⟨e₁, mem_of_mem_erase he₁, rfl, rfl⟩
  | executeElement e dataItemIds =>
    rw [ItemStore.next] at hnext
    split_ifs at hnext with he
    cases hnext
    refine h.frame h.nodup fun e₁ he₁ => ?_
    obtain ⟨e', he', rfl⟩ := mem_map.1 he₁
    refine ⟨e', he', ?_⟩
    split_ifs <;> exact ⟨rfl, rfl⟩
  | answerElement e ok =>
    have hrest : ∀ {items : List DataItem}, (items.map DataItem.id).Nodup →
        Tracked { s with elementSaves := s.elementSaves.erase e, dataItems := items } := fun hitems =>
      h.frame hitems fun e' he' => ⟨e', mem_of_mem_erase he', rfl, rfl⟩
    obtain ⟨-, rfl | ⟨copies, -, -, rfl⟩⟩ := answerElement_cases hnext
    · exact hrest h.nodup
    · rw [syncDataItems]
      split_ifs
      · exact hrest h.nodup
      · exact hrest (nodup_foldl_syncItem copies h.nodup)
  | reset =>
    cases hnext
    exact h.resetStore
  | otherWrite dataItemId =>
    cases hnext
    exact h.frame h.nodup

lemma Current.answered (h : s.Current) (htracked : s.Tracked) {version : ℕ}
    (hc : c ∈ s.itemSaves) (hlive : c.stale = false) (hexec : c.executed = some version)
    (horder : ∀ c' ∈ s.itemSaves, c'.dataItemId = c.dataItemId → ∀ version' ∈ c'.executed, version ≤ version') :
    Current
      { s with
        itemSaves := s.itemSaves.erase c
        dataItems := spliceItem c.dataItemId ⟨c.dataItemId, version⟩ s.dataItems
        returned := ⟨c.dataItemId, version⟩ :: s.returned } := by
  obtain ⟨hversion, hnewest⟩ := h.executed c hc version hexec
  have hsaving : 0 < s.saving c.dataItemId := saving_pos_iff.2 ⟨c, hc, rfl, hlive⟩
  refine
    { returned := fun r hr => ?_
      executed := fun c' hc' version' hexec' => ?_
      copies := fun e he hlive' copies hcopies d hd => ?_
      fresh := fun d hd r hr hid => ?_ }
  · obtain rfl | hr := mem_cons.1 hr
    · exact hversion
    · exact h.returned r hr
  · have hmem := mem_of_mem_erase hc'
    obtain ⟨hversion', hnewest'⟩ := h.executed c' hmem version' hexec'
    refine ⟨hversion', fun r hr hid => ?_⟩
    obtain rfl | hr := mem_cons.1 hr
    · exact horder c' hmem hid.symm version' hexec'
    · exact hnewest' r hr hid
  · -- a copy of the item itself overlapped the save that is answered
    obtain hid | hid := eq_or_ne d.id c.dataItemId
    · exact .inl (htracked.marked e he hlive' d.id (hid ▸ hsaving))
    · refine (h.copies e he hlive' copies hcopies d hd).imp_right fun hnewer r hr hrd => ?_
      obtain rfl | hr := mem_cons.1 hr
      · exact absurd hrd.symm hid
      · exact hnewer r hr hrd
  · obtain rfl | ⟨hd, hne⟩ := mem_spliceItem htracked.nodup hd
    · obtain rfl | hr := mem_cons.1 hr
      · exact Nat.le_refl _
      · exact hnewest r hr hid
    · obtain rfl | hr := mem_cons.1 hr
      · exact absurd hid.symm hne
      · exact h.fresh d hd r hr hid

lemma le_update_succ (versions : String → ℕ) (dataItemId id : String) :
    versions id ≤ Function.update versions dataItemId (versions dataItemId + 1) id := by
  rw [Function.update_apply]
  split_ifs with hid
  · rw [hid]
    exact Nat.le_succ _
  · exact Nat.le_refl _

/-- Fewer saves on the way, with the rest as it was. -/
lemma Current.mono {s t : ItemStore} (h : s.Current) (hitems : t.dataItems = s.dataItems := by rfl)
    (hreturned : t.returned = s.returned := by rfl)
    (hstarts : t.lastDataItemSaveStart = s.lastDataItemSaveStart := by rfl)
    (hversions : ∀ id, s.versions id ≤ t.versions id := by first | exact fun _ => Nat.le_refl _ | exact le_update_succ _ _)
    (hsaves : t.itemSaves ⊆ s.itemSaves := by first | exact List.Subset.refl _ | exact erase_subset)
    (helements : t.elementSaves ⊆ s.elementSaves := by first | exact List.Subset.refl _ | exact erase_subset) :
    t.Current where
  returned r hr := Nat.le_trans (h.returned r (hreturned ▸ hr)) (hversions r.id)
  executed c hc version hexec := by
    rw [hreturned]
    obtain ⟨hversion, hnewest⟩ := h.executed c (hsaves hc) version hexec
    exact ⟨Nat.le_trans hversion (hversions c.dataItemId), hnewest⟩
  copies e he hlive copies hcopies d hd := by
    rw [hreturned, Marked, hstarts]
    exact h.copies e (helements he) hlive copies hcopies d hd
  fresh := by
    rw [Fresh, hitems, hreturned]
    exact h.fresh

lemma Current.finishItemSave (h : s.Current) (c : ItemSave) : (s.finishItemSave c).Current := by
  rw [ItemStore.finishItemSave]
  split_ifs
  all_goals exact h.mono

lemma Current.next {s s' : ItemStore} (h : s.Current) (htracked : s.Tracked)
    (horder : s.InOrder a) (hadds : s.AddsNoOlder a) (hjoins : s.JoinsNoOlder a) (hnext : s.next a = some s') :
    s'.Current := by
  cases a with
  | saveItem dataItemId valid =>
    cases hnext
    cases valid with
    | false => exact h
    | true =>
      exact { h with
        executed := fun c hc version hexec => by
          obtain rfl | hc := mem_cons.1 hc
          · cases hexec
          · exact h.executed c hc version hexec
        copies := fun e he hlive copies hcopies d hd =>
          (h.copies e he hlive copies hcopies d hd).imp_left fun hmarked =>
            hmarked.startItemSave (htracked.seq e he) dataItemId }
  | joinItem c c' =>
    rw [ItemStore.next] at hnext
    split_ifs at hnext with hc
    cases hnext
    obtain ⟨-, -, hc', hid⟩ := hc
    exact { h with
      executed := fun c₁ hc₁ version hexec => by
        obtain rfl | hc₁ := mem_cons.1 hc₁
        · rw [← hid]
          exact h.executed c' hc' version hexec
        · exact h.executed c₁ (mem_of_mem_erase hc₁) version hexec }
  | executeItem c =>
    rw [ItemStore.next] at hnext
    split_ifs at hnext with hc
    cases hnext
    have hle := le_update_succ s.versions c.dataItemId
    exact { h with
      returned := fun r hr => Nat.le_trans (h.returned r hr) (hle r.id)
      executed := fun c₁ hc₁ version hexec => by
        obtain ⟨c', hc', rfl⟩ := mem_map.1 hc₁
        split_ifs at hexec ⊢ with hshares
        · -- the server has just made this version
          cases hexec
          dsimp only
          rw [hshares.1, Function.update_self]
          exact ⟨Nat.le_refl _, fun r hr hid => le_succ_of_le (hid ▸ h.returned r hr)⟩
        · obtain ⟨hversion, hnewest⟩ := h.executed c' hc' version hexec
          exact ⟨Nat.le_trans hversion (hle c'.dataItemId), hnewest⟩ }
  | answerItem c ok =>
    rw [ItemStore.next] at hnext
    split_ifs at hnext with hc
    obtain ⟨version, hexec, -, rfl⟩ | ⟨-, rfl⟩ := answerItem_cases hnext
    · refine Current.finishItemSave ?_ c
      obtain ⟨-, hepoch⟩ := htracked.saves c hc
      cases hlive : c.stale with
      | false =>
        rw [if_pos (hepoch.1 hlive), if_neg nofun]
        exact h.answered htracked hc hlive hexec (horder version hexec)
      | true =>
        rw [if_neg fun heq => Bool.noConfusion (hlive.symm.trans (hepoch.2 heq)), if_pos rfl]
        exact h.mono
    · refine Current.finishItemSave ?_ c
      exact h.mono
  | saveElement =>
    cases hnext
    exact { h with
      copies := fun e he hlive copies hcopies d hd => by
        obtain rfl | he := mem_cons.1 he
        · cases hcopies
        · exact h.copies e he hlive copies hcopies d hd }
  | joinElement e e' =>
    rw [ItemStore.next] at hnext
    split_ifs at hnext with he
    cases hnext
    exact { h with
      copies := fun e₁ he₁ hlive copies hcopies d hd => by
        obtain rfl | he₁ := mem_cons.1 he₁
        · cases hover : s.overlapped e.mark d.id with
          | true =>
            have hmarked := htracked.marked_of_overlapped he.1 hlive hover
            exact .inl hmarked
          | false => exact .inr (hjoins hlive copies hcopies d hd hover)
        · exact h.copies e₁ (mem_of_mem_erase he₁) hlive copies hcopies d hd }
  | executeElement e dataItemIds =>
    rw [ItemStore.next] at hnext
    split_ifs at hnext with he
    cases hnext
    exact { h with
      copies := fun e₁ he₁ hlive copies hcopies d hd => by
        obtain ⟨e', he', rfl⟩ := mem_map.1 he₁
        split_ifs at hlive hcopies ⊢
        · -- the copies are what the server has now
          cases hcopies
          obtain ⟨id, -, rfl⟩ := mem_map.1 hd
          refine .inr fun r hr hid => ?_
          have hreturned := h.returned r hr
          rwa [show r.id = id from hid] at hreturned
        · exact h.copies e' he' hlive copies hcopies d hd }
  | answerElement e ok =>
    have hrest : Current { s with elementSaves := s.elementSaves.erase e } :=
      h.mono
    obtain ⟨he, rfl | ⟨copies, hcopies, rfl, rfl⟩⟩ := answerElement_cases hnext
    · exact hrest
    · rw [syncDataItems]
      split_ifs with hepoch
      · exact hrest
      · have hlive := (htracked.marks e he).2.2 (not_not.1 hepoch)
        refine { hrest with fresh := ?_ }
        refine forall_foldl_syncItem copies htracked.nodup (List.Subset.refl _) h.fresh
          (hadds hlive copies hcopies) fun d hd => ?_
        exact (h.copies e he hlive copies hcopies d hd).imp_left overlapped_of_marked
  | reset =>
    cases hnext
    exact
      { returned := fun r hr => absurd hr not_mem_nil
        executed := fun c hc version hexec => by
          obtain ⟨c', hc', rfl⟩ := mem_map.1 hc
          exact ⟨(h.executed c' hc' version hexec).1, fun r hr => absurd hr not_mem_nil⟩
        copies := fun e he hlive => by
          obtain ⟨e', -, rfl⟩ := mem_map.1 he
          cases hlive
        fresh := fun d hd => absurd hd not_mem_nil }
  | otherWrite dataItemId =>
    cases hnext
    exact h.mono

/-! ### The runs -/

/-- An answer to a save that was sent before the last reset. -/
def FromBeforeReset (s : ItemStore) : ItemEvent → Prop
  | .answerItem c _ => c ∈ s.itemSaves ∧ c.stale = true
  | .answerElement e _ => e ∈ s.elementSaves ∧ e.stale = true
  | _ => False

lemma Tracked.dataItems_of_fromBeforeReset {s s' : ItemStore} (h : s.Tracked)
    (ha : s.FromBeforeReset a) (hnext : s.next a = some s') : s'.dataItems = s.dataItems := by
  cases a with
  | answerItem c ok =>
    obtain ⟨hc, hstale⟩ := ha
    have hepoch : c.epoch ≠ s.storeEpoch := fun heq => by
      rw [(h.saves c hc).2.2 heq] at hstale
      cases hstale
    rw [ItemStore.next, if_pos hc] at hnext
    obtain ⟨version, -, -, rfl⟩ | ⟨-, rfl⟩ := answerItem_cases hnext
    · rw [ItemStore.finishItemSave, if_neg hepoch]
      exact if_neg hepoch
    · rw [ItemStore.finishItemSave, if_neg hepoch]
  | answerElement e ok =>
    obtain ⟨he, hstale⟩ := ha
    have hepoch : e.mark.epoch ≠ s.storeEpoch := fun heq => by
      rw [(h.marks e he).2.2 heq] at hstale
      cases hstale
    obtain ⟨-, rfl | ⟨copies, -, -, rfl⟩⟩ := answerElement_cases hnext
    · rfl
    · rw [syncDataItems, if_pos hepoch]
  | _ => exact ha.elim

/-- As long as no element save adds a data item in an older copy or joins a request with one, answers to the saves of
one item that come in order leave no cached item older than what its own saves have returned. -/
theorem freshItems_of_reachable {s : ItemStore}
    (h : system.Reachable (fun s a => s.InOrder a ∧ s.AddsNoOlder a ∧ s.JoinsNoOlder a) s) :
    s.Fresh ∧
    (∀ a s', s.FromBeforeReset a → s.next a = some s' → s'.dataItems = s.dataItems) ∧
    ∀ dataItemId, s.isOperationLoading (operationKey dataItemId) = true ↔
      ∃ c ∈ s.itemSaves, c.dataItemId = dataItemId ∧ c.stale = false := by
  have hinv : s.Tracked ∧ s.Current := by
    refine h.invariant (P := fun s => s.Tracked ∧ s.Current) (fun s hs => ?_) fun s a s' hs hok hnext => ?_
    · exact ⟨tracked_of_started hs, current_of_started hs⟩
    · exact ⟨hs.1.next hnext, hs.2.next hs.1 hok.1 hok.2.1 hok.2.2 hnext⟩
  refine ⟨hinv.2.fresh, fun a s' ha hnext => hinv.1.dataItems_of_fromBeforeReset ha hnext, fun dataItemId => ?_⟩
  rw [hinv.1.loading, decide_eq_true_iff, saving_pos_iff]

/-! ### A run with a copy that is older -/

instance (s : ItemStore) : DecidablePred s.InOrder
  | .answerItem c _ => inferInstanceAs (Decidable (∀ version ∈ c.executed, ∀ c' ∈ s.itemSaves,
      c'.dataItemId = c.dataItemId → ∀ version' ∈ c'.executed, version ≤ version'))
  | .saveItem .. | .joinItem .. | .executeItem _ | .saveElement | .joinElement .. | .executeElement ..
  | .answerElement .. | .reset | .otherWrite _ => inferInstanceAs (Decidable True)

instance (s : ItemStore) : DecidablePred s.AddsNoOlder
  | .answerElement e true => inferInstanceAs (Decidable (e.stale = false → ∀ copies ∈ e.copies, ∀ d ∈ copies,
      d.id ∉ s.dataItems.map DataItem.id → ∀ r ∈ s.returned, r.id = d.id → r.version ≤ d.version))
  | .answerElement _ false => inferInstanceAs (Decidable True)
  | .saveItem .. | .joinItem .. | .executeItem _ | .answerItem .. | .saveElement | .joinElement .. | .executeElement ..
  | .reset | .otherWrite _ => inferInstanceAs (Decidable True)

instance (s : ItemStore) : DecidablePred s.JoinsNoOlder
  | .joinElement e e' => inferInstanceAs (Decidable (e.stale = false → ∀ copies ∈ e'.copies, ∀ d ∈ copies,
      s.overlapped e.mark d.id = false → ∀ r ∈ s.returned, r.id = d.id → r.version ≤ d.version))
  | .saveItem .. | .joinItem .. | .executeItem _ | .answerItem .. | .saveElement | .executeElement ..
  | .answerElement .. | .reset | .otherWrite _ => inferInstanceAs (Decidable True)

instance (s : ItemStore) : Decidable s.Fresh :=
  inferInstanceAs (Decidable (∀ d ∈ s.dataItems, ∀ r ∈ s.returned, r.id = d.id → r.version ≤ d.version))

/-- All saves that were sent since the last reset have been answered. -/
def AllAnswered (s : ItemStore) : Prop :=
  (∀ c ∈ s.itemSaves, c.stale = true) ∧ ∀ e ∈ s.elementSaves, e.stale = true

instance (s : ItemStore) : Decidable s.AllAnswered :=
  inferInstanceAs (Decidable (_ ∧ _))

/-- A store with these items in its cache, the first version of each at the server, and nothing on the way. -/
def idle (items : List DataItem) : ItemStore where
  dataItems := items
  operationStates := ∅
  dataItemSavesInFlight := ∅
  dataItemSaveSeq := 0
  lastDataItemSaveStart := ∅
  storeEpoch := 0
  itemSaves := []
  elementSaves := []
  requests := 0
  versions := fun _ => 1
  returned := []

lemma started_idle {items : List DataItem} (h : (items.map DataItem.id).Nodup) : Started (idle items) where
  nodup := h
  idle _ := rfl
  inFlight := rfl
  starts := rfl
  itemSaves := rfl
  elementSaves := rfl
  returned := rfl

/-- A save of an item and one of its element, where the server has the element first and answers it last. -/
def overtaken : List ItemEvent :=
  let c : ItemSave := ⟨"card", 0, 0, none, false⟩
  let e : ElementSave := ⟨⟨1, ["updateDataItem-card"], 0⟩, 1, none, false⟩
  [.saveItem "card" true, .saveElement, .executeElement e ["card"], .executeItem c,
    .answerItem { c with executed := some 2 } true, .answerElement { e with copies := some [⟨"card", 1⟩] } true]

/-- An item that is not cached is left in an older copy than its own save has returned. -/
theorem not_fresh_overtaken :
    ¬∀ s, system.Reachable (fun s a => s.InOrder a) s → s.AllAnswered → s.Fresh := by
  intro hclaim
  have hrun : ((system.run (fun s a => decide (s.InOrder a)) (idle []) overtaken).any
      fun s => decide (s.AllAnswered ∧ ¬s.Fresh)) = true := by
    decide +kernel
  obtain ⟨s, hs, hcheck⟩ := (any_eq_true _ _).1 hrun
  obtain ⟨hanswered, hfresh⟩ := of_decide_eq_true hcheck
  refine hfresh (hclaim s (TransitionSystem.reachable_of_run (fun _ _ => of_decide_eq_true) (.init ?_) hs) hanswered)
  exact started_idle nodup_nil

/-- The same, where a second save of the element joins the request before the server has executed it. -/
def joined : List ItemEvent :=
  let c : ItemSave := ⟨"card", 0, 0, none, false⟩
  let e : ElementSave := ⟨⟨1, ["updateDataItem-card"], 0⟩, 1, none, false⟩
  let copies : Option (List DataItem) := some [⟨"card", 1⟩]
  [.saveItem "card" true, .saveElement, .saveElement, .joinElement { e with request := 2 } e,
    .executeElement e ["card"],
    .executeItem c, .answerItem { c with executed := some 2 } true, .answerElement { e with copies := copies } true,
    .answerElement { e with copies := copies } true]

/-- A cached item is left in the version that its own save has returned. -/
theorem freshItems_overtaken : ∃ s : ItemStore, s.elementSaves = [] ∧ s.dataItems = [⟨"card", 2⟩] ∧
    s.returned = [⟨"card", 2⟩] ∧ s.Fresh := by
  have hrun : ((system.run (fun s a => decide (s.InOrder a ∧ s.AddsNoOlder a ∧ s.JoinsNoOlder a))
      (idle [⟨"card", 1⟩]) joined).any
      fun s => decide (s.elementSaves = [] ∧ s.dataItems = [⟨"card", 2⟩] ∧ s.returned = [⟨"card", 2⟩])) = true := by
    decide +kernel
  obtain ⟨s, hs, hcheck⟩ := (any_eq_true _ _).1 hrun
  obtain ⟨hsaves, hitems, hreturned⟩ := of_decide_eq_true hcheck
  refine ⟨s, hsaves, hitems, hreturned, (freshItems_of_reachable ?_).1⟩
  refine TransitionSystem.reachable_of_run (fun _ _ => of_decide_eq_true) (.init ?_) hs
  exact started_idle (nodup_singleton _)

end ItemStore

end FlowStore
