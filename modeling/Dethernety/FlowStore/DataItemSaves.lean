import Dethernety.Foundations.Record
import Dethernety.Foundations.Transition

/-!
# Saves of data items

The part of `flowStore.ts` that keeps the cached data items: `updateDataItem`, the answers of element saves with
`syncDataItems`, and `resetStore`. A save of an element is answered with copies of its data items, which may be older
than what the items' own saves have returned; the store tells by sequence numbers and marks which of them to leave
alone.

A save awaits a request of its own, or shares that of a save which writes the same (`performMutation`): the server makes
one version or one list of copies of it for all of them.

The server counts the versions of a data item, and a copy is known by its version. A call is kept from the time that it
is made until it is answered; `stale` says that the store was reset in between, and `returned` has what the own saves of
items that were made since the last reset have returned. Texts of errors are left out.
-/

namespace FlowStore

structure DataItem where
  id : String
  version : ℕ
  deriving DecidableEq

structure DataItemSyncMark where
  seq : ℕ
  busy : List String
  epoch : ℕ
  deriving DecidableEq

/-- A call of `updateDataItem` that waits for its answer, with the version that the server has made of its request. -/
structure ItemSave where
  dataItemId : String
  request : ℕ
  epoch : ℕ
  executed : Option ℕ
  stale : Bool
  deriving DecidableEq

/-- A save of an element that waits for its answer, with the copies that the server has made. -/
structure ElementSave where
  mark : DataItemSyncMark
  request : ℕ
  copies : Option (List DataItem)
  stale : Bool
  deriving DecidableEq

structure ItemStore where
  dataItems : List DataItem
  operationStates : Record String Bool
  dataItemSavesInFlight : Record String ℕ
  dataItemSaveSeq : ℕ
  lastDataItemSaveStart : Record String ℕ
  storeEpoch : ℕ
  itemSaves : List ItemSave
  elementSaves : List ElementSave
  /-- The number of the next request. -/
  requests : ℕ
  /-- The versions that the server has. -/
  versions : String → ℕ
  returned : List DataItem

namespace ItemStore

variable (s : ItemStore)

def isOperationLoading (operation : String) : Bool :=
  (s.operationStates.get? operation).getD false

/-- `operationKey` of `updateDataItem` -/
def operationKey (dataItemId : String) : String :=
  "updateDataItem-" ++ dataItemId

def dataItemSyncMark : DataItemSyncMark :=
  ⟨s.dataItemSaveSeq, s.dataItemSavesInFlight.keys, s.storeEpoch⟩

/-- `splice` at the index that `findIndex` finds for an id, if there is one -/
def spliceItem (dataItemId : String) (item : DataItem) : List DataItem → List DataItem
  | [] => []
  | d :: items => if d.id = dataItemId then item :: items else d :: spliceItem dataItemId item items

/-- A save of the item overlapped the save that the mark is of. -/
def overlapped (mark : DataItemSyncMark) (dataItemId : String) : Bool :=
  let key := operationKey dataItemId
  s.isOperationLoading key ||
    (mark.busy.contains key || decide ((s.lastDataItemSaveStart.get? key).getD 0 > mark.seq))

/-- A round of the loop of `syncDataItems` over the copies. -/
def syncItem (mark : DataItemSyncMark) (items : List DataItem) (dataItem : DataItem) : List DataItem :=
  if dataItem.id ∈ items.map DataItem.id then
    if s.overlapped mark dataItem.id then items else spliceItem dataItem.id dataItem items
  else items ++ [dataItem]

def syncDataItems (newDataItems : List DataItem) (mark : DataItemSyncMark) : ItemStore :=
  if mark.epoch ≠ s.storeEpoch then s
  else { s with dataItems := newDataItems.foldl (s.syncItem mark) s.dataItems }

/-- `updateDataItem` until it awaits an answer -/
def startItemSave (dataItemId : String) : ItemStore :=
  let key := operationKey dataItemId
  { s with
    dataItemSavesInFlight := s.dataItemSavesInFlight.set key ((s.dataItemSavesInFlight.get? key).getD 0 + 1)
    lastDataItemSaveStart := s.lastDataItemSaveStart.set key (s.dataItemSaveSeq + 1)
    dataItemSaveSeq := s.dataItemSaveSeq + 1
    operationStates := s.operationStates.set key true
    itemSaves := ⟨dataItemId, s.requests, s.storeEpoch, none, false⟩ :: s.itemSaves
    requests := s.requests + 1 }

/-- What `updateDataItem` does with the data item that it is answered with. -/
def applyItem (c : ItemSave) (updatedDataItem : DataItem) : ItemStore :=
  if c.epoch = s.storeEpoch then
    { s with dataItems := spliceItem c.dataItemId updatedDataItem s.dataItems }
  else s

/-- The `finally` block of `updateDataItem` -/
def finishItemSave (c : ItemSave) : ItemStore :=
  let key := operationKey c.dataItemId
  if c.epoch = s.storeEpoch then
    let left := (s.dataItemSavesInFlight.get? key).getD 1 - 1
    { s with
      dataItemSavesInFlight :=
        if left > 0 then s.dataItemSavesInFlight.set key left else s.dataItemSavesInFlight.erase key
      operationStates := s.operationStates.set key (decide (left > 0)) }
  else s

def resetStore : ItemStore :=
  { s with
    dataItems := []
    operationStates := ∅
    dataItemSavesInFlight := ∅
    lastDataItemSaveStart := ∅
    storeEpoch := s.storeEpoch + 1
    itemSaves := s.itemSaves.map fun c => { c with stale := true }
    elementSaves := s.elementSaves.map fun e => { e with stale := true }
    returned := [] }

end ItemStore

inductive ItemEvent
  /-- A call of `updateDataItem`, with whether its input is valid. -/
  | saveItem (dataItemId : String) (valid : Bool)
  /-- A save joins the request of another one. -/
  | joinItem (c c' : ItemSave)
  /-- The server executes the request of a save. -/
  | executeItem (c : ItemSave)
  /-- The answer to a save, with whether the save has succeeded. -/
  | answerItem (c : ItemSave) (ok : Bool)
  | saveElement
  /-- A save of an element joins the request of another one. -/
  | joinElement (e e' : ElementSave)
  /-- The server executes the request of a save, of an element that has these data items. -/
  | executeElement (e : ElementSave) (dataItemIds : List String)
  /-- The answer to a save of an element, with whether it has succeeded and the element is still there. -/
  | answerElement (e : ElementSave) (ok : Bool)
  | reset
  /-- Another client writes a data item. -/
  | otherWrite (dataItemId : String)

namespace ItemStore

def answerItem (s : ItemStore) (c : ItemSave) (ok : Bool) : Option ItemStore :=
  let rest := { s with itemSaves := s.itemSaves.erase c }
  match c.executed, ok with
  | some version, true =>
    let answered := (rest.applyItem c ⟨c.dataItemId, version⟩).finishItemSave c
    some { answered with returned := if c.stale then s.returned else ⟨c.dataItemId, version⟩ :: s.returned }
  | none, true => none
  | _, false => some (rest.finishItemSave c)

/-- One event. -/
def next (s : ItemStore) : ItemEvent → Option ItemStore
  | .saveItem dataItemId valid => some (if valid then s.startItemSave dataItemId else s)
  | .joinItem c c' =>
    if c ∈ s.itemSaves ∧ c.executed = none ∧ c' ∈ s.itemSaves ∧ c'.dataItemId = c.dataItemId then
      some { s with itemSaves := { c with request := c'.request, executed := c'.executed } :: s.itemSaves.erase c }
    else none
  | .executeItem c =>
    if c ∈ s.itemSaves ∧ c.executed = none then
      let version := s.versions c.dataItemId + 1
      some { s with
        versions := Function.update s.versions c.dataItemId version
        itemSaves := s.itemSaves.map fun c' =>
          if c'.dataItemId = c.dataItemId ∧ c'.request = c.request then { c' with executed := some version } else c' }
    else none
  | .answerItem c ok => if c ∈ s.itemSaves then s.answerItem c ok else none
  | .saveElement =>
    some { s with
      elementSaves := ⟨s.dataItemSyncMark, s.requests, none, false⟩ :: s.elementSaves
      requests := s.requests + 1 }
  | .joinElement e e' =>
    if e ∈ s.elementSaves ∧ e.copies = none ∧ e' ∈ s.elementSaves then
      some { s with elementSaves := { e with request := e'.request, copies := e'.copies } :: s.elementSaves.erase e }
    else none
  | .executeElement e dataItemIds =>
    if e ∈ s.elementSaves ∧ e.copies = none then
      let copies := dataItemIds.map fun id => ⟨id, s.versions id⟩
      some { s with elementSaves := s.elementSaves.map fun e' =>
        if e'.request = e.request then { e' with copies := some copies } else e' }
    else none
  | .answerElement e ok =>
    if e ∈ s.elementSaves then
      let rest := { s with elementSaves := s.elementSaves.erase e }
      match e.copies, ok with
      | some copies, true => some (rest.syncDataItems copies e.mark)
      | none, true => none
      | _, false => some rest
    else none
  | .reset => some s.resetStore
  | .otherWrite dataItemId =>
    some { s with versions := Function.update s.versions dataItemId (s.versions dataItemId + 1) }

/-- A store without a save on the way. -/
structure Started (s : ItemStore) : Prop where
  nodup : (s.dataItems.map DataItem.id).Nodup
  idle : ∀ dataItemId, s.isOperationLoading (operationKey dataItemId) = false
  inFlight : s.dataItemSavesInFlight = ∅
  starts : s.lastDataItemSaveStart = ∅
  itemSaves : s.itemSaves = []
  elementSaves : s.elementSaves = []
  returned : s.returned = []

/-- The store, the server and what is on the way between them. -/
def system : TransitionSystem ItemStore ItemEvent where
  init := Started
  next := next

end ItemStore

end FlowStore
