import Mathlib.Data.List.DropRight
import Dethernety.Foundations.RecordCount

/-!
# Conduit deltas

Model of `sanitizeJustification`, `flattenConduits`, `dedupeByPeer` and `buildConduitOps` of
`boundary-zoning-utils.ts`. Connecting a peer that is connected makes a second edge, so a save sends
the difference to a baseline. The peers of the difference are different ones, and what the server makes
of it does not depend on the order in which it takes the operations. The justification is cut after it
is trimmed: a cut that ends in white space is trimmed again when it is read back.
-/

open List Record

namespace LinkDelta

/-- A string as the list of its code units. -/
abbrev Units := List UInt16

/-- A code unit that `String.prototype.trim` removes. -/
def isWhite (u : UInt16) : Bool :=
  (9 ≤ u && u ≤ 13) || (0x2000 ≤ u && u ≤ 0x200A) ||
    [0x20, 0xA0, 0x1680, 0x2028, 0x2029, 0x202F, 0x205F, 0x3000, 0xFEFF].contains u

/-- `s.trim()` -/
def trimUnits (s : Units) : Units :=
  (s.dropWhile isWhite).rdropWhile isWhite

def justificationMaxLen : ℕ := 500

def sanitizeJustification : Option Units → Option Units
  | none => none
  | some s =>
    let trimmed := (trimUnits s).take justificationMaxLen
    if trimmed.length ≠ 0 then some trimmed else none

/-- No white space stands where the trimmed text is cut. -/
def CutClean (s : Option Units) : Prop :=
  ∀ text ∈ s, ∀ u ∈ ((trimUnits text).take justificationMaxLen).getLast?, isWhite u = false

variable {s : Units}

lemma head_dropWhile {u : UInt16} (h : u ∈ (s.dropWhile isWhite).head?) : isWhite u = false := by
  have hne := head?_dropWhile_not isWhite s
  rw [Option.mem_def.1 h] at hne
  simpa using hne

lemma head_take_trimUnits {n : ℕ} {u : UInt16} (h : u ∈ ((trimUnits s).take n).head?) :
    isWhite u = false := by
  have hpre : (trimUnits s).take n <+: s.dropWhile isWhite :=
    (List.take_prefix n _).trans (List.rdropWhile_prefix _ _)
  refine head_dropWhile (s := s) ?_
  obtain ⟨rest, hrest⟩ := hpre
  rw [← hrest, head?_append, Option.mem_def.1 h]
  rfl

lemma dropWhile_eq_self_of_head (h : ∀ u ∈ s.head?, isWhite u = false) : s.dropWhile isWhite = s := by
  cases s with
  | nil => rfl
  | cons u s => exact dropWhile_cons_of_neg (by simpa using h u rfl)

/-- Sanitising again changes nothing unless white space stands where the text was cut. -/
lemma sanitizeJustification_idem_iff {s : Option Units} :
    sanitizeJustification (sanitizeJustification s) = sanitizeJustification s ↔ CutClean s := by
  cases s with
  | none => exact iff_of_true rfl fun text h => by cases h
  | some text =>
    set cut := (trimUnits text).take justificationMaxLen with hcut
    have hclean : CutClean (some text) ↔ ∀ u ∈ cut.getLast?, isWhite u = false := by
      simp [CutClean, hcut]
    have hsome : sanitizeJustification (some text) = if cut.length ≠ 0 then some cut else none := rfl
    rw [hclean, hsome]
    by_cases hnil : cut = []
    · simp [hnil, sanitizeJustification]
    have hlen : cut.length ≠ 0 := fun h => hnil (length_eq_zero_iff.1 h)
    -- Nothing is trimmed at the start, and nothing is cut any more.
    have htrim : trimUnits cut = cut.rdropWhile isWhite := by
      rw [trimUnits, dropWhile_eq_self_of_head fun u hu => head_take_trimUnits hu]
    have hshort : (cut.rdropWhile isWhite).take justificationMaxLen = cut.rdropWhile isWhite := by
      refine take_of_length_le ((List.rdropWhile_prefix _ _).length_le.trans ?_)
      exact length_take_le _ _
    have hagain : sanitizeJustification (some cut) =
        if (cut.rdropWhile isWhite).length ≠ 0 then some (cut.rdropWhile isWhite) else none := by
      rw [← hshort, ← htrim]
      rfl
    rw [if_pos hlen, hagain]
    have hlast : cut.rdropWhile isWhite = cut ↔ ∀ u ∈ cut.getLast?, isWhite u = false := by
      rw [rdropWhile_eq_self_iff]
      constructor
      · intro h u hu
        obtain ⟨hne, rfl⟩ := mem_getLast?_eq_getLast hu
        exact Bool.eq_false_iff.2 (h hne)
      · exact fun h hne => Bool.eq_false_iff.1 (h _ (getLast?_eq_some_getLast hne))
    rw [← hlast]
    constructor
    · intro h
      split_ifs at h
      exact Option.some.inj h
    · intro h
      rw [h, if_pos hlen]

inductive ConduitDirection
  | outbound
  | inbound
  deriving DecidableEq

/-- A `Conduit`; `none` is `null` or `undefined`. -/
structure Conduit where
  peerId : Option String
  direction : ConduitDirection
  justification : Option Units

/-- One round of `dedupeByPeer`. -/
def dedupeStep (selfId : String) (byPeer : Record String Conduit) (c : Conduit) : Record String Conduit :=
  match c.peerId with
  | none => byPeer
  | some peerId =>
    if peerId = "" ∨ peerId = selfId then byPeer
    else if (byPeer.get? peerId).isSome then byPeer
    else byPeer.set peerId c

def dedupeByPeer (conduits : List Conduit) (selfId : String) : Record String Conduit :=
  conduits.foldl (dedupeStep selfId) ∅

/-- The peers of one direction, with the conduit that counts for each. -/
def peersOf (direction : ConduitDirection) (conduits : Option (List Conduit)) (selfId : String) :
    Record String Conduit :=
  dedupeByPeer ((conduits.getD []).filter fun c => c.direction = direction) selfId

/-- An entry of a `connect` list. -/
structure ConduitConnect where
  peerId : String
  justification : Option Units

/-- An entry of a `disconnect` list. -/
structure ConduitDisconnect where
  peerId : String

/-- An op-object: `ConduitOps` or `ConduitUpdateOp`. -/
inductive ConduitOp
  | membership (connect : Option (List ConduitConnect)) (disconnect : Option (List ConduitDisconnect))
  | update (peerId : String) (justification : Option Units)

/-- `connect` and `updates` while the loop over the current peers runs. -/
structure Changes where
  connect : List ConduitConnect
  updates : List ConduitOp

/-- A round of the loop over the current peers. -/
def changesStep (base : Record String Conduit) (ch : Changes) (e : String × Conduit) : Changes :=
  let justification := sanitizeJustification e.2.justification
  match base.get? e.1 with
  | none => { ch with connect := ch.connect ++ [⟨e.1, justification⟩] }
  | some baseConduit =>
    if justification ≠ sanitizeJustification baseConduit.justification then
      { ch with updates := ch.updates ++ [.update e.1 justification] }
    else ch

def removedPeers (cur base : Record String Conduit) : List ConduitDisconnect :=
  (base.keys.filter fun peerId => ¬ (cur.get? peerId).isSome).map ConduitDisconnect.mk

def buildConduitOps (direction : ConduitDirection) (current baseline : Option (List Conduit))
    (selfId : String) : Option (List ConduitOp) :=
  let cur := peersOf direction current selfId
  let base := peersOf direction baseline selfId
  let changes := cur.entries.foldl (changesStep base) ⟨[], []⟩
  let disconnect := removedPeers cur base
  let membership :=
    if changes.connect.length ≠ 0 ∨ disconnect.length ≠ 0 then
      [ConduitOp.membership (if changes.connect.length ≠ 0 then some changes.connect else none)
        (if disconnect.length ≠ 0 then some disconnect else none)]
    else []
  let ops := membership ++ changes.updates
  if ops.length ≠ 0 then some ops else none

/-- A name that an edge can have on the other end. -/
def IsPeer (selfId p : String) : Prop :=
  p ≠ "" ∧ p ≠ selfId

instance (selfId p : String) : Decidable (IsPeer selfId p) :=
  inferInstanceAs (Decidable (_ ∧ _))

variable {selfId p : String} {c : Conduit}

lemma dedupeStep_of_isPeer (hc : c.peerId = some p) (hp : IsPeer selfId p)
    (r : Record String Conduit) : dedupeStep selfId r c = if (r.get? p).isSome then r else r.set p c := by
  have hgood : ¬ (p = "" ∨ p = selfId) := fun h => h.elim hp.1 hp.2
  simp only [dedupeStep, hc, if_neg hgood]

lemma dedupeStep_of_junk (hc : ∀ p ∈ c.peerId, ¬ IsPeer selfId p)
    (r : Record String Conduit) : dedupeStep selfId r c = r := by
  unfold dedupeStep
  split
  · rfl
  next p hp =>
    have hjunk : p = "" ∨ p = selfId := by
      by_contra hgood
      exact hc p hp (not_or.1 hgood)
    rw [if_pos hjunk]

lemma get?_dedupeStep (selfId : String) (r : Record String Conduit) (c : Conduit) (p : String) :
    (dedupeStep selfId r c).get? p =
      (r.get? p).or (if c.peerId = some p ∧ IsPeer selfId p then some c else none) := by
  by_cases hgood : ∃ q, c.peerId = some q ∧ IsPeer selfId q
  · obtain ⟨q, hq, hpeer⟩ := hgood
    rw [dedupeStep_of_isPeer hq hpeer, hq]
    by_cases hqp : q = p
    · subst hqp
      cases hget : r.get? q with
      | none => simp [hpeer, get?_set]
      | some c' => simp [hget]
    · have hne : ¬ (some q = some p ∧ IsPeer selfId p) := fun h => hqp (Option.some.inj h.1)
      rw [if_neg hne, Option.or_none]
      split_ifs
      · rfl
      · rw [get?_set, if_neg hqp]
  · have hne : ¬ (c.peerId = some p ∧ IsPeer selfId p) := fun h => hgood ⟨p, h⟩
    rw [dedupeStep_of_junk (fun q hq hpeer => hgood ⟨q, hq, hpeer⟩), if_neg hne, Option.or_none]

lemma get?_dedupeByPeer (selfId : String) (l : List Conduit) (p : String) :
    (dedupeByPeer l selfId).get? p =
      if IsPeer selfId p then l.find? fun c => c.peerId = some p else none := by
  suffices h : ∀ r : Record String Conduit, (l.foldl (dedupeStep selfId) r).get? p =
      (r.get? p).or (if IsPeer selfId p then l.find? fun c => c.peerId = some p else none) by
    simpa [dedupeByPeer] using h ∅
  induction l with
  | nil => simp
  | cons c l ih =>
    intro r
    rw [foldl_cons, ih, get?_dedupeStep, Option.or_assoc]
    by_cases hp : IsPeer selfId p
    · by_cases hc : c.peerId = some p
      all_goals simp [hp, hc]
    · simp [hp]

/-- An edge of one direction: the peer and the stored justification. -/
abbrev ConduitEdge := String × Option Units

/-- What `flattenConduits` makes of the edges of one direction. -/
def flattenConduits (direction : ConduitDirection) (edges : List ConduitEdge) : List Conduit :=
  (edges.filter fun e => e.1 ≠ "").map fun e =>
    { peerId := some e.1, direction := direction, justification := e.2 }

/-- One thing the server does for an op-object. -/
inductive ConduitAction
  | connect (peerId : String) (justification : Option Units)
  | disconnect (peerId : String)
  | update (peerId : String) (justification : Option Units)

def ConduitAction.peer : ConduitAction → String
  | .connect peerId _ => peerId
  | .disconnect peerId => peerId
  | .update peerId _ => peerId

/-- What the server does for an op-object. -/
def ConduitOp.actions : ConduitOp → List ConduitAction
  | .membership connect disconnect =>
    (disconnect.getD []).map (fun d => .disconnect d.peerId) ++
      (connect.getD []).map fun c => .connect c.peerId c.justification
  | .update peerId justification => [.update peerId justification]

/-- What the server does for an update value. -/
def actionsOf (ops : Option (List ConduitOp)) : List ConduitAction :=
  (ops.getD []).flatMap ConduitOp.actions

/-- Connecting adds an edge, also where the peer has one. -/
def applyAction (edges : List ConduitEdge) : ConduitAction → List ConduitEdge
  | .connect peerId justification => edges ++ [(peerId, justification)]
  | .disconnect peerId => edges.filter fun e => e.1 ≠ peerId
  | .update peerId justification => edges.map fun e => if e.1 = peerId then (peerId, justification) else e

/-- Actions one after the other. -/
def applyActions (edges : List ConduitEdge) (l : List ConduitAction) : List ConduitEdge :=
  l.foldl applyAction edges

/-- No peer has two edges. -/
def NoParallel (edges : List ConduitEdge) : Prop :=
  (edges.map Prod.fst).Nodup

/-- The edges of a server that holds the conduits as they are. -/
def storedEdges (peers : Record String Conduit) : List ConduitEdge :=
  peers.entries.map fun e => (e.1, e.2.justification)

/-- The edges that the current conduits ask for. -/
def wantedEdges (peers : Record String Conduit) : List ConduitEdge :=
  peers.entries.map fun e => (e.1, sanitizeJustification e.2.justification)

/-- The delta takes a server that holds the baseline to the current conduits, whatever the order in
which the server takes the actions, and nothing is left to do then. -/
def DeltaExact (direction : ConduitDirection) (current baseline : Option (List Conduit))
    (selfId : String) : Prop :=
  ∀ acts, acts.Perm (actionsOf (buildConduitOps direction current baseline selfId)) →
    let stored := storedEdges (peersOf direction baseline selfId)
    (∀ taken, taken <+: acts → NoParallel (applyActions stored taken)) ∧
      (applyActions stored acts).Perm (wantedEdges (peersOf direction current selfId)) ∧
      buildConduitOps direction current
        (some (flattenConduits direction (applyActions stored acts))) selfId = none

variable {direction : ConduitDirection} {current baseline : Option (List Conduit)} {selfId : String}

/-- What is done about one peer. -/
def peerActions (cur base : Option Conduit) (p : String) : List ConduitAction :=
  match cur, base with
  | none, none => []
  | none, some _ => [.disconnect p]
  | some c, none => [.connect p (sanitizeJustification c.justification)]
  | some c, some b =>
    if sanitizeJustification c.justification ≠ sanitizeJustification b.justification then
      [.update p (sanitizeJustification c.justification)]
    else []

variable {base : Option Conduit}

lemma peer_of_mem_peerActions {cur : Option Conduit} {a : ConduitAction}
    (h : a ∈ peerActions cur base p) : a.peer = p := by
  unfold peerActions at h
  split at h
  · exact absurd h not_mem_nil
  · rw [mem_singleton.1 h]
    rfl
  · rw [mem_singleton.1 h]
    rfl
  · split_ifs at h
    · rw [mem_singleton.1 h]
      rfl
    · exact absurd h not_mem_nil

def ConduitConnect.action (c : ConduitConnect) : ConduitAction :=
  .connect c.peerId c.justification

/-- What the loop adds for one current peer: its connection or its update. -/
lemma changesStep_actions (base : Record String Conduit) (ch : Changes) (e : String × Conduit) :
    (changesStep base ch e).connect.map ConduitConnect.action = ch.connect.map ConduitConnect.action ++
        (if (base.get? e.1).isSome then [] else peerActions (some e.2) (base.get? e.1) e.1) ∧
      (changesStep base ch e).updates.flatMap ConduitOp.actions = ch.updates.flatMap ConduitOp.actions ++
        (if (base.get? e.1).isSome then peerActions (some e.2) (base.get? e.1) e.1 else []) := by
  unfold changesStep
  cases hb : base.get? e.1 with
  | none => simp [peerActions, ConduitConnect.action]
  | some b =>
    by_cases hj : sanitizeJustification e.2.justification = sanitizeJustification b.justification
    · simp [peerActions, hj]
    · simp [peerActions, hj, ConduitOp.actions]

/-- The loop over the current peers, peer by peer. -/
lemma foldl_changesStep_actions (base : Record String Conduit) (l : List (String × Conduit)) (ch : Changes) :
    (l.foldl (changesStep base) ch).connect.map ConduitConnect.action =
        ch.connect.map ConduitConnect.action ++ l.flatMap (fun e =>
          if (base.get? e.1).isSome then [] else peerActions (some e.2) (base.get? e.1) e.1) ∧
      (l.foldl (changesStep base) ch).updates.flatMap ConduitOp.actions =
        ch.updates.flatMap ConduitOp.actions ++ l.flatMap (fun e =>
          if (base.get? e.1).isSome then peerActions (some e.2) (base.get? e.1) e.1 else []) := by
  induction l generalizing ch with
  | nil => simp
  | cons e l ih =>
    obtain ⟨hconnect, hupdates⟩ := ih (changesStep base ch e)
    obtain ⟨hconnect', hupdates'⟩ := changesStep_actions base ch e
    rw [foldl_cons, hconnect, hupdates, hconnect', hupdates', append_assoc, append_assoc]
    exact ⟨rfl, rfl⟩

lemma getD_ite_nil {α : Type} (l : List α) : (if l.length ≠ 0 then some l else none).getD [] = l := by
  split_ifs with hne
  · rfl
  · exact (length_eq_zero_iff.1 (not_not.1 hne)).symm

/-- The server's actions: the removed peers, the new ones, the changed ones. -/
lemma actionsOf_buildConduitOps :
    let cur := peersOf direction current selfId
    let base := peersOf direction baseline selfId
    actionsOf (buildConduitOps direction current baseline selfId) =
      base.entries.flatMap (fun e =>
          if (cur.get? e.1).isSome then [] else peerActions (cur.get? e.1) (some e.2) e.1) ++
        cur.entries.flatMap (fun e =>
          if (base.get? e.1).isSome then [] else peerActions (some e.2) (base.get? e.1) e.1) ++
        cur.entries.flatMap (fun e =>
          if (base.get? e.1).isSome then peerActions (some e.2) (base.get? e.1) e.1 else []) := by
  intro cur base
  obtain ⟨hconnect, hupdates⟩ := foldl_changesStep_actions base cur.entries ⟨[], []⟩
  set changes := cur.entries.foldl (changesStep base) ⟨[], []⟩ with hchanges
  -- The tests for empty lists only drop what has no action.
  have hkeep : ∀ ops : List ConduitOp,
      actionsOf (if ops.length ≠ 0 then some ops else none) = ops.flatMap ConduitOp.actions := by
    intro ops
    split_ifs with hne
    · rfl
    · rw [length_eq_zero_iff.1 (not_not.1 hne)]
      rfl
  have hremoved : (removedPeers cur base).map (fun d => ConduitAction.disconnect d.peerId) =
      base.entries.flatMap fun e =>
        if (cur.get? e.1).isSome then [] else peerActions (cur.get? e.1) (some e.2) e.1 := by
    unfold removedPeers Record.keys
    induction base.entries with
    | nil => rfl
    | cons e l ih =>
      rw [flatMap_cons, ← ih, map_cons]
      cases hcur : cur.get? e.1 with
      | none => simp [hcur, peerActions]
      | some c => simp [hcur]
  have hmembership : (if changes.connect.length ≠ 0 ∨ (removedPeers cur base).length ≠ 0 then
      [ConduitOp.membership (if changes.connect.length ≠ 0 then some changes.connect else none)
        (if (removedPeers cur base).length ≠ 0 then some (removedPeers cur base) else none)]
      else []).flatMap ConduitOp.actions =
        (removedPeers cur base).map (fun d => ConduitAction.disconnect d.peerId) ++
          changes.connect.map ConduitConnect.action := by
    by_cases hany : changes.connect.length ≠ 0 ∨ (removedPeers cur base).length ≠ 0
    · rw [if_pos hany, flatMap_singleton, ConduitOp.actions, getD_ite_nil, getD_ite_nil]
      rfl
    · obtain ⟨hnone, hnone'⟩ := not_or.1 hany
      rw [if_neg hany, length_eq_zero_iff.1 (not_not.1 hnone),
        length_eq_zero_iff.1 (not_not.1 hnone')]
      rfl
  show actionsOf (if _ then some _ else none) = _
  rw [hkeep, flatMap_append, hmembership, hremoved, hconnect, hupdates]
  rfl

lemma actionsOf_filter_peer (p : String) :
    ((actionsOf (buildConduitOps direction current baseline selfId)).filter fun a => a.peer = p) =
      peerActions ((peersOf direction current selfId).get? p) ((peersOf direction baseline selfId).get? p) p := by
  rw [actionsOf_buildConduitOps, filter_append, filter_append,
    flatMap_entries_filter _ fun e a ha => ?_, flatMap_entries_filter _ fun e a ha => ?_,
    flatMap_entries_filter _ fun e a ha => ?_]
  · cases hcur : (peersOf direction current selfId).get? p with
    | none => cases (peersOf direction baseline selfId).get? p <;> simp [hcur, peerActions]
    | some c => cases hbase : (peersOf direction baseline selfId).get? p <;> simp [hcur, hbase]
  all_goals
    split at ha
    all_goals
      first
        | exact absurd ha not_mem_nil
        | exact peer_of_mem_peerActions ha

lemma applyAction_filter (edges : List ConduitEdge) (a : ConduitAction) (p : String) :
    ((applyAction edges a).filter fun e => e.1 = p) =
      if a.peer = p then applyAction (edges.filter fun e => e.1 = p) a else edges.filter fun e => e.1 = p := by
  cases a with
  | connect q justification =>
    by_cases hq : q = p
    all_goals simp [applyAction, ConduitAction.peer, hq]
  | disconnect q =>
    by_cases hq : q = p
    · simp [applyAction, ConduitAction.peer, hq, filter_filter]
    · simp only [applyAction, ConduitAction.peer, if_neg hq, filter_filter]
      refine filter_congr fun e _ => ?_
      by_cases he : e.1 = p
      · simp [he, Ne.symm hq]
      · simp [he]
  | update q justification =>
    show ((edges.map _).filter _) = if q = p then (edges.filter _).map _ else edges.filter _
    by_cases hq : q = p
    · subst hq
      rw [if_pos rfl, filter_map]
      congr 1
      refine filter_congr fun e _ => ?_
      by_cases he : e.1 = q
      all_goals simp [he]
    · rw [if_neg hq]
      induction edges with
      | nil => rfl
      | cons e edges ih =>
        rw [map_cons, filter_cons, filter_cons, ih]
        by_cases he : e.1 = q
        · simp [he, hq]
        · simp [he]

lemma applyActions_filter (edges : List ConduitEdge) (l : List ConduitAction) (p : String) :
    ((applyActions edges l).filter fun e => e.1 = p) =
      applyActions (edges.filter fun e => e.1 = p) (l.filter fun a => a.peer = p) := by
  induction l generalizing edges with
  | nil => rfl
  | cons a l ih =>
    show ((applyActions (applyAction edges a) l).filter _) = _
    rw [ih, applyAction_filter]
    by_cases ha : a.peer = p
    · rw [if_pos ha, filter_cons_of_pos (by simpa using ha)]
      rfl
    · rw [if_neg ha, filter_cons_of_neg (by simpa using ha)]

lemma storedEdges_filter (peers : Record String Conduit) (p : String) :
    ((storedEdges peers).filter fun e => e.1 = p) = ((peers.get? p).map fun c => (p, c.justification)).toList := by
  have hcomp : ((fun e : ConduitEdge => decide (e.1 = p)) ∘ fun e : String × Conduit =>
      (e.1, e.2.justification)) = fun e => decide (e.1 = p) := rfl
  rw [storedEdges, filter_map, hcomp, entries_filter_key]
  cases peers.get? p <;> rfl

lemma wantedEdges_filter (peers : Record String Conduit) (p : String) :
    ((wantedEdges peers).filter fun e => e.1 = p) =
      ((peers.get? p).map fun c => (p, sanitizeJustification c.justification)).toList := by
  have hcomp : ((fun e : ConduitEdge => decide (e.1 = p)) ∘ fun e : String × Conduit =>
      (e.1, sanitizeJustification e.2.justification)) = fun e => decide (e.1 = p) := rfl
  rw [wantedEdges, filter_map, hcomp, entries_filter_key]
  cases peers.get? p <;> rfl

lemma perm_of_filter {l l' : List ConduitEdge}
    (h : ∀ p, (l.filter fun e => e.1 = p) = l'.filter fun e => e.1 = p) : l.Perm l' := by
  rw [perm_iff_count]
  intro e
  have hcount : ∀ l : List ConduitEdge, l.count e = (l.filter fun x => x.1 = e.1).count e := fun l =>
    (count_filter (by simp)).symm
  rw [hcount l, hcount l', h e.1]

lemma noParallel_of_filter {edges : List ConduitEdge}
    (h : ∀ p, (edges.filter fun e => e.1 = p).length ≤ 1) : NoParallel edges := by
  refine nodup_iff_count.2 fun p => ?_
  rw [List.count, countP_map, countP_eq_length_filter]
  exact h p

/-- The edge to one peer after the delta. -/
def finalEdge (cur base : Option Conduit) (p : String) : Option ConduitEdge :=
  cur.map fun c => (p,
    match base with
    | none => sanitizeJustification c.justification
    | some b =>
      if sanitizeJustification c.justification ≠ sanitizeJustification b.justification then
        sanitizeJustification c.justification
      else b.justification)

lemma applyActions_peerActions (cur base : Option Conduit) (p : String) :
    applyActions ((base.map fun b => (p, b.justification)).toList) (peerActions cur base p) =
      (finalEdge cur base p).toList := by
  cases cur with
  | none => cases base <;> simp [peerActions, finalEdge, applyActions, applyAction]
  | some c =>
    cases base with
    | none => simp [peerActions, finalEdge, applyActions, applyAction]
    | some b =>
      by_cases hj : sanitizeJustification c.justification = sanitizeJustification b.justification
      · simp [peerActions, finalEdge, applyActions, hj]
      · simp [peerActions, finalEdge, applyActions, applyAction, hj]

lemma length_peerActions_le (cur base : Option Conduit) (p : String) : (peerActions cur base p).length ≤ 1 := by
  unfold peerActions
  split
  · exact Nat.zero_le _
  · exact le_rfl
  · exact le_rfl
  · split_ifs
    · exact le_rfl
    · exact Nat.zero_le _

variable {acts : List ConduitAction}

/-- The edges that are left to one peer, whatever the order of the actions. -/
lemma applyActions_filter_peer
    (hacts : acts.Perm (actionsOf (buildConduitOps direction current baseline selfId))) (p : String) :
    ((applyActions (storedEdges (peersOf direction baseline selfId)) acts).filter fun e => e.1 = p) =
      (finalEdge ((peersOf direction current selfId).get? p) ((peersOf direction baseline selfId).get? p)
        p).toList := by
  set cur := (peersOf direction current selfId).get? p
  set base := (peersOf direction baseline selfId).get? p
  have hperm : (acts.filter fun a => a.peer = p).Perm (peerActions cur base p) := by
    rw [← actionsOf_filter_peer]
    exact hacts.filter _
  -- One action at most is about the peer, and a list of one has one order.
  have heq : (acts.filter fun a => a.peer = p) = peerActions cur base p := by
    have hlen := length_peerActions_le cur base p
    match hone : peerActions cur base p with
    | [] => exact (hone ▸ hperm).eq_nil
    | [a] => exact perm_singleton.1 (hone ▸ hperm)
    | a :: b :: l =>
      rw [hone] at hlen
      simp at hlen
  rw [applyActions_filter, storedEdges_filter, heq]
  exact applyActions_peerActions cur base p

lemma noParallel_applyActions {taken : List ConduitAction}
    (hacts : acts.Perm (actionsOf (buildConduitOps direction current baseline selfId))) (htaken : taken <+: acts) :
    NoParallel (applyActions (storedEdges (peersOf direction baseline selfId)) taken) := by
  refine noParallel_of_filter fun p => ?_
  have hfinal := applyActions_filter_peer hacts p
  rw [applyActions_filter, storedEdges_filter] at hfinal ⊢
  obtain ⟨rest, hrest⟩ := htaken.filter fun a => decide (a.peer = p)
  have hlen : ((acts.filter fun a => a.peer = p)).length ≤ 1 := by
    rw [(hacts.filter _).length_eq, actionsOf_filter_peer]
    exact length_peerActions_le _ _ _
  by_cases hnone : (taken.filter fun a => a.peer = p) = []
  · rw [hnone]
    cases (peersOf direction baseline selfId).get? p <;> simp [applyActions]
  · -- Then nothing is left to do about the peer.
    have hnil : rest = [] := by
      have hpos := length_pos_iff.2 hnone
      rw [← hrest, length_append] at hlen
      exact length_eq_zero_iff.1 (by omega)
    rw [hnil, append_nil] at hrest
    rw [hrest, hfinal]
    cases (peersOf direction current selfId).get? p <;> simp

/-- A conduit whose stored justification is read back as what was asked for: a kept text is in its
sanitised form already, and a text that is sent is not cut at white space. -/
def Settles (c : Conduit) (base : Option Conduit) : Prop :=
  match base with
  | none => CutClean c.justification
  | some b =>
    if sanitizeJustification c.justification = sanitizeJustification b.justification then
      b.justification = sanitizeJustification b.justification
    else CutClean c.justification

lemma settles_iff {e : ConduitEdge}
    (he : finalEdge (some c) base p = some e) :
    Settles c base ↔ e = (p, sanitizeJustification c.justification) ∧
      sanitizeJustification c.justification = sanitizeJustification e.2 := by
  cases he
  have hsent : CutClean c.justification ↔
      sanitizeJustification c.justification =
        sanitizeJustification (sanitizeJustification c.justification) :=
    sanitizeJustification_idem_iff.symm.trans eq_comm
  unfold Settles
  cases base with
  | none => exact hsent.trans (and_iff_right rfl).symm
  | some b =>
    by_cases hj : sanitizeJustification c.justification = sanitizeJustification b.justification
    · simp [hj]
    · simpa [hj] using hsent

lemma actions_ne_nil {ops : List ConduitOp} {op : ConduitOp}
    (h : buildConduitOps direction current baseline selfId = some ops) (hop : op ∈ ops) : op.actions ≠ [] := by
  set base := peersOf direction baseline selfId
  have hupdates : ∀ (l : List (String × Conduit)) (ch : Changes), (∀ u ∈ ch.updates, u.actions ≠ []) →
      ∀ u ∈ (l.foldl (changesStep base) ch).updates, u.actions ≠ [] := by
    intro l
    induction l with
    | nil => exact fun ch hch => hch
    | cons e _ ih =>
      refine fun ch hch => ih _ fun u hu => ?_
      unfold changesStep at hu
      split at hu
      · exact hch u hu
      · dsimp only at hu
        split_ifs at hu
        · obtain hu | hu := mem_append.1 hu
          · exact hch u hu
          · rw [mem_singleton.1 hu]
            exact cons_ne_nil _ _
        · exact hch u hu
  unfold buildConduitOps at h
  extract_lets cur changes disconnect membership ops' at h
  split_ifs at h with hne
  rw [← Option.some.inj h] at hop
  obtain hop | hop := mem_append.1 hop
  · unfold membership at hop
    by_cases hany : changes.connect.length ≠ 0 ∨ disconnect.length ≠ 0
    · rw [if_pos hany] at hop
      rw [mem_singleton.1 hop, ConduitOp.actions, getD_ite_nil, getD_ite_nil]
      intro hnil
      obtain ⟨hdisconnect, hconnect⟩ := append_eq_nil_iff.1 hnil
      rw [map_eq_nil_iff] at hdisconnect hconnect
      rw [hdisconnect, hconnect] at hany
      exact hany.elim (fun h => h rfl) fun h => h rfl
    · rw [if_neg hany] at hop
      exact absurd hop not_mem_nil
  · exact hupdates _ _ (fun u hu => absurd hu not_mem_nil) op hop

lemma buildConduitOps_eq_none_iff :
    buildConduitOps direction current baseline selfId = none ↔
      ∀ p, peerActions ((peersOf direction current selfId).get? p)
        ((peersOf direction baseline selfId).get? p) p = [] := by
  constructor
  · intro h p
    rw [← actionsOf_filter_peer, h]
    rfl
  · intro h
    by_contra hsome
    obtain ⟨ops, hops⟩ := Option.ne_none_iff_exists'.1 hsome
    have hne : ops ≠ [] := by
      unfold buildConduitOps at hops
      extract_lets _ _ _ _ _ ops' at hops
      split_ifs at hops with hlen
      rw [← Option.some.inj hops]
      exact fun hnil => hlen (length_eq_zero_iff.2 hnil)
    obtain ⟨op, hop⟩ := exists_mem_of_ne_nil ops hne
    obtain ⟨a, ha⟩ := exists_mem_of_ne_nil _ (actions_ne_nil hops hop)
    have hmem : a ∈ (actionsOf (buildConduitOps direction current baseline selfId)).filter
        fun a' => a'.peer = a.peer := by
      refine mem_filter.2 ⟨?_, by simp⟩
      rw [hops]
      exact mem_flatMap.2 ⟨op, hop, ha⟩
    rw [actionsOf_filter_peer, h] at hmem
    exact absurd hmem not_mem_nil

lemma isPeer_of_get? {conduits : Option (List Conduit)}
    (h : (peersOf direction conduits selfId).get? p = some c) : IsPeer selfId p := by
  rw [peersOf, get?_dedupeByPeer] at h
  by_contra hp
  rw [if_neg hp] at h
  cases h

lemma get?_peersOf_flattenConduits (direction : ConduitDirection) (edges : List ConduitEdge)
    (hp : IsPeer selfId p) :
    ((peersOf direction (some (flattenConduits direction edges)) selfId).get? p).map Conduit.justification =
      (edges.filter fun e => e.1 = p).head?.map Prod.snd := by
  rw [peersOf, get?_dedupeByPeer, if_pos hp, head?_filter, Option.getD_some]
  induction edges with
  | nil => rfl
  | cons e edges ih =>
    by_cases hempty : e.1 = ""
    · have hne : e.1 ≠ p := fun h => hp.1 (h.symm.trans hempty)
      rw [find?_cons_of_neg (by simpa using hne), ← ih]
      simp [flattenConduits, hempty]
    · by_cases he : e.1 = p
      · simp [flattenConduits, hp.1, he]
      · rw [find?_cons_of_neg (by simpa using he), ← ih]
        simp [flattenConduits, hempty, he]

/-- The delta is exact if and only if every current conduit settles. -/
theorem deltaExact_iff (direction : ConduitDirection) (current baseline : Option (List Conduit))
    (selfId : String) :
    DeltaExact direction current baseline selfId ↔
      ∀ p c, (peersOf direction current selfId).get? p = some c →
        Settles c ((peersOf direction baseline selfId).get? p) := by
  constructor
  · intro h p c hc
    obtain ⟨-, hperm, hdone⟩ := h _ (List.Perm.refl _)
    obtain ⟨e, he⟩ : ∃ e, finalEdge (some c) ((peersOf direction baseline selfId).get? p) p = some e :=
      ⟨_, rfl⟩
    have hfinal := applyActions_filter_peer (List.Perm.refl
      (actionsOf (buildConduitOps direction current baseline selfId))) p
    rw [hc, he] at hfinal
    refine (settles_iff he).2 ⟨?_, ?_⟩
    · have hsame := hperm.filter fun e => decide (e.1 = p)
      rw [hfinal, wantedEdges_filter, hc] at hsame
      simpa using hsame
    · have hpeer := buildConduitOps_eq_none_iff.1 hdone p
      have hread := get?_peersOf_flattenConduits direction
        (applyActions (storedEdges (peersOf direction baseline selfId))
          (actionsOf (buildConduitOps direction current baseline selfId))) (isPeer_of_get? hc)
      rw [hfinal] at hread
      obtain ⟨b, hb, hbe⟩ := Option.map_eq_some_iff.1 hread
      rw [hc, hb] at hpeer
      by_contra hne
      rw [← hbe] at hne
      simp [peerActions, hne] at hpeer
  · intro h acts hacts
    have hfinal := applyActions_filter_peer hacts
    refine ⟨fun taken htaken => noParallel_applyActions hacts htaken, perm_of_filter fun p => ?_,
      buildConduitOps_eq_none_iff.2 fun p => ?_⟩
    · rw [hfinal, wantedEdges_filter]
      cases hc : (peersOf direction current selfId).get? p with
      | none => rfl
      | some c =>
        obtain ⟨e, he⟩ : ∃ e, finalEdge (some c) ((peersOf direction baseline selfId).get? p) p = some e :=
          ⟨_, rfl⟩
        rw [he, ((settles_iff he).1 (h p c hc)).1]
        rfl
    · cases hc : (peersOf direction current selfId).get? p with
      | none =>
        -- A peer that is not wanted was not read back.
        cases hb : (peersOf direction (some (flattenConduits direction (applyActions _ acts))) selfId).get? p with
        | none => rfl
        | some b =>
          have hread := get?_peersOf_flattenConduits direction
            (applyActions (storedEdges (peersOf direction baseline selfId)) acts) (isPeer_of_get? hb)
          rw [hfinal, hc, hb] at hread
          cases hread
      | some c =>
        obtain ⟨e, he⟩ : ∃ e, finalEdge (some c) ((peersOf direction baseline selfId).get? p) p = some e :=
          ⟨_, rfl⟩
        have hread := get?_peersOf_flattenConduits direction
          (applyActions (storedEdges (peersOf direction baseline selfId)) acts) (isPeer_of_get? hc)
        rw [hfinal, hc, he] at hread
        obtain ⟨b, hb, hbe⟩ := Option.map_eq_some_iff.1 hread
        have heq := ((settles_iff he).1 (h p c hc)).2
        rw [← hbe] at heq
        rw [hb]
        simp [peerActions, heq]

/-- 499 times the letter a, a space and the letter b. -/
def cutAtSpace : Units :=
  List.replicate 499 97 ++ [32, 98]

/-- Connecting one peer with such a justification leaves an update to do, again and again. -/
theorem not_deltaExact_cutAtSpace : ¬ DeltaExact .outbound (some [⟨some "peer", .outbound, some cutAtSpace⟩])
    (some []) "self" := by
  intro h
  obtain ⟨-, -, hdone⟩ := h _ (List.Perm.refl _)
  revert hdone
  decide +kernel

end LinkDelta
