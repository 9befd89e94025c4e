import Dethernety.Foundations.Transition
import Dethernety.LinkDelta.LinkOps

/-!
# Saves of a node

`updateNode` of `flowStore.ts` on one node of the canvas, with `updateComponentNode`, `updateBoundaryNode` and
`revertNode` under it, and the request as `dt-component.ts` and `dt-boundary.ts` make it. The label, description,
position and parent of the node are kept; the other fields of a node take the same way.

A call merges its edit into the node and sends the fields that it names; an answer carries the whole element and
replaces the four fields, and a failed call puts back the node as it was before the call's own merge. Calls with the
same edit share the request that is on the way. The answers come in the order in which the server has executed the
requests (`answered` is a queue); a request may be refused at any time before.
-/

open List

namespace FlowStore

/-- The fields of a node; `P` is the type of positions. -/
structure CanvasNode (P : Type*) where
  label : String
  description : String
  position : P
  parentNode : String
  deriving DecidableEq

/-- `updates` of `updateNode`, or a node narrowed to the fields that it names. -/
structure NodeEdit (P : Type*) where
  label : Option String
  description : Option String
  position : Option P
  parentNode : Option String

/-- The input of the update mutation; `parentBoundary` is the id of the `connect`. -/
structure ElementInput (P : Type*) where
  name : Option String
  description : Option String
  position : Option P
  parentBoundary : Option String
  deriving DecidableEq

structure Element (P : Type*) where
  name : String
  description : String
  position : P
  parentBoundary : Option String
  deriving DecidableEq

section

variable {P : Type*}

/-- `deepMerge`, for the fields of an edit -/
def deepMerge (node : CanvasNode P) (updates : NodeEdit P) : CanvasNode P where
  label := updates.label.getD node.label
  description := updates.description.getD node.description
  position := updates.position.getD node.position
  parentNode := updates.parentNode.getD node.parentNode

def projectEdit (source : CanvasNode P) (updates : NodeEdit P) : NodeEdit P where
  label := updates.label.map fun _ => source.label
  description := updates.description.map fun _ => source.description
  position := updates.position.map fun _ => source.position
  parentNode := updates.parentNode.map fun _ => source.parentNode

def assertConnectId (id : String) : Option String :=
  if LinkDelta.isConnectId (some id) then some id else none

/-- The input of `updateComponent` and of `updateBoundaryNode`, unless the parent is refused. -/
def elementInput (defaultBoundaryId : String) (edited : NodeEdit P) : Option (ElementInput P) :=
  match edited.parentNode with
  | none => some ⟨edited.label, edited.description, edited.position, none⟩
  | some parentNode =>
    (assertConnectId (if parentNode = "" then defaultBoundaryId else parentNode)).map fun id =>
      ⟨edited.label, edited.description, edited.position, some id⟩

/-- The update mutation. The parent is disconnected, and a boundary is connected if there is one with the id. -/
def Element.update (isBoundary : String → Bool) (element : Element P) (input : ElementInput P) : Element P where
  name := input.name.getD element.name
  description := input.description.getD element.description
  position := input.position.getD element.position
  parentBoundary :=
    match input.parentBoundary with
    | none => element.parentBoundary
    | some id => if isBoundary id then some id else none

/-- The fields of a node that `updateComponentNode` and `updateBoundaryNode` take from an answer. -/
def Element.shown (defaultBoundaryId : String) (element : Element P) : CanvasNode P where
  label := element.name
  description := element.description
  position := element.position
  parentNode :=
    let parentBoundary := element.parentBoundary.getD defaultBoundaryId
    if parentBoundary ≠ defaultBoundaryId then parentBoundary else ""

end

/-- A request on the way, with the snapshots of the calls that await it, the latest first. A request without an input
is one that the writer has refused to send. -/
structure NodeRequest (P : Type*) where
  input : Option (ElementInput P)
  snapshots : List (CanvasNode P)
  deriving DecidableEq

/-- A node in the store, its element at the server, and what is on the way between them. -/
structure NodeStore (P : Type*) where
  node : CanvasNode P
  element : Element P
  sent : List (NodeRequest P)
  /-- Requests that the server has executed, with their answers. -/
  answered : List (NodeRequest P × Element P)

/-- The request that a call awaits: one of its own, or one on the way with the same variables. -/
inductive Awaited (P : Type*)
  | own
  | sent (request : NodeRequest P)
  | answered (request : NodeRequest P) (answer : Element P)

inductive NodeEvent (P : Type*)
  | updateNode (updates : NodeEdit P) (awaited : Awaited P)
  | execute (request : NodeRequest P)
  /-- The first answer comes. -/
  | accept
  /-- A request fails that the server has not executed. -/
  | reject (request : NodeRequest P)

namespace NodeStore

variable {P : Type*} [DecidableEq P]

/-- `revertNode` for the calls of a request, in their order -/
def revertNode (snapshots : List (CanvasNode P)) (node : CanvasNode P) : CanvasNode P :=
  snapshots.foldr (fun snapshot _ => snapshot) node

/-- `updateNode` until it awaits the answer -/
def updateNode (s : NodeStore P) (defaultBoundaryId : String) (updates : NodeEdit P) :
    Awaited P → Option (NodeStore P)
  | awaited =>
    let node := deepMerge s.node updates
    let input := elementInput defaultBoundaryId (projectEdit node updates)
    match awaited with
    | .own => some { s with node := node, sent := ⟨input, [s.node]⟩ :: s.sent }
    | .sent request =>
      if request ∈ s.sent ∧ request.input = input ∧ input.isSome then
        some { s with
          node := node
          sent := { request with snapshots := s.node :: request.snapshots } :: s.sent.erase request }
      else none
    | .answered request answer =>
      if (request, answer) ∈ s.answered ∧ request.input = input ∧ input.isSome then
        some { s with
          node := node
          answered := s.answered.map fun e =>
            if e = (request, answer) then ({ request with snapshots := s.node :: request.snapshots }, answer) else e }
      else none

/-- One event. -/
def next (defaultBoundaryId : String) (isBoundary : String → Bool) (s : NodeStore P) :
    NodeEvent P → Option (NodeStore P)
  | .updateNode updates awaited => s.updateNode defaultBoundaryId updates awaited
  | .execute request =>
    match request.input with
    | none => none
    | some input =>
      if request ∈ s.sent then
        let element := s.element.update isBoundary input
        some { s with
          element := element
          sent := s.sent.erase request
          answered := s.answered ++ [(request, element)] }
      else none
  | .accept =>
    match s.answered with
    | [] => none
    | (_, answer) :: answered => some { s with node := answer.shown defaultBoundaryId, answered := answered }
  | .reject request =>
    if request ∈ s.sent then
      some { s with node := revertNode request.snapshots s.node, sent := s.sent.erase request }
    else none

def Settled (s : NodeStore P) : Prop :=
  s.sent = [] ∧ s.answered = []

/-- The node holds what the server holds. -/
def InSync (defaultBoundaryId : String) (s : NodeStore P) : Prop :=
  s.node = s.element.shown defaultBoundaryId

/-- A node of the canvas, edited by this client only. -/
def system (defaultBoundaryId : String) (isBoundary : String → Bool) :
    TransitionSystem (NodeStore P) (NodeEvent P) where
  init s := s.Settled ∧ s.InSync defaultBoundaryId
  next := next defaultBoundaryId isBoundary

/-- A failure that is the last call to settle belongs to a call that was made while the node showed what the server
holds now. -/
def RevertsToServer (defaultBoundaryId : String) (s : NodeStore P) : NodeEvent P → Prop
  | .reject request => s.sent.erase request = [] → s.answered = [] →
      request.snapshots.head? = some (s.element.shown defaultBoundaryId)
  | _ => True

instance (defaultBoundaryId : String) (s : NodeStore P) : DecidablePred (s.RevertsToServer defaultBoundaryId)
  | .reject request => inferInstanceAs (Decidable (s.sent.erase request = [] → s.answered = [] →
      request.snapshots.head? = some (s.element.shown defaultBoundaryId)))
  | .updateNode .. | .execute _ | .accept => inferInstanceAs (Decidable True)

section

variable {defaultBoundaryId : String} {isBoundary : String → Bool}

omit [DecidableEq P] in
lemma revertNode_of_head {snapshots : List (CanvasNode P)} {snapshot : CanvasNode P}
    (h : snapshots.head? = some snapshot) (node : CanvasNode P) : revertNode snapshots node = snapshot := by
  obtain ⟨older, rfl⟩ := head?_eq_some_iff.1 h
  rfl

/-- The last answer on the way is the element, and without anything on the way the node shows it. -/
structure Tracks (defaultBoundaryId : String) (s : NodeStore P) : Prop where
  last : ∀ e ∈ s.answered.getLast?, e.2 = s.element
  settled : s.Settled → s.InSync defaultBoundaryId
  snapshots : ∀ request ∈ s.sent, request.snapshots ≠ []

lemma Tracks.updateNode {s s' : NodeStore P} (h : s.Tracks defaultBoundaryId) {updates : NodeEdit P}
    {awaited : Awaited P} (hnext : s.updateNode defaultBoundaryId updates awaited = some s') :
    s'.Tracks defaultBoundaryId := by
  cases awaited with
  | own =>
    cases hnext
    exact ⟨h.last, fun hsettled => absurd hsettled.1 (cons_ne_nil _ _),
      forall_mem_cons.2 ⟨cons_ne_nil _ _, h.snapshots⟩⟩
  | sent request =>
    rw [NodeStore.updateNode] at hnext
    split_ifs at hnext
    cases hnext
    refine ⟨h.last, fun hsettled => absurd hsettled.1 (cons_ne_nil _ _),
      forall_mem_cons.2 ⟨cons_ne_nil _ _, ?_⟩⟩
    exact fun r hr => h.snapshots r (mem_of_mem_erase hr)
  | answered request answer =>
    rw [NodeStore.updateNode] at hnext
    split_ifs at hnext with hmem
    cases hnext
    refine ⟨fun e he => ?_, fun hsettled => ?_, h.snapshots⟩
    · rw [getLast?_map] at he
      obtain ⟨e', he', rfl⟩ := Option.map_eq_some_iff.1 he
      have hlast := h.last e' he'
      split_ifs with heq
      · rwa [heq] at hlast
      · exact hlast
    · -- the request that is joined is still on the way
      rw [map_eq_nil_iff.1 hsettled.2] at hmem
      exact absurd hmem.1 not_mem_nil

lemma Tracks.next {s s' : NodeStore P} {a : NodeEvent P} (h : s.Tracks defaultBoundaryId)
    (hreverts : s.RevertsToServer defaultBoundaryId a) (hnext : s.next defaultBoundaryId isBoundary a = some s') :
    s'.Tracks defaultBoundaryId := by
  cases a with rw [NodeStore.next] at hnext
  | updateNode => exact h.updateNode hnext
  | execute request =>
    cases hinput : request.input with
    | none => simp [hinput] at hnext
    | some input =>
      rw [hinput] at hnext
      split_ifs at hnext
      cases hnext
      refine ⟨fun e he => ?_, fun hsettled => ?_, fun r hr => h.snapshots r (mem_of_mem_erase hr)⟩
      · rw [getLast?_concat] at he
        rw [← Option.some.inj he]
      · exact absurd hsettled.2 (append_ne_nil_of_right_ne_nil _ (cons_ne_nil _ _))
  | accept =>
    cases hanswered : s.answered with
    | nil => simp [hanswered] at hnext
    | cons e answered =>
      rw [hanswered] at hnext
      cases hnext
      have hlast := h.last
      rw [hanswered, getLast?_cons] at hlast
      refine ⟨fun e' he' => hlast e' ?_, fun hsettled => ?_, h.snapshots⟩
      · rw [show answered.getLast? = some e' from he']
        rfl
      · -- the answer is the last one
        rw [show answered = [] from hsettled.2] at hlast
        exact congrArg (Element.shown defaultBoundaryId) (hlast e rfl)
  | reject request =>
    split_ifs at hnext with hmem
    cases hnext
    refine ⟨h.last, fun hsettled => ?_, fun r hr => h.snapshots r (mem_of_mem_erase hr)⟩
    exact revertNode_of_head (hreverts hsettled.1 hsettled.2) s.node

/-- In a run in which the last failure belongs to a call that was made while the node showed what the server holds now,
the node holds what the server holds when all calls have settled; a step that does not meet the condition leaves a node
that does not. -/
theorem inSync_of_reachable {s : NodeStore P}
    (h : (system defaultBoundaryId isBoundary).Reachable (RevertsToServer defaultBoundaryId) s) :
    (s.Settled → s.InSync defaultBoundaryId) ∧
      ∀ a s', s.next defaultBoundaryId isBoundary a = some s' → s'.Settled →
        (s'.InSync defaultBoundaryId ↔ s.RevertsToServer defaultBoundaryId a) := by
  have htracks : s.Tracks defaultBoundaryId := by
    refine h.invariant (fun s hs => ?_) fun s a s' hs hreverts hnext => hs.next hreverts hnext
    obtain ⟨⟨hsent, hanswered⟩, hsync⟩ := hs
    refine ⟨?_, fun _ => hsync, ?_⟩
    · rw [hanswered]
      exact fun e he => absurd he (Option.not_mem_none e)
    · rw [hsent]
      exact fun r hr => absurd hr not_mem_nil
  refine ⟨htracks.settled, fun a s' hnext hsettled => ⟨fun hsync => ?_, fun hreverts => ?_⟩⟩
  · cases a with
    | reject request =>
      intro _ _
      rw [NodeStore.next] at hnext
      split_ifs at hnext with hmem
      cases hnext
      obtain ⟨snapshot, older, hsnapshots⟩ := exists_cons_of_ne_nil (htracks.snapshots request hmem)
      rw [InSync, hsnapshots] at hsync
      rw [hsnapshots]
      exact congrArg some hsync
    | _ => trivial
  · exact (htracks.next hreverts hnext).settled hsettled

end

/-! ### Two runs -/

/-- A component at the root of its model. -/
def component : NodeStore (ℤ × ℤ) where
  node := ⟨"API", "", (0, 0), ""⟩
  element := ⟨"API", "", (0, 0), some "root"⟩
  sent := []
  answered := []

lemma init_component : (system "root" fun _ => true).init component :=
  ⟨⟨rfl, rfl⟩, rfl⟩

def nameInput (name : String) : ElementInput (ℤ × ℤ) :=
  ⟨some name, none, none, none⟩

/-- Two edits of the name; the second is saved, and then the first fails. -/
def failedFirst : List (NodeEvent (ℤ × ℤ)) :=
  let first : NodeRequest (ℤ × ℤ) := ⟨some (nameInput "Gateway"), [⟨"API", "", (0, 0), ""⟩]⟩
  let second : NodeRequest (ℤ × ℤ) := ⟨some (nameInput "Proxy"), [⟨"Gateway", "", (0, 0), ""⟩]⟩
  [.updateNode ⟨some "Gateway", none, none, none⟩ .own, .updateNode ⟨some "Proxy", none, none, none⟩ .own,
    .execute second, .accept, .reject first]

/-- The failure takes back the edit that was saved, too. -/
theorem not_inSync_failedFirst :
    ¬∀ s : NodeStore (ℤ × ℤ), (system "root" fun _ => true).Reachable (fun _ _ => True) s → s.Settled →
      s.InSync "root" := by
  intro hclaim
  have hrun : (((system "root" fun _ => true).run (fun _ _ => true) component failedFirst).any
      fun s => decide (s.sent = [] ∧ s.answered = [] ∧ s.node ≠ s.element.shown "root")) = true := by
    decide +kernel
  obtain ⟨s, hs, hcheck⟩ := TransitionSystem.exists_reachable hrun init_component fun _ _ _ => trivial
  obtain ⟨hsent, hanswered, hnode⟩ := of_decide_eq_true hcheck
  refine hnode (hclaim s ?_ ⟨hsent, hanswered⟩)
  exact hs

/-- The first edit is saved, and then the second fails. -/
theorem inSync_failedSecond : ∃ s : NodeStore (ℤ × ℤ), s.node.label = "Gateway" ∧ s.InSync "root" := by
  have hrun : (((system "root" fun _ => true).run (fun s a => decide (s.RevertsToServer "root" a)) component
      [.updateNode ⟨some "Gateway", none, none, none⟩ .own, .updateNode ⟨some "Proxy", none, none, none⟩ .own,
        .execute ⟨some (nameInput "Gateway"), [⟨"API", "", (0, 0), ""⟩]⟩, .accept,
        .reject ⟨some (nameInput "Proxy"), [⟨"Gateway", "", (0, 0), ""⟩]⟩]).any
      fun s => decide (s.sent = [] ∧ s.answered = [] ∧ s.node.label = "Gateway")) = true := by
    decide +kernel
  obtain ⟨s, hreach, hcheck⟩ := TransitionSystem.exists_reachable hrun init_component fun _ _ => of_decide_eq_true
  obtain ⟨hsent, hanswered, hlabel⟩ := of_decide_eq_true hcheck
  exact ⟨s, hlabel, (inSync_of_reachable hreach).1 ⟨hsent, hanswered⟩⟩

end NodeStore

end FlowStore
