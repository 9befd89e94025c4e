import Dethernety.ClassIdentity.Migration
import Dethernety.Foundations.Threads

/-!
# Recovery of classes

Model of the admin mutations of `ClassIdentityResolverService`: `migrateClassId`, `reviveOrphanedClass` and
`deleteOrphanedClass`. Each one reads in transactions of its own and writes in a later one, and other transactions
run in between: further recovery calls, the transaction of a module install and the bindings of elements. Internal
ids tell nodes apart; which row a `LIMIT 1` returns is left to the outside.
-/

open List Record

namespace ClassIdentity.Recovery

open Threads

structure ClassNode where
  label : ClassLabel
  id : String
  name : String
  idAliases : List String

inductive HoldType
  | hasClass
  | hasOrphanedClass
  deriving DecidableEq

/-- An edge from a module to a class. -/
structure Hold where
  owner : ℕ
  type : HoldType
  target : ℕ

/-- The nodes under their internal ids, the edges of modules to classes and the `IS_INSTANCE_OF` edges of elements to
classes. An edge has its ends. -/
structure Database where
  modules : Record ℕ String
  classes : Record ℕ ClassNode
  elements : Record ℕ String
  holds : List Hold
  instances : List (ℕ × ℕ)
  holds_ends : ∀ h ∈ holds, h.owner ∈ modules.keys ∧ h.target ∈ classes.keys
  instances_ends : ∀ e ∈ instances, e.1 ∈ elements.keys ∧ e.2 ∈ classes.keys

namespace Database

variable (g : Database)

/-! ## Matches -/

/-- `(m:Module {name: $moduleName})` -/
def isModule (moduleName : String) (m : ℕ) : Bool :=
  g.modules.get? m = some moduleName

/-- `(c:label {id: $classId})` -/
def isClass (label : ClassLabel) (classId : String) (c : ℕ) : Bool :=
  (g.classes.get? c).any fun node => node.label = label && node.id = classId

/-- `(c:label {name: $className})` -/
def isNamed (label : ClassLabel) (className : String) (c : ℕ) : Bool :=
  (g.classes.get? c).any fun node => node.label = label && node.name = className

/-- `(m:Module)-[:type]->(c:label {id: $classId})`, as the names of the module and of the class. -/
def owners (type : HoldType) (label : ClassLabel) (classId : String) : List (String × String) :=
  (g.holds.filter fun h => h.type = type && g.isClass label classId h.target).filterMap fun h =>
    (g.modules.get? h.owner).bind fun m => (g.classes.get? h.target).map fun c => (m, c.name)

/-- `(m:Module {name: $moduleName})-[r:type]->(c:label {id: $classId})` -/
def isOwned (type : HoldType) (moduleName : String) (label : ClassLabel) (classId : String) (h : Hold) : Bool :=
  h.type = type && g.isModule moduleName h.owner && g.isClass label classId h.target

/-- The class has a `HAS_CLASS` edge. -/
def isHeld (c : ℕ) : Bool :=
  g.holds.any fun h => h.type = .hasClass && h.target = c

/-- The elements at the `IS_INSTANCE_OF` edges of `(c:label {id: $classId})`, one for each edge. -/
def instancesOf (label : ClassLabel) (classId : String) : List ℕ :=
  (g.instances.filter fun e => g.isClass label classId e.2).map Prod.fst

/-! ## Changes -/

/-- Replace edges by edges of another type. -/
def retype (p : Hold → Bool) (type : HoldType) : Database :=
  { g with
    holds := g.holds.map fun h => if p h then { h with type := type } else h
    holds_ends := by
      intro h hh
      obtain ⟨h', hh', rfl⟩ := mem_map.1 hh
      split <;> exact g.holds_ends h' hh' }

/-- Change class nodes. -/
def mapClasses (f : ℕ → ClassNode → ClassNode) : Database :=
  { g with
    classes := g.classes.mapValues f
    holds_ends := fun h hh => by
      rw [mem_keys_iff (r := g.classes.mapValues f), get?_mapValues, Option.isSome_map,
        ← mem_keys_iff]
      exact g.holds_ends h hh
    instances_ends := fun e he => by
      rw [mem_keys_iff (r := g.classes.mapValues f), get?_mapValues, Option.isSome_map,
        ← mem_keys_iff]
      exact g.instances_ends e he }

/-- A new class of a module. -/
def addClass (m : ℕ) (node : ClassNode) : Database :=
  if hm : m ∈ g.modules.keys then
    { g with
      classes := g.classes.set (PropertyGraph.freshId g.classes) node
      holds := g.holds ++ [⟨m, .hasClass, PropertyGraph.freshId g.classes⟩]
      holds_ends := by
        intro h hh
        rw [mem_keys_set]
        rcases mem_append.1 hh with hh | hh
        · exact ⟨(g.holds_ends h hh).1, .inr (g.holds_ends h hh).2⟩
        · cases mem_singleton.1 hh
          exact ⟨hm, .inl rfl⟩
      instances_ends := fun e he =>
        ⟨(g.instances_ends e he).1, mem_keys_set.2 (.inr (g.instances_ends e he).2)⟩ }
  else g

def deleteClasses (p : ℕ → Bool) : Database :=
  { g with
    classes := g.classes.filterKeys fun c => !p c
    holds := g.holds.filter fun h => !p h.target
    instances := g.instances.filter fun e => !p e.2
    holds_ends := by
      intro h hh
      obtain ⟨hh, hp⟩ := mem_filter.1 hh
      rw [keys_filterKeys]
      exact ⟨(g.holds_ends h hh).1, mem_filter.2 ⟨(g.holds_ends h hh).2, hp⟩⟩
    instances_ends := by
      intro e he
      obtain ⟨he, hp⟩ := mem_filter.1 he
      rw [keys_filterKeys]
      exact ⟨(g.instances_ends e he).1, mem_filter.2 ⟨(g.instances_ends e he).2, hp⟩⟩ }

def deleteElements (p : ℕ → Bool) : Database :=
  { g with
    elements := g.elements.filterKeys fun x => !p x
    instances := g.instances.filter fun e => !p e.1
    instances_ends := by
      intro e he
      obtain ⟨he, hp⟩ := mem_filter.1 he
      rw [keys_filterKeys]
      exact ⟨mem_filter.2 ⟨(g.instances_ends e he).1, hp⟩, (g.instances_ends e he).2⟩ }

def addElement (id : String) : Database :=
  { g with
    elements := g.elements.set (PropertyGraph.freshId g.elements) id
    instances_ends := fun e he =>
      ⟨mem_keys_set.2 (.inr (g.instances_ends e he).1), (g.instances_ends e he).2⟩ }

/-- Give an element other classes. -/
def bind (element : ℕ) (p : ℕ → Bool) : Database :=
  if hx : element ∈ g.elements.keys then
    { g with
      instances := g.instances.filter (fun e => e.1 ≠ element) ++ (g.classes.keys.filter p).map (element, ·)
      instances_ends := by
        intro e he
        rcases mem_append.1 he with he | he
        · exact g.instances_ends e (mem_filter.1 he).1
        · obtain ⟨c, hc, rfl⟩ := mem_map.1 he
          exact ⟨hx, (mem_filter.1 hc).1⟩ }
  else g

/-! ## The writes of the recovery calls -/

/-- `HAS_ORPHANED_CLASS` becomes `HAS_CLASS`, or the other way. -/
def renameEdge (moduleName : String) (label : ClassLabel) (classId : String) (fromType toType : HoldType) : Database :=
  g.retype (g.isOwned fromType moduleName label classId) toType

/-- The instances of the classes with the id, and then these classes. -/
def deleteOrphaned (label : ClassLabel) (classId : String) : Database :=
  (g.deleteElements fun x => decide (x ∈ g.instancesOf label classId)).deleteClasses (g.isClass label classId)

/-- The edges that `(m:Module {name: $moduleName})-[..]->(c:label {name: $className})` matches. -/
def bindingsOf (moduleName : String) (label : ClassLabel) (className : String) : List Hold :=
  g.holds.filter fun h => g.isModule moduleName h.owner && g.isNamed label className h.target

/-- `SET c.id = $newId`, with the old one among the aliases. -/
def withId (oldId newId : String) (c : ClassNode) : ClassNode :=
  { c with
    id := newId
    idAliases := if oldId ∈ c.idAliases then c.idAliases else c.idAliases ++ [oldId] }

/-- The edges that the write of a migration matches. -/
def migrating (moduleName : String) (label : ClassLabel) (className oldId : String) : List Hold :=
  (g.bindingsOf moduleName label className).filter fun h => g.isClass label oldId h.target

def setClassId (moduleName : String) (label : ClassLabel) (className oldId newId : String) : Database :=
  g.mapClasses fun c node =>
    if (g.migrating moduleName label className oldId).any (·.target = c) then withId oldId newId node else node

end Database

/-! ## Other transactions -/

/-- What the transactions of installs and of bindings are made of. -/
inductive Write
  | createClass (moduleName : String) (label : ClassLabel) (id name : String)
  | renameEdge (moduleName : String) (label : ClassLabel) (classId : String) (fromType toType : HoldType)
  | rebindClass (moduleName : String) (label : ClassLabel) (oldId newId : String)
  | setName (label : ClassLabel) (classId name : String)
  | removeClass (moduleName : String) (label : ClassLabel) (classId : String)
  | createElement (id : String)
  | bindElement (element : ℕ) (label : ClassLabel) (classIds : List String)
  deriving DecidableEq

def Write.apply (g : Database) : Write → Database
  | createClass moduleName label id name =>
    (g.modules.keys.filter (g.isModule moduleName)).foldl (fun g m => g.addClass m ⟨label, id, name, []⟩) g
  | renameEdge moduleName label classId fromType toType => g.renameEdge moduleName label classId fromType toType
  | rebindClass moduleName label oldId newId =>
    g.mapClasses fun c node =>
      if g.holds.any fun h => g.isModule moduleName h.owner && g.isClass label oldId h.target && h.target = c then
        { node with id := newId, idAliases := node.idAliases ++ [oldId] }
      else node
  | setName label classId name =>
    g.mapClasses fun c node => if g.isClass label classId c then { node with name := name } else node
  | removeClass moduleName label classId =>
    g.deleteClasses fun c => g.holds.any fun h => g.isOwned .hasClass moduleName label classId h && h.target = c
  | createElement id => g.addElement id
  | bindElement element label classIds => g.bind element fun c => classIds.any fun id => g.isClass label id c

/-! ## Calls -/

/-- An event of the class-identity log; the time stamp is left out. -/
inductive ClassIdentityEvent
  | rebind (moduleName classKind className oldId newId policy : String)
  | revive (moduleName classKind className classId : String)

/-- A transaction, or the emission of an event. -/
inductive Call
  | orphaned (label : ClassLabel) (classId : String)
  | active (label : ClassLabel) (classId : String)
  | incidentCount (label : ClassLabel) (classId : String)
  | deleteClass (label : ClassLabel) (classId : String)
  | reviveClass (moduleName : String) (label : ClassLabel) (classId : String)
  | currentId (moduleName : String) (label : ClassLabel) (className : String)
  | otherModule (moduleName : String) (label : ClassLabel) (newId : String)
  | setClassId (moduleName : String) (label : ClassLabel) (className oldId newId : String)
  | emit (event : ClassIdentityEvent)
  | transaction (writes : List Write)

abbrev Answer : Call → Type
  | .orphaned _ _ | .active _ _ => Option (String × String)
  | .incidentCount _ _ | .setClassId _ _ _ _ _ => ℕ
  | .currentId _ _ _ | .otherModule _ _ _ => Option String
  | _ => Unit

/-- The row that a `LIMIT 1` returns. -/
def pick {α : Type} (rows : List α) (o : ℕ) : Option α :=
  rows[o % rows.length]?

structure MigrateClassIdArgs where
  moduleName : String
  className : String
  classKind : String
  newId : String
  deriving DecidableEq

structure ReviveOrphanedArgs where
  classId : String
  classKind : String
  deriving DecidableEq

structure DeleteOrphanedArgs where
  classId : String
  classKind : String
  cascade : Option Bool
  deriving DecidableEq

inductive Request
  | migrateClassId (args : MigrateClassIdArgs)
  | reviveOrphanedClass (args : ReviveOrphanedArgs)
  | deleteOrphanedClass (args : DeleteOrphanedArgs)
  | install (writes : List Write)
  | createElement (id : String)
  | bindElement (element : ℕ) (label : ClassLabel) (classIds : List String)
  deriving DecidableEq

/-- What a call does to the database; none waits. -/
def exec : Exec Answer Request ℕ Database := fun _ _ c o g =>
  match c with
  | .orphaned label classId => some (pick (g.owners .hasOrphanedClass label classId) o, g)
  | .active label classId => some (pick (g.owners .hasClass label classId) o, g)
  | .incidentCount label classId => some ((g.instancesOf label classId).length, g)
  | .deleteClass label classId => some ((), g.deleteOrphaned label classId)
  | .reviveClass moduleName label classId =>
    some ((), g.renameEdge moduleName label classId .hasOrphanedClass .hasClass)
  | .currentId moduleName label className =>
    some (pick ((g.bindingsOf moduleName label className).filterMap fun h =>
      (g.classes.get? h.target).map ClassNode.id) o, g)
  | .otherModule moduleName label newId =>
    some (pick ((g.holds.filter fun h => g.isClass label newId h.target && !g.isModule moduleName h.owner).filterMap
      fun h => g.modules.get? h.owner) o, g)
  | .setClassId moduleName label className oldId newId =>
    some ((g.migrating moduleName label className oldId).length, g.setClassId moduleName label className oldId newId)
  | .emit _ => some ((), g)
  | .transaction writes => some ((), writes.foldl Write.apply g)

/-! ## The mutations -/

inductive Refusal
  | invalidClassKind (classKind : String)
  | noBinding (moduleName : String) (label : ClassLabel) (className : String)
  | alreadyOwned (newId otherModule : String) (label : ClassLabel)
  | concurrentMigration (moduleName : String) (label : ClassLabel) (className : String)
  | notFound (label : ClassLabel) (classId : String)
  | currentlyActive (label : ClassLabel) (classId : String)
  | hasInstances (label : ClassLabel) (classId : String) (count : ℕ)
  | exceedsHardLimit (label : ClassLabel) (classId : String) (count : ℕ)

def labelText : ClassLabel → String
  | .analysisClass => "AnalysisClass"
  | .componentClass => "ComponentClass"
  | .controlClass => "ControlClass"
  | .dataFlowClass => "DataFlowClass"
  | .dataClass => "DataClass"
  | .securityBoundaryClass => "SecurityBoundaryClass"
  | .issueClass => "IssueClass"

def VALID_CLASS_KINDS : List ClassLabel :=
  [.analysisClass, .componentClass, .controlClass, .dataFlowClass, .dataClass, .securityBoundaryClass, .issueClass]

def classKindKey : ClassLabel → String
  | .analysisClass => "analysisClasses"
  | .componentClass => "componentClasses"
  | .controlClass => "controlClasses"
  | .dataFlowClass => "dataFlowClasses"
  | .dataClass => "dataClasses"
  | .securityBoundaryClass => "securityBoundaryClasses"
  | .issueClass => "issueClasses"

def CASCADE_HARD_LIMIT : ℕ := 1000

abbrev Mutation := Script Answer Refusal

def ask (c : Call) : Mutation (Answer c) :=
  Script.ask c

def validateClassKind (classKind : String) : Mutation ClassLabel :=
  Script.orThrow (VALID_CLASS_KINDS.find? fun label => labelText label = classKind) (.invalidClassKind classKind)

def doMigrateClassId (args : MigrateClassIdArgs) : Mutation Bool := do
  let label ← validateClassKind args.classKind
  let oldId ← Script.orThrow (← ask (.currentId args.moduleName label args.className))
    (.noBinding args.moduleName label args.className)
  if oldId = args.newId then return true
  let collision ← ask (.otherModule args.moduleName label args.newId)
  Script.throwSome (collision.map fun otherModule => .alreadyOwned args.newId otherModule label)
  -- The write matches the old id and the name again.
  let confirmed ← ask (.setClassId args.moduleName label args.className oldId args.newId)
  Script.require (confirmed ≠ 0) (.concurrentMigration args.moduleName label args.className)
  let _ ← ask (.emit (.rebind args.moduleName (classKindKey label) args.className oldId args.newId "audit"))
  return true

def doRevive (args : ReviveOrphanedArgs) : Mutation Bool := do
  let label ← validateClassKind args.classKind
  match ← ask (.orphaned label args.classId) with
  | none =>
    let _ ← Script.orThrow (← ask (.active label args.classId)) (.notFound label args.classId)
    return true
  | some (moduleName, className) =>
    -- Nothing is returned by the write, and the event follows in any case.
    let _ ← ask (.reviveClass moduleName label args.classId)
    let _ ← ask (.emit (.revive moduleName (classKindKey label) className args.classId))
    return true

/-- Whether the number of edges to instances is in the way of a deletion. -/
def refusal (cascade : Bool) (label : ClassLabel) (classId : String) (count : ℕ) : Option Refusal :=
  if 0 < count && !cascade then some (.hasInstances label classId count)
  else if cascade && CASCADE_HARD_LIMIT < count then some (.exceedsHardLimit label classId count)
  else none

def doDelete (args : DeleteOrphanedArgs) : Mutation Bool := do
  let label ← validateClassKind args.classKind
  let cascade : Bool := args.cascade = some true
  match ← ask (.orphaned label args.classId) with
  | none =>
    let active ← ask (.active label args.classId)
    Script.throwSome (active.map fun _ => .currentlyActive label args.classId)
    throw (.notFound label args.classId)
  | some _ =>
    let count ← ask (.incidentCount label args.classId)
    Script.throwSome (refusal cascade label args.classId count)
    -- The write matches the label and the id, and looks at no edge to a module.
    let _ ← ask (.deleteClass label args.classId)
    return true

def program : Request → Mutation Bool
  | .migrateClassId args => doMigrateClassId args
  | .reviveOrphanedClass args => doRevive args
  | .deleteOrphanedClass args => doDelete args
  | .install writes => do
    let _ ← ask (.transaction writes)
    return true
  | .createElement id => do
    let _ ← ask (.transaction [.createElement id])
    return true
  | .bindElement element label classIds => do
    let _ ← ask (.transaction [.bindElement element label classIds])
    return true

def machine : Machine Answer Refusal Bool Request ℕ Database where
  program := program
  exec := exec

abbrev LogStep := Step Answer Request Database

end ClassIdentity.Recovery
