import Dethernety.Foundations.Transition
import Dethernety.FileModule.RegoEngine

/-!
# The file-backed module

`getMetadata`, `evaluatePolicy` and `getPolicyHash` of one module over its data directory, which anything may
change between two calls. From where it first looks at the directory or the engine, a call waits for nothing and
runs to its end in one piece. A call that throws leaves the engine as it is at that point.
-/

namespace FileModule

/-- What is at a path where a file or a directory is looked for. -/
inductive Entry (α : Type)
  | missing
  /-- It is there, and reading it throws. -/
  | unreadable
  | found (a : α)

inductive ClassType
  | component
  | dataFlow
  | securityBoundary
  | control
  | data
  | issue
  deriving DecidableEq

/-- `CLASS_TYPES`, by their directories -/
def classTypes : List (ClassType × String) :=
  [(.component, "component"), (.dataFlow, "dataFlow"), (.securityBoundary, "securityBoundary"),
    (.control, "control"), (.data, "data"), (.issue, "issue")]

/-- A `class.json`, with the text of its type. -/
structure ClassJson (J : Type) where
  type : Text
  fields : J

/-- A class directory; without a `class.json` that can be parsed the class is passed over. -/
structure ClassDir (J : Type) where
  name : Text
  classJson : Option (ClassJson J)

/-- The data directory of a module. -/
structure DataDir (M J : Type) where
  /-- `module.json`, if it can be read. -/
  moduleJson : Option M
  /-- The directory of the module, from the data directory on. -/
  moduleDir : Text
  classDirs : ClassType → Entry (List (ClassDir J))
  /-- The `policies.rego` under a class path. -/
  policies : Text → Entry Text

structure ClassMetadata (J Hash : Type) where
  path : Text
  type : Text
  fields : J
  policyHash : Option Hash
  deriving DecidableEq

structure Metadata (M J Hash : Type) where
  moduleJson : M
  /-- A class type without any directory has no list. -/
  classes : List (ClassType × List (ClassMetadata J Hash))
  deriving DecidableEq

inductive LoadError
  | moduleJson
  | pathTraversal
  | unreadable
  | emptyPath
  deriving DecidableEq

/-- The loop of `getMetadata` between two classes. -/
structure Load (Hash : Type) where
  engine : RegoEngine Hash
  registeredKeys : List Key

/-- Go on with a load, unless it threw. -/
def Load.andThen {Hash α β : Type} (result : Load Hash × Except LoadError α)
    (f : Load Hash → α → Load Hash × Except LoadError β) : Load Hash × Except LoadError β :=
  match result with
  | (load, .error e) => (load, .error e)
  | (load, .ok a) => f load a

lemma Load.andThen_eq_ok {Hash α β : Type} {result : Load Hash × Except LoadError α}
    {f : Load Hash → α → Load Hash × Except LoadError β} {load : Load Hash} {b : β}
    (h : Load.andThen result f = (load, .ok b)) : ∃ load₁ a, result = (load₁, .ok a) ∧ f load₁ a = (load, .ok b) := by
  obtain ⟨load₁, answer⟩ := result
  cases answer with
  | error e => cases h
  | ok a => exact ⟨load₁, a, rfl, h⟩

lemma Load.keep_andThen {Hash α β : Type} {P : Load Hash → Prop} {result : Load Hash × Except LoadError α}
    {f : Load Hash → α → Load Hash × Except LoadError β} (h : P result.1) (hf : ∀ a load, P load → P (f load a).1) :
    P (Load.andThen result f).1 := by
  obtain ⟨load, answer⟩ := result
  cases answer with
  | error e => exact h
  | ok a => exact hf a load h

variable {M J Hash : Type} [DecidableEq Hash] (rt : Runtime Hash)

def noPolicyHash : Hash :=
  rt.sha256 []

def policySourceHash (fileText : Text) : Hash :=
  rt.sha256 ((decodePolicySource (ecmaTrim fileText)).getD [])

/-- The type that the metadata report, or `none` for a class that is passed over. -/
def metadataType (classType : ClassType) (type : Text) : Option Text :=
  match classType with
  | .component =>
    let rawType := rt.toUpperCase type
    if rawType = "PROCESS".toList ∨ rawType = "EXTERNAL_ENTITY".toList ∨ rawType = "STORE".toList then some rawType
    else none
  | .dataFlow => some "DATA_FLOW".toList
  | .securityBoundary => some "SECURITY_BOUNDARY".toList
  | .control => some "CONTROL".toList
  | .data => some "DATA".toList
  | .issue => some type

/-- The type and the other fields of a class that is not passed over. -/
def listedClass (classType : ClassType) (classDir : ClassDir J) : Option (Text × J) :=
  classDir.classJson.bind fun json => (metadataType rt classType json.type).map (·, json.fields)

/-- The path of a class directory from the data directory on. -/
def classPath (dir : DataDir M J) (typeDir : String) (name : Text) : Text :=
  dir.moduleDir ++ '/' :: typeDir.toList ++ '/' :: name

/-- The policy of one class in the loop of `getMetadata`: what it leaves, and the hash that is reported. -/
def loadPolicy (policies : Text → Entry Text) (load : Load Hash) (path : Text) :
    Load Hash × Except LoadError (Option Hash) :=
  match policies path with
  | .missing => (load, .ok (some (noPolicyHash rt)))
  | .unreadable => (load, .error .unreadable)
  | .found text =>
    match decodePolicySource (ecmaTrim text) with
    | none => (load, .ok (some (noPolicyHash rt)))
    | some raw =>
      match keyFor path with
      | none => (load, .error .emptyPath)
      | some key =>
        match load.engine.register rt key raw with
        | .ok engine => (⟨engine, load.registeredKeys ++ [key]⟩, .ok (some (policySourceHash rt text)))
        -- a class whose policy is refused reports no hash
        | .error _ => (load, .ok none)

/-- One class directory in the loop of `getMetadata`. -/
def loadClass (dir : DataDir M J) (classType : ClassType) (typeDir : String) (load : Load Hash)
    (classDir : ClassDir J) : Load Hash × Except LoadError (Option (ClassMetadata J Hash)) :=
  let path := classPath dir typeDir classDir.name
  if !rt.validateModulePath path then (load, .error .pathTraversal)
  else
    match listedClass rt classType classDir with
    | none => (load, .ok none)
    | some (type, fields) =>
      if classType = .issue then (load, .ok (some ⟨path, type, fields, none⟩))
      else
        Load.andThen (loadPolicy rt dir.policies load path) fun load policyHash =>
          (load, .ok (some ⟨path, type, fields, policyHash⟩))

def loadClasses (dir : DataDir M J) (classType : ClassType) (typeDir : String) :
    Load Hash → List (ClassDir J) → Load Hash × Except LoadError (List (ClassMetadata J Hash))
  | load, [] => (load, .ok [])
  | load, classDir :: classDirs =>
    Load.andThen (loadClass rt dir classType typeDir load classDir) fun load metadata =>
      Load.andThen (loadClasses dir classType typeDir load classDirs) fun load rest =>
        (load, .ok (metadata.toList ++ rest))

def loadTypes (dir : DataDir M J) : Load Hash → List (ClassType × String) →
    Load Hash × Except LoadError (List (ClassType × List (ClassMetadata J Hash)))
  | load, [] => (load, .ok [])
  | load, (classType, typeDir) :: types =>
    match dir.classDirs classType with
    | .missing => loadTypes dir load types
    | .unreadable => (load, .error .unreadable)
    | .found [] => loadTypes dir load types
    | .found classDirs =>
      Load.andThen (loadClasses rt dir classType typeDir load classDirs) fun load classes =>
        Load.andThen (loadTypes dir load types) fun load rest => (load, .ok ((classType, classes) :: rest))

def getMetadata (dir : DataDir M J) (engine : RegoEngine Hash) :
    RegoEngine Hash × Except LoadError (Metadata M J Hash) :=
  match dir.moduleJson with
  | none => (engine, .error .moduleJson)
  | some moduleJson =>
    match loadTypes rt dir ⟨engine, []⟩ classTypes with
    | (load, .error e) => (load.engine, .error e)
    | (load, .ok classes) => (load.engine.prune load.registeredKeys, .ok ⟨moduleJson, classes⟩)

/-- How an evaluation of a rule goes on after the policy was looked up. -/
inductive Evaluation
  /-- `null`: there is nothing to evaluate. -/
  | noPolicy
  | evaluates (source : Text)
  | throws
  deriving DecidableEq

/-- `evaluatePolicy` on an element of a class with a path, up to the run of the engine. -/
def evaluatePolicy (dir : DataDir M J) (engine : RegoEngine Hash) (classDataPath : Text) (elementFound : Bool) :
    RegoEngine Hash × Evaluation :=
  if !rt.validateModulePath classDataPath then (engine, .throws)
  else if !elementFound then (engine, .throws)
  else
    match dir.policies classDataPath with
    | .missing => (engine, .noPolicy)
    | .unreadable => (engine, .throws)
    | .found text =>
      match decodePolicySource (ecmaTrim text) with
      | none => (engine, .noPolicy)
      | some regoContent =>
        match keyFor classDataPath with
        | none => (engine, .throws)
        | some key =>
          match engine.registrations.get? key with
          | some r => (engine, .evaluates r.source)
          | none =>
            -- registered on first use
            match engine.register rt key regoContent with
            | .error _ => (engine, .throws)
            | .ok engine => (engine, (engine.sources key).elim .throws .evaluates)

/-- `getPolicyHash` of a class with a path; what throws is answered with nothing. -/
def getPolicyHash (dir : DataDir M J) (engine : RegoEngine Hash) (classDataPath : Text) : Option Hash :=
  match keyFor classDataPath with
  | none => none
  | some key =>
    match engine.registrations.get? key with
    | some r => some r.sourceHash
    | none =>
      if !rt.validateModulePath classDataPath then none
      else
        match dir.policies classDataPath with
        | .missing => some (noPolicyHash rt)
        | .unreadable => none
        | .found text =>
          match decodePolicySource (ecmaTrim text) with
          | none => some (noPolicyHash rt)
          | some _ => none

/-! ## Runs -/

structure State (M J Hash : Type) where
  dir : DataDir M J
  engine : RegoEngine Hash

inductive Event (M J : Type)
  /-- The data directory changes in any way. -/
  | edit (dir : DataDir M J)
  | getMetadata
  | evaluatePolicy (classDataPath : Text) (elementFound : Bool)

def opaModule : TransitionSystem (State M J Hash) (Event M J) where
  init s := s.engine = RegoEngine.empty
  next s
    | .edit dir => some { s with dir }
    | .getMetadata => some { s with engine := (getMetadata rt s.dir s.engine).1 }
    | .evaluatePolicy path elementFound =>
      some { s with engine := (evaluatePolicy rt s.dir s.engine path elementFound).1 }

/-! ## What the loops keep -/

section

variable {rt} {dir : DataDir M J} {load : Load Hash} {P : Load Hash → Prop}

variable (hregister : ∀ load key source engine, P load → load.engine.register rt key source = .ok engine →
  P ⟨engine, load.registeredKeys ++ [key]⟩)

include hregister

lemma keep_loadPolicy {policies : Text → Entry Text} {path : Text} (h : P load) :
    P (loadPolicy rt policies load path).1 := by
  unfold loadPolicy
  split
  · exact h
  · exact h
  · split
    · exact h
    · split
      · exact h
      · rename_i key _
        cases hengine : load.engine.register rt key _ with
        | error e => exact h
        | ok engine => exact hregister load key _ engine h hengine

lemma keep_loadClass {classType : ClassType} {typeDir : String} {classDir : ClassDir J} (h : P load) :
    P (loadClass rt dir classType typeDir load classDir).1 := by
  unfold loadClass
  dsimp only
  split
  · exact h
  · split
    · exact h
    · split
      · exact h
      · exact Load.keep_andThen (keep_loadPolicy hregister h) fun _ _ h => h

lemma keep_loadClasses {classType : ClassType} {typeDir : String} {classDirs : List (ClassDir J)} (h : P load) :
    P (loadClasses rt dir classType typeDir load classDirs).1 := by
  induction classDirs generalizing load with
  | nil => exact h
  | cons _ _ ih =>
    exact Load.keep_andThen (keep_loadClass hregister h) fun _ _ h => Load.keep_andThen (ih h) fun _ _ h => h

lemma keep_loadTypes {types : List (ClassType × String)} (h : P load) : P (loadTypes rt dir load types).1 := by
  induction types generalizing load with
  | nil => exact h
  | cons _ _ ih =>
    unfold loadTypes
    split
    · exact ih h
    · exact h
    · exact ih h
    · exact Load.keep_andThen (keep_loadClasses hregister h) fun _ _ h => Load.keep_andThen (ih h) fun _ _ h => h

end

variable {rt} {dir : DataDir M J} {engine : RegoEngine Hash} {s : State M J Hash}

lemma Consistent.getMetadata (h : Consistent rt engine) : Consistent rt (getMetadata rt dir engine).1 := by
  unfold FileModule.getMetadata
  cases dir.moduleJson with
  | none => exact h
  | some moduleJson =>
    have hload : Consistent rt (loadTypes rt dir ⟨engine, []⟩ classTypes).1.engine :=
      keep_loadTypes (P := fun load => Consistent rt load.engine) (fun _ _ _ _ h hok => h.register hok) h
    generalize loadTypes rt dir ⟨engine, []⟩ classTypes = result at hload
    obtain ⟨load, answer⟩ := result
    cases answer with
    | error e => exact hload
    | ok classes => exact hload.prune _

lemma Consistent.evaluatePolicy (h : Consistent rt engine) (path : Text) (elementFound : Bool) :
    Consistent rt (evaluatePolicy rt dir engine path elementFound).1 := by
  unfold FileModule.evaluatePolicy
  split_ifs
  · exact h
  · exact h
  · split
    · exact h
    · exact h
    · split
      · exact h
      · split
        · exact h
        · split
          · exact h
          · split
            · exact h
            · rename_i hok
              exact h.register hok

lemma consistent_of_reachable {ok : State M J Hash → Event M J → Prop} (h : (opaModule rt).Reachable ok s) :
    Consistent rt s.engine := by
  refine h.invariant (P := fun s => Consistent rt s.engine) (fun s hinit => ?_) fun s event s' hs _ hnext => ?_
  · have hempty : s.engine = .empty := hinit
    rw [hempty]
    exact consistent_empty
  · cases event with
    | edit dir =>
      cases hnext
      exact hs
    | getMetadata =>
      cases hnext
      exact hs.getMetadata
    | evaluatePolicy path elementFound =>
      cases hnext
      exact hs.evaluatePolicy path elementFound

end FileModule
