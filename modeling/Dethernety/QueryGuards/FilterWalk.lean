import Dethernety.QueryGuards.InputValue
import Dethernety.QueryGuards.Schema

/-!
# The filter walk

Model of the class `FilterWalk` of `query-guards.ts`. The walk goes through the operation that a request
runs, follows its fragments, and adds up what the input values of its arguments cost. It stops with a
refusal at the first value that is not supported or passes a limit. An argument is read once, and the size
of a list or of an object of a scalar value is measured once; both are kept.
-/

namespace QueryGuards

/-- `RELATIONSHIP_FILTER_LIMITS` -/
def maxBudget : ℕ := 300

def maxFilterObjects : ℕ := 1000

def maxInputObjects : ℕ := 2500

def maxRelationshipOperands : ℕ := 640

def maxScalarSize : ℕ := 4000000

def maxInputDepth : ℕ := 64

def maxSelections : ℕ := 10000

inductive Counter
  | inputObjects
  | filterObjects
  | operands
  | scalarSize
  deriving DecidableEq

def limitOf : Counter → ℕ
  | .inputObjects => maxInputObjects
  | .filterObjects => maxFilterObjects
  | .operands => maxRelationshipOperands
  | .scalarSize => maxScalarSize

def refusalOf (counter : Counter) (path : String) : String :=
  let limit := toString (limitOf counter)
  match counter with
  | .inputObjects =>
    "The request's arguments hold more than " ++ limit ++ " input objects, exceeded at \"" ++ path ++ "\"."
  | .filterObjects =>
    "The request's where arguments hold more than " ++ limit ++ " input objects, exceeded at \"" ++ path ++
      "\"."
  | .operands =>
    "The request's mutation inputs hold more than " ++ limit ++ " relationship operands, exceeded at \"" ++
      path ++ "\": each connect, disconnect, create, update or delete under a relationship counts once per " ++
      "type its target can be (28 on Element)."
  | .scalarSize =>
    "The request's scalar values come to more than " ++ limit ++ " characters, exceeded at \"" ++ path ++
      "\": a value counts once for every place it is used, including each place a variable is referenced."

def tooCostly (path : String) : String :=
  "The request's filters cost more than the limit of " ++ toString maxBudget ++ ", exceeded at \"" ++ path ++
    "\": each relationship or aggregate filter costs the number of types it can match (28 on Element), " ++
    "\"all\" twice, and a filter on a computed field more."

def tooDeep (path : String) : String :=
  "The input at \"" ++ path ++ "\" is nested deeper than " ++ toString maxInputDepth ++ " levels."

def notAnObject (path type : String) : String :=
  "The input at \"" ++ path ++ "\" is not an object, where " ++ type ++ " is expected."

def notAField (path type : String) : String :=
  "The input at \"" ++ path ++ "\" is not a field of " ++ type ++ "."

def singleOnAbstract (path : String) : String :=
  "The filter at \"" ++ path ++ "\" uses \"single\" on a relationship to an interface or union type, which " ++
    "is not supported: use \"some\" instead."

def tooManySelections : String :=
  "The request has more than " ++ toString maxSelections ++ " selections once its fragments are expanded."

def valueMismatch (name : String) (type : TypeRef) : String :=
  "The value of \"" ++ name ++ "\" does not match its type, " ++ type.text ++ "."

def noOperation : Option String → String
  | some name => "The request has no operation named \"" ++ name ++ "\"."
  | none => "The request holds several operations: name the one to run with operationName."

/-- Where the walk is in one argument. -/
structure InputFrame where
  path : String
  depth : ℕ
  inWhere : Bool
  multiplier : ℕ

abbrev Sizes := Record JsValue ℕ

/-- What has been counted. -/
structure Tally where
  budget : ℕ
  counts : Counter → ℕ
  sizes : Sizes

namespace Tally

def count (counter : Counter) (amount : ℕ) (path : String) (t : Tally) : Except String Tally :=
  let sum := t.counts counter + amount
  if sum ≤ limitOf counter then .ok { t with counts := Function.update t.counts counter sum }
  else .error (refusalOf counter path)

/-- `count`, where a condition holds. -/
def countIf (condition : Bool) (counter : Counter) (amount : ℕ) (path : String) (t : Tally) :
    Except String Tally :=
  if condition then t.count counter amount path else .ok t

def charge (cost : ℕ) (path : String) (t : Tally) : Except String Tally :=
  if t.budget + cost > maxBudget then .error (tooCostly path)
  else .ok { t with budget := t.budget + cost }

end Tally

section

variable (path : String)

mutual

def sizeOfValue : JsValue → ℕ → Sizes → Except String (ℕ × Sizes)
  | .null, _, sizes => .ok (1, sizes)
  | .primitive, _, sizes => .ok (1, sizes)
  | .text s, _, sizes => .ok (max 1 (jsLength s), sizes)
  | .object ref isArray entries, depth, sizes =>
    if depth > maxInputDepth then .error (tooDeep path)
    else
      match sizes.get? (.object ref isArray entries) with
      | some known => .ok (known, sizes)
      | none => do
        let (size, sizes) ← sizeOfEntries isArray entries depth 0 sizes
        .ok (max 1 size, sizes.set (.object ref isArray entries) (max 1 size))

/-- The loop of `sizeOf`, over the entries of a value at some depth, from the loop variable `size` on. -/
def sizeOfEntries (isArray : Bool) :
    List (String × JsValue) → ℕ → ℕ → Sizes → Except String (ℕ × Sizes)
  | [], _, size, sizes => .ok (size, sizes)
  | (key, entry) :: rest, depth, size, sizes => do
    let (inner, sizes) ← sizeOfValue entry (depth + 1) sizes
    let sum := size + (keySize isArray key + inner)
    if sum > maxScalarSize then .ok (sum, sizes)
    else sizeOfEntries isArray rest depth sum sizes

end

end

section

variable (schema : Schema)

/-- A scalar value, sized whole. -/
def countScalar (v : JsValue) (frame : InputFrame) (t : Tally) : Except String Tally := do
  let (size, sizes) ← sizeOfValue frame.path v frame.depth t.sizes
  { t with sizes }.count .scalarSize (size * frame.multiplier) frame.path

/-- How many times the fields of an input object render relative to it. -/
def renderedMembers (type : String) (fields : Record String TypeRef) : ℕ :=
  if isOperandType type then operandMembers schema fields else 1

def countObject (type : String) (fields : Record String TypeRef) (frame : InputFrame) (t : Tally) :
    Except String Tally := do
  let t ← t.count .inputObjects frame.multiplier frame.path
  let t ← t.countIf frame.inWhere .filterObjects frame.multiplier frame.path
  t.countIf (isOperandType type) .operands (operandMembers schema fields * frame.multiplier) frame.path

/-- How many times a filter with a quantifier is rendered; `all` renders its filter twice. -/
def quantifierCost (quantifier : Quantifier) (field : TypeRef) (rendered : ℕ) : ℕ :=
  rendered * memberCount schema field * if quantifier = .ALL then 2 else 1

/-- How many times the value of an entry is rendered. -/
def entryMultiplier (type key : String) (field : TypeRef) (rendered : ℕ) : ℕ :=
  match quantifierOf type key with
  | some quantifier => quantifierCost schema quantifier field rendered
  | none => rendered

def chargeFilter (quantifier : Quantifier) (field : TypeRef) (rendered : ℕ) (path : String) (t : Tally) :
    Except String Tally :=
  if quantifier = .SINGLE ∧ targetsAbstractType schema field then .error (singleOnAbstract path)
  else t.charge (quantifierCost schema quantifier field rendered) path

def chargeQuantifier (type key : String) (field : TypeRef) (rendered : ℕ) (path : String) (t : Tally) :
    Except String Tally :=
  match quantifierOf type key with
  | some quantifier => chargeFilter schema quantifier field rendered path t
  | none => .ok t

def chargeAggregate (type : String) (fields : Record String TypeRef) (key : String) (rendered : ℕ)
    (path : String) (t : Tally) : Except String Tally :=
  match aggregateTarget schema type fields key with
  | some aggregated => t.charge (memberCount schema aggregated * rendered) path
  | none => .ok t

/-- The charge for the `@cypher` field that a key filters. -/
def chargeCypher (type key : String) (rendered : ℕ) (path : String) (t : Tally) : Except String Tally :=
  if cypherCost schema type key = 0 then .ok t
  else t.charge (cypherCost schema type key * rendered) path

def chargeEntry (type : String) (fields : Record String TypeRef) (key : String) (field : TypeRef)
    (rendered : ℕ) (path : String) (t : Tally) : Except String Tally := do
  let t ← chargeQuantifier schema type key field rendered path t
  let t ← chargeAggregate schema type fields key rendered path t
  chargeCypher schema type key rendered path t

mutual

def value (v : JsValue) (type : TypeRef) (frame : InputFrame) (t : Tally) : Except String Tally :=
  if v.isNullish then .ok t
  else if frame.depth > maxInputDepth then .error (tooDeep frame.path)
  else if (schema.inputFields? type.namedType).isNone then countScalar v frame t
  else
    match type with
    | .nonNull type => value v type frame t
    | .list type =>
      match v with
      | .object _ true entries => valueOfItems entries type frame t
      | v => value v type { frame with depth := frame.depth + 1 } t
    | .named name =>
      match schema.inputFields? name with
      | none => .ok t
      | some fields =>
        match v with
        | .object _ false entries => do
          let t ← countObject schema name fields frame t
          valueOfEntries name fields (frame.multiplier * renderedMembers schema name fields) entries frame t
        | _ => .error (notAnObject frame.path name)
termination_by (sizeOf v, sizeOf type)

/-- The loop of `value` over the items of a list. -/
def valueOfItems (items : List (String × JsValue)) (type : TypeRef) (frame : InputFrame) (t : Tally) :
    Except String Tally :=
  match items with
  | [] => .ok t
  | (index, entry) :: rest =>
    let item := { frame with path := frame.path ++ "[" ++ index ++ "]", depth := frame.depth + 1 }
    if entry.isNullish then do
      -- a null entry renders nothing, but it is visited
      let t ← t.count .inputObjects item.multiplier item.path
      valueOfItems rest type frame t
    else do
      let t ← value entry type item t
      valueOfItems rest type frame t
termination_by (sizeOf items, 0)

/-- The loop of `value` over the entries of an input object, each rendered `rendered` times. -/
def valueOfEntries (name : String) (fields : Record String TypeRef) (rendered : ℕ)
    (entries : List (String × JsValue)) (frame : InputFrame) (t : Tally) : Except String Tally :=
  match entries with
  | [] => .ok t
  | (key, entry) :: rest =>
    let path := frame.path ++ "." ++ key
    match fields.get? key with
    | none => .error (notAField path name)
    | some field =>
      if entry.isNullish then valueOfEntries name fields rendered rest frame t
      else do
        let t ← chargeEntry schema name fields key field rendered path t
        let t ← value entry field
          { frame with
            path, depth := frame.depth + 1
            multiplier := entryMultiplier schema name key field rendered } t
        valueOfEntries name fields rendered rest frame t
termination_by (sizeOf entries, 0)

end

end

section

variable {L : Type}

/-- What graphql tells about the literals of a document: which ones are variables, and the value of a literal
as a type, under the variables. -/
structure Literals (L : Type) where
  isVariable : L → Bool
  valueFromAST : L → TypeRef → Record String JsValue → Option JsValue

/-- The state of a `FilterWalk`, without the selections. -/
structure Walk (L : Type) where
  tally : Tally
  argumentValues : Record (Argument L) (TypeRef × Option JsValue)

/-- A new `FilterWalk`. -/
def Walk.start : Walk L where
  tally := { budget := 0, counts := fun _ => 0, sizes := ∅ }
  argumentValues := ∅

variable (schema : Schema) (literals : Literals L)

def getOperationAST (document : Document L) : Option String → Option (OperationDefinition L)
  | some name => (operations document).find? fun op => op.name = some name
  | none =>
    match operations document with
    | [op] => some op
    | _ => none

def declared (op : OperationDefinition L) (given : Record String JsValue) : Record String JsValue :=
  op.variableDefinitions.foldl (fun effective definition =>
    match given.get? definition.name with
    | some v => effective.set definition.name v
    | none =>
      match definition.defaultValue, schema.inputType? definition.type with
      | some literal, some type => effective.put definition.name (literals.valueFromAST literal type ∅)
      | _, _ => effective) ∅

variable [DecidableEq L] (effective : Record String JsValue)

def argumentValue (argument : Argument L) (type : TypeRef) (walk : Walk L) : Option JsValue × Walk L :=
  let v := literals.valueFromAST argument.value type effective
  let kept := { walk with argumentValues := walk.argumentValues.set argument (type, v) }
  match walk.argumentValues.get? argument with
  | some (type', known) => if type' = type then (known, walk) else (v, kept)
  | none => (v, kept)

/-- Where the walk of an argument starts. -/
def argumentFrame (name : String) : InputFrame where
  path := name
  depth := 0
  inWhere := name = "where"
  multiplier := 1

/-- An argument that its field defines with the type. -/
def visitArgument (walk : Walk L) (use : Argument L × TypeRef) : Except String (Walk L) :=
  let read := argumentValue literals effective use.1 use.2 walk
  match read.1 with
  | none =>
    -- a variable that the request leaves out leaves the argument out
    if literals.isVariable use.1.value then .ok read.2 else .error (valueMismatch use.1.name use.2)
  | some v => do
    let tally ← value schema v use.2 (argumentFrame use.1.name) read.2.tally
    .ok { read.2 with tally }

/-- The arguments that a field defines, with their types. -/
def usesOf (field : FieldDefinition) (arguments : List (Argument L)) : List (Argument L × TypeRef) :=
  arguments.filterMap fun argument =>
    (field.arguments.find? fun definition => definition.1 = argument.name).map fun definition =>
      (argument, definition.2)

/-- The type under which an inline fragment is read. -/
def conditionType (typeCondition : Option String) (parent : String) : Option String :=
  match typeCondition with
  | some name => if (schema.types.get? name).isSome then some name else none
  | none => some parent

variable (fragments : Fragments L)

/-- `selectionSet`, with the number of the selections that have been visited. -/
def selectionSet (spreading : List String) (parent : String) (set : List (Selection L)) (selections : ℕ)
    (walk : Walk L) : Except String (ℕ × Walk L) :=
  match set with
  | [] => .ok (selections, walk)
  | selection :: rest =>
    if selections + 1 > maxSelections then .error tooManySelections
    else
      match selection with
      | .field name arguments inner =>
        match schema.field? parent name with
        | none => selectionSet spreading parent rest (selections + 1) walk
        | some field => do
          let walk ← (usesOf field arguments).foldlM (visitArgument schema literals effective) walk
          match inner with
          | none => selectionSet spreading parent rest (selections + 1) walk
          | some inner => do
            let (selections, walk) ← selectionSet spreading field.type.namedType inner (selections + 1) walk
            selectionSet spreading parent rest selections walk
      | .inlineFragment typeCondition inner =>
        match conditionType schema typeCondition parent with
        | none => selectionSet spreading parent rest (selections + 1) walk
        | some type => do
          let (selections, walk) ← selectionSet spreading type inner (selections + 1) walk
          selectionSet spreading parent rest selections walk
      | .fragmentSpread name =>
        match _hfragment : fragments.get? name with
        | none => selectionSet spreading parent rest (selections + 1) walk
        | some fragment =>
          if _hspreading : name ∈ spreading then selectionSet spreading parent rest (selections + 1) walk
          else if (schema.types.get? fragment.typeCondition).isNone then
            selectionSet spreading parent rest (selections + 1) walk
          else do
            let (selections, walk) ←
              selectionSet (name :: spreading) fragment.typeCondition fragment.selectionSet (selections + 1) walk
            selectionSet spreading parent rest selections walk
termination_by (unentered fragments spreading, sizeOf set)
decreasing_by
  all_goals first
    | exact Prod.Lex.left _ _ (unentered_lt _hfragment _hspreading)
    | (refine Prod.Lex.right _ ?_
       simp only [List.cons.sizeOf_spec, Selection.field.sizeOf_spec, Selection.inlineFragment.sizeOf_spec,
         Option.some.sizeOf_spec]
       omega)

end

variable {L : Type} [DecidableEq L] (schema : Schema) (literals : Literals L)

def walkRequest (document : Document L) (given : Record String JsValue) (operationName : Option String) :
    Except String Unit :=
  match getOperationAST document operationName with
  | none => .error (noOperation operationName)
  | some op =>
    match schema.rootType op.operation with
    | none => .ok ()
    | some root => do
      let _ ← selectionSet schema literals (declared schema literals op given) (fragmentsOf document) []
        root op.selectionSet 0 .start
      .ok ()

/-- `run`: the refusal, or nothing when the request is within every limit. -/
def run (document : Document L) (given : Record String JsValue) (operationName : Option String) :
    Option String :=
  match walkRequest schema literals document given operationName with
  | .error message => some message
  | .ok () => none

end QueryGuards
