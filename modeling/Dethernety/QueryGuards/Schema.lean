import Dethernety.QueryGuards.Document

/-!
# What the filter guard reads in a schema

The executable schema as the `FilterWalk` of `query-guards.ts` reads it: which quantifier a key of an input
object applies, how many types a filter can match, and which input objects are operands of a mutation.
-/

namespace QueryGuards

section

/-- `GraphQLField` -/
structure FieldDefinition where
  arguments : List (String × TypeRef)
  type : TypeRef

/-- `GraphQLNamedType`; a scalar and an enumeration are not told apart. -/
inductive NamedType
  | leaf
  | object (fields : Record String FieldDefinition)
  | interface (fields : Record String FieldDefinition)
  | union
  | inputObject (fields : Record String TypeRef)

/-- `GraphQLSchema`, with the costs that `registerCypherFields` records for it. -/
structure Schema where
  types : Record String NamedType
  rootType : OperationKind → Option String
  possibleTypes : String → List String
  cypherCosts : Record String ℕ

def TypeRef.namedType : TypeRef → String
  | .named name => name
  | .list item => item.namedType
  | .nonNull type => type.namedType

def TypeRef.text : TypeRef → String
  | .named name => name
  | .list item => "[" ++ item.text ++ "]"
  | .nonNull type => type.text ++ "!"

variable (schema : Schema)

/-- The field of an object or an interface. -/
def Schema.field? (parent name : String) : Option FieldDefinition :=
  match schema.types.get? parent with
  | some (.object fields) => fields.get? name
  | some (.interface fields) => fields.get? name
  | _ => none

def Schema.inputFields? (name : String) : Option (Record String TypeRef) :=
  match schema.types.get? name with
  | some (.inputObject fields) => some fields
  | _ => none

/-- `isObjectType` -/
def Schema.isObject (name : String) : Bool :=
  match schema.types.get? name with
  | some (.object _) => true
  | _ => false

/-- `isAbstractType` -/
def Schema.isAbstract (name : String) : Bool :=
  match schema.types.get? name with
  | some (.interface _) => true
  | some .union => true
  | _ => false

def Schema.inputType? (type : TypeRef) : Option TypeRef :=
  match schema.types.get? type.namedType with
  | some .leaf => some type
  | some (.inputObject _) => some type
  | _ => none

end

/-- A name without a suffix that it ends in. -/
def dropSuffix? (suffix name : String) : Option String :=
  if suffix.toList.isSuffixOf name.toList then
    some (String.ofList (name.toList.take (name.toList.length - suffix.toList.length)))
  else none

/-- The name ends in one of the suffixes. -/
def endsIn (suffixes : List String) (name : String) : Bool :=
  suffixes.any fun suffix => suffix.toList.isSuffixOf name.toList

inductive Quantifier
  | SOME
  | ALL
  | NONE
  | SINGLE
  deriving DecidableEq

def Quantifier.key : Quantifier → String
  | SOME => "some"
  | ALL => "all"
  | NONE => "none"
  | SINGLE => "single"

def Quantifier.suffix : Quantifier → String
  | SOME => "_SOME"
  | ALL => "_ALL"
  | NONE => "_NONE"
  | SINGLE => "_SINGLE"

def quantifiers : List Quantifier :=
  [.SOME, .ALL, .NONE, .SINGLE]

def quantifierOf (type key : String) : Option Quantifier :=
  let named := quantifiers.find? fun quantifier => quantifier.key = key
  let deprecated := quantifiers.find? fun quantifier => endsIn [quantifier.suffix] key
  if endsIn ["RelationshipFilters", "ConnectionFilters"] type then named.or deprecated else deprecated

def operatorSuffixes : List String :=
  ["_EQ", "_IN", "_LT", "_LTE", "_GT", "_GTE", "_CONTAINS", "_STARTS_WITH", "_ENDS_WITH", "_MATCHES",
    "_INCLUDES"] ++ quantifiers.map Quantifier.suffix

def baseField (key : String) : String :=
  (operatorSuffixes.findSome? fun suffix => dropSuffix? suffix key).getD key

def whereTarget (name : String) : Option String :=
  dropSuffix? "Where" name

def isOperandType (name : String) : Bool :=
  endsIn ["ConnectFieldInput", "DisconnectFieldInput", "CreateFieldInput", "DeleteFieldInput",
    "UpdateConnectionInput"] name

variable (schema : Schema)

/-- `filteredType`, along a chain of at most `fuel` input types. -/
def filteredTypeWithin : ℕ → TypeRef → Option String
  | 0, _ => none
  | fuel + 1, type =>
    match schema.inputFields? type.namedType with
    | none => none
    | some fields =>
      match fields.get? "node" with
      | some node => filteredTypeWithin fuel node
      | none => (whereTarget type.namedType).filter fun target => (schema.types.get? target).isSome

/-- `filteredType`. A chain of `node` fields that is longer than the schema has a cycle: on it the source
does not return. -/
def filteredType (type : TypeRef) : Option String :=
  filteredTypeWithin schema (schema.types.keys.length + 1) type

/-- The input type has a field `node`. -/
def hasNode (name : String) : Bool :=
  (schema.inputFields? name).any fun fields => (fields.get? "node").isSome

def unionConnectionMembers (type : TypeRef) : ℕ :=
  match schema.inputFields? type.namedType with
  | none => 0
  | some fields =>
    if (fields.get? "node").isSome then 0
    else (fields.entries.filter fun field => schema.isObject field.1 && hasNode schema field.2.namedType).length

def targetsAbstractType (type : TypeRef) : Bool :=
  (filteredType schema type).any schema.isAbstract || 0 < unionConnectionMembers schema type

def memberCount (type : TypeRef) : ℕ :=
  match (filteredType schema type).filter schema.isAbstract with
  | some target => max 1 (schema.possibleTypes target).length
  | none => max 1 (unionConnectionMembers schema type)

lemma memberCount_pos (type : TypeRef) : 0 < memberCount schema type := by
  unfold memberCount
  cases (filteredType schema type).filter schema.isAbstract with
  | none | some target => exact lt_of_lt_of_le Nat.one_pos (le_max_left _ _)

def operandMembers (fields : Record String TypeRef) : ℕ :=
  match fields.get? "where" with
  | some type => memberCount schema type
  | none => 1

lemma operandMembers_pos (fields : Record String TypeRef) : 0 < operandMembers schema fields := by
  unfold operandMembers
  cases fields.get? "where" with
  | none => exact Nat.one_pos
  | some type => exact memberCount_pos schema type

def aggregateTarget (type : String) (fields : Record String TypeRef) (key : String) : Option TypeRef :=
  if key = "aggregate" ∧ endsIn ["ConnectionFilters"] type then fields.get? "some"
  else
    match (dropSuffix? "Aggregate" key).bind fields.get? with
    | none => none
    | some relationship => (schema.inputFields? relationship.namedType).bind fun inner => inner.get? "some"

/-- The cost of a filter on a `@cypher` field, if the key filters one. -/
def cypherCost (type key : String) : ℕ :=
  match whereTarget type with
  | some owner => (schema.cypherCosts.get? (owner ++ "." ++ baseField key)).getD 0
  | none => 0

end QueryGuards
