import SchemaLint.Program.Listing
import SchemaLint.Provider.ExtractError
import SchemaLint.Provider.FieldStore
import SchemaLint.Provider.Model
import SchemaLint.Provider.Sdk
import SchemaLint.Sorting
import SchemaLint.Text.Blank

/-!
# Recovering a schema

A schema is a map from attribute names to allocated descriptions, whose fields
say what the attribute is. What cannot be made out marks the attribute as
partial; only an attribute type that is there and is no known constant is an
error.
-/

namespace SchemaLint

abbrev Extract (α : Type) := Analysis ExtractError α

structure Subject where
  package : Package
  sdk : Sdk
  /-- Empty when it is not known. -/
  providerName : String

/-- A field that may be absent, or present without a value that can be made
out. -/
inductive Reading (α : Type)
  | absent
  | found (a : α)
  | unresolved

namespace Reading

def value? : Reading α → Option α
  | found a => some a
  | _ => none

def isUnresolved : Reading α → Bool
  | unresolved => true
  | _ => false

end Reading

/-- Attributes, and whether some of what describes them could not be made
out. -/
structure AttributeList where
  attributes : List Attribute
  isPartial : Bool

namespace AttributeList

def complete : AttributeList := ⟨[], false⟩
def lost : AttributeList := ⟨[], true⟩

def anyPartial (list : AttributeList) : Bool :=
  list.isPartial || list.attributes.any Attribute.isPartial

end AttributeList

def sortByName (attributes : List Attribute) : List Attribute :=
  sortBy Attribute.name attributes

namespace Subject

def constInt? (s : Subject) (value : ValueId) : Extract (Option Int) := do
  match ← s.package.operationAt (← Analysis.root s.package value) with
  | .const (.int n) => return some n
  | _ => return none

/-- A boolean constant behind as many negations as there are, up to the given
number. -/
def constBoolWithin? (s : Subject) : Nat → ValueId → Extract (Option Bool)
  | 0, _ => return none
  | steps + 1, value => do
    match ← s.package.operationAt (← Analysis.root s.package value) with
    | .const (.bool b) => return some b
    | .unary .not x => return (← s.constBoolWithin? steps x).map not
    | _ => return none

def constBool? (s : Subject) (value : ValueId) : Extract (Option Bool) :=
  s.constBoolWithin? (s.package.values.size + 1) value

def readField (s : Subject) (stores : List FieldStore) (field : String)
    (read : ValueId → Extract (Option α)) : Extract (Reading α) := do
  match firstStore? stores field with
  | none => return .absent
  | some store =>
    match ← read store.value with
    | some a => return .found a
    | none =>
      Report.debug (s.package.positions.display store.pos ++ ": " ++ field ++
        " is not a constant")
      return .unresolved

/-- The attribute type a value stands for: a constant of the right type with a
known code. -/
def attributeType? (s : Subject) (value : ValueId) :
    Extract (Option AttributeType) := do
  let root ← Analysis.root s.package value
  let value ← s.package.valueAt root
  match value.operation with
  | .const (.int n) =>
    if (← s.package.typeName value.type) == s.sdk.valueType then
      return AttributeType.ofCode? n
    return none
  | _ => return none

/-- The type stored for an attribute. No store at all leaves it open. -/
def storedType (s : Subject) (name : String) (stores : List FieldStore) :
    Extract (Reading AttributeType) := do
  match firstStore? stores "Type" with
  | none =>
    Report.debug ("attribute " ++ Text.quoted name ++ ": no type assigned")
    return .unresolved
  | some store =>
    match ← s.attributeType? store.value with
    | some type => return .found type
    | none =>
      Report.warn (s.package.positions.display store.pos ++ ": unexpected type")
      Analysis.refuse (.unexpectedType store.pos)

/-- What an element description holds: a resource has the attributes of its
schema, an attribute description has none. -/
def element (s : Subject) (nested : ValueId → Extract AttributeList)
    (value : ValueId) : Extract AttributeList := do
  let elem ← Analysis.root s.package value
  if ← s.package.isAllocOf elem s.sdk.resourceType then
    let stores ← s.package.instanceStores elem s.sdk.resourceType
    match firstStore? stores "Schema" with
    | some store => nested store.value
    | none => return .lost
  else if ← s.package.isAllocOf elem s.sdk.schemaType then
    return .complete
  else
    Report.warn
      ("element schema not resolvable: " ++ (← s.package.valueText elem))
    return .lost

/-- The attributes inside an attribute: lists and sets have an element, maps a
schema or else an element. -/
def children (s : Subject) (nested : ValueId → Extract AttributeList)
    (type : AttributeType) (stores : List FieldStore) : Extract AttributeList :=
  let fromElement : Extract AttributeList :=
    match firstStore? stores "Elem" with
    | some store => s.element nested store.value
    | none => return .complete
  match type with
  | .list | .set => fromElement
  | .map =>
    match firstStore? stores "Schema" with
    | some store => nested store.value
    | none => fromElement
  | _ => return .complete

def describedAttribute (s : Subject) (nested : ValueId → Extract AttributeList)
    (name : String) (pos : Pos) (stores : List FieldStore) :
    Extract Attribute := do
  let description ←
    s.readField stores "Description" (Analysis.constString? s.package)
  let required ← s.readField stores "Required" s.constBool?
  let optional ← s.readField stores "Optional" s.constBool?
  let computed ← s.readField stores "Computed" s.constBool?
  let minItems ← s.readField stores "MinItems" s.constInt?
  let maxItems ← s.readField stores "MaxItems" s.constInt?
  let type ← s.storedType name stores
  let inner ← s.children nested (type.value?.getD .invalid) stores
  return {
    name, pos
    description := (description.value?.map Text.trim).getD ""
    required := required.value?.getD false
    optional := optional.value?.getD false
    computed := computed.value?.getD false
    minItems := minItems.value?
    maxItems := maxItems.value?
    type := type.value?.getD .invalid
    children := inner.attributes
    isPartial :=
      description.isUnresolved || required.isUnresolved ||
      optional.isUnresolved || computed.isUnresolved ||
      minItems.isUnresolved || maxItems.isUnresolved ||
      type.isUnresolved || inner.anyPartial }

def attributeOf (s : Subject) (nested : ValueId → Extract AttributeList)
    (name : String) (entry : MapEntry) : Extract Attribute := do
  let schema ← Analysis.root s.package entry.value
  if ← s.package.isAllocOf schema s.sdk.schemaType then
    let stores ← s.package.instanceStores schema s.sdk.schemaType
    s.describedAttribute nested name entry.pos stores
  else
    Report.warn
      ("attribute " ++ Text.quoted name ++ ": schema value not resolvable: " ++
        (← s.package.valueText schema))
    return { name, pos := entry.pos, isPartial := true }

/-- The attribute of a map entry, none when its name is not a constant. -/
def entryAttribute? (s : Subject) (nested : ValueId → Extract AttributeList)
    (entry : MapEntry) : Extract (Option Attribute) := do
  match ← Analysis.constString? s.package entry.key with
  | none =>
    Report.warn (s.package.positions.display entry.pos ++
      ": attribute name is not a constant")
    return none
  | some name =>
    Analysis.within
      (.context ("error parsing attribute " ++ Text.quoted name) entry.pos)
      (some <$> s.attributeOf nested name entry)

def schemaMap (s : Subject) (nested : ValueId → Extract AttributeList)
    (value : ValueId) : Extract AttributeList := do
  let map ← Analysis.root s.package value
  if ← s.package.isMap map then
    let entries ← s.package.mapEntries map
    let found ← entries.mapM (s.entryAttribute? nested)
    return ⟨sortByName (found.filterMap id), found.any Option.isNone⟩
  else
    Report.warn ("schema is not a map literal: " ++ (← s.package.valueText map))
    return .lost

def nestingLimit : Nat := 32

/-- The attributes of a schema map with at most `depth` levels below it. -/
def attributesWithin (s : Subject) : Nat → ValueId → Extract AttributeList
  | 0 => s.schemaMap fun _ => do
    Report.warn ("schema nesting deeper than " ++ toString nestingLimit)
    return .lost
  | depth + 1 => s.schemaMap (s.attributesWithin depth)

end Subject

end SchemaLint
