import SchemaLint.Program.Naming
import SchemaLint.Program.Walk
import SchemaLint.Provenance

/-!
# Field stores and map entries

A struct is built by allocating it and storing into its fields, a map by
updating it key by key. Both are recognised in the instructions: a store through
the address of a field, and an update of the very map value.
-/

namespace SchemaLint

structure FieldStore where
  /-- Where the struct comes from. -/
  base : ValueId
  field : String
  value : ValueId
  pos : Pos
deriving DecidableEq, Repr

def firstStore? (stores : List FieldStore) (field : String) :
    Option FieldStore :=
  stores.find? (·.field == field)

structure MapEntry where
  key : ValueId
  value : ValueId
  pos : Pos
deriving DecidableEq, Repr

namespace Package

/-- The address of a field: the value itself, the struct, and the name of the
field. -/
structure FieldAddress where
  addr : ValueId
  struct : ValueId
  field : String

/-- The field address that an instruction defines, if it is one of a struct of
the given type name. -/
def fieldAddress? (p : Package) (typeName : String) :
    Instruction → Access (Option FieldAddress)
  | .define id => do
    match ← p.operationAt id with
    | .fieldAddr x index =>
      let type ← p.typeOf x
      if !(← p.isType type typeName) then return none
      return (← p.field? type index).map fun field => ⟨id, x, field.name⟩
    | _ => return none
  | _ => return none

/-- The stores into fields of structs of the given type name, in order. -/
def fieldStores (p : Package) (instructions : List Instruction)
    (typeName : String) : Analysis ε (List FieldStore) := do
  let addresses ←
    Analysis.ofAccess (instructions.filterMapM (p.fieldAddress? typeName))
  instructions.filterMapM fun
    | .store addr value pos =>
      match addresses.find? (·.addr == addr) with
      | none => return none
      | some address =>
        return some
          ⟨← Analysis.root p address.struct, address.field, value, pos⟩
    | _ => return none

/-- Field stores in a function and in all that it is known to call. -/
def reachedStores (p : Package) (func : FuncId) (typeName : String) :
    Analysis ε (List FieldStore) := do
  let instructions ←
    Analysis.ofAccess do p.walk (fun _ => false) (← p.instructions func)
  p.fieldStores instructions typeName

def siblings (p : Package) (value : ValueId) : Access (List Instruction) := do
  match (← p.valueAt value).parent with
  | none => return []
  | some parent => p.instructions parent

def instanceStores (p : Package) (alloc : ValueId) (typeName : String) :
    Analysis ε (List FieldStore) := do
  let stores ← p.fieldStores (← p.siblings alloc) typeName
  return stores.filter (·.base == alloc)

def mapEntries (p : Package) (map : ValueId) : Access (List MapEntry) := do
  return (← p.siblings map).filterMap fun
    | .mapUpdate updated key value pos =>
      if updated == map then some ⟨key, value, pos⟩ else none
    | _ => none

def isMap (p : Package) (value : ValueId) : Access Bool := do
  match ← p.operationAt value with
  | .makeMap _ => return true
  | _ => return false

/-- Whether a value is the allocation of a struct of the given type name. -/
def isAllocOf (p : Package) (value : ValueId) (typeName : String) :
    Access Bool := do
  let value ← p.valueAt value
  match value.operation with
  | .alloc _ => p.isType value.type typeName
  | _ => return false

end Package

end SchemaLint
