import SchemaLint.Program.Package

/-!
# The shape behind a type

Looking through named types and pointers. The bounds are the size of the type
table: a chain of named types that reaches its end takes fewer steps, and a
chain that never does is cut.
-/

namespace SchemaLint.Package

def underlyingWithin (p : Package) : Nat → TypeId → Access TypeId
  | 0, id => .ok id
  | steps + 1, id => do
    match ← p.typeAt id with
    | .named _ _ underlying => p.underlyingWithin steps underlying
    | _ => return id

def underlying (p : Package) (id : TypeId) : Access TypeId :=
  p.underlyingWithin p.types.size id

def structureOf (p : Package) (id : TypeId) : Access Ty := do
  p.typeAt (← p.underlying id)

def derefType (p : Package) (id : TypeId) : Access TypeId := do
  match ← p.structureOf id with
  | .pointer elem => return elem
  | _ => return id

def pointerDepthWithin (p : Package) (steps : Nat) (id : TypeId) :
    Access Nat := do
  match ← p.structureOf id with
  | .pointer elem =>
    match steps with
    | 0 => return 1
    | steps + 1 => return (← p.pointerDepthWithin steps elem) + 1
  | _ => return 0

def pointerDepth (p : Package) (id : TypeId) : Access Nat :=
  p.pointerDepthWithin p.types.size id

/-- The fields of a struct type, looking through one pointer and named types. -/
def fields (p : Package) (id : TypeId) : Access (List Field) := do
  match ← p.structureOf (← p.derefType id) with
  | .struct fields => return fields
  | _ => return []

def field? (p : Package) (id : TypeId) (index : Nat) :
    Access (Option Field) := do
  return (← p.fields id)[index]?

def fieldIndex? (p : Package) (id : TypeId) (name : String) :
    Access (Option Nat) := do
  return (← p.fields id).findIdx? (·.name == name)

end SchemaLint.Package
