import SchemaLint.Program.Value

/-!
# Packages

A package has tables of types, values and functions. Everything refers to table
entries by number, and a look-up of a number outside its table is a fault that
ends the question asked.
-/

namespace SchemaLint

inductive Instruction
  | define (value : ValueId)
  | store (addr val : ValueId) (pos : Pos)
  | mapUpdate (map key value : ValueId) (pos : Pos)
  | ret (results : List ValueId) (pos : Pos)
  | jump (target : Nat)
  | branch (cond : ValueId) (thenBlock elseBlock : Nat)
  | panic (x : ValueId) (pos : Pos)
  | go (call : Call) (pos : Pos)
  | defer (call : Call) (pos : Pos)
  | runDefers
deriving DecidableEq, Repr

namespace Instruction

/-- The values an instruction reads itself; the operation of a defined value
reads further ones. -/
def operands : Instruction → List ValueId
  | define _ | jump _ | runDefers => []
  | store addr val _ => [addr, val]
  | mapUpdate map key value _ => [map, key, value]
  | ret results _ => results
  | branch cond _ _ => [cond]
  | panic x _ => [x]
  | go call _ | defer call _ => call.operands

def successors : Instruction → List Nat
  | jump target => [target]
  | branch _ thenBlock elseBlock => [thenBlock, elseBlock]
  | _ => []

end Instruction

structure Block where
  instructions : List Instruction := []
deriving DecidableEq, Repr, Inhabited

structure Func where
  name : String
  /-- The package that declares the function, absent for synthetic wrappers. -/
  package : Option String
  receiver : Option TypeId
  signature : TypeId
  params : List ValueId
  /-- Absent for functions whose body is not part of the package. -/
  blocks : Option (List Block)
  pos : Pos
  doc : Option String
deriving DecidableEq, Repr

namespace Func

def isExternal (f : Func) : Bool := f.blocks.isNone

def body (f : Func) : List Block := f.blocks.getD []

def instructions (f : Func) : List Instruction :=
  f.body.flatMap Block.instructions

end Func

structure Package where
  path : String
  types : Array Ty := #[]
  values : Array Value := #[]
  functions : Array Func := #[]
  positions : PositionTable := {}
deriving DecidableEq, Repr, Inhabited

inductive Outside
  | type (id : TypeId)
  | value (id : ValueId)
  | function (id : FuncId)
deriving DecidableEq, Repr

/-- The answer to a question about a package, unless the question leads outside
its tables. -/
abbrev Access (α : Type) := Except Outside α

namespace Package

def typeAt (p : Package) (id : TypeId) : Access Ty :=
  match p.types[id.index]? with
  | some type => .ok type
  | none => .error (.type id)

def valueAt (p : Package) (id : ValueId) : Access Value :=
  match p.values[id.index]? with
  | some value => .ok value
  | none => .error (.value id)

def funcAt (p : Package) (id : FuncId) : Access Func :=
  match p.functions[id.index]? with
  | some f => .ok f
  | none => .error (.function id)

def operationAt (p : Package) (id : ValueId) : Access Operation := do
  return (← p.valueAt id).operation

def typeOf (p : Package) (id : ValueId) : Access TypeId := do
  return (← p.valueAt id).type

/-- The instructions of a function in block order, none for an external one. -/
def instructions (p : Package) (id : FuncId) : Access (List Instruction) := do
  return (← p.funcAt id).instructions

def funcIds (p : Package) : List FuncId :=
  (List.range p.functions.size).map FuncId.mk
def valueIds (p : Package) : List ValueId :=
  (List.range p.values.size).map ValueId.mk
def typeIds (p : Package) : List TypeId :=
  (List.range p.types.size).map TypeId.mk

/-- A function is local when its body is there and belongs to this package. -/
def owns (p : Package) (f : Func) : Bool :=
  !f.isExternal && f.package == some p.path

def localFunctions (p : Package) : List (FuncId × Func) :=
  (p.functions.toList.zipIdx.map fun (f, index) => (FuncId.mk index, f)).filter
    fun (_, f) => p.owns f

end Package

end SchemaLint
