import SchemaLint.Program.Package

/-!
# Validity

A package is valid when every number in it is in its table, every signature is a
signature type and every jump goes to a block of its function.
`Package.violations` lists what is wrong, in the order of the tables.
-/

namespace SchemaLint

inductive Table
  | type
  | value
  | function
deriving DecidableEq, Repr

def Table.noun : Table → String
  | type => "type"
  | value => "value"
  | function => "function"

inductive Owner
  | type (index : Nat)
  | value (index : Nat)
  | function (name : String)
deriving DecidableEq, Repr

def Owner.text : Owner → String
  | type index => "type T" ++ toString index
  | value index => "value v" ++ toString index
  | function name => "function " ++ name

inductive LoadError
  | outOfRange (owner : Owner) (table : Table) (id size : Nat)
  | missingBlock (function : String) (block : Nat)
  | notASignature (function : String)
  | unsupportedFormat (path : String)
  | json
  | yaml
deriving DecidableEq, Repr

def LoadError.message : LoadError → String
  | outOfRange owner table id size =>
    owner.text ++ " refers to " ++ table.noun ++ " " ++ toString id ++
      " but only " ++ toString size ++
      " are defined"
  | missingBlock function block =>
    "function " ++ function ++ " jumps to missing block " ++ toString block
  | notASignature function =>
    "function " ++ function ++ " has a signature that is not a signature type"
  | unsupportedFormat path => "unsupported package document `" ++ path ++ "`"
  | json | yaml => "invalid package document"

namespace Package

def checkType (p : Package) (owner : Owner) (id : TypeId) : List LoadError :=
  if id.index < p.types.size then []
  else [.outOfRange owner .type id.index p.types.size]

def checkValue (p : Package) (owner : Owner) (id : ValueId) : List LoadError :=
  if id.index < p.values.size then []
  else [.outOfRange owner .value id.index p.values.size]

def checkFunc (p : Package) (owner : Owner) (id : FuncId) : List LoadError :=
  if id.index < p.functions.size then []
  else [.outOfRange owner .function id.index p.functions.size]

def typeViolations (p : Package) (index : Nat) (type : Ty) : List LoadError :=
  type.referenced.flatMap (p.checkType (.type index))

def operationViolations (p : Package) (owner : Owner) :
    Operation → List LoadError
  | .function func => p.checkFunc owner func
  | .typeAssert _ asserted _ => p.checkType owner asserted
  | _ => []

def valueViolations (p : Package) (index : Nat) (value : Value) :
    List LoadError :=
  let owner := Owner.value index
  p.checkType owner value.type ++
    value.parent.toList.flatMap (p.checkFunc owner) ++
    value.operation.operands.flatMap (p.checkValue owner) ++
    p.operationViolations owner value.operation

def definedValue : Instruction → List ValueId
  | .define value => [value]
  | _ => []

def checkTarget (f : Func) (target : Nat) : List LoadError :=
  if target < f.body.length then [] else [.missingBlock f.name target]

def instructionViolations (p : Package) (f : Func) (instruction : Instruction) :
    List LoadError :=
  (definedValue instruction ++ instruction.operands).flatMap
    (p.checkValue (.function f.name)) ++
    instruction.successors.flatMap (checkTarget f)

def checkSignature (p : Package) (f : Func) : List LoadError :=
  match p.types[f.signature.index]? with
  | some type => if type.isSignature then [] else [.notASignature f.name]
  | none =>
    [.outOfRange (.function f.name) .type f.signature.index p.types.size]

def funcViolations (p : Package) (f : Func) : List LoadError :=
  let owner := Owner.function f.name
  p.checkSignature f ++ f.receiver.toList.flatMap (p.checkType owner) ++
    f.params.flatMap (p.checkValue owner) ++
    f.instructions.flatMap (p.instructionViolations f)

def violations (p : Package) : List LoadError :=
  p.types.toList.zipIdx.flatMap
    (fun (type, index) => p.typeViolations index type) ++
    p.values.toList.zipIdx.flatMap
      (fun (value, index) => p.valueViolations index value) ++
    p.functions.toList.flatMap p.funcViolations

def validate (p : Package) : Except LoadError Unit :=
  match p.violations with
  | [] => .ok ()
  | error :: _ => .error error

end Package

end SchemaLint
