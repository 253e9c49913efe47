import SchemaLint.Decimal.Shortest
import SchemaLint.Program.Naming
import SchemaLint.Text.Quoted

/-!
# Listings

The text of values, instructions and function bodies.
-/

namespace SchemaLint

def Constant.text : Constant → String
  | bool b => if b then "true" else "false"
  | int n => toString n
  | float x => Decimal.plainText x
  | string s => Text.quoted s
  | nil => "nil"

namespace Package

def operandText (p : Package) (id : ValueId) : Access String := do
  let value ← p.valueAt id
  match value.operation with
  | .const constant => return constant.text ++ ":" ++ (← p.typeName value.type)
  | .function func => p.funcName func
  | .global name | .builtin name => return name
  | _ =>
    match value.name with
    | some name => return id.text ++ "(" ++ name ++ ")"
    | none => return id.text

def operandTexts (p : Package) (ids : List ValueId) : Access String := do
  return ", ".intercalate (← ids.mapM p.operandText)

def callText (p : Package) (call : Call) : Access String := do
  let args ← p.operandTexts call.args
  let target ← p.operandText call.target
  match call.method with
  | some method =>
    return "invoke " ++ target ++ "." ++ method ++ "(" ++ args ++ ")"
  | none => return target ++ "(" ++ args ++ ")"

def fieldText (p : Package) (base : ValueId) (index : Nat) : Access String := do
  match ← p.field? (← p.typeOf base) index with
  | some field => return field.name
  | none => return "?"

def valueText (p : Package) (id : ValueId) : Access String := do
  let value ← p.valueAt id
  let text := p.operandText
  match value.operation with
  | .const _ | .function _ | .global _ | .builtin _ => text id
  | .parameter index => return "parameter " ++ toString index
  | .freeVar index => return "freevar " ++ toString index
  | .alloc heap =>
    return (if heap then "new " else "local ") ++
      (← p.typeName (← p.derefType value.type))
  | .makeInterface x =>
    return "make " ++ (← p.typeName value.type) ++ " <- " ++ (← text x)
  | .changeType x =>
    return "changetype " ++ (← p.typeName value.type) ++ " <- " ++ (← text x)
  | .convert x =>
    return "convert " ++ (← p.typeName value.type) ++ " <- " ++ (← text x)
  | .makeClosure func bindings =>
    return "make closure " ++ (← text func) ++ " [" ++
      (← p.operandTexts bindings) ++ "]"
  | .makeMap _ => return "make " ++ (← p.typeName value.type)
  | .makeSlice length capacity =>
    return "make " ++ (← p.typeName value.type) ++ " " ++ (← text length) ++
      " " ++ (← text capacity)
  | .unary op x => return op.title ++ " " ++ (← text x)
  | .binary op x y => return (← text x) ++ " " ++ op.title ++ " " ++ (← text y)
  | .fieldAddr x index =>
    return "&" ++ (← text x) ++ "." ++ (← p.fieldText x index)
  | .field x index => return (← text x) ++ "." ++ (← p.fieldText x index)
  | .indexAddr x index =>
    return "&" ++ (← text x) ++ "[" ++ (← text index) ++ "]"
  | .index x index => return (← text x) ++ "[" ++ (← text index) ++ "]"
  | .lookup x index commaOk =>
    return (← text x) ++ "[" ++ (← text index) ++ "]" ++
      (if commaOk then ",ok" else "")
  | .extract tuple index =>
    return "extract " ++ (← text tuple) ++ " #" ++ toString index
  | .typeAssert x asserted _ =>
    return "typeassert " ++ (← text x) ++ ".(" ++ (← p.typeName asserted) ++ ")"
  | .phi edges => return "phi [" ++ (← p.operandTexts edges) ++ "]"
  | .call call => p.callText call

def instructionText (p : Package) : Instruction → Access String
  | .define id => do
    return id.text ++ " = " ++ (← p.valueText id) ++ " : " ++
      (← p.typeName (← p.typeOf id))
  | .store addr val _ =>
    do return "*" ++ (← p.operandText addr) ++ " = " ++ (← p.operandText val)
  | .mapUpdate map key value _ => do
    return (← p.operandText map) ++ "[" ++ (← p.operandText key) ++ "] = " ++
      (← p.operandText value)
  | .ret results _ => do return "return " ++ (← p.operandTexts results)
  | .jump target => return "jump " ++ toString target
  | .branch cond thenBlock elseBlock => do
    return "if " ++ (← p.operandText cond) ++ " goto " ++ toString thenBlock ++
      " else " ++ toString elseBlock
  | .panic x _ => do return "panic " ++ (← p.operandText x)
  | .go call _ => do return "go " ++ (← p.callText call)
  | .defer call _ => do return "defer " ++ (← p.callText call)
  | .runDefers => return "rundefers"

def blockLines (p : Package) (index : Nat) (block : Block) :
    Access (List String) := do
  let lines ← block.instructions.mapM p.instructionText
  return (toString index ++ ":") :: lines.map ("  " ++ ·)

def listing (p : Package) (id : FuncId) : Access String := do
  let f ← p.funcAt id
  let head := "func " ++ (← p.funcName id) ++ " " ++ (← p.typeName f.signature)
  let body ←
    match f.blocks with
    | none => pure [["  (external)"]]
    | some blocks =>
      blocks.zipIdx.mapM fun (block, index) => p.blockLines index block
  return String.join ((head :: body.flatten).map (· ++ "\n"))

end Package

end SchemaLint
