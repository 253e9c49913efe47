import SchemaLint.Program.Package

/-!
# Calls and returns

Which function a call goes to, what a function returns, and which instructions
read a value.
-/

namespace SchemaLint

structure CallSite where
  call : Call
  /-- The value of the call. Go and defer statements have none. -/
  value : Option ValueId
  pos : Pos
deriving DecidableEq, Repr

namespace Package

def callSite? (p : Package) : Instruction → Access (Option CallSite)
  | .define id => do
    let value ← p.valueAt id
    match value.operation with
    | .call call => return some ⟨call, some id, value.pos⟩
    | _ => return none
  | .go call pos | .defer call pos => return some ⟨call, none, pos⟩
  | _ => return none

/-- The function a call is known to go to: its target is a function or a closure
over one. -/
def staticCallee? (p : Package) (call : Call) : Access (Option FuncId) := do
  if call.method.isSome then return none
  match ← p.operationAt call.target with
  | .function func => return some func
  | .makeClosure closed _ =>
    match ← p.operationAt closed with
    | .function func => return some func
    | _ => return none
  | _ => return none

def callee? (p : Package) (instruction : Instruction) :
    Access (Option FuncId) := do
  match ← p.callSite? instruction with
  | some site => p.staticCallee? site.call
  | none => return none

def lastReturn? (instructions : List Instruction) : Option (List ValueId) :=
  instructions.reverse.findSome? fun
    | .ret results _ => some results
    | _ => none

def results (p : Package) (id : FuncId) : Access (List TypeId) := do
  match ← p.typeAt (← p.funcAt id).signature with
  | .signature _ results _ => return results
  | _ => return []

def returnValue? (p : Package) (id : FuncId) (index : Nat) :
    Access (Option ValueId) := do
  if (← p.results id).isEmpty then return none
  return (lastReturn? (← p.instructions id)).bind (·[index]?)

def reads (p : Package) (value : ValueId) : Instruction → Access Bool
  | .define id => do return (← p.operationAt id).operands.contains value
  | instruction => return instruction.operands.contains value

def referrers (p : Package) (value : ValueId) : Access (List Instruction) := do
  match (← p.valueAt value).parent with
  | none => return []
  | some parent => (← p.instructions parent).filterM (p.reads value)

def constString? (p : Package) (value : ValueId) : Access (Option String) := do
  match ← p.operationAt value with
  | .const (.string s) => return some s
  | _ => return none

end Package

end SchemaLint
