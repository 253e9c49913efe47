import SchemaLint.Build.Basic
import SchemaLint.Program.Shape

/-!
# Building function bodies

Instructions are added at a cursor: the end of one block of one function. The
cursor also has the position that new instructions get.
-/

namespace SchemaLint

structure Cursor where
  func : FuncId
  block : Nat
  pos : Pos
deriving DecidableEq, Repr

abbrev Body := StateT Cursor Build

/-- Adds an instruction at the end of a block, of the last block when there are
not so many. -/
def appendAt (block : Nat) (instruction : Instruction) (blocks : List Block) :
    List Block :=
  let blocks := if blocks.isEmpty then [{}] else blocks
  blocks.modify (min block (blocks.length - 1)) fun b =>
    { instructions := b.instructions ++ [instruction] }

/-- Works on the body of a function, from its first block and with its
position. -/
def Build.body (func : FuncId) (work : Body α) : Build α := do
  let pos := (← Build.ask (·.funcAt func)).pos
  work.run' ⟨func, 0, pos⟩

def Build.function (name : String) (params : List (String × TypeId))
    (results : List TypeId) (work : FuncId → Body α) : Build α := do
  let func ← Build.declare name params results
  Build.body func (work func)

namespace Body

def ask (question : Package → Access α) : Body α := Build.ask question

def moveTo (pos : Pos) : Body Unit := modify fun cursor => { cursor with pos }

def switchTo (block : Nat) : Body Unit :=
  modify fun cursor => { cursor with block }

def doc (text : String) : Body Unit := do Build.setDoc (← get).func text

def param? (index : Nat) : Body (Option ValueId) := do
  return (← ask (·.funcAt (← get).func)).params[index]?

def modifyBlocks (change : List Block → List Block) : Body Unit := do
  Build.modifyFunc (← get).func fun f =>
    { f with blocks := some (change f.body) }

def newBlock : Body Nat := do
  let count := (← ask (·.funcAt (← get).func)).body.length
  modifyBlocks (· ++ [⟨[]⟩])
  return count

def push (instruction : Instruction) : Body Unit := do
  modifyBlocks (appendAt (← get).block instruction)

def define (operation : Operation) (type : TypeId) : Body ValueId := do
  let cursor ← get
  let value ←
    Build.pushValue ⟨operation, type, cursor.pos, some cursor.func, none⟩
  push (.define value)
  return value

/-! ## Memory -/

def alloc (heap : Bool) (elem : TypeId) : Body ValueId := do
  define (.alloc heap) (← Build.pointer elem)
def newValue (elem : TypeId) : Body ValueId := alloc true elem
def localVar (elem : TypeId) : Body ValueId := alloc false elem

def typeOrInvalid : Option TypeId → Body TypeId
  | some type => return type
  | none => Build.invalid

def fieldType (x : ValueId) (field : Nat) : Body TypeId := do
  let type ← ask (·.typeOf x)
  typeOrInvalid ((← ask (·.field? type field)).map Field.type)

def fieldAddr (x : ValueId) (field : Nat) : Body ValueId := do
  define (.fieldAddr x field) (← Build.pointer (← fieldType x field))

/-- The field number that stands for a name the struct does not have. -/
def noField : Nat := Nat.pow 2 64 - 1

def fieldAddrNamed (x : ValueId) (name : String) : Body ValueId := do
  let type ← ask (·.typeOf x)
  fieldAddr x ((← ask (·.fieldIndex? type name)).getD noField)

def field (x : ValueId) (field : Nat) : Body ValueId := do
  define (.field x field) (← fieldType x field)

def store (addr val : ValueId) : Body Unit := do
  push (.store addr val (← get).pos)

/-- Stores into a field of the struct at an address, and returns the address of
the field. -/
def storeField (addr : ValueId) (name : String) (val : ValueId) :
    Body ValueId := do
  let field ← fieldAddrNamed addr name
  store field val
  return field

def deref (x : ValueId) : Body ValueId := do
  let type ← ask (·.typeOf x)
  define (.unary .deref x) (← ask (·.derefType type))

/-! ## Maps, slices and tuples -/

def makeMap (type : TypeId) : Body ValueId := define (.makeMap none) type

def mapUpdate (map key value : ValueId) : Body Unit := do
  push (.mapUpdate map key value (← get).pos)

def makeSlice (type : TypeId) (length : ValueId) : Body ValueId :=
  define (.makeSlice length length) type

def indexAddr (x index : ValueId) : Body ValueId := do
  let type ← ask fun p => do p.structureOf (← p.derefType (← p.typeOf x))
  let elem ← match type with
    | .slice elem | .array elem _ => pure elem
    | _ => Build.invalid
  define (.indexAddr x index) (← Build.pointer elem)

def lookup (x index : ValueId) : Body ValueId := do
  let elem ← match ← ask fun p => do p.structureOf (← p.typeOf x) with
    | .map _ elem => pure elem
    | _ => Build.invalid
  define (.lookup x index false) elem

def extract (tuple : ValueId) (index : Nat) : Body ValueId := do
  let elem ← match ← ask fun p => do p.typeAt (← p.typeOf tuple) with
    | .tuple elems => typeOrInvalid elems[index]?
    | _ => Build.invalid
  define (.extract tuple index) elem

/-! ## Conversions -/

def makeInterface (x : ValueId) (type : TypeId) : Body ValueId :=
  define (.makeInterface x) type
def boxAny (x : ValueId) : Body ValueId := do
  makeInterface x (← Build.emptyInterface)
def changeType (x : ValueId) (type : TypeId) : Body ValueId :=
  define (.changeType x) type
def convert (x : ValueId) (type : TypeId) : Body ValueId :=
  define (.convert x) type
def unary (op : UnaryOp) (x : ValueId) : Body ValueId := do
  define (.unary op x) (← ask (·.typeOf x))
def phi (edges : List ValueId) (type : TypeId) : Body ValueId :=
  define (.phi edges) type

/-! ## Calls -/

def resultType : List TypeId → Body TypeId
  | [single] => return single
  | results => Build.tuple results

def callValue (target : ValueId) (args : List ValueId) (results : List TypeId) :
    Body ValueId := do
  define (.call ⟨target, none, args⟩) (← resultType results)

def invoke (receiver : ValueId) (method : String) (args : List ValueId)
    (results : List TypeId) : Body ValueId := do
  define (.call ⟨receiver, some method, args⟩) (← resultType results)

def call (callee : FuncId) (args : List ValueId) : Body ValueId := do
  let type ← resultType (← ask (·.results callee))
  define (.call ⟨← Build.funcRef callee, none, args⟩) type

def makeClosure (func : FuncId) (bindings : List ValueId) : Body ValueId := do
  let signature := (← ask (·.funcAt func)).signature
  define (.makeClosure (← Build.funcRef func) bindings) signature

def defer (callee : FuncId) (args : List ValueId) : Body Unit := do
  push (.defer ⟨← Build.funcRef callee, none, args⟩ (← get).pos)

def go (callee : FuncId) (args : List ValueId) : Body Unit := do
  push (.go ⟨← Build.funcRef callee, none, args⟩ (← get).pos)

/-! ## Control -/

def jump (target : Nat) : Body Unit := push (.jump target)

def branch (cond : ValueId) (thenBlock elseBlock : Nat) : Body Unit :=
  push (.branch cond thenBlock elseBlock)

def ret (results : List ValueId) : Body Unit := do
  push (.ret results (← get).pos)

end Body

end SchemaLint
