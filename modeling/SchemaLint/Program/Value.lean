import SchemaLint.Decimal.Double
import SchemaLint.Program.Position
import SchemaLint.Program.Type

/-!
# Values

A value is defined once, by one operation on other values. Values and functions
are numbered, and a value that an instruction defines names the function it
belongs to.
-/

namespace SchemaLint

structure ValueId where
  index : Nat
deriving DecidableEq, Repr, Inhabited

structure FuncId where
  index : Nat
deriving DecidableEq, Repr, Inhabited

def ValueId.text (id : ValueId) : String := "v" ++ toString id.index
def FuncId.text (id : FuncId) : String := "f" ++ toString id.index

inductive Constant
  | bool (b : Bool)
  | int (n : Int)
  | float (x : Decimal.Double)
  | string (s : String)
  | nil
deriving DecidableEq, Repr

inductive UnaryOp
  | deref | recv | not | neg | xor
deriving DecidableEq, Repr

inductive BinaryOp
  | add | sub | mul | div | rem | and | or | xor | shl | shr | andNot | eq | ne
    | lt | le | gt | ge
deriving DecidableEq, Repr

namespace UnaryOp

def all : List UnaryOp := [.deref, .recv, .not, .neg, .xor]

def label : UnaryOp → String
  | deref => "deref"
  | recv => "recv"
  | not => "not"
  | neg => "neg"
  | xor => "xor"

def title : UnaryOp → String
  | deref => "Deref"
  | recv => "Recv"
  | not => "Not"
  | neg => "Neg"
  | xor => "Xor"

end UnaryOp

namespace BinaryOp

def all : List BinaryOp :=
  [.add, .sub, .mul, .div, .rem, .and, .or, .xor, .shl, .shr, .andNot, .eq, .ne,
    .lt, .le, .gt, .ge]

def label : BinaryOp → String
  | add => "add"
  | sub => "sub"
  | mul => "mul"
  | div => "div"
  | rem => "rem"
  | and => "and"
  | or => "or"
  | xor => "xor"
  | shl => "shl"
  | shr => "shr"
  | andNot => "and_not"
  | eq => "eq"
  | ne => "ne"
  | lt => "lt"
  | le => "le"
  | gt => "gt"
  | ge => "ge"

def title : BinaryOp → String
  | add => "Add"
  | sub => "Sub"
  | mul => "Mul"
  | div => "Div"
  | rem => "Rem"
  | and => "And"
  | or => "Or"
  | xor => "Xor"
  | shl => "Shl"
  | shr => "Shr"
  | andNot => "AndNot"
  | eq => "Eq"
  | ne => "Ne"
  | lt => "Lt"
  | le => "Le"
  | gt => "Gt"
  | ge => "Ge"

end BinaryOp

/-- A call. An interface method call has the interface value as its target and
names the method; any other call has the called value as its target, and a
method's receiver is its first argument. -/
structure Call where
  target : ValueId
  method : Option String
  args : List ValueId
deriving DecidableEq, Repr

def Call.operands (call : Call) : List ValueId := call.target :: call.args

inductive Operation
  | const (constant : Constant)
  | parameter (index : Nat)
  | freeVar (index : Nat)
  | global (name : String)
  | function (func : FuncId)
  | builtin (name : String)
  | alloc (heap : Bool)
  | makeInterface (x : ValueId)
  | changeType (x : ValueId)
  | convert (x : ValueId)
  | makeClosure (func : ValueId) (bindings : List ValueId)
  | makeMap (reserve : Option ValueId)
  | makeSlice (length capacity : ValueId)
  | unary (op : UnaryOp) (x : ValueId)
  | binary (op : BinaryOp) (x y : ValueId)
  | fieldAddr (x : ValueId) (field : Nat)
  | field (x : ValueId) (field : Nat)
  | indexAddr (x index : ValueId)
  | index (x index : ValueId)
  | lookup (x index : ValueId) (commaOk : Bool)
  | extract (tuple : ValueId) (index : Nat)
  | typeAssert (x : ValueId) (asserted : TypeId) (commaOk : Bool)
  | phi (edges : List ValueId)
  | call (call : Call)
deriving DecidableEq, Repr

namespace Operation

def operands : Operation → List ValueId
  | const _ | parameter _ | freeVar _ | global _ | function _ | builtin _
  | alloc _ => []
  | makeInterface x | changeType x | convert x | unary _ x | fieldAddr x _
  | field x _ | typeAssert x _ _ => [x]
  | makeClosure func bindings => func :: bindings
  | makeMap reserve => reserve.toList
  | makeSlice length capacity => [length, capacity]
  | binary _ x y => [x, y]
  | indexAddr x key | index x key | lookup x key _ => [x, key]
  | extract tuple _ => [tuple]
  | phi edges => edges
  | call invocation => invocation.operands

def isInstruction : Operation → Bool
  | const _ | parameter _ | freeVar _ | global _ | function _ | builtin _ =>
    false
  | _ => true

/-- Boxing into an interface or a change of type: the value behind it is the
same. -/
def transparent? : Operation → Option ValueId
  | makeInterface x | changeType x => some x
  | _ => none

end Operation

structure Value where
  operation : Operation
  type : TypeId
  pos : Pos
  parent : Option FuncId
  /-- The name in the source, for listings. -/
  name : Option String
deriving DecidableEq, Repr

end SchemaLint
