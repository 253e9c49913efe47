import SchemaLint.Program.Calls
import SchemaLint.Program.Validity

/-!
# Building packages

A package is built by operations that add types, values and functions and return
their numbers. Types are added once: a type that was asked for before has the
number it was given then. A named type is declared by its name and its
underlying type set later, so that it can refer to itself.
-/

namespace SchemaLint

structure Builder where
  package : Package
  /-- Types in the form in which they were first asked for. -/
  interned : List (Ty × TypeId) := []
  declared : List ((Option String × String) × TypeId) := []
  /-- The values that stand for functions, one for each. -/
  funcRefs : List (FuncId × ValueId) := []

def Ty.withUnderlying (underlying : TypeId) : Ty → Ty
  | .named package name _ => .named package name underlying
  | type => type

def Builder.new (path : String) : Builder := { package := { path } }

def Builder.finish (b : Builder) : Except LoadError Package := do
  b.package.validate
  return b.package

abbrev Build := StateT Builder (Except Outside)

namespace Build

def edit (change : Builder → α × Builder) : Build α := fun b => .ok (change b)

def ask (question : Package → Access α) : Build α :=
  fun b => do return (← question b.package, b)

def update (change : Package → Package) : Build Unit :=
  edit fun b => ((), { b with package := change b.package })

/-! ## Types -/

def pushType (type : Ty) : Build TypeId := edit fun b =>
  (⟨b.package.types.size⟩,
    { b with package := { b.package with types := b.package.types.push type } })

def intern (type : Ty) : Build TypeId := do
  match (← get).interned.lookup type with
  | some id => return id
  | none =>
    let id ← pushType type
    modify fun b => { b with interned := (type, id) :: b.interned }
    return id

def basic (kind : BasicKind) : Build TypeId := intern (.basic kind)
def invalid : Build TypeId := basic .invalid
def pointer (elem : TypeId) : Build TypeId := intern (.pointer elem)
def slice (elem : TypeId) : Build TypeId := intern (.slice elem)
def map (key elem : TypeId) : Build TypeId := intern (.map key elem)
def interface (methods : List String) : Build TypeId :=
  intern (.interface methods)
def emptyInterface : Build TypeId := interface []
def signature (params results : List TypeId) : Build TypeId :=
  intern (.signature params results false)
def tuple (elems : List TypeId) : Build TypeId := intern (.tuple elems)

def structType (fields : List (String × TypeId)) : Build TypeId :=
  intern (.struct (fields.map fun (name, type) => ⟨name, type, false⟩))

def declareNamed (package : Option String) (name : String) : Build TypeId := do
  match (← get).declared.lookup (package, name) with
  | some id => return id
  | none =>
    let id ← pushType (.named package name (← invalid))
    modify fun b => { b with declared := ((package, name), id) :: b.declared }
    return id

/-- Sets the underlying type of a named type; other types stay as they are. -/
def setUnderlying (named underlying : TypeId) : Build Unit := update fun p =>
  { p with types := p.types.modify named.index (Ty.withUnderlying underlying) }

def named (package name : String) (underlying : TypeId) : Build TypeId := do
  let id ← declareNamed (some package) name
  setUnderlying id underlying
  return id

def errorType : Build TypeId := do
  let methods ← interface ["Error() string"]
  let id ← declareNamed none "error"
  setUnderlying id methods
  return id

/-! ## Positions and values -/

def pos (file : String) (line column : Nat) : Build Pos := edit fun b =>
  let (positions, pos) := b.package.positions.add file line column
  (pos, { b with package := { b.package with positions } })

def pushValue (value : Value) : Build ValueId := edit fun b =>
  (⟨b.package.values.size⟩, { b with
      package := { b.package with values := b.package.values.push value } })

def pushStatic (operation : Operation) (type : TypeId) : Build ValueId :=
  pushValue ⟨operation, type, .unknown, none, none⟩

def constant (value : Constant) (type : TypeId) : Build ValueId :=
  pushStatic (.const value) type
def constOf (kind : BasicKind) (value : Constant) : Build ValueId := do
  constant value (← basic kind)
def constString (s : String) : Build ValueId := constOf .string (.string s)
def constBool (b : Bool) : Build ValueId := constOf .bool (.bool b)
def constInt (n : Int) (type : TypeId) : Build ValueId := constant (.int n) type
def nil (type : TypeId) : Build ValueId := constant .nil type

def global (name : String) (elem : TypeId) : Build ValueId := do
  pushStatic (.global name) (← pointer elem)

def nameValue (value : ValueId) (name : String) : Build Unit := update fun p =>
  { p with
    values :=
      p.values.modify value.index fun v => { v with name := some name } }

/-! ## Functions -/

def parameters (func : FuncId) (index : Nat) :
    List (String × TypeId) → Build (List ValueId)
  | [] => return []
  | (name, type) :: rest => do
    let value ←
      pushValue ⟨.parameter index, type, .unknown, some func, some name⟩
    return value :: (← parameters func (index + 1) rest)

def addFunction (package name : String) (receiver : Option TypeId)
    (params : List (String × TypeId)) (results : List TypeId)
    (blocks : Option (List Block)) : Build FuncId := do
  let params := (receiver.toList.map fun type => ("recv", type)) ++ params
  let signature ← signature (params.map Prod.snd) results
  let id : FuncId := ⟨(← get).package.functions.size⟩
  let values ← parameters id 0 params
  let func : Func :=
    ⟨name, some package, receiver, signature, values, blocks, .unknown, none⟩
  update fun p => { p with functions := p.functions.push func }
  return id

def externalFunction (package name : String) (receiver : Option TypeId)
    (params results : List TypeId) : Build FuncId :=
  addFunction package name receiver (params.map fun type => ("", type)) results
    none

def declare (name : String) (params : List (String × TypeId))
    (results : List TypeId) : Build FuncId := do
  addFunction (← get).package.path name none params results (some [{}])

def modifyFunc (func : FuncId) (change : Func → Func) : Build Unit :=
  update fun p =>
  { p with functions := p.functions.modify func.index change }

def setDoc (func : FuncId) (doc : String) : Build Unit :=
  modifyFunc func fun f => { f with doc := some doc }
def setFuncPos (func : FuncId) (pos : Pos) : Build Unit :=
  modifyFunc func fun f => { f with pos }

def funcRef (func : FuncId) : Build ValueId := do
  match (← get).funcRefs.lookup func with
  | some value => return value
  | none =>
    let signature := (← ask (·.funcAt func)).signature
    let value ← pushStatic (.function func) signature
    modify fun b => { b with funcRefs := (func, value) :: b.funcRefs }
    return value

end Build

end SchemaLint
