import SchemaLint.Build.Body

/-!
# Sessions with a builder

A session is a sequence of operations on one builder, in any order. Bodies are
opened inside each other, opened again and left; operations on blocks go to the
body that was opened last. A session keeps the numbers that its operations gave
out, and `Session.Allows` says of further operations that they are given no
others.
-/

namespace SchemaLint

structure Ids where
  types : List TypeId := []
  values : List ValueId := []
  funcs : List FuncId := []
deriving DecidableEq, Repr

namespace Ids

def type (id : TypeId) : Ids := { types := [id] }
def value (id : ValueId) : Ids := { values := [id] }
def func (id : FuncId) : Ids := { funcs := [id] }

def append (one other : Ids) : Ids where
  types := one.types ++ other.types
  values := one.values ++ other.values
  funcs := one.funcs ++ other.funcs

structure Among (used issued : Ids) : Prop where
  types : ∀ id ∈ used.types, id ∈ issued.types
  values : ∀ id ∈ used.values, id ∈ issued.values
  funcs : ∀ id ∈ used.funcs, id ∈ issued.funcs

instance (used issued : Ids) : Decidable (used.Among issued) :=
  decidable_of_iff ((∀ id ∈ used.types, id ∈ issued.types) ∧
    (∀ id ∈ used.values, id ∈ issued.values) ∧
    ∀ id ∈ used.funcs, id ∈ issued.funcs)
    ⟨fun ⟨htypes, hvalues, hfuncs⟩ => ⟨htypes, hvalues, hfuncs⟩,
      fun hamong => ⟨hamong.types, hamong.values, hamong.funcs⟩⟩

end Ids

/-! ## Operations on the package -/

inductive Build.Op
  | intern (type : Ty)
  | basic (kind : BasicKind)
  | pointer (elem : TypeId)
  | slice (elem : TypeId)
  | map (key elem : TypeId)
  | interface (methods : List String)
  | emptyInterface
  | structType (fields : List (String × TypeId))
  | signature (params results : List TypeId)
  | tuple (elems : List TypeId)
  | declareNamed (package : Option String) (name : String)
  | setUnderlying (named underlying : TypeId)
  | named (package name : String) (underlying : TypeId)
  | errorType
  | pos (file : String) (line column : Nat)
  | constant (value : Constant) (type : TypeId)
  | constString (s : String)
  | constBool (b : Bool)
  | constInt (n : Int) (type : TypeId)
  | nil (type : TypeId)
  | global (name : String) (elem : TypeId)
  | externalFunction (package name : String) (receiver : Option TypeId)
    (params results : List TypeId)
  | declare (name : String) (params : List (String × TypeId))
    (results : List TypeId)
  | funcRef (func : FuncId)
  | setDoc (func : FuncId) (doc : String)
  | setFuncPos (func : FuncId) (pos : Pos)

namespace Build.Op

def ids : Build.Op → Ids
  | basic _ | interface _ | emptyInterface | declareNamed .. | errorType
  | pos .. | constString _ | constBool _ => {}
  | intern type => { types := type.referenced }
  | pointer elem | slice elem | global _ elem => .type elem
  | map key elem => { types := [key, elem] }
  | structType fields => { types := fields.map Prod.snd }
  | signature params results => { types := params ++ results }
  | tuple elems => { types := elems }
  | setUnderlying type underlying => { types := [type, underlying] }
  | named _ _ type | constant _ type | constInt _ type | nil type => .type type
  | externalFunction _ _ receiver params results =>
    { types := receiver.toList ++ params ++ results }
  | declare _ params results => { types := params.map Prod.snd ++ results }
  | funcRef func | setDoc func _ | setFuncPos func _ => .func func

/-- Runs the operation and tells the numbers that it gives out. -/
def run : Build.Op → Build Ids
  | intern type => do return .type (← Build.intern type)
  | basic kind => do return .type (← Build.basic kind)
  | pointer elem => do return .type (← Build.pointer elem)
  | slice elem => do return .type (← Build.slice elem)
  | map key elem => do return .type (← Build.map key elem)
  | interface methods => do return .type (← Build.interface methods)
  | emptyInterface => do return .type (← Build.emptyInterface)
  | structType fields => do return .type (← Build.structType fields)
  | signature params results =>
    do return .type (← Build.signature params results)
  | tuple elems => do return .type (← Build.tuple elems)
  | declareNamed package name =>
    do return .type (← Build.declareNamed package name)
  | setUnderlying type underlying => do
    Build.setUnderlying type underlying
    return {}
  | named package name underlying =>
    do return .type (← Build.named package name underlying)
  | errorType => do return .type (← Build.errorType)
  | pos file line column => do
    let _ ← Build.pos file line column
    return {}
  | constant value type => do return .value (← Build.constant value type)
  | constString s => do return .value (← Build.constString s)
  | constBool b => do return .value (← Build.constBool b)
  | constInt n type => do return .value (← Build.constInt n type)
  | nil type => do return .value (← Build.nil type)
  | global name elem => do return .value (← Build.global name elem)
  | externalFunction package name receiver params results => do
    return .func (← Build.externalFunction package name receiver params results)
  | declare name params results =>
    do return .func (← Build.declare name params results)
  | funcRef func => do return .value (← Build.funcRef func)
  | setDoc func doc => do
    Build.setDoc func doc
    return {}
  | setFuncPos func place => do
    Build.setFuncPos func place
    return {}

end Build.Op

/-! ## Operations on a body -/

inductive Body.Op
  | moveTo (pos : Pos)
  | switchTo (block : Nat)
  | doc (text : String)
  | param (index : Nat)
  | newBlock
  | name (value : ValueId) (text : String)
  | newValue (elem : TypeId)
  | localVar (elem : TypeId)
  | fieldAddr (x : ValueId) (index : Nat)
  | fieldAddrNamed (x : ValueId) (text : String)
  | field (x : ValueId) (index : Nat)
  | store (addr val : ValueId)
  | storeField (addr : ValueId) (text : String) (val : ValueId)
  | deref (x : ValueId)
  | makeMap (type : TypeId)
  | mapUpdate (map key value : ValueId)
  | makeSlice (type : TypeId) (length : ValueId)
  | indexAddr (x index : ValueId)
  | lookup (x index : ValueId)
  | extract (tuple : ValueId) (index : Nat)
  | makeInterface (x : ValueId) (type : TypeId)
  | boxAny (x : ValueId)
  | changeType (x : ValueId) (type : TypeId)
  | convert (x : ValueId) (type : TypeId)
  | unary (op : UnaryOp) (x : ValueId)
  | phi (edges : List ValueId) (type : TypeId)
  | call (callee : FuncId) (args : List ValueId)
  | callValue (target : ValueId) (args : List ValueId) (results : List TypeId)
  | invoke (receiver : ValueId) (method : String) (args : List ValueId)
    (results : List TypeId)
  | makeClosure (func : FuncId) (bindings : List ValueId)
  | defer (callee : FuncId) (args : List ValueId)
  | go (callee : FuncId) (args : List ValueId)
  | jump (target : Nat)
  | branch (cond : ValueId) (thenBlock elseBlock : Nat)
  | ret (results : List ValueId)

namespace Body.Op

def ids : Body.Op → Ids
  | moveTo _ | switchTo _ | doc _ | param _ | newBlock | jump _ => {}
  | newValue type | localVar type | makeMap type => .type type
  | name x _ | fieldAddr x _ | fieldAddrNamed x _ | field x _ | deref x
  | boxAny x | unary _ x | extract x _ | branch x _ _ => .value x
  | store x y | storeField x _ y | indexAddr x y | lookup x y =>
    { values := [x, y] }
  | mapUpdate map key value => { values := [map, key, value] }
  | makeSlice type x | makeInterface x type | changeType x type
  | convert x type => { types := [type], values := [x] }
  | phi edges type => { types := [type], values := edges }
  | callValue x args results | invoke x _ args results =>
    { types := results, values := x :: args }
  | call func args | makeClosure func args | defer func args | go func args =>
    { funcs := [func], values := args }
  | ret results => { values := results }

def run : Body.Op → Body Ids
  | moveTo pos => do
    Body.moveTo pos
    return {}
  | switchTo block => do
    Body.switchTo block
    return {}
  | doc text => do
    Body.doc text
    return {}
  | param index => do return { values := (← Body.param? index).toList }
  | newBlock => do
    let _ ← Body.newBlock
    return {}
  | name value text => do
    Build.nameValue value text
    return .value value
  | newValue elem => do return .value (← Body.newValue elem)
  | localVar elem => do return .value (← Body.localVar elem)
  | fieldAddr x index => do return .value (← Body.fieldAddr x index)
  | fieldAddrNamed x text => do return .value (← Body.fieldAddrNamed x text)
  | field x index => do return .value (← Body.field x index)
  | store addr val => do
    Body.store addr val
    return {}
  | storeField addr text val =>
    do return .value (← Body.storeField addr text val)
  | deref x => do return .value (← Body.deref x)
  | makeMap type => do return .value (← Body.makeMap type)
  | mapUpdate map key value => do
    Body.mapUpdate map key value
    return {}
  | makeSlice type length => do return .value (← Body.makeSlice type length)
  | indexAddr x index => do return .value (← Body.indexAddr x index)
  | lookup x index => do return .value (← Body.lookup x index)
  | extract tuple index => do return .value (← Body.extract tuple index)
  | makeInterface x type => do return .value (← Body.makeInterface x type)
  | boxAny x => do return .value (← Body.boxAny x)
  | changeType x type => do return .value (← Body.changeType x type)
  | convert x type => do return .value (← Body.convert x type)
  | unary op x => do return .value (← Body.unary op x)
  | phi edges type => do return .value (← Body.phi edges type)
  | call callee args => do return .value (← Body.call callee args)
  | callValue target args results =>
    do return .value (← Body.callValue target args results)
  | invoke receiver method args results =>
    do return .value (← Body.invoke receiver method args results)
  | makeClosure func bindings =>
    do return .value (← Body.makeClosure func bindings)
  | defer callee args => do
    Body.defer callee args
    return {}
  | go callee args => do
    Body.go callee args
    return {}
  | jump target => do
    Body.jump target
    return {}
  | branch cond thenBlock elseBlock => do
    Body.branch cond thenBlock elseBlock
    return {}
  | ret results => do
    Body.ret results
    return {}

end Body.Op

/-! ## Sessions -/

structure Session where
  builder : Builder
  /-- Where the open bodies are worked on, the one opened last first. -/
  cursors : List Cursor := []
  issued : Ids := {}

inductive Step
  | build (op : Build.Op)
  /-- Opens the body of a function. -/
  | body (func : FuncId)
  /-- Declares a function and opens its body. -/
  | function (name : String) (params : List (String × TypeId))
    (results : List TypeId)
  | write (op : Body.Op)
  /-- Leaves the body that was opened last. -/
  | leave

namespace Step

def ids : Step → Ids
  | build op => op.ids
  | body func => .func func
  | function _ params results => { types := params.map Prod.snd ++ results }
  | write op => op.ids
  | leave => {}

end Step

namespace Session

def new (path : String) : Session := { builder := .new path }

def opened (s : Session) (func : FuncId) : Access Session := do
  let pos := (← s.builder.package.funcAt func).pos
  return { s with cursors := ⟨func, 0, pos⟩ :: s.cursors }

/-- One operation. Without an open body there is nothing to write to. -/
def step (s : Session) : Step → Access Session
  | .build op => do
    let (ids, builder) ← op.run s.builder
    return { s with builder, issued := s.issued.append ids }
  | .body func => s.opened func
  | .function name params results => do
    let (func, builder) ← Build.declare name params results s.builder
    { s with builder, issued := s.issued.append (.func func) }.opened func
  | .write op =>
    match s.cursors with
    | [] => return s
    | cursor :: outer => do
      let ((ids, cursor), builder) ← op.run cursor s.builder
      return { builder
               cursors := cursor :: outer
               issued := s.issued.append ids }
  | .leave => return { s with cursors := s.cursors.tail }

def run (s : Session) (steps : List Step) : Access Session :=
  steps.foldlM step s

/-- Every number that a step is given was given out before it. -/
def Allows (s : Session) : List Step → Prop
  | [] => True
  | step :: rest =>
    step.ids.Among s.issued ∧ ∀ next, s.step step = .ok next → next.Allows rest

instance decidableAllows :
    (s : Session) → (steps : List Step) → Decidable (s.Allows steps)
  | _, [] => isTrue trivial
  | s, step :: rest =>
    match hfound : s.step step with
    | .ok next =>
      have := decidableAllows next rest
      decidable_of_iff (step.ids.Among s.issued ∧ next.Allows rest)
        (by simp [Allows, hfound])
    | .error _ =>
      decidable_of_iff (step.ids.Among s.issued) (by simp [Allows, hfound])

end Session

end SchemaLint
