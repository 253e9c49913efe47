import SchemaLint.Document.Decode
import SchemaLint.Program.Package

/-!
# Package documents

Every part of a package has a document form and a reader for it. Types,
operations and instructions are records with a tag; a value is the record of its
operation with the value's own members beside it. What stands in a tagged record
is settled before it is read; the readers named for that expect a settled
document.
-/

namespace SchemaLint

/-! ## Numbers and positions -/

namespace TypeId

def encode (id : TypeId) : Document := .nat id.index
def decode? (document : Document) : Option TypeId :=
  document.word32?.map TypeId.mk

end TypeId

namespace ValueId

def encode (id : ValueId) : Document := .nat id.index
def decode? (document : Document) : Option ValueId :=
  document.word32?.map ValueId.mk

end ValueId

namespace FuncId

def encode (id : FuncId) : Document := .nat id.index
def decode? (document : Document) : Option FuncId :=
  document.word32?.map FuncId.mk

end FuncId

namespace Pos

def encode (pos : Pos) : Document := .nat pos.handle
def decode? (document : Document) : Option Pos := document.word32?.map Pos.mk

end Pos

def Members.pos (members : Members) : Option Pos :=
  members.defaulted "pos" Pos.decode? .unknown

namespace PositionEntry

def encode (entry : PositionEntry) : Document :=
  .record [("file", .nat entry.file), ("line", .nat entry.line),
    ("column", .nat entry.column)]

def decode? (document : Document) : Option PositionEntry := do
  let members ← document.members?
  return ⟨← members.required "file" Document.word32?,
    ← members.required "line" Document.word32?,
    ← members.required "column" Document.word32?⟩

end PositionEntry

def Location.encode (location : Location) : Document :=
  .record [("file", .text location.file), ("line", .nat location.line),
    ("column", .nat location.column), ("text", .text location.text)]

namespace PositionTable

def encode (table : PositionTable) : Document :=
  .record [("files", .texts table.files.toList),
    ("entries", .list (table.entries.toList.map PositionEntry.encode))]

def decode? (document : Document) : Option PositionTable := do
  let members ← document.members?
  return ⟨(← members.listOf "files" Document.text?).toArray,
    (← members.listOf "entries" PositionEntry.decode?).toArray⟩

end PositionTable

/-! ## Types -/

namespace BasicKind

def ofLabel? (label : String) : Option BasicKind := all.find? (·.label == label)

def decode? (document : Document) : Option BasicKind := do
  ofLabel? (← document.choice?)

def ofSettled? (document : Document) : Option BasicKind := do
  ofLabel? (← document.settledChoice? (all.map label))

end BasicKind

namespace Field

def encode (field : Field) : Document :=
  .record [("name", .text field.name), ("ty", field.type.encode),
    ("embedded", .bool field.embedded)]

def ofSettled? (document : Document) : Option Field := do
  let members ← document.fields? ["name", "ty", "embedded"]
  return ⟨← members.required "name" Document.text?,
    ← members.required "ty" TypeId.decode?,
    ← members.defaulted "embedded" Document.bool? false⟩

end Field

namespace Ty

def encodeIds (ids : List TypeId) : Document := .list (ids.map TypeId.encode)

def encode : Ty → Document
  | basic kind => .record [("kind", .text "basic"), ("basic", .text kind.label)]
  | named package name underlying =>
    .record [("kind", .text "named"), ("package", .nullable .text package),
      ("name", .text name), ("underlying", underlying.encode)]
  | pointer elem => .record [("kind", .text "pointer"), ("elem", elem.encode)]
  | slice elem => .record [("kind", .text "slice"), ("elem", elem.encode)]
  | array elem length =>
    .record
      [("kind", .text "array"), ("elem", elem.encode), ("len", .nat length)]
  | map key elem =>
    .record [("kind", .text "map"), ("key", key.encode), ("elem", elem.encode)]
  | chan elem => .record [("kind", .text "chan"), ("elem", elem.encode)]
  | struct fields =>
    .record
      [("kind", .text "struct"), ("fields", .list (fields.map Field.encode))]
  | interface methods =>
    .record [("kind", .text "interface"), ("methods", .texts methods)]
  | signature params results variadic =>
    .record [("kind", .text "signature"), ("params", encodeIds params),
      ("results", encodeIds results), ("variadic", .bool variadic)]
  | tuple elems => .record [("kind", .text "tuple"), ("elems", encodeIds elems)]

def memberNames : String → List String
  | "basic" => ["basic"]
  | "named" => ["package", "name", "underlying"]
  | "array" => ["elem", "len"]
  | "map" => ["key", "elem"]
  | "struct" => ["fields"]
  | "interface" => ["methods"]
  | "signature" => ["params", "results", "variadic"]
  | "tuple" => ["elems"]
  | _ => ["elem"]

def ofMembers? (kind : String) (members : Members) : Option Ty := do
  let elem := members.required "elem" TypeId.decode?
  match kind with
  | "basic" => return basic (← members.required "basic" BasicKind.ofSettled?)
  | "named" =>
    return named (← members.optional "package" Document.text?)
      (← members.required "name" Document.text?)
      (← members.required "underlying" TypeId.decode?)
  | "pointer" => return pointer (← elem)
  | "slice" => return slice (← elem)
  | "array" => return array (← elem) (← members.required "len" Document.word64?)
  | "map" => return map (← members.required "key" TypeId.decode?) (← elem)
  | "chan" => return chan (← elem)
  | "struct" =>
    return struct
      (← members.required "fields" (Document.listOf? Field.ofSettled?))
  | "interface" => return interface (← members.listOf "methods" Document.text?)
  | "signature" =>
    return signature (← members.listOf "params" TypeId.decode?)
      (← members.listOf "results" TypeId.decode?)
      (← members.defaulted "variadic" Document.bool? false)
  | "tuple" =>
    return tuple (← members.required "elems" (Document.listOf? TypeId.decode?))
  | _ => none

def decode? (document : Document) : Option Ty := do
  let (kind, content) ← document.tagged? "kind"
  ofMembers? kind (← content.fields? (memberNames kind))

end Ty

/-! ## Values -/

namespace Constant

def encode : Constant → Document
  | bool b => .record [("bool", .bool b)]
  | int n => .record [("int", .int n)]
  | float x => .record [("float", .real x)]
  | string s => .record [("string", .text s)]
  | nil => .text "nil"

/-- The kinds of constants, in the order by which a number may stand for one. -/
def kinds : List String := ["bool", "int", "float", "string", "nil"]

def ofPayload? (kind : String) (payload : Document) : Option Constant :=
  match kind with
  | "bool" => payload.bool?.map bool
  | "int" => payload.int64?.map int
  | "float" => payload.double?.map float
  | "string" => payload.text?.map string
  | _ => none

def decode? : Document → Option Constant
  | document =>
    if document.choice? = some "nil" then some nil
    else
      match document with
      | .record [(kind, payload)] => ofPayload? kind payload
      | _ => none

def ofSettled? (document : Document) : Option Constant :=
  if document.settledChoice? kinds = some "nil" then some nil
  else
    match document.variant? kinds with
    | some (kind, some payload) => ofPayload? kind payload
    | _ => none

end Constant

namespace UnaryOp

def ofLabel? (label : String) : Option UnaryOp := all.find? (·.label == label)

def decode? (document : Document) : Option UnaryOp := do
  ofLabel? (← document.choice?)

def ofSettled? (document : Document) : Option UnaryOp := do
  ofLabel? (← document.settledChoice? (all.map label))

end UnaryOp

namespace BinaryOp

def ofSettled? (document : Document) : Option BinaryOp := do
  let label ← document.settledChoice? (all.map label)
  all.find? (·.label == label)

end BinaryOp

def ValueId.encodeAll (ids : List ValueId) : Document :=
  .list (ids.map ValueId.encode)

namespace Call

def encode (call : Call) : Document :=
  .record [("value", call.target.encode),
    ("method", .nullable .text call.method),
    ("args", ValueId.encodeAll call.args)]

def ofSettled? (document : Document) : Option Call := do
  let members ← document.fields? ["value", "method", "args"]
  return ⟨← members.required "value" ValueId.decode?,
    ← members.optional "method" Document.text?,
    ← members.listOf "args" ValueId.decode?⟩

end Call

namespace Operation

/-- The tags of operations, in the order by which a number may stand for one. -/
def tags : List String :=
  ["const", "parameter", "free_var", "global", "function", "builtin", "alloc",
    "make_interface", "change_type", "convert", "make_closure", "make_map",
    "make_slice", "un_op", "bin_op", "field_addr", "field", "index_addr",
    "index", "lookup", "extract", "type_assert", "phi", "call"]

def members : Operation → Members
  | const constant => [("op", .text "const"), ("value", constant.encode)]
  | parameter number => [("op", .text "parameter"), ("index", .nat number)]
  | freeVar number => [("op", .text "free_var"), ("index", .nat number)]
  | global name => [("op", .text "global"), ("name", .text name)]
  | function func => [("op", .text "function"), ("func", func.encode)]
  | builtin name => [("op", .text "builtin"), ("name", .text name)]
  | alloc heap => [("op", .text "alloc"), ("heap", .bool heap)]
  | makeInterface x => [("op", .text "make_interface"), ("x", x.encode)]
  | changeType x => [("op", .text "change_type"), ("x", x.encode)]
  | convert x => [("op", .text "convert"), ("x", x.encode)]
  | makeClosure func bindings =>
    [("op", .text "make_closure"), ("func", func.encode),
      ("bindings", ValueId.encodeAll bindings)]
  | makeMap reserve =>
    [("op", .text "make_map"), ("reserve", .nullable ValueId.encode reserve)]
  | makeSlice length capacity =>
    [("op", .text "make_slice"), ("len", length.encode),
      ("cap", capacity.encode)]
  | unary operator x =>
    [("op", .text "un_op"), ("unop", .text operator.label), ("x", x.encode)]
  | binary operator x y =>
    [("op", .text "bin_op"), ("binop", .text operator.label), ("x", x.encode),
      ("y", y.encode)]
  | fieldAddr x number =>
    [("op", .text "field_addr"), ("x", x.encode), ("field", .nat number)]
  | field x number =>
    [("op", .text "field"), ("x", x.encode), ("field", .nat number)]
  | indexAddr x key =>
    [("op", .text "index_addr"), ("x", x.encode), ("index", key.encode)]
  | index x key =>
    [("op", .text "index"), ("x", x.encode), ("index", key.encode)]
  | lookup x key commaOk =>
    [("op", .text "lookup"), ("x", x.encode), ("index", key.encode),
      ("comma_ok", .bool commaOk)]
  | extract tuple number =>
    [("op", .text "extract"), ("tuple", tuple.encode), ("index", .nat number)]
  | typeAssert x asserted commaOk =>
    [("op", .text "type_assert"), ("x", x.encode),
      ("asserted", asserted.encode), ("comma_ok", .bool commaOk)]
  | phi edges => [("op", .text "phi"), ("edges", ValueId.encodeAll edges)]
  | call invocation => [("op", .text "call"), ("call", invocation.encode)]

def ofMembers? (members : Members) : Option Operation := do
  let value (name : String) := members.required name ValueId.decode?
  let number (name : String) := members.required name Document.word64?
  let flag (name : String) := members.defaulted name Document.bool? false
  match ← ← members.required "op" (Document.nameOfKey? tags) with
  | "const" => return const (← members.required "value" Constant.ofSettled?)
  | "parameter" => return parameter (← number "index")
  | "free_var" => return freeVar (← number "index")
  | "global" => return global (← members.required "name" Document.text?)
  | "function" => return function (← members.required "func" FuncId.decode?)
  | "builtin" => return builtin (← members.required "name" Document.text?)
  | "alloc" => return alloc (← flag "heap")
  | "make_interface" => return makeInterface (← value "x")
  | "change_type" => return changeType (← value "x")
  | "convert" => return convert (← value "x")
  | "make_closure" =>
    return makeClosure (← value "func")
      (← members.listOf "bindings" ValueId.decode?)
  | "make_map" => return makeMap (← members.optional "reserve" ValueId.decode?)
  | "make_slice" => return makeSlice (← value "len") (← value "cap")
  | "un_op" =>
    return unary (← members.required "unop" UnaryOp.ofSettled?) (← value "x")
  | "bin_op" =>
    return binary (← members.required "binop" BinaryOp.ofSettled?) (← value "x")
      (← value "y")
  | "field_addr" => return fieldAddr (← value "x") (← number "field")
  | "field" => return field (← value "x") (← number "field")
  | "index_addr" => return indexAddr (← value "x") (← value "index")
  | "index" => return index (← value "x") (← value "index")
  | "lookup" =>
    return lookup (← value "x") (← value "index") (← flag "comma_ok")
  | "extract" => return extract (← value "tuple") (← number "index")
  | "type_assert" =>
    return typeAssert (← value "x")
      (← members.required "asserted" TypeId.decode?) (← flag "comma_ok")
  | "phi" =>
    return phi (← members.required "edges" (Document.listOf? ValueId.decode?))
  | "call" => return call (← members.required "call" Call.ofSettled?)
  | _ => none

end Operation

namespace Value

def encode (value : Value) : Document :=
  .record (value.operation.members ++
    [("ty", value.type.encode), ("pos", value.pos.encode),
      ("parent", .nullable FuncId.encode value.parent)] ++
    value.name.toList.map fun name => ("debug_name", .text name))

def ownNames : List String := ["ty", "pos", "parent", "debug_name"]

def decode? (document : Document) : Option Value := do
  let members ← document.members?
  let operands := members.filter fun (name, _) => !ownNames.contains name
  return {
    operation := ← Operation.ofMembers? (← Document.settleMembers? operands)
    type := ← members.required "ty" TypeId.decode?
    pos := ← members.pos
    parent := ← members.optional "parent" FuncId.decode?
    name := ← members.optional "debug_name" Document.text? }

end Value

/-! ## Functions -/

namespace Instruction

def encode : Instruction → Document
  | define value => .record [("op", .text "value"), ("value", value.encode)]
  | store addr val pos =>
    .record [("op", .text "store"), ("addr", addr.encode), ("val", val.encode),
      ("pos", pos.encode)]
  | mapUpdate map key value pos =>
    .record [("op", .text "map_update"), ("map", map.encode),
      ("key", key.encode), ("value", value.encode), ("pos", pos.encode)]
  | ret results pos =>
    .record [("op", .text "return"), ("results", ValueId.encodeAll results),
      ("pos", pos.encode)]
  | jump target => .record [("op", .text "jump"), ("target", .nat target)]
  | branch cond thenBlock elseBlock =>
    .record [("op", .text "if"), ("cond", cond.encode),
      ("then_block", .nat thenBlock), ("else_block", .nat elseBlock)]
  | panic x pos =>
    .record [("op", .text "panic"), ("x", x.encode), ("pos", pos.encode)]
  | go call pos =>
    .record [("op", .text "go"), ("call", call.encode), ("pos", pos.encode)]
  | defer call pos =>
    .record [("op", .text "defer"), ("call", call.encode), ("pos", pos.encode)]
  | runDefers => .record [("op", .text "run_defers")]

def memberNames : String → List String
  | "value" => ["value"]
  | "store" => ["addr", "val", "pos"]
  | "map_update" => ["map", "key", "value", "pos"]
  | "return" => ["results", "pos"]
  | "jump" => ["target"]
  | "if" => ["cond", "then_block", "else_block"]
  | "panic" => ["x", "pos"]
  | "go" | "defer" => ["call", "pos"]
  | _ => []

def ofMembers? (op : String) (members : Members) : Option Instruction := do
  let value (name : String) := members.required name ValueId.decode?
  match op with
  | "value" => return define (← value "value")
  | "store" => return store (← value "addr") (← value "val") (← members.pos)
  | "map_update" =>
    return mapUpdate (← value "map") (← value "key") (← value "value")
      (← members.pos)
  | "return" =>
    return ret (← members.listOf "results" ValueId.decode?) (← members.pos)
  | "jump" => return jump (← members.required "target" Document.word64?)
  | "if" =>
    return branch (← value "cond")
      (← members.required "then_block" Document.word64?)
      (← members.required "else_block" Document.word64?)
  | "panic" => return panic (← value "x") (← members.pos)
  | "go" =>
    return go (← members.required "call" Call.ofSettled?) (← members.pos)
  | "defer" =>
    return defer (← members.required "call" Call.ofSettled?) (← members.pos)
  | _ => none

/-- What stands beside the tag of an instruction without operands is not looked
at, unless it is in a list. -/
def decode? (document : Document) : Option Instruction := do
  match ← document.tagged? "op" with
  | ("run_defers", .list (_ :: _)) => none
  | ("run_defers", _) => return runDefers
  | (op, content) => ofMembers? op (← content.fields? (memberNames op))

end Instruction

namespace Block

def encode (block : Block) : Document :=
  .record [("instrs", .list (block.instructions.map Instruction.encode))]

def decode? (document : Document) : Option Block := do
  return ⟨← (← document.members?).listOf "instrs" Instruction.decode?⟩

end Block

namespace Func

def encode (f : Func) : Document :=
  .record [("name", .text f.name), ("package", .nullable .text f.package),
    ("receiver", .nullable TypeId.encode f.receiver),
    ("signature", f.signature.encode),
    ("params", ValueId.encodeAll f.params),
    ("blocks",
      .nullable (fun blocks => .list (blocks.map Block.encode)) f.blocks),
    ("pos", f.pos.encode),
    ("doc", .nullable .text f.doc)]

def decode? (document : Document) : Option Func := do
  let members ← document.members?
  return {
    name := ← members.required "name" Document.text?
    package := ← members.optional "package" Document.text?
    receiver := ← members.optional "receiver" TypeId.decode?
    signature := ← members.required "signature" TypeId.decode?
    params := ← members.listOf "params" ValueId.decode?
    blocks := ← members.optional "blocks" (Document.listOf? Block.decode?)
    pos := ← members.pos
    doc := ← members.optional "doc" Document.text? }

end Func

/-! ## Packages -/

namespace Package

def encode (p : Package) : Document :=
  .record [("path", .text p.path),
    ("types", .list (p.types.toList.map Ty.encode)),
    ("values", .list (p.values.toList.map Value.encode)),
    ("functions", .list (p.functions.toList.map Func.encode)),
    ("positions", p.positions.encode)]

def decode? (document : Document) : Option Package := do
  let members ← document.members?
  return {
    path := ← members.required "path" Document.text?
    types := (← members.listOf "types" Ty.decode?).toArray
    values := (← members.listOf "values" Value.decode?).toArray
    functions := (← members.listOf "functions" Func.decode?).toArray
    positions := ← members.defaulted "positions" PositionTable.decode? {} }

end Package

end SchemaLint
