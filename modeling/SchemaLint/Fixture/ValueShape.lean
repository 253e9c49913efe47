import SchemaLint.Fixture.Plugin

/-!
# Shapes of set values

The ways in which the value argument of a call that sets an attribute can come
about.
-/

namespace SchemaLint

inductive ValueShape
  | bool
  | int
  | int64
  | uint
  | float32
  | float64
  | string
  | namedString
  | pointer
  | pointerPointer
  | deref
  | field
  | fieldPointerDeref
  | sliceElem
  | sliceElemDeref
  | mapElem
  | mapElemDeref
  | callString
  | callPointer
  | callPointerDeref
  | map
deriving DecidableEq, Repr

namespace ValueShape

def all : List ValueShape :=
  [.bool, .int, .int64, .uint, .float32, .float64, .string, .namedString,
    .pointer, .pointerPointer, .deref, .field, .fieldPointerDeref, .sliceElem,
    .sliceElemDeref, .mapElem, .mapElemDeref, .callString, .callPointer,
    .callPointerDeref, .map]

def name : ValueShape → String
  | bool => "bool"
  | int => "int"
  | int64 => "int64"
  | uint => "uint"
  | float32 => "float32"
  | float64 => "float64"
  | string => "string"
  | namedString => "named_string"
  | pointer => "*string"
  | pointerPointer => "**string"
  | deref => "deref"
  | field => "field"
  | fieldPointerDeref => "field_pointer_deref"
  | sliceElem => "slice_elem"
  | sliceElemDeref => "slice_elem_deref"
  | mapElem => "map_elem"
  | mapElemDeref => "map_elem_deref"
  | callString => "call_string"
  | callPointer => "call_pointer"
  | callPointerDeref => "call_pointer_deref"
  | map => "map"

def ofName? (name : String) : Option ValueShape := all.find? (·.name == name)

def sampleText : String := "value"

def sampleFloat : Decimal.Double := .round false 3 2

def samplePointer (string : TypeId) (heap : Bool) : Body ValueId := do
  let pointer ← Body.alloc heap string
  Body.store pointer (← Build.constString sampleText)
  return pointer

/-- The struct with a text and a pointer to a text, as a local variable. -/
def sampleStruct (string stringPtr : TypeId) : Body ValueId := do
  Body.localVar
    (← Build.structType [("String", string), ("PtrString", stringPtr)])

def sampleElement (elem : TypeId) : Body ValueId := do
  let type ← Build.slice elem
  let slice ← Body.makeSlice type (← Build.constOf .int (.int 1))
  Body.deref (← Body.indexAddr slice (← Build.constOf .int (.int 0)))

def sampleEntry (int elem : TypeId) : Body ValueId := do
  let map ← Body.makeMap (← Build.map int elem)
  Body.lookup map (← Build.constOf .int (.int 1))

def sampleFunction (name : String) (result : TypeId) (make : Body ValueId) :
    Build FuncId :=
  Build.function name [] [result] fun func => do
    Body.ret [← make]
    return func

def sampleCall (string stringPtr : TypeId) : Body ValueId := do
  Body.call (← sampleFunction "lookupStringPointer" stringPtr
    (samplePointer string true)) []

/-- Makes a value of the shape, given the type of texts and of pointers to
them. -/
def make (plugin : Plugin) (string stringPtr : TypeId) :
    ValueShape → Body ValueId
  | bool => Build.constBool true
  | int => Build.constOf .int (.int 1)
  | int64 => Build.constOf .int64 (.int 1)
  | uint => Build.constOf .uint (.int 1)
  | float32 => Build.constOf .float32 (.float sampleFloat)
  | float64 => Build.constOf .float64 (.float sampleFloat)
  | .string => Build.constString sampleText
  | namedString => do
    let path ← Body.ask (Except.ok ·.path)
    let named ← Build.named path "MyString" string
    Body.changeType (← Build.constString sampleText) named
  | pointer => samplePointer string false
  | pointerPointer => do
    let outer ← Body.localVar stringPtr
    Body.store outer (← Body.localVar string)
    return outer
  | deref => do Body.deref (← samplePointer string true)
  | field =>
    do Body.deref (← Body.fieldAddr (← sampleStruct string stringPtr) 0)
  | fieldPointerDeref =>
    do Body.deref (← Body.deref
      (← Body.fieldAddr (← sampleStruct string stringPtr) 1))
  | sliceElem => sampleElement string
  | sliceElemDeref => do Body.deref (← sampleElement stringPtr)
  | mapElem => sampleEntry plugin.int string
  | mapElemDeref => do Body.deref (← sampleEntry plugin.int stringPtr)
  | callString =>
    do Body.call (← sampleFunction "lookupString" string
      (Build.constString sampleText)) []
  | callPointer => sampleCall string stringPtr
  | callPointerDeref => do Body.deref (← sampleCall string stringPtr)
  | map => do Body.makeMap (← Build.map string plugin.any)

end ValueShape

end SchemaLint
