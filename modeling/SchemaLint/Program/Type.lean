/-!
# Types

The static types of a Go package. Types are kept in one table and refer to each
other by number, so that a named type may refer to itself.
-/

namespace SchemaLint

structure TypeId where
  index : Nat
deriving DecidableEq, Repr, Inhabited

def TypeId.text (id : TypeId) : String := "T" ++ toString id.index

inductive BasicKind
  | invalid | bool
  | int | int8 | int16 | int32 | int64
  | uint | uint8 | uint16 | uint32 | uint64 | uintptr
  | float32 | float64 | complex64 | complex128
  | string | unsafePointer
  | untypedBool | untypedInt | untypedRune | untypedFloat | untypedString
  | untypedNil
deriving DecidableEq, Repr

namespace BasicKind

def all : List BasicKind :=
  [.invalid, .bool, .int, .int8, .int16, .int32, .int64, .uint, .uint8, .uint16,
    .uint32, .uint64, .uintptr, .float32, .float64, .complex64, .complex128,
    .string, .unsafePointer, .untypedBool, .untypedInt, .untypedRune,
    .untypedFloat, .untypedString, .untypedNil]

def name : BasicKind → String
  | invalid => "invalid type"
  | bool => "bool"
  | int => "int"
  | int8 => "int8"
  | int16 => "int16"
  | int32 => "int32"
  | int64 => "int64"
  | uint => "uint"
  | uint8 => "uint8"
  | uint16 => "uint16"
  | uint32 => "uint32"
  | uint64 => "uint64"
  | uintptr => "uintptr"
  | float32 => "float32"
  | float64 => "float64"
  | complex64 => "complex64"
  | complex128 => "complex128"
  | string => "string"
  | unsafePointer => "unsafe.Pointer"
  | untypedBool => "untyped bool"
  | untypedInt => "untyped int"
  | untypedRune => "untyped rune"
  | untypedFloat => "untyped float"
  | untypedString => "untyped string"
  | untypedNil => "untyped nil"

def label : BasicKind → String
  | invalid => "invalid"
  | unsafePointer => "unsafe_pointer"
  | untypedBool => "untyped_bool"
  | untypedInt => "untyped_int"
  | untypedRune => "untyped_rune"
  | untypedFloat => "untyped_float"
  | untypedString => "untyped_string"
  | untypedNil => "untyped_nil"
  | kind => kind.name

end BasicKind

structure Field where
  name : String
  type : TypeId
  embedded : Bool
deriving DecidableEq, Repr

inductive Ty
  | basic (kind : BasicKind)
  /-- The package is absent for predeclared types such as `error`. -/
  | named (package : Option String) (name : String) (underlying : TypeId)
  | pointer (elem : TypeId)
  | slice (elem : TypeId)
  | array (elem : TypeId) (length : Nat)
  | map (key elem : TypeId)
  | chan (elem : TypeId)
  | struct (fields : List Field)
  | interface (methods : List String)
  | signature (params results : List TypeId) (variadic : Bool)
  | tuple (elems : List TypeId)
deriving DecidableEq, Repr

namespace Ty

def referenced : Ty → List TypeId
  | basic _ | interface _ => []
  | named _ _ underlying => [underlying]
  | pointer elem | slice elem | array elem _ | chan elem => [elem]
  | map key elem => [key, elem]
  | struct fields => fields.map Field.type
  | signature params results _ => params ++ results
  | tuple elems => elems

def isNamed : Ty → Bool
  | named .. => true
  | _ => false

def isSignature : Ty → Bool
  | signature .. => true
  | _ => false

end Ty

end SchemaLint
