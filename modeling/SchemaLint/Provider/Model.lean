import SchemaLint.Program.Package

/-!
# Providers

A provider has resources and data sources. Each is a component with lifecycle
functions and a tree of attributes, which is sorted by name on every level.
-/

namespace SchemaLint

inductive LifecycleSlot
  | create
  | read
  | update
  | delete
  | existence
deriving DecidableEq, Repr

namespace LifecycleSlot

def all : List LifecycleSlot := [.create, .read, .update, .delete, .existence]

def fieldName : LifecycleSlot → String
  | create => "Create"
  | read => "Read"
  | update => "Update"
  | delete => "Delete"
  | existence => "Exists"

def label : LifecycleSlot → String
  | create => "create"
  | read => "read"
  | update => "update"
  | delete => "delete"
  | existence => "exists"

def ofLabel? (label : String) : Option LifecycleSlot :=
  all.find? (·.label == label)

def rank : LifecycleSlot → Nat
  | create => 0
  | read => 1
  | update => 2
  | delete => 3
  | existence => 4

end LifecycleSlot

inductive AttributeType
  /-- The type is absent or cannot be made out. -/
  | invalid
  | bool
  | int
  | float
  | string
  | list
  | map
  | set
deriving DecidableEq, Repr, Inhabited

namespace AttributeType

def all : List AttributeType :=
  [.invalid, .bool, .int, .float, .string, .list, .map, .set]

def name : AttributeType → String
  | invalid => "invalid"
  | bool => "bool"
  | int => "int"
  | float => "float"
  | string => "string"
  | list => "list"
  | map => "map"
  | set => "set"

def code : AttributeType → Int
  | invalid => 0
  | bool => 1
  | int => 2
  | float => 3
  | string => 4
  | list => 5
  | map => 6
  | set => 7

def constantName : AttributeType → String
  | invalid => "TypeInvalid"
  | bool => "TypeBool"
  | int => "TypeInt"
  | float => "TypeFloat"
  | string => "TypeString"
  | list => "TypeList"
  | map => "TypeMap"
  | set => "TypeSet"

def ofCode? (code : Int) : Option AttributeType :=
  (all.drop 1).find? (·.code == code)

def ofName? (name : String) : Option AttributeType := all.find? (·.name == name)

def isScalar : AttributeType → Bool
  | bool | int | float | string => true
  | _ => false

end AttributeType

structure Attribute where
  name : String
  description : String := ""
  required : Bool := false
  optional : Bool := false
  computed : Bool := false
  type : AttributeType := .invalid
  /-- What a list or set is made of, or the schema inside a map. -/
  children : List Attribute := []
  minItems : Option Int := none
  maxItems : Option Int := none
  /-- Something about the attribute could not be made out. -/
  isPartial : Bool := false
  pos : Pos := .unknown
deriving Repr, Inhabited

namespace Attribute

/-- Where a name would be in a sorted list: halves the range of `size`
attributes from `base` until one is left. -/
def searchFrom (attributes : List Attribute) (name : String) (base size : Nat) :
    Nat :=
  if 1 < size then
    let half := size / 2
    match attributes[base + half]? with
    | some middle =>
      if name < middle.name then searchFrom attributes name base (size - half)
      else searchFrom attributes name (base + half) (size - half)
    | none => base
  else base
termination_by size

def search? (attributes : List Attribute) (name : String) : Option Attribute :=
  attributes[searchFrom attributes name 0 attributes.length]?.filter
    (·.name == name)

def child? (parent : Attribute) (name : String) : Option Attribute :=
  search? parent.children name

end Attribute

structure Component where
  name : String
  /-- The name without the provider's name and the underscore after it. -/
  nameSuffix : String
  description : String
  /-- The function that builds the component. -/
  builder : FuncId
  /-- The lifecycle functions that are there, in the order of slots. -/
  declared : List (LifecycleSlot × FuncId)
  attributes : List Attribute
  isPartial : Bool
  pos : Pos
deriving Repr, Inhabited

namespace Component

def attribute? (component : Component) (name : String) : Option Attribute :=
  Attribute.search? component.attributes name

def lifecycle? (component : Component) (slot : LifecycleSlot) : Option FuncId :=
  component.declared.lookup slot

def descend? (component : Component) : List String → Option Attribute
  | [] => none
  | name :: rest =>
    (component.attribute? name).bind (rest.foldlM Attribute.child?)

end Component

structure Provider where
  /-- Empty when the package path does not give a name. -/
  name : String
  package : Package
  dataSources : List Component
  resources : List Component
deriving Repr, Inhabited

namespace Provider

def resource? (provider : Provider) (name : String) : Option Component :=
  provider.resources.find? (·.name == name)

def dataSource? (provider : Provider) (name : String) : Option Component :=
  provider.dataSources.find? (·.name == name)

def components (provider : Provider) : List (Bool × Component) :=
  provider.dataSources.map (true, ·) ++ provider.resources.map (false, ·)

end Provider

end SchemaLint
