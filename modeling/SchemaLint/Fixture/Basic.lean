import SchemaLint.Program.Validity
import SchemaLint.Provider.Model

/-!
# Provider fixtures

A provider described by what it should contain, for trying out extraction and
rules. A fixture is lowered to a package with the instructions that such a
provider compiles to.
-/

namespace SchemaLint

/-- What a list, set or map is made of. Exactly one of the two has to be
there. -/
structure ElemOf (α : Type) where
  schema : Option α := none
  /-- The attributes of a nested resource by name. -/
  resource : Option (List (String × α)) := none
deriving Repr

structure AttributeFixture where
  /-- The name of the type. -/
  type : Option String := none
  /-- The constant to write for the type, whatever `type` says. -/
  typeConst : Option Int := none
  required : Bool := false
  optional : Bool := false
  computed : Bool := false
  /-- Write the flags as negations. -/
  negated : Bool := false
  description : Option String := none
  minItems : Option Int := none
  maxItems : Option Int := none
  elem : Option (ElemOf AttributeFixture) := none
  /-- Read the description of the attribute from a package variable. -/
  isDynamic : Bool := false
deriving Repr

abbrev AttributeFixtures := List (String × AttributeFixture)

structure SetFixture where
  name : String := ""
  /-- The name of the shape of the value argument. -/
  value : String := ""
  /-- Read the attribute name from a package variable. -/
  hasDynamicName : Bool := false
  hasExtraArg : Bool := false
deriving DecidableEq, Repr

structure FunctionFixture where
  /-- A function of the plugin library to use in place of an own one. -/
  sdk : Option String := none
  sets : List SetFixture := []
  /-- Functions of the plugin library to call. -/
  calls : List String := []
  /-- Lifecycle functions of the same component to call. -/
  callSlots : List LifecycleSlot := []
  /-- A further function to call. -/
  helper : Option FunctionFixture := none
deriving Repr

structure ComponentFixture where
  doc : Option String := none
  /-- Make the component a data source by a call of the plugin library. -/
  shim : Bool := false
  /-- When absent, no schema is assigned. -/
  schema : Option AttributeFixtures := none
  create : Option FunctionFixture := none
  read : Option FunctionFixture := none
  update : Option FunctionFixture := none
  delete : Option FunctionFixture := none
  existence : Option FunctionFixture := none
deriving Repr

def ComponentFixture.slot (fixture : ComponentFixture) :
    LifecycleSlot → Option FunctionFixture
  | .create => fixture.create
  | .read => fixture.read
  | .update => fixture.update
  | .delete => fixture.delete
  | .existence => fixture.existence

structure ProviderFixture where
  package : Option String := none
  dataSources : List (String × ComponentFixture) := []
  resources : List (String × ComponentFixture) := []
  /-- Give the function that removes a component from the state a body, as a
  vendored library does. -/
  isVendored : Bool := false
deriving Repr

def examplePackage : String :=
  "github.com/example/terraform-provider-example/example"

def ProviderFixture.path (fixture : ProviderFixture) : String :=
  fixture.package.getD examplePackage

inductive FixtureError
  | unknownType (name : String)
  | elemChoice
  | unknownShape (name : String)
  | unknownCall (name : String)
  | unknownFunction (name : String)
  | missingSlot (slot : LifecycleSlot)
  | missingData
  | missingMeta
  | invalid (error : LoadError)
deriving DecidableEq, Repr

def FixtureError.message : FixtureError → String
  | unknownType name => "unknown attribute type `" ++ name ++ "`"
  | elemChoice => "elem needs exactly one of `schema` or `resource`"
  | unknownShape name => "unknown set value shape `" ++ name ++ "`"
  | unknownCall name => "unknown sdk call `" ++ name ++ "`"
  | unknownFunction name => "unknown sdk function `" ++ name ++ "`"
  | missingSlot slot => "no " ++ slot.fieldName ++ " function to call"
  | missingData => "missing receiver data parameter"
  | missingMeta => "missing meta parameter"
  | invalid error => error.message

end SchemaLint
