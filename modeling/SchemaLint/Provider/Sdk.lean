import SchemaLint.Document.Decode

/-!
# Names of the plugin library

Providers are written against a library whose types and functions are recognised
by name. The names here are the usual ones; a configuration can replace any of
them.
-/

namespace SchemaLint

structure Sdk where
  /-- The function that constructs the provider. -/
  entryPoint : String := "Provider"
  /-- Result types by which that function is recognised. -/
  rootTypes : List String :=
    ["github.com/hashicorp/terraform/terraform.ResourceProvider",
     "*github.com/hashicorp/terraform/helper/schema.Provider"]
  providerType : String :=
    "github.com/hashicorp/terraform/helper/schema.Provider"
  resourceType : String :=
    "github.com/hashicorp/terraform/helper/schema.Resource"
  schemaType : String := "github.com/hashicorp/terraform/helper/schema.Schema"
  /-- The type of the constants that stand for attribute types. -/
  valueType : String := "github.com/hashicorp/terraform/helper/schema.ValueType"
  /-- Makes a data source out of a resource. -/
  resourceShim : String :=
    "github.com/hashicorp/terraform/helper/schema.DataSourceResourceShim"
  set : String :=
    "(*github.com/hashicorp/terraform/helper/schema.ResourceData).Set"
  setId : String :=
    "(*github.com/hashicorp/terraform/helper/schema.ResourceData).SetId"
  removeFromState : String :=
    "github.com/hashicorp/terraform/helper/schema.RemoveFromState"
  errwrapWrapf : String := "github.com/hashicorp/errwrap.Wrapf"
deriving DecidableEq, Repr, Inhabited

namespace Sdk

def usual : Sdk := {}

def encode (sdk : Sdk) : Document :=
  .record [("entry_point", .text sdk.entryPoint),
    ("root_types", .texts sdk.rootTypes),
    ("provider_type", .text sdk.providerType),
    ("resource_type", .text sdk.resourceType),
    ("schema_type", .text sdk.schemaType), ("value_type", .text sdk.valueType),
    ("resource_shim", .text sdk.resourceShim), ("set", .text sdk.set),
    ("set_id", .text sdk.setId),
    ("remove_from_state", .text sdk.removeFromState),
    ("errwrap_wrapf", .text sdk.errwrapWrapf)]

def memberNames : List String :=
  ["entry_point", "root_types", "provider_type", "resource_type", "schema_type",
    "value_type", "resource_shim", "set", "set_id", "remove_from_state",
    "errwrap_wrapf"]

/-- Absent names are the usual ones; a member of another name is refused. -/
def decode? (document : Document) : Option Sdk := do
  let members ← document.members?
  guard (members.onlyNames memberNames)
  let name (member : String) (otherwise : String) :=
    members.defaulted member Document.text? otherwise
  return {
    entryPoint := ← name "entry_point" usual.entryPoint
    rootTypes :=
      ← members.defaulted "root_types" (Document.listOf? Document.text?)
        usual.rootTypes
    providerType := ← name "provider_type" usual.providerType
    resourceType := ← name "resource_type" usual.resourceType
    schemaType := ← name "schema_type" usual.schemaType
    valueType := ← name "value_type" usual.valueType
    resourceShim := ← name "resource_shim" usual.resourceShim
    set := ← name "set" usual.set
    setId := ← name "set_id" usual.setId
    removeFromState := ← name "remove_from_state" usual.removeFromState
    errwrapWrapf := ← name "errwrap_wrapf" usual.errwrapWrapf }

end Sdk

end SchemaLint
