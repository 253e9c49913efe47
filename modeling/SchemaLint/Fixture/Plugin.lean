import SchemaLint.Build.Body

/-!
# Declarations of the plugin library

The types and functions of the plugin library that providers refer to.
-/

namespace SchemaLint

def schemaPackage : String := "github.com/hashicorp/terraform/helper/schema"
def terraformPackage : String := "github.com/hashicorp/terraform/terraform"
def errwrapPackage : String := "github.com/hashicorp/errwrap"

structure Plugin where
  string : TypeId
  bool : TypeId
  int : TypeId
  any : TypeId
  error : TypeId
  valueType : TypeId
  schema : TypeId
  resource : TypeId
  provider : TypeId
  resourceProvider : TypeId
  resourceData : TypeId
  schemaMap : TypeId
  resourceMap : TypeId
  set : FuncId
  setId : FuncId
  removeFromState : FuncId
  resourceShim : FuncId
  errwrapWrapf : FuncId
deriving DecidableEq, Repr

namespace Plugin

def declare : Build Plugin := do
  let string ← Build.basic .string
  let bool ← Build.basic .bool
  let int ← Build.basic .int
  let any ← Build.emptyInterface
  let error ← Build.errorType
  let valueType ← Build.named schemaPackage "ValueType" int
  let schema ← Build.declareNamed schemaPackage "Schema"
  let resource ← Build.declareNamed schemaPackage "Resource"
  let provider ← Build.declareNamed schemaPackage "Provider"
  let resourceData ← Build.declareNamed schemaPackage "ResourceData"
  Build.setUnderlying resourceData (← Build.structType [("id", string)])
  let schemaPtr ← Build.pointer schema
  let resourcePtr ← Build.pointer resource
  let dataPtr ← Build.pointer resourceData
  let schemaMap ← Build.map string schemaPtr
  let resourceMap ← Build.map string resourcePtr
  let schemaStruct ← Build.structType
    [("Type", valueType), ("Optional", bool), ("Required", bool),
      ("Computed", bool), ("Description", string), ("Elem", any),
      ("MinItems", int), ("MaxItems", int)]
  Build.setUnderlying schema schemaStruct
  let crud ← Build.signature [dataPtr, any] [error]
  let existence ← Build.signature [dataPtr, any] [bool, error]
  let resourceStruct ← Build.structType
    [("Schema", schemaMap), ("Create", crud), ("Read", crud), ("Update", crud),
      ("Delete", crud), ("Exists", existence)]
  Build.setUnderlying resource resourceStruct
  let providerStruct ← Build.structType
    [("Schema", schemaMap), ("ResourcesMap", resourceMap),
      ("DataSourcesMap", resourceMap)]
  Build.setUnderlying provider providerStruct
  let providerInterface ← Build.interface ["Resources() []ResourceType"]
  let resourceProvider ←
    Build.named terraformPackage "ResourceProvider" providerInterface
  let set ←
    Build.externalFunction schemaPackage "Set" dataPtr [string, any] [error]
  let setId ← Build.externalFunction schemaPackage "SetId" dataPtr [string] []
  let removeFromState ←
    Build.externalFunction schemaPackage "RemoveFromState" none [dataPtr, any]
      [error]
  let resourceShim ←
    Build.externalFunction schemaPackage "DataSourceResourceShim" none
      [string, resourcePtr] [resourcePtr]
  let errwrapWrapf ←
    Build.externalFunction errwrapPackage "Wrapf" none [string, error] [error]
  return { string, bool, int, any, error, valueType, schema, resource, provider,
           resourceProvider, resourceData
           schemaMap, resourceMap, set, setId, removeFromState, resourceShim,
           errwrapWrapf }

def crudParams (plugin : Plugin) : Build (List (String × TypeId)) := do
  return [("d", ← Build.pointer plugin.resourceData), ("meta", plugin.any)]

def types (plugin : Plugin) : List (String × TypeId) :=
  [("string", plugin.string), ("bool", plugin.bool), ("int", plugin.int),
    ("any", plugin.any), ("error", plugin.error),
    ("value_type", plugin.valueType), ("schema", plugin.schema),
    ("resource", plugin.resource), ("provider", plugin.provider),
    ("resource_provider", plugin.resourceProvider),
    ("resource_data", plugin.resourceData), ("schema_map", plugin.schemaMap),
    ("resource_map", plugin.resourceMap)]

def functions (plugin : Plugin) : List (String × FuncId) :=
  [("set", plugin.set), ("set_id", plugin.setId),
    ("remove_from_state", plugin.removeFromState),
    ("resource_shim", plugin.resourceShim),
    ("errwrap_wrapf", plugin.errwrapWrapf)]

end Plugin

end SchemaLint
