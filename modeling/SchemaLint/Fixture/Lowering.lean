import SchemaLint.Diagnostics
import SchemaLint.Fixture.Basic
import SchemaLint.Fixture.ValueShape
import SchemaLint.Text.UpperCase

/-!
# Lowering fixtures

A fixture becomes a package: one function for each lifecycle function, one that
builds each component, and the entry point that puts the components into the
provider's maps. What is written in one file gets rising lines.
-/

namespace SchemaLint

structure Lines where
  file : String
  next : Nat := 1
deriving DecidableEq, Repr

/-- Lowering inside a function body. What was built before an error stays
built. -/
abbrev Lower := ExceptT FixtureError (StateT Lines Body)

abbrev LowerPackage := ExceptT FixtureError (StateT Lines Build)

def nextPos [Monad m] [MonadLiftT Build m] :
    ExceptT FixtureError (StateT Lines m) Pos := do
  let lines ← getThe Lines
  set { lines with next := lines.next + 1 }
  Build.pos lines.file lines.next 2

def nextLine : Lower Unit := do Body.moveTo (← nextPos)

def lowerBody (func : FuncId) (work : Lower α) : LowerPackage α :=
  ExceptT.mk fun lines => Build.body func (work.run.run lines)

def Lower.ofExcept : Except FixtureError α → Lower α
  | .ok a => return a
  | .error error => throw error

def Lower.ofOption (error : FixtureError) : Option α → Lower α
  | some a => return a
  | none => throw error

/-! ## Attributes -/

def typeCode (name : String) : Except FixtureError Int :=
  match (AttributeType.all.drop 1).find? (·.name == name) with
  | some type => .ok type.code
  | none => .error (.unknownType name)

namespace AttributeFixture

/-- The constant to write for the type, if one is to be written. -/
def code? (attr : AttributeFixture) : Except FixtureError (Option Int) :=
  match attr.typeConst, attr.type with
  | some code, _ => .ok (some code)
  | none, some name => (typeCode name).map some
  | none, none => .ok none

def flags (attr : AttributeFixture) : List String :=
  (if attr.required then ["Required"] else []) ++
    (if attr.optional then ["Optional"] else []) ++
    (if attr.computed then ["Computed"] else [])

def bounds (attr : AttributeFixture) : List (String × Int) :=
  attr.minItems.toList.map (("MinItems", ·)) ++
    attr.maxItems.toList.map (("MaxItems", ·))

def flagValue (negated : Bool) : Body ValueId := do
  if negated then Body.unary .not (← Build.constBool false)
  else Build.constBool true

def storeType (plugin : Plugin) (schema : ValueId) (attr : AttributeFixture) :
    Lower Unit := do
  match ← Lower.ofExcept attr.code? with
  | none => return
  | some code =>
    let value ← Build.constInt code plugin.valueType
    nextLine
    discard (Body.storeField schema "Type" value)

def storePlain (plugin : Plugin) (schema : ValueId) (attr : AttributeFixture) :
    Body Unit := do
  attr.flags.forM fun flag =>
    do discard (Body.storeField schema flag (← flagValue attr.negated))
  attr.description.forM fun text =>
    do discard (Body.storeField schema "Description" (← Build.constString text))
  attr.bounds.forM fun (name, bound) => do
    discard (Body.storeField schema name (← Build.constInt bound plugin.int))

def dynamicSchema (plugin : Plugin) : Body ValueId := do
  Body.deref (← Build.global "dynamicSchema" (← Build.pointer plugin.schema))

mutual

def lower (plugin : Plugin) (attr : AttributeFixture) : Lower ValueId := do
  if attr.isDynamic then dynamicSchema plugin
  else
    let schema ← Body.newValue plugin.schema
    storeType plugin schema attr
    storePlain plugin schema attr
    match attr with
    | { elem := none, .. } => return schema
    | { elem := some ⟨some inner, none⟩, .. } =>
      let elem ← lower plugin inner
      discard (Body.storeField schema "Elem" (← Body.boxAny elem))
      return schema
    | { elem := some ⟨none, some attributes⟩, .. } =>
      let resource ← Body.newValue plugin.resource
      let map ← Body.makeMap plugin.schemaMap
      lowerEntries plugin map attributes
      discard (Body.storeField resource "Schema" map)
      discard (Body.storeField schema "Elem" (← Body.boxAny resource))
      return schema
    | { elem := some _, .. } => throw .elemChoice

def lowerEntries (plugin : Plugin) (map : ValueId) :
    AttributeFixtures → Lower Unit
  | [] => return
  | (name, attr) :: rest => do
    let value ← lower plugin attr
    let pos ← nextPos
    let key ← Build.constString name
    Body.moveTo pos
    Body.mapUpdate map key value
    lowerEntries plugin map rest

end

def lowerAll (plugin : Plugin) (attributes : AttributeFixtures) :
    Lower ValueId := do
  let map ← Body.makeMap plugin.schemaMap
  lowerEntries plugin map attributes
  return map

end AttributeFixture

/-! ## Functions -/

def setValue (plugin : Plugin) (shape : String) : Lower ValueId := do
  let stringPtr ← Build.pointer plugin.string
  match ValueShape.ofName? shape with
  | some shape => shape.make plugin plugin.string stringPtr
  | none => throw (.unknownShape shape)

def SetFixture.lower (plugin : Plugin) (data : ValueId) (fixture : SetFixture) :
    Lower Unit := do
  let boxed ← Body.boxAny (← setValue plugin fixture.value)
  let name ←
    if fixture.hasDynamicName then
      do Body.deref (← Build.global "attributeName" plugin.string)
    else Build.constString fixture.name
  nextLine
  discard (Body.call plugin.set
    ([data, name, boxed] ++ if fixture.hasExtraArg then [boxed] else []))

/-- Calls a function of the plugin library by the name it has in fixtures. -/
def lowerCall (plugin : Plugin) (data context : ValueId) (name : String) :
    Lower Unit := do
  nextLine
  match name with
  | "set_id" => discard (Body.call plugin.setId [data, ← Build.constString ""])
  | "errwrap_wrapf" =>
    let format ← Build.constString "failed: \x7b\x7berr\x7d\x7d"
    discard (Body.call plugin.errwrapWrapf [format, ← Build.nil plugin.error])
  | "remove_from_state" =>
    discard (Body.call plugin.removeFromState [data, context])
  | _ => throw (.unknownCall name)

abbrev Slots := List (LifecycleSlot × FuncId)

def lowerLocalCall (data context : ValueId) (callee : FuncId) : Lower Unit := do
  nextLine
  discard (Body.call callee [data, context])

def lowerStatements (plugin : Plugin) (slots : Slots)
    (fixture : FunctionFixture) (helper : Option FuncId) : Lower Unit := do
  let data ← Lower.ofOption .missingData (← Body.param? 0)
  let context ← Lower.ofOption .missingMeta (← Body.param? 1)
  fixture.sets.forM (SetFixture.lower plugin data)
  fixture.calls.forM (lowerCall plugin data context)
  fixture.callSlots.forM fun slot => do
    lowerLocalCall data context
      (← Lower.ofOption (.missingSlot slot) (slots.lookup slot))
  helper.forM (lowerLocalCall data context)
  Body.ret [← Build.nil plugin.error]

def FunctionFixture.lower (plugin : Plugin) (slots : Slots) (func : FuncId) :
    FunctionFixture → LowerPackage Unit
  | fixture@{ helper := none, .. } =>
    lowerBody func (lowerStatements plugin slots fixture none)
  | fixture@{ helper := some inner, .. } => do
    let params ← plugin.crudParams
    let name := (← Build.ask (·.funcAt func)).name ++ "Helper"
    let helper ← Build.declare name params [plugin.error]
    inner.lower plugin slots helper
    lowerBody func (lowerStatements plugin slots fixture (some helper))

/-! ## Components -/

/-- The function of a slot: a new one, or one of the plugin library. -/
def declareSlot (plugin : Plugin) (stem : String) (slot : LifecycleSlot)
    (fixture : FunctionFixture) : LowerPackage FuncId := do
  match fixture.sdk with
  | some "remove_from_state" => return plugin.removeFromState
  | some other => throw (.unknownFunction other)
  | none =>
    Build.declare (stem ++ slot.fieldName) (← plugin.crudParams) [plugin.error]

namespace ComponentFixture

def bodies (fixture : ComponentFixture) :
    List (LifecycleSlot × FunctionFixture) :=
  LifecycleSlot.all.filterMap fun slot => (fixture.slot slot).map (slot, ·)

def declareSlots (plugin : Plugin) (stem : String)
    (fixture : ComponentFixture) : LowerPackage Slots :=
  fixture.bodies.mapM fun (slot, body) =>
    do return (slot, ← declareSlot plugin stem slot body)

def fillSlots (plugin : Plugin) (slots : Slots) (fixture : ComponentFixture) :
    LowerPackage Unit :=
  slots.forM fun (slot, func) =>
    match fixture.slot slot with
    | some body =>
      if body.sdk.isNone then body.lower plugin slots func else return
    | none => return

def lowerBuilder (plugin : Plugin) (slots : Slots)
    (fixture : ComponentFixture) : Lower Unit := do
  let resource ← Body.newValue plugin.resource
  slots.forM fun (slot, func) => do
    discard (Body.storeField resource slot.fieldName (← Build.funcRef func))
  fixture.schema.forM fun attributes => do
    let map ← AttributeFixture.lowerAll plugin attributes
    nextLine
    discard (Body.storeField resource "Schema" map)
  Body.ret [resource]

/-- Lowers a component to the function that builds it, whose name is `stem`. -/
def lower (plugin : Plugin) (stem : String) (fixture : ComponentFixture) :
    LowerPackage FuncId := do
  let slots ← fixture.declareSlots plugin stem
  fixture.fillSlots plugin slots
  let builder ← Build.declare stem [] [← Build.pointer plugin.resource]
  Build.setFuncPos builder (← nextPos)
  fixture.doc.forM (Build.setDoc builder ·)
  lowerBody builder (fixture.lowerBuilder plugin slots)
  return builder

end ComponentFixture

/-! ## Providers -/

def camelFrom : Bool → List Char → List Char
  | _, [] => []
  | upper, c :: rest =>
    if c = '_' ∨ c = '-' then camelFrom true rest
    else (if upper then Text.upperCase c else [c]) ++ camelFrom false rest

def camel (name : String) : String :=
  String.ofList (camelFrom false name.toList)

structure Lowered where
  name : String
  shim : Bool
  builder : FuncId
deriving DecidableEq, Repr

def inFile (file : String) (work : LowerPackage α) :
    ExceptT FixtureError Build α :=
  ExceptT.mk (work.run.run' ⟨file, 1⟩)

def lowerComponents (plugin : Plugin) (kind : String)
    (components : List (String × ComponentFixture)) :
    ExceptT FixtureError Build (List Lowered) :=
  components.mapM fun (name, fixture) => do
    let title := kind ++ "_" ++ name
    return ⟨name, fixture.shim,
      ← inFile (title ++ ".go") (fixture.lower plugin (camel title))⟩

def lowerEntry (plugin : Plugin) (map : ValueId) (component : Lowered) :
    Lower Unit := do
  nextLine
  let made ← Body.call component.builder []
  let value ←
    if component.shim then
      do Body.call plugin.resourceShim [← Build.constString component.name,
        made]
    else pure made
  Body.mapUpdate map (← Build.constString component.name) value

def lowerMap (plugin : Plugin) (provider : ValueId) (field : String)
    (components : List Lowered) : Lower Unit := do
  let map ← Body.makeMap plugin.resourceMap
  components.forM (lowerEntry plugin map)
  discard (Body.storeField provider field map)

def lowerEntryPoint (plugin : Plugin) (dataSources resources : List Lowered) :
    LowerPackage Unit := do
  let entry ← Build.declare "Provider" [] [plugin.resourceProvider]
  Build.setFuncPos entry (← nextPos)
  lowerBody entry do
    let provider ← Body.newValue plugin.provider
    lowerMap plugin provider "DataSourcesMap" dataSources
    lowerMap plugin provider "ResourcesMap" resources
    Body.ret [← Body.makeInterface provider plugin.resourceProvider]

def vendoredRemoval (plugin : Plugin) : ExceptT FixtureError Body Unit := do
  match ← Body.param? 0 with
  | none => throw .missingData
  | some data =>
    discard (Body.call plugin.setId [data, ← Build.constString ""])
    Body.ret [← Build.nil plugin.error]

namespace ProviderFixture

def lower (fixture : ProviderFixture) : ExceptT FixtureError Build Unit := do
  let plugin ← Plugin.declare
  if fixture.isVendored then
    ExceptT.mk (Build.body plugin.removeFromState (vendoredRemoval plugin).run)
  let dataSources ← lowerComponents plugin "data_source" fixture.dataSources
  let resources ← lowerComponents plugin "resource" fixture.resources
  inFile "provider.go" (lowerEntryPoint plugin dataSources resources)

def build (fixture : ProviderFixture) : Except (Failure FixtureError) Package :=
  match fixture.lower.run (Builder.new fixture.path) with
  | .error fault => .error (.outside fault)
  | .ok (.error error, _) => .error (.cause error)
  | .ok (.ok (), builder) =>
    match builder.package.validate with
    | .error error => .error (.cause (.invalid error))
    | .ok () => .ok builder.package

end ProviderFixture

end SchemaLint
