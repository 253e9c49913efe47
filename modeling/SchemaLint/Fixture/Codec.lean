import SchemaLint.Document.Decode
import SchemaLint.Fixture.Basic
import SchemaLint.Provider.Codec

/-!
# Reading fixtures

Every member of a fixture may be absent, and none of another name is taken.
-/

namespace SchemaLint

namespace AttributeFixture

def memberNames : List String :=
  ["type", "type_const", "required", "optional", "computed", "negated",
    "description", "min_items", "max_items", "elem", "dynamic"]

def ofMembers? (members : Members) (elem : Option (ElemOf AttributeFixture)) :
    Option AttributeFixture := do
  guard (members.onlyNames memberNames)
  let flag (name : String) := members.defaulted name Document.bool? false
  return {
    type := ← members.optional "type" Document.text?
    typeConst := ← members.optional "type_const" Document.int64?
    required := ← flag "required"
    optional := ← flag "optional"
    computed := ← flag "computed"
    negated := ← flag "negated"
    description := ← members.optional "description" Document.text?
    minItems := ← members.optional "min_items" Document.int64?
    maxItems := ← members.optional "max_items" Document.int64?
    elem
    isDynamic := ← flag "dynamic" }

mutual

def decode? : Document → Option AttributeFixture
  | .record members => do ofMembers? members (← elemIn? members)
  | _ => none

def elemIn? : Members → Option (Option (ElemOf AttributeFixture))
  | [] => some none
  | ("elem", .scalar .null _) :: _ => some none
  | ("elem", .record members) :: _ => do
    guard (Members.onlyNames members ["schema", "resource"])
    return some ⟨← schemaIn? members, ← resourceIn? members⟩
  | ("elem", _) :: _ => none
  | _ :: rest => elemIn? rest

def schemaIn? : Members → Option (Option AttributeFixture)
  | [] => some none
  | ("schema", .scalar .null _) :: _ => some none
  | ("schema", document) :: _ => (decode? document).map some
  | _ :: rest => schemaIn? rest

def resourceIn? : Members → Option (Option AttributeFixtures)
  | [] => some none
  | ("resource", .scalar .null _) :: _ => some none
  | ("resource", .record members) :: _ => (decodeMembers? members).map some
  | ("resource", _) :: _ => none
  | _ :: rest => resourceIn? rest

def decodeMembers? : Members → Option AttributeFixtures
  | [] => some []
  | (name, document) :: rest =>
    do return (name, ← decode? document) :: (← decodeMembers? rest)

end

def decodeAll? (document : Document) : Option AttributeFixtures := do
  decodeMembers? (← document.members?)

end AttributeFixture

namespace SetFixture

def decode? (document : Document) : Option SetFixture := do
  let members ← document.members?
  guard (members.onlyNames ["name", "value", "dynamic_name", "extra_arg"])
  return {
    name := ← members.defaulted "name" Document.text? ""
    value := ← members.defaulted "value" Document.text? ""
    hasDynamicName := ← members.defaulted "dynamic_name" Document.bool? false
    hasExtraArg := ← members.defaulted "extra_arg" Document.bool? false }

end SetFixture

namespace FunctionFixture

def ofMembers? (members : Members) (helper : Option FunctionFixture) :
    Option FunctionFixture := do
  guard (members.onlyNames ["sdk", "sets", "calls", "call_slots", "helper"])
  return {
    sdk := ← members.optional "sdk" Document.text?
    sets := ← members.listOf "sets" SetFixture.decode?
    calls := ← members.listOf "calls" Document.text?
    callSlots := ← members.listOf "call_slots" LifecycleSlot.decode?
    helper }

mutual

def decode? : Document → Option FunctionFixture
  | .record members => do ofMembers? members (← helperIn? members)
  | _ => none

def helperIn? : Members → Option (Option FunctionFixture)
  | [] => some none
  | ("helper", .scalar .null _) :: _ => some none
  | ("helper", document) :: _ => (decode? document).map some
  | _ :: rest => helperIn? rest

end

end FunctionFixture

namespace ComponentFixture

def decode? (document : Document) : Option ComponentFixture := do
  let members ← document.members?
  guard (members.onlyNames
    ["doc", "shim", "schema", "create", "read", "update", "delete", "exists"])
  return {
    doc := ← members.optional "doc" Document.text?
    shim := ← members.defaulted "shim" Document.bool? false
    schema := ← members.optional "schema" AttributeFixture.decodeAll?
    create := ← members.optional "create" FunctionFixture.decode?
    read := ← members.optional "read" FunctionFixture.decode?
    update := ← members.optional "update" FunctionFixture.decode?
    delete := ← members.optional "delete" FunctionFixture.decode?
    existence := ← members.optional "exists" FunctionFixture.decode? }

end ComponentFixture

namespace ProviderFixture

def decode? (document : Document) : Option ProviderFixture := do
  let members ← document.members?
  guard
    (members.onlyNames ["package", "data_sources", "resources", "vendored_sdk"])
  let components (name : String) :=
    members.defaulted name (Document.mapOf? ComponentFixture.decode?) []
  return {
    package := ← members.optional "package" Document.text?
    dataSources := ← components "data_sources"
    resources := ← components "resources"
    isVendored := ← members.defaulted "vendored_sdk" Document.bool? false }

end ProviderFixture

end SchemaLint
