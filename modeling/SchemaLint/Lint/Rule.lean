import SchemaLint.Lint.CallBlacklist
import SchemaLint.Text.Quoted

/-!
# Rules

A rule checks one component. Three of them look at the calls that set
attributes, one at the attribute names, and call blacklists at all calls.
-/

namespace SchemaLint

inductive Rule
  | callBlacklist (blacklist : CallBlacklist)
  /-- Attributes that are set must be in the schema. -/
  | attributeExists
  /-- Values set on scalar attributes must have a fitting type. -/
  | attributeTypes
  /-- Values that are set must not be read through a pointer. -/
  | noDereference
  /-- Attributes must not be called like the arguments that every component
  has. -/
  | reservedNames
deriving DecidableEq, Repr

/-! ## Set calls -/

def checkExists (component : Component) (call : SetCall) : Option Issue :=
  match component.attribute? call.name with
  | some _ => none
  | none =>
    some (.new call.pos ("attribute " ++ Text.quoted call.name ++
      " was not read from the schema"))

def AttributeType.accepted : AttributeType → List BasicKind
  | bool => [.bool]
  | int => [.int, .int8, .int16, .int32, .int64]
  | float => [.float32, .float64]
  | string => [.string]
  | _ => []

namespace Package

/-- The value behind boxing, for a chain that ends within the given steps. -/
def unboxInterfaceWithin (p : Package) : Nat → ValueId → Access ValueId
  | 0, value => .ok value
  | steps + 1, value => do
    match ← p.operationAt value with
    | .makeInterface x => p.unboxInterfaceWithin steps x
    | _ => return value

def unboxInterface (p : Package) (value : ValueId) : Access ValueId :=
  p.unboxInterfaceWithin (p.values.size + 1) value

end Package

namespace RuleContext

/-- Whether the value of a set call fits a scalar attribute, looking through
boxing, one pointer and named types. -/
def isCompatible (ctx : RuleContext) (type : AttributeType) (value : ValueId) :
    Access Bool := do
  let valueType ← ctx.package.typeOf (← ctx.package.unboxInterface value)
  match ← ctx.package.structureOf (← ctx.package.derefType valueType) with
  | .basic kind => return type.accepted.contains kind
  | _ => return false

def checkTypes (ctx : RuleContext) (component : Component) (call : SetCall) :
    Check (Option Issue) := do
  match component.attribute? call.name with
  | none => return none
  | some attr =>
    if attr.type.isScalar then
      if ← ctx.isCompatible attr.type call.value then return none
      return some (.new call.pos
        ("attribute " ++ Text.quoted attr.name ++
          " expects a Set value compatible with " ++ attr.type.constantName))
    else
      Report.log .trace
        ("attribute " ++ Text.quoted attr.name ++ ": " ++ attr.type.name ++
          " values are not type checked")
      return none

/-- Whether a value is read through a pointer that is neither a field's nor an
element's address. -/
def isDereference (ctx : RuleContext) (value : ValueId) : Access Bool := do
  match ← ctx.package.operationAt value with
  | .unary .deref x =>
    if ← ctx.package.isElementAddr x then return false
    return (← ctx.package.pointerDepth (← ctx.package.typeOf x)) != 0
  | _ => return false

def checkDereference (ctx : RuleContext) (call : SetCall) :
    Check (Option Issue) := do
  let trace ← Analysis.trace ctx.package call.value
  if ← ctx.isDereference (← trace.outermost ctx.package) then
    return some (.new call.pos
      ("do not dereference value for attribute " ++ Text.quoted call.name ++
        " when calling Set"))
  return none

end RuleContext

/-! ## Reserved names -/

def dataSourceReserved : List String :=
  ["connection", "count", "depends_on", "lifecycle", "provider", "provisioner"]

def resourceReserved : List String :=
  ["connection", "count", "depends_on", "id", "lifecycle", "provider",
    "provisioner"]

def reservedNames (readOnly : Bool) : List String :=
  if readOnly then dataSourceReserved else resourceReserved

def checkReserved (readOnly : Bool) (component : Component) : List Issue :=
  (component.attributes.filter fun attr =>
      (reservedNames readOnly).contains attr.name).map
      fun attr =>
    .new attr.pos (Text.quoted attr.name ++ " is a reserved attribute name")

/-! ## Checking a component -/

namespace Rule

def check (rule : Rule) (ctx : RuleContext) (readOnly : Bool)
    (component : Component) : Check (List Issue) := do
  match rule with
  | callBlacklist blacklist => blacklist.check ctx component
  | attributeExists =>
    return (← ctx.setCalls component).filterMap (checkExists component)
  | attributeTypes =>
    (← ctx.setCalls component).filterMapM (ctx.checkTypes component)
  | noDereference => (← ctx.setCalls component).filterMapM ctx.checkDereference
  | reservedNames => return checkReserved readOnly component

def noSetIdInDelete (sdk : Sdk) : Rule :=
  .callBlacklist ((CallBlacklist.mk "DeleteFunc should not call \x7b\x7d"
    []).deny .delete sdk.setId)

def noErrwrapWrapf (sdk : Sdk) : Rule :=
  .callBlacklist <|
    LifecycleSlot.all.foldl
      (fun blacklist slot => blacklist.deny slot sdk.errwrapWrapf)
      ⟨"Resource functions should call fmt.Errorf instead of \x7b\x7d", []⟩

def encode : Rule → Document
  | callBlacklist blacklist =>
    .record [("kind", .text "call_blacklist"),
      ("message", .text blacklist.message), ("slots", blacklist.encodeSlots)]
  | attributeExists => .record [("kind", .text "attribute_exists")]
  | attributeTypes => .record [("kind", .text "attribute_types")]
  | noDereference => .record [("kind", .text "no_dereference")]
  | reservedNames => .record [("kind", .text "reserved_names")]

def decode? (document : Document) : Option Rule := do
  let members ← document.members?
  match ← members.required "kind" Document.text? with
  | "call_blacklist" =>
    let slots ← members.defaulted "slots" CallBlacklist.decodeSlots? []
    return .callBlacklist ⟨← members.required "message" Document.text?, slots⟩
  | "attribute_exists" => return .attributeExists
  | "attribute_types" => return .attributeTypes
  | "no_dereference" => return .noDereference
  | "reserved_names" => return .reservedNames
  | _ => none

end Rule

end SchemaLint
