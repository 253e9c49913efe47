import SchemaLint.Provider.Name
import SchemaLint.Provider.Schema

/-!
# Recovering a provider

The entry point of a package allocates one provider struct and stores two maps
into it. Each entry of a map names a component and calls the function that
builds it; the fields of what that function returns are the component.
-/

namespace SchemaLint

structure Extraction where
  dataSources : List Component
  resources : List Component

def describe (doc : Option String) : String :=
  Text.trim ("\n".intercalate ((Text.lines (doc.getD "")).drop 1))

namespace Subject

/-- Local functions of the right name, without receiver, whose first result has
one of the right types. -/
def entryPoints (s : Subject) : Access (List FuncId) := do
  let candidates := s.package.localFunctions.filter fun (_, f) =>
    f.name == s.sdk.entryPoint && f.receiver.isNone
  let accepted ← candidates.filterM fun (id, _) => do
    match ← s.package.results id with
    | [] => return false
    | first :: _ => return s.sdk.rootTypes.contains (← s.package.typeName first)
  return accepted.map Prod.fst

def isComponentMap (field : String) : Bool :=
  field == "ResourcesMap" || field == "DataSourcesMap"

def mapBases (stores : List FieldStore) : List ValueId :=
  ((stores.filter fun store => isComponentMap store.field).map
    FieldStore.base).eraseDups

def providerStores (s : Subject) : Extract (List FieldStore) := do
  match ← s.entryPoints with
  | [] => Analysis.refuse (.noEntryPoint s.sdk.entryPoint .unknown)
  | entry :: others =>
    let pos := (← s.package.funcAt entry).pos
    let stores :=
      (← (entry :: others).mapM fun id =>
        s.package.reachedStores id s.sdk.providerType).flatten
    match mapBases stores with
    | [] => Analysis.refuse (.noEntryPoint s.sdk.entryPoint pos)
    | [base] => return stores.filter (·.base == base)
    | bases => Analysis.refuse (.ambiguousEntryPoint bases.length pos)

def boxedCall? (s : Subject) (value : ValueId) :
    Access (Option (FuncId × List ValueId)) := do
  match ← s.package.operationAt (← s.package.stripBoxing value) with
  | .call call =>
    return (← s.package.staticCallee? call).map
      fun callee => (callee, call.args)
  | _ => return none

def localCall? (s : Subject) (value : ValueId) : Access (Option FuncId) := do
  match ← s.boxedCall? value with
  | none => return none
  | some (callee, _) =>
    return if s.package.owns (← s.package.funcAt callee) then some callee
      else none

/-- The function that builds a component: called directly, or inside a call that
makes a data source of it. -/
def componentBuilder? (s : Subject) (value : ValueId) :
    Access (Option FuncId) := do
  match ← s.localCall? value with
  | some builder => return some builder
  | none =>
    match ← s.boxedCall? value with
    | none => return none
    | some (callee, args) =>
      if (← s.package.funcName callee) != s.sdk.resourceShim then return none
      match args[1]? with
      | none => return none
      | some inner => s.localCall? inner

def returnedAlloc? (s : Subject) (builder : FuncId) :
    Extract (Option ValueId) := do
  match ← s.package.returnValue? builder 0 with
  | none => return none
  | some value =>
    let root ← Analysis.root s.package value
    return if ← s.package.isAllocOf root s.sdk.resourceType then some root
      else none

/-- The stores into the resource that a builder returns. When it cannot be told
which one that is, all stores into resources count. -/
def resourceStores (s : Subject) (builder : FuncId) :
    Extract (List FieldStore) := do
  let stores ← s.package.reachedStores builder s.sdk.resourceType
  match ← s.returnedAlloc? builder with
  | some alloc => return stores.filter (·.base == alloc)
  | none =>
    Report.debug
      ((← s.package.funcName builder) ++
        ": returned resource not traceable, using any resource field store")
    return stores

def lifecycleFunction? (s : Subject) (stores : List FieldStore)
    (slot : LifecycleSlot) : Extract (Option FuncId) := do
  match firstStore? stores slot.fieldName with
  | none => return none
  | some store =>
    match ← s.package.operationAt (← Analysis.root s.package store.value) with
    | .function func => return some func
    | .const .nil => return none
    | _ => Analysis.refuse (.expectedFunction slot.fieldName store.pos)

def nameSuffix (s : Subject) (name : String) : String :=
  let start := (s.providerName ++ "_").toList
  if s.providerName != "" && start.isPrefixOf name.toList then
    String.ofList (name.toList.drop start.length)
  else name

/-- The attributes of a component from the stores into it. Without a schema it
is partial. -/
def componentAttributes (s : Subject) (name : String)
    (stores : List FieldStore) : Extract AttributeList := do
  match firstStore? stores "Schema" with
  | none =>
    Report.debug (name ++ ": no schema assigned")
    return .lost
  | some store =>
    Analysis.within (.context ("error with attributes for " ++ name) store.pos)
      (s.attributesWithin nestingLimit store.value)

def component (s : Subject) (name : String) (builder : FuncId) (pos : Pos) :
    Extract Component := do
  let stores ← s.resourceStores builder
  let doc := (← s.package.funcAt builder).doc
  let functions ← LifecycleSlot.all.mapM fun slot => do
    return (← s.lifecycleFunction? stores slot).map (slot, ·)
  let list ← s.componentAttributes name stores
  return {
    name, builder, pos
    nameSuffix := s.nameSuffix name
    description := describe doc
    declared := functions.filterMap id
    attributes := list.attributes
    isPartial := list.anyPartial }

def mapComponent (s : Subject) (field : String) (entry : MapEntry) :
    Extract Component := do
  match ← Analysis.constString? s.package entry.key with
  | none => Analysis.refuse (.malformed (field ++ " key") entry.pos)
  | some name =>
    match ← s.componentBuilder? entry.value with
    | none => Analysis.refuse (.malformed name entry.pos)
    | some builder =>
      Analysis.within (.context ("error loading " ++ name) entry.pos)
        (s.component name builder entry.pos)

def components (s : Subject) (stores : List FieldStore) (field : String) :
    Extract (List Component) := do
  match firstStore? stores field with
  | none =>
    Report.debug ("provider does not assign " ++ field)
    return []
  | some store =>
    let map ← Analysis.root s.package store.value
    if ← s.package.isMap map then
      (← s.package.mapEntries map).mapM (s.mapComponent field)
    else Analysis.refuse (.malformed field store.pos)

def extract (s : Subject) : Extract Extraction := do
  let stores ← s.providerStores
  return ⟨← s.components stores "DataSourcesMap",
    ← s.components stores "ResourcesMap"⟩

end Subject

def Provider.ofPackage (package : Package) (sdk : Sdk) : Extract Provider := do
  let name := (providerName? package.path).getD ""
  let extraction ← Subject.extract ⟨package, sdk, name⟩
  return ⟨name, package, extraction.dataSources, extraction.resources⟩

end SchemaLint
