import SchemaLint.Proofs.Build.Growth
import SchemaLint.Proofs.Queries.Types
import SchemaLint.Provider.Sdk

/-!
# The plugin library in built packages

Declaring the plugin library looks at no package path, so it has the same types
and functions in every package. What extraction recognises them by stays true
however much is built after.
-/

namespace SchemaLint

abbrev libraryName (name : String) : String := qualified schemaPackage name

namespace Sdk

theorem usual_schemaType : usual.schemaType = libraryName "Schema" := by decide
theorem usual_resourceType : usual.resourceType = libraryName "Resource" := by
  decide
theorem usual_providerType : usual.providerType = libraryName "Provider" := by
  decide
theorem usual_valueType : usual.valueType = libraryName "ValueType" := by decide

end Sdk

/-! ## Struct types -/

namespace Package

variable {p : Package}

/-- The type is declared by this name in the plugin library, as a struct with
these fields. -/
def HasStruct (p : Package) (id : TypeId) (name : String)
    (fields : List String) : Prop :=
  ∃ underlying list, p.typeAt id = .ok (.named schemaPackage name underlying) ∧
    p.typeAt underlying = .ok (.struct list) ∧ list.map Field.name = fields

theorem typeName_named {id underlying : TypeId} {package : Option String}
    {name : String}
    (hfound : p.typeAt id = .ok (.named package name underlying)) :
    p.typeName id = .ok (qualified package name) := by
  simp [typeName, typeNameWithin, hfound]

theorem structureOf_named {id underlying : TypeId} {package : Option String}
    {name : String} {type : Ty}
    (hfound : p.typeAt id = .ok (.named package name underlying))
    (hinside : p.typeAt underlying = .ok type) (hplain : type.isNamed = false) :
    p.structureOf id = .ok type := by
  obtain ⟨steps, hsize⟩ :=
    Nat.exists_eq_succ_of_ne_zero
      (Nat.ne_of_gt (Nat.zero_lt_of_lt (typeAt_bound hfound)))
  simp [structureOf, Package.underlying, hsize, underlyingWithin, hfound,
    underlyingWithin_of_not_named hinside hplain, hinside]

theorem typeAt_of_underlyingWithin {steps : Nat} {id : TypeId} {type : Ty}
    (hfound : p.underlyingWithin steps id >>= p.typeAt = .ok type) :
    ∃ type', p.typeAt id = .ok type' := by
  cases steps with
  | zero => exact ⟨type, hfound⟩
  | succ steps =>
      cases hknown : p.typeAt id with
      | ok type' => exact ⟨type', rfl⟩
      | error fault => simp [underlyingWithin, hknown] at hfound

theorem typeAt_of_structureOf {id : TypeId} {type : Ty}
    (hfound : p.structureOf id = .ok type) : ∃ type', p.typeAt id = .ok type' :=
  typeAt_of_underlyingWithin hfound

private theorem typeAt_of_structureOf_named {id underlying : TypeId}
    {package : Option String} {name : String} {type : Ty}
    (hknown : p.typeAt id = .ok (.named package name underlying))
    (hfound : p.structureOf id = .ok type) :
    ∃ type', p.typeAt underlying = .ok type' := by
  obtain ⟨steps, hsize⟩ :=
    Nat.exists_eq_succ_of_ne_zero
      (Nat.ne_of_gt (Nat.zero_lt_of_lt (typeAt_bound hknown)))
  simp only [structureOf, Package.underlying, hsize, underlyingWithin, hknown,
    Access.ok_bind] at hfound
  exact typeAt_of_underlyingWithin hfound

namespace HasStruct

variable {type elem : TypeId} {name : String} {fields : List String}

theorem structureOf (hhas : p.HasStruct elem name fields) :
    ∃ list, p.structureOf elem = .ok (.struct list) ∧
      list.map Field.name = fields := by
  obtain ⟨underlying, list, hfound, hinside, hsame⟩ := hhas
  exact ⟨list, structureOf_named hfound hinside rfl, hsame⟩

theorem fields_pointer (hhas : p.HasStruct elem name fields)
    (hpoints : p.typeAt type = .ok (.pointer elem)) :
    ∃ list, p.fields type = .ok list ∧ list.map Field.name = fields := by
  obtain ⟨list, hfound, hsame⟩ := hhas.structureOf
  refine ⟨list, ?_, hsame⟩
  simp [Package.fields, derefType, structureOf_of_not_named hpoints rfl, hfound]

theorem isType_pointer (hhas : p.HasStruct elem name fields)
    (hpoints : p.typeAt type = .ok (.pointer elem)) (text : String) :
    p.isType type text = .ok (libraryName name == text) := by
  obtain ⟨underlying, list, hfound, -, -⟩ := hhas
  simp [isType, derefType, structureOf_of_not_named hpoints rfl,
    typeName_named hfound]

end HasStruct

end Package

theorem Builder.Before.fields_eq {b e : Builder} (hbefore : b.Before e)
    (hsound : e.Sound) {type elem : TypeId} {name : String}
    {fields : List String}
    (hpoints : e.package.typeAt type = .ok (.pointer elem))
    (hhas : e.package.HasStruct elem name fields) (hsettled : name ≠ "MyString")
    {list : List Field} (hfound : b.package.fields type = .ok list) :
    list.map Field.name = fields := by
  obtain ⟨underlying, last, hnamed, hinside, rfl⟩ := hhas
  obtain ⟨target, hpointed, hfound⟩ := Access.bind_eq_ok_iff.1 hfound
  obtain ⟨shape, hshaped, hpointed⟩ := Access.bind_eq_ok_iff.1 hpointed
  obtain ⟨first, hknown⟩ := Package.typeAt_of_structureOf hshaped
  obtain rfl := hbefore.typeAt_eq hsound hknown hpoints nofun
  cases hshaped.symm.trans (Package.structureOf_of_not_named hknown rfl)
  cases hpointed
  obtain ⟨shape, hshaped, hfound⟩ := Access.bind_eq_ok_iff.1 hfound
  obtain ⟨second, hknown⟩ := Package.typeAt_of_structureOf hshaped
  obtain rfl :=
    hbefore.typeAt_eq hsound hknown hnamed
      (by rintro _ _ ⟨⟩; exact hsettled rfl)
  obtain ⟨third, hbehind⟩ := Package.typeAt_of_structureOf_named hknown hshaped
  obtain rfl := hbefore.typeAt_eq hsound hbehind hinside nofun
  cases hshaped.symm.trans (Package.structureOf_named hknown hbehind rfl)
  cases hfound
  rfl

/-! ## Declarations do not look at the path -/

def Builder.moved (path : String) (b : Builder) : Builder :=
  { b with package := { b.package with path } }

def Blind (x : Build α) : Prop :=
  ∀ path b, x (b.moved path) = (x b).map fun (a, b') => (a, b'.moved path)

namespace Blind

theorem pure (a : α) : Blind (Pure.pure a : Build α) :=
  fun _ _ => rfl

theorem bind {x : Build α} {f : α → Build β} (hfirst : Blind x)
    (hnext : ∀ a, Blind (f a)) : Blind (x >>= f) := by
  intro path b
  simp only [Bind.bind, StateT.bind, hfirst path b]
  cases x b with
  | error fault => rfl
  | ok result => exact hnext result.1 path result.2

theorem edit {change : Builder → α × Builder}
    (hsame : ∀ path b, change (b.moved path) =
        ((change b).1, (change b).2.moved path)) : Blind (Build.edit change) :=
  fun path b => congrArg Except.ok (hsame path b)

theorem reading {f : Builder → Build α}
    (hsame : ∀ path b, f (b.moved path) = f b) (hnext : ∀ b, Blind (f b)) :
    Blind (get >>= f) := by
  intro path b
  have hran (b : Builder) : (get >>= f : Build α) b = f b b := rfl
  rw [hran, hran, hsame, hnext b path b]

theorem intern (type : Ty) : Blind (Build.intern type) := by
  refine reading (fun _ _ => rfl) fun b => ?_
  split
  · exact .pure _
  · exact .bind (edit fun _ _ => rfl) fun _ =>
      .bind (edit fun _ _ => rfl) fun _ => .pure _

theorem declareNamed (package : Option String) (name : String) :
    Blind (Build.declareNamed package name) := by
  refine reading (fun _ _ => rfl) fun b => ?_
  split
  · exact .pure _
  · refine .bind (intern _) fun _ => .bind (edit fun _ _ => rfl) fun _ => ?_
    exact .bind (edit fun _ _ => rfl) fun _ => .pure _

theorem setUnderlying (named underlying : TypeId) :
    Blind (Build.setUnderlying named underlying) :=
  edit fun _ _ => rfl

theorem named (package name : String) (underlying : TypeId) :
    Blind (Build.named package name underlying) :=
  .bind (declareNamed _ _) fun _ => .bind (setUnderlying _ _) fun _ => .pure _

theorem errorType : Blind Build.errorType :=
  .bind (intern _) fun _ =>
    .bind (declareNamed _ _) fun _ => .bind (setUnderlying _ _) fun _ => .pure _

theorem pushValue (value : Value) : Blind (Build.pushValue value) :=
  edit fun _ _ => rfl

theorem parameters (func : FuncId) (index : Nat)
    (params : List (String × TypeId)) :
    Blind (Build.parameters func index params) := by
  induction params generalizing index with
  | nil => exact .pure _
  | cons param rest ih =>
      exact .bind (pushValue _) fun _ => .bind (ih (index + 1)) fun _ => .pure _

theorem externalFunction (package name : String) (receiver : Option TypeId)
    (params results : List TypeId) :
    Blind (Build.externalFunction package name receiver params results) := by
  refine .bind (intern _) fun _ => reading (fun _ _ => rfl) fun b => ?_
  exact .bind (parameters _ _ _) fun _ =>
    .bind (edit fun _ _ => rfl) fun _ => .pure _

end Blind

private theorem Plugin.declare_blind : Blind Plugin.declare := by
  refine .bind (.intern _) fun _ =>
    .bind (.intern _) fun _ =>
      .bind (.intern _) fun _ => .bind (.intern _) fun _ => ?_
  refine .bind .errorType fun _ => .bind (.named _ _ _) fun _ => ?_
  refine .bind (.declareNamed _ _) fun _ =>
    .bind (.declareNamed _ _) fun _ => ?_
  refine .bind (.declareNamed _ _) fun _ =>
    .bind (.declareNamed _ _) fun _ => ?_
  refine .bind (.intern _) fun _ => .bind (.setUnderlying _ _) fun _ => ?_
  refine .bind (.intern _) fun _ =>
    .bind (.intern _) fun _ => .bind (.intern _) fun _ => ?_
  refine .bind (.intern _) fun _ => .bind (.intern _) fun _ => ?_
  refine .bind (.intern _) fun _ => .bind (.setUnderlying _ _) fun _ => ?_
  refine .bind (.intern _) fun _ => .bind (.intern _) fun _ => ?_
  refine .bind (.intern _) fun _ => .bind (.setUnderlying _ _) fun _ => ?_
  refine .bind (.intern _) fun _ => .bind (.setUnderlying _ _) fun _ => ?_
  refine .bind (.intern _) fun _ => .bind (.named _ _ _) fun _ => ?_
  refine .bind (.externalFunction _ _ _ _ _) fun _ =>
    .bind (.externalFunction _ _ _ _ _) fun _ => ?_
  refine .bind (.externalFunction _ _ _ _ _) fun _ =>
    .bind (.externalFunction _ _ _ _ _) fun _ => ?_
  exact .bind (.externalFunction _ _ _ _ _) fun _ => .pure _

/-! ## What is known of the library -/

namespace Package

def declaredName? (p : Package) (id : TypeId) :
    Option (Option String × String) :=
  match p.types[id.index]? with
  | some (.named package name _) => some (package, name)
  | _ => none

def structFields? (p : Package) (id : TypeId) : Option (List String) :=
  match p.types[id.index]? with
  | some (.named _ _ underlying) =>
    match p.types[underlying.index]? with
    | some (.struct fields) => some (fields.map Field.name)
    | _ => none
  | _ => none

theorem named_of_declaredName? {p : Package} {id : TypeId}
    {package : Option String} {name : String}
    (hknown : p.declaredName? id = some (package, name)) :
    ∃ underlying, p.typeAt id = .ok (.named package name underlying) := by
  unfold declaredName? at hknown
  split at hknown
  · next package' name' underlying hfound =>
      cases hknown
      exact ⟨underlying, typeAt_eq_ok_iff.2 hfound⟩
  · cases hknown

private theorem hasStruct_of_structFields? {p : Package} {id : TypeId}
    {name : String} {fields : List String}
    (hknown : p.declaredName? id = some (some schemaPackage, name))
    (hlisted : p.structFields? id = some fields) :
    p.HasStruct id name fields := by
  obtain ⟨underlying, hfound⟩ := named_of_declaredName? hknown
  simp only [structFields?, typeAt_eq_ok_iff.1 hfound] at hlisted
  split at hlisted
  · next list hinside =>
      exact ⟨underlying, list, hfound, typeAt_eq_ok_iff.2 hinside,
        Option.some.inj hlisted⟩
  · cases hlisted

end Package

def Plugin.schemaFields : List String :=
  ["Type", "Optional", "Required", "Computed", "Description", "Elem",
    "MinItems", "MaxItems"]

def Plugin.resourceFields : List String :=
  ["Schema", "Create", "Read", "Update", "Delete", "Exists"]

def Plugin.providerFields : List String :=
  ["Schema", "ResourcesMap", "DataSourcesMap"]

def Package.HasFunction (p : Package) (func : FuncId) (name : String) : Prop :=
  ∃ f, p.funcAt func = .ok f ∧ f.package = some schemaPackage ∧ f.name = name ∧
    f.receiver = none

def Package.HasExternal (p : Package) (func : FuncId) (package : String)
    (receiver : Option TypeId) (name : String) :
    Prop :=
  ∃ f, p.funcAt func = .ok f ∧ f.package = some package ∧
    f.receiver = receiver ∧ f.name = name ∧ f.blocks = none

theorem Package.HasExternal.hasFunction {p : Package} {func : FuncId}
    {name : String} (hhas : p.HasExternal func schemaPackage none name) :
    p.HasFunction func name := by
  obtain ⟨f, hfound, hpackage, hreceiver, hnamed, -⟩ := hhas
  exact ⟨f, hfound, hpackage, hnamed, hreceiver⟩

theorem Package.HasExternal.bodiless {p : Package} {func : FuncId}
    {package name : String} {receiver : Option TypeId}
    (hhas : p.HasExternal func package receiver name) :
    ∃ f, p.funcAt func = .ok f ∧ f.blocks = none := by
  obtain ⟨f, hfound, -, -, -, hbodiless⟩ := hhas
  exact ⟨f, hfound, hbodiless⟩

structure Plugin.Callable (plugin : Plugin) (p : Package) : Prop where
  string : p.typeAt plugin.string = .ok (.basic .string)
  receiver : ∃ underlying, p.typeAt plugin.resourceData =
      .ok (.named schemaPackage "ResourceData" underlying)
  methods : ∃ receiver, p.typeAt receiver = .ok (.pointer plugin.resourceData) ∧
    p.HasExternal plugin.set schemaPackage (some receiver) "Set" ∧
    p.HasExternal plugin.setId schemaPackage (some receiver) "SetId"
  errwrapWrapf : p.HasExternal plugin.errwrapWrapf errwrapPackage none "Wrapf"

structure Plugin.Known (plugin : Plugin) (p : Package) : Prop where
  schema : p.HasStruct plugin.schema "Schema" schemaFields
  resource : p.HasStruct plugin.resource "Resource" resourceFields
  provider : p.HasStruct plugin.provider "Provider" providerFields
  valueType : ∃ underlying, p.typeAt plugin.valueType =
      .ok (.named schemaPackage "ValueType" underlying)
  resourceProvider : ∃ underlying,
    p.typeAt plugin.resourceProvider =
      .ok (.named terraformPackage "ResourceProvider" underlying)
  removal : p.HasFunction plugin.removeFromState "RemoveFromState"
  shim : p.HasFunction plugin.resourceShim "DataSourceResourceShim"
  /-- The body of the shim is not part of the package. -/
  outside : ∃ f, p.funcAt plugin.resourceShim = .ok f ∧ f.blocks = none

theorem Builder.Grows.typeAt {names : String → Prop} {may : FuncId → Prop}
    {b e : Builder} (hgrows : b.Grows names may e) (hsound : b.Sound)
    {id : TypeId} {type : Ty} (hfound : b.package.typeAt id = .ok type)
    (hsettled :
      ∀ package underlying, type ≠ .named package "MyString" underlying) :
    e.package.typeAt id = .ok type := by
  refine hgrows.types id type hfound ?_
  intro package hdeclared
  rcases hgrows.fresh _ _ hdeclared with hold | hnew
  · obtain ⟨underlying, hnamed⟩ := hsound.declared package "MyString" id hold
    exact hsettled package underlying (Except.ok.inj (hfound.symm.trans hnamed))
  · exact absurd (Package.typeAt_bound hfound) (Nat.not_lt.2 hnew)

namespace Plugin.Known

variable {plugin : Plugin} {names : String → Prop} {may : FuncId → Prop}
  {b e : Builder}

theorem grow (hknown : plugin.Known b.package) (hsound : b.Sound)
    (hgrows : b.Grows names may e) (hkept : ¬may plugin.resourceShim) :
    plugin.Known e.package := by
  have hstructs {id : TypeId} {name : String} {fields : List String}
      (hsettled : name ≠ "MyString")
      (hhas : b.package.HasStruct id name fields) :
          e.package.HasStruct id name fields := by
    obtain ⟨underlying, list, hfound, hinside, hsame⟩ := hhas
    refine ⟨underlying, list, hgrows.typeAt hsound hfound ?_,
      hgrows.typeAt hsound hinside nofun, hsame⟩
    rintro package underlying ⟨⟩
    exact hsettled rfl
  have hfunctions {func : FuncId} {name : String}
      (hhas : b.package.HasFunction func name) :
      e.package.HasFunction func name := by
    obtain ⟨f, hfound, hpackage, hnamed, hreceiver⟩ := hhas
    obtain ⟨f', hfound', hsame⟩ := hgrows.headers func f hfound
    rw [Func.SameHeader] at hsame
    exact ⟨f', hfound', by rw [hsame, hpackage], by rw [hsame, hnamed],
      by rw [hsame, hreceiver]⟩
  refine ⟨hstructs (by decide) hknown.schema,
    hstructs (by decide) hknown.resource, hstructs (by decide) hknown.provider,
    ?_, ?_, hfunctions hknown.removal, hfunctions hknown.shim, ?_⟩
  · obtain ⟨underlying, hfound⟩ := hknown.valueType
    exact ⟨underlying, hgrows.typeAt hsound hfound (by simp)⟩
  · obtain ⟨underlying, hfound⟩ := hknown.resourceProvider
    exact ⟨underlying, hgrows.typeAt hsound hfound (by simp)⟩
  · obtain ⟨f, hfound, hbodiless⟩ := hknown.outside
    exact ⟨f, hgrows.untouched _ f hfound hkept, hbodiless⟩

theorem resourceShim_ne {p : Package} (hknown : plugin.Known p) :
    plugin.resourceShim ≠ plugin.removeFromState := by
  intro hsame
  obtain ⟨f, hfound, -, hnamed, -⟩ := hknown.shim
  obtain ⟨f', hfound', -, hnamed', -⟩ := hknown.removal
  rw [hsame] at hfound
  cases hfound.symm.trans hfound'
  exact absurd (hnamed.symm.trans hnamed') (by decide)

end Plugin.Known

namespace Plugin.Callable

variable {plugin : Plugin} {names : String → Prop} {may : FuncId → Prop}
  {b e : Builder}

theorem grow (hcallable : plugin.Callable b.package) (hsound : b.Sound)
    (hgrows : b.Grows names may e)
    (hkept :
      ∀ func ∈ [plugin.set, plugin.setId, plugin.errwrapWrapf], ¬may func) :
    plugin.Callable e.package := by
  have hexternals {func : FuncId} {package name : String}
      {receiver : Option TypeId} (hfree : ¬may func)
      (hhas : b.package.HasExternal func package receiver name) :
          e.package.HasExternal func package receiver name := by
    obtain ⟨f, hfound, hrest⟩ := hhas
    exact ⟨f, hgrows.untouched _ f hfound hfree, hrest⟩
  obtain ⟨hkeptSet, hkeptSetId, hkeptWrapf⟩ :
      ¬may plugin.set ∧ ¬may plugin.setId ∧ ¬may plugin.errwrapWrapf := by
    simpa using hkept
  obtain ⟨underlying, hdeclared⟩ := hcallable.receiver
  obtain ⟨receiver, hpoints, hset, hsetId⟩ := hcallable.methods
  exact ⟨hgrows.typeAt hsound hcallable.string (by simp),
    ⟨underlying, hgrows.typeAt hsound hdeclared (by simp)⟩,
    ⟨receiver, hgrows.typeAt hsound hpoints (by simp), hexternals hkeptSet hset,
      hexternals hkeptSetId hsetId⟩,
    hexternals hkeptWrapf hcallable.errwrapWrapf⟩

theorem named {p : Package} (hcallable : plugin.Callable p) :
    ∀ func ∈ [plugin.set, plugin.setId, plugin.errwrapWrapf],
      ∃ f, p.funcAt func = .ok f ∧ f.name ∈ ["Set", "SetId", "Wrapf"] := by
  have hofExternal {func : FuncId} {package name : String}
      {receiver : Option TypeId}
      (hlisted : name ∈ ["Set", "SetId", "Wrapf"])
        (hhas : p.HasExternal func package receiver name) :
      ∃ f, p.funcAt func = .ok f ∧ f.name ∈ ["Set", "SetId", "Wrapf"] := by
    obtain ⟨f, hfound, -, -, rfl, -⟩ := hhas
    exact ⟨f, hfound, hlisted⟩
  obtain ⟨receiver, -, hset, hsetId⟩ := hcallable.methods
  simp only [List.forall_mem_cons]
  exact ⟨hofExternal (by decide) hset, hofExternal (by decide) hsetId,
    hofExternal (by decide) hcallable.errwrapWrapf, nofun⟩

theorem ne_removal {p : Package} (hcallable : plugin.Callable p)
    (hknown : plugin.Known p) :
    ∀ func ∈ [plugin.set, plugin.setId, plugin.errwrapWrapf], func ≠
      plugin.removeFromState := by
  rintro func hmember rfl
  obtain ⟨f, hfound, hlisted⟩ := hcallable.named _ hmember
  obtain ⟨f', hfound', -, hnamed, -⟩ := hknown.removal
  cases hfound.symm.trans hfound'
  rw [hnamed] at hlisted
  exact absurd hlisted (by decide)

end Plugin.Callable

structure Plugin.Declared (plugin : Plugin) (b : Builder) : Prop where
  known : plugin.Known b.package
  callable : plugin.Callable b.package
  removal :
    b.package.HasExternal plugin.removeFromState schemaPackage none
      "RemoveFromState"
  texts : plugin.string = textType
  sound : b.Sound
  inner : ∀ id f, b.package.funcAt id = .ok f → f.name ≠ "Provider"

namespace Package

def hasStruct (p : Package) (id : TypeId) (name : String)
    (fields : List String) : Bool :=
  p.declaredName? id == some (some schemaPackage, name) &&
    p.structFields? id == some fields

def hasExternal (p : Package) (func : FuncId) (package : String)
    (receiver : Option TypeId) (name : String) : Bool :=
  p.functions[func.index]?.any fun f =>
    f.package == some package && f.receiver == receiver && f.name == name &&
      f.blocks == none

def receiver? (p : Package) (func : FuncId) : Option TypeId :=
  p.functions[func.index]?.bind Func.receiver

theorem hasExternal_of_check {p : Package} {func : FuncId}
    {package name : String} {receiver : Option TypeId}
    (hchecked : p.hasExternal func package receiver name = true) :
    p.HasExternal func package receiver name := by
  simp only [hasExternal, Option.any_eq_true, Bool.and_eq_true,
    beq_iff_eq] at hchecked
  obtain ⟨f, hfound, ⟨⟨howner, hreceived⟩, hnamed⟩, hbodiless⟩ := hchecked
  exact ⟨f, funcAt_eq_ok_iff.2 hfound, howner, hreceived, hnamed, hbodiless⟩

private theorem hasStruct_of_check {p : Package} {id : TypeId} {name : String}
    {fields : List String} (hchecked : p.hasStruct id name fields = true) :
    p.HasStruct id name fields := by
  simp only [hasStruct, Bool.and_eq_true, beq_iff_eq] at hchecked
  exact hasStruct_of_structFields? hchecked.1 hchecked.2

end Package

def Plugin.isCallableIn (plugin : Plugin) (p : Package) : Bool :=
  p.types[plugin.string.index]? == some (.basic .string) &&
  p.declaredName? plugin.resourceData ==
    some (some schemaPackage, "ResourceData") &&
  (p.receiver? plugin.set).any (fun receiver =>
    p.types[receiver.index]? == some (.pointer plugin.resourceData) &&
      p.hasExternal plugin.set schemaPackage (some receiver) "Set" &&
      p.hasExternal plugin.setId schemaPackage (some receiver) "SetId") &&
  p.hasExternal plugin.errwrapWrapf errwrapPackage none "Wrapf"

private theorem Plugin.callable_of_check {plugin : Plugin} {p : Package}
    (hchecked : plugin.isCallableIn p = true) : plugin.Callable p := by
  simp only [isCallableIn, Bool.and_eq_true, beq_iff_eq,
    Option.any_eq_true] at hchecked
  obtain ⟨⟨⟨hstring, hdeclared⟩, receiver, -, ⟨hpoints, hset⟩, hsetId⟩,
      herrwrapWrapf⟩ := hchecked
  exact ⟨Package.typeAt_eq_ok_iff.2 hstring,
    Package.named_of_declaredName? hdeclared, ⟨receiver,
      Package.typeAt_eq_ok_iff.2 hpoints, Package.hasExternal_of_check hset,
      Package.hasExternal_of_check hsetId⟩,
    Package.hasExternal_of_check herrwrapWrapf⟩

def Plugin.isDeclaredIn (plugin : Plugin) (b : Builder) : Bool :=
  (b.package.hasStruct plugin.schema "Schema" schemaFields &&
    b.package.hasStruct plugin.resource "Resource" resourceFields &&
    b.package.hasStruct plugin.provider "Provider" providerFields) &&
  (b.package.declaredName? plugin.valueType ==
      some (some schemaPackage, "ValueType") &&
    b.package.declaredName? plugin.resourceProvider ==
      some (some terraformPackage, "ResourceProvider")) &&
  (b.package.hasExternal plugin.removeFromState schemaPackage none
      "RemoveFromState" &&
    b.package.hasExternal plugin.resourceShim schemaPackage none
      "DataSourceResourceShim") &&
  plugin.isCallableIn b.package && plugin.string == textType &&
  b.declared.all (fun (key, _) => key.2 != "MyString") &&
  (b.interned.all (fun (type, id) => b.package.types[id.index]? == some type) &&
    b.declared.all (fun (key, id) => b.package.declaredName? id == some key) &&
    b.funcRefs.isEmpty) &&
  b.package.functions.all (fun f => f.name != "Provider")

private theorem Plugin.declared_of_check {plugin : Plugin} {b : Builder}
    (hchecked : plugin.isDeclaredIn b = true) : plugin.Declared b := by
  simp only [isDeclaredIn, Bool.and_eq_true, beq_iff_eq, List.all_eq_true,
    List.isEmpty_iff, Array.all_eq_true, bne_iff_ne] at hchecked
  obtain ⟨⟨⟨⟨⟨⟨⟨⟨⟨hschema, hresource⟩, hprovider⟩, hvalueType,
                  hresourceProvider⟩, hremoval, hshim⟩, hcallable⟩, htexts⟩,
          hsettled⟩, ⟨hinterned, hdeclared⟩, hfuncRefs⟩, hinner⟩ := hchecked
  have hremoval := Package.hasExternal_of_check hremoval
  have hshim := Package.hasExternal_of_check hshim
  refine ⟨⟨Package.hasStruct_of_check hschema,
      Package.hasStruct_of_check hresource,
      Package.hasStruct_of_check hprovider,
      Package.named_of_declaredName? hvalueType,
      Package.named_of_declaredName? hresourceProvider, hremoval.hasFunction,
      hshim.hasFunction, hshim.bodiless⟩, callable_of_check hcallable, hremoval,
    htexts, ⟨?_, ?_, ?_, ?_⟩, ?_⟩
  · intro type id hmember _
    exact Package.typeAt_eq_ok_iff.2 (hinterned _ hmember)
  · intro package name id hmember
    exact Package.named_of_declaredName? (hdeclared _ hmember)
  · intro package id hmember
    exact absurd rfl (hsettled _ hmember)
  · simp [hfuncRefs]
  · intro id f hfound
    obtain ⟨hbound, rfl⟩ :=
      Array.getElem?_eq_some_iff.1 (Package.funcAt_eq_ok_iff.1 hfound)
    exact hinner id.index hbound

theorem Plugin.declare_new (path : String) :
    ∃ plugin b, Plugin.declare (Builder.new path) = .ok (plugin, b) ∧
      plugin.Declared b ∧ b.package.path = path := by
  -- No declaration looks at the path, so that evaluating them once, for the
  -- empty path, is enough.
  have hchecked : (Plugin.declare (Builder.new "")).toOption.any
      (fun (plugin, b) => plugin.isDeclaredIn b) := by
    decide +kernel
  have hmoved := Plugin.declare_blind path (Builder.new "")
  cases hran : Plugin.declare (Builder.new "") with
  | error fault => simp [hran, Except.toOption] at hchecked
  | ok result =>
      rw [hran] at hchecked hmoved
      exact ⟨result.1, result.2.moved path, hmoved,
        Plugin.declared_of_check hchecked, rfl⟩

end SchemaLint
