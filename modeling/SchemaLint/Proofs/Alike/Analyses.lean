import SchemaLint.Lint.Run
import SchemaLint.Proofs.Alike.Walks
import SchemaLint.Provider.Extraction

/-!
# Analyses of packages that look alike

There is one lemma for each definition: what does not read the entries of maps
has the same outcome and the same records on packages that look alike, and so
has everything else when the entries are the same too.
-/

namespace SchemaLint

namespace Package.Alike

variable {p p' : Package} (ha : p.Alike p')
include ha

/-! ## Local functions -/

omit ha in
theorem filterM_map (test : β → Access Bool) (f : α → β) (list : List α) :
    (list.filterM (fun a => test (f a)) >>= fun kept => pure (kept.map f)) =
      (list.map f).filterM test := by
  have haux (done : List α) :
      (List.filterAuxM (fun a => test (f a)) list done >>=
        fun kept => pure (kept.map f)) =
      List.filterAuxM test (list.map f) (done.map f) := by
    induction list generalizing done with
    | nil => rfl
    | cons a rest ih =>
        simp only [List.filterAuxM, List.map_cons, bind_assoc]
        congr 1
        funext kept
        cases kept with
        | false => exact ih done
        | true => exact ih (a :: done)
  have hall := haux []
  rw [List.map_nil] at hall
  simp only [List.filterM, ← hall, bind_assoc, pure_bind, List.map_reverse]

omit ha in
theorem numbered_filter {R : Func → Func → Prop} (keep keep' : Func → Bool)
    {fs fs' : List Func} (hrelated : List.Forall₂ R fs fs')
    (hsame : ∀ f f', R f f' → keep' f' = keep f) (start : Nat) :
    (((fs'.zipIdx start).map fun (f, index) => (FuncId.mk index, f)).filter
        fun (_, f) => keep' f).map Prod.fst =
      (((fs.zipIdx start).map fun (f, index) => (FuncId.mk index, f)).filter
        fun (_, f) => keep f).map Prod.fst := by
  induction hrelated generalizing start with
  | nil => rfl
  | cons hfirst _ ih =>
      simp only [List.zipIdx_cons, List.map_cons, List.filter_cons,
        hsame _ _ hfirst]
      split
      · rw [List.map_cons, List.map_cons, ih]
      · exact ih (start + 1)

private theorem localFunctions_filter (keep : Func → Bool)
    (hblind : ∀ f package blocks, keep { f with package, blocks } = keep f) :
    (p'.localFunctions.filter fun (_, f) => keep f).map Prod.fst =
      (p.localFunctions.filter fun (_, f) => keep f).map Prod.fst := by
  simp only [Package.localFunctions, List.filter_filter]
  refine numbered_filter (fun f => keep f && p.owns f)
    (fun f => keep f && p'.owns f) ha.functions ?_ 0
  intro f f' hrelated
  have hkept : keep f' = keep f := by rw [hrelated.shape, hblind]
  rw [hkept, ha.owns hrelated]

theorem lift_funcAt_bind {next next' : Func → Analysis ε α}
    (hblind : ∀ f f', p.AlikeFunc f f' → next' f' = next f) (id : FuncId) :
    (Analysis.ofAccess (p'.funcAt id) >>= next') =
      (Analysis.ofAccess (p.funcAt id) >>= next) := by
  rcases ha.funcAt id with
    ⟨f, f', hfound, hfound', hrelated⟩ | ⟨fault, hfound, hfound'⟩
  · rw [hfound, hfound']
    change pure f' >>= next' = pure f >>= next
    rw [pure_bind, pure_bind]
    exact hblind f f' hrelated
  · rw [hfound, hfound']
    rfl

end Package.Alike

/-! ## Providers -/

namespace Subject

def on (s : Subject) (package : Package) : Subject := { s with package }

@[simp] theorem on_package (s : Subject) (package : Package) :
    (s.on package).package = package := rfl

@[simp] theorem on_sdk (s : Subject) (package : Package) :
    (s.on package).sdk = s.sdk := rfl

variable {s : Subject} {p' : Package} (ha : s.package.Alike p')
include ha

theorem constInt?_on (value : ValueId) :
    (s.on p').constInt? value = s.constInt? value := by
  simp only [constInt?, on_package, ha.root, ha.operationAt]

theorem constBoolWithin?_on (steps : Nat) (value : ValueId) :
    (s.on p').constBoolWithin? steps value =
      s.constBoolWithin? steps value := by
  induction steps generalizing value with
  | zero => rfl
  | succ steps ih =>
      simp only [constBoolWithin?, on_package, ha.root, ha.operationAt, ih]

theorem constBool?_on (value : ValueId) :
    (s.on p').constBool? value = s.constBool? value := by
  rw [constBool?, constBool?, constBoolWithin?_on ha, on_package, ha.values]

theorem readField_on (stores : List FieldStore) (field : String)
    (read : ValueId → Extract (Option α)) :
    (s.on p').readField stores field read = s.readField stores field read := by
  simp only [readField, on_package, ha.positions]

theorem attributeType?_on (value : ValueId) :
    (s.on p').attributeType? value = s.attributeType? value := by
  simp only [attributeType?, on_package, on_sdk, ha.root, ha.valueAt,
    ha.typeName]
  rfl

theorem storedType_on (name : String) (stores : List FieldStore) :
    (s.on p').storedType name stores = s.storedType name stores := by
  simp only [storedType, on_package, attributeType?_on ha, ha.positions]

section

variable (nested : ValueId → Extract AttributeList)

theorem element_on (value : ValueId) :
    (s.on p').element nested value = s.element nested value := by
  simp only [element, on_package, on_sdk, ha.root, ha.isAllocOf,
    ha.instanceStores, ha.valueText]

theorem children_on (type : AttributeType) (stores : List FieldStore) :
    (s.on p').children nested type stores = s.children nested type stores := by
  simp only [children, element_on ha]

theorem describedAttribute_on (name : String) (pos : Pos)
    (stores : List FieldStore) :
    (s.on p').describedAttribute nested name pos stores =
      s.describedAttribute nested name pos stores := by
  have htexts : (Analysis.constString? p' : ValueId → Extract (Option String)) =
      Analysis.constString? s.package :=
    funext ha.constText?
  simp only [describedAttribute, on_package, readField_on ha, htexts,
    funext (constBool?_on ha), funext (constInt?_on ha), storedType_on ha,
    children_on ha]

theorem attributeOf_on (name : String) (entry : MapEntry) :
    (s.on p').attributeOf nested name entry =
      s.attributeOf nested name entry := by
  simp only [attributeOf, on_package, on_sdk, ha.root, ha.isAllocOf,
    ha.instanceStores, describedAttribute_on ha, ha.valueText]

theorem entryAttribute?_on (entry : MapEntry) :
    (s.on p').entryAttribute? nested entry =
      s.entryAttribute? nested entry := by
  simp only [entryAttribute?, on_package, ha.constText?, ha.positions,
    attributeOf_on ha]

end

omit ha in
theorem entryPoints_eq (q : Subject) :
    q.entryPoints =
      ((q.package.localFunctions.filter fun (_, f) =>
        f.name == q.sdk.entryPoint && f.receiver.isNone).map
          Prod.fst).filterM fun id => do
        match ← q.package.results id with
        | [] => return false
        | first :: _ =>
          return q.sdk.rootTypes.contains (← q.package.typeName first) := by
  rw [← Package.Alike.filterM_map]
  rfl

theorem entryPoints_on : (s.on p').entryPoints = s.entryPoints := by
  have hcandidates :=
    ha.localFunctions_filter
      (fun f => f.name == s.sdk.entryPoint && f.receiver.isNone)
      fun _ _ _ => rfl
  rw [entryPoints_eq, entryPoints_eq, on_package, on_sdk, hcandidates]
  simp only [ha.results, ha.typeName]

theorem providerStores_on : (s.on p').providerStores = s.providerStores := by
  have hstores (id : FuncId) :
      (p'.reachedStores id s.sdk.providerType : Extract (List FieldStore)) =
      s.package.reachedStores id s.sdk.providerType := ha.reachedStores id _
  unfold providerStores
  rw [entryPoints_on ha]
  congr 1
  funext entries
  cases entries with
  | nil => rfl
  | cons entry others =>
      refine ha.lift_funcAt_bind (fun f f' hrelated => ?_) entry
      rw [hrelated.shape]
      simp only [on_package, on_sdk, hstores]

theorem boxedCall?_on (value : ValueId) :
    (s.on p').boxedCall? value = s.boxedCall? value := by
  simp only [boxedCall?, on_package, ha.stripBoxing, ha.operationAt,
    ha.staticCallee?]

theorem localCall?_on (value : ValueId) :
    (s.on p').localCall? value = s.localCall? value := by
  simp only [localCall?, boxedCall?_on ha, on_package]
  congr 1
  funext found
  cases found with
  | none => rfl
  | some found =>
      refine ha.funcAt_bind (fun f f' hrelated => ?_) found.1
      show pure (if p'.owns f' then some found.1 else none) = _
      rw [ha.owns hrelated]

theorem componentBuilder?_on (value : ValueId) :
    (s.on p').componentBuilder? value = s.componentBuilder? value := by
  simp only [componentBuilder?, localCall?_on ha, boxedCall?_on ha, on_package,
    on_sdk, ha.funcName]

theorem returnedAlloc?_on (builder : FuncId) :
    (s.on p').returnedAlloc? builder = s.returnedAlloc? builder := by
  simp only [returnedAlloc?, on_package, on_sdk, ha.returnValue?, ha.root,
    ha.isAllocOf]

theorem resourceStores_on (builder : FuncId) :
    (s.on p').resourceStores builder = s.resourceStores builder := by
  simp only [resourceStores, on_package, on_sdk, ha.reachedStores,
    returnedAlloc?_on ha, ha.funcName]

theorem lifecycleFunction?_on (stores : List FieldStore)
    (slot : LifecycleSlot) :
    (s.on p').lifecycleFunction? stores slot =
      s.lifecycleFunction? stores slot := by
  simp only [lifecycleFunction?, on_package, ha.root, ha.operationAt]

/-! ## Readers of map entries -/

section

variable (hsame : ∀ map, p'.mapEntries map = s.package.mapEntries map)
include hsame

theorem schemaMap_on (nested : ValueId → Extract AttributeList)
    (value : ValueId) :
    (s.on p').schemaMap nested value = s.schemaMap nested value := by
  simp only [schemaMap, on_package, ha.root, ha.isMap, hsame,
    funext (entryAttribute?_on ha nested), ha.valueText]

theorem attributesWithin_on (depth : Nat) :
    (s.on p').attributesWithin depth = s.attributesWithin depth := by
  induction depth with
  | zero => exact funext (schemaMap_on ha hsame _)
  | succ depth ih =>
      rw [attributesWithin, attributesWithin, ih]
      exact funext (schemaMap_on ha hsame _)

theorem componentAttributes_on (name : String) (stores : List FieldStore) :
    (s.on p').componentAttributes name stores =
      s.componentAttributes name stores := by
  simp only [componentAttributes, attributesWithin_on ha hsame]

theorem component_on (name : String) (builder : FuncId) (pos : Pos) :
    (s.on p').component name builder pos = s.component name builder pos := by
  unfold Subject.component
  rw [resourceStores_on ha]
  congr 1
  funext stores
  refine ha.lift_funcAt_bind (fun f f' hrelated => ?_) builder
  rw [hrelated.shape]
  simp only [lifecycleFunction?_on ha, componentAttributes_on ha hsame]
  rfl

theorem mapComponent_on (field : String) (entry : MapEntry) :
    (s.on p').mapComponent field entry = s.mapComponent field entry := by
  simp only [mapComponent, on_package, ha.constText?, componentBuilder?_on ha,
    component_on ha hsame]

theorem components_on (stores : List FieldStore) (field : String) :
    (s.on p').components stores field = s.components stores field := by
  simp only [components, on_package, ha.root, ha.isMap, hsame,
    funext (mapComponent_on ha hsame field)]

theorem extract_on : (s.on p').extract = s.extract := by
  simp only [extract, providerStores_on ha, components_on ha hsame]

end

end Subject

/-! ## Rules -/

namespace RuleContext

def on (ctx : RuleContext) (package : Package) : RuleContext :=
  { ctx with package }

@[simp] theorem on_package (ctx : RuleContext) (package : Package) :
    (ctx.on package).package = package := rfl

@[simp] theorem on_sdk (ctx : RuleContext) (package : Package) :
    (ctx.on package).sdk = ctx.sdk := rfl

variable {ctx : RuleContext} {p' : Package} (ha : ctx.package.Alike p')
include ha

theorem namedCall?_on (instruction : Instruction) :
    (ctx.on p').namedCall? instruction = ctx.namedCall? instruction := by
  simp only [namedCall?, on_package, ha.callSite?, ha.staticCallee?,
    ha.funcName]

omit ha in
theorem namedCall?_of_isAside {instruction : Instruction}
    (haside : ctx.package.isAside instruction = true) :
    ctx.namedCall? instruction = .ok none := by
  cases instruction <;>
    simp_all [Package.isAside, namedCall?, Package.callSite?]

theorem noteSetCall_on : (ctx.on p').noteSetCall = ctx.noteSetCall := by
  funext search instruction
  simp only [noteSetCall, namedCall?_on ha, on_sdk]

theorem searchSlot_on : (ctx.on p').searchSlot = ctx.searchSlot := by
  have hoverlooks : ctx.package.Overlooks ctx.noteSetCall :=
    fun search instruction haside => by
    simp [noteSetCall, namedCall?_of_isAside haside]
  funext search func
  simp only [searchSlot, on_package, noteSetCall_on ha]
  rcases ha.instructions func with
    ⟨body, body', hfound, hfound', hsame⟩ | ⟨fault, hfound, hfound'⟩
  · simp only [hfound, hfound', Access.ok_bind, ha.inspect hoverlooks _ _ hsame]
  · simp only [hfound, hfound', Access.error_bind]

theorem setCallAt?_on (site : CallSite) :
    (ctx.on p').setCallAt? site = ctx.setCallAt? site := by
  simp only [setCallAt?, on_package, ha.constText?, ha.positions]

theorem setCalls_on (component : Component) :
    (ctx.on p').setCalls component = ctx.setCalls component := by
  simp only [setCalls, searchComponent, searchSlot_on ha,
    funext (setCallAt?_on ha)]

theorem isCompatible_on (type : AttributeType) (value : ValueId) :
    (ctx.on p').isCompatible type value = ctx.isCompatible type value := by
  have hunboxed (steps : Nat) (value : ValueId) :
      p'.unboxInterfaceWithin steps value =
        ctx.package.unboxInterfaceWithin steps value := by
    induction steps generalizing value with
    | zero => rfl
    | succ steps ih =>
        simp only [Package.unboxInterfaceWithin, ha.operationAt, ih]
  simp only [isCompatible, Package.unboxInterface, on_package, ha.values,
    hunboxed, ha.typeOf, ha.derefType]
  congr 1
  funext inner
  congr 1
  funext valueType
  congr 1
  funext pointee
  exact ha.structureOf_bind (fun _ _ _ _ => rfl) pointee

theorem checkTypes_on (component : Component) (call : SetCall) :
    (ctx.on p').checkTypes component call = ctx.checkTypes component call := by
  simp only [checkTypes, isCompatible_on ha]

theorem checkDereference_on (call : SetCall) :
    (ctx.on p').checkDereference call = ctx.checkDereference call := by
  simp only [checkDereference, isDereference, on_package, ha.analysisTrace,
    ha.outermost, ha.operationAt, ha.isElementAddr, ha.typeOf, ha.pointerDepth]

end RuleContext

section

variable {ctx : RuleContext} {p' : Package} (ha : ctx.package.Alike p')
include ha

theorem CallBlacklist.check_on (blacklist : CallBlacklist)
    (component : Component) :
    blacklist.check (ctx.on p') component = blacklist.check ctx component := by
  have hsealing : isRemoval (ctx.on p') = isRemoval ctx := by
    funext func
    simp only [isRemoval, RuleContext.on_package, RuleContext.on_sdk,
      ha.funcName]
  have hnoting (denied : List String) :
      note (ctx.on p') denied = note ctx denied := by
    funext found instruction
    simp only [note, RuleContext.namedCall?_on ha]
  have hoverlooks (denied : List String) :
      ctx.package.Overlooks (note ctx denied) :=
    fun found instruction haside => by
    simp [note, RuleContext.namedCall?_of_isAside haside]
  have hsearching : searchSlot (ctx.on p') component =
      searchSlot ctx component := by
    funext found entry
    simp only [searchSlot, RuleContext.on_package, RuleContext.on_sdk,
      ha.funcName, hsealing, hnoting]
    split
    · rfl
    · split
      · rfl
      · next func _ =>
          rcases ha.instructions func with
            ⟨body, body', hfound, hfound', hsame⟩ | ⟨fault, hfound, hfound'⟩
          · simp only [hfound, hfound', Access.ok_bind,
              ha.inspect (hoverlooks _) _ _ hsame]
          · simp only [hfound, hfound', Access.error_bind]
  simp only [check, hsearching]

theorem Rule.check_on (rule : Rule) (readOnly : Bool) (component : Component) :
    rule.check (ctx.on p') readOnly component =
      rule.check ctx readOnly component := by
  cases rule with
  | callBlacklist blacklist => simp only [check, CallBlacklist.check_on ha]
  | attributeExists => simp only [check, RuleContext.setCalls_on ha]
  | attributeTypes =>
      simp only [check, RuleContext.setCalls_on ha,
        funext (RuleContext.checkTypes_on ha component)]
  | noDereference =>
      simp only [check, RuleContext.setCalls_on ha,
        funext (RuleContext.checkDereference_on ha)]
  | reservedNames => rfl

end

/-! ## Runs -/

namespace Provider

def on (provider : Provider) (package : Package) : Provider :=
  { provider with package }

theorem ofPackage_on {p p' : Package} (ha : p.Alike p')
    (hsame : ∀ map, p'.mapEntries map = p.mapEntries map) (sdk : Sdk) :
    ofPackage p' sdk =
      (fun provider => provider.on p') <$> ofPackage p sdk := by
  have hextracted (name : String) :
      Subject.extract ⟨p', sdk, name⟩ = Subject.extract ⟨p, sdk, name⟩ :=
    @Subject.extract_on ⟨p, sdk, name⟩ p' ha hsame
  simp only [ofPackage, ha.path, hextracted, map_bind, map_pure]
  rfl

end Provider

theorem Linter.run_on {linter : Linter} {p' : Package}
    (ha : linter.provider.package.Alike p') :
    Linter.run { linter with provider := linter.provider.on p' } =
      linter.run := by
  have hchecking (readOnly : Bool) (component : Component)
      (entry : String × Rule) :
      Linter.checkRule { linter with provider := linter.provider.on p' }
        readOnly component entry =
        linter.checkRule readOnly component entry := by
    obtain ⟨id, rule⟩ := entry
    have hsame : rule.check (linter.context.on p') readOnly component =
        rule.check linter.context readOnly component :=
      Rule.check_on ha rule readOnly component
    simp only [checkRule, ← hsame]
    rfl
  simp only [run, checkComponent, funext (hchecking _ _)]
  rfl

end SchemaLint
