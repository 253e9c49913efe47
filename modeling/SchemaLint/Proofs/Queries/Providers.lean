import SchemaLint.Proofs.Queries.Stores
import SchemaLint.Provider.Extraction

/-!
# Providers of well-formed packages

Recovering a provider stays in the tables of its package. It may refuse, but
what it recovers has only functions of the package.
-/

namespace SchemaLint

private theorem Package.localFunctions_hasFunc {p : Package}
    {entry : FuncId × Func} (hmember : entry ∈ p.localFunctions) :
    p.HasFunc entry.1 := by
  obtain ⟨⟨f, index⟩, hinTable, rfl⟩ :=
    List.mem_map.1 (List.mem_of_mem_filter hmember)
  simpa [Package.HasFunc] using (List.mem_zipIdx' hinTable).1

structure Package.HoldsComponent (p : Package) (component : Component) :
    Prop where
  builder : p.HasFunc component.builder
  declared : ∀ entry ∈ component.declared, p.HasFunc entry.2

namespace Subject

variable {s : Subject}

def Reads (s : Subject) (read : ValueId → Extract α) : Prop :=
  ∀ value, s.package.HasValue value → Faultless (read value) fun _ => True

/-! ## Constants -/

theorem constInt?_faultless (hwf : s.package.WellFormed) {value : ValueId}
    (hhas : s.package.HasValue value) :
    Faultless (s.constInt? value) fun _ => True := by
  refine (hwf.analysisRoot hhas).bind fun root hinside => ?_
  refine (hwf.operationAt hinside).ofAccess.bind fun operation _ => ?_
  split <;> exact .pure trivial

theorem constBoolWithin?_faultless (hwf : s.package.WellFormed) (steps : Nat)
    {value : ValueId} (hhas : s.package.HasValue value) :
    Faultless (s.constBoolWithin? steps value) fun _ => True := by
  induction steps generalizing value with
  | zero => exact .pure trivial
  | succ steps ih =>
      refine (hwf.analysisRoot hhas).bind fun root hinside => ?_
      refine (hwf.operationAt hinside).ofAccess.bind fun operation hknown => ?_
      split
      · exact .pure trivial
      · next x =>
          exact (ih (hknown.operands x (by simp [Operation.operands]))).bind
            fun _ _ => .pure trivial
      · exact .pure trivial

theorem constBool?_faultless (hwf : s.package.WellFormed) {value : ValueId}
    (hhas : s.package.HasValue value) :
    Faultless (s.constBool? value) fun _ => True :=
  constBoolWithin?_faultless hwf (s.package.values.size + 1) hhas

theorem attributeType?_faultless (hwf : s.package.WellFormed) {value : ValueId}
    (hhas : s.package.HasValue value) :
    Faultless (s.attributeType? value) fun _ => True := by
  refine (hwf.analysisRoot hhas).bind fun root hinside => ?_
  refine (hwf.valueAt hinside).ofAccess.bind fun entry hholds => ?_
  split
  · refine (hwf.typeName hholds.type).ofAccess.bind fun name _ => ?_
    split <;> exact .pure trivial
  · exact .pure trivial

/-! ## Schemas -/

section

variable {stores : List FieldStore} {nested : ValueId → Extract AttributeList}

theorem readField_faultless (hknown : s.package.HoldsStores stores)
    (field : String) {read : ValueId → Extract (Option α)}
    (hreads : s.Reads read) :
    Faultless (s.readField stores field read) fun _ => True := by
  unfold readField
  split
  · exact .pure trivial
  · next store hfound =>
      refine (hreads store.value (hknown.first hfound)).bind fun answer _ => ?_
      split
      · exact .pure trivial
      · exact Faultless.log.bind fun _ _ => .pure trivial

theorem storedType_faultless (hwf : s.package.WellFormed)
    (hknown : s.package.HoldsStores stores) (name : String) :
    Faultless (s.storedType name stores) fun _ => True := by
  unfold storedType
  split
  · exact Faultless.log.bind fun _ _ => .pure trivial
  · next store hfound =>
      refine (attributeType?_faultless hwf (hknown.first hfound)).bind
        fun answer _ => ?_
      split
      · exact .pure trivial
      · exact Faultless.log.bind fun _ _ => .refuse

theorem element_faultless (hwf : s.package.WellFormed) (hinner : s.Reads nested)
    {value : ValueId} (hhas : s.package.HasValue value) :
    Faultless (s.element nested value) fun _ => True := by
  refine (hwf.analysisRoot hhas).bind fun elem hinside => ?_
  refine (hwf.isAllocOf hinside s.sdk.resourceType).ofAccess.bind
    fun isResource _ => ?_
  split
  · refine (hwf.instanceStores hinside s.sdk.resourceType).bind
      fun stores hknown => ?_
    split
    · next store hfound => exact hinner store.value (hknown.first hfound)
    · exact .pure trivial
  · refine (hwf.isAllocOf hinside s.sdk.schemaType).ofAccess.bind
      fun isSchema _ => ?_
    split
    · exact .pure trivial
    · refine (hwf.valueText hinside).ofAccess.bind fun text _ => ?_
      exact Faultless.log.bind fun _ _ => .pure trivial

theorem elementStore_faultless (hwf : s.package.WellFormed)
    (hinner : s.Reads nested) (hknown : s.package.HoldsStores stores) :
    Faultless (match firstStore? stores "Elem" with
      | some store => s.element nested store.value
      | none => return .complete : Extract AttributeList) fun _ => True := by
  split
  · next store hfound =>
      exact element_faultless hwf hinner (hknown.first hfound)
  · exact .pure trivial

theorem children_faultless (hwf : s.package.WellFormed)
    (hinner : s.Reads nested) (hknown : s.package.HoldsStores stores)
    (type : AttributeType) :
    Faultless (s.children nested type stores) fun _ => True := by
  have hfromElement := elementStore_faultless hwf hinner hknown
  unfold children
  cases type with
  | list | set => exact hfromElement
  | map =>
      cases hfound : firstStore? stores "Schema" with
      | none => exact hfromElement
      | some store => exact hinner store.value (hknown.first hfound)
  | _ => exact .pure trivial

theorem describedAttribute_faultless (hwf : s.package.WellFormed)
    (hinner : s.Reads nested) (hknown : s.package.HoldsStores stores)
    (name : String) (pos : Pos) :
    Faultless (s.describedAttribute nested name pos stores) fun _ => True := by
  have htext :=
    readField_faultless hknown "Description" fun _ hhas =>
      hwf.analysisConstString? hhas
  have hflag :=
    fun field => readField_faultless hknown field fun _ hhas =>
      constBool?_faultless hwf hhas
  have hcount :=
    fun field => readField_faultless hknown field fun _ hhas =>
      constInt?_faultless hwf hhas
  refine htext.bind fun _ _ => ?_
  refine (hflag "Required").bind fun _ _ =>
    (hflag "Optional").bind fun _ _ => (hflag "Computed").bind fun _ _ => ?_
  refine (hcount "MinItems").bind fun _ _ =>
    (hcount "MaxItems").bind fun _ _ => ?_
  refine (storedType_faultless hwf hknown name).bind fun type _ => ?_
  exact (children_faultless hwf hinner hknown _).bind fun _ _ => .pure trivial

theorem attributeOf_faultless (hwf : s.package.WellFormed)
    (hinner : s.Reads nested) (name : String) {entry : MapEntry}
    (hhas : s.package.HasValue entry.value) :
    Faultless (s.attributeOf nested name entry) fun _ => True := by
  refine (hwf.analysisRoot hhas).bind fun schema hinside => ?_
  refine (hwf.isAllocOf hinside s.sdk.schemaType).ofAccess.bind
    fun isSchema _ => ?_
  split
  · refine (hwf.instanceStores hinside s.sdk.schemaType).bind
      fun stores hknown => ?_
    exact describedAttribute_faultless hwf hinner hknown name entry.pos
  · refine (hwf.valueText hinside).ofAccess.bind fun text _ => ?_
    exact Faultless.log.bind fun _ _ => .pure trivial

theorem entryAttribute?_faultless (hwf : s.package.WellFormed)
    (hinner : s.Reads nested) {entry : MapEntry}
    (hkey : s.package.HasValue entry.key)
    (hhas : s.package.HasValue entry.value) :
    Faultless (s.entryAttribute? nested entry) fun _ => True := by
  refine (hwf.analysisConstString? hkey).bind fun name _ => ?_
  split
  · exact Faultless.log.bind fun _ _ => .pure trivial
  · exact (attributeOf_faultless hwf hinner _ hhas).map.within

theorem schemaMap_faultless (hwf : s.package.WellFormed)
    (hinner : s.Reads nested) {value : ValueId}
    (hhas : s.package.HasValue value) :
    Faultless (s.schemaMap nested value) fun _ => True := by
  refine (hwf.analysisRoot hhas).bind fun map hinside => ?_
  refine (hwf.isMap hinside).ofAccess.bind fun isMap _ => ?_
  split
  · refine (hwf.mapEntries hinside).ofAccess.bind fun entries hknown => ?_
    have heach : ∀ entry ∈ entries, Faultless (s.entryAttribute? nested entry)
        fun _ => True :=
      fun entry hmember => entryAttribute?_faultless hwf hinner
        (hknown entry hmember).1 (hknown entry hmember).2
    exact (Faultless.mapM heach).bind fun _ _ => .pure trivial
  · refine (hwf.valueText hinside).ofAccess.bind fun text _ => ?_
    exact Faultless.log.bind fun _ _ => .pure trivial

end

theorem attributesWithin_faultless (hwf : s.package.WellFormed) (depth : Nat)
    {value : ValueId} (hhas : s.package.HasValue value) :
    Faultless (s.attributesWithin depth value) fun _ => True := by
  induction depth generalizing value with
  | zero =>
      exact schemaMap_faultless hwf
        (fun _ _ => Faultless.log.bind fun _ _ => .pure trivial) hhas
  | succ depth ih =>
      exact schemaMap_faultless hwf (fun _ hinside => ih hinside) hhas

/-! ## Components -/

theorem entryPoints_faultless (hwf : s.package.WellFormed) :
    Faultless s.entryPoints fun ids => ∀ id ∈ ids, s.package.HasFunc id := by
  refine (Faultless.filterM fun entry hmember => ?_).bind
    fun accepted hkept => .pure ?_
  · have hhas := Package.localFunctions_hasFunc (List.mem_of_mem_filter hmember)
    refine (hwf.results hhas).bind fun types hinside => ?_
    split
    · exact .pure trivial
    · next first rest =>
        exact (hwf.typeName (hinside first (by simp))).bind
          fun _ _ => .pure trivial
  · intro id hmember
    obtain ⟨entry, hinAccepted, rfl⟩ := List.mem_map.1 hmember
    exact Package.localFunctions_hasFunc
      (List.mem_of_mem_filter (hkept entry hinAccepted))

theorem providerStores_faultless (hwf : s.package.WellFormed) :
    Faultless s.providerStores s.package.HoldsStores := by
  refine (entryPoints_faultless hwf).ofAccess.bind fun ids hinside => ?_
  split
  · exact .refuse
  · next entry others =>
      refine (hwf.funcAt (hinside entry (by simp))).ofAccess.bind fun f _ => ?_
      refine (Faultless.mapM fun id hmember =>
        hwf.reachedStores (hinside id hmember) s.sdk.providerType).bind
          fun lists hknown => ?_
      have hvalues : s.package.HoldsStores lists.flatten := by
        intro store hmember
        obtain ⟨list, hinLists, hinList⟩ := List.mem_flatten.1 hmember
        exact hknown list hinLists store hinList
      dsimp only
      split
      · exact .refuse
      · exact .pure (hvalues.filter _)
      · exact .refuse

theorem boxedCall?_faultless (hwf : s.package.WellFormed) {value : ValueId}
    (hhas : s.package.HasValue value) :
    Faultless (s.boxedCall? value) fun found =>
      ∀ call ∈ found, s.package.HasFunc call.1 ∧
        ∀ arg ∈ call.2, s.package.HasValue arg := by
  refine (hwf.stripBoxing hhas).bind fun inner hinside => ?_
  refine (hwf.operationAt hinside).bind fun operation hknown => ?_
  split
  · next call =>
      have hholds : s.package.HoldsCall call := hknown.operands
      refine (hwf.staticCallee? hholds).bind fun target hresolved => .pure ?_
      intro found hmember
      obtain ⟨callee, hsame, rfl⟩ := Option.map_eq_some_iff.1 hmember
      exact ⟨hresolved callee hsame,
        fun arg hmember => hholds arg (by simp [Call.operands, hmember])⟩
  · exact .pure_none

theorem localCall?_faultless (hwf : s.package.WellFormed) {value : ValueId}
    (hhas : s.package.HasValue value) :
    Faultless (s.localCall? value) fun found =>
      ∀ f ∈ found, s.package.HasFunc f := by
  refine (boxedCall?_faultless hwf hhas).bind fun found hknown => ?_
  split
  · exact .pure_none
  · next callee args =>
      have hcalled := (hknown _ rfl).1
      refine (hwf.funcAt hcalled).bind fun f _ => .pure ?_
      intro g hmember
      split at hmember
      · cases hmember
        exact hcalled
      · cases hmember

theorem componentBuilder?_faultless (hwf : s.package.WellFormed)
    {value : ValueId} (hhas : s.package.HasValue value) :
    Faultless (s.componentBuilder? value) fun found =>
      ∀ f ∈ found, s.package.HasFunc f := by
  refine (localCall?_faultless hwf hhas).bind fun direct hknown => ?_
  split
  · next builder => exact .pure hknown
  · refine (boxedCall?_faultless hwf hhas).bind fun found hknown => ?_
    split
    · exact .pure_none
    · next callee args =>
        obtain ⟨hcalled, hinside⟩ := hknown _ rfl
        refine (hwf.funcName hcalled).bind fun name _ => ?_
        split
        · exact .pure_none
        · split
          · exact .pure_none
          · next inner hfound =>
              exact localCall?_faultless hwf
                (hinside inner (List.mem_of_getElem? hfound))

theorem returnedAlloc?_faultless (hwf : s.package.WellFormed) {builder : FuncId}
    (hhas : s.package.HasFunc builder) :
    Faultless (s.returnedAlloc? builder) fun _ => True := by
  refine (hwf.returnValue? hhas 0).ofAccess.bind fun returned hknown => ?_
  split
  · exact .pure trivial
  · next value =>
      refine (hwf.analysisRoot (hknown value rfl)).bind fun root hinside => ?_
      exact (hwf.isAllocOf hinside s.sdk.resourceType).ofAccess.bind
        fun _ _ => .pure trivial

theorem resourceStores_faultless (hwf : s.package.WellFormed) {builder : FuncId}
    (hhas : s.package.HasFunc builder) :
    Faultless (s.resourceStores builder) s.package.HoldsStores := by
  refine (hwf.reachedStores hhas s.sdk.resourceType).bind
    fun stores hknown => ?_
  refine (returnedAlloc?_faultless hwf hhas).bind fun alloc _ => ?_
  split
  · exact .pure (hknown.filter _)
  · refine (hwf.funcName hhas).ofAccess.bind fun name _ => ?_
    exact Faultless.log.bind fun _ _ => .pure hknown

theorem lifecycleFunction?_faultless (hwf : s.package.WellFormed)
    {stores : List FieldStore} (hknown : s.package.HoldsStores stores)
    (slot : LifecycleSlot) :
    Faultless (s.lifecycleFunction? stores slot) fun found =>
      ∀ f ∈ found, s.package.HasFunc f := by
  unfold lifecycleFunction?
  split
  · exact .pure_none
  · next store hfound =>
      refine (hwf.analysisRoot (hknown.first hfound)).bind
        fun root hinside => ?_
      refine (hwf.operationAt hinside).ofAccess.bind fun operation hholds => ?_
      split
      · next func =>
          refine .pure ?_
          rintro _ ⟨⟩
          exact hholds.function func rfl
      · exact .pure_none
      · exact .refuse

theorem componentAttributes_faultless (hwf : s.package.WellFormed)
    {stores : List FieldStore} (hknown : s.package.HoldsStores stores)
    (name : String) :
    Faultless (s.componentAttributes name stores) fun _ => True := by
  unfold componentAttributes
  split
  · exact Faultless.log.bind fun _ _ => .pure trivial
  · next store hfound =>
      exact (attributesWithin_faultless hwf nestingLimit
        (hknown.first hfound)).within

theorem component_faultless (hwf : s.package.WellFormed) {builder : FuncId}
    (hhas : s.package.HasFunc builder) (name : String) (pos : Pos) :
    Faultless (s.component name builder pos) s.package.HoldsComponent := by
  refine (resourceStores_faultless hwf hhas).bind fun stores hknown => ?_
  refine (hwf.funcAt hhas).ofAccess.bind fun f _ => ?_
  have hslots : ∀ slot ∈ LifecycleSlot.all, Faultless (do
      return (← s.lifecycleFunction? stores slot).map (slot, ·) :
        Extract (Option (LifecycleSlot × FuncId)))
      fun found => ∀ entry ∈ found, s.package.HasFunc entry.2 := by
    intro slot _
    refine (lifecycleFunction?_faultless hwf hknown slot).bind
      fun found hinside => .pure ?_
    intro entry hmember
    obtain ⟨func, hsame, rfl⟩ := Option.map_eq_some_iff.1 hmember
    exact hinside func hsame
  refine (Faultless.mapM hslots).bind fun functions hinside => ?_
  refine (componentAttributes_faultless hwf hknown name).bind
    fun list _ => .pure ⟨hhas, ?_⟩
  intro entry hmember
  obtain ⟨found, hinFunctions, hsame⟩ := List.mem_filterMap.1 hmember
  exact hinside found hinFunctions entry hsame

theorem mapComponent_faultless (hwf : s.package.WellFormed) (field : String)
    {entry : MapEntry} (hkey : s.package.HasValue entry.key)
    (hhas : s.package.HasValue entry.value) :
    Faultless (s.mapComponent field entry) s.package.HoldsComponent := by
  refine (hwf.analysisConstString? hkey).bind fun name _ => ?_
  split
  · exact .refuse
  · refine (componentBuilder?_faultless hwf hhas).ofAccess.bind
      fun found hknown => ?_
    split
    · exact .refuse
    · next builder =>
        exact (component_faultless hwf (hknown builder rfl) _ _).within

theorem components_faultless (hwf : s.package.WellFormed)
    {stores : List FieldStore} (hknown : s.package.HoldsStores stores)
    (field : String) :
    Faultless (s.components stores field) fun list =>
      ∀ c ∈ list, s.package.HoldsComponent c := by
  unfold components
  split
  · exact Faultless.log.bind fun _ _ => .pure (by simp)
  · next store hfound =>
      refine (hwf.analysisRoot (hknown.first hfound)).bind fun map hinside => ?_
      refine (hwf.isMap hinside).ofAccess.bind fun isMap _ => ?_
      split
      · refine (hwf.mapEntries hinside).ofAccess.bind fun entries hofEntries =>
          Faultless.mapM fun entry hmember => ?_
        exact mapComponent_faultless hwf field (hofEntries entry hmember).1
          (hofEntries entry hmember).2
      · exact .refuse

theorem extract_faultless (hwf : s.package.WellFormed) :
    Faultless s.extract fun extraction =>
      ∀ c ∈ extraction.dataSources ++ extraction.resources,
        s.package.HoldsComponent c := by
  refine (providerStores_faultless hwf).bind fun stores hknown => ?_
  refine (components_faultless hwf hknown "DataSourcesMap").bind
    fun dataSources hofSources => ?_
  refine (components_faultless hwf hknown "ResourcesMap").bind
    fun resources hofResources => .pure ?_
  exact List.forall_mem_append.2 ⟨hofSources, hofResources⟩

end Subject

end SchemaLint
