import Mathlib.Data.List.Nodup
import SchemaLint.Proofs.Fixture.Lowering.Provider
import SchemaLint.Proofs.Fixture.Reading.Components

/-!
# Reading providers back

Extraction finds the entry point of a package that was built from a fixture,
follows it to the builders, and reads the provider that the fixture declares.
-/

namespace SchemaLint

/-! ## The entry point -/

namespace Package

variable {p : Package}

theorem filter_localFunctions {test : FuncId × Func → Bool} {func : FuncId}
    {f : Func} (hfound : p.funcAt func = .ok f) (hown : p.owns f = true)
    (hpasses : test (func, f) = true)
    (honly : ∀ other g, p.funcAt other = .ok g → test (other, g) = true →
        other = func) : p.localFunctions.filter test = [(func, f)] := by
  let all :=
    p.functions.toList.zipIdx.map fun entry => (FuncId.mk entry.2, entry.1)
  have hmember (other : FuncId) (g : Func) :
      (other, g) ∈ all ↔ p.funcAt other = .ok g := by
    rw [List.mem_map, funcAt_eq_ok_iff]
    constructor
    · rintro ⟨⟨_, index⟩, hinside, ⟨⟩⟩
      simpa using List.mem_zipIdx_iff_getElem?.1 hinside
    · intro hthere
      exact ⟨(g, other.index),
        List.mem_zipIdx_iff_getElem?.2 (by simpa using hthere), rfl⟩
  have hdistinct : all.Nodup := by
    have hnumbers : all.map (fun entry => entry.1.index) =
        List.range' 0 p.functions.toList.length := by
      rw [← List.zipIdx_map_snd, List.map_map]
      rfl
    exact .of_map _ (hnumbers ▸ List.nodup_range')
  have hfiltered : (p.localFunctions.filter test).Nodup :=
    (hdistinct.filter _).filter _
  rw [← List.perm_singleton,
    List.perm_ext_iff_of_nodup hfiltered (List.nodup_singleton _)]
  rintro ⟨other, g⟩
  rw [List.mem_filter, localFunctions, List.mem_filter, hmember,
    List.mem_singleton]
  constructor
  · rintro ⟨⟨hthere, -⟩, hpassed⟩
    obtain rfl := honly other g hthere hpassed
    cases hfound.symm.trans hthere
    rfl
  · rintro ⟨⟩
    exact ⟨⟨hfound, hown⟩, hpasses⟩

theorem IsOwn.owns {func : FuncId} {name : String} {doc : Option String}
    {results : List TypeId} {body : List Instruction}
    (hown : p.IsOwn func name doc results body) :
    ∃ f, p.funcAt func = .ok f ∧ p.owns f = true := by
  obtain ⟨f, hfound, -, hpackage, -, -, hblocks, -⟩ := hown
  exact ⟨f, hfound, by simp [Package.owns, Func.isExternal, hblocks, hpackage]⟩

end Package

/-! ## Entries -/

theorem Package.IsCall.stripBoxing {p : Package} {value : ValueId}
    {callee : FuncId} {args : List ValueId}
    (hcall : p.IsCall value callee args) : p.stripBoxing value = .ok value := by
  obtain ⟨target, hknown, -⟩ := hcall
  simp [Package.stripBoxing, Package.unboxWithin, hknown,
    Operation.transparent?]

theorem Package.IsCall.boxedCall? {s : Subject} {value : ValueId}
    {callee : FuncId} {args : List ValueId}
    (hcall : s.package.IsCall value callee args) :
    s.boxedCall? value = .ok (some (callee, args)) := by
  have hbare := hcall.stripBoxing
  obtain ⟨target, hknown, hfunction⟩ := hcall
  simp [Subject.boxedCall?, hbare, hknown, Package.staticCallee?, hfunction]

theorem Package.IsCall.localCall? {s : Subject} {value : ValueId}
    {callee : FuncId} {args : List ValueId}
    (hcall : s.package.IsCall value callee args) {f : Func}
    (hfound : s.package.funcAt callee = .ok f) :
    s.localCall? value =
      .ok (if s.package.owns f then some callee else none) := by
  simp [Subject.localCall?, hcall.boxedCall?, hfound]

theorem Lowered.IsEntry.componentBuilder? {s : Subject}
    (husual : s.sdk = .usual) {plugin : Plugin}
    (hknown : plugin.Known s.package) {component : Lowered} {entry : MapEntry}
    (hisEntry : component.IsEntry s.package plugin entry) {f : Func}
    (hfound : s.package.funcAt component.builder = .ok f)
    (hown : s.package.owns f = true) :
    s.componentBuilder? entry.value = .ok (some component.builder) := by
  obtain ⟨-, hcalls⟩ := hisEntry
  split at hcalls
  · obtain ⟨name, made, hwrapped, hcall⟩ := hcalls
    obtain ⟨shim, hthere, hpackage, hnamed, hreceiver⟩ := hknown.shim
    obtain ⟨_, hagain, hbodiless⟩ := hknown.outside
    cases hthere.symm.trans hagain
    have hforeign : s.package.owns shim = false := by
      simp [Package.owns, Func.isExternal, hbodiless]
    have hshimName : s.package.funcName plugin.resourceShim =
        .ok s.sdk.resourceShim := by
      simp only [Package.funcName, hthere, Access.ok_bind, hreceiver, hpackage,
        hnamed, husual]
      decide
    simp [Subject.componentBuilder?, hwrapped.localCall? hthere, hforeign,
      hwrapped.boxedCall?, hshimName, hcall.localCall? hfound, hown]
  · simp [Subject.componentBuilder?, hcalls.localCall? hfound, hown]

theorem Lowered.does_builder {p : Package} {plugin : Plugin} {kind : String}
    {components : List (String × ComponentFixture)} {list : List Lowered}
    (hbuilds : List.Forall₂ (Lowered.Builds p plugin kind) components list) :
    ∀ lowered ∈ list, ∃ inner, p.Does lowered.builder inner ∧
      calleesOf inner = [] ∧ storesOf (libraryName "Provider") inner = [] := by
  induction hbuilds with
  | nil => exact nofun
  | cons hfirst _ ih =>
      obtain ⟨-, -, slots, inner, resource, hmade⟩ := hfirst
      have honly := hmade.fills.only
      exact List.forall_mem_cons.2 ⟨⟨inner, hmade.does, honly.calleesOf_eq_nil,
          honly.storesOf_provider⟩, ih⟩

namespace ProviderFixture.Built

variable {fixture : ProviderFixture} {s : Subject} {plugin : Plugin}
  {dataList resourceList : List Lowered} {entry : FuncId}
  {effects : List Effect}
  (hbuilt : fixture.Built s.package plugin dataList resourceList entry effects)
  (husual : s.sdk = .usual)

include hbuilt husual

theorem entryPoints : s.entryPoints = .ok [entry] := by
  obtain ⟨body, hown, -⟩ := hbuilt.own
  obtain ⟨f, hfound, hnamed, hpackage, hreceiver, -, hblocks, hresults⟩ := hown
  obtain ⟨underlying, hprovider⟩ := hbuilt.known.resourceProvider
  have hcandidates : s.package.localFunctions.filter (fun candidate =>
        candidate.2.name == s.sdk.entryPoint && candidate.2.receiver.isNone) =
      [(entry, f)] := by
    refine Package.filter_localFunctions hfound ?_ ?_ ?_
    · simp [Package.owns, Func.isExternal, hblocks, hpackage]
    · simp [husual, hnamed, hreceiver, Sdk.usual]
    · intro other g hthere hpasses
      by_contra hapart
      have hinner := hbuilt.only other g hthere hapart
      simp [husual, Sdk.usual] at hpasses
      exact hinner hpasses.1
  have hnamed : s.package.typeName plugin.resourceProvider =
      .ok (qualified terraformPackage "ResourceProvider") :=
    Package.typeName_named hprovider
  have haccepted : qualified terraformPackage "ResourceProvider" ∈
      s.sdk.rootTypes := by
    rw [husual]
    decide
  rw [Subject.entryPoints, hcandidates]
  simp [List.filterM, List.filterAuxM, hresults, hnamed, haccepted]

omit husual in
theorem does_entry : s.package.Does entry effects := by
  obtain ⟨body, hown, hdone⟩ := hbuilt.own
  exact ⟨body, hown.instructions, hdone⟩

omit husual in
/-- The functions that the entry point calls call no others, and store nothing
into providers. -/
theorem does_callee {callee : FuncId}
    (hcalled : Lowered.Calls plugin (dataList ++ resourceList) callee) :
    ∃ inner, s.package.Does callee inner ∧ calleesOf inner = [] ∧
      storesOf (libraryName "Provider") inner = [] := by
  rcases hcalled with rfl | ⟨component, hmember, rfl⟩
  · obtain ⟨f, hfound, hbodiless⟩ := hbuilt.known.outside
    refine ⟨[], ⟨[], ?_, .nil⟩, rfl, rfl⟩
    simp [Package.instructions, hfound, Func.instructions, Func.body, hbodiless]
  · rcases List.mem_append.1 hmember with hhere | hthere
    · exact Lowered.does_builder hbuilt.dataSources component hhere
    · exact Lowered.does_builder hbuilt.resources component hthere

theorem providerStores :
    s.providerStores.Yields (storesOf (libraryName "Provider") effects) := by
  obtain ⟨provider, map, pos, map', pos', hstores, -, -⟩ := hbuilt.does.maps
  obtain ⟨body, ⟨f, hfound, -⟩, -⟩ := hbuilt.own
  have hreached :
      (s.package.reachedStores entry (libraryName "Provider") :
        Extract (List FieldStore)).Yields
      (storesOf (libraryName "Provider") effects) :=
    hbuilt.does_entry.reachedStores fun callee hmember =>
      hbuilt.does_callee (hbuilt.does.calls callee hmember)
  rw [hstores] at hreached ⊢
  refine Report.bind_yields.2
    ⟨_, Analysis.monadLift_yields.2 (hbuilt.entryPoints husual), ?_⟩
  refine Report.bind_yields.2 ⟨f, Analysis.monadLift_yields.2 hfound, ?_⟩
  rw [← Sdk.usual_providerType, ← husual] at hreached
  refine Report.bind_yields.2
    ⟨_, Report.mapM_yields.2 (.cons hreached .nil), ?_⟩
  have hbases : Subject.mapBases ([[⟨provider, "DataSourcesMap", map, pos⟩,
          ⟨provider, "ResourcesMap", map', pos'⟩]] :
        List (List FieldStore)).flatten = [provider] := by
    simp [Subject.mapBases, Subject.isComponentMap, List.eraseDups_cons]
  simp only [hbases]
  exact Report.pure_yields.2 (by simp)

omit husual in
theorem maps :
    ∃ base map pos map' pos',
      firstStore? (storesOf (libraryName "Provider") effects) "DataSourcesMap" =
        some ⟨base, "DataSourcesMap", map, pos⟩ ∧
      firstStore? (storesOf (libraryName "Provider") effects) "ResourcesMap" =
        some ⟨base, "ResourcesMap", map', pos'⟩ ∧
      HoldsComponents s.package plugin entry effects map dataList ∧
      HoldsComponents s.package plugin entry effects map' resourceList := by
  obtain ⟨base, map, pos, map', pos', hstores, hholds, hholds'⟩ :=
    hbuilt.does.maps
  exact ⟨base, map, pos, map', pos', by simp [hstores, firstStore?],
    by simp [hstores, firstStore?], hholds, hholds'⟩

end ProviderFixture.Built

/-! ## Components -/

section

variable {s : Subject} {plugin : Plugin} (husual : s.sdk = .usual)
  (hwf : s.package.WellFormed) (hknown : plugin.Known s.package)
  (hnamed : s.providerName = (providerName? s.package.path).getD "")
  {kind : String}

include husual hwf hknown hnamed

theorem Lowered.Builds.mapComponent {component : String × ComponentFixture}
    {lowered : Lowered}
    (hbuilds : lowered.Builds s.package plugin kind component)
    (hreadable : component.2.IsReadable) {entry : MapEntry}
    (hisEntry : lowered.IsEntry s.package plugin entry) (field : String) :
    ∃ found, (s.mapComponent field entry).Yields found ∧
      found.outline s.package =
        .ok (ComponentFixture.declared s.package.path kind component) := by
  obtain ⟨name, fixture⟩ := component
  obtain ⟨rfl, -, slots, effects, resource, hmade⟩ := hbuilds
  obtain ⟨results, seg, pos, hown, -, -⟩ := hmade.own
  obtain ⟨f, hthere, howned⟩ := hown.owns
  obtain ⟨found, hyielded, houtlined⟩ :=
    hmade.component husual hwf hknown hnamed hreadable.1 hreadable.2 entry.pos
  refine ⟨found, ?_, houtlined⟩
  refine Report.bind_yields.2
    ⟨some lowered.name, constString?_of_isConst hisEntry.1, ?_⟩
  refine Report.bind_yields.2
    ⟨some lowered.builder, ?_, Analysis.within_yields.2 hyielded⟩
  exact Analysis.monadLift_yields.2
    (hisEntry.componentBuilder? husual hknown hthere howned)

/-- The entries of a map are read as the components that are declared, in their
order. -/
theorem mapComponents_yield {components : List (String × ComponentFixture)}
    {list : List Lowered} {entries : List MapEntry}
    (hbuilds :
      List.Forall₂ (Lowered.Builds s.package plugin kind) components list)
    (hreadable : ∀ component ∈ components, component.2.IsReadable)
    (hisEntries : List.Forall₂ (Lowered.IsEntry s.package plugin) list entries)
    (field : String) :
    ∃ found, (entries.mapM (s.mapComponent field)).Yields found ∧
      found.mapM (Component.outline s.package) =
        .ok
          (components.map (ComponentFixture.declared s.package.path kind)) := by
  induction hbuilds generalizing entries with
  | nil =>
      cases hisEntries
      exact ⟨[], Report.pure_yields.2 rfl, rfl⟩
  | cons hfirst _ ih =>
      obtain _ | ⟨hisEntry, hisEntries⟩ := hisEntries
      obtain ⟨hfirstReadable, hreadable⟩ := List.forall_mem_cons.1 hreadable
      obtain ⟨found, hyielded, houtlined⟩ :=
        hfirst.mapComponent husual hwf hknown hnamed hfirstReadable hisEntry
          field
      obtain ⟨others, hyields, houtlines⟩ := ih hreadable hisEntries
      refine ⟨found :: others, ?_, ?_⟩
      · rw [Report.mapM_yields] at hyields ⊢
        exact .cons hyielded hyields
      · rw [List.mapM_cons, houtlined, Access.ok_bind, houtlines,
          Access.ok_bind, List.map_cons, Access.pure_eq]

private theorem components_yield {components : List (String × ComponentFixture)}
    {list : List Lowered} {func : FuncId} {effects : List Effect}
    {stores : List FieldStore} {field : String} {base map : ValueId} {pos : Pos}
    (hfirst : firstStore? stores field = some ⟨base, field, map, pos⟩)
    (hdoes : s.package.Does func effects)
    (hbuilds :
      List.Forall₂ (Lowered.Builds s.package plugin kind) components list)
    (hholds : HoldsComponents s.package plugin func effects map list)
    (hreadable : ∀ component ∈ components, component.2.IsReadable) :
    ∃ found, (s.components stores field).Yields found ∧
      found.mapM (Component.outline s.package) =
        .ok
          (components.map (ComponentFixture.declared s.package.path kind)) := by
  obtain ⟨hisMade, hisEntries⟩ := hholds
  obtain ⟨found, hyielded, houtlined⟩ :=
    mapComponents_yield husual hwf hknown hnamed hbuilds hreadable hisEntries
      field
  refine ⟨found, ?_, houtlined⟩
  rw [Subject.components, hfirst]
  refine Report.bind_yields.2 ⟨map, Analysis.root_yields.2 hisMade.root, ?_⟩
  refine Report.bind_yields.2
    ⟨true, Analysis.monadLift_yields.2 hisMade.isMap, ?_⟩
  exact Report.bind_yields.2
    ⟨_, Analysis.monadLift_yields.2 (hdoes.mapEntries_made hisMade), hyielded⟩

end

/-! ## Providers -/

theorem ProviderFixture.Built.extract {fixture : ProviderFixture} {s : Subject}
    {plugin : Plugin} {dataList resourceList : List Lowered} {entry : FuncId}
    {effects : List Effect}
    (hbuilt :
      fixture.Built s.package plugin dataList resourceList entry effects)
    (husual : s.sdk = .usual)
    (hnamed : s.providerName = (providerName? s.package.path).getD "")
    (hreadable :
      ∀ component ∈ fixture.dataSources ++ fixture.resources,
        component.2.IsReadable) :
    ∃ dataSources resources, s.extract.Yields ⟨dataSources, resources⟩ ∧
      dataSources.mapM (Component.outline s.package) =
        .ok fixture.declared.dataSources ∧
      resources.mapM (Component.outline s.package) =
        .ok fixture.declared.resources := by
  obtain ⟨hdataReadable, hresourceReadable⟩ :=
    List.forall_mem_append.1 hreadable
  obtain ⟨provider, map, pos, map', pos', hfirst, hsecond, hholds, hholds'⟩ :=
    hbuilt.maps
  have hstored := hbuilt.providerStores husual
  obtain ⟨dataSources, hdataYield, hdataOutline⟩ :=
    components_yield husual hbuilt.wellFormed hbuilt.known hnamed hfirst
      hbuilt.does_entry hbuilt.dataSources hholds hdataReadable
  obtain ⟨resources, hresourceYield, hresourceOutline⟩ :=
    components_yield husual hbuilt.wellFormed hbuilt.known hnamed hsecond
      hbuilt.does_entry hbuilt.resources hholds' hresourceReadable
  rw [hbuilt.path] at hdataOutline hresourceOutline
  refine ⟨dataSources, resources, ?_, hdataOutline, hresourceOutline⟩
  refine Report.bind_yields.2 ⟨_, hstored, ?_⟩
  exact Report.bind_yields.2 ⟨_, hdataYield,
    Report.bind_yields.2 ⟨_, hresourceYield, Report.pure_yields.2 rfl⟩⟩

/-- Extraction undoes lowering: from the package of a fixture it reads the
provider that the fixture declares, when every constant that is given for a type
is one that there is and resources are not nested too deep. -/
theorem ofPackage_build_yields_declared (fixture : ProviderFixture)
    (package : Package) (hbuilt : fixture.build = .ok package)
    (hreadable :
      ∀ component ∈ fixture.dataSources ++ fixture.resources,
        component.2.IsReadable) :
    ∃ provider, (Provider.ofPackage package Sdk.usual).Yields provider ∧
      provider.package = package ∧ provider.outline = .ok fixture.declared := by
  obtain ⟨plugin, dataList, resourceList, entry, effects, hparts⟩ :=
    ProviderFixture.build_built hbuilt
  let s : Subject := ⟨package, Sdk.usual, (providerName? package.path).getD ""⟩
  obtain ⟨dataSources, resources, hextracted, hdataOutline, hresourceOutline⟩ :=
    ProviderFixture.Built.extract (s := s) hparts rfl rfl hreadable
  refine ⟨⟨s.providerName, package, dataSources, resources⟩, ?_, rfl, ?_⟩
  · exact Report.bind_yields.2 ⟨_, hextracted, Report.pure_yields.2 rfl⟩
  · refine Access.bind_eq_ok_iff.2
      ⟨_, hdataOutline, Access.bind_eq_ok_iff.2 ⟨_, hresourceOutline, ?_⟩⟩
    simp only [s, hparts.path]
    rfl

/-- A data source behind the shim, a resource with nested attributes, and one
without a schema. -/
def orchard : ProviderFixture where
  dataSources := [("example_image", {
    doc :=
      some
        "dataSourceExampleImage reads images.\nAn image is found by its name.\n"
    shim := true
    schema := some [
      ("tags", {
        typeConst := some 6, optional := true, negated := true
        elem := some { schema := some { type := some "string" } } }),
      ("name", { type := some "string"
                 required := true
                 description := some " The name. " })]
    read := some { calls := ["set_id"] } })]
  resources := [
    ("example_disk", {
      schema := some [
        ("layout", {
          type := some "list"
          required := true
          minItems := some 1
          maxItems := some 4
          elem := some {
            resource :=
              some [("size", { typeConst := some 2, optional := true }),
                ("label", { isDynamic := true })] } }),
        ("hidden", { computed := true })]
      create := some { helper := some { calls := ["set_id"] } }
      delete := some { sdk := some "remove_from_state" } }),
    ("example_bare", {})]

theorem orchard_ofPackage_build_yields_declared :
    ∃ package provider, orchard.build = .ok package ∧
      (∀ component ∈ orchard.dataSources ++ orchard.resources,
        component.2.IsReadable) ∧
      (Provider.ofPackage package Sdk.usual).Yields provider ∧
      provider.package = package ∧ provider.outline = .ok orchard.declared := by
  have hsucceeds : orchard.build.isOk = true := by decide +kernel
  have hreadable : ∀ component ∈ orchard.dataSources ++ orchard.resources,
      component.2.IsReadable := by
    simp [orchard, ComponentFixture.IsReadable, AttributeFixture.HaveKnownCodes,
      AttributeFixture.HasKnownCodes, AttributeFixture.ElemHasKnownCodes,
      AttributeFixture.nestingAll, AttributeFixture.nesting,
      AttributeFixture.nestingElem]
  cases hbuilt : orchard.build with
  | error failure => simp [hbuilt, Except.isOk, Except.toBool] at hsucceeds
  | ok package =>
      obtain ⟨provider, hyielded, hsame, houtlined⟩ :=
        ofPackage_build_yields_declared orchard package hbuilt hreadable
      exact ⟨package, provider, rfl, hreadable, hyielded, hsame, houtlined⟩

end SchemaLint
