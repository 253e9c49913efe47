import SchemaLint.Proofs.Extraction.Search
import SchemaLint.Proofs.Fixture.Reading.Provider

/-!
# What is extracted from built packages

Not every attribute that a fixture can ask for can be made out, and some stop
the extraction. Whenever it comes to an end, every component has the lifecycle
functions and the attribute names that its fixture gives.
-/

namespace SchemaLint

structure Component.ReadFrom (component : Component) (slots : Slots)
    (names : List String) : Prop where
  declared : component.declared = slots
  sorted : SortedByBytes component.attributes
  named : (component.attributes.map Attribute.name).Perm names

namespace AttributeFixture

variable {s : Subject} {plugin : Plugin} {func : FuncId} {effects : List Effect}
  {nested : ValueId → Extract AttributeList}

private theorem entryAttribute?_name {entry : MapEntry} {name : String}
    {found : Option Attribute}
    (hconstant : s.package.IsConst entry.key (.string name))
    (hyields : (s.entryAttribute? nested entry).Yields found) :
    ∃ attr, found = some attr ∧ attr.name = name := by
  have hknown : (Analysis.constString? s.package entry.key :
      Extract (Option String)).Yields (some name) :=
    constString?_of_isConst hconstant
  obtain ⟨text, hread, hofName⟩ := Report.bind_yields.1 hyields
  cases hread.unique hknown
  obtain ⟨attr, -, rfl⟩ :=
    Report.map_yields.1 (Analysis.within_yields.1 hofName)
  obtain ⟨⟨key, hroot, hoperation⟩, -, -⟩ :=
    Subject.entryAttribute?_cases hyields
  cases hroot.symm.trans hconstant.root
  cases hoperation.symm.trans hconstant
  exact ⟨attr, rfl, rfl⟩

theorem Entries.names {attributes : AttributeFixtures} {entries : List MapEntry}
    {found : List (Option Attribute)}
    (hlisted : Entries s.package plugin func effects entries attributes)
    (hrelated :
      List.Forall₂
        (fun entry attr => (s.entryAttribute? nested entry).Yields attr) entries
        found) :
    (found.filterMap id).map Attribute.name = attributes.map Prod.fst := by
  induction hrelated generalizing attributes with
  | nil =>
      cases hlisted
      rfl
  | cons hfirst _ ih =>
      obtain _ | ⟨hconstant, -, hothers⟩ := hlisted
      obtain ⟨attr, rfl, rfl⟩ := entryAttribute?_name hconstant hfirst
      exact congrArg (attr.name :: ·) (ih hothers)

private theorem Entries.attributesWithin_names {attributes : AttributeFixtures}
    {map : ValueId} {depth : Nat} {list : AttributeList}
    (hdoes : s.package.Does func effects) (hmade : s.package.IsMade func map)
    (hlisted :
      Entries s.package plugin func effects (updatesOf map effects) attributes)
    (hyields : (s.attributesWithin depth map).Yields list) :
    SortedByBytes list.attributes ∧
      (list.attributes.map Attribute.name).Perm (attributes.map Prod.fst) := by
  obtain ⟨nested, hsame⟩ : ∃ nested, s.attributesWithin depth =
      s.schemaMap nested := by
    cases depth <;> exact ⟨_, rfl⟩
  rw [hsame] at hyields
  obtain ⟨root, htraced,
      ⟨hnotMap, -⟩ | ⟨entries, found, -, hofMap, hrelated, rfl⟩⟩ :=
    Subject.schemaMap_cases hyields
  · cases htraced.symm.trans hmade.root
    cases hnotMap.symm.trans hmade.isMap
  · cases htraced.symm.trans hmade.root
    cases hofMap.symm.trans (hdoes.mapEntries_made hmade)
    refine ⟨sortByName_sorted _, ?_⟩
    rw [← hlisted.names hrelated]
    exact (sortBy_perm _).map _

end AttributeFixture

def ComponentFixture.FoundAs (p : Package) (plugin : Plugin)
    (entry : String × ComponentFixture) (component : Component) : Prop :=
  component.name = entry.1 ∧ ∃ stem builder slots effects resource,
    entry.2.Made p plugin stem builder slots effects resource ∧
      component.ReadFrom slots ((entry.2.schema.getD []).map Prod.fst)

section

variable {s : Subject} {plugin : Plugin} (husual : s.sdk = .usual)
  (hknown : plugin.Known s.package)

include husual hknown

theorem ComponentFixture.Made.readFrom {stem name : String}
    {fixture : ComponentFixture} {builder : FuncId} {slots : Slots}
    {effects : List Effect} {resource : ValueId} {pos : Pos}
    {component : Component}
    (hmade : fixture.Made s.package plugin stem builder slots effects resource)
    (hyields : (s.component name builder pos).Yields component) :
    component.name = name ∧
      component.ReadFrom slots ((fixture.schema.getD []).map Prod.fst) := by
  obtain ⟨stores, last, hlisted, hassigned, hstored⟩ := hmade.fills.stored
  have hresourceStores := hmade.resourceStores husual hknown
  rw [hlisted] at hresourceStores
  simp only [Subject.component, Report.bind_yields,
    Report.pure_yields] at hyields
  obtain ⟨all, hofBuilder, f, -, functions, hofSlots, list, hofSchema, rfl⟩ :=
    hyields
  cases hofBuilder.unique hresourceStores
  obtain rfl := hofSlots.unique (lifecycleFunctions_yields hassigned hstored)
  suffices hread : SortedByBytes list.attributes ∧
      (list.attributes.map Attribute.name).Perm
        ((fixture.schema.getD []).map Prod.fst) from
    ⟨rfl, hmade.filled.filterMap_lookup, hread.1, hread.2⟩
  have hfirst :=
    hassigned.firstStore?_eq_none
      (lookup_slotAssignments_schema s.package slots)
  unfold Subject.componentAttributes at hofSchema
  rw [firstStore?_append, hfirst, Option.none_or] at hofSchema
  generalize fixture.schema = schema at hstored
  cases hstored with
  | absent =>
      obtain ⟨-, -, hlost⟩ := Report.bind_yields.1 hofSchema
      cases Report.pure_yields.1 hlost
      exact ⟨.nil, .refl _⟩
  | @present store attributes hnamed hisMade hentries =>
      have hfound : firstStore? [store] "Schema" = some store := by
        simp [firstStore?, hnamed]
      rw [hfound] at hofSchema
      exact hentries.attributesWithin_names hmade.does hisMade
        (Analysis.within_yields.1 hofSchema)

theorem Lowered.Builds.foundAs {kind field : String}
    {entry : String × ComponentFixture} {lowered : Lowered} {listed : MapEntry}
    {component : Component}
    (hbuilds : lowered.Builds s.package plugin kind entry)
    (hisEntry : lowered.IsEntry s.package plugin listed)
    (hyields : (s.mapComponent field listed).Yields component) :
    ComponentFixture.FoundAs s.package plugin entry component := by
  obtain ⟨name, fixture⟩ := entry
  obtain ⟨rfl, -, slots, effects, resource, hmade⟩ := hbuilds
  obtain ⟨results, seg, pos, hown, -, -⟩ := hmade.own
  obtain ⟨f, hthere, howned⟩ := hown.owns
  obtain ⟨text, hread, hofName⟩ := Report.bind_yields.1 hyields
  cases hread.unique (constString?_of_isConst hisEntry.1)
  obtain ⟨builder, hasked, hofBuilder⟩ := Report.bind_yields.1 hofName
  cases (Analysis.monadLift_yields.1 hasked).symm.trans
    (hisEntry.componentBuilder? husual hknown hthere howned)
  obtain ⟨hnamed, hreadFrom⟩ :=
    hmade.readFrom husual hknown (Analysis.within_yields.1 hofBuilder)
  exact ⟨hnamed, _, _, slots, effects, resource, hmade, hreadFrom⟩

private theorem mapComponents_foundAs {kind field : String}
    {entries : List (String × ComponentFixture)} {list : List Lowered}
    {listed : List MapEntry} {components : List Component}
    (hbuilds : List.Forall₂ (Lowered.Builds s.package plugin kind) entries list)
    (hisEntries : List.Forall₂ (Lowered.IsEntry s.package plugin) list listed)
    (hyields :
      List.Forall₂
        (fun entry component => (s.mapComponent field entry).Yields component)
        listed components) :
    List.Forall₂ (ComponentFixture.FoundAs s.package plugin) entries
      components := by
  induction hbuilds generalizing listed components with
  | nil =>
      cases hisEntries
      cases hyields
      exact .nil
  | cons hfirst _ ih =>
      obtain _ | ⟨hisEntry, hisEntries⟩ := hisEntries
      obtain _ | ⟨hyielded, hyields⟩ := hyields
      exact .cons (hfirst.foundAs husual hknown hisEntry hyielded)
        (ih hisEntries hyields)

private theorem components_foundAs {kind field : String}
    {entries : List (String × ComponentFixture)} {list : List Lowered}
    {func : FuncId} {effects : List Effect} {stores : List FieldStore}
    {base map : ValueId} {pos : Pos} {components : List Component}
    (hfirst : firstStore? stores field = some ⟨base, field, map, pos⟩)
    (hdoes : s.package.Does func effects)
    (hbuilds : List.Forall₂ (Lowered.Builds s.package plugin kind) entries list)
    (hholds : HoldsComponents s.package plugin func effects map list)
    (hyields : (s.components stores field).Yields components) :
    List.Forall₂ (ComponentFixture.FoundAs s.package plugin) entries
      components := by
  obtain ⟨hisMade, hisEntries⟩ := hholds
  rw [Subject.components, hfirst] at hyields
  obtain ⟨root, htraced, hyields⟩ := Report.bind_yields.1 hyields
  cases (Analysis.root_yields.1 htraced).symm.trans hisMade.root
  obtain ⟨isMap, hasked, hyields⟩ := Report.bind_yields.1 hyields
  cases (Analysis.monadLift_yields.1 hasked).symm.trans hisMade.isMap
  obtain ⟨listed, hread, hyields⟩ := Report.bind_yields.1 hyields
  cases (Analysis.monadLift_yields.1 hread).symm.trans
    (hdoes.mapEntries_made hisMade)
  exact mapComponents_foundAs husual hknown hbuilds hisEntries
    (Report.mapM_yields.1 hyields)

end

theorem ProviderFixture.Built.foundAs {fixture : ProviderFixture} {p : Package}
    {plugin : Plugin} {dataList resourceList : List Lowered} {entry : FuncId}
    {effects : List Effect} {provider : Provider}
    (hbuilt : fixture.Built p plugin dataList resourceList entry effects)
    (hyields : (Provider.ofPackage p .usual).Yields provider) :
    List.Forall₂ (ComponentFixture.FoundAs p plugin) fixture.dataSources
        provider.dataSources ∧
      List.Forall₂ (ComponentFixture.FoundAs p plugin) fixture.resources
        provider.resources := by
  obtain ⟨extraction, hextracted, hdone⟩ := Report.bind_yields.1 hyields
  cases Report.pure_yields.1 hdone
  obtain ⟨stores, hofEntry, hfurther⟩ := Report.bind_yields.1 hextracted
  obtain ⟨dataSources, hdataRead, hfurther⟩ := Report.bind_yields.1 hfurther
  obtain ⟨resources, hresourcesRead, hdone⟩ := Report.bind_yields.1 hfurther
  cases Report.pure_yields.1 hdone
  let s : Subject := ⟨p, .usual, (providerName? p.path).getD ""⟩
  have hofBuilt : fixture.Built s.package plugin dataList resourceList entry
      effects := hbuilt
  cases hofEntry.unique (hofBuilt.providerStores rfl)
  obtain ⟨base, map, pos, map', pos', hfirst, hsecond, hholds, hholds'⟩ :=
    hofBuilt.maps
  have hdoes := hofBuilt.does_entry
  exact ⟨components_foundAs rfl hbuilt.known hfirst hdoes hbuilt.dataSources
      hholds hdataRead,
    components_foundAs rfl hbuilt.known hsecond hdoes hbuilt.resources hholds'
      hresourcesRead⟩

end SchemaLint
