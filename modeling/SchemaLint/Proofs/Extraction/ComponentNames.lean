import SchemaLint.Proofs.Bodies.UpdateOrder
import SchemaLint.Proofs.Lists

/-!
# Names of components

Each update of a component map makes a component of its own, named by the key. A
key that is put into a map twice is the name of two components, so names are
unique exactly where the keys of the updates are.
-/

namespace SchemaLint

namespace Subject

variable {s : Subject} {extraction : Extraction}

/-- The updates of the map that the provider has in a field, none where it has
no map. -/
inductive FieldEntries (s : Subject) (field : String) : List MapEntry → Prop
  | absent {stores} :
    s.providerStores.Yields stores → firstStore? stores field = none →
      FieldEntries s field []
  | stored {stores store map entries} :
    s.providerStores.Yields stores → firstStore? stores field = some store →
    s.package.root store.value = .ok map → s.package.isMap map = .ok true →
    s.package.mapEntries map = .ok entries →
    FieldEntries s field entries

/-- The component has the name, the builder and the position of a map update. -/
structure EntryComponent (s : Subject) (entry : MapEntry)
    (component : Component) : Prop where
  name : s.package.IsText entry.key component.name
  builder : s.componentBuilder? entry.value = .ok (some component.builder)
  pos : component.pos = entry.pos

theorem EntryComponent.keysApart_iff {entry entry' : MapEntry}
    {component component' : Component} (hone : s.EntryComponent entry component)
    (hother : s.EntryComponent entry' component') :
    s.package.KeysApart entry entry' ↔ component.name ≠ component'.name := by
  constructor
  · intro hapart hsame
    exact hapart component.name hone.name (hsame ▸ hother.name)
  · intro hdiffer text hofOne hofOther
    exact hdiffer
      ((hone.name.unique hofOne).trans (hofOther.unique hother.name))

theorem nodup_names_iff {entries : List MapEntry} {components : List Component}
    (hrelated : List.Forall₂ s.EntryComponent entries components) :
    (components.map Component.name).Nodup ↔
      entries.Pairwise s.package.KeysApart := by
  rw [List.Nodup, List.pairwise_map]
  exact (pairwise_iff_of_forall₂ hrelated EntryComponent.keysApart_iff).symm

private theorem components_fieldEntries {stores : List FieldStore}
    (hofProvider : s.providerStores.Yields stores) {field : String}
    {components : List Component}
    (hyields : (s.components stores field).Yields components) :
    ∃ entries, s.FieldEntries field entries ∧
      List.Forall₂ s.EntryComponent entries components := by
  obtain ⟨habsent, rfl⟩ |
      ⟨store, map, entries, hstored, htraced, hisMap, hofMap, hrelated⟩ :=
    components_entries hyields
  · exact ⟨[], .absent hofProvider habsent, .nil⟩
  · refine ⟨entries, .stored hofProvider hstored htraced hisMap hofMap,
      hrelated.imp fun entry component hmade => ?_⟩
    obtain ⟨hname, hbuilder, hpos, -⟩ := mapComponent_cases hmade
    exact ⟨hname, hbuilder, hpos⟩

/-- The components are the updates of the two maps of the provider, one for one
and in order. No two data sources have the same name exactly when no two updates
of their map have the same key, and so for resources. -/
theorem component_names_distinct_iff_keys_apart
    (hextracted : s.extract.Yields extraction) :
    (∃ entries, s.FieldEntries "DataSourcesMap" entries ∧
        List.Forall₂ s.EntryComponent entries extraction.dataSources ∧
        ((extraction.dataSources.map Component.name).Nodup ↔
          entries.Pairwise s.package.KeysApart)) ∧
      (∃ entries, s.FieldEntries "ResourcesMap" entries ∧
        List.Forall₂ s.EntryComponent entries extraction.resources ∧
        ((extraction.resources.map Component.name).Nodup ↔
          entries.Pairwise s.package.KeysApart)) := by
  simp only [extract, Report.bind_yields, Report.pure_yields] at hextracted
  obtain ⟨stores, hofProvider, dataSources, hofSources, resources, hofResources,
      rfl⟩ := hextracted
  obtain ⟨sourceEntries, hinSources, hsources⟩ :=
    components_fieldEntries hofProvider hofSources
  obtain ⟨resourceEntries, hinResources, hresources⟩ :=
    components_fieldEntries hofProvider hofResources
  exact ⟨⟨sourceEntries, hinSources, hsources, nodup_names_iff hsources⟩,
    ⟨resourceEntries, hinResources, hresources, nodup_names_iff hresources⟩⟩

/-- A resource that is put into the map twice under one key. -/
def doubledSubject : Subject :=
  { trellisSubject with
    package :=
      espalier [.mapUpdate ⟨3⟩ ⟨4⟩ ⟨5⟩ ⟨1⟩, .mapUpdate ⟨3⟩ ⟨4⟩ ⟨5⟩ ⟨2⟩] [] }

theorem doubled_extract :
    ∃ extraction, doubledSubject.extract.Yields extraction ∧
      extraction.resources.map Component.name = ["a", "a"] := by
  have hfound : (doubledSubject.extract.outcome.toOption.map fun extraction =>
      extraction.resources.map Component.name) = some ["a", "a"] := by
        decide +kernel
  obtain ⟨extraction, hresult, hshown⟩ := Option.map_eq_some_iff.1 hfound
  exact ⟨extraction, Report.yields_of_toOption hresult, hshown⟩

theorem doubled_component_names_distinct_iff_keys_apart :
    ∃ extraction, doubledSubject.extract.Yields extraction ∧
      (∃ entries, doubledSubject.FieldEntries "DataSourcesMap" entries ∧
        List.Forall₂ doubledSubject.EntryComponent entries
          extraction.dataSources ∧
        ((extraction.dataSources.map Component.name).Nodup ↔
          entries.Pairwise doubledSubject.package.KeysApart)) ∧
      (∃ entries, doubledSubject.FieldEntries "ResourcesMap" entries ∧
        List.Forall₂ doubledSubject.EntryComponent entries
          extraction.resources ∧
        ((extraction.resources.map Component.name).Nodup ↔
          entries.Pairwise doubledSubject.package.KeysApart)) := by
  obtain ⟨extraction, hextracted, -⟩ := doubled_extract
  exact ⟨extraction, hextracted,
    component_names_distinct_iff_keys_apart hextracted⟩

theorem doubled_component_names_repeat :
    doubledSubject.package.validate = .ok () ∧
      ∃ extraction, doubledSubject.extract.Yields extraction ∧
        ¬(extraction.resources.map Component.name).Nodup := by
  obtain ⟨extraction, hextracted, hnames⟩ := doubled_extract
  exact ⟨by decide, extraction, hextracted, by simp [hnames]⟩

end Subject

end SchemaLint
