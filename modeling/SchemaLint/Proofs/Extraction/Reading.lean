import SchemaLint.Proofs.Lists
import SchemaLint.Proofs.Queries.Calls
import SchemaLint.Proofs.Sorting
import SchemaLint.Proofs.Yields
import SchemaLint.Provider.Extraction

/-!
# What reading a schema gives

Which value a schema nested in an attribute is read from, said without reading
it, and what each function that reads a part of a component gives: an attribute
for each update of a schema map, with the attributes of the schema nested in it
as its children.
-/

namespace SchemaLint

def AttributeType.HasInside (type : AttributeType) : Prop :=
  type = .list ∨ type = .set ∨ type = .map

namespace Subject

variable {s : Subject}

/-! ## Nested schemas -/

def EntryStores (s : Subject) (entry : MapEntry) (stores : List FieldStore) :
    Prop :=
  ∃ schema, s.package.root entry.value = .ok schema ∧
    s.package.isAllocOf schema s.sdk.schemaType = .ok true ∧
    (s.package.instanceStores schema s.sdk.schemaType :
      Extract (List FieldStore)).Yields stores

/-- An attribute of the given type has an element, and that traces to the
allocation of a resource. -/
structure ResourceElement (s : Subject) (stores : List FieldStore)
    (type : AttributeType) (elem : ValueId) : Prop where
  hasElement :
    type = .list ∨ type = .set ∨
      type = .map ∧ firstStore? stores "Schema" = none
  stored : ∃ store, firstStore? stores "Elem" = some store ∧
      s.package.root store.value = .ok elem
  isResource : s.package.isAllocOf elem s.sdk.resourceType = .ok true

/-- The value from which the attributes inside an attribute are to be read: the
schema of a map, or the schema of the resource that is the element of a list, a
set or a map. -/
inductive NestsSchema (s : Subject) (stores : List FieldStore)
    (type : AttributeType) : ValueId → Prop
  | schema {store} :
    type = .map → firstStore? stores "Schema" = some store →
      NestsSchema s stores type store.value
  | element {elem fields store} :
    s.ResourceElement stores type elem →
      (s.package.instanceStores elem s.sdk.resourceType :
        Extract (List FieldStore)).Yields fields →
      firstStore? fields "Schema" = some store →
      NestsSchema s stores type store.value

/-- An attribute of the given type has no schema inside, and no resource that
would have to have one. -/
structure Leaf (s : Subject) (stores : List FieldStore) (type : AttributeType) :
    Prop where
  noSchema : ∀ value, ¬s.NestsSchema stores type value
  noResource : ∀ elem, ¬s.ResourceElement stores type elem

theorem EntryStores.unique {entry : MapEntry} {stores stores' : List FieldStore}
    (hone : s.EntryStores entry stores) (hother : s.EntryStores entry stores') :
    stores = stores' := by
  obtain ⟨schema, htraced, -, hyields⟩ := hone
  obtain ⟨schema', htraced', -, hyields'⟩ := hother
  cases htraced.symm.trans htraced'
  exact hyields.unique hyields'

theorem ResourceElement.unique {stores : List FieldStore} {type : AttributeType}
    {elem elem' : ValueId} (hone : s.ResourceElement stores type elem)
    (hother : s.ResourceElement stores type elem') : elem = elem' := by
  obtain ⟨store, hfound, htraced⟩ := hone.stored
  obtain ⟨store', hfound', htraced'⟩ := hother.stored
  cases hfound.symm.trans hfound'
  cases htraced.symm.trans htraced'
  rfl

theorem NestsSchema.unique {stores : List FieldStore} {type : AttributeType}
    {value value' : ValueId} (hone : s.NestsSchema stores type value)
    (hother : s.NestsSchema stores type value') : value = value' := by
  cases hone with
  | schema hisMap hfound =>
      cases hother with
      | schema _ hfound' =>
          cases hfound.symm.trans hfound'
          rfl
      | element hresource _ _ =>
          have habsent := hresource.hasElement
          simp [hisMap, hfound] at habsent
  | element hresource hyields hfound =>
      cases hother with
      | schema hisMap hfound' =>
          have habsent := hresource.hasElement
          simp [hisMap, hfound'] at habsent
      | element hresource' hyields' hfound' =>
          cases hresource.unique hresource'
          cases hyields.unique hyields'
          cases hfound.symm.trans hfound'
          rfl

theorem NestsSchema.hasInside {stores : List FieldStore} {type : AttributeType}
    {value : ValueId} (hnests : s.NestsSchema stores type value) :
    type.HasInside := by
  cases hnests with
  | schema hisMap => exact .inr (.inr hisMap)
  | element hresource =>
      exact hresource.hasElement.imp_right fun hother =>
        hother.imp_right And.left

theorem Leaf.of_noResource {stores : List FieldStore} {type : AttributeType}
    (hnoSchema : type = .map → firstStore? stores "Schema" = none)
    (hnoResource : ∀ elem, ¬s.ResourceElement stores type elem) :
    s.Leaf stores type := by
  refine ⟨fun value hnests => ?_, hnoResource⟩
  cases hnests with
  | schema hisMap hfound => simp [hnoSchema hisMap] at hfound
  | element hresource => exact hnoResource _ hresource

/-! ## Attributes and components -/

section

variable {nested : ValueId → Extract AttributeList} {stores : List FieldStore}
  {list : AttributeList}

theorem element_cases {value : ValueId}
    (hyields : (s.element nested value).Yields list) :
    ∃ elem, s.package.root value = .ok elem ∧
      ((∃ fields store, s.package.isAllocOf elem s.sdk.resourceType = .ok true ∧
          (s.package.instanceStores elem s.sdk.resourceType :
            Extract (List FieldStore)).Yields fields ∧
          firstStore? fields "Schema" = some store ∧
          (nested store.value).Yields list) ∨
        s.package.isAllocOf elem s.sdk.resourceType = .ok false ∧
          (list = .complete ∨ list = .lost) ∨
        (∃ fields, (s.package.instanceStores elem s.sdk.resourceType :
              Extract (List FieldStore)).Yields fields ∧
            firstStore? fields "Schema" = none) ∧ list = .lost) := by
  simp only [element, Report.bind_yields, Analysis.root_yields,
    Analysis.monadLift_yields] at hyields
  obtain ⟨elem, htraced, isResource, hknown, hyields⟩ := hyields
  refine ⟨elem, htraced, ?_⟩
  cases isResource with
  | true =>
      simp only [↓reduceIte, Report.bind_yields] at hyields
      obtain ⟨fields, hofElem, hyields⟩ := hyields
      cases hfound : firstStore? fields "Schema" with
      | none =>
          simp only [hfound, Report.pure_yields] at hyields
          exact .inr (.inr ⟨⟨fields, hofElem, hfound⟩, hyields⟩)
      | some store =>
          simp only [hfound] at hyields
          exact .inl ⟨fields, store, hknown, hofElem, hfound, hyields⟩
  | false =>
      simp only [Bool.false_eq_true, ↓reduceIte, Report.bind_yields,
        Analysis.monadLift_yields] at hyields
      obtain ⟨isSchema, -, hyields⟩ := hyields
      refine .inr (.inl ⟨hknown, ?_⟩)
      cases isSchema with
      | true => exact .inl (by simpa using hyields)
      | false =>
          simp only [Bool.false_eq_true, ↓reduceIte, Report.bind_yields,
            Report.pure_yields] at hyields
          obtain ⟨_, -, _, -, hlost⟩ := hyields
          exact .inr hlost

theorem elementStore_cases {type : AttributeType}
    (hhasElement :
      type = .list ∨ type = .set ∨
        type = .map ∧ firstStore? stores "Schema" = none)
    (hyields : (match firstStore? stores "Elem" with
      | some store => s.element nested store.value
      | none => return .complete : Extract AttributeList).Yields list) :
    (∃ inner, s.NestsSchema stores type inner ∧ (nested inner).Yields list) ∨
      s.Leaf stores type ∧ list = .complete ∨
      (∀ inner, ¬s.NestsSchema stores type inner) ∧ list = .lost := by
  have hnoSchema : type = .map → firstStore? stores "Schema" = none := by
    rintro rfl
    simpa using hhasElement
  cases hstored : firstStore? stores "Elem" with
  | none =>
      simp only [hstored, Report.pure_yields] at hyields
      refine .inr
        (.inl ⟨Leaf.of_noResource hnoSchema fun elem hresource => ?_, hyields⟩)
      obtain ⟨store, hfound, -⟩ := hresource.stored
      simp [hstored] at hfound
  | some store =>
      simp only [hstored] at hyields
      obtain ⟨elem, htraced, hcases⟩ := element_cases hyields
      have honly : ∀ other, s.ResourceElement stores type other →
          other = elem := by
        intro other hresource
        obtain ⟨store', hfound, htraced'⟩ := hresource.stored
        cases hstored.symm.trans hfound
        cases htraced.symm.trans htraced'
        rfl
      rcases hcases with
        ⟨fields, schema, hisResource, hofElem, hfound, hinner⟩ |
          ⟨hplain, hempty⟩ | ⟨⟨fields, hofElem, hbare⟩, hlost⟩
      · exact .inl ⟨schema.value, .element
            ⟨hhasElement, ⟨store, hstored, htraced⟩, hisResource⟩ hofElem
            hfound, hinner⟩
      · have hleaf : s.Leaf stores type := by
          refine Leaf.of_noResource hnoSchema fun other hresource => ?_
          cases honly other hresource
          have hisResource := hplain.symm.trans hresource.isResource
          simp at hisResource
        rcases hempty with hcomplete | hlost
        · exact .inr (.inl ⟨hleaf, hcomplete⟩)
        · exact .inr (.inr ⟨hleaf.noSchema, hlost⟩)
      · refine .inr (.inr ⟨fun inner hnests => ?_, hlost⟩)
        cases hnests with
        | schema hisMap hfound => simp [hnoSchema hisMap] at hfound
        | element hresource hofElem' hfound =>
            cases honly _ hresource
            cases hofElem.unique hofElem'
            simp [hbare] at hfound

/-- The attributes inside an attribute are those of the schema nested in it.
Where none is nested there are none. -/
theorem children_cases {type : AttributeType}
    (hyields : (s.children nested type stores).Yields list) :
    (∃ inner, s.NestsSchema stores type inner ∧ (nested inner).Yields list) ∨
      s.Leaf stores type ∧ list = .complete ∨
      (∀ inner, ¬s.NestsSchema stores type inner) ∧ list = .lost := by
  cases type with
  | list => exact elementStore_cases (.inl rfl) hyields
  | set => exact elementStore_cases (.inr (.inl rfl)) hyields
  | map =>
      cases hfound : firstStore? stores "Schema" with
      | none =>
          simp only [children, hfound] at hyields
          exact elementStore_cases (.inr (.inr ⟨rfl, hfound⟩)) hyields
      | some store =>
          simp only [children, hfound] at hyields
          exact .inl ⟨store.value, .schema rfl hfound, hyields⟩
  | _ =>
      simp only [children, Report.pure_yields] at hyields
      refine .inr
        (.inl ⟨Leaf.of_noResource (by simp) fun elem hresource => ?_, hyields⟩)
      simpa using hresource.hasElement

theorem describedAttribute_cases {name : String} {pos : Pos} {attr : Attribute}
    (hyields : (s.describedAttribute nested name pos stores).Yields attr) :
    attr.name = name ∧ attr.pos = pos ∧
      ∃ type list, (s.storedType name stores).Yields type ∧
        attr.type = type.value?.getD .invalid ∧
        (s.children nested attr.type stores).Yields list ∧
        attr.children = list.attributes ∧
        (attr.isPartial = false →
          type.isUnresolved = false ∧ list.anyPartial = false) := by
  simp only [describedAttribute, Report.bind_yields,
    Report.pure_yields] at hyields
  obtain ⟨_, -, _, -, _, -, _, -, _, -, _, -, type, hofType, list, hinner,
      rfl⟩ := hyields
  refine ⟨rfl, rfl, type, list, hofType, rfl, hinner, rfl, fun hwhole => ?_⟩
  simp only [Bool.or_eq_false_iff] at hwhole
  exact ⟨hwhole.1.2, hwhole.2⟩

theorem entryAttribute?_cases {entry : MapEntry} {attr : Attribute}
    (hyields : (s.entryAttribute? nested entry).Yields (some attr)) :
    (∃ key, s.package.root entry.key = .ok key ∧
        s.package.operationAt key = .ok (.const (.string attr.name))) ∧
      attr.pos = entry.pos ∧
      ((∃ stores, s.EntryStores entry stores ∧
          (s.describedAttribute nested attr.name entry.pos stores).Yields
            attr) ∨
        (∀ stores, ¬s.EntryStores entry stores) ∧ attr.isPartial = true ∧
          attr.children = []) := by
  simp only [entryAttribute?, Report.bind_yields,
    Analysis.constString?_yields] at hyields
  obtain ⟨constant, ⟨key, hkeyTraced, hisConstant⟩, hyields⟩ := hyields
  cases constant with
  | none => simp at hyields
  | some name =>
      have hoperation := Package.constString?_eq_some_iff.1 hisConstant
      simp only [Analysis.within_yields, Report.map_yields, Option.some.injEq,
        exists_eq_right'] at hyields
      simp only [attributeOf, Report.bind_yields, Analysis.root_yields,
        Analysis.monadLift_yields] at hyields
      obtain ⟨schema, htraced, isSchema, hknown, hyields⟩ := hyields
      cases isSchema with
      | false =>
          simp only [Bool.false_eq_true, ↓reduceIte, Report.bind_yields,
            Report.pure_yields] at hyields
          obtain ⟨_, -, _, -, rfl⟩ := hyields
          refine ⟨⟨key, hkeyTraced, hoperation⟩, rfl, .inr ⟨?_, rfl, rfl⟩⟩
          rintro stores ⟨schema', htraced', hisSchema, -⟩
          cases htraced.symm.trans htraced'
          have hsame := hknown.symm.trans hisSchema
          simp at hsame
      | true =>
          simp only [↓reduceIte, Report.bind_yields] at hyields
          obtain ⟨stores, hofSchema, hyields⟩ := hyields
          obtain ⟨rfl, hpos, -⟩ := describedAttribute_cases hyields
          exact ⟨⟨key, hkeyTraced, hoperation⟩, hpos,
            .inl ⟨stores, ⟨schema, htraced, hknown, hofSchema⟩, hyields⟩⟩

theorem schemaMap_cases {value : ValueId}
    (hyields : (s.schemaMap nested value).Yields list) :
    ∃ map, s.package.root value = .ok map ∧
      (s.package.isMap map = .ok false ∧ list = .lost ∨
        ∃ entries found, s.package.isMap map = .ok true ∧
          s.package.mapEntries map = .ok entries ∧
          List.Forall₂
            (fun entry attr => (s.entryAttribute? nested entry).Yields attr)
            entries found ∧
          list =
            ⟨sortByName (found.filterMap id), found.any Option.isNone⟩) := by
  simp only [schemaMap, Report.bind_yields, Analysis.root_yields,
    Analysis.monadLift_yields] at hyields
  obtain ⟨map, htraced, isMap, hknown, hyields⟩ := hyields
  refine ⟨map, htraced, ?_⟩
  cases isMap with
  | false =>
      simp only [Bool.false_eq_true, ↓reduceIte, Report.bind_yields,
        Report.pure_yields] at hyields
      obtain ⟨_, -, _, -, hlost⟩ := hyields
      exact .inl ⟨hknown, hlost⟩
  | true =>
      simp only [↓reduceIte, Report.bind_yields, Analysis.monadLift_yields,
        Report.mapM_yields, Report.pure_yields] at hyields
      obtain ⟨entries, hofMap, found, hrelated, hsame⟩ := hyields
      exact .inr ⟨entries, found, hknown, hofMap, hrelated, hsame⟩

theorem component_cases {name : String} {builder : FuncId} {pos : Pos}
    {component : Component}
    (hyields : (s.component name builder pos).Yields component) :
    ∃ stores list, (s.resourceStores component.builder).Yields stores ∧
      component.attributes = list.attributes ∧
      component.isPartial = list.anyPartial ∧
      (firstStore? stores "Schema" = none ∧ list = .lost ∨
        ∃ store, firstStore? stores "Schema" = some store ∧
          (s.attributesWithin nestingLimit store.value).Yields list) := by
  simp only [Subject.component, Report.bind_yields, Report.pure_yields,
    Analysis.monadLift_yields] at hyields
  obtain ⟨stores, hofBuilder, _, -, _, -, list, hofSchema, rfl⟩ := hyields
  refine ⟨stores, list, hofBuilder, rfl, rfl, ?_⟩
  unfold componentAttributes at hofSchema
  cases hfound : firstStore? stores "Schema" with
  | none =>
      simp only [hfound, Report.bind_yields, Report.pure_yields] at hofSchema
      obtain ⟨_, -, hlost⟩ := hofSchema
      exact .inl ⟨rfl, hlost⟩
  | some store =>
      simp only [hfound, Analysis.within_yields] at hofSchema
      exact .inr ⟨store, rfl, hofSchema⟩

private theorem component_identity {name : String} {builder : FuncId}
    {pos : Pos} {component : Component}
    (hyields : (s.component name builder pos).Yields component) :
    component.name = name ∧ component.builder = builder ∧
      component.pos = pos := by
  simp only [Subject.component, Report.bind_yields,
    Report.pure_yields] at hyields
  obtain ⟨_, -, _, -, _, -, _, -, rfl⟩ := hyields
  exact ⟨rfl, rfl, rfl⟩

theorem mapComponent_cases {field : String} {entry : MapEntry}
    {component : Component}
    (hyields : (s.mapComponent field entry).Yields component) :
    (∃ key, s.package.root entry.key = .ok key ∧
        s.package.constString? key = .ok (some component.name)) ∧
      s.componentBuilder? entry.value = .ok (some component.builder) ∧
      component.pos = entry.pos ∧
      (s.component component.name component.builder component.pos).Yields
        component := by
  simp only [mapComponent, Report.bind_yields,
    Analysis.constString?_yields] at hyields
  obtain ⟨name, hofKey, hyields⟩ := hyields
  cases name with
  | none => simp at hyields
  | some name =>
      simp only [Report.bind_yields, Analysis.monadLift_yields] at hyields
      obtain ⟨builder, hofValue, hyields⟩ := hyields
      cases builder with
      | none => simp at hyields
      | some builder =>
          have hmade := Analysis.within_yields.1 hyields
          obtain ⟨rfl, rfl, hpos⟩ := component_identity hmade
          exact ⟨hofKey, hofValue, hpos, hpos ▸ hmade⟩

/-- A field of the provider has a component for each update of the map that is
stored into it. -/
theorem components_entries {field : String} {components : List Component}
    (hyields : (s.components stores field).Yields components) :
    firstStore? stores field = none ∧ components = [] ∨
      ∃ store map entries, firstStore? stores field = some store ∧
        s.package.root store.value = .ok map ∧ s.package.isMap map = .ok true ∧
        s.package.mapEntries map = .ok entries ∧
        List.Forall₂
          (fun entry component => (s.mapComponent field entry).Yields component)
          entries components := by
  unfold Subject.components at hyields
  cases hfound : firstStore? stores field with
  | none =>
      simp only [hfound, Report.bind_yields, Report.pure_yields] at hyields
      obtain ⟨_, -, rfl⟩ := hyields
      exact .inl ⟨rfl, rfl⟩
  | some store =>
      simp only [hfound, Report.bind_yields, Analysis.root_yields,
        Analysis.monadLift_yields] at hyields
      obtain ⟨map, htraced, isMap, hknown, hyields⟩ := hyields
      cases isMap with
      | false => simp at hyields
      | true =>
          simp only [↓reduceIte, Report.bind_yields, Analysis.monadLift_yields,
            Report.mapM_yields] at hyields
          obtain ⟨entries, hofMap, hrelated⟩ := hyields
          exact .inr
            ⟨store, map, entries, rfl, htraced, hknown, hofMap, hrelated⟩

theorem components_cases {field : String} {components : List Component}
    (hyields : (s.components stores field).Yields components)
    {component : Component} (hmember : component ∈ components) :
    ∃ name builder pos, (s.component name builder pos).Yields component := by
  obtain ⟨-, rfl⟩ | ⟨store, map, entries, -, -, -, -, hrelated⟩ :=
    components_entries hyields
  · simp at hmember
  · obtain ⟨entry, hpaired⟩ := exists_mem_zip hrelated hmember
    obtain ⟨-, -, -, hmade⟩ :=
      mapComponent_cases (List.forall₂_zip hrelated hpaired)
    exact ⟨_, _, _, hmade⟩

theorem extracted_cases {extraction : Extraction}
    (hextracted : s.extract.Yields extraction) {component : Component}
    (hmember : component ∈ extraction.dataSources ++ extraction.resources) :
    ∃ name builder pos, (s.component name builder pos).Yields component := by
  simp only [extract, Report.bind_yields, Report.pure_yields] at hextracted
  obtain ⟨stores, -, dataSources, hofSources, resources, hofResources, rfl⟩ :=
    hextracted
  rcases List.mem_append.1 hmember with hinSources | hinResources
  · exact components_cases hofSources hinSources
  · exact components_cases hofResources hinResources

end

end Subject

end SchemaLint
