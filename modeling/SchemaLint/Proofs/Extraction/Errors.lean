import SchemaLint.Proofs.Extraction.Complete
import SchemaLint.Proofs.Queries.Safety
import SchemaLint.Proofs.Refuses

/-!
# The errors of extraction

An error of extraction says where it comes from. Around an attribute type that
is not known stand the names of the attributes on the way to it, through as many
nested schemas as there are, then the component twice; around a slot without a
function stands the component; nothing else has a context.
-/

namespace SchemaLint

def ExtractError.inAttributes (path : List (String × Pos))
    (cause : ExtractError) : ExtractError :=
  path.foldr (fun step source =>
    .context ("error parsing attribute " ++ Text.quoted step.1) step.2 source)
    cause

namespace Subject

variable {s : Subject}

/-- The entry is an update of the map that the value traces to, and the name is
its key. -/
structure HasEntry (s : Subject) (value : ValueId) (name : String)
    (entry : MapEntry) : Prop where
  update : ∃ map entries, s.package.root value = .ok map ∧
      s.package.isMap map = .ok true ∧
    s.package.mapEntries map = .ok entries ∧ entry ∈ entries
  key : ∃ key, s.package.root entry.key = .ok key ∧
      s.package.operationAt key = .ok (.const (.string name))

/-- A component map of the provider has the name as a key, with a call of the
builder. -/
def Registers (s : Subject) (name : String) (builder : FuncId) (pos : Pos) :
    Prop :=
  ∃ stores field store entry, s.providerStores.Yields stores ∧
    isComponentMap field = true ∧
    firstStore? stores field = some store ∧ s.HasEntry store.value name entry ∧
    s.componentBuilder? entry.value = .ok (some builder) ∧ entry.pos = pos

/-- The attributes from a schema down to one whose stored type is not known,
each a key of the schema nested in the one before. The last position is that of
the stored type. -/
inductive UnknownTypePath (s : Subject) :
    ValueId → List (String × Pos) → Pos → Prop
  | here {value name entry stores store} :
    s.HasEntry value name entry → s.EntryStores entry stores →
    firstStore? stores "Type" = some store →
      (s.attributeType? store.value).Yields none →
      UnknownTypePath s value [(name, entry.pos)] store.pos
  | inside {value name entry stores store type inner path pos} :
    s.HasEntry value name entry → s.EntryStores entry stores →
    firstStore? stores "Type" = some store →
      (s.attributeType? store.value).Yields (some type) →
      s.NestsSchema stores type inner →
      UnknownTypePath s inner path pos →
      UnknownTypePath s value ((name, entry.pos) :: path) pos

inductive ErrorForm (s : Subject) : ExtractError → Prop
  | noEntryPoint {name pos} : ErrorForm s (.noEntryPoint name pos)
  | ambiguousEntryPoint {count pos} :
    ErrorForm s (.ambiguousEntryPoint count pos)
  | malformed {name pos} : ErrorForm s (.malformed name pos)
  | function {name builder pos stores field store} :
    s.Registers name builder pos → (s.resourceStores builder).Yields stores →
      field ∈ ["Create", "Read", "Update", "Delete", "Exists"] →
        firstStore? stores field = some store →
      ErrorForm s (.context ("error loading " ++ name) pos
        (.expectedFunction field store.pos))
  | attributes {name builder pos stores store path typePos} :
    s.Registers name builder pos → (s.resourceStores builder).Yields stores →
      firstStore? stores "Schema" = some store →
      s.UnknownTypePath store.value path typePos →
      1 ≤ path.length → path.length ≤ 33 →
      ErrorForm s (.context ("error loading " ++ name) pos
        (.context ("error with attributes for " ++ name) store.pos
          (.inAttributes path (.unexpectedType typePos))))

private theorem UnknownTypePath.length_pos {value : ValueId}
    {path : List (String × Pos)} {pos : Pos}
    (hleads : s.UnknownTypePath value path pos) : 1 ≤ path.length := by
  cases hleads <;> simp

/-! ## Attributes -/

@[simp] theorem constInt?_refuses {value : ValueId} {error : ExtractError} :
    ¬(s.constInt? value).Refuses error := by
  simp only [constInt?, Analysis.bind_refuses, Analysis.root_refuses,
    Analysis.monadLift_refuses, false_or]
  rintro ⟨root, -, operation, -, hrefused⟩
  split at hrefused <;> simp at hrefused

@[simp] theorem constBool?_refuses {value : ValueId} {error : ExtractError} :
    ¬(s.constBool? value).Refuses error := by
  have hwithin (steps : Nat) : ∀ value,
      ¬(s.constBoolWithin? steps value).Refuses error := by
    induction steps with
    | zero => simp [constBoolWithin?]
    | succ steps ih =>
        intro value
        simp only [constBoolWithin?, Analysis.bind_refuses,
          Analysis.root_refuses, Analysis.monadLift_refuses, false_or]
        rintro ⟨root, -, operation, -, hrefused⟩
        split at hrefused <;> simp [ih] at hrefused
  exact hwithin _ value

@[simp] theorem attributeType?_refuses {value : ValueId}
    {error : ExtractError} : ¬(s.attributeType? value).Refuses error := by
  simp only [attributeType?, Analysis.bind_refuses, Analysis.root_refuses,
    Analysis.monadLift_refuses, false_or]
  rintro ⟨root, -, value, -, hrefused⟩
  split at hrefused
  · simp only [Analysis.bind_refuses, Analysis.monadLift_refuses,
      false_or] at hrefused
    obtain ⟨type, -, hrefused⟩ := hrefused
    split at hrefused <;> simp at hrefused
  · simp at hrefused

section

variable {nested : ValueId → Extract AttributeList} {stores : List FieldStore}
  {error : ExtractError}

theorem readField_refuses {field : String} {read : ValueId → Extract (Option α)}
    (hnever : ∀ value, ¬(read value).Refuses error) :
    ¬(s.readField stores field read).Refuses error := by
  unfold readField
  cases firstStore? stores field with
  | none => simp
  | some store =>
      simp only [Analysis.bind_refuses, hnever, false_or]
      rintro ⟨found, -, hrefused⟩
      cases found <;> simp at hrefused

theorem storedType_refuses {name : String}
    (hrefused : (s.storedType name stores).Refuses error) :
    ∃ store, firstStore? stores "Type" = some store ∧
      (s.attributeType? store.value).Yields none ∧
      error = .unexpectedType store.pos := by
  unfold storedType at hrefused
  cases hfound : firstStore? stores "Type" with
  | none => simp [hfound] at hrefused
  | some store =>
      simp only [hfound, Analysis.bind_refuses, attributeType?_refuses,
        false_or] at hrefused
      obtain ⟨type, hofStore, hrefused⟩ := hrefused
      cases type with
      | none => exact ⟨store, rfl, hofStore, by simpa using hrefused⟩
      | some type => simp at hrefused

private theorem storedType_found {name : String} {type : AttributeType}
    (hyields : (s.storedType name stores).Yields (.found type)) :
    ∃ store, firstStore? stores "Type" = some store ∧
      (s.attributeType? store.value).Yields (some type) := by
  unfold storedType at hyields
  cases hfound : firstStore? stores "Type" with
  | none => simp [hfound] at hyields
  | some store =>
      simp only [hfound, Report.bind_yields] at hyields
      obtain ⟨answer, hofStore, hyields⟩ := hyields
      cases answer with
      | none => simp at hyields
      | some known =>
          simp only [Report.pure_yields, Reading.found.injEq] at hyields
          exact ⟨store, rfl, hyields ▸ hofStore⟩

theorem element_refuses {value : ValueId}
    (hrefused : (s.element nested value).Refuses error) :
    ∃ elem fields store, s.package.root value = .ok elem ∧
      s.package.isAllocOf elem s.sdk.resourceType = .ok true ∧
      (s.package.instanceStores elem s.sdk.resourceType :
        Extract (List FieldStore)).Yields fields ∧
      firstStore? fields "Schema" = some store ∧
      (nested store.value).Refuses error := by
  simp only [element, Analysis.bind_refuses, Analysis.root_refuses,
    Analysis.monadLift_refuses, Analysis.root_yields, Analysis.monadLift_yields,
    false_or] at hrefused
  obtain ⟨elem, htraced, isResource, hknown, hrefused⟩ := hrefused
  cases isResource with
  | true =>
      simp only [↓reduceIte, Analysis.bind_refuses,
        Analysis.instanceStores_refuses, false_or] at hrefused
      obtain ⟨fields, hofElem, hrefused⟩ := hrefused
      cases hfound : firstStore? fields "Schema" with
      | none => simp [hfound] at hrefused
      | some store =>
          simp only [hfound] at hrefused
          exact ⟨elem, fields, store, htraced, hknown, hofElem, hfound,
            hrefused⟩
  | false =>
      simp only [Bool.false_eq_true, ↓reduceIte, Analysis.bind_refuses,
        Analysis.monadLift_refuses, false_or] at hrefused
      obtain ⟨isSchema, -, hrefused⟩ := hrefused
      cases isSchema <;> simp at hrefused

theorem elementStore_refuses {type : AttributeType}
    (hhasElement :
      type = .list ∨ type = .set ∨
        type = .map ∧ firstStore? stores "Schema" = none)
    (hrefused : (match firstStore? stores "Elem" with
      | some store => s.element nested store.value
      | none => return .complete : Extract AttributeList).Refuses error) :
    ∃ inner, s.NestsSchema stores type inner ∧
    (nested inner).Refuses error := by
  cases hstored : firstStore? stores "Elem" with
  | none => simp [hstored] at hrefused
  | some store =>
      simp only [hstored] at hrefused
      obtain ⟨elem, fields, schema, htraced, hisResource, hofElem, hfound,
          hrefused⟩ := element_refuses hrefused
      exact ⟨schema.value, .element
          ⟨hhasElement, ⟨store, hstored, htraced⟩, hisResource⟩ hofElem hfound,
        hrefused⟩

theorem children_refuses {type : AttributeType}
    (hrefused : (s.children nested type stores).Refuses error) :
    ∃ inner, s.NestsSchema stores type inner ∧
      (nested inner).Refuses error := by
  cases type with
  | list => exact elementStore_refuses (.inl rfl) hrefused
  | set => exact elementStore_refuses (.inr (.inl rfl)) hrefused
  | map =>
      cases hfound : firstStore? stores "Schema" with
      | none =>
          simp only [children, hfound] at hrefused
          exact elementStore_refuses (.inr (.inr ⟨rfl, hfound⟩)) hrefused
      | some store =>
          simp only [children, hfound] at hrefused
          exact ⟨store.value, .schema rfl hfound, hrefused⟩
  | _ => simp [children] at hrefused

theorem describedAttribute_refuses {name : String} {pos : Pos}
    (hrefused : (s.describedAttribute nested name pos stores).Refuses error) :
    ∃ store, firstStore? stores "Type" = some store ∧
      ((s.attributeType? store.value).Yields none ∧
          error = .unexpectedType store.pos ∨
        ∃ type inner, (s.attributeType? store.value).Yields (some type) ∧
          s.NestsSchema stores type inner ∧ (nested inner).Refuses error) := by
  simp only [describedAttribute, Analysis.bind_refuses, Analysis.pure_refuses,
    and_false, exists_false, or_false,
    readField_refuses fun _ => Analysis.constString?_refuses,
    readField_refuses fun _ => constBool?_refuses,
    readField_refuses fun _ => constInt?_refuses, false_or] at hrefused
  obtain ⟨_, -, _, -, _, -, _, -, _, -, _, -, hrefused⟩ := hrefused
  rcases hrefused with hofType | ⟨type, hyields, hrefused⟩
  · obtain ⟨store, hfound, hunknown, hsame⟩ := storedType_refuses hofType
    exact ⟨store, hfound, .inl ⟨hunknown, hsame⟩⟩
  · obtain ⟨inner, hnests, hofInner⟩ := children_refuses hrefused
    cases type with
    | found type =>
        obtain ⟨store, hfound, hknown⟩ := storedType_found hyields
        exact ⟨store, hfound, .inr ⟨type, inner, hknown, hnests, hofInner⟩⟩
    | _ =>
        simpa [AttributeType.HasInside, Reading.value?] using hnests.hasInside

theorem schemaMap_refuses {value : ValueId}
    (hrefused : (s.schemaMap nested value).Refuses error) :
    ∃ name entry stores cause, s.HasEntry value name entry ∧
      s.EntryStores entry stores ∧
      (s.describedAttribute nested name entry.pos stores).Refuses cause ∧
      error =
        .context ("error parsing attribute " ++ Text.quoted name) entry.pos
          cause := by
  simp only [schemaMap, Analysis.bind_refuses, Analysis.root_refuses,
    Analysis.monadLift_refuses, Analysis.root_yields, Analysis.monadLift_yields,
    false_or] at hrefused
  obtain ⟨map, htraced, isMap, hknown, hrefused⟩ := hrefused
  cases isMap with
  | false => simp at hrefused
  | true =>
      simp only [↓reduceIte, Analysis.bind_refuses, Analysis.monadLift_refuses,
        Analysis.monadLift_yields, Analysis.pure_refuses, and_false,
        exists_false, or_false, false_or] at hrefused
      obtain ⟨entries, hofMap, hrefused⟩ := hrefused
      obtain ⟨entry, hmember, hrefused⟩ := Analysis.mapM_refuses hrefused
      simp only [entryAttribute?, Analysis.bind_refuses,
        Analysis.constString?_refuses, Analysis.constString?_yields,
        false_or] at hrefused
      obtain ⟨constant, ⟨key, hkeyTraced, hisConstant⟩, hrefused⟩ := hrefused
      cases constant with
      | none => simp at hrefused
      | some name =>
          simp only [Analysis.within_refuses, Analysis.map_refuses] at hrefused
          obtain ⟨cause, hrefused, hsame⟩ := hrefused
          have hoperation := Package.constString?_eq_some_iff.1 hisConstant
          have hhasEntry : s.HasEntry value name entry :=
            ⟨⟨map, entries, htraced, hknown, hofMap, hmember⟩, key, hkeyTraced,
              hoperation⟩
          simp only [attributeOf, Analysis.bind_refuses, Analysis.root_refuses,
            Analysis.monadLift_refuses, Analysis.root_yields,
            Analysis.monadLift_yields, false_or] at hrefused
          obtain ⟨schema, hschemaTraced, isSchema, hisAlloc, hrefused⟩ :=
            hrefused
          cases isSchema with
          | false => simp at hrefused
          | true =>
              simp only [↓reduceIte, Analysis.bind_refuses,
                Analysis.instanceStores_refuses, false_or] at hrefused
              obtain ⟨stores, hofSchema, hrefused⟩ := hrefused
              exact ⟨name, entry, stores, cause, hhasEntry,
                ⟨schema, hschemaTraced, hisAlloc, hofSchema⟩, hrefused, hsame⟩

/-- The error names a path of at most so many attributes to a type that is not
known. -/
def NamesPath (s : Subject) (levels : Nat) (value : ValueId)
    (error : ExtractError) : Prop :=
  ∃ path pos, s.UnknownTypePath value path pos ∧ path.length ≤ levels ∧
    error = .inAttributes path (.unexpectedType pos)

private theorem schemaMap_namesPath {levels : Nat}
    (hbelow : ∀ inner error, (nested inner).Refuses error →
        s.NamesPath levels inner error)
    {value : ValueId}
    (hrefused : (s.schemaMap nested value).Refuses error) :
    s.NamesPath (levels + 1) value error := by
  obtain ⟨name, entry, stores, cause, hhasEntry, hofEntry, hdescribed, rfl⟩ :=
    schemaMap_refuses hrefused
  obtain ⟨store, hfound,
      ⟨hunknown, rfl⟩ | ⟨type, inner, hknown, hnests, hofInner⟩⟩ :=
    describedAttribute_refuses hdescribed
  · exact ⟨[(name, entry.pos)], store.pos,
      .here hhasEntry hofEntry hfound hunknown, by simp, rfl⟩
  · obtain ⟨path, pos, hleads, hbound, rfl⟩ := hbelow inner cause hofInner
    refine ⟨(name, entry.pos) :: path, pos,
      .inside hhasEntry hofEntry hfound hknown hnests hleads, ?_, rfl⟩
    simpa using hbound

end

private theorem attributesWithin_namesPath {depth : Nat} {value : ValueId}
    {error : ExtractError}
    (hrefused : (s.attributesWithin depth value).Refuses error) :
    s.NamesPath (depth + 1) value error := by
  induction depth generalizing value error with
  | zero =>
      exact schemaMap_namesPath (fun inner error hcut => by simp at hcut)
        hrefused
  | succ depth ih => exact schemaMap_namesPath (fun _ _ => ih) hrefused

/-! ## Components -/

section

variable {stores : List FieldStore} {error : ExtractError}

@[simp] theorem resourceStores_refuses {builder : FuncId} :
    ¬(s.resourceStores builder).Refuses error := by
  have hreturned : ¬(s.returnedAlloc? builder).Refuses error := by
    simp only [returnedAlloc?, Analysis.bind_refuses,
      Analysis.monadLift_refuses, false_or]
    rintro ⟨value, -, hrefused⟩
    cases value <;> simp at hrefused
  simp only [resourceStores, Analysis.bind_refuses,
    Analysis.reachedStores_refuses, hreturned, false_or]
  rintro ⟨stores, -, alloc, -, hrefused⟩
  cases alloc <;> simp at hrefused

theorem lifecycleFunction?_refuses {slot : LifecycleSlot}
    (hrefused : (s.lifecycleFunction? stores slot).Refuses error) :
    ∃ store, firstStore? stores slot.fieldName = some store ∧
      error = .expectedFunction slot.fieldName store.pos := by
  unfold lifecycleFunction? at hrefused
  cases hfound : firstStore? stores slot.fieldName with
  | none => simp [hfound] at hrefused
  | some store =>
      simp only [hfound, Analysis.bind_refuses, Analysis.root_refuses,
        Analysis.monadLift_refuses, false_or] at hrefused
      obtain ⟨root, -, operation, -, hrefused⟩ := hrefused
      split at hrefused
      · simp at hrefused
      · simp at hrefused
      · exact ⟨store, rfl, by simpa using hrefused⟩

theorem component_refuses {name : String} {builder : FuncId} {pos : Pos}
    (hrefused : (s.component name builder pos).Refuses error) :
    ∃ stores, (s.resourceStores builder).Yields stores ∧
      ((∃ slot store, firstStore? stores (LifecycleSlot.fieldName slot) =
            some store ∧ error = .expectedFunction slot.fieldName store.pos) ∨
        ∃ store cause, firstStore? stores "Schema" = some store ∧
          (s.attributesWithin nestingLimit store.value).Refuses cause ∧
          error =
            .context ("error with attributes for " ++ name) store.pos
              cause) := by
  simp only [component, Analysis.bind_refuses, resourceStores_refuses,
    Analysis.monadLift_refuses, Analysis.pure_refuses, and_false, exists_false,
    or_false, false_or] at hrefused
  obtain ⟨stores, hofBuilder, _, -, hofSlots | ⟨_, -, hofSchema⟩⟩ := hrefused
  · obtain ⟨slot, -, hrefused⟩ := Analysis.mapM_refuses hofSlots
    obtain ⟨store, hfound, hsame⟩ :=
      lifecycleFunction?_refuses (by simpa using hrefused)
    exact ⟨stores, hofBuilder, .inl ⟨slot, store, hfound, hsame⟩⟩
  · refine ⟨stores, hofBuilder, .inr ?_⟩
    unfold componentAttributes at hofSchema
    cases hfound : firstStore? stores "Schema" with
    | none => simp [hfound] at hofSchema
    | some store =>
        simp only [hfound, Analysis.within_refuses] at hofSchema
        obtain ⟨cause, hrefused, hsame⟩ := hofSchema
        exact ⟨store, cause, rfl, hrefused, hsame⟩

theorem components_refuses {field : String}
    (hrefused : (s.components stores field).Refuses error) :
    (∃ name pos, error = .malformed name pos) ∨
      ∃ store name entry builder cause, firstStore? stores field = some store ∧
        s.HasEntry store.value name entry ∧
        s.componentBuilder? entry.value = .ok (some builder) ∧
        (s.component name builder entry.pos).Refuses cause ∧
        error = .context ("error loading " ++ name) entry.pos cause := by
  unfold components at hrefused
  cases hstored : firstStore? stores field with
  | none => simp [hstored] at hrefused
  | some store =>
      simp only [hstored, Analysis.bind_refuses, Analysis.root_refuses,
        Analysis.monadLift_refuses, Analysis.root_yields,
        Analysis.monadLift_yields, false_or] at hrefused
      obtain ⟨map, htraced, isMap, hknown, hrefused⟩ := hrefused
      cases isMap with
      | false =>
          simp only [Bool.false_eq_true, ↓reduceIte,
            Analysis.refuse_refuses] at hrefused
          exact .inl ⟨field, store.pos, hrefused⟩
      | true =>
          simp only [↓reduceIte, Analysis.bind_refuses,
            Analysis.monadLift_refuses, Analysis.monadLift_yields,
            false_or] at hrefused
          obtain ⟨entries, hofMap, hrefused⟩ := hrefused
          obtain ⟨entry, hmember, hrefused⟩ := Analysis.mapM_refuses hrefused
          simp only [mapComponent, Analysis.bind_refuses,
            Analysis.constString?_refuses, Analysis.constString?_yields,
            false_or] at hrefused
          obtain ⟨constant, ⟨key, hkeyTraced, hisConstant⟩, hrefused⟩ :=
            hrefused
          cases constant with
          | none => exact .inl ⟨_, _, by simpa using hrefused⟩
          | some name =>
              simp only [Analysis.bind_refuses, Analysis.monadLift_refuses,
                Analysis.monadLift_yields, false_or] at hrefused
              obtain ⟨builder, hofValue, hrefused⟩ := hrefused
              cases builder with
              | none => exact .inl ⟨_, _, by simpa using hrefused⟩
              | some builder =>
                  obtain ⟨cause, hrefused, hsame⟩ :=
                    Analysis.within_refuses.1 hrefused
                  have hoperation :=
                    Package.constString?_eq_some_iff.1 hisConstant
                  have hhasEntry : s.HasEntry store.value name entry :=
                    ⟨⟨map, entries, htraced, hknown, hofMap, hmember⟩, key,
                      hkeyTraced, hoperation⟩
                  exact .inr ⟨store, name, entry, builder, cause, rfl,
                    hhasEntry, hofValue, hrefused, hsame⟩

private theorem components_errorForm
    (hofProvider : s.providerStores.Yields stores) {field : String}
    (hisMap : isComponentMap field = true)
    (hrefused : (s.components stores field).Refuses error) :
    s.ErrorForm error := by
  rcases components_refuses hrefused with
    ⟨name, pos, rfl⟩ | ⟨store, name, entry, builder, cause, hstored, hhasEntry,
      hofValue, hofComponent, rfl⟩
  · exact .malformed
  · have hregisters : s.Registers name builder entry.pos :=
      ⟨stores, field, store, entry, hofProvider, hisMap, hstored, hhasEntry,
        hofValue, rfl⟩
    obtain ⟨fields, hofBuilder, ⟨slot, function, hfound, rfl⟩ |
          ⟨schema, inner, hfound, hofSchema, rfl⟩⟩ :=
      component_refuses hofComponent
    · exact .function hregisters hofBuilder
        (by cases slot <;> simp [LifecycleSlot.fieldName]) hfound
    · obtain ⟨path, pos, hleads, hbound, rfl⟩ :=
        attributesWithin_namesPath hofSchema
      exact .attributes hregisters hofBuilder hfound hleads hleads.length_pos
        hbound

private theorem providerStores_errorForm
    (hrefused : s.providerStores.Refuses error) : s.ErrorForm error := by
  simp only [providerStores, Analysis.bind_refuses, Analysis.monadLift_refuses,
    false_or] at hrefused
  obtain ⟨points, -, hrefused⟩ := hrefused
  cases points with
  | nil =>
      simp only [Analysis.refuse_refuses] at hrefused
      exact hrefused ▸ .noEntryPoint
  | cons entry others =>
      simp only [Analysis.bind_refuses, Analysis.monadLift_refuses,
        false_or] at hrefused
      obtain ⟨func, -, hreached | ⟨lists, -, hrefused⟩⟩ := hrefused
      · obtain ⟨_, -, hreached⟩ := Analysis.mapM_refuses hreached
        simp at hreached
      · split at hrefused
        · exact Analysis.refuse_refuses.1 hrefused ▸ .noEntryPoint
        · simp at hrefused
        · exact Analysis.refuse_refuses.1 hrefused ▸ .ambiguousEntryPoint

end

/-- When extraction of a valid package fails, its error has one of the forms. -/
theorem extract_error_has_form (hvalid : s.package.validate = .ok ())
    {failure : Failure ExtractError}
    (hfailed : s.extract.outcome = .error failure) :
    ∃ error, failure = .cause error ∧ s.ErrorForm error := by
  cases failure with
  | outside fault =>
      have hinside :=
        (extract_faultless (Package.validate_eq_ok_iff.1 hvalid)).neverOutside
      exact absurd hfailed (hinside fault)
  | cause error =>
      refine ⟨error, rfl, ?_⟩
      have hrefused : s.extract.Refuses error := hfailed
      simp only [extract, Analysis.bind_refuses, Analysis.pure_refuses,
        and_false, exists_false, or_false] at hrefused
      rcases hrefused with
        hofProvider | ⟨stores, hofProvider, hofSources | ⟨_, -, hofResources⟩⟩
      · exact providerStores_errorForm hofProvider
      · exact components_errorForm hofProvider (by decide) hofSources
      · exact components_errorForm hofProvider (by decide) hofResources

/-- The trellis with a code that is no attribute type in the schema of its
rules. -/
def blight : Package :=
  { trellis with
    values := trellis.values.setIfInBounds 15
        ⟨.const (.int 99), ⟨12⟩, .unknown, none, none⟩ }

def blightSubject : Subject := { trellisSubject with package := blight }

/-- What stands around the type: the attributes on the way to it, then the
component. -/
def blightError : ExtractError :=
  .context "error loading a" .unknown <|
    .context "error with attributes for a" .unknown <|
    .context "error parsing attribute \"rules\"" ⟨2⟩ <|
    .context "error parsing attribute \"name\"" ⟨1⟩ <|
    .unexpectedType .unknown

theorem blight_error_has_form :
    blight.validate = .ok () ∧
      blightSubject.extract.outcome = .error (.cause blightError) ∧
      ∃ error, Failure.cause blightError = .cause error ∧
        blightSubject.ErrorForm error := by
  have hvalid : blightSubject.package.validate = .ok () := by decide +kernel
  have hshown : blightSubject.extract.outcome.map (fun _ => ()) =
      .error (.cause blightError) := by decide +kernel
  have hfailed : blightSubject.extract.outcome =
      .error (.cause blightError) := by
    cases houtcome : blightSubject.extract.outcome with
    | ok extraction => simp [houtcome, Except.map] at hshown
    | error failure => simpa [houtcome, Except.map] using hshown
  exact ⟨hvalid, hfailed, extract_error_has_form hvalid hfailed⟩

end Subject

end SchemaLint
