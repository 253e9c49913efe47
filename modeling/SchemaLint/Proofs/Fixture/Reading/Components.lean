import SchemaLint.Proofs.Fixture.Lowering.Components
import SchemaLint.Proofs.Fixture.Reading.Attributes

/-!
# Reading components back

Extraction reads from a builder the component that it was lowered from.
-/

namespace SchemaLint

/-! ## Names -/

theorem isPrefixOf?_eq (first : List Char) (text : List Char) :
    first.isPrefixOf? text =
      if first.isPrefixOf text then some (text.drop first.length)
        else none := by
  induction first generalizing text with
  | nil => cases text <;> rfl
  | cons c rest ih =>
      cases text with
      | nil => rfl
      | cons d text =>
          by_cases hsame : c = d
          · simp [List.isPrefixOf?, List.isPrefixOf, hsame, ih]
          · simp [List.isPrefixOf?, List.isPrefixOf, hsame]

theorem Subject.nameSuffix_eq (s : Subject) (name : String) :
    s.nameSuffix name = suffixOf s.providerName name := by
  unfold Subject.nameSuffix suffixOf
  rw [isPrefixOf?_eq]
  by_cases hunnamed : s.providerName = ""
  · simp [hunnamed]
  · cases hstarts : (s.providerName ++ "_").toList.isPrefixOf name.toList <;>
      simp only [hunnamed, hstarts] <;>
      simp [hunnamed]

theorem FunctionFixture.FilledBy.funcName {p : Package} {plugin : Plugin}
    {stem : String} {slot : LifecycleSlot} {fixture : FunctionFixture}
    {func : FuncId} (hknown : plugin.Known p)
    (hfilled : fixture.FilledBy p plugin (stem ++ slot.fieldName) func) :
    p.funcName func = .ok (fixture.declaredName p.path stem slot) := by
  unfold FilledBy at hfilled
  unfold declaredName
  cases hgiven : fixture.sdk with
  | some other =>
      rw [hgiven] at hfilled
      subst hfilled
      obtain ⟨f, hfound, hpackage, hnamed, hreceiver⟩ := hknown.removal
      simp only [Package.funcName, hfound, Access.ok_bind, hreceiver, hpackage,
        hnamed]
      decide
  | none =>
      rw [hgiven] at hfilled
      obtain ⟨f, hfound, hnamed, hpackage, hreceiver⟩ := hfilled
      simp [Package.funcName, hfound, hreceiver, hpackage, hnamed]

theorem SlotsFilled.funcNames {p : Package} {plugin : Plugin} {stem : String}
    {bodies : List (LifecycleSlot × FunctionFixture)} {slots : Slots}
    (hknown : plugin.Known p)
    (hfilled : SlotsFilled p plugin stem bodies slots) :
    (slots.mapM fun (slot, func) => do return (slot, ← p.funcName func)) =
      (.ok (bodies.map fun (slot, body) =>
          (slot, body.declaredName p.path stem slot)) : Access _) := by
  refine Access.mapM_eq_ok
    (List.forall₂_map_right_iff.2 (List.Forall₂.flip (hfilled.imp ?_)))
  rintro ⟨slot, body⟩ ⟨_, func⟩ ⟨rfl, hfilled⟩
  have hnamed := FunctionFixture.FilledBy.funcName hknown hfilled
  simp [flip, hnamed]

/-! ## Lifecycle functions -/

private theorem LifecycleSlot.fieldName_inj {slot other : LifecycleSlot} :
    slot.fieldName = other.fieldName ↔ slot = other := by
  cases slot <;> cases other <;> decide

private theorem lookup_slotAssignments (p : Package) (slots : Slots)
    (slot : LifecycleSlot) :
    (slotAssignments p slots).lookup slot.fieldName =
      (slots.lookup slot).map fun func =>
        (p.operationAt · = .ok (.function func)) := by
  induction slots with
  | nil => rfl
  | cons first rest ih =>
      obtain ⟨other, func⟩ := first
      by_cases hsame : slot = other
      · simp [slotAssignments, hsame]
      · have hapart : ¬slot.fieldName = other.fieldName :=
          fun hequal => hsame (LifecycleSlot.fieldName_inj.1 hequal)
        simpa [slotAssignments, List.lookup_cons, hsame, hapart,
          beq_eq_false_iff_ne.2] using ih

theorem lookup_slotAssignments_schema (p : Package) (slots : Slots) :
    (slotAssignments p slots).lookup "Schema" = none := by
  induction slots with
  | nil => rfl
  | cons first rest ih =>
      obtain ⟨slot, func⟩ := first
      have hapart : ("Schema" == slot.fieldName) = false := by
        cases slot <;> decide
      simpa [slotAssignments, List.lookup_cons, hapart] using ih

theorem SlotsFilled.filterMap_lookup {p : Package} {plugin : Plugin}
    {stem : String} {fixture : ComponentFixture} {slots : Slots}
    (hfilled : SlotsFilled p plugin stem fixture.bodies slots) :
    (LifecycleSlot.all.map fun slot =>
        (slots.lookup slot).map (slot, ·)).filterMap id = slots := by
  rw [List.filterMap_map]
  refine SchemaLint.filterMap_lookup (by decide) ?_
  rw [hfilled.slots_eq]
  exact fixture.bodies_slots

/-! ## Components -/

namespace ComponentFixture.Made

variable {s : Subject} {plugin : Plugin} {stem : String}
  {fixture : ComponentFixture} {builder : FuncId} {slots : Slots}
  {effects : List Effect} {resource : ValueId}

theorem does {p : Package}
    (hmade : fixture.Made p plugin stem builder slots effects resource) :
    p.Does builder effects := by
  obtain ⟨results, seg, pos, hown, -, hdone⟩ := hmade.own
  have hwhole := hdone.append (.ret .nil : p.Effects [.ret [resource] pos] [])
  rw [List.append_nil] at hwhole
  exact ⟨_, hown.instructions, hwhole⟩

variable
  (hmade : fixture.Made s.package plugin stem builder slots effects resource)
  (husual : s.sdk = .usual) (hknown : plugin.Known s.package)

include hmade husual hknown

theorem resourceStores :
    (s.resourceStores builder).Yields
      (storesOf (libraryName "Resource") (effectsOn resource effects)) := by
  obtain ⟨results, seg, pos, hown, hfilled, -⟩ := hmade.own
  have hallocated := hmade.fills.allocated
  have hstuck := (hallocated.isStruct hknown.resource).originStep? 0
  have hisResource :=
    AttributeFixture.isAllocOf_resource husual hknown hallocated
  have hreached :
      (s.package.reachedStores builder (libraryName "Resource") :
        Extract (List FieldStore)).Yields
      (storesOf (libraryName "Resource") effects) := by
    refine hmade.does.reachedStores ?_
    rw [hmade.fills.only.calleesOf_eq_nil]
    exact nofun
  have hreturned : (s.returnedAlloc? builder).Yields (some resource) := by
    refine Report.bind_yields.2 ⟨some resource,
      Analysis.monadLift_yields.2 (hown.returnValue? hfilled), ?_⟩
    refine Report.bind_yields.2
      ⟨resource, Analysis.root_yields.2 (Package.root_of_stuck hstuck), ?_⟩
    exact Report.bind_yields.2
      ⟨true, Analysis.monadLift_yields.2 hisResource, Report.pure_yields.2 rfl⟩
  rw [← filter_storesOf]
  refine Report.bind_yields.2
    ⟨_, by rw [husual, Sdk.usual_resourceType]; exact hreached, ?_⟩
  exact Report.bind_yields.2 ⟨_, hreturned, Report.pure_yields.2 rfl⟩

end ComponentFixture.Made

section

variable {s : Subject} {plugin : Plugin} {func : FuncId} {effects : List Effect}
  {resource : ValueId} {stores last : List FieldStore} {slots : Slots}
  (hassigned : Assigned resource stores (slotAssignments s.package slots))
  {schema : Option AttributeFixtures}
  (hstored : SchemaStored s.package plugin func effects schema last)

include hassigned hstored

theorem lifecycleFunction?_yields (slot : LifecycleSlot) :
    (s.lifecycleFunction? (stores ++ last) slot).Yields
      (slots.lookup slot) := by
  have hothers : firstStore? last slot.fieldName = none := by
    cases hstored with
    | absent => rfl
    | present hnamed =>
        cases slot <;> simp [firstStore?, hnamed, LifecycleSlot.fieldName]
  have hfirst := hassigned.firstStore? slot.fieldName
  rw [lookup_slotAssignments] at hfirst
  cases hlooked : slots.lookup slot with
  | none =>
      rw [hlooked] at hfirst
      rw [Subject.lifecycleFunction?, firstStore?_append, hfirst, hothers]
      exact Report.pure_yields.2 rfl
  | some func =>
      rw [hlooked] at hfirst
      obtain ⟨store, hfound, hright⟩ := hfirst
      have hstuck : s.package.originStep? store.value 0 = .ok none := by
        simp [Package.originStep?, hright]
      rw [Subject.lifecycleFunction?, firstStore?_append, hfound]
      refine Report.bind_yields.2
        ⟨store.value, Analysis.root_yields.2 (Package.root_of_stuck hstuck), ?_⟩
      exact Report.bind_yields.2
        ⟨_, Analysis.monadLift_yields.2 hright, Report.pure_yields.2 rfl⟩

theorem lifecycleFunctions_yields :
    (LifecycleSlot.all.mapM fun slot => do
      return (← s.lifecycleFunction? (stores ++ last) slot).map
        (slot, ·)).Yields
      (LifecycleSlot.all.map fun slot =>
          (slots.lookup slot).map (slot, ·)) := by
  refine Report.mapM_yields.2
    (List.forall₂_map_right_iff.2 (List.forall₂_same.2 fun slot _ => ?_))
  exact Report.bind_yields.2 ⟨_,
    lifecycleFunction?_yields hassigned hstored slot, Report.pure_yields.2 rfl⟩

/-- The attributes of a component are the ones of its schema. Without a schema
it is partial. -/
theorem componentAttributes_yields (husual : s.sdk = .usual)
    (hwf : s.package.WellFormed) (hknown : plugin.Known s.package)
    (hdoes : s.package.Does func effects) (name : String)
    (hcodes : AttributeFixture.HaveKnownCodes (schema.getD []))
    (hdeep :
      AttributeFixture.nestingAll (schema.getD []) ≤ Subject.nestingLimit) :
    ∃ list, (s.componentAttributes name (stores ++ last)).Yields
        ⟨sortByName list, schema.isNone⟩ ∧
      list.map Attribute.unplaced =
        AttributeFixture.declaredAll (schema.getD []) := by
  have hfirst :=
    hassigned.firstStore?_eq_none
      (lookup_slotAssignments_schema s.package slots)
  unfold Subject.componentAttributes
  rw [firstStore?_append, hfirst, Option.none_or]
  cases hstored with
  | absent =>
      refine ⟨[], ?_, rfl⟩
      rw [sortByName_nil]
      exact Report.bind_yields.2
        ⟨(), Report.debug_yields, Report.pure_yields.2 rfl⟩
  | @present store attributes hnamed hisMade hentries =>
      have hfound : firstStore? [store] "Schema" = some store := by
        simp [firstStore?, hnamed]
      obtain ⟨list, hyielded, hsame⟩ :=
        AttributeFixture.reads_attributesWithin husual hwf hknown hdoes
          Subject.nestingLimit hisMade hentries hcodes (Nat.lt_succ_of_le hdeep)
      rw [hfound]
      exact ⟨list, Analysis.within_yields.2 hyielded, hsame⟩

end

theorem ComponentFixture.Made.component {s : Subject} {plugin : Plugin}
    {name kind : String} {fixture : ComponentFixture} {builder : FuncId}
    {slots : Slots} {effects : List Effect} {resource : ValueId}
    (hmade :
      fixture.Made s.package plugin (camel (kind ++ "_" ++ name)) builder slots
        effects resource)
    (husual : s.sdk = .usual) (hwf : s.package.WellFormed)
    (hknown : plugin.Known s.package)
    (hnamed : s.providerName = (providerName? s.package.path).getD "")
    (hcodes : AttributeFixture.HaveKnownCodes (fixture.schema.getD []))
    (hdeep :
      AttributeFixture.nestingAll (fixture.schema.getD []) ≤
        Subject.nestingLimit)
    (pos : Pos) :
    ∃ component, (s.component name builder pos).Yields component ∧
      component.outline s.package =
        .ok
          (ComponentFixture.declared s.package.path kind (name, fixture)) := by
  obtain ⟨stores, last, hlisted, hassigned, hstored⟩ := hmade.fills.stored
  have hresourceStores := hmade.resourceStores husual hknown
  rw [hlisted] at hresourceStores
  obtain ⟨results, seg, pos', hown, -, -⟩ := hmade.own
  obtain ⟨f, hfound, -, -, -, hdoc, -⟩ := id hown
  have hfunctions := lifecycleFunctions_yields hassigned hstored
  obtain ⟨list, hattributes, hsame⟩ :=
    componentAttributes_yields hassigned hstored husual hwf hknown hmade.does
      name hcodes hdeep
  refine ⟨{ name, builder, pos
            nameSuffix := s.nameSuffix name
            description := describe fixture.doc
            declared := slots
            attributes := sortByName list
            isPartial :=
              fixture.schema.isNone ||
                (sortByName list).any (·.isPartial) }, ?_, ?_⟩
  · refine Report.bind_yields.2 ⟨_, hresourceStores, ?_⟩
    refine Report.bind_yields.2 ⟨f, Analysis.monadLift_yields.2 hfound, ?_⟩
    refine Report.bind_yields.2 ⟨_, hfunctions, ?_⟩
    refine Report.bind_yields.2 ⟨_, hattributes, Report.pure_yields.2 ?_⟩
    rw [hdoc, hmade.filled.filterMap_lookup]
    rfl
  · have hsorted : (sortByName list).map Attribute.unplaced =
        Attribute.inOrder
          (AttributeFixture.declaredAll (fixture.schema.getD [])) := by
      rw [Attribute.map_unplaced_sortByName, hsame]
    refine Access.bind_eq_ok_iff.2 ⟨_, hmade.filled.funcNames hknown,
      Access.bind_eq_ok_iff.2 ⟨_, hown.funcName, ?_⟩⟩
    simp only [Access.pure_eq, declared]
    rw [hsorted, s.nameSuffix_eq, hnamed,
      ← Attribute.any_isPartial_map_unplaced, hsorted, describe]

end SchemaLint
