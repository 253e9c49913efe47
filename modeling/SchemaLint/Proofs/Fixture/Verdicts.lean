import SchemaLint.Proofs.Fixture.Reading.Extracted
import SchemaLint.Proofs.Fixture.Reading.SetCalls
import SchemaLint.Proofs.Provenance.Boxing

/-!
# Verdicts on set entries

The rules on set calls report what is wrong with the entries of a fixture: those
that set an attribute that the schema does not have, a value that does not fit
the attribute, or one that is read through a pointer.
-/

namespace SchemaLint

/-! ## Shapes -/

namespace ValueShape

theorem name_of_ofName? {name : String} {shape : ValueShape}
    (hfound : ofName? name = some shape) : shape.name = name := by
  simpa using List.find?_some hfound

theorem isReadThroughPointer_iff (shape : ValueShape) :
    shape.isReadThroughPointer ↔ shape.name ∈ dereferencedShapes := by
  cases shape <;> decide

theorem fits_iff (shape : ValueShape) (type : AttributeType) :
    (∃ kind ∈ type.accepted, shape.kind? = some kind) ↔
      shape.name ∈ fittingShapes type := by
  cases shape <;> cases type <;> decide

end ValueShape

theorem AttributeType.isScalar_iff (type : AttributeType) :
    type.isScalar ↔ type ∈ [.bool, .int, .float, .string] := by
  cases type <;> decide

/-! ## Behind boxing -/

namespace Package

variable {p : Package}

/-- What a boxed value is read through is what the value itself is read
through. -/
theorem IsRead.outermost (hwf : p.WellFormed) {boxed content : ValueId}
    {through : Bool}
    (hboxing : p.operationAt boxed = .ok (.makeInterface content))
    (hread : p.IsRead content through) :
    ∃ trace outer, p.trace boxed = .ok trace ∧ trace.outermost p = .ok outer ∧
      ∀ sdk, RuleContext.isDereference ⟨p, sdk⟩ outer = .ok through := by
  obtain ⟨path, root, revisited, htraced, htrace⟩ :=
    hwf.trace (hasValue_of_operationAt hboxing)
  obtain ⟨outer, hinside, hbare, hanswer⟩ := hread
  have hwrapped : ∃ layers, p.Wrapped content layers outer := by
    rcases hinside with rfl | hchanging
    · exact ⟨_, .bare (isBare_eq_true_iff.1 hbare)⟩
    · exact ⟨_, .layer ⟨_, hchanging, rfl⟩ (.bare (isBare_eq_true_iff.1 hbare))⟩
  obtain ⟨layers, hwrapped⟩ := hwrapped
  have hfirst := (Wrapped.layer ⟨_, hboxing, rfl⟩ hwrapped).firstBare? htraced
  exact ⟨_, outer, htrace, by simp [Trace.outermost, hfirst], hanswer⟩

private theorem unboxInterface_boxed {boxed content : ValueId}
    {operation : Operation}
    (hboxing : p.operationAt boxed = .ok (.makeInterface content))
    (hknown : p.operationAt content = .ok operation)
    (hplain : ∀ x, operation ≠ .makeInterface x) :
    p.unboxInterface boxed = .ok content := by
  have hinside : 0 < p.values.size :=
    Nat.zero_lt_of_lt (hasValue_of_operationAt hboxing)
  obtain ⟨steps, hsize⟩ := Nat.exists_eq_succ_of_ne_zero (Nat.ne_of_gt hinside)
  have hended : p.unboxInterfaceWithin (steps + 1) content = .ok content := by
    cases operation with
    | makeInterface x => exact absurd rfl (hplain x)
    | _ => simp [unboxInterfaceWithin, hknown]
  rw [unboxInterface, hsize, unboxInterfaceWithin, hboxing]
  exact hended

end Package

namespace SetFixture.FoundAs

variable {p : Package} {fixture : SetFixture} {pos : Pos} {call : SetCall}
  (hfound : fixture.FoundAs p pos call)

include hfound

theorem isCompatible (type : AttributeType) (sdk : Sdk) :
    RuleContext.isCompatible ⟨p, sdk⟩ type call.value =
      .ok (decide (fixture.value ∈ fittingShapes type)) := by
  obtain ⟨content, shape, hboxing, hshaped, hshown⟩ := hfound.value
  obtain ⟨operation, hknown, hplain⟩ := hshown.plain
  obtain ⟨valueType, htyped, elem, behind, hpointed, hstructured, hbasic⟩ :=
    hshown.type
  have hunboxed := Package.unboxInterface_boxed hboxing hknown hplain
  simp only [RuleContext.isCompatible, hunboxed, htyped, hpointed, hstructured,
    Access.ok_bind]
  have hfits := shape.fits_iff type
  rw [ValueShape.name_of_ofName? hshaped] at hfits
  cases hkinded : shape.kind? with
  | some kind =>
      rw [(hbasic kind).2 hkinded]
      simp [← hfits, hkinded]
  | none =>
      cases behind with
      | basic kind => exact absurd ((hbasic kind).1 rfl) (by simp [hkinded])
      | _ => simp [← hfits, hkinded]

theorem checkDereference (hwf : p.WellFormed) (sdk : Sdk) :
    (RuleContext.checkDereference ⟨p, sdk⟩ call).Yields
      (fixture.dereferenceIssue? pos) := by
  obtain ⟨content, shape, hboxing, hshaped, hshown⟩ := hfound.value
  obtain ⟨trace, outer, htraced, houtermost, hanswer⟩ :=
    hshown.read.outermost hwf hboxing
  have hthrough := shape.isReadThroughPointer_iff
  rw [ValueShape.name_of_ofName? hshaped] at hthrough
  refine Report.bind_yields.2 ⟨trace, Analysis.trace_yields.2 htraced, ?_⟩
  refine Report.bind_yields.2
    ⟨outer, Analysis.monadLift_yields.2 houtermost, ?_⟩
  refine Report.bind_yields.2 ⟨_, Analysis.monadLift_yields.2 (hanswer sdk), ?_⟩
  rw [dereferenceIssue?, ← hfound.name, ← hfound.pos]
  split
  · next hisRead => exact Report.pure_yields.2 (if_pos (hthrough.1 hisRead))
  · next hdirect =>
      exact Report.pure_yields.2
        (if_neg fun hlisted => hdirect (hthrough.2 hlisted))

variable {component : Component} {names : List String}

theorem checkExists
    (hknown : ∀ name, (component.attribute? name).isSome ↔ name ∈ names) :
    SchemaLint.checkExists component call =
      fixture.unknownIssue? names pos := by
  rw [SchemaLint.checkExists, unknownIssue?, hfound.name, hfound.pos]
  cases hlooked : component.attribute? fixture.name with
  | none => rw [if_neg (by simp [← hknown, hlooked])]
  | some attr => rw [if_pos ((hknown _).1 (by simp [hlooked]))]

theorem checkTypes {typeOf : String → Option AttributeType}
    (htyped :
      ∀ name, typeOf name = (component.attribute? name).map Attribute.type)
    (sdk : Sdk) :
    (RuleContext.checkTypes ⟨p, sdk⟩ component call).Yields
      (fixture.typeIssue? typeOf pos) := by
  unfold RuleContext.checkTypes typeIssue?
  rw [htyped, hfound.name, hfound.pos]
  cases hlooked : component.attribute? fixture.name with
  | none => exact Report.pure_yields.2 rfl
  | some attr =>
      obtain ⟨-, hnamed⟩ := Attribute.mem_of_search? hlooked
      have hscalar := attr.type.isScalar_iff
      simp only [Option.map_some, Option.bind_eq_bind, Option.bind_some, hnamed]
      split
      · next hisScalar =>
          refine Report.bind_yields.2 ⟨_,
            Analysis.monadLift_yields.2 (hfound.isCompatible attr.type sdk), ?_⟩
          split
          · next hfits =>
              exact Report.pure_yields.2
                (if_neg fun hwrong => hwrong.2 (of_decide_eq_true hfits))
          · next hmisfits =>
              exact Report.pure_yields.2 (if_pos ⟨hscalar.1 hisScalar,
                fun hfits => hmisfits (decide_eq_true hfits)⟩)
      · next hother =>
          refine Report.bind_yields.2
            ⟨(), Report.log_yields, Report.pure_yields.2 ?_⟩
          exact if_neg fun hwrong => hother (hscalar.2 hwrong.1)

end SetFixture.FoundAs

/-! ## Components -/

/-- The rules on set calls report the live entries that are mistakes, each
once. -/
def ComponentFixture.Judged (p : Package) (entry : String × ComponentFixture)
    (component : Component) : Prop :=
  let keys := (entry.2.schema.getD []).map Prod.fst
  component.name = entry.1 ∧
    ∃ order typeOf, entry.2.ListsLive order ∧ component.TypedBy keys typeOf ∧
    ∀ readOnly,
      (Rule.attributeExists.check ⟨p, .usual⟩ readOnly component).Yields
        (order.filterMap fun live => live.1.set.unknownIssue? keys live.2) ∧
      (Rule.noDereference.check ⟨p, .usual⟩ readOnly component).Yields
        (order.filterMap fun live => live.1.set.dereferenceIssue? live.2) ∧
      (Rule.attributeTypes.check ⟨p, .usual⟩ readOnly component).Yields
        (order.filterMap fun live => live.1.set.typeIssue? typeOf live.2)

theorem Component.ReadFrom.attribute?_isSome_iff {component : Component}
    {slots : Slots} {names : List String}
    (hreadFrom : component.ReadFrom slots names) (name : String) :
    (component.attribute? name).isSome ↔ name ∈ names := by
  rw [Component.attribute?, Attribute.search?_isSome_iff hreadFrom.sorted,
    ← hreadFrom.named.mem_iff, List.mem_map]

theorem Component.ReadFrom.typedBy {component : Component} {slots : Slots}
    {names : List String} (hreadFrom : component.ReadFrom slots names) :
    component.TypedBy names fun name =>
      (component.attribute? name).map Attribute.type where
  isSome_iff name := by rw [Option.isSome_map, hreadFrom.attribute?_isSome_iff]
  extracted {name type} htyped := by
    obtain ⟨attr, hlooked, rfl⟩ := Option.map_eq_some_iff.1 htyped
    obtain ⟨hmember, hnamed⟩ := Attribute.mem_of_search? hlooked
    exact ⟨attr, hmember, hnamed, rfl⟩

/-- A check of calls, one after the other, gives what is wrong with the
entries. -/
theorem filterMapM_yields_of_found {p : Package}
    {check : SetCall → Check (Option Issue)}
    {verdict : SetFixture → Pos → Option Issue} {order : List (SetEntry × Pos)}
    {calls : List SetCall}
    (hfound :
      List.Forall₂ (fun entry call => entry.1.set.FoundAs p entry.2 call) order
        calls)
    (hright :
      ∀ {fixture : SetFixture} {pos : Pos} {call : SetCall}, fixture.FoundAs p
          pos call → (check call).Yields (verdict fixture pos)) :
    (calls.filterMapM check).Yields
      (order.filterMap fun live => verdict live.1.set live.2) := by
  refine Report.filterMapM_yields.2
    ⟨order.map fun live => verdict live.1.set live.2, ?_, ?_⟩
  · exact List.forall₂_map_right_iff.2
      (List.Forall₂.flip (hfound.imp fun _ _ => hright))
  · rw [List.filterMap_map]
    rfl

theorem ComponentFixture.FoundAs.judged {p : Package} {plugin : Plugin}
    {entry : String × ComponentFixture} {component : Component}
    (hfound : ComponentFixture.FoundAs p plugin entry component)
    (hwf : p.WellFormed) (hcallable : plugin.Callable p)
    (hremoval : p.Aside plugin.removeFromState) (hplain : entry.2.SetsPlainly) :
    ComponentFixture.Judged p entry component := by
  obtain ⟨hnamed, stem, builder, slots, effects, resource, hmade, hreadFrom⟩ :=
    hfound
  obtain ⟨chains, hlives⟩ := hmade.lives hplain
  obtain ⟨order, calls, hlisted, hyields, hfound⟩ :=
    setCalls_live hmade.filled hlives hcallable hremoval hreadFrom.declared hwf
  refine ⟨hnamed, order, _, hlisted, hreadFrom.typedBy,
    fun readOnly => ⟨?_, ?_, ?_⟩⟩
  · refine Report.bind_yields.2 ⟨calls, hyields, Report.pure_yields.2 ?_⟩
    exact filterMap_eq_of_forall₂ hfound fun hown =>
      (hown.checkExists hreadFrom.attribute?_isSome_iff).symm
  · refine Report.bind_yields.2 ⟨calls, hyields, ?_⟩
    exact filterMapM_yields_of_found hfound fun hown =>
      hown.checkDereference hwf .usual
  · refine Report.bind_yields.2 ⟨calls, hyields, ?_⟩
    exact filterMapM_yields_of_found hfound fun hown =>
      hown.checkTypes (fun _ => rfl) .usual

/-- Every set rule judges every component of a fixture by its live entries: an
entry is reported as unknown when its name is not in the schema, as a
dereference when its value has such a shape, and as unfit when its attribute has
a scalar type that its value does not fit. Nothing else is reported. -/
theorem setRules_report_live_mistakes (fixture : ProviderFixture)
    (package : Package) (provider : Provider)
    (hbuilt : fixture.build = .ok package)
    (hextracted : (Provider.ofPackage package .usual).Yields provider)
    (hplain :
      ∀ component ∈ fixture.dataSources ++ fixture.resources,
        component.2.SetsPlainly) :
    List.Forall₂ (ComponentFixture.Judged package) fixture.dataSources
        provider.dataSources ∧
      List.Forall₂ (ComponentFixture.Judged package) fixture.resources
        provider.resources := by
  obtain ⟨plugin, dataList, resourceList, entry, effects, hparts⟩ :=
    ProviderFixture.build_built hbuilt
  obtain ⟨hdataSources, hresources⟩ := hparts.foundAs hextracted
  obtain ⟨hdataPlain, hresourcesPlain⟩ := List.forall_mem_append.1 hplain
  have hjudged {entries : List (String × ComponentFixture)}
      {components : List Component}
      (hfound :
        List.Forall₂ (ComponentFixture.FoundAs package plugin) entries
          components)
      (hplain : ∀ entry ∈ entries, entry.2.SetsPlainly) :
      List.Forall₂ (ComponentFixture.Judged package) entries components :=
    ((List.forall₂_and_left _ _).2 ⟨hplain, hfound⟩).imp
        fun _ _ ⟨hplain, hfound⟩ =>
      hfound.judged hparts.wellFormed hparts.callable hparts.removal hplain
  exact ⟨hjudged hdataSources hdataPlain, hjudged hresources hresourcesPlain⟩

/-- A data source whose helper calls it back, a resource that sets attributes
while it is created by way of deleting and has an entry that nothing reaches,
and one that sets attributes while it is updated only. -/
def greenhouse : ProviderFixture where
  isVendored := true
  dataSources := [("example_bed", {
    shim := true
    schema := some [
      ("open", { type := some "bool", computed := true }),
      ("label", { type := some "string" })]
    read := some {
      sets := [
        { name := "open", value := "slice_elem" },
        { name := "label", value := "map_elem_deref" },
        { value := "int", hasDynamicName := true }]
      helper := some {
        sets := [{ name := "soil", value := "map" }]
        callSlots := [.read] } } })]
  resources := [
    ("example_pot", {
      schema := some [
        ("size", { type := some "int", required := true }),
        ("color", { isDynamic := true })]
      create := some {
        sets := [{ name := "size", value := "uint" }]
        callSlots := [.delete, .update] }
      update := some { sdk := some "remove_from_state" }
      delete := some {
        sets := [
          { name := "color", value := "deref" },
          { name := "size", value := "int64" }] }
      existence := some { sets := [{ name := "lid", value := "deref" }] } }),
    ("example_tray", {
      schema := some [
        ("width", { type := some "float" }),
        ("depth", { type := some "float" })]
      update := some {
        sets := [
          { name := "depth", value := "float32" },
          { name := "width", value := "deref" },
          { name := "lid", value := "string" }] } })]

/-- The messages of the three rules on set calls, if they can be run. -/
def setMessages (p : Package) (entry : Bool × Component) :
    Option (List (List String)) :=
  [Rule.attributeExists, .noDereference, .attributeTypes].mapM fun rule =>
    (rule.check ⟨p, .usual⟩ entry.1 entry.2).outcome.toOption.map
      (List.map Issue.message)

def greenhouseMessages : List (Option (List (List String))) := [
  some [
    ["attribute \"soil\" was not read from the schema"],
    ["do not dereference value for attribute \"label\" when calling Set"],
    ["attribute \"open\" expects a Set value compatible with TypeBool"]],
  some [
    [],
    ["do not dereference value for attribute \"color\" when calling Set"],
    ["attribute \"size\" expects a Set value compatible with TypeInt"]],
  some [
    ["attribute \"lid\" was not read from the schema"],
    ["do not dereference value for attribute \"width\" when calling Set"],
    ["attribute \"width\" expects a Set value compatible with TypeFloat"]]]

theorem greenhouse_setRules_report_live_mistakes :
    ∃ package provider, greenhouse.build = .ok package ∧
      (Provider.ofPackage package .usual).Yields provider ∧
      (∀ component ∈ greenhouse.dataSources ++ greenhouse.resources,
        component.2.SetsPlainly) ∧
      provider.components.map (setMessages package) = greenhouseMessages ∧
      List.Forall₂ (ComponentFixture.Judged package) greenhouse.dataSources
        provider.dataSources ∧
      List.Forall₂ (ComponentFixture.Judged package) greenhouse.resources
        provider.resources := by
  have hfound : (greenhouse.build.toOption.bind fun package =>
      (Provider.ofPackage package .usual).outcome.toOption.map fun provider =>
        provider.components.map (setMessages package)) =
      some greenhouseMessages := by decide +kernel
  obtain ⟨package, hpackage, hfound⟩ := Option.bind_eq_some_iff.1 hfound
  obtain ⟨provider, hprovider, hmessages⟩ := Option.map_eq_some_iff.1 hfound
  have hbuilt : greenhouse.build = .ok package := by
    cases hbuild : greenhouse.build with
    | error failure => simp [hbuild, Except.toOption] at hpackage
    | ok package' => simpa [hbuild, Except.toOption] using hpackage
  have hextracted := Report.yields_of_toOption hprovider
  have hplain : ∀ component ∈ greenhouse.dataSources ++ greenhouse.resources,
      component.2.SetsPlainly := by decide
  exact ⟨package, provider, hbuilt, hextracted, hplain, hmessages,
    setRules_report_live_mistakes greenhouse package provider hbuilt hextracted
      hplain⟩

end SchemaLint
