import SchemaLint.Proofs.Fixture.Declared
import SchemaLint.Proofs.Fixture.Lowering.Attributes
import SchemaLint.Proofs.Lists
import SchemaLint.Proofs.Queries.Types

/-!
# Reading attributes back

Extraction reads from a description the attribute that it was built for.
-/

namespace SchemaLint

/-! ## Origins -/

namespace Package

variable {p : Package}

theorem root_of_step {value next : ValueId}
    (hstep : p.originStep? value 0 = .ok (some (next, 0)))
    (hstuck : p.originStep? next 0 = .ok none) : p.root value = .ok next := by
  have hother : next ∉ [value] := by
    rw [List.mem_singleton]
    rintro rfl
    cases hstep.symm.trans hstuck
  simp [root, trace, traceFrom_step List.not_mem_nil hstep,
    traceFrom_stuck hother hstuck]

private theorem root_of_steps {value mid last : ValueId}
    (hfirst : p.originStep? value 0 = .ok (some (mid, 0)))
    (hsecond : p.originStep? mid 0 = .ok (some (last, 0)))
    (hstuck : p.originStep? last 0 = .ok none) : p.root value = .ok last := by
  have hapart : mid ≠ last := by
    rintro rfl
    cases hsecond.symm.trans hstuck
  have hother : mid ∉ [value] := by
    rw [List.mem_singleton]
    rintro rfl
    cases hfirst.symm.trans hsecond
    exact hapart rfl
  have hended : last ∉ [mid, value] := by
    simp only [List.mem_cons, List.not_mem_nil, or_false, not_or]
    refine ⟨hapart.symm, ?_⟩
    rintro rfl
    cases hfirst.symm.trans hstuck
  simp [root, trace, traceFrom_step List.not_mem_nil hfirst,
    traceFrom_step hother hsecond, traceFrom_stuck hended hstuck]

theorem IsConst.originStep? {value : ValueId} {constant : Constant}
    (hknown : p.IsConst value constant) : p.originStep? value 0 = .ok none := by
  rw [IsConst] at hknown
  simp [Package.originStep?, hknown]

theorem IsConst.root {value : ValueId} {constant : Constant}
    (hknown : p.IsConst value constant) : p.root value = .ok value :=
  root_of_stuck hknown.originStep?

theorem IsMade.operationAt {func : FuncId} {map : ValueId}
    (hmade : p.IsMade func map) : p.operationAt map = .ok (.makeMap none) := by
  obtain ⟨type, pos, hfound⟩ := hmade
  simp [Package.operationAt, hfound]

theorem IsMade.root {func : FuncId} {map : ValueId}
    (hmade : p.IsMade func map) : p.root map = .ok map :=
  root_of_stuck (by simp [Package.originStep?, hmade.operationAt])

theorem IsMade.isMap {func : FuncId} {map : ValueId}
    (hmade : p.IsMade func map) : p.isMap map = .ok true := by
  simp [Package.isMap, hmade.operationAt]

theorem isAllocOf_global {value : ValueId} {name : String}
    (hknown : p.operationAt value = .ok (.global name)) (type : String) :
    p.isAllocOf value type = .ok false := by
  obtain ⟨whole, hfound, hsame⟩ := operationAt_eq_ok_iff.1 hknown
  simp [isAllocOf, hfound, hsame]

theorem WellFormed.valueText_of_operationAt (hwf : p.WellFormed)
    {value : ValueId} {operation : Operation}
    (hknown : p.operationAt value = .ok operation) :
    ∃ text, p.valueText value = .ok text := by
  obtain ⟨whole, hfound, -⟩ := operationAt_eq_ok_iff.1 hknown
  have hbound := (Array.getElem?_eq_some_iff.1 (valueAt_eq_ok_iff.1 hfound)).1
  obtain ⟨text, hanswered, -⟩ := Access.faultless_iff.1 (hwf.valueText hbound)
  exact ⟨text, hanswered⟩

theorem Does.instanceStores_allocated {func : FuncId} {effects : List Effect}
    (hdoes : p.Does func effects) {value : ValueId} {elem : TypeId}
    (hallocated : p.IsAllocated func value elem) (type : String) :
    (p.instanceStores value type : Analysis ε (List FieldStore)).Yields
      (storesOf type (effectsOn value effects)) := by
  obtain ⟨_, _, hfound, -⟩ := hallocated
  rw [← filter_storesOf]
  exact hdoes.instanceStores hfound rfl type

theorem Does.mapEntries_made {func : FuncId} {effects : List Effect}
    (hdoes : p.Does func effects) {map : ValueId} (hmade : p.IsMade func map) :
    p.mapEntries map = .ok (updatesOf map effects) := by
  obtain ⟨type, pos, hfound⟩ := hmade
  exact hdoes.mapEntries hfound rfl

end Package

/-! ## Stores -/

theorem firstStore?_append (first second : List FieldStore) (field : String) :
    firstStore? (first ++ second) field =
      (firstStore? first field).or (firstStore? second field) :=
  List.find?_append

theorem Assigned.firstStore? {base : ValueId} {stores : List FieldStore}
    {assignments : List Assignment}
    (hassigned : Assigned base stores assignments) (field : String) :
    match assignments.lookup field with
    | none => SchemaLint.firstStore? stores field = none
    | some holds =>
        ∃ store, SchemaLint.firstStore? stores field = some store ∧
            holds store.value := by
  induction hassigned with
  | nil => rfl
  | @cons store assignment stores assignments hfirst _ ih =>
      obtain ⟨name, holds⟩ := assignment
      obtain ⟨-, hnamed, hright⟩ := hfirst
      simp only at hnamed hright
      by_cases hsame : field = name
      · subst hsame
        simpa [SchemaLint.firstStore?, List.lookup_cons, hnamed] using hright
      · have hother : ¬name = field := fun hequal => hsame hequal.symm
        simpa [SchemaLint.firstStore?, List.lookup_cons, hnamed, hsame, hother,
          beq_eq_false_iff_ne.2 hsame] using ih

theorem Assigned.firstStore?_eq_none {base : ValueId} {stores : List FieldStore}
    {assignments : List Assignment}
    (hassigned : Assigned base stores assignments) {field : String}
    (hlooked : assignments.lookup field = none) :
    SchemaLint.firstStore? stores field = none := by
  have hfirst := hassigned.firstStore? field
  rwa [hlooked] at hfirst

/-! ## Fields -/

def Reading.ofOption : Option α → Reading α
  | none => .absent
  | some a => .found a

@[simp] theorem Reading.value?_ofOption (option : Option α) :
    (ofOption option).value? = option := by
  cases option <;> rfl

@[simp] theorem Reading.isUnresolved_ofOption (option : Option α) :
    (ofOption option).isUnresolved = false := by
  cases option <;> rfl

def Reading.expected : Option α → Reading α
  | none => .unresolved
  | some a => .found a

@[simp] theorem Reading.value?_expected (option : Option α) :
    (expected option).value? = option := by
  cases option <;> rfl

@[simp] theorem Reading.isUnresolved_expected (option : Option α) :
    (expected option).isUnresolved = option.isNone := by
  cases option <;> rfl

section

variable {s : Subject} {value : ValueId}

theorem Assigned.readField {base : ValueId} {stores last : List FieldStore}
    {assignments : List Assignment}
    (hassigned : Assigned base stores assignments) {field : String}
    {option : Option α} {holds : α → ValueId → Prop}
    (hlooked : assignments.lookup field = option.map holds)
    (hothers : SchemaLint.firstStore? last field = none)
    {read : ValueId → Extract (Option α)}
    (hreads :
      ∀ a ∈ option, ∀ value, holds a value → (read value).Yields (some a)) :
    (s.readField (stores ++ last) field read).Yields (.ofOption option) := by
  have hfirst := hassigned.firstStore? field
  rw [hlooked] at hfirst
  cases option with
  | none =>
      rw [Subject.readField, firstStore?_append, hfirst, hothers]
      exact Report.pure_yields.2 rfl
  | some a =>
      obtain ⟨store, hfound, hright⟩ := hfirst
      rw [Subject.readField, firstStore?_append, hfound]
      exact Report.bind_yields.2
        ⟨some a, hreads a rfl store.value hright, Report.pure_yields.2 rfl⟩

theorem constString?_of_isConst {text : String}
    (hknown : s.package.IsConst value (.string text)) :
    (Analysis.constString? s.package value : Extract (Option String)).Yields
      (some text) := by
  rw [Analysis.constString?_yields]
  refine ⟨value, hknown.root, ?_⟩
  rw [Package.IsConst] at hknown
  simp [Package.constString?, hknown]

private theorem constInt?_of_isConst {n : Int}
    (hknown : s.package.IsConst value (.int n)) :
    (s.constInt? value).Yields (some n) := by
  rw [Subject.constInt?, Report.bind_yields]
  refine ⟨value, Analysis.root_yields.2 hknown.root, ?_⟩
  rw [Report.bind_yields]
  exact ⟨_, Analysis.monadLift_yields.2 hknown, Report.pure_yields.2 rfl⟩

private theorem constBoolWithin?_of_isConst {b : Bool}
    (hknown : s.package.IsConst value (.bool b)) (steps : Nat) :
    (s.constBoolWithin? (steps + 1) value).Yields (some b) := by
  rw [Subject.constBoolWithin?, Report.bind_yields]
  refine ⟨value, Analysis.root_yields.2 hknown.root, ?_⟩
  rw [Report.bind_yields]
  exact ⟨_, Analysis.monadLift_yields.2 hknown, Report.pure_yields.2 rfl⟩

private theorem constBool?_of_isTrue (hknown : s.package.IsTrue value) :
    (s.constBool? value).Yields (some true) := by
  rcases hknown with hknown | ⟨x, hnegation, hknown⟩
  · exact constBoolWithin?_of_isConst hknown _
  · have hstuck : s.package.originStep? value 0 = .ok none := by
      simp [Package.originStep?, hnegation]
    -- The bound leaves a step for the constant, which is one of the values.
    obtain ⟨whole, hfound, -⟩ := Package.operationAt_eq_ok_iff.1 hknown
    have hbound :=
      (Array.getElem?_eq_some_iff.1 (Package.valueAt_eq_ok_iff.1 hfound)).1
    obtain ⟨steps, hsize⟩ :=
      Nat.exists_eq_succ_of_ne_zero (Nat.ne_of_gt (Nat.zero_lt_of_lt hbound))
    rw [Subject.constBool?, hsize, Subject.constBoolWithin?, Report.bind_yields]
    refine ⟨value, Analysis.root_yields.2 (Package.root_of_stuck hstuck), ?_⟩
    rw [Report.bind_yields]
    refine ⟨_, Analysis.monadLift_yields.2 hnegation, ?_⟩
    exact Report.bind_yields.2 ⟨some false,
      constBoolWithin?_of_isConst hknown steps, Report.pure_yields.2 rfl⟩

private theorem attributeType?_of_isCode (husual : s.sdk = .usual)
    {plugin : Plugin} (hknown : plugin.Known s.package) {code : Int}
    (hcoded : s.package.IsCode plugin.valueType value code) :
    (s.attributeType? value).Yields (AttributeType.ofCode? code) := by
  obtain ⟨underlying, hfound⟩ := hknown.valueType
  have hconst : s.package.IsConst value (.int code) :=
    Package.operationAt_eq_ok_iff.2 ⟨_, hcoded, rfl⟩
  have hnamed : s.package.typeName plugin.valueType = .ok s.sdk.valueType := by
    rw [husual, Sdk.usual_valueType, Package.typeName_named hfound]
  rw [Subject.attributeType?, Report.bind_yields]
  refine ⟨value, Analysis.root_yields.2 hconst.root, ?_⟩
  rw [Report.bind_yields]
  refine ⟨_, Analysis.monadLift_yields.2 hcoded, ?_⟩
  refine Report.bind_yields.2 ⟨_, Analysis.monadLift_yields.2 hnamed, ?_⟩
  rw [if_pos (beq_self_eq_true _)]
  exact Report.pure_yields.2 rfl

end

/-! ## Descriptions -/

namespace AttributeFixture

theorem lookup_assignments (p : Package) (plugin : Plugin) (code : Option Int)
    (attr : AttributeFixture) (field : String) :
    (typeAssignments p plugin code ++ attr.plainAssignments p).lookup field =
      (if field = "Type" then
        code.map fun code => (p.IsCode plugin.valueType · code)
      else none).or
      ((if field ∈ attr.flags then some p.IsTrue else none).or
      ((if field = "Description" then
        attr.description.map fun text => (p.IsConst · (.string text))
      else none).or
      ((if field = "MinItems" then
        attr.minItems.map fun bound => (p.IsConst · (.int bound))
      else none).or
      (if field = "MaxItems" then
        attr.maxItems.map fun bound => (p.IsConst · (.int bound))
      else none)))) := by
  have hflags : (attr.flags.map fun flag => (flag, p.IsTrue)).lookup field =
      if field ∈ attr.flags then some p.IsTrue else none := by
    induction attr.flags with
    | nil => rfl
    | cons flag rest ih =>
        by_cases hsame : field = flag <;>
          simp [List.lookup_cons, hsame, ih, beq_eq_false_iff_ne.2]
  simp only [typeAssignments, plainAssignments, bounds, List.lookup_append,
    List.map_append, List.map_map, Function.comp_def, lookup_toList_map, hflags]

section

variable {s : Subject} {plugin : Plugin} {func : FuncId} {all : List Effect}

def Reads (s : Subject) (plugin : Plugin) (func : FuncId) (all : List Effect)
    (nested : ValueId → Extract AttributeList) (depth : Nat) : Prop :=
  ∀ ⦃map attributes⦄, s.package.IsMade func map →
    Entries s.package plugin func all (updatesOf map all) attributes →
    HaveKnownCodes attributes → nestingAll attributes < depth →
    ∃ list, (nested map).Yields ⟨sortByName list, false⟩ ∧
    list.map Attribute.unplaced = declaredAll attributes

theorem Element.firstStore?_eq_none {elem : Option (ElemOf AttributeFixture)}
    {last : List FieldStore}
    (helement : Element s.package plugin func all elem last) {field : String}
    (hother : "Elem" ≠ field) : SchemaLint.firstStore? last field = none := by
  cases helement with
  | absent => rfl
  | ofSchema hnamed => simp [SchemaLint.firstStore?, hnamed, hother]
  | ofResource hnamed => simp [SchemaLint.firstStore?, hnamed, hother]

variable (husual : s.sdk = .usual) (hwf : s.package.WellFormed)
  (hknown : plugin.Known s.package) (hdoes : s.package.Does func all)
  {nested : ValueId → Extract AttributeList} {depth : Nat}
  (hreads : Reads s plugin func all nested depth)

include husual hwf hknown hdoes hreads

omit hwf hdoes hreads in
theorem isAllocOf_schema {value : ValueId}
    (hallocated : s.package.IsAllocated func value plugin.schema) :
    s.package.isAllocOf value s.sdk.resourceType = .ok false ∧
      s.package.isAllocOf value s.sdk.schemaType = .ok true := by
  have hstruct := hallocated.isStruct hknown.schema
  rw [husual, hstruct.isAllocOf, hstruct.isAllocOf]
  decide

omit hwf hdoes hreads in
theorem isAllocOf_resource {value : ValueId}
    (hallocated : s.package.IsAllocated func value plugin.resource) :
    s.package.isAllocOf value s.sdk.resourceType = .ok true := by
  have hstruct := hallocated.isStruct hknown.resource
  rw [husual, hstruct.isAllocOf]
  decide

theorem Element.children {elem : Option (ElemOf AttributeFixture)}
    {last : List FieldStore}
    (helement : Element s.package plugin func all elem last)
    (hcodes : ElemHasKnownCodes elem) (hdeep : nestingElem elem ≤ depth) :
    ∃ list, (match SchemaLint.firstStore? last "Elem" with
        | some store => s.element nested store.value
        | none =>
            return .complete :
              Extract AttributeList).Yields
                ⟨sortByName list, hasDynamicElem elem⟩ ∧
      list.map Attribute.unplaced = declaredElem elem := by
  cases helement with
  | absent =>
      refine ⟨[], ?_, rfl⟩
      rw [sortByName_nil]
      exact Report.pure_yields.2 rfl
  | @ofSchema store value inner hnamed hboxed hdescribed =>
      have hfound : SchemaLint.firstStore? [store] "Elem" = some store := by
        simp [SchemaLint.firstStore?, hnamed]
      have hstep : s.package.originStep? store.value 0 =
          .ok (some (value, 0)) := by simp [Package.originStep?, hboxed]
      refine ⟨[], ?_, rfl⟩
      rw [hfound, sortByName_nil]
      cases hdescribed with
      | built hstatic _ hallocated =>
          have hstuck := (hallocated.isStruct hknown.schema).originStep? 0
          obtain ⟨hnotResource, hisSchema⟩ :=
            isAllocOf_schema husual hknown hallocated
          refine Report.bind_yields.2 ⟨value,
            Analysis.root_yields.2 (Package.root_of_step hstep hstuck), ?_⟩
          refine Report.bind_yields.2
            ⟨false, Analysis.monadLift_yields.2 hnotResource, ?_⟩
          refine Report.bind_yields.2 ⟨true,
            Analysis.monadLift_yields.2 hisSchema, Report.pure_yields.2 ?_⟩
          rw [hasDynamicElem, hstatic]
          rfl
      | @dynamic _ source name _ hdynamic hread hglobal =>
          have hnext : s.package.originStep? value 0 =
              .ok (some (source, 0)) := by simp [Package.originStep?, hread]
          have hstuck : s.package.originStep? source 0 = .ok none := by
            simp [Package.originStep?, hglobal]
          obtain ⟨text, htexted⟩ := hwf.valueText_of_operationAt hglobal
          refine Report.bind_yields.2 ⟨source,
            Analysis.root_yields.2 (Package.root_of_steps hstep hnext hstuck),
            ?_⟩
          refine Report.bind_yields.2 ⟨false,
            Analysis.monadLift_yields.2 (Package.isAllocOf_global hglobal _),
            ?_⟩
          refine Report.bind_yields.2 ⟨false,
            Analysis.monadLift_yields.2 (Package.isAllocOf_global hglobal _),
            ?_⟩
          refine Report.bind_yields.2
            ⟨text, Analysis.monadLift_yields.2 htexted, ?_⟩
          refine Report.bind_yields.2
            ⟨(), Report.warn_yields, Report.pure_yields.2 ?_⟩
          rw [hasDynamicElem, hdynamic]
          rfl
  | @ofResource store value map pos attributes hnamed hboxed hallocated hstores
      hmade hentries =>
      have hfound : SchemaLint.firstStore? [store] "Elem" = some store := by
        simp [SchemaLint.firstStore?, hnamed]
      have hstep : s.package.originStep? store.value 0 =
          .ok (some (value, 0)) := by simp [Package.originStep?, hboxed]
      have hstuck := (hallocated.isStruct hknown.resource).originStep? 0
      have hisResource := isAllocOf_resource husual hknown hallocated
      obtain ⟨list, hyielded, hsame⟩ := hreads hmade hentries hcodes hdeep
      refine ⟨list, ?_, hsame⟩
      rw [hfound]
      refine Report.bind_yields.2
        ⟨value, Analysis.root_yields.2 (Package.root_of_step hstep hstuck), ?_⟩
      refine Report.bind_yields.2
        ⟨true, Analysis.monadLift_yields.2 hisResource, ?_⟩
      refine Report.bind_yields.2
        ⟨_, hdoes.instanceStores_allocated hallocated _, ?_⟩
      rw [husual, Sdk.usual_resourceType, hstores]
      exact hyielded

variable {value : ValueId} {attr : AttributeFixture} {code : Option Int}
  {stores last : List FieldStore}
  (hassigned :
    Assigned value stores (typeAssignments s.package plugin code ++
      attr.plainAssignments s.package))
  (helement : Element s.package plugin func all attr.elem last)

include hassigned helement

theorem children_yields (hcodes : ElemHasKnownCodes attr.elem)
    (hdeep : nestingElem attr.elem ≤ depth) (type : AttributeType) :
    ∃ list, (s.children nested type (stores ++ last)).Yields
        ⟨if type.isCollection then sortByName list else [],
          type.isCollection && hasDynamicElem attr.elem⟩ ∧
      list.map Attribute.unplaced = declaredElem attr.elem := by
  obtain ⟨list, hinner, hsame⟩ :=
    helement.children husual hwf hknown hdoes hreads hcodes hdeep
  have helem : SchemaLint.firstStore? (stores ++ last) "Elem" =
      SchemaLint.firstStore? last "Elem" := by
    have hlooked := lookup_assignments s.package plugin code attr "Elem"
    rw [firstStore?_append,
      hassigned.firstStore?_eq_none (by rw [hlooked]; simp [flags]),
      Option.none_or]
  have hschema : SchemaLint.firstStore? (stores ++ last) "Schema" = none := by
    have hlooked := lookup_assignments s.package plugin code attr "Schema"
    rw [firstStore?_append,
      hassigned.firstStore?_eq_none (by rw [hlooked]; simp [flags]),
      Option.none_or]
    exact helement.firstStore?_eq_none (by decide)
  refine ⟨list, ?_, hsame⟩
  unfold Subject.children
  rw [helem, hschema]
  cases type with
  | list | set | map => exact hinner
  | _ => exact Report.pure_yields.2 rfl

omit husual hwf hknown hdoes hreads in
theorem flag_yields {flag : String} {declared : Bool}
    (helsewhere : "Elem" ≠ flag)
    (hlooked :
      (typeAssignments s.package plugin code ++
          attr.plainAssignments s.package).lookup flag =
        if declared then some s.package.IsTrue else none) :
    (s.readField (stores ++ last) flag s.constBool?).Yields
      (.ofOption (if declared then some true else none)) := by
  have hmapped : (if declared then some s.package.IsTrue else none) =
      (if declared then some true else none).map fun _ =>
        s.package.IsTrue := by cases declared <;> rfl
  refine hassigned.readField (hlooked.trans hmapped)
    (helement.firstStore?_eq_none helsewhere)
    fun b hgiven value hright => ?_
  cases declared with
  | false => cases hgiven
  | true =>
      cases hgiven
      exact constBool?_of_isTrue hright

omit hwf hdoes hreads in
theorem storedType_yields (name : String) (hcoded : attr.code? = .ok code)
    (hgiven : ∀ code ∈ attr.typeConst, 1 ≤ code ∧ code ≤ 7) :
    (s.storedType name (stores ++ last)).Yields (.expected attr.type?) := by
  obtain ⟨hsame, hboth⟩ := type?_of_code? hcoded hgiven
  have hfirst := hassigned.firstStore? "Type"
  rw [lookup_assignments] at hfirst
  cases code with
  | none =>
      have habsent : SchemaLint.firstStore? stores "Type" = none := by
        simpa [flags] using hfirst
      rw [hsame, Subject.storedType, firstStore?_append, habsent,
        helement.firstStore?_eq_none (by decide)]
      exact Report.bind_yields.2
        ⟨(), Report.debug_yields, Report.pure_yields.2 rfl⟩
  | some code =>
      obtain ⟨type, htyped⟩ := Option.isSome_iff_exists.1 hboth
      obtain ⟨store, hfound, hright⟩ := hfirst
      rw [htyped, Subject.storedType, firstStore?_append, hfound]
      refine Report.bind_yields.2
        ⟨_, attributeType?_of_isCode husual hknown hright, ?_⟩
      have hread : AttributeType.ofCode? code = some type :=
        hsame.symm.trans htyped
      rw [hread]
      exact Report.pure_yields.2 rfl

theorem describedAttribute_yields (name : String) (pos : Pos)
    (hcoded : attr.code? = .ok code) (hcodes : attr.HasKnownCodes)
    (hdeep : attr.nesting ≤ depth) (hstatic : attr.isDynamic = false) :
    ∃ found, (s.describedAttribute nested name pos (stores ++ last)).Yields
        found ∧ found.unplaced = attr.declared name := by
  have hlooked := lookup_assignments s.package plugin code attr
  have hapart {field : String} (hother : "Elem" ≠ field) :=
    helement.firstStore?_eq_none hother
  have hdescription :
      (s.readField (stores ++ last) "Description"
        (Analysis.constString? s.package)).Yields
      (.ofOption attr.description) :=
    hassigned.readField (by rw [hlooked]; simp [flags]) (hapart (by decide))
      fun text _ value => constString?_of_isConst
  have hrequired : (s.readField (stores ++ last) "Required" s.constBool?).Yields
      (.ofOption (if attr.required then some true else none)) :=
    flag_yields hassigned helement (by decide) (by rw [hlooked]; simp [flags])
  have hoptional : (s.readField (stores ++ last) "Optional" s.constBool?).Yields
      (.ofOption (if attr.optional then some true else none)) :=
    flag_yields hassigned helement (by decide) (by rw [hlooked]; simp [flags])
  have hcomputed : (s.readField (stores ++ last) "Computed" s.constBool?).Yields
      (.ofOption (if attr.computed then some true else none)) :=
    flag_yields hassigned helement (by decide) (by rw [hlooked]; simp [flags])
  have hminItems : (s.readField (stores ++ last) "MinItems" s.constInt?).Yields
      (.ofOption attr.minItems) :=
    hassigned.readField (by rw [hlooked]; simp [flags]) (hapart (by decide))
      fun n _ value => constInt?_of_isConst
  have hmaxItems : (s.readField (stores ++ last) "MaxItems" s.constInt?).Yields
      (.ofOption attr.maxItems) :=
    hassigned.readField (by rw [hlooked]; simp [flags]) (hapart (by decide))
      fun n _ value => constInt?_of_isConst
  obtain ⟨hgiven, hinner⟩ := hasKnownCodes_iff.1 hcodes
  rw [nesting_eq] at hdeep
  have htyped :=
    storedType_yields husual hknown hassigned helement name hcoded hgiven
  obtain ⟨list, hchildren, hsame⟩ :=
    children_yields husual hwf hknown hdoes hreads hassigned helement hinner
      hdeep (attr.type?.getD .invalid)
  let kids :=
    if (attr.type?.getD .invalid).isCollection then sortByName list else []
  have hplaced : kids.map Attribute.unplaced =
      if (attr.type?.getD .invalid).isCollection then
        Attribute.inOrder (declaredElem attr.elem)
      else [] := by
    rw [apply_ite (List.map Attribute.unplaced),
      Attribute.map_unplaced_sortByName, hsame, List.map_nil]
  have hdeclared := declared_static hstatic name hplaced.symm
  refine ⟨{ attr.declared name with pos, children := kids }, ?_, ?_⟩
  · refine Report.bind_yields.2
      ⟨_, hdescription, Report.bind_yields.2 ⟨_, hrequired, ?_⟩⟩
    refine Report.bind_yields.2
      ⟨_, hoptional, Report.bind_yields.2 ⟨_, hcomputed, ?_⟩⟩
    refine Report.bind_yields.2
      ⟨_, hminItems, Report.bind_yields.2 ⟨_, hmaxItems, ?_⟩⟩
    refine Report.bind_yields.2 ⟨_, htyped, ?_⟩
    rw [Reading.value?_expected]
    refine Report.bind_yields.2 ⟨_, hchildren, Report.pure_yields.2 ?_⟩
    have hflag (b : Bool) : (if b then some true else none).getD false = b := by
      cases b <;> rfl
    have htrimmed : (attr.description.map Text.trim).getD "" =
        Text.trim (attr.description.getD "") := by
      cases attr.description <;> rfl
    simp only [hdeclared, Reading.value?_ofOption,
      Reading.isUnresolved_ofOption, Reading.isUnresolved_expected, hflag,
      htrimmed, Bool.false_or, AttributeList.anyPartial,
      Attribute.any_isPartial_map_unplaced, Bool.or_assoc, kids]
  · rw [hdeclared, Attribute.unplaced, Attribute.unplacedAll_eq_map]

end

section

variable {s : Subject} {plugin : Plugin} {func : FuncId} {all : List Effect}
  (husual : s.sdk = .usual) (hwf : s.package.WellFormed)
  (hknown : plugin.Known s.package) (hdoes : s.package.Does func all)
  {nested : ValueId → Extract AttributeList} {depth : Nat}

include husual hwf hknown hdoes

theorem Described.attributeOf (hreads : Reads s plugin func all nested depth)
    {attr : AttributeFixture} {entry : MapEntry}
    (hdescribed : Described s.package plugin func all entry.value attr)
    (hcodes : attr.HasKnownCodes) (hdeep : attr.nesting ≤ depth)
    (name : String) :
    ∃ found, (s.attributeOf nested name entry).Yields found ∧
      found.unplaced = attr.declared name := by
  cases hdescribed with
  | @dynamic _ source global _ hdynamic hread hisGlobal =>
      have hstep : s.package.originStep? entry.value 0 =
          .ok (some (source, 0)) := by simp [Package.originStep?, hread]
      have hstuck : s.package.originStep? source 0 = .ok none := by
        simp [Package.originStep?, hisGlobal]
      obtain ⟨text, htexted⟩ := hwf.valueText_of_operationAt hisGlobal
      refine ⟨{ name, pos := entry.pos, isPartial := true }, ?_, ?_⟩
      · refine Report.bind_yields.2 ⟨source,
          Analysis.root_yields.2 (Package.root_of_step hstep hstuck), ?_⟩
        refine Report.bind_yields.2 ⟨false,
          Analysis.monadLift_yields.2 (Package.isAllocOf_global hisGlobal _),
          ?_⟩
        refine Report.bind_yields.2
          ⟨text, Analysis.monadLift_yields.2 htexted, ?_⟩
        exact Report.bind_yields.2
          ⟨(), Report.warn_yields, Report.pure_yields.2 rfl⟩
      · rw [declared_dynamic hdynamic]
        rfl
  | @built _ _ code stores last hstatic hcoded hallocated hstored hassigned
      helement =>
      have hstuck := (hallocated.isStruct hknown.schema).originStep? 0
      obtain ⟨-, hisSchema⟩ := isAllocOf_schema husual hknown hallocated
      obtain ⟨found, hyielded, hsame⟩ :=
        describedAttribute_yields husual hwf hknown hdoes hreads hassigned
          helement name entry.pos hcoded hcodes hdeep hstatic
      refine ⟨found, ?_, hsame⟩
      refine Report.bind_yields.2
        ⟨entry.value, Analysis.root_yields.2 (Package.root_of_stuck hstuck), ?_⟩
      refine Report.bind_yields.2
        ⟨true, Analysis.monadLift_yields.2 hisSchema, ?_⟩
      refine Report.bind_yields.2
        ⟨_, hdoes.instanceStores_allocated hallocated _, ?_⟩
      rwa [husual, Sdk.usual_schemaType, hstored]

theorem Entries.entryAttributes (hreads : Reads s plugin func all nested depth)
    {attributes : AttributeFixtures} {entries : List MapEntry}
    (hlisted : Entries s.package plugin func all entries attributes)
    (hcodes : HaveKnownCodes attributes)
    (hdeep : nestingAll attributes ≤ depth) :
    ∃ list : List Attribute, (entries.mapM (s.entryAttribute? nested)).Yields
        (list.map some) ∧
      list.map Attribute.unplaced = declaredAll attributes := by
  induction attributes generalizing entries with
  | nil =>
      cases hlisted
      exact ⟨[], Report.pure_yields.2 rfl, rfl⟩
  | cons first attributes ih =>
      obtain ⟨name, attr⟩ := first
      obtain _ | ⟨hisKey, hdescribed, hothers⟩ := hlisted
      rw [nestingAll, Nat.max_le] at hdeep
      obtain ⟨hfirstCodes, hcodes⟩ := hcodes
      obtain ⟨found, hyielded, hsame⟩ :=
        hdescribed.attributeOf husual hwf hknown hdoes hreads hfirstCodes
          hdeep.1 name
      obtain ⟨list, hrest, hsames⟩ := ih hothers hcodes hdeep.2
      refine ⟨found :: list, ?_, ?_⟩
      · rw [List.mapM_cons]
        refine Report.bind_yields.2 ⟨some found, ?_,
          Report.bind_yields.2 ⟨_, hrest, Report.pure_yields.2 rfl⟩⟩
        refine Report.bind_yields.2
          ⟨some name, constString?_of_isConst hisKey, ?_⟩
        exact Analysis.within_yields.2
          (Report.map_yields.2 ⟨found, hyielded, rfl⟩)
      · rw [List.map_cons, hsame, hsames, declaredAll]

theorem Entries.schemaMap (hreads : Reads s plugin func all nested depth)
    {attributes : AttributeFixtures} {map : ValueId}
    (hmade : s.package.IsMade func map)
    (hlisted : Entries s.package plugin func all (updatesOf map all) attributes)
    (hcodes : HaveKnownCodes attributes)
    (hdeep : nestingAll attributes ≤ depth) :
    ∃ list, (s.schemaMap nested map).Yields ⟨sortByName list, false⟩ ∧
      list.map Attribute.unplaced = declaredAll attributes := by
  obtain ⟨list, hyielded, hsame⟩ :=
    hlisted.entryAttributes husual hwf hknown hdoes hreads hcodes hdeep
  refine ⟨list, ?_, hsame⟩
  refine Report.bind_yields.2 ⟨map, Analysis.root_yields.2 hmade.root, ?_⟩
  refine Report.bind_yields.2
    ⟨true, Analysis.monadLift_yields.2 hmade.isMap, ?_⟩
  refine Report.bind_yields.2
    ⟨_, Analysis.monadLift_yields.2 (hdoes.mapEntries_made hmade), ?_⟩
  refine Report.bind_yields.2 ⟨_, hyielded, Report.pure_yields.2 ?_⟩
  simp [List.filterMap_map]

theorem reads_attributesWithin (depth : Nat) :
    Reads s plugin func all (s.attributesWithin depth) (depth + 1) := by
  induction depth with
  | zero =>
      intro map attributes hmade hlisted hcodes hdeep
      -- Nothing is nested here, so the reader that gives up is never asked.
      have hunasked nested : Reads s plugin func all nested 0 :=
        fun _ _ _ _ _ hdeep => absurd hdeep (Nat.not_lt_zero _)
      exact hlisted.schemaMap husual hwf hknown hdoes (hunasked _) hmade hcodes
        (Nat.le_of_lt_succ hdeep)
  | succ depth ih =>
      intro map attributes hmade hlisted hcodes hdeep
      exact hlisted.schemaMap husual hwf hknown hdoes ih hmade hcodes
        (Nat.le_of_lt_succ hdeep)

end

end AttributeFixture

end SchemaLint
