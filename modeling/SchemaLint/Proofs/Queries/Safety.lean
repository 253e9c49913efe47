import SchemaLint.Proofs.Queries.Rules
import SchemaLint.Proofs.Yields

/-!
# Valid packages never lead outside their tables

Every question that is asked of numbers in the tables of a valid package has an
answer, with all its numbers in the tables, and no analysis of the package fails
for a look-up.
-/

namespace SchemaLint

def Analysis.NeverOutside (x : Analysis ε α) : Prop :=
  ∀ fault, x.outcome ≠ .error (.outside fault)

theorem Faultless.neverOutside {x : Analysis ε α} {post : α → Prop}
    (hholds : Faultless x post) : x.NeverOutside :=
  (Analysis.faultless_iff.1 hholds).2

theorem Faultless.answered {x : Access α} {post : α → Prop}
    (hholds : Faultless x post) : ∃ a, x = .ok a := by
  obtain ⟨a, hsame, -⟩ := Access.faultless_iff.1 hholds
  exact ⟨a, hsame⟩

namespace Package

variable {p : Package}

structure AnswersType (p : Package) (id : TypeId) : Prop where
  underlying : ∃ inner, p.underlying id = .ok inner ∧ p.HasType inner
  derefType : ∃ inner, p.derefType id = .ok inner ∧ p.HasType inner
  pointerDepth : ∃ depth, p.pointerDepth id = .ok depth
  field? (index : Nat) : ∃ found, p.field? id index = .ok found
  fieldIndex? (name : String) : ∃ found, p.fieldIndex? id name = .ok found
  typeName : ∃ name, p.typeName id = .ok name
  isType (name : String) : ∃ answer, p.isType id name = .ok answer

structure AnswersFunc (p : Package) (id : FuncId) : Prop where
  instructions :
    ∃ body, p.instructions id = .ok body ∧ ∀ i ∈ body, p.HasInstruction i
  results : ∃ types, p.results id = .ok types ∧ ∀ type ∈ types, p.HasType type
  returnValue? (index : Nat) : ∃ found, p.returnValue? id index = .ok found ∧
      ∀ value ∈ found, p.HasValue value
  funcName : ∃ name, p.funcName id = .ok name
  listing : ∃ text, p.listing id = .ok text

structure AnswersValue (p : Package) (id : ValueId) : Prop where
  referrers :
    ∃ found, p.referrers id = .ok found ∧ ∀ i ∈ found, p.HasInstruction i
  valueText : ∃ text, p.valueText id = .ok text
  trace (ε : Type) :
    ∃ trace, (Analysis.trace p id : Analysis ε Trace).outcome = .ok trace ∧
    p.HasValue trace.root ∧ ∀ met ∈ trace.values, p.HasValue met

structure AnswersInstruction (p : Package) (i : Instruction) : Prop where
  callSite? :
    ∃ found, p.callSite? i = .ok found ∧ ∀ site ∈ found, p.HoldsCall site.call
  instructionText : ∃ text, p.instructionText i = .ok text

/-- A walk fails only if its visitor does, on an instruction inside the tables,
and it asks only of functions inside the tables whether they are sealed. -/
structure AnswersWalk (p : Package) (start : List Instruction) : Prop where
  inspect {σ : Type} (isSealed : FuncId → Bool)
    (visit : σ → Instruction → Access (σ × Bool)) (state : σ)
    (fault : Outside) : p.inspect isSealed visit state start = .error fault →
      ∃ state, ∃ i, p.HasInstruction i ∧ visit state i = .error fault
  isSealed {σ : Type} (one other : FuncId → Bool)
    (visit : σ → Instruction → Access (σ × Bool)) (state : σ) :
    (∀ f, p.HasFunc f → one f = other f) →
    p.inspect one visit state start = p.inspect other visit state start

/-- The component is one of those recovered from the package, with some names of
the plugin library. -/
def Extracted (p : Package) (component : Component) : Prop :=
  ∃ sdk name extraction, (Subject.extract ⟨p, sdk, name⟩).outcome =
    .ok extraction ∧
    component ∈ extraction.dataSources ++ extraction.resources

structure AnswersComponent (p : Package) (component : Component) : Prop where
  setCalls (sdk : Sdk) : (RuleContext.setCalls ⟨p, sdk⟩ component).NeverOutside
  check (rule : Rule) (sdk : Sdk) (readOnly : Bool) :
    (rule.check ⟨p, sdk⟩ readOnly component).NeverOutside

structure AnswersAll (p : Package) : Prop where
  type (id : TypeId) : p.HasType id → p.AnswersType id
  func (id : FuncId) : p.HasFunc id → p.AnswersFunc id
  value (id : ValueId) : p.HasValue id → p.AnswersValue id
  instruction (i : Instruction) : p.HasInstruction i → p.AnswersInstruction i
  call (call : Call) : p.HoldsCall call →
    ∃ found, p.staticCallee? call = .ok found ∧
    ∀ callee ∈ found, p.HasFunc callee
  walk (start : List Instruction) :
    (∀ i ∈ start, p.HasInstruction i) → p.AnswersWalk start
  extract (sdk : Sdk) (name : String) :
    (Subject.extract ⟨p, sdk, name⟩).NeverOutside
  component (component : Component) :
    p.Extracted component → p.AnswersComponent component
  run (linter : Linter) : linter.provider.package = p →
    (∀ entry ∈ linter.provider.components, p.Extracted entry.2) →
    linter.run.NeverOutside

/-! ## Answers of well-formed packages -/

theorem WellFormed.answersType (hwf : p.WellFormed) {id : TypeId}
    (hhas : p.HasType id) : p.AnswersType id where
  underlying := hwf.underlying hhas
  derefType := hwf.derefType hhas
  pointerDepth := (hwf.pointerDepth hhas).answered
  field? index := (hwf.field? hhas index).answered
  fieldIndex? name := (hwf.fieldIndex? hhas name).answered
  typeName := (hwf.typeName hhas).answered
  isType name := (hwf.isType hhas name).answered

theorem WellFormed.answersFunc (hwf : p.WellFormed) {id : FuncId}
    (hhas : p.HasFunc id) : p.AnswersFunc id where
  instructions := hwf.instructions hhas
  results := hwf.results hhas
  returnValue? := hwf.returnValue? hhas
  funcName := (hwf.funcName hhas).answered
  listing := (hwf.listing hhas).answered

theorem WellFormed.answersValue (hwf : p.WellFormed) {id : ValueId}
    (hhas : p.HasValue id) : p.AnswersValue id where
  referrers := hwf.referrers hhas
  valueText := (hwf.valueText hhas).answered
  trace ε := by
    obtain ⟨trace, hresult, hinside⟩ := hwf.trace_hasValue hhas
    refine ⟨trace, ?_, hinside⟩
    rw [Analysis.trace, hresult]
    rfl

theorem WellFormed.answersInstruction (hwf : p.WellFormed) {i : Instruction}
    (hhas : p.HasInstruction i) : p.AnswersInstruction i where
  callSite? := hwf.callSite? hhas
  instructionText := (hwf.instructionText hhas).answered

theorem WellFormed.answersWalk (hwf : p.WellFormed) {start : List Instruction}
    (hinRange : ∀ i ∈ start, p.HasInstruction i) : p.AnswersWalk start where
  inspect isSealed visit state fault hfailed := by
    obtain ⟨visited, hinside, hsame⟩ :=
      hwf.inspect_eq_visitAll isSealed hinRange
    rw [hsame] at hfailed
    obtain ⟨state, i, hmember, hanswer⟩ := visitAll_eq_error hfailed
    exact ⟨state, i, hinside i hmember, hanswer⟩
  isSealed _ _ visit state hsame :=
    hwf.inspect_sealed_eq hsame hinRange visit state

private theorem WellFormed.extracted_holds (hwf : p.WellFormed)
    {component : Component} (hextracted : p.Extracted component) :
    p.HoldsComponent component := by
  obtain ⟨sdk, name, extraction, hresult, hmember⟩ := hextracted
  have hholds : Faultless (Subject.extract ⟨p, sdk, name⟩) fun extraction =>
      ∀ c ∈ extraction.dataSources ++ extraction.resources, p.HoldsComponent
          c :=
    Subject.extract_faultless hwf
  exact (Analysis.faultless_iff.1 hholds).1 extraction hresult component hmember

theorem WellFormed.answersComponent (hwf : p.WellFormed) {component : Component}
    (hholds : p.HoldsComponent component) : p.AnswersComponent component where
  setCalls sdk := by
    have hcalls :
        Faultless (RuleContext.setCalls ⟨p, sdk⟩ component) fun calls =>
        ∀ call ∈ calls, p.HasValue call.value :=
      RuleContext.setCalls_faultless hwf hholds
    exact hcalls.neverOutside
  check rule sdk readOnly := by
    have hchecked : Faultless (rule.check ⟨p, sdk⟩ readOnly component)
        fun _ => True :=
      rule.check_faultless hwf readOnly hholds
    exact hchecked.neverOutside

theorem valid_answers_without_fault (hvalid : p.validate = .ok ()) :
    p.AnswersAll := by
  have hwf := validate_eq_ok_iff.1 hvalid
  refine ⟨fun _ => hwf.answersType, fun _ => hwf.answersFunc,
    fun _ => hwf.answersValue, fun _ => hwf.answersInstruction,
    fun _ => hwf.staticCallee?, fun _ => hwf.answersWalk, fun sdk name => ?_,
    fun _ hextracted => hwf.answersComponent (hwf.extracted_holds hextracted),
    ?_⟩
  · exact (Subject.extract_faultless hwf).neverOutside
  · rintro linter rfl hextracted
    exact (Linter.run_faultless hwf fun entry hmember =>
      hwf.extracted_holds (hextracted entry hmember)).neverOutside

/-- A provider with one resource, which has a function that reads it. -/
def beacon : Package where
  path := "example.com/p"
  types := #[
    .named (some "sdk") "Provider" ⟨1⟩, .struct [⟨"ResourcesMap", ⟨3⟩, false⟩],
    .pointer ⟨0⟩, .map ⟨4⟩ ⟨7⟩,
    .basic .string, .named (some "sdk") "Resource" ⟨6⟩,
    .struct [⟨"Read", ⟨10⟩, false⟩], .pointer ⟨5⟩,
    .signature [] [⟨2⟩] false, .signature [] [⟨7⟩] false,
    .signature [] [] false, .pointer ⟨3⟩, .pointer ⟨10⟩]
  values := #[
    ⟨.function ⟨0⟩, ⟨8⟩, .unknown, none, none⟩,
    ⟨.function ⟨1⟩, ⟨9⟩, .unknown, none, none⟩,
    ⟨.function ⟨2⟩, ⟨10⟩, .unknown, none, none⟩,
    ⟨.alloc true, ⟨2⟩, .unknown, some ⟨0⟩, none⟩,
    ⟨.makeMap none, ⟨3⟩, .unknown, some ⟨0⟩, none⟩,
    ⟨.const (.string "a"), ⟨4⟩, .unknown, none, none⟩,
    ⟨.call ⟨⟨1⟩, none, []⟩, ⟨7⟩, .unknown, some ⟨0⟩, none⟩,
    ⟨.fieldAddr ⟨3⟩ 0, ⟨11⟩, .unknown, some ⟨0⟩, none⟩,
    ⟨.alloc true, ⟨7⟩, .unknown, some ⟨1⟩, none⟩,
    ⟨.fieldAddr ⟨8⟩ 0, ⟨12⟩, .unknown, some ⟨1⟩, none⟩]
  functions := #[
    { name := "Provider"
      package := some "example.com/p"
      receiver := none
      signature := ⟨8⟩
      params := []
      blocks :=
        some [⟨[.define ⟨3⟩, .define ⟨4⟩, .define ⟨6⟩,
          .mapUpdate ⟨4⟩ ⟨5⟩ ⟨6⟩ .unknown, .define ⟨7⟩, .store ⟨7⟩ ⟨4⟩ .unknown,
          .ret [⟨3⟩] .unknown]⟩]
      pos := .unknown, doc := none },
    { name := "resourceA"
      package := some "example.com/p"
      receiver := none
      signature := ⟨9⟩
      params := []
      blocks :=
        some [⟨[.define ⟨8⟩, .define ⟨9⟩, .store ⟨9⟩ ⟨2⟩ .unknown,
          .ret [⟨8⟩] .unknown]⟩]
      pos := .unknown, doc := none },
    { name := "readA"
      package := some "example.com/p"
      receiver := none
      signature := ⟨10⟩
      params := []
      blocks := some [⟨[.ret [] .unknown]⟩], pos := .unknown, doc := none }]

/-- The names under which the package knows the plugin library. -/
def beaconSdk : Sdk :=
  { Sdk.usual with
    rootTypes := ["*sdk.Provider"]
    providerType := "sdk.Provider"
    resourceType := "sdk.Resource" }

private theorem beacon_extracted :
    ∃ component, beacon.Extracted component ∧
      component.declared = [(.read, ⟨2⟩)] := by
  have hfound :
      ((Subject.extract ⟨beacon, beaconSdk, ""⟩).outcome.toOption.map
        fun extraction =>
      extraction.resources.map Component.declared) = some [[(.read, ⟨2⟩)]] := by
        decide +kernel
  obtain ⟨extraction, hresult, hresources⟩ := Option.map_eq_some_iff.1 hfound
  obtain ⟨component, hsingle, hdeclared⟩ :=
    List.map_eq_singleton_iff.1 hresources
  exact ⟨component, ⟨beaconSdk, "", extraction,
      Report.yields_of_toOption hresult, by simp [hsingle]⟩, hdeclared⟩

theorem beacon_answers_without_fault :
    beacon.validate = .ok () ∧
      (∃ component, beacon.Extracted component ∧
        component.declared = [(.read, ⟨2⟩)]) ∧ beacon.AnswersAll :=
  ⟨by decide, beacon_extracted, valid_answers_without_fault (by decide)⟩

end Package

end SchemaLint
