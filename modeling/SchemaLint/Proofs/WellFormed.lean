import SchemaLint.Program.Validity

/-!
# Well-formed packages

What validation promises, said without the list of violations: every number that
a type, a value or a function holds is in its table, every signature is a
signature type, and every jump goes to a block of its function.
-/

namespace SchemaLint.Package

def HasType (p : Package) (id : TypeId) : Prop := id.index < p.types.size

def HasValue (p : Package) (id : ValueId) : Prop := id.index < p.values.size

def HasFunc (p : Package) (id : FuncId) : Prop := id.index < p.functions.size

/-- Every value that the instruction defines or reads is in the table. -/
def HasInstruction (p : Package) (instruction : Instruction) : Prop :=
  ∀ id ∈ definedValue instruction ++ instruction.operands, p.HasValue id

instance (p : Package) : DecidablePred p.HasType :=
  fun _ => inferInstanceAs (Decidable (_ < _))

instance (p : Package) : DecidablePred p.HasValue :=
  fun _ => inferInstanceAs (Decidable (_ < _))

instance (p : Package) : DecidablePred p.HasFunc :=
  fun _ => inferInstanceAs (Decidable (_ < _))

instance (p : Package) : DecidablePred p.HasInstruction :=
  fun _ => inferInstanceAs (Decidable (∀ _ ∈ _, _))

structure HoldsOperation (p : Package) (operation : Operation) : Prop where
  operands : ∀ id ∈ operation.operands, p.HasValue id
  function : ∀ id, operation = .function id → p.HasFunc id
  asserted : ∀ x id commaOk, operation = .typeAssert x id commaOk → p.HasType id

structure HoldsValue (p : Package) (value : Value) : Prop where
  type : p.HasType value.type
  parent : ∀ id ∈ value.parent, p.HasFunc id
  operation : p.HoldsOperation value.operation

structure HoldsFunc (p : Package) (f : Func) : Prop where
  signature : ∃ params results variadic,
    p.types[f.signature.index]? = some (.signature params results variadic)
  receiver : ∀ id ∈ f.receiver, p.HasType id
  params : ∀ id ∈ f.params, p.HasValue id
  instructions : ∀ instruction ∈ f.instructions, p.HasInstruction instruction
  targets : ∀ instruction ∈ f.instructions,
      ∀ target ∈ instruction.successors, target < f.body.length

structure WellFormed (p : Package) : Prop where
  types : ∀ type ∈ p.types, ∀ id ∈ type.referenced, p.HasType id
  values : ∀ value ∈ p.values, p.HoldsValue value
  functions : ∀ f ∈ p.functions, p.HoldsFunc f

/-! ## Checks without violations -/

@[simp] theorem checkType_eq_nil_iff {p : Package} {owner : Owner}
    {id : TypeId} : p.checkType owner id = [] ↔ p.HasType id := by
  simp [checkType, HasType]

@[simp] theorem checkValue_eq_nil_iff {p : Package} {owner : Owner}
    {id : ValueId} : p.checkValue owner id = [] ↔ p.HasValue id := by
  simp [checkValue, HasValue]

@[simp] theorem checkFunc_eq_nil_iff {p : Package} {owner : Owner}
    {id : FuncId} : p.checkFunc owner id = [] ↔ p.HasFunc id := by
  simp [checkFunc, HasFunc]

@[simp] theorem checkTarget_eq_nil_iff {f : Func} {target : Nat} :
    checkTarget f target = [] ↔ target < f.body.length := by
  simp [checkTarget]

theorem typeViolations_eq_nil_iff {p : Package} {index : Nat} {type : Ty} :
    p.typeViolations index type = [] ↔
      ∀ id ∈ type.referenced, p.HasType id := by
  simp [typeViolations]

theorem operationViolations_eq_nil_iff {p : Package} {owner : Owner}
    {operation : Operation} :
    p.operationViolations owner operation = [] ↔
      (∀ id, operation = .function id → p.HasFunc id) ∧
        ∀ x id commaOk, operation = .typeAssert x id commaOk →
          p.HasType id := by
  cases operation <;> simp [operationViolations]

theorem HoldsOperation.of_operands {p : Package} {operation : Operation}
    (hoperands : ∀ id ∈ operation.operands, p.HasValue id)
    (hplain : ∀ owner, p.operationViolations owner operation = []) :
    p.HoldsOperation operation := by
  obtain ⟨hfunction, hasserted⟩ :=
    operationViolations_eq_nil_iff.1 (hplain (.value 0))
  exact ⟨hoperands, hfunction, hasserted⟩

theorem valueViolations_eq_nil_iff {p : Package} {index : Nat} {value : Value} :
    p.valueViolations index value = [] ↔ p.HoldsValue value := by
  simp only [valueViolations, List.append_eq_nil_iff, List.flatMap_eq_nil_iff,
    checkType_eq_nil_iff, checkFunc_eq_nil_iff, checkValue_eq_nil_iff,
    operationViolations_eq_nil_iff, Option.mem_toList]
  constructor
  · rintro ⟨⟨⟨htype, hparent⟩, hoperands⟩, hfunction, hasserted⟩
    exact ⟨htype, hparent, hoperands, hfunction, hasserted⟩
  · rintro ⟨htype, hparent, hoperands, hfunction, hasserted⟩
    exact ⟨⟨⟨htype, hparent⟩, hoperands⟩, hfunction, hasserted⟩

theorem instructionViolations_eq_nil_iff {p : Package} {f : Func}
    {instruction : Instruction} :
    p.instructionViolations f instruction = [] ↔
      p.HasInstruction instruction ∧
        ∀ target ∈ instruction.successors, target < f.body.length := by
  simp only [instructionViolations, List.append_eq_nil_iff,
    List.flatMap_eq_nil_iff, checkValue_eq_nil_iff, checkTarget_eq_nil_iff]
  rfl

theorem checkSignature_eq_nil_iff {p : Package} {f : Func} :
    p.checkSignature f = [] ↔
      ∃ params results variadic, p.types[f.signature.index]? =
        some (.signature params results variadic) := by
  unfold checkSignature
  cases hfound : p.types[f.signature.index]? with
  | none => simp
  | some type => cases type <;> simp [Ty.isSignature]

theorem funcViolations_eq_nil_iff {p : Package} {f : Func} :
    p.funcViolations f = [] ↔ p.HoldsFunc f := by
  simp only [funcViolations, List.append_eq_nil_iff, List.flatMap_eq_nil_iff,
    checkSignature_eq_nil_iff, checkType_eq_nil_iff, checkValue_eq_nil_iff,
    instructionViolations_eq_nil_iff, Option.mem_toList]
  constructor
  · rintro ⟨⟨⟨hsignature, hreceiver⟩, hparams⟩, hbody⟩
    exact ⟨hsignature, hreceiver, hparams, fun i hmember => (hbody i hmember).1,
      fun i hmember => (hbody i hmember).2⟩
  · intro hholds
    exact ⟨⟨⟨hholds.signature, hholds.receiver⟩, hholds.params⟩,
      fun i hmember =>
        ⟨hholds.instructions i hmember, hholds.targets i hmember⟩⟩

/-- An entry of a table passes a check at its own number exactly when it passes
at some number. -/
private theorem forall_zipIdx_iff {table : Array α} {P : α → Prop} :
    (∀ entry ∈ table.toList.zipIdx, P entry.1) ↔ ∀ a ∈ table, P a := by
  constructor
  · intro hall a hmember
    obtain ⟨index, hbound, rfl⟩ := Array.mem_iff_getElem.1 hmember
    exact hall (table[index], index)
      (by simp [List.mk_mem_zipIdx_iff_getElem?, hbound])
  · rintro hall ⟨a, index⟩ hmember
    exact hall a (by simpa using List.fst_mem_of_mem_zipIdx hmember)

theorem violations_eq_nil_iff {p : Package} :
    p.violations = [] ↔ p.WellFormed := by
  simp only [violations, List.append_eq_nil_iff, List.flatMap_eq_nil_iff,
    typeViolations_eq_nil_iff, valueViolations_eq_nil_iff,
    funcViolations_eq_nil_iff, Array.mem_toList_iff]
  constructor
  · rintro ⟨⟨htypes, hvalues⟩, hfunctions⟩
    exact ⟨forall_zipIdx_iff.1 htypes, forall_zipIdx_iff.1 hvalues, hfunctions⟩
  · intro hwf
    exact ⟨⟨forall_zipIdx_iff.2 hwf.types, forall_zipIdx_iff.2 hwf.values⟩,
      hwf.functions⟩

theorem validate_eq_ok_iff {p : Package} :
    p.validate = .ok () ↔ p.WellFormed := by
  rw [← violations_eq_nil_iff]
  unfold validate
  cases p.violations <;> simp

end SchemaLint.Package
