import SchemaLint.Program.Calls
import SchemaLint.Proofs.Faultless
import SchemaLint.Proofs.WellFormed

/-!
# Questions about well-formed packages

Every question that is asked of numbers in the tables of a well-formed package
has an answer, and every number in the answer is in its table again. There is
one lemma for each question; what leads from one question to the next is the
second half of it.
-/

namespace SchemaLint.Package

variable {p : Package}

/-! ## Look-ups -/

theorem typeAt_eq_ok_iff {id : TypeId} {type : Ty} :
    p.typeAt id = .ok type ↔ p.types[id.index]? = some type := by
  unfold typeAt
  split <;> simp_all

theorem valueAt_eq_ok_iff {id : ValueId} {value : Value} :
    p.valueAt id = .ok value ↔ p.values[id.index]? = some value := by
  unfold valueAt
  split <;> simp_all

theorem funcAt_eq_ok_iff {id : FuncId} {f : Func} :
    p.funcAt id = .ok f ↔ p.functions[id.index]? = some f := by
  unfold funcAt
  split <;> simp_all

theorem WellFormed.typeAt (hwf : p.WellFormed) {id : TypeId}
    (hhas : p.HasType id) :
    Faultless (p.typeAt id) fun type =>
      ∀ id ∈ type.referenced, p.HasType id := by
  have hfound : p.types[id.index]? = some p.types[id.index] :=
    Array.getElem?_eq_getElem hhas
  refine ⟨p.types[id.index], ?_, hwf.types _ (Array.getElem_mem hhas)⟩
  simp [Package.typeAt, hfound]

theorem WellFormed.valueAt (hwf : p.WellFormed) {id : ValueId}
    (hhas : p.HasValue id) : Faultless (p.valueAt id) p.HoldsValue := by
  have hfound : p.values[id.index]? = some p.values[id.index] :=
    Array.getElem?_eq_getElem hhas
  refine ⟨p.values[id.index], ?_, hwf.values _ (Array.getElem_mem hhas)⟩
  simp [Package.valueAt, hfound]

theorem WellFormed.funcAt (hwf : p.WellFormed) {id : FuncId}
    (hhas : p.HasFunc id) : Faultless (p.funcAt id) p.HoldsFunc := by
  have hfound : p.functions[id.index]? = some p.functions[id.index] :=
    Array.getElem?_eq_getElem hhas
  refine ⟨p.functions[id.index], ?_, hwf.functions _ (Array.getElem_mem hhas)⟩
  simp [Package.funcAt, hfound]

theorem WellFormed.operationAt (hwf : p.WellFormed) {id : ValueId}
    (hhas : p.HasValue id) : Faultless (p.operationAt id) p.HoldsOperation :=
  (hwf.valueAt hhas).bind fun _ hholds => .pure hholds.operation

theorem WellFormed.typeOf (hwf : p.WellFormed) {id : ValueId}
    (hhas : p.HasValue id) : Faultless (p.typeOf id) p.HasType :=
  (hwf.valueAt hhas).bind fun _ hholds => .pure hholds.type

theorem WellFormed.instructions (hwf : p.WellFormed) {id : FuncId}
    (hhas : p.HasFunc id) :
    Faultless (p.instructions id) fun body =>
      ∀ instruction ∈ body, p.HasInstruction instruction :=
  (hwf.funcAt hhas).bind fun _ hholds => .pure hholds.instructions

theorem HoldsFunc.hasSignature {f : Func} (hholds : p.HoldsFunc f) :
    p.HasType f.signature := by
  obtain ⟨params, results, variadic, hfound⟩ := hholds.signature
  exact (Array.getElem?_eq_some_iff.1 hfound).1

/-! ## Calls and returns -/

def HoldsCall (p : Package) (call : Call) : Prop :=
  ∀ id ∈ call.operands, p.HasValue id

theorem WellFormed.callSite? (hwf : p.WellFormed) {instruction : Instruction}
    (hhas : p.HasInstruction instruction) :
    Faultless (p.callSite? instruction) fun found =>
      ∀ site ∈ found, p.HoldsCall site.call := by
  cases instruction with
  | define id =>
      refine (hwf.valueAt (hhas id (by simp [definedValue]))).bind
        fun value hholds => ?_
      split
      · next call hknown =>
          refine .pure ?_
          rintro _ ⟨⟩ id hmember
          exact hholds.operation.operands id
            (by simpa [hknown, Operation.operands] using hmember)
      · exact .pure_none
  | go call pos | defer call pos =>
      refine .pure ?_
      rintro _ ⟨⟩ id hmember
      exact hhas id
        (by simpa [definedValue, Instruction.operands] using hmember)
  | _ => exact .pure_none

theorem WellFormed.staticCallee? (hwf : p.WellFormed) {call : Call}
    (hholds : p.HoldsCall call) :
    Faultless (p.staticCallee? call) fun found =>
      ∀ callee ∈ found, p.HasFunc callee := by
  unfold Package.staticCallee?
  split
  · exact .pure_none
  · refine (hwf.operationAt (hholds call.target (by simp [Call.operands]))).bind
      fun target hknown => ?_
    split
    · next func =>
        refine .pure ?_
        rintro _ ⟨⟩
        exact hknown.function func rfl
    · next closed bindings =>
        refine (hwf.operationAt
          (hknown.operands closed (by simp [Operation.operands]))).bind
          fun inner hknown => ?_
        split
        · next func =>
            refine .pure ?_
            rintro _ ⟨⟩
            exact hknown.function func rfl
        · exact .pure_none
    · exact .pure_none

theorem WellFormed.callee? (hwf : p.WellFormed) {instruction : Instruction}
    (hhas : p.HasInstruction instruction) :
    Faultless (p.callee? instruction) fun found =>
      ∀ callee ∈ found, p.HasFunc callee := by
  refine (hwf.callSite? hhas).bind fun found hholds => ?_
  cases found with
  | none => exact .pure_none
  | some site => exact hwf.staticCallee? (hholds site rfl)

theorem WellFormed.results (hwf : p.WellFormed) {id : FuncId}
    (hhas : p.HasFunc id) :
    Faultless (p.results id) fun types => ∀ id ∈ types, p.HasType id := by
  refine (hwf.funcAt hhas).bind fun f hholds => ?_
  refine (hwf.typeAt hholds.hasSignature).bind fun type hknown => ?_
  split
  · exact .pure fun id hmember => hknown id (by simp [Ty.referenced, hmember])
  · exact .pure (by simp)

private theorem lastReturn?_mem {instructions : List Instruction}
    {results : List ValueId}
    (hfound : lastReturn? instructions = some results) :
    ∃ pos, .ret results pos ∈ instructions := by
  unfold lastReturn? at hfound
  obtain ⟨instruction, hmember, hsame⟩ :=
    List.exists_of_findSome?_eq_some hfound
  split at hsame
  · cases hsame
    exact ⟨_, List.mem_reverse.1 hmember⟩
  · contradiction

theorem WellFormed.returnValue? (hwf : p.WellFormed) {id : FuncId}
    (hhas : p.HasFunc id) (index : Nat) :
    Faultless (p.returnValue? id index) fun found =>
      ∀ value ∈ found, p.HasValue value := by
  refine (hwf.results hhas).bind fun types _ => ?_
  split
  · exact .pure_none
  · refine (hwf.instructions hhas).bind fun body hknown => .pure ?_
    intro value hfound
    obtain ⟨results, hreturned, hchosen⟩ := Option.bind_eq_some_iff.1 hfound
    obtain ⟨pos, hmember⟩ := lastReturn?_mem hreturned
    refine hknown _ hmember value ?_
    simpa [definedValue, Instruction.operands] using List.mem_of_getElem?
      hchosen

theorem WellFormed.reads (hwf : p.WellFormed) (value : ValueId)
    {instruction : Instruction} (hhas : p.HasInstruction instruction) :
    Faultless (p.reads value instruction) fun _ => True := by
  cases instruction with
  | define id =>
      exact (hwf.operationAt (hhas id (by simp [definedValue]))).bind
        fun _ _ => .pure trivial
  | _ => exact .pure trivial

theorem WellFormed.referrers (hwf : p.WellFormed) {value : ValueId}
    (hhas : p.HasValue value) :
    Faultless (p.referrers value) fun found =>
      ∀ instruction ∈ found, p.HasInstruction instruction := by
  refine (hwf.valueAt hhas).bind fun entry hholds => ?_
  split
  · exact .pure (by simp)
  · next parent hknown =>
      refine (hwf.instructions (hholds.parent parent hknown)).bind
        fun body hinside => ?_
      refine (Faultless.filterM fun i hmember =>
        hwf.reads value (hinside i hmember)).imp
        fun found hkept => ?_
      exact fun i hmember => hinside i (hkept i hmember)

theorem constString?_eq_some_iff {value : ValueId} {text : String} :
    p.constString? value = .ok (some text) ↔
      p.operationAt value = .ok (.const (.string text)) := by
  constructor
  · intro hfound
    obtain ⟨operation, hknown, hfound⟩ := Access.bind_eq_ok_iff.1 hfound
    split at hfound
    · cases hfound
      exact hknown
    · cases hfound
  · intro hknown
    simp [Package.constString?, hknown]

theorem WellFormed.constString? (hwf : p.WellFormed) {value : ValueId}
    (hhas : p.HasValue value) :
    Faultless (p.constString? value) fun _ => True := by
  refine (hwf.operationAt hhas).bind fun operation _ => ?_
  split <;> exact .pure trivial

end SchemaLint.Package
