import SchemaLint.Program.Listing
import SchemaLint.Proofs.Queries.Calls

/-!
# Types and texts of well-formed packages

Looking through named types and pointers stays in the type table, so types,
functions and instructions all have their texts.
-/

namespace SchemaLint.Package

variable {p : Package}

/-! ## Shapes -/

theorem typeAt_bound {id : TypeId} {type : Ty}
    (hfound : p.typeAt id = .ok type) : id.index < p.types.size :=
  (Array.getElem?_eq_some_iff.1 (typeAt_eq_ok_iff.1 hfound)).1

theorem underlyingWithin_of_not_named {id : TypeId} {type : Ty}
    (hfound : p.typeAt id = .ok type) (hplain : type.isNamed = false)
    (steps : Nat) : p.underlyingWithin steps id = .ok id := by
  cases steps with
  | zero => rfl
  | succ steps =>
      cases type with
      | named => cases hplain
      | _ => simp [underlyingWithin, hfound]

theorem structureOf_of_not_named {id : TypeId} {type : Ty}
    (hfound : p.typeAt id = .ok type) (hplain : type.isNamed = false) :
    p.structureOf id = .ok type := by
  simp [structureOf, underlying, underlyingWithin_of_not_named hfound hplain,
    hfound]

theorem WellFormed.underlyingWithin (hwf : p.WellFormed) (steps : Nat)
    {id : TypeId} (hhas : p.HasType id) :
    Faultless (p.underlyingWithin steps id) p.HasType := by
  induction steps generalizing id with
  | zero => exact .pure hhas
  | succ steps ih =>
      refine (hwf.typeAt hhas).bind fun type hknown => ?_
      split
      · next underlying =>
          exact ih (hknown underlying (by simp [Ty.referenced]))
      · exact .pure hhas

theorem WellFormed.underlying (hwf : p.WellFormed) {id : TypeId}
    (hhas : p.HasType id) : Faultless (p.underlying id) p.HasType :=
  hwf.underlyingWithin p.types.size hhas

theorem WellFormed.structureOf (hwf : p.WellFormed) {id : TypeId}
    (hhas : p.HasType id) :
    Faultless (p.structureOf id) fun type =>
      ∀ id ∈ type.referenced, p.HasType id :=
  (hwf.underlying hhas).bind fun _ hinside => hwf.typeAt hinside

theorem WellFormed.derefType (hwf : p.WellFormed) {id : TypeId}
    (hhas : p.HasType id) : Faultless (p.derefType id) p.HasType := by
  refine (hwf.structureOf hhas).bind fun type hknown => ?_
  split
  · next elem => exact .pure (hknown elem (by simp [Ty.referenced]))
  · exact .pure hhas

theorem WellFormed.pointerDepthWithin (hwf : p.WellFormed) (steps : Nat)
    {id : TypeId} (hhas : p.HasType id) :
    Faultless (p.pointerDepthWithin steps id) fun _ => True := by
  induction steps generalizing id with
  | zero =>
      unfold Package.pointerDepthWithin
      refine (hwf.structureOf hhas).bind fun type _ => ?_
      split <;> exact .pure trivial
  | succ steps ih =>
      unfold Package.pointerDepthWithin
      refine (hwf.structureOf hhas).bind fun type hknown => ?_
      split
      · next elem =>
          exact (ih (hknown elem (by simp [Ty.referenced]))).bind
            fun _ _ => .pure trivial
      · exact .pure trivial

theorem WellFormed.pointerDepth (hwf : p.WellFormed) {id : TypeId}
    (hhas : p.HasType id) : Faultless (p.pointerDepth id) fun _ => True :=
  hwf.pointerDepthWithin p.types.size hhas

theorem WellFormed.fields (hwf : p.WellFormed) {id : TypeId}
    (hhas : p.HasType id) :
    Faultless (p.fields id) fun fields =>
      ∀ field ∈ fields, p.HasType field.type := by
  refine (hwf.derefType hhas).bind fun inner hinside => ?_
  refine (hwf.structureOf hinside).bind fun type hknown => ?_
  split
  · next fields =>
      exact .pure fun field hmember => hknown _ (List.mem_map_of_mem hmember)
  · exact .pure nofun

theorem WellFormed.field? (hwf : p.WellFormed) {id : TypeId}
    (hhas : p.HasType id) (index : Nat) :
    Faultless (p.field? id index) fun found =>
      ∀ field ∈ found, p.HasType field.type :=
  (hwf.fields hhas).bind fun _ hknown =>
    .pure fun _ hfound => hknown _ (List.mem_of_getElem? hfound)

theorem WellFormed.fieldIndex? (hwf : p.WellFormed) {id : TypeId}
    (hhas : p.HasType id) (name : String) :
    Faultless (p.fieldIndex? id name) fun _ => True :=
  (hwf.fields hhas).bind fun _ _ => .pure trivial

/-! ## Names -/

theorem WellFormed.typeNameWithin (hwf : p.WellFormed) (depth : Nat)
    {id : TypeId} (hhas : p.HasType id) :
    Faultless (p.typeNameWithin depth id) fun _ => True := by
  induction depth generalizing id with
  | zero => exact .pure trivial
  | succ depth ih =>
      have hlist : ∀ {ids : List TypeId}, (∀ id ∈ ids, p.HasType id) →
          Faultless (ids.mapM (p.typeNameWithin depth) >>=
            fun names => Pure.pure (", ".intercalate names))
            fun _ => True :=
        fun hinside => (Faultless.mapM fun id hmember =>
          ih (hinside id hmember)).bind
          fun _ _ => .pure trivial
      refine (hwf.typeAt hhas).bind fun type hknown => ?_
      cases type with
      | basic kind | named package declared underlying | interface methods =>
          exact .pure trivial
      | pointer elem | slice elem | array elem length | chan elem =>
          exact (ih (hknown elem (by simp [Ty.referenced]))).bind
            fun _ _ => .pure trivial
      | map key elem =>
          refine (ih (hknown key (by simp [Ty.referenced]))).bind fun _ _ => ?_
          exact (ih (hknown elem (by simp [Ty.referenced]))).bind
            fun _ _ => .pure trivial
      | struct fields =>
          have hinside : ∀ field ∈ fields, p.HasType field.type :=
            fun field hmember => hknown _ (List.mem_map.2 ⟨field, hmember, rfl⟩)
          have htexts : ∀ field ∈ fields,
              Faultless (p.typeNameWithin depth field.type >>= fun name =>
                Pure.pure
                  ((if field.embedded then "" else field.name ++ " ") ++ name))
                fun _ => True :=
            fun field hmember =>
              (ih (hinside field hmember)).bind fun _ _ => .pure trivial
          exact (Faultless.mapM htexts).bind fun _ _ => .pure trivial
      | signature params results variadic =>
          have hofParams : ∀ id ∈ params, p.HasType id :=
            fun id hmember => hknown id (by simp [Ty.referenced, hmember])
          have hofResults : ∀ id ∈ results, p.HasType id :=
            fun id hmember => hknown id (by simp [Ty.referenced, hmember])
          rcases results with _ | ⟨result, _ | ⟨second, rest⟩⟩
          · exact (hlist hofParams).bind fun _ _ => .pure trivial
          · refine (hlist hofParams).bind fun _ _ => ?_
            exact (ih (hofResults result (by simp))).bind
              fun _ _ => .pure trivial
          · refine (hlist hofParams).bind fun _ _ => ?_
            exact (hlist hofResults).bind fun _ _ => .pure trivial
      | tuple elems => exact (hlist hknown).bind fun _ _ => .pure trivial

theorem WellFormed.typeName (hwf : p.WellFormed) {id : TypeId}
    (hhas : p.HasType id) : Faultless (p.typeName id) fun _ => True :=
  hwf.typeNameWithin (p.types.size + 1) hhas

theorem WellFormed.isType (hwf : p.WellFormed) {id : TypeId}
    (hhas : p.HasType id) (name : String) :
    Faultless (p.isType id name) fun _ => True := by
  refine (hwf.derefType hhas).bind fun inner hinside => ?_
  exact (hwf.typeName hinside).bind fun _ _ => .pure trivial

theorem WellFormed.funcName (hwf : p.WellFormed) {id : FuncId}
    (hhas : p.HasFunc id) : Faultless (p.funcName id) fun _ => True := by
  refine (hwf.funcAt hhas).bind fun f hholds => ?_
  split
  · next receiver hknown =>
      exact (hwf.typeName (hholds.receiver receiver hknown)).bind
        fun _ _ => .pure trivial
  · exact .pure trivial

/-! ## Listings -/

theorem WellFormed.operandText (hwf : p.WellFormed) {id : ValueId}
    (hhas : p.HasValue id) : Faultless (p.operandText id) fun _ => True := by
  refine (hwf.valueAt hhas).bind fun value hholds => ?_
  split
  · exact (hwf.typeName hholds.type).bind fun _ _ => .pure trivial
  · next func hknown =>
      exact hwf.funcName (hholds.operation.function func hknown)
  · exact .pure trivial
  · exact .pure trivial
  · split <;> exact .pure trivial

theorem WellFormed.operandTexts (hwf : p.WellFormed) {ids : List ValueId}
    (hhas : ∀ id ∈ ids, p.HasValue id) :
    Faultless (p.operandTexts ids) fun _ => True :=
  (Faultless.mapM fun id hmember => hwf.operandText (hhas id hmember)).bind
    fun _ _ => .pure trivial

theorem WellFormed.callText (hwf : p.WellFormed) {call : Call}
    (hholds : p.HoldsCall call) :
    Faultless (p.callText call) fun _ => True := by
  have htarget : p.HasValue call.target := hholds _ (by simp [Call.operands])
  have hargs : ∀ id ∈ call.args, p.HasValue id :=
    fun id hmember => hholds id (by simp [Call.operands, hmember])
  refine (hwf.operandTexts hargs).bind fun _ _ => ?_
  refine (hwf.operandText htarget).bind fun _ _ => ?_
  split <;> exact .pure trivial

theorem WellFormed.fieldText (hwf : p.WellFormed) {base : ValueId}
    (hhas : p.HasValue base) (index : Nat) :
    Faultless (p.fieldText base index) fun _ => True := by
  refine (hwf.typeOf hhas).bind fun type hinside => ?_
  refine (hwf.field? hinside index).bind fun found _ => ?_
  split <;> exact .pure trivial

theorem WellFormed.valueText (hwf : p.WellFormed) {id : ValueId}
    (hhas : p.HasValue id) : Faultless (p.valueText id) fun _ => True := by
  refine (hwf.valueAt hhas).bind fun value hholds => ?_
  have htext : ∀ x ∈ value.operation.operands, Faultless (p.operandText x)
      fun _ => True :=
    fun x hmember => hwf.operandText (hholds.operation.operands x hmember)
  have hownType := hwf.typeName hholds.type
  obtain ⟨operation, type, pos, parent, name⟩ := value
  cases operation with
  | const constant | function func | global name | builtin name =>
      exact hwf.operandText hhas
  | parameter index | freeVar index => exact .pure trivial
  | alloc heap =>
      refine (hwf.derefType hholds.type).bind fun inner hinside => ?_
      exact (hwf.typeName hinside).bind fun _ _ => .pure trivial
  | makeInterface x | changeType x | convert x =>
      refine hownType.bind fun _ _ => ?_
      exact (htext x (by simp [Operation.operands])).bind
        fun _ _ => .pure trivial
  | makeClosure func bindings =>
      have hinside : ∀ id ∈ bindings, p.HasValue id :=
        fun id hmember =>
          hholds.operation.operands id (by simp [Operation.operands, hmember])
      refine (htext func (by simp [Operation.operands])).bind fun _ _ => ?_
      exact (hwf.operandTexts hinside).bind fun _ _ => .pure trivial
  | makeMap reserve => exact hownType.bind fun _ _ => .pure trivial
  | makeSlice length capacity =>
      refine hownType.bind fun _ _ => ?_
      refine (htext length (by simp [Operation.operands])).bind fun _ _ => ?_
      exact (htext capacity (by simp [Operation.operands])).bind
        fun _ _ => .pure trivial
  | unary op x | extract x index =>
      exact (htext x (by simp [Operation.operands])).bind
        fun _ _ => .pure trivial
  | binary op x y | indexAddr x y | index x y | lookup x y commaOk =>
      refine (htext x (by simp [Operation.operands])).bind fun _ _ => ?_
      exact (htext y (by simp [Operation.operands])).bind
        fun _ _ => .pure trivial
  | fieldAddr x index | field x index =>
      refine (htext x (by simp [Operation.operands])).bind fun _ _ => ?_
      refine (hwf.fieldText
        (hholds.operation.operands x (by simp [Operation.operands])) index).bind
        fun _ _ => ?_
      exact .pure trivial
  | typeAssert x asserted commaOk =>
      refine (htext x (by simp [Operation.operands])).bind fun _ _ => ?_
      exact (hwf.typeName
        (hholds.operation.asserted x asserted commaOk rfl)).bind
        fun _ _ => .pure trivial
  | phi edges =>
      exact (hwf.operandTexts hholds.operation.operands).bind
        fun _ _ => .pure trivial
  | call call => exact hwf.callText hholds.operation.operands

theorem WellFormed.instructionText (hwf : p.WellFormed)
    {instruction : Instruction} (hhas : p.HasInstruction instruction) :
    Faultless (p.instructionText instruction) fun _ => True := by
  have hreads : ∀ id ∈ instruction.operands, p.HasValue id :=
    fun id hmember => hhas id (by simp [hmember])
  have htext : ∀ id ∈ instruction.operands, Faultless (p.operandText id)
      fun _ => True :=
    fun id hmember => hwf.operandText (hreads id hmember)
  cases instruction with
  | define id =>
      have hdefined : p.HasValue id := hhas id (by simp [definedValue])
      refine (hwf.valueText hdefined).bind fun _ _ => ?_
      refine (hwf.typeOf hdefined).bind fun type hinside => ?_
      exact (hwf.typeName hinside).bind fun _ _ => .pure trivial
  | store addr val pos =>
      refine (htext addr (by simp [Instruction.operands])).bind fun _ _ => ?_
      exact (htext val (by simp [Instruction.operands])).bind
        fun _ _ => .pure trivial
  | mapUpdate map key value pos =>
      refine (htext map (by simp [Instruction.operands])).bind fun _ _ => ?_
      refine (htext key (by simp [Instruction.operands])).bind fun _ _ => ?_
      exact (htext value (by simp [Instruction.operands])).bind
        fun _ _ => .pure trivial
  | ret results pos =>
      exact (hwf.operandTexts hreads).bind fun _ _ => .pure trivial
  | jump target | runDefers => exact .pure trivial
  | branch cond thenBlock elseBlock =>
      exact (htext cond (by simp [Instruction.operands])).bind
        fun _ _ => .pure trivial
  | panic x pos =>
      exact (htext x (by simp [Instruction.operands])).bind
        fun _ _ => .pure trivial
  | go call pos | defer call pos =>
      exact (hwf.callText hreads).bind fun _ _ => .pure trivial

theorem WellFormed.listing (hwf : p.WellFormed) {id : FuncId}
    (hhas : p.HasFunc id) : Faultless (p.listing id) fun _ => True := by
  refine (hwf.funcAt hhas).bind fun f hholds => ?_
  refine (hwf.funcName hhas).bind fun _ _ => ?_
  refine (hwf.typeName hholds.hasSignature).bind fun _ _ => ?_
  have hofBlock : ∀ entry ∈ f.body.zipIdx, Faultless
      (p.blockLines entry.2 entry.1)
      fun _ => True := by
    intro entry hmember
    refine (Faultless.mapM fun i hinBlock => hwf.instructionText ?_).bind
      fun _ _ => .pure trivial
    exact hholds.instructions i (List.mem_flatMap.2
      ⟨entry.1, List.fst_mem_of_mem_zipIdx hmember, hinBlock⟩)
  split
  · exact .pure trivial
  · next blocks hknown =>
      simp only [Func.body, hknown, Option.getD_some] at hofBlock
      exact (Faultless.mapM hofBlock).bind fun _ _ => .pure trivial

end SchemaLint.Package
