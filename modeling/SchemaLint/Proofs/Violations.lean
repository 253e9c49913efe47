import SchemaLint.Proofs.WellFormed

/-!
# What validation accepts and what it reports

The numbers that a package holds are told field by field, without the lists that
validation goes through. Validation accepts a package exactly when all of them
are in their tables, signatures are signature types and jumps stay inside their
functions. What it reports otherwise is a violation that the package has.
-/

namespace SchemaLint

/-! ## Numbers in types, values and instructions -/

inductive Ty.Mentions (id : TypeId) : Ty → Prop
  | underlying {package name} : Mentions id (.named package name id)
  | pointer : Mentions id (.pointer id)
  | slice : Mentions id (.slice id)
  | array {length} : Mentions id (.array id length)
  | key {elem} : Mentions id (.map id elem)
  | elem {key} : Mentions id (.map key id)
  | chan : Mentions id (.chan id)
  | field {fields field} :
    field ∈ fields → field.type = id → Mentions id (.struct fields)
  | param {params results variadic} :
    id ∈ params → Mentions id (.signature params results variadic)
  | result {params results variadic} :
    id ∈ results → Mentions id (.signature params results variadic)
  | component {elems} : id ∈ elems → Mentions id (.tuple elems)

theorem Ty.mem_referenced_iff {type : Ty} {id : TypeId} :
    id ∈ type.referenced ↔ type.Mentions id := by
  constructor
  · intro hmember
    cases type with
    | basic | interface => cases hmember
    | named | pointer | slice | array | chan =>
        cases List.mem_singleton.1 hmember
        constructor
    | map key elem =>
        simp only [referenced, List.mem_cons, List.not_mem_nil,
          or_false] at hmember
        rcases hmember with rfl | rfl
        · exact .key
        · exact .elem
    | struct fields =>
        obtain ⟨field, hinside, hsame⟩ := List.mem_map.1 hmember
        exact .field hinside hsame
    | signature params results variadic =>
        rcases List.mem_append.1 hmember with hinside | hinside
        · exact .param hinside
        · exact .result hinside
    | tuple elems => exact .component hmember
  · intro hmentions
    cases hmentions with
    | field hinside hsame => exact List.mem_map.2 ⟨_, hinside, hsame⟩
    | param hinside => exact List.mem_append_left _ hinside
    | result hinside => exact List.mem_append_right _ hinside
    | component hinside => exact hinside
    | _ => simp [referenced]

inductive Call.Reads (id : ValueId) : Call → Prop
  | target {method args} : Reads id ⟨id, method, args⟩
  | arg {target method args} : id ∈ args → Reads id ⟨target, method, args⟩

theorem Call.mem_operands_iff {call : Call} {id : ValueId} :
    id ∈ call.operands ↔ call.Reads id := by
  obtain ⟨target, method, args⟩ := call
  constructor
  · intro hmember
    rcases List.mem_cons.1 hmember with rfl | hinside
    · exact .target
    · exact .arg hinside
  · intro hreads
    cases hreads with
    | target => exact List.mem_cons_self
    | arg hinside => exact List.mem_cons_of_mem _ hinside

inductive Operation.Reads (id : ValueId) : Operation → Prop
  | boxed : Reads id (.makeInterface id)
  | retyped : Reads id (.changeType id)
  | converted : Reads id (.convert id)
  | closed {bindings} : Reads id (.makeClosure id bindings)
  | binding {func bindings} :
    id ∈ bindings → Reads id (.makeClosure func bindings)
  | reserve : Reads id (.makeMap (some id))
  | length {capacity} : Reads id (.makeSlice id capacity)
  | capacity {length} : Reads id (.makeSlice length id)
  | unary {op} : Reads id (.unary op id)
  | left {op y} : Reads id (.binary op id y)
  | right {op x} : Reads id (.binary op x id)
  | structAddr {field} : Reads id (.fieldAddr id field)
  | struct {field} : Reads id (.field id field)
  | listAddr {index} : Reads id (.indexAddr id index)
  | addrIndex {x} : Reads id (.indexAddr x id)
  | list {index} : Reads id (.index id index)
  | index {x} : Reads id (.index x id)
  | map {key commaOk} : Reads id (.lookup id key commaOk)
  | key {x commaOk} : Reads id (.lookup x id commaOk)
  | tuple {index} : Reads id (.extract id index)
  | asserted {type commaOk} : Reads id (.typeAssert id type commaOk)
  | edge {edges} : id ∈ edges → Reads id (.phi edges)
  | call {call} : call.Reads id → Reads id (.call call)

theorem Operation.mem_operands_iff {operation : Operation} {id : ValueId} :
    id ∈ operation.operands ↔ operation.Reads id := by
  constructor
  · intro hmember
    cases operation with
    | const | parameter | freeVar | global | function | builtin | alloc =>
        cases hmember
    | makeInterface | changeType | convert | unary | fieldAddr | field | extract
    | typeAssert =>
        cases List.mem_singleton.1 hmember
        constructor
    | makeClosure func bindings =>
        rcases List.mem_cons.1 hmember with rfl | hinside
        · exact .closed
        · exact .binding hinside
    | makeMap reserve =>
        cases Option.mem_toList.1 hmember
        exact .reserve
    | makeSlice | binary | indexAddr | index | lookup =>
        simp only [operands, List.mem_cons, List.not_mem_nil,
          or_false] at hmember
        rcases hmember with rfl | rfl <;> constructor
    | phi edges => exact .edge hmember
    | call call => exact .call (Call.mem_operands_iff.1 hmember)
  · intro hreads
    cases hreads with
    | binding hinside => exact List.mem_cons_of_mem _ hinside
    | edge hinside => exact hinside
    | call hinside => exact Call.mem_operands_iff.2 hinside
    | _ => simp [operands]

inductive Instruction.Uses (id : ValueId) : Instruction → Prop
  | defined : Uses id (.define id)
  | addr {val pos} : Uses id (.store id val pos)
  | stored {addr pos} : Uses id (.store addr id pos)
  | map {key value pos} : Uses id (.mapUpdate id key value pos)
  | key {map value pos} : Uses id (.mapUpdate map id value pos)
  | entry {map key pos} : Uses id (.mapUpdate map key id pos)
  | result {results pos} : id ∈ results → Uses id (.ret results pos)
  | cond {thenBlock elseBlock} : Uses id (.branch id thenBlock elseBlock)
  | panic {pos} : Uses id (.panic id pos)
  | go {call pos} : call.Reads id → Uses id (.go call pos)
  | defer {call pos} : call.Reads id → Uses id (.defer call pos)

theorem Instruction.mem_used_iff {instruction : Instruction} {id : ValueId} :
    id ∈ Package.definedValue instruction ++ instruction.operands ↔
      instruction.Uses id := by
  constructor
  · intro hmember
    cases instruction with
    | jump | runDefers => cases hmember
    | define =>
        cases List.mem_singleton.1 hmember
        exact .defined
    | store | branch | panic | mapUpdate =>
        simp only [Package.definedValue, operands, List.nil_append,
          List.mem_cons, List.not_mem_nil, or_false] at hmember
        rcases hmember with rfl | rfl | rfl <;> constructor
    | ret results => exact .result hmember
    | go call => exact .go (Call.mem_operands_iff.1 hmember)
    | defer call => exact .defer (Call.mem_operands_iff.1 hmember)
  · intro huses
    cases huses with
    | result hinside => exact hinside
    | go hinside | defer hinside => exact Call.mem_operands_iff.2 hinside
    | _ => simp [Package.definedValue, operands]

inductive Instruction.JumpsTo (target : Nat) : Instruction → Prop
  | jump : JumpsTo target (.jump target)
  | thenBlock {cond elseBlock} : JumpsTo target (.branch cond target elseBlock)
  | elseBlock {cond thenBlock} : JumpsTo target (.branch cond thenBlock target)

theorem Instruction.mem_successors_iff {instruction : Instruction}
    {target : Nat} :
    target ∈ instruction.successors ↔ instruction.JumpsTo target := by
  constructor
  · intro hmember
    cases instruction with
    | jump =>
        cases List.mem_singleton.1 hmember
        exact .jump
    | branch =>
        simp only [successors, List.mem_cons, List.not_mem_nil,
          or_false] at hmember
        rcases hmember with rfl | rfl <;> constructor
    | _ => cases hmember
  · intro hjumps
    cases hjumps <;> simp [successors]

/-! ## Numbers in packages -/

/-- The instruction stands in one of the blocks of the function. -/
def Func.Contains (f : Func) (instruction : Instruction) : Prop :=
  ∃ blocks, f.blocks = some blocks ∧
    ∃ block ∈ blocks, instruction ∈ block.instructions

theorem Func.mem_instructions_iff {f : Func} {instruction : Instruction} :
    instruction ∈ f.instructions ↔ f.Contains instruction := by
  unfold Contains instructions body
  cases f.blocks <;> simp

namespace Package

def size (p : Package) : Table → Nat
  | .type => p.types.size
  | .value => p.values.size
  | .function => p.functions.size

/-- `p.Holds owner table id`: the owner has `id` in a field for numbers of the
table. -/
inductive Holds (p : Package) : Owner → Table → Nat → Prop
  | mentioned {index type id} :
    p.types[index]? = some type → type.Mentions id →
    Holds p (.type index) .type id.index
  | type {index value} :
    p.values[index]? = some value →
      Holds p (.value index) .type value.type.index
  | parent {index value id} :
    p.values[index]? = some value → value.parent = some id →
    Holds p (.value index) .function id.index
  | operand {index value id} :
    p.values[index]? = some value → value.operation.Reads id →
    Holds p (.value index) .value id.index
  | function {index value id} :
    p.values[index]? = some value → value.operation = .function id →
    Holds p (.value index) .function id.index
  | asserted {index value x id commaOk} :
    p.values[index]? = some value → value.operation = .typeAssert x id commaOk →
      Holds p (.value index) .type id.index
  | signature {f} :
    f ∈ p.functions → Holds p (.function f.name) .type f.signature.index
  | receiver {f id} :
    f ∈ p.functions → f.receiver = some id →
      Holds p (.function f.name) .type id.index
  | param {f id} :
    f ∈ p.functions → id ∈ f.params → Holds p (.function f.name) .value id.index
  | used {f instruction id} :
    f ∈ p.functions → f.Contains instruction → instruction.Uses id →
    Holds p (.function f.name) .value id.index

inductive Violated (p : Package) : LoadError → Prop
  | outOfRange {owner table id} :
    p.Holds owner table id → p.size table ≤ id →
    Violated p (.outOfRange owner table id (p.size table))
  | missingBlock {f instruction target} :
    f ∈ p.functions → f.Contains instruction → instruction.JumpsTo target →
    f.body.length ≤ target →
      Violated p (.missingBlock f.name target)
  | notASignature {f type} :
    f ∈ p.functions → p.types[f.signature.index]? = some type →
      (∀ params results variadic, type ≠ .signature params results variadic) →
      Violated p (.notASignature f.name)

/-! ## Checks and what they report -/

variable {p : Package} {owner : Owner} {error : LoadError}

theorem mem_checkType_iff {id : TypeId} :
    error ∈ p.checkType owner id ↔
      p.size .type ≤ id.index ∧
        error = .outOfRange owner .type id.index (p.size .type) := by
  unfold checkType size
  split <;> simp <;> omega

theorem mem_checkValue_iff {id : ValueId} :
    error ∈ p.checkValue owner id ↔
      p.size .value ≤ id.index ∧
        error = .outOfRange owner .value id.index (p.size .value) := by
  unfold checkValue size
  split <;> simp <;> omega

theorem mem_checkFunc_iff {id : FuncId} :
    error ∈ p.checkFunc owner id ↔
      p.size .function ≤ id.index ∧
        error = .outOfRange owner .function id.index (p.size .function) := by
  unfold checkFunc size
  split <;> simp <;> omega

private theorem violated_of_mem_typeViolations {index : Nat} {type : Ty}
    (hentry : p.types[index]? = some type)
    (hmember : error ∈ p.typeViolations index type) : p.Violated error := by
  obtain ⟨id, hinside, hchecked⟩ := List.mem_flatMap.1 hmember
  obtain ⟨houtside, rfl⟩ := mem_checkType_iff.1 hchecked
  exact .outOfRange (.mentioned hentry (Ty.mem_referenced_iff.1 hinside))
    houtside

private theorem violated_of_mem_operationViolations {index : Nat}
    {value : Value} (hentry : p.values[index]? = some value)
    (hmember : error ∈ p.operationViolations (.value index) value.operation) :
    p.Violated error := by
  unfold operationViolations at hmember
  split at hmember
  · next id hsame =>
      obtain ⟨houtside, rfl⟩ := mem_checkFunc_iff.1 hmember
      exact .outOfRange (.function hentry hsame) houtside
  · next x id commaOk hsame =>
      obtain ⟨houtside, rfl⟩ := mem_checkType_iff.1 hmember
      exact .outOfRange (.asserted hentry hsame) houtside
  · cases hmember

private theorem violated_of_mem_valueViolations {index : Nat} {value : Value}
    (hentry : p.values[index]? = some value)
    (hmember : error ∈ p.valueViolations index value) : p.Violated error := by
  simp only [valueViolations, List.mem_append, List.mem_flatMap,
    Option.mem_toList] at hmember
  rcases hmember with
    ((hofType | ⟨id, hparent, hchecked⟩) | ⟨id, hoperand, hchecked⟩) |
    hspecial
  · obtain ⟨houtside, rfl⟩ := mem_checkType_iff.1 hofType
    exact .outOfRange (.type hentry) houtside
  · obtain ⟨houtside, rfl⟩ := mem_checkFunc_iff.1 hchecked
    exact .outOfRange (.parent hentry hparent) houtside
  · obtain ⟨houtside, rfl⟩ := mem_checkValue_iff.1 hchecked
    exact .outOfRange (.operand hentry (Operation.mem_operands_iff.1 hoperand))
      houtside
  · exact violated_of_mem_operationViolations hentry hspecial

private theorem violated_of_mem_checkSignature {f : Func}
    (hinTable : f ∈ p.functions) (hmember : error ∈ p.checkSignature f) :
    p.Violated error := by
  unfold checkSignature at hmember
  split at hmember
  · next type hfound =>
      split at hmember
      · cases hmember
      · next hother =>
          cases List.mem_singleton.1 hmember
          refine .notASignature hinTable hfound ?_
          rintro params results variadic rfl
          exact hother rfl
  · next habsent =>
      cases List.mem_singleton.1 hmember
      exact .outOfRange (.signature hinTable) (by simpa [size] using habsent)

private theorem violated_of_mem_instructionViolations {f : Func}
    (hinTable : f ∈ p.functions) {instruction : Instruction}
    (hcontains : f.Contains instruction)
    (hmember : error ∈ p.instructionViolations f instruction) :
    p.Violated error := by
  rcases List.mem_append.1 hmember with hinside | hinside
  · obtain ⟨id, hused, hchecked⟩ := List.mem_flatMap.1 hinside
    obtain ⟨houtside, rfl⟩ := mem_checkValue_iff.1 hchecked
    exact .outOfRange
      (.used hinTable hcontains (Instruction.mem_used_iff.1 hused)) houtside
  · obtain ⟨target, hjumps, hchecked⟩ := List.mem_flatMap.1 hinside
    unfold checkTarget at hchecked
    split at hchecked
    · cases hchecked
    · next hmissing =>
        cases List.mem_singleton.1 hchecked
        exact .missingBlock hinTable hcontains
          (Instruction.mem_successors_iff.1 hjumps) (Nat.not_lt.1 hmissing)

private theorem violated_of_mem_funcViolations {f : Func}
    (hinTable : f ∈ p.functions) (hmember : error ∈ p.funcViolations f) :
    p.Violated error := by
  simp only [funcViolations, List.mem_append, List.mem_flatMap,
    Option.mem_toList] at hmember
  rcases hmember with
    ((hsignature | ⟨id, hreceiver, hchecked⟩) | ⟨id, hparam, hchecked⟩) |
    ⟨instruction, hinside, hfound⟩
  · exact violated_of_mem_checkSignature hinTable hsignature
  · obtain ⟨houtside, rfl⟩ := mem_checkType_iff.1 hchecked
    exact .outOfRange (.receiver hinTable hreceiver) houtside
  · obtain ⟨houtside, rfl⟩ := mem_checkValue_iff.1 hchecked
    exact .outOfRange (.param hinTable hparam) houtside
  · exact violated_of_mem_instructionViolations hinTable
      (Func.mem_instructions_iff.1 hinside) hfound

theorem violated_of_mem_violations (hmember : error ∈ p.violations) :
    p.Violated error := by
  simp only [violations, List.mem_append, List.mem_flatMap] at hmember
  rcases hmember with
    (⟨⟨type, index⟩, hinside, hfound⟩ | ⟨⟨value, index⟩, hinside, hfound⟩) |
    ⟨f, hinside, hfound⟩
  · have hentry : p.types[index]? = some type := by
      simpa using List.mk_mem_zipIdx_iff_getElem?.1 hinside
    exact violated_of_mem_typeViolations hentry hfound
  · have hentry : p.values[index]? = some value := by
      simpa using List.mk_mem_zipIdx_iff_getElem?.1 hinside
    exact violated_of_mem_valueViolations hentry hfound
  · exact violated_of_mem_funcViolations (Array.mem_toList_iff.1 hinside) hfound

theorem violated_of_validate (hrefused : p.validate = .error error) :
    p.Violated error := by
  unfold validate at hrefused
  split at hrefused
  · cases hrefused
  · next first rest hlisted =>
      cases hrefused
      exact violated_of_mem_violations (by simp [hlisted])

/-! ## Packages without violations -/

structure Numbered (p : Package) : Prop where
  types : ∀ type ∈ p.types, ∀ id ∈ type.referenced, p.HasType id
  values : ∀ value ∈ p.values, p.HoldsValue value
  headers : ∀ f ∈ p.functions, p.HoldsFunc { f with blocks := none }
  bodies : ∀ f ∈ p.functions,
      ∀ instruction ∈ f.instructions, p.HasInstruction instruction

def JumpsInside (p : Package) : Prop :=
  ∀ f ∈ p.functions, ∀ instruction target, f.Contains instruction →
    instruction.JumpsTo target →
    target < f.body.length

theorem wellFormed_iff : p.WellFormed ↔ p.Numbered ∧ p.JumpsInside := by
  constructor
  · intro hwf
    refine ⟨⟨hwf.types, hwf.values, fun f hinTable => ?_,
        fun f hinTable => (hwf.functions f hinTable).instructions⟩, ?_⟩
    · have hholds := hwf.functions f hinTable
      exact { hholds with instructions := nofun, targets := nofun }
    · intro f hinTable instruction target hcontains hjumps
      exact (hwf.functions f hinTable).targets instruction
        (Func.mem_instructions_iff.2 hcontains) target
        (Instruction.mem_successors_iff.2 hjumps)
  · rintro ⟨hnumbered, hjumps⟩
    refine ⟨hnumbered.types, hnumbered.values, fun f hinTable => ?_⟩
    have hheader := hnumbered.headers f hinTable
    refine { hheader with
      instructions := hnumbered.bodies f hinTable
      targets := ?_ }
    intro instruction hinBody target hsuccessor
    exact hjumps f hinTable instruction target
      (Func.mem_instructions_iff.1 hinBody)
      (Instruction.mem_successors_iff.1 hsuccessor)

theorem Numbered.holds (hnumbered : p.Numbered) {table : Table} {id : Nat}
    (hheld : p.Holds owner table id) : id < p.size table := by
  cases hheld with
  | mentioned hentry hmentions =>
      exact hnumbered.types _ (Array.mem_of_getElem? hentry) _
        (Ty.mem_referenced_iff.2 hmentions)
  | type hentry =>
      exact (hnumbered.values _ (Array.mem_of_getElem? hentry)).type
  | parent hentry hparent =>
      exact (hnumbered.values _ (Array.mem_of_getElem? hentry)).parent _ hparent
  | operand hentry hreads =>
      have hholds :=
        (hnumbered.values _ (Array.mem_of_getElem? hentry)).operation
      exact hholds.operands _ (Operation.mem_operands_iff.2 hreads)
  | function hentry hsame =>
      exact (hnumbered.values _
        (Array.mem_of_getElem? hentry)).operation.function _ hsame
  | asserted hentry hsame =>
      exact (hnumbered.values _
        (Array.mem_of_getElem? hentry)).operation.asserted _ _ _ hsame
  | signature hinTable =>
      obtain ⟨params, results, variadic, hfound⟩ :=
        (hnumbered.headers _ hinTable).signature
      exact (Array.getElem?_eq_some_iff.1 hfound).1
  | receiver hinTable hreceiver =>
      exact (hnumbered.headers _ hinTable).receiver _ hreceiver
  | param hinTable hparam =>
      exact (hnumbered.headers _ hinTable).params _ hparam
  | used hinTable hcontains huses =>
      exact hnumbered.bodies _ hinTable _
        (Func.mem_instructions_iff.2 hcontains) _
        (Instruction.mem_used_iff.2 huses)

/-- Validation accepts a package exactly when every number in it is in its
table, every signature is a signature type and every jump goes to a block of its
function; an error that it reports tells of a violation that is there. -/
theorem validate_ok_iff_held_and_error_violated (p : Package) :
    (p.validate = .ok () ↔
        (∀ owner table id, p.Holds owner table id → id < p.size table) ∧
          (∀ f ∈ p.functions,
            ∃ params results variadic, p.types[f.signature.index]? =
              some (.signature params results variadic)) ∧
          ∀ f ∈ p.functions, ∀ instruction target, f.Contains instruction →
            instruction.JumpsTo target → target < f.body.length) ∧
      ∀ error, p.validate = .error error → p.Violated error := by
  refine ⟨⟨fun hvalid => ?_, fun ⟨hheld, hsigned, hjumps⟩ => ?_⟩,
    fun _ => violated_of_validate⟩
  · obtain ⟨hnumbered, hjumps⟩ := wellFormed_iff.1 (validate_eq_ok_iff.1 hvalid)
    exact ⟨fun _ _ _ => hnumbered.holds,
      fun f hinTable => (hnumbered.headers f hinTable).signature, hjumps⟩
  · have hnone : p.violations = [] := by
      refine List.eq_nil_iff_forall_not_mem.2 fun error hmember => ?_
      cases violated_of_mem_violations hmember with
      | outOfRange hholds houtside =>
          exact absurd (hheld _ _ _ hholds) (Nat.not_lt.2 houtside)
      | missingBlock hinTable hcontains htarget hmissing =>
          exact absurd (hjumps _ hinTable _ _ hcontains htarget)
            (Nat.not_lt.2 hmissing)
      | notASignature hinTable hfound hother =>
          obtain ⟨params, results, variadic, hsignature⟩ := hsigned _ hinTable
          exact hother params results variadic
            (Option.some.inj (hfound.symm.trans hsignature))
    rw [validate, hnone]

end Package

end SchemaLint
