import SchemaLint.Proofs.Provenance.Trace
import SchemaLint.Proofs.Queries.Types
import SchemaLint.Proofs.Walk.Run
import SchemaLint.Provider.FieldStore

/-!
# Traces, walks and stores of well-formed packages

Traces and walks stay in the tables, and so do the values of the stores and map
entries that are found by them.
-/

namespace SchemaLint

private theorem Operation.transparent?_mem {operation : Operation} {x : ValueId}
    (hfound : operation.transparent? = some x) : x ∈ operation.operands := by
  cases operation <;> simp_all [transparent?, operands]

namespace Package

variable {p : Package}

/-! ## Traces -/

theorem WellFormed.trace_hasValue (hwf : p.WellFormed) {value : ValueId}
    (hhas : p.HasValue value) :
    Faultless (p.trace value) fun trace =>
      p.HasValue trace.root ∧ ∀ met ∈ trace.values, p.HasValue met := by
  obtain ⟨path, root, revisited, htraced, hresult⟩ := hwf.trace hhas
  obtain ⟨carried, hmember⟩ := htraced.root_carried
  have hinside := htraced.hasValue hwf hhas
  refine ⟨_, hresult, hinside _ hmember, ?_⟩
  simpa using hinside

theorem WellFormed.analysisTrace (hwf : p.WellFormed) {value : ValueId}
    (hhas : p.HasValue value) :
    Faultless (Analysis.trace p value : Analysis ε Trace) fun trace =>
      p.HasValue trace.root ∧ ∀ met ∈ trace.values, p.HasValue met := by
  refine (hwf.trace_hasValue hhas).ofAccess.bind fun trace hinside => ?_
  exact ⟨by rintro _ ⟨⟩; exact hinside, nofun⟩

theorem WellFormed.analysisRoot (hwf : p.WellFormed) {value : ValueId}
    (hhas : p.HasValue value) :
    Faultless (Analysis.root p value : Analysis ε ValueId) p.HasValue :=
  (hwf.analysisTrace hhas).bind fun _ hinside => .pure hinside.1

theorem WellFormed.analysisConstString? (hwf : p.WellFormed) {value : ValueId}
    (hhas : p.HasValue value) :
    Faultless (Analysis.constString? p value : Analysis ε (Option String))
      fun _ => True :=
  (hwf.analysisRoot hhas).bind fun _ hinside =>
    (hwf.constString? hinside).ofAccess

theorem WellFormed.unboxWithin (hwf : p.WellFormed) (steps : Nat)
    {value : ValueId} (hhas : p.HasValue value) :
    Faultless (p.unboxWithin steps value) p.HasValue := by
  induction steps generalizing value with
  | zero => exact .pure hhas
  | succ steps ih =>
      refine (hwf.operationAt hhas).bind fun operation hknown => ?_
      split
      · next x hfound =>
          exact ih (hknown.operands x (Operation.transparent?_mem hfound))
      · exact .pure hhas

theorem WellFormed.stripBoxing (hwf : p.WellFormed) {value : ValueId}
    (hhas : p.HasValue value) : Faultless (p.stripBoxing value) p.HasValue :=
  hwf.unboxWithin (p.values.size + 1) hhas

theorem WellFormed.isElementAddr (hwf : p.WellFormed) {value : ValueId}
    (hhas : p.HasValue value) :
    Faultless (p.isElementAddr value) fun _ => True := by
  refine (hwf.operationAt hhas).bind fun operation _ => ?_
  split <;> exact .pure trivial

theorem WellFormed.firstBare? (hwf : p.WellFormed) {values : List ValueId}
    (hhas : ∀ id ∈ values, p.HasValue id) :
    Faultless (p.firstBare? values) fun found =>
      ∀ id ∈ found, p.HasValue id := by
  induction values with
  | nil => exact .pure_none
  | cons value rest ih =>
      have hbare : Faultless (p.isBare value) fun _ => True :=
        (hwf.operationAt (hhas value List.mem_cons_self)).bind
          fun _ _ => .pure trivial
      refine hbare.bind fun answer _ => ?_
      split
      · refine .pure ?_
        rintro _ ⟨⟩
        exact hhas value List.mem_cons_self
      · exact ih fun id hmember => hhas id (List.mem_cons_of_mem _ hmember)

theorem WellFormed.outermost (hwf : p.WellFormed) {trace : Trace}
    (hroot : p.HasValue trace.root)
    (hvalues : ∀ met ∈ trace.values, p.HasValue met) :
    Faultless (trace.outermost p) p.HasValue := by
  refine (hwf.firstBare? hvalues).bind fun found hinside => .pure ?_
  cases found with
  | none => exact hroot
  | some value => exact hinside value rfl

/-! ## Walks -/

theorem WellFormed.inspect (hwf : p.WellFormed) (isSealed : FuncId → Bool)
    {visit : σ → Instruction → Access (σ × Bool)} {inv : σ → Prop} {state : σ}
    (hholds : inv state)
    (hstep : ∀ state, inv state → ∀ i, p.HasInstruction i →
          Faultless (visit state i) fun answer => inv answer.1)
    {start : List Instruction} (hinRange : ∀ i ∈ start, p.HasInstruction i) :
    Faultless (p.inspect isSealed visit state start) inv := by
  obtain ⟨visited, hinside, hsame⟩ := hwf.inspect_eq_visitAll isSealed hinRange
  rw [hsame]
  exact visitAll_faultless hholds fun state hholds i hmember =>
    hstep state hholds i (hinside i hmember)

theorem WellFormed.walk (hwf : p.WellFormed) (isSealed : FuncId → Bool)
    {start : List Instruction} (hinRange : ∀ i ∈ start, p.HasInstruction i) :
    Faultless (p.walk isSealed start) fun visited =>
      ∀ i ∈ visited, p.HasInstruction i := by
  obtain ⟨visited, hinside, hsame⟩ := hwf.inspect_eq_visitAll isSealed hinRange
  refine ⟨visited, ?_, hinside⟩
  simp [Package.walk, hsame, visitAll_total (fun seen i => i :: seen)]

/-! ## Stores and entries -/

def HoldsStores (p : Package) (stores : List FieldStore) : Prop :=
  ∀ store ∈ stores, p.HasValue store.value

theorem HoldsStores.first {stores : List FieldStore} {field : String}
    {store : FieldStore} (hknown : p.HoldsStores stores)
    (hfound : firstStore? stores field = some store) : p.HasValue store.value :=
  hknown store (List.mem_of_find?_eq_some hfound)

theorem HoldsStores.filter {stores : List FieldStore}
    (hknown : p.HoldsStores stores) (keep : FieldStore → Bool) :
    p.HoldsStores (stores.filter keep) :=
  fun store hmember => hknown store (List.mem_of_mem_filter hmember)

theorem WellFormed.fieldAddress? (hwf : p.WellFormed) (typeName : String)
    {instruction : Instruction} (hhas : p.HasInstruction instruction) :
    Faultless (p.fieldAddress? typeName instruction) fun found =>
      ∀ address ∈ found, p.HasValue address.struct := by
  cases instruction with
  | define id =>
      refine (hwf.operationAt (hhas id (by simp [definedValue]))).bind
        fun operation hknown => ?_
      split
      · next x index =>
          have hbase : p.HasValue x :=
            hknown.operands x (by simp [Operation.operands])
          refine (hwf.typeOf hbase).bind fun type hinside => ?_
          refine (hwf.isType hinside typeName).bind fun answer _ => ?_
          split
          · exact .pure_none
          · refine (hwf.field? hinside index).bind fun field _ => .pure ?_
            intro address hfound
            obtain ⟨_, -, rfl⟩ := Option.map_eq_some_iff.1 hfound
            exact hbase
      · exact .pure_none
  | _ => exact .pure_none

theorem WellFormed.fieldStores (hwf : p.WellFormed)
    {instructions : List Instruction}
    (hinside : ∀ i ∈ instructions, p.HasInstruction i) (typeName : String) :
    Faultless
      (p.fieldStores instructions typeName : Analysis ε (List FieldStore))
      p.HoldsStores := by
  have haddresses :=
    Faultless.filterMapM fun i hmember =>
      hwf.fieldAddress? typeName (hinside i hmember)
  refine haddresses.ofAccess.bind fun addresses hknown =>
    Faultless.filterMapM fun i hmember => ?_
  have hhas := hinside i hmember
  cases i with
  | store addr value pos =>
      cases hfound : addresses.find? (·.addr == addr) with
      | none =>
          simp only [hfound]
          exact .pure_none
      | some address =>
          simp only [hfound]
          have hbase : p.HasValue address.struct :=
            hknown address (List.mem_of_find?_eq_some hfound)
          refine (hwf.analysisRoot hbase).bind fun root _ => .pure ?_
          rintro _ ⟨⟩
          exact hhas value (by simp [Instruction.operands])
  | _ => exact .pure_none

theorem WellFormed.reachedStores (hwf : p.WellFormed) {func : FuncId}
    (hhas : p.HasFunc func) (typeName : String) :
    Faultless (p.reachedStores func typeName : Analysis ε (List FieldStore))
      p.HoldsStores := by
  have hwalked :=
    (hwf.instructions hhas).bind fun _ hinside =>
      hwf.walk (fun _ => false) hinside
  exact hwalked.ofAccess.bind fun _ hinside => hwf.fieldStores hinside typeName

theorem WellFormed.siblings (hwf : p.WellFormed) {value : ValueId}
    (hhas : p.HasValue value) :
    Faultless (p.siblings value) fun found =>
      ∀ i ∈ found, p.HasInstruction i := by
  refine (hwf.valueAt hhas).bind fun entry hholds => ?_
  split
  · exact .pure (by simp)
  · next parent hknown => exact hwf.instructions (hholds.parent parent hknown)

theorem WellFormed.instanceStores (hwf : p.WellFormed) {alloc : ValueId}
    (hhas : p.HasValue alloc) (typeName : String) :
    Faultless (p.instanceStores alloc typeName : Analysis ε (List FieldStore))
      p.HoldsStores := by
  refine (hwf.siblings hhas).ofAccess.bind fun instructions hinside => ?_
  exact (hwf.fieldStores hinside typeName).bind fun _ hknown =>
    .pure (hknown.filter _)

theorem WellFormed.mapEntries (hwf : p.WellFormed) {map : ValueId}
    (hhas : p.HasValue map) :
    Faultless (p.mapEntries map) fun entries =>
      ∀ entry ∈ entries, p.HasValue entry.key ∧ p.HasValue entry.value := by
  refine (hwf.siblings hhas).bind fun instructions hinside => .pure ?_
  intro entry hmember
  obtain ⟨i, hinList, hsame⟩ := List.mem_filterMap.1 hmember
  split at hsame
  · next updated key value pos =>
      split at hsame
      · cases hsame
        have hknown := hinside _ hinList
        exact ⟨hknown key (by simp [Instruction.operands]),
          hknown value (by simp [Instruction.operands])⟩
      · cases hsame
  · cases hsame

theorem WellFormed.isMap (hwf : p.WellFormed) {value : ValueId}
    (hhas : p.HasValue value) : Faultless (p.isMap value) fun _ => True := by
  refine (hwf.operationAt hhas).bind fun operation _ => ?_
  split <;> exact .pure trivial

theorem WellFormed.isAllocOf (hwf : p.WellFormed) {value : ValueId}
    (hhas : p.HasValue value) (typeName : String) :
    Faultless (p.isAllocOf value typeName) fun _ => True := by
  refine (hwf.valueAt hhas).bind fun entry hholds => ?_
  split
  · exact hwf.isType hholds.type typeName
  · exact .pure trivial

end Package

end SchemaLint
