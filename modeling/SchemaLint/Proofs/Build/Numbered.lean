import SchemaLint.Proofs.Build.Growth
import SchemaLint.Proofs.Queries.Types
import SchemaLint.Proofs.Violations

/-!
# Packages in the making

A package that is being built is valid but for its jumps, which may go to blocks
that are added later. Builders in order hold such a package and remember nothing
but numbers of its tables. Every table only grows, and a type that is not named
never changes, so what was in order stays so when the new entries are.
-/

namespace SchemaLint

private theorem Func.instructions_bodiless (f : Func) :
    { f with blocks := none }.instructions = [] := rfl

namespace Package

variable {p q : Package}

/-! ## Questions about types -/

def bare (p : Package) : Package :=
  { p with functions := p.functions.map fun f => { f with blocks := none } }

theorem Numbered.bare (hnumbered : p.Numbered) : p.bare.WellFormed := by
  have hhas {id : FuncId} (hknown : p.HasFunc id) : p.bare.HasFunc id := by
    simpa [HasFunc, Package.bare] using hknown
  have hholds {operation : Operation} (hknown : p.HoldsOperation operation) :
      p.bare.HoldsOperation operation :=
    { hknown with function := fun id hsame => hhas (hknown.function id hsame) }
  refine ⟨hnumbered.types, fun value hinTable => ?_, fun f hinTable => ?_⟩
  · have hknown := hnumbered.values value hinTable
    exact { hknown with
      parent := fun id hparent => hhas (hknown.parent id hparent)
      operation := hholds hknown.operation }
  · obtain ⟨g, hknown, rfl⟩ := Array.mem_map.1 hinTable
    exact { hnumbered.headers g hknown with
      instructions := by simp [Func.instructions_bodiless] }

private theorem bare_underlyingWithin (steps : Nat) (id : TypeId) :
    p.bare.underlyingWithin steps id = p.underlyingWithin steps id := by
  induction steps generalizing id with
  | zero => rfl
  | succ steps ih =>
      have hsame : p.bare.typeAt id = p.typeAt id := rfl
      simp only [underlyingWithin, hsame, ih]

theorem bare_structureOf (id : TypeId) :
    p.bare.structureOf id = p.structureOf id := by
  have hsame (id : TypeId) : p.bare.typeAt id = p.typeAt id := rfl
  simp only [structureOf, underlying, bare_underlyingWithin, hsame]
  rfl

theorem bare_derefType (id : TypeId) :
    p.bare.derefType id = p.derefType id := by
  simp only [derefType, bare_structureOf]

theorem bare_fields (id : TypeId) : p.bare.fields id = p.fields id := by
  simp only [fields, bare_derefType, bare_structureOf]

namespace Numbered

variable (hnumbered : p.Numbered)
include hnumbered

theorem typeAt {id : TypeId} (hhas : p.HasType id) :
    Faultless (p.typeAt id) fun type => ∀ id ∈ type.referenced, p.HasType id :=
  hnumbered.bare.typeAt hhas

theorem typeOf {id : ValueId} (hhas : p.HasValue id) :
    Faultless (p.typeOf id) p.HasType :=
  hnumbered.bare.typeOf hhas

theorem structureOf {id : TypeId} (hhas : p.HasType id) :
    Faultless (p.structureOf id) fun type =>
      ∀ id ∈ type.referenced, p.HasType id :=
  bare_structureOf (p := p) id ▸ hnumbered.bare.structureOf hhas

theorem derefType {id : TypeId} (hhas : p.HasType id) :
    Faultless (p.derefType id) p.HasType :=
  bare_derefType (p := p) id ▸ hnumbered.bare.derefType hhas

theorem field? {id : TypeId} (hhas : p.HasType id) (index : Nat) :
    Faultless (p.field? id index) fun found =>
      ∀ field ∈ found, p.HasType field.type := by
  have hanswered := hnumbered.bare.field? hhas index
  simp only [Package.field?, bare_fields] at hanswered
  exact hanswered

theorem fieldIndex? {id : TypeId} (hhas : p.HasType id) (name : String) :
    Faultless (p.fieldIndex? id name) fun _ => True := by
  have hanswered := hnumbered.bare.fieldIndex? hhas name
  simp only [Package.fieldIndex?, bare_fields] at hanswered
  exact hanswered

theorem funcAt {id : FuncId} (hhas : p.HasFunc id) :
    Faultless (p.funcAt id) fun f => p.HoldsFunc { f with blocks := none } := by
  have hbound : id.index < p.functions.size := hhas
  refine ⟨p.functions[id.index], by simp [Package.funcAt, hbound], ?_⟩
  exact hnumbered.headers _ (Array.getElem_mem hbound)

theorem results {id : FuncId} (hhas : p.HasFunc id) :
    Faultless (p.results id) fun results =>
      ∀ type ∈ results, p.HasType type := by
  refine (hnumbered.funcAt hhas).bind fun f hholds => ?_
  obtain ⟨params, results, variadic, hsignature⟩ := hholds.signature
  have hfound : p.typeAt f.signature =
      .ok (.signature params results variadic) := typeAt_eq_ok_iff.2 hsignature
  have hknown := hnumbered.types _ (Array.mem_of_getElem? hsignature)
  rw [hfound]
  exact .pure fun type hmember => hknown type (by simp [Ty.referenced, hmember])

end Numbered

/-! ## Growth -/

structure Within (p q : Package) : Prop where
  types : p.types.size ≤ q.types.size
  values : p.values.size ≤ q.values.size
  functions : p.functions.size ≤ q.functions.size
  plain : ∀ id type, p.typeAt id = .ok type → type.isNamed = false →
      q.typeAt id = .ok type

namespace Within

theorem refl (p : Package) : p.Within p where
  types := Nat.le_refl _
  values := Nat.le_refl _
  functions := Nat.le_refl _
  plain _ _ hfound _ := hfound

theorem trans {r : Package} (hfirst : p.Within q) (hsecond : q.Within r) :
    p.Within r where
  types := Nat.le_trans hfirst.types hsecond.types
  values := Nat.le_trans hfirst.values hsecond.values
  functions := Nat.le_trans hfirst.functions hsecond.functions
  plain id type hfound hplain :=
    hsecond.plain id type (hfirst.plain id type hfound hplain) hplain

variable (hwithin : p.Within q)
include hwithin

theorem hasType {id : TypeId} (hhas : p.HasType id) : q.HasType id :=
  Nat.lt_of_lt_of_le hhas hwithin.types

theorem hasValue {id : ValueId} (hhas : p.HasValue id) : q.HasValue id :=
  Nat.lt_of_lt_of_le hhas hwithin.values

theorem hasFunc {id : FuncId} (hhas : p.HasFunc id) : q.HasFunc id :=
  Nat.lt_of_lt_of_le hhas hwithin.functions

theorem holdsValue {value : Value} (hholds : p.HoldsValue value) :
    q.HoldsValue value where
  type := hwithin.hasType hholds.type
  parent id hparent := hwithin.hasFunc (hholds.parent id hparent)
  operation.operands id hoperand :=
    hwithin.hasValue (hholds.operation.operands id hoperand)
  operation.function id hsame :=
    hwithin.hasFunc (hholds.operation.function id hsame)
  operation.asserted x id commaOk hsame :=
    hwithin.hasType (hholds.operation.asserted x id commaOk hsame)

theorem hasInstruction {instruction : Instruction}
    (hhas : p.HasInstruction instruction) : q.HasInstruction instruction :=
  fun id hused => hwithin.hasValue (hhas id hused)

theorem holdsHeader {f : Func}
    (hholds : p.HoldsFunc { f with blocks := none }) :
    q.HoldsFunc { f with blocks := none } := by
  obtain ⟨params, results, variadic, hsignature⟩ := hholds.signature
  refine ⟨⟨params, results, variadic, ?_⟩,
    fun id hreceiver => hwithin.hasType (hholds.receiver id hreceiver),
    fun id hparam => hwithin.hasValue (hholds.params id hparam), nofun, nofun⟩
  exact typeAt_eq_ok_iff.1
    (hwithin.plain _ _ (typeAt_eq_ok_iff.2 hsignature) rfl)

theorem numbered (hnumbered : p.Numbered)
    (htypes :
      ∀ type ∈ q.types, type ∈ p.types ∨ ∀ id ∈ type.referenced, q.HasType id)
    (hvalues : ∀ value ∈ q.values, value ∈ p.values ∨ q.HoldsValue value)
    (hfunctions : ∀ f ∈ q.functions, f ∈ p.functions ∨
        q.HoldsFunc { f with blocks := none } ∧
          ∀ instruction ∈ f.instructions, q.HasInstruction instruction) :
    q.Numbered where
  types type hinTable := by
    rcases htypes type hinTable with hold | hnew
    · exact fun id hmember =>
        hwithin.hasType (hnumbered.types type hold id hmember)
    · exact hnew
  values value hinTable := by
    rcases hvalues value hinTable with hold | hnew
    · exact hwithin.holdsValue (hnumbered.values value hold)
    · exact hnew
  headers f hinTable := by
    rcases hfunctions f hinTable with hold | hnew
    · exact hwithin.holdsHeader (hnumbered.headers f hold)
    · exact hnew.1
  bodies f hinTable := by
    rcases hfunctions f hinTable with hold | hnew
    · exact fun instruction hmember =>
        hwithin.hasInstruction (hnumbered.bodies f hold instruction hmember)
    · exact hnew.2

end Within

end Package

/-! ## Builders -/

structure Builder.InOrder (b : Builder) : Prop where
  numbered : b.package.Numbered
  interned : ∀ type id, (type, id) ∈ b.interned →
    b.package.HasType id ∧
    (type.isNamed = false → b.package.typeAt id = .ok type)
  declared : ∀ key id, (key, id) ∈ b.declared → b.package.HasType id
  funcRefs : ∀ func id, (func, id) ∈ b.funcRefs → b.package.HasValue id

namespace Builder

theorem inOrder_new (path : String) : (Builder.new path).InOrder := by
  refine ⟨⟨?_, ?_, ?_, ?_⟩, ?_, ?_, ?_⟩ <;> simp [Builder.new]

variable {b : Builder}

theorem InOrder.package (hinOrder : b.InOrder) {q : Package}
    (hwithin : b.package.Within q) (hnumbered : q.Numbered) :
    { b with package := q }.InOrder where
  numbered := hnumbered
  interned type id hknown := by
    obtain ⟨hhas, hfound⟩ := hinOrder.interned type id hknown
    exact ⟨hwithin.hasType hhas,
      fun hplain => hwithin.plain id type (hfound hplain) hplain⟩
  declared key id hknown := hwithin.hasType (hinOrder.declared key id hknown)
  funcRefs func id hknown := hwithin.hasValue (hinOrder.funcRefs func id hknown)

theorem within_positions (p : Package) (positions : PositionTable) :
    p.Within { p with positions } where
  types := Nat.le_refl _
  values := Nat.le_refl _
  functions := Nat.le_refl _
  plain _ _ hfound _ := hfound

theorem InOrder.positions (hinOrder : b.InOrder) (positions : PositionTable) :
    { b with package := { b.package with positions } }.InOrder :=
  have hwithin := within_positions b.package positions
  hinOrder.package hwithin (hwithin.numbered hinOrder.numbered (fun _ => .inl)
    (fun _ => .inl)
    fun _ => .inl)

/-! ### Types -/

theorem within_pushType (p : Package) (type : Ty) :
    p.Within { p with types := p.types.push type } where
  types := by simp
  values := Nat.le_refl _
  functions := Nat.le_refl _
  plain _ _ hfound _ := Package.typeAt_push hfound type

theorem InOrder.pushType (hinOrder : b.InOrder) {type : Ty}
    (hknown : ∀ id ∈ type.referenced, b.package.HasType id) :
    { b with package := { b.package with
      types := b.package.types.push type } }.InOrder := by
  have hwithin := within_pushType b.package type
  refine hinOrder.package hwithin
    (hwithin.numbered hinOrder.numbered ?_ (fun _ => .inl) fun _ => .inl)
  intro other hinTable
  rcases Array.mem_push.1 hinTable with hold | rfl
  · exact .inl hold
  · exact .inr fun id hmember => hwithin.hasType (hknown id hmember)

theorem InOrder.interning (hinOrder : b.InOrder) {type : Ty}
    (hknown : ∀ id ∈ type.referenced, b.package.HasType id) :
    (b.interning type).InOrder := by
  have hpushed := hinOrder.pushType hknown
  refine { hpushed with interned := fun other id hmember => ?_ }
  rcases List.mem_cons.1 hmember with hsame | hold
  · cases hsame
    refine ⟨?_, fun _ => ?_⟩
    · simp [Package.HasType, Builder.interning]
    · simp [Package.typeAt_eq_ok_iff, Builder.interning]
  · exact hpushed.interned other id hold

theorem InOrder.declaring (hinOrder : b.InOrder) (package : Option String)
    (name : String) {underlying : TypeId}
    (hhas : b.package.HasType underlying) :
    (b.declaring package name underlying).InOrder := by
  have hknown : ∀ id ∈ (Ty.named package name underlying).referenced,
      b.package.HasType id := by
    simpa [Ty.referenced] using hhas
  have hpushed := hinOrder.pushType hknown
  refine { hpushed with declared := fun key id hmember => ?_ }
  rcases List.mem_cons.1 hmember with hsame | hold
  · cases hsame
    simp [Package.HasType, Builder.declaring]
  · exact hpushed.declared key id hold

theorem within_setUnderlying (p : Package) (named underlying : TypeId) :
    p.Within { p with
      types := p.types.modify named.index (Ty.withUnderlying underlying) } where
  types := by simp
  values := Nat.le_refl _
  functions := Nat.le_refl _
  plain id type hfound hplain := by
    rw [Package.typeAt_eq_ok_iff] at hfound ⊢
    rw [Array.getElem?_modify, hfound]
    split
    · rw [Option.map_some, withUnderlying_of_not_named hplain]
    · rfl

theorem InOrder.setUnderlying (hinOrder : b.InOrder) (named : TypeId)
    {underlying : TypeId}
    (hhas : b.package.HasType underlying) :
    { b with package := { b.package with
      types :=
        b.package.types.modify named.index (Ty.withUnderlying underlying) }
            }.InOrder := by
  have hwithin := within_setUnderlying b.package named underlying
  refine hinOrder.package hwithin
    (hwithin.numbered hinOrder.numbered ?_ (fun _ => .inl) fun _ => .inl)
  intro type hinTable
  rcases mem_of_mem_modify hinTable with hold | ⟨old, hmember, rfl⟩
  · exact .inl hold
  · cases old with
    | named package name _ =>
        refine .inr ?_
        simpa [Ty.withUnderlying, Ty.referenced] using hwithin.hasType hhas
    | _ => exact .inl hmember

/-! ### Values -/

theorem within_values (p : Package) {values : Array Value}
    (hmore : p.values.size ≤ values.size) : p.Within { p with values } where
  types := Nat.le_refl _
  values := hmore
  functions := Nat.le_refl _
  plain _ _ hfound _ := hfound

theorem InOrder.pushing (hinOrder : b.InOrder) {value : Value}
    (hholds : b.package.HoldsValue value) : (b.pushing value).InOrder := by
  have hwithin : b.package.Within (b.pushing value).package :=
    within_values _ (by simp)
  refine hinOrder.package hwithin
    (hwithin.numbered hinOrder.numbered (fun _ => .inl) ?_ fun _ => .inl)
  intro other hinTable
  rcases Array.mem_push.1 hinTable with hold | rfl
  · exact .inl hold
  · exact .inr (hwithin.holdsValue hholds)

def naming (b : Builder) (value : ValueId) (text : String) : Builder :=
  { b with package := { b.package with
    values :=
      b.package.values.modify value.index fun v =>
        { v with name := some text } } }

theorem InOrder.naming (hinOrder : b.InOrder) (value : ValueId)
    (text : String) : (b.naming value text).InOrder := by
  have hwithin : b.package.Within (b.naming value text).package :=
    within_values _ (by simp)
  refine hinOrder.package hwithin
    (hwithin.numbered hinOrder.numbered (fun _ => .inl) ?_ fun _ => .inl)
  intro other hinTable
  simp only [Builder.naming] at hinTable
  rcases mem_of_mem_modify hinTable with hold | ⟨old, hmember, rfl⟩
  · exact .inl hold
  · exact .inr
      { hwithin.holdsValue (hinOrder.numbered.values old hmember) with }

theorem InOrder.referring (hinOrder : b.InOrder) (func : FuncId)
    {value : ValueId} (hhas : b.package.HasValue value) :
    { b with funcRefs := (func, value) :: b.funcRefs }.InOrder := by
  refine { hinOrder with funcRefs := fun other id hmember => ?_ }
  rcases List.mem_cons.1 hmember with hsame | hold
  · cases hsame
    exact hhas
  · exact hinOrder.funcRefs other id hold

/-! ### Functions -/

/-- A function is added together with its parameters, which have its number
before it is there. -/
theorem InOrder.adding (hinOrder : b.InOrder) {values : List Value} {f : Func}
    (hofParams : ∀ value ∈ values, b.package.HasType value.type ∧
      value.parent = some ⟨b.package.functions.size⟩ ∧
      ∃ index, value.operation = .parameter index)
    (hsignature :
      ∃ params results variadic, b.package.typeAt f.signature =
        .ok (.signature params results variadic))
    (hreceiver : ∀ id ∈ f.receiver, b.package.HasType id)
    (hparams :
      ∀ id ∈ f.params, id.index < b.package.values.size + values.length)
    (hempty : f.instructions = []) :
    { b with package := { b.package with
      values := b.package.values ++ values.toArray
      functions := b.package.functions.push f } }.InOrder := by
  have hwithin : b.package.Within { b.package with
      values := b.package.values ++ values.toArray
      functions := b.package.functions.push f } :=
    ⟨Nat.le_refl _, by simp, by simp, fun _ _ hfound _ => hfound⟩
  refine hinOrder.package hwithin
    (hwithin.numbered hinOrder.numbered (fun _ => .inl) ?_ ?_)
  · intro value hinTable
    rcases Array.mem_append.1 hinTable with hold | hnew
    · exact .inl hold
    · obtain ⟨htype, hparent, index, hoperation⟩ :=
        hofParams value (by simpa using hnew)
      refine .inr ⟨htype, ?_, ?_⟩
      · rintro id hsame
        cases hsame.symm.trans hparent
        simp [Package.HasFunc]
      · rw [hoperation]
        exact .of_operands (by simp [Operation.operands]) fun _ => rfl
  · intro g hinTable
    rcases Array.mem_push.1 hinTable with hold | rfl
    · exact .inl hold
    · have hbodiless := g.instructions_bodiless
      refine .inr ⟨⟨?_, hreceiver, ?_, by simp [hbodiless],
          by simp [hbodiless]⟩, by simp [hempty]⟩
      · simpa [Package.typeAt_eq_ok_iff] using hsignature
      · intro id hmember
        simpa [Package.HasValue] using hparams id hmember

theorem within_changing (b : Builder) (func : FuncId) (change : Func → Func) :
    b.package.Within (b.changing func change).package where
  types := Nat.le_refl _
  values := Nat.le_refl _
  functions := by simp [changing]
  plain _ _ hfound _ := hfound

theorem InOrder.changing (hinOrder : b.InOrder) (func : FuncId)
    {change : Func → Func} (hsame : ∀ f : Func, f.SameHeader (change f))
    (hbody : ∀ f ∈ b.package.functions,
        ∀ instruction ∈ (change f).instructions, instruction ∈ f.instructions ∨
          b.package.HasInstruction instruction) :
    (b.changing func change).InOrder := by
  have hwithin := within_changing b func change
  refine hinOrder.package hwithin
    (hwithin.numbered hinOrder.numbered (fun _ => .inl) (fun _ => .inl) ?_)
  intro g hinTable
  rcases mem_of_mem_modify hinTable with hold | ⟨old, hmember, rfl⟩
  · exact .inl hold
  · refine .inr ⟨?_, fun instruction hinBody => ?_⟩
    · rw [hsame old]
      exact { hwithin.holdsHeader (hinOrder.numbered.headers old hmember) with }
    · rcases hbody old hmember instruction hinBody with hknown | hnew
      · exact hinOrder.numbered.bodies old hmember instruction hknown
      · exact hnew

end Builder

end SchemaLint
