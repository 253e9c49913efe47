import SchemaLint.Proofs.Walk.Reach
import SchemaLint.Proofs.Yields
import SchemaLint.Provider.FieldStore

/-!
# Effects of bodies

A body that builds structs and maps stores into fields by addresses taken right
before, updates maps, and calls known functions. Field stores, map entries and
walks are read off the list of these effects.
-/

namespace SchemaLint

inductive Effect
  | call (callee : FuncId)
  /-- A store into a field of a struct of the type. -/
  | store (type : String) (store : FieldStore)
  | update (map : ValueId) (entry : MapEntry)

def storesOf (type : String) (effects : List Effect) : List FieldStore :=
  effects.filterMap fun
    | .store other store => if other = type then some store else none
    | _ => none

def updatesOf (map : ValueId) (effects : List Effect) : List MapEntry :=
  effects.filterMap fun
    | .update other entry => if other = map then some entry else none
    | _ => none

def calleesOf (effects : List Effect) : List FuncId :=
  effects.filterMap fun
    | .call callee => some callee
    | _ => none

theorem storesOf_append (type : String) (first second : List Effect) :
    storesOf type (first ++ second) =
      storesOf type first ++ storesOf type second :=
  List.filterMap_append

theorem updatesOf_append (map : ValueId) (first second : List Effect) :
    updatesOf map (first ++ second) =
      updatesOf map first ++ updatesOf map second :=
  List.filterMap_append

theorem calleesOf_append (first second : List Effect) :
    calleesOf (first ++ second) = calleesOf first ++ calleesOf second :=
  List.filterMap_append

namespace Package

variable {p : Package}

/-- The value is an allocated struct of a type of this name with fields of these
names. -/
def IsStruct (p : Package) (base : ValueId) (type : String)
    (names : List String) : Prop :=
  ∃ value heap fields, p.valueAt base = .ok value ∧
    value.operation = .alloc heap ∧
    (∀ name, p.isType value.type name = .ok (type == name)) ∧
    p.fields value.type = .ok fields ∧
    fields.map Field.name = names

def IsPlain (operation : Operation) : Prop :=
  (∀ x index, operation ≠ .fieldAddr x index) ∧ ∀ call, operation ≠ .call call

inductive Effects (p : Package) : List Instruction → List Effect → Prop
  | nil : Effects p [] []
  | define {id operation rest effects} :
    p.operationAt id = .ok operation → IsPlain operation →
    Effects p rest effects →
      Effects p (.define id :: rest) effects
  | call {id call callee rest effects} :
    p.operationAt id = .ok (.call call) →
    p.staticCallee? call = .ok (some callee) → Effects p rest effects →
      Effects p (.define id :: rest) (.call callee :: effects)
  | store {addr base index type names field value pos rest effects} :
    p.operationAt addr = .ok (.fieldAddr base index) →
    p.IsStruct base type names → names[index]? = some field →
      Effects p rest effects →
      Effects p (.define addr :: .store addr value pos :: rest)
        (.store type ⟨base, field, value, pos⟩ :: effects)
  | update {map key value pos rest effects} :
    Effects p rest effects →
    Effects p (.mapUpdate map key value pos :: rest)
      (.update map ⟨key, value, pos⟩ :: effects)
  | ret {results pos rest effects} :
    Effects p rest effects → Effects p (.ret results pos :: rest) effects

theorem Effects.append {first second : List Instruction}
    {before after : List Effect} (hone : p.Effects first before)
    (htwo : p.Effects second after) :
    p.Effects (first ++ second) (before ++ after) := by
  induction hone with
  | nil => exact htwo
  | define hknown hplain _ ih => exact .define hknown hplain ih
  | call hknown hresolved _ ih => exact .call hknown hresolved ih
  | store hknown hstruct hnamed _ ih => exact .store hknown hstruct hnamed ih
  | update _ ih => exact .update ih
  | ret _ ih => exact .ret ih

/-! ## Field stores -/

theorem IsStruct.unique {base : ValueId} {type type' : String}
    {names names' : List String} (hone : p.IsStruct base type names)
    (hother : p.IsStruct base type' names') :
    type = type' ∧ names = names' := by
  obtain ⟨value, _, fields, hfound, -, htyped, hknown, rfl⟩ := hone
  obtain ⟨value', _, fields', hfound', -, htyped', hknown', rfl⟩ := hother
  rw [hfound] at hfound'
  cases hfound'
  rw [hknown] at hknown'
  cases hknown'
  have hsame := (htyped type').symm.trans (htyped' type')
  simp only [BEq.rfl, Except.ok.injEq, beq_iff_eq] at hsame
  exact ⟨hsame, rfl⟩

theorem IsStruct.isAllocOf {base : ValueId} {type : String}
    {names : List String} (hstruct : p.IsStruct base type names)
    (name : String) : p.isAllocOf base name = .ok (type == name) := by
  obtain ⟨value, heap, fields, hfound, halloc, htyped, -, -⟩ := hstruct
  simp [Package.isAllocOf, hfound, halloc, htyped]

theorem IsStruct.originStep? {base : ValueId} {type : String}
    {names : List String} (hstruct : p.IsStruct base type names) (index : Nat) :
    p.originStep? base index = .ok none := by
  obtain ⟨value, heap, fields, hfound, halloc, -, -, -⟩ := hstruct
  simp [Package.originStep?, operationAt, hfound, halloc]

theorem traceFrom_stuck {seen : List ValueId} {value : ValueId} {index : Nat}
    (hfresh : value ∉ seen) (hstuck : p.originStep? value index = .ok none) :
    p.traceFrom seen value index =
      .ok ⟨(value :: seen).reverse, value, false⟩ := by
  rw [traceFrom, dif_neg (by simpa using hfresh)]
  split
  · next hfailed => cases hstuck.symm.trans hfailed
  · rfl
  · next hmore => cases hstuck.symm.trans hmore

theorem traceFrom_step {seen : List ValueId} {value next : ValueId}
    {index carried : Nat} (hfresh : value ∉ seen)
    (hstep : p.originStep? value index = .ok (some (next, carried))) :
    p.traceFrom seen value index =
      p.traceFrom (value :: seen) next carried := by
  rw [traceFrom, dif_neg (by simpa using hfresh)]
  split
  · next hfailed => cases hstep.symm.trans hfailed
  · next hended => cases hstep.symm.trans hended
  · next hmore =>
      cases hstep.symm.trans hmore
      rfl

theorem root_of_stuck {value : ValueId}
    (hstuck : p.originStep? value 0 = .ok none) : p.root value = .ok value := by
  simp [root, trace, traceFrom_stuck (List.not_mem_nil) hstuck]

private theorem fieldAddress?_define {id base : ValueId} {index : Nat}
    {type : String} {names : List String}
    (hknown : p.operationAt id = .ok (.fieldAddr base index))
    (hstruct : p.IsStruct base type names) (name : String) :
    p.fieldAddress? name (.define id) =
      .ok (if type = name then names[index]?.map fun field => ⟨id, base, field⟩
        else none) := by
  obtain ⟨value, heap, fields, hfound, halloc, htyped, hlisted, rfl⟩ := hstruct
  by_cases hsame : type = name
  · subst hsame
    simp [fieldAddress?, hknown, typeOf, hfound, htyped, field?, hlisted,
      Function.comp_def]
  · simp [fieldAddress?, hknown, typeOf, hfound, htyped, hsame]

def IsAddress (p : Package) (type : String) (address : FieldAddress) : Prop :=
  ∃ index names, p.operationAt address.addr =
    .ok (.fieldAddr address.struct index) ∧
    p.IsStruct address.struct type names ∧ names[index]? = some address.field

theorem IsAddress.unique {type type' : String} {one other : FieldAddress}
    (hfirst : p.IsAddress type one) (hsecond : p.IsAddress type' other)
    (hsame : one.addr = other.addr) : type = type' ∧ one = other := by
  obtain ⟨addr, struct, field⟩ := one
  obtain ⟨_, struct', field'⟩ := other
  cases hsame
  obtain ⟨index, names, hknown, hstruct, hnamed⟩ := hfirst
  obtain ⟨index', names', hknown', hstruct', hnamed'⟩ := hsecond
  simp only [hknown, Except.ok.injEq, Operation.fieldAddr.injEq] at hknown'
  obtain ⟨rfl, rfl⟩ := hknown'
  obtain ⟨rfl, rfl⟩ := hstruct.unique hstruct'
  rw [hnamed, Option.some.injEq] at hnamed'
  subst hnamed'
  exact ⟨rfl, rfl⟩

def FindsAddresses (p : Package) (type : String)
    (instructions : List Instruction) : Prop :=
  ∃ addresses, instructions.filterMapM (p.fieldAddress? type) = .ok addresses ∧
    (∀ address ∈ addresses, p.IsAddress type address) ∧
    ∀ address, .define address.addr ∈ instructions → p.IsAddress type address →
    address ∈ addresses

theorem FindsAddresses.skip {type : String} {instruction : Instruction}
    {rest : List Instruction} (hfinds : p.FindsAddresses type rest)
    (hnone : p.fieldAddress? type instruction = .ok none)
    (hno : ∀ address, p.IsAddress type address →
        .define address.addr ≠ instruction) :
    p.FindsAddresses type (instruction :: rest) := by
  obtain ⟨addresses, hfound, hright, hall⟩ := hfinds
  refine ⟨addresses, by simp [List.filterMapM_cons, hnone, hfound], hright, ?_⟩
  intro address hdefined his
  rcases List.mem_cons.1 hdefined with hsame | hlater
  · exact absurd hsame (hno address his)
  · exact hall address hlater his

theorem Effects.findsAddresses {instructions : List Instruction}
    {effects : List Effect} (hdone : p.Effects instructions effects)
    (type : String) : p.FindsAddresses type instructions := by
  induction hdone with
  | nil => exact ⟨[], rfl, by simp, by simp⟩
  | @define id operation rest effects hknown hplain _ ih =>
      refine ih.skip ?_ ?_
      · cases operation with
        | fieldAddr x index => exact absurd rfl (hplain.1 x index)
        | _ => simp [fieldAddress?, hknown]
      · rintro address ⟨index, names, his, -⟩ hsame
        cases hsame
        rw [hknown] at his
        cases his
        exact hplain.1 _ _ rfl
  | call hknown _ _ ih =>
      refine ih.skip (by simp [fieldAddress?, hknown]) ?_
      rintro address ⟨index, names, his, -⟩ hsame
      cases hsame
      cases hknown.symm.trans his
  | @store addr base index other names field value pos rest effects hknown
      hstruct hnamed _ ih =>
      have hnext : p.FindsAddresses type (.store addr value pos :: rest) :=
        ih.skip rfl fun _ _ => nofun
      obtain ⟨addresses, hfound, hright, hall⟩ := hnext
      have his : p.IsAddress other ⟨addr, base, field⟩ :=
        ⟨index, names, hknown, hstruct, hnamed⟩
      have hfirst := fieldAddress?_define hknown hstruct type
      by_cases hsame : other = type
      · subst hsame
        refine ⟨⟨addr, base, field⟩ :: addresses, ?_, ?_, ?_⟩
        · simp [List.filterMapM_cons, hfirst, hnamed, hfound]
        · intro address hmember
          rcases List.mem_cons.1 hmember with rfl | hold
          · exact his
          · exact hright address hold
        · intro address hdefined hit
          rcases List.mem_cons.1 hdefined with hsame | hlater
          · cases hsame
            exact List.mem_cons.2 (.inl (hit.unique his rfl).2)
          · exact List.mem_cons_of_mem _ (hall address hlater hit)
      · refine FindsAddresses.skip ⟨addresses, hfound, hright, hall⟩
          (by rw [hfirst, if_neg hsame]) ?_
        rintro address hit ⟨⟩
        exact hsame (his.unique hit rfl).1
  | update _ ih | ret _ ih => exact ih.skip rfl fun _ _ => nofun

private theorem find?_address {type other : String}
    {addresses : List FieldAddress} {address : FieldAddress}
    (hright : ∀ address ∈ addresses, p.IsAddress type address)
    (hall : p.IsAddress type address → address ∈ addresses)
    (his : p.IsAddress other address) :
    addresses.find? (·.addr == address.addr) =
      if other = type then some address else none := by
  cases hfound : addresses.find? (·.addr == address.addr) with
  | some first =>
      have hnamed : first.addr = address.addr := by
        simpa using List.find?_some hfound
      obtain ⟨rfl, rfl⟩ :=
        (hright first (List.mem_of_find?_eq_some hfound)).unique his hnamed
      simp
  | none =>
      split
      · next hsame =>
          subst hsame
          have hnone := List.find?_eq_none.1 hfound address (hall his)
          simp at hnone
      · rfl

theorem Effects.fieldStores {instructions : List Instruction}
    {effects : List Effect} (hdone : p.Effects instructions effects)
    (type : String) :
    (p.fieldStores instructions type : Analysis ε (List FieldStore)).Yields
      (storesOf type effects) := by
  obtain ⟨addresses, hfound, hright, hall⟩ := hdone.findsAddresses type
  rw [Package.fieldStores, Report.bind_yields]
  refine ⟨addresses, Analysis.ofAccess_yields.2 hfound, ?_⟩
  clear hfound
  induction hdone with
  | nil => exact Report.pure_yields.2 rfl
  | define _ _ _ ih | call _ _ _ ih =>
      have hrest :=
        ih fun address hdefined =>
          hall address (List.mem_cons_of_mem _ hdefined)
      rw [List.filterMapM_cons, pure_bind]
      exact hrest
  | @store addr base index other names field value pos rest effects hknown
      hstruct hnamed _ ih =>
      have his : p.IsAddress other ⟨addr, base, field⟩ :=
        ⟨index, names, hknown, hstruct, hnamed⟩
      have hlooked :=
        find?_address hright (hall ⟨addr, base, field⟩ (List.mem_cons_self ..))
          his
      have hrest := ih fun address hdefined => hall address (by simp [hdefined])
      rw [List.filterMapM_cons, pure_bind, List.filterMapM_cons]
      by_cases hsame : other = type
      · subst hsame
        have horigin : p.root base = .ok base :=
          root_of_stuck (hstruct.originStep? 0)
        simp only [hlooked, if_pos]
        rw [bind_assoc, Report.bind_yields]
        refine ⟨base, Analysis.root_yields.2 horigin, ?_⟩
        rw [pure_bind, Report.bind_yields]
        exact ⟨_, hrest, Report.pure_yields.2 (by simp [storesOf])⟩
      · simp only [hlooked, if_neg hsame, pure_bind]
        simpa [storesOf, hsame] using hrest
  | update _ ih | ret _ ih =>
      have hrest :=
        ih fun address hdefined =>
          hall address (List.mem_cons_of_mem _ hdefined)
      rw [List.filterMapM_cons, pure_bind]
      exact hrest

/-! ## Functions -/

def Does (p : Package) (func : FuncId) (effects : List Effect) : Prop :=
  ∃ instructions, p.instructions func = .ok instructions ∧
    p.Effects instructions effects

theorem Does.instanceStores {func : FuncId} {effects : List Effect}
    (hdoes : p.Does func effects) {alloc : ValueId} {value : Value}
    (hfound : p.valueAt alloc = .ok value) (hinside : value.parent = some func)
    (type : String) :
    (p.instanceStores alloc type : Analysis ε (List FieldStore)).Yields
      ((storesOf type effects).filter (·.base == alloc)) := by
  obtain ⟨instructions, hbody, hdone⟩ := hdoes
  have hsiblings : p.siblings alloc = .ok instructions := by
    simp [Package.siblings, hfound, hinside, hbody]
  rw [Package.instanceStores, Report.bind_yields]
  refine ⟨instructions, Analysis.monadLift_yields.2 hsiblings, ?_⟩
  rw [Report.bind_yields]
  exact ⟨storesOf type effects, hdone.fieldStores type,
    Report.pure_yields.2 rfl⟩

theorem Does.mapEntries {func : FuncId} {effects : List Effect}
    (hdoes : p.Does func effects) {map : ValueId} {value : Value}
    (hfound : p.valueAt map = .ok value) (hinside : value.parent = some func) :
    p.mapEntries map = .ok (updatesOf map effects) := by
  obtain ⟨instructions, hbody, hdone⟩ := hdoes
  have hsiblings : p.siblings map = .ok instructions := by
    simp [Package.siblings, hfound, hinside, hbody]
  rw [Package.mapEntries, hsiblings, Access.ok_bind, Access.pure_eq]
  congr 1
  clear hbody hsiblings
  induction hdone with
  | nil => rfl
  | define _ _ _ ih | call _ _ _ ih | store _ _ _ _ ih | ret _ ih =>
      simpa [updatesOf] using ih
  | @update other _ _ _ _ _ _ ih =>
      by_cases hsame : other = map
      · simpa [updatesOf, hsame] using ih
      · simpa [updatesOf, hsame] using ih

/-! ## Walks -/

theorem callee?_plain {id : ValueId} {operation : Operation}
    (hknown : p.operationAt id = .ok operation)
    (hquiet : ∀ call, operation ≠ .call call) :
    p.callee? (.define id) = .ok none := by
  obtain ⟨value, hfound, ⟨⟩⟩ := Access.bind_eq_ok_iff.1 hknown
  cases hsame : value.operation with
  | call call => exact absurd hsame (hquiet call)
  | _ => simp [callee?, callSite?, hfound, hsame]

private theorem callee?_call {id : ValueId} {call : Call} {callee : FuncId}
    (hknown : p.operationAt id = .ok (.call call))
    (hresolved : p.staticCallee? call = .ok (some callee)) :
    p.callee? (.define id) = .ok (some callee) := by
  obtain ⟨value, hfound, hknown⟩ := Access.bind_eq_ok_iff.1 hknown
  have hsame : value.operation = .call call := Except.ok.inj hknown
  simp [callee?, callSite?, hfound, hsame, hresolved]

theorem Effects.walked_flat {isSealed : FuncId → Bool}
    {instructions visited : List Instruction} {effects : List Effect}
    (hdone : p.Effects instructions effects) (hflat : calleesOf effects = [])
    {entered final : List FuncId} {stack : List (List Instruction)}
    (hrest : p.Walked isSealed entered stack visited final) :
    p.Walked isSealed entered (instructions :: stack) (instructions ++ visited)
      final := by
  induction hdone with
  | nil => exact .leave hrest
  | define hknown hplain _ ih =>
      exact .pass (callee?_plain hknown hplain.2) nofun (ih hflat)
  | call => cases hflat
  | store hknown _ _ _ ih =>
      exact .pass (callee?_plain hknown nofun) nofun
        (.pass rfl nofun (ih hflat))
  | update _ ih | ret _ ih => exact .pass rfl nofun (ih hflat)

/-- Going into functions that call nothing and store nothing of a type leaves
the stores of that type. -/
theorem Effects.walked {instructions : List Instruction} {effects : List Effect}
    (hdone : p.Effects instructions effects) {type : String}
    (hcallees : ∀ callee ∈ calleesOf effects, ∃ inner, p.Does callee inner ∧
        calleesOf inner = [] ∧ storesOf type inner = [])
    (entered : List FuncId) :
    ∃ visited final all, p.Walked (fun _ => false) entered [instructions]
        visited final ∧ p.Effects visited all ∧
      storesOf type all = storesOf type effects := by
  -- Whatever was entered before: a callee among it is passed by, any other is
  -- walked through and adds no stores.
  induction hdone generalizing entered with
  | nil => exact ⟨[], entered, [], .leave .done, .nil, rfl⟩
  | define hknown hplain _ ih =>
      obtain ⟨visited, final, all, hwalked, hdoes, hsame⟩ := ih hcallees entered
      exact ⟨_, final, all, .pass (callee?_plain hknown hplain.2) nofun hwalked,
        .define hknown hplain hdoes, hsame⟩
  | @call id call callee rest effects hknown hresolved _ ih =>
      have hothers (entered : List FuncId) :=
        ih
          (fun other hmember => hcallees other (List.mem_cons_of_mem _ hmember))
          entered
      by_cases hold : callee ∈ entered
      · obtain ⟨visited, final, all, hwalked, hdoes, hsame⟩ := hothers entered
        refine ⟨_, final, .call callee :: all,
          .pass (callee?_call hknown hresolved) ?_ hwalked,
          .call hknown hresolved hdoes, hsame⟩
        rintro _ ⟨⟩
        exact .inr hold
      · obtain ⟨inner, ⟨body, hfound, hinside⟩, hflat, hfree⟩ :=
          hcallees callee (List.mem_cons_self ..)
        obtain ⟨visited, final, all, hwalked, hdoes, hsame⟩ :=
          hothers (callee :: entered)
        have hentering := hinside.walked_flat hflat hwalked
        refine ⟨_, final, .call callee :: (inner ++ all),
          .enter (callee?_call hknown hresolved) rfl hold hfound hentering,
          .call hknown hresolved (hinside.append hdoes), ?_⟩
        change storesOf type (inner ++ all) = storesOf type effects
        rw [storesOf_append, hfree, List.nil_append, hsame]
  | @store addr base index other names field value pos rest effects hknown
      hstruct hnamed _ ih =>
      obtain ⟨visited, final, all, hwalked, hdoes, hsame⟩ := ih hcallees entered
      refine ⟨_, final, _,
        .pass (callee?_plain hknown nofun) nofun (.pass rfl nofun hwalked),
        .store hknown hstruct hnamed hdoes, ?_⟩
      simp only [storesOf, List.filterMap_cons] at hsame ⊢
      rw [hsame]
  | update _ ih =>
      obtain ⟨visited, final, all, hwalked, hdoes, hsame⟩ := ih hcallees entered
      exact ⟨_, final, _, .pass rfl nofun hwalked, .update hdoes, hsame⟩
  | ret _ ih =>
      obtain ⟨visited, final, all, hwalked, hdoes, hsame⟩ := ih hcallees entered
      exact ⟨_, final, all, .pass rfl nofun hwalked, .ret hdoes, hsame⟩

theorem Does.reachedStores {func : FuncId} {effects : List Effect}
    (hdoes : p.Does func effects) {type : String}
    (hcallees : ∀ callee ∈ calleesOf effects, ∃ inner, p.Does callee inner ∧
        calleesOf inner = [] ∧ storesOf type inner = []) :
    (p.reachedStores func type : Analysis ε (List FieldStore)).Yields
      (storesOf type effects) := by
  obtain ⟨instructions, hbody, hdone⟩ := hdoes
  obtain ⟨visited, final, all, hwalked, hreached, hsame⟩ :=
    hdone.walked hcallees []
  rw [Package.reachedStores, Report.bind_yields]
  refine ⟨visited, Analysis.ofAccess_yields.2 ?_,
    hsame ▸ hreached.fieldStores type⟩
  rw [hbody, Access.ok_bind, hwalked.walk_eq]

end Package

end SchemaLint
