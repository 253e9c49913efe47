import SchemaLint.Proofs.Alike.Names
import SchemaLint.Proofs.Lists
import SchemaLint.Proofs.Walk.Run
import SchemaLint.Proofs.Yields

/-!
# Walks and stores in packages that look alike

A walk goes into the same functions whatever stands aside in their bodies, a
trace passes through the same values, and the same values are stored into the
same fields.
-/

namespace SchemaLint

/-! ## Lists and lifted answers -/

private theorem Analysis.ofAccess_ok_bind (a : α) (next : α → Analysis ε β) :
    (Analysis.ofAccess (.ok a) : Analysis ε α) >>= next = next a :=
  pure_bind a next

private theorem Analysis.ofAccess_error_bind (fault : Outside)
    (next : α → Analysis ε β) :
    (Analysis.ofAccess (.error fault) : Analysis ε α) >>= next =
      .fail (.outside fault) :=
  rfl

theorem Analysis.lift_ok_bind (a : α) (next : α → Analysis ε β) :
    (MonadLiftT.monadLift (.ok a : Access α) : Analysis ε α) >>= next =
      next a :=
  pure_bind a next

theorem Analysis.lift_error_bind (fault : Outside) (next : α → Analysis ε β) :
    (MonadLiftT.monadLift (.error fault : Access α) : Analysis ε α) >>= next =
      .fail (.outside fault) :=
  rfl

namespace Package

variable {p p' : Package}

/-! ## Instructions that stand aside -/

theorem callee?_of_isAside {instruction : Instruction}
    (haside : p.isAside instruction = true) :
    p.callee? instruction = .ok none := by
  cases instruction <;> simp_all [isAside, callee?, callSite?]

private theorem isAside_of_callee? {instruction : Instruction} {callee : FuncId}
    (hresolved : p.callee? instruction = .ok (some callee)) :
    p.isAside instruction = false := by
  refine Bool.eq_false_iff.2 fun haside => ?_
  simp [callee?_of_isAside haside] at hresolved

/-- Bodies with one gist begin alike, once what stands aside in front of them is
taken away. -/
theorem gist_cons_cases {instruction : Instruction}
    {body body' : List Instruction}
    (hsame : p.gist body' = p.gist (instruction :: body)) :
    p.isAside instruction = true ∧ p.gist body' = p.gist body ∨
      p.isAside instruction = false ∧
        ∃ asides rest', body' = asides ++ instruction :: rest' ∧
          (∀ i ∈ asides, p.isAside i = true) ∧ p.gist rest' = p.gist body := by
  cases haside : p.isAside instruction with
  | true =>
      exact .inl ⟨rfl, by simpa [gist, List.filter_cons, haside] using hsame⟩
  | false =>
      have hfirst : p.gist body' = instruction :: p.gist body := by
        simpa [gist, List.filter_cons, haside] using hsame
      obtain ⟨asides, rest', rfl, hdropped, -, hrest⟩ :=
        List.filter_eq_cons_iff.1 hfirst
      exact .inr ⟨rfl, asides, rest', rfl, by simpa using hdropped, hrest⟩

def Overlooks (p : Package) (visit : σ → Instruction → Access (σ × Bool)) :
    Prop :=
  ∀ state instruction, p.isAside instruction = true →
    visit state instruction = .ok (state, true)

/-- What a walk makes of its state is the same if the state is changed on the
way or in the end. -/
theorem inspectFrom_map {visit : σ → Instruction → Access (σ × Bool)}
    {visit' : τ → Instruction → Access (τ × Bool)} (change : σ → τ)
    (hstep :
      ∀ state i, visit' (change state) i =
        (visit state i).map fun answer => (change answer.1, answer.2))
    (isSealed : FuncId → Bool) (state : σ) (entered : List FuncId)
    (stack : List (List Instruction)) :
    p.inspectFrom isSealed visit' (change state) entered stack =
      (p.inspectFrom isSealed visit state entered stack).map change := by
  fun_induction Package.inspectFrom p isSealed visit state entered stack with
  | case1 => rw [Package.inspectFrom]; rfl
  | case2 _ _ _ ih => rw [Package.inspectFrom, ih]
  | case3 _ _ _ _ _ _ hvisited | case4 _ _ _ _ _ _ hvisited =>
      simp [inspectFrom_cons, hstep, hvisited, Except.map]
  | case5 _ _ _ _ _ _ hvisited _ hfailed =>
      simp [inspectFrom_cons, hstep, hvisited, hfailed, Except.map]
  | case6 _ _ _ _ _ _ hvisited hresolved ih =>
      simp only [inspectFrom_cons, hstep, hvisited, Except.map, Access.ok_bind,
        hresolved, ↓reduceIte, ih]
  | case7 _ entered _ _ _ _ hvisited callee hresolved hknown ih =>
      have hknown : isSealed callee = true ∨ callee ∈ entered := by
        simpa using hknown
      simp only [inspectFrom_cons, hstep, hvisited, Except.map, Access.ok_bind,
        hresolved, hknown, ↓reduceIte, ih]
  | case8 _ entered _ _ _ _ hvisited callee hresolved hunknown fault hfailed =>
      have hunknown : ¬(isSealed callee = true ∨ callee ∈ entered) := by
        simpa using hunknown
      have hnoBody : p.instructions callee = .error fault := by
        simp [Package.instructions, hfailed]
      simp only [inspectFrom_cons, hstep, hvisited, Except.map, Access.ok_bind,
        hresolved, hunknown, ↓reduceIte, hnoBody, Access.error_bind]
  | case9 _ entered _ _ _ _ hvisited callee hresolved hunknown f hfound _ _
      ih =>
      have hunknown : ¬(isSealed callee = true ∨ callee ∈ entered) := by
        simpa using hunknown
      have hbody : p.instructions callee = .ok f.instructions := by
        simp [Package.instructions, hfound]
      simp only [inspectFrom_cons, hstep, hvisited, Except.map, Access.ok_bind,
        hresolved, hunknown, ↓reduceIte, hbody, ih]

def collect (p : Package) (seen : List Instruction)
    (instruction : Instruction) : Access (List Instruction × Bool) :=
  .ok (if p.isAside instruction then seen else instruction :: seen, true)

private theorem overlooks_collect (p : Package) : p.Overlooks p.collect := by
  intro seen instruction haside
  simp [collect, haside]

/-- Collecting everything and then dropping what stands aside is collecting only
what does not stand aside. -/
theorem walk_gist (p q : Package) (isSealed : FuncId → Bool)
    (start : List Instruction) :
    (q.walk isSealed start).map p.gist =
      (q.inspect isSealed p.collect [] start).map List.reverse := by
  have hstep (seen : List Instruction) (i : Instruction) :
      p.collect (p.gist seen) i =
      (Except.ok (i :: seen, true) : Access _).map fun answer =>
        (p.gist answer.1, answer.2) := by
    cases haside : p.isAside i <;> simp [collect, gist, haside, Except.map]
  have hchanged : q.inspect isSealed p.collect [] start =
      (q.inspect isSealed _ [] start).map p.gist :=
    inspectFrom_map p.gist hstep isSealed [] [] [start]
  rw [hchanged, Package.walk]
  cases q.inspect isSealed (fun seen i => .ok (i :: seen, true)) [] start with
  | error fault => rfl
  | ok seen => simp [Except.map, gist, List.filter_reverse]

/-! ## Field addresses -/

private theorem isFieldAddr_of_fieldAddress? {typeName : String}
    {instruction : Instruction} {address : FieldAddress}
    (hfound : p.fieldAddress? typeName instruction = .ok (some address)) :
    p.isFieldAddr address.addr = true := by
  cases instruction with
  | define id =>
      obtain ⟨operation, hknown, hfound⟩ := Access.bind_eq_ok_iff.1 hfound
      split at hfound
      · next x index =>
          obtain ⟨type, -, hfound⟩ := Access.bind_eq_ok_iff.1 hfound
          obtain ⟨matching, -, hfound⟩ := Access.bind_eq_ok_iff.1 hfound
          split at hfound
          · cases hfound
          · obtain ⟨field, -, hfound⟩ := Access.bind_eq_ok_iff.1 hfound
            obtain ⟨_, -, rfl⟩ :=
              Option.map_eq_some_iff.1 (Except.ok.inj hfound)
            simp [isFieldAddr, hknown]
      · cases hfound
  | _ => cases hfound

/-- Field stores are read off the gist of the instructions: a store through no
address of a field is none. -/
theorem fieldStores_gist (p : Package) (instructions : List Instruction)
    (typeName : String) :
    (p.fieldStores (p.gist instructions) typeName :
        Analysis ε (List FieldStore)) =
      p.fieldStores instructions typeName := by
  have haddresses :
      (p.gist instructions).filterMapM (p.fieldAddress? typeName) =
      instructions.filterMapM (p.fieldAddress? typeName) := by
    refine filterMapM_filter fun i _ haside => ?_
    cases i <;> simp_all [isAside, fieldAddress?]
  unfold fieldStores
  rw [haddresses]
  cases hfound : instructions.filterMapM (p.fieldAddress? typeName) with
  | error fault => rfl
  | ok addresses =>
      refine filterMapM_filter (fun i _ haside => ?_)
      cases i with
      | store addr value pos =>
          have habsent : addresses.find? (·.addr == addr) = none := by
            refine List.find?_eq_none.2 fun address hmember hsame => ?_
            obtain ⟨i, -, hdefined⟩ :=
              (Access.mem_filterMapM_iff hfound).1 hmember
            have hisAddr := isFieldAddr_of_fieldAddress? hdefined
            simp_all [isAside]
          simp [habsent]
      | _ => rfl

namespace Alike

variable (ha : p.Alike p')
include ha

/-! ## Walks -/

section

variable {visit : σ → Instruction → Access (σ × Bool)}
  (hoverlooks : p.Overlooks visit) (isSealed : FuncId → Bool)
include hoverlooks

theorem inspectFrom_asides (state : σ) (entered : List FuncId)
    {asides : List Instruction} (haside : ∀ i ∈ asides, p.isAside i = true)
    (rest : List Instruction) (stack : List (List Instruction)) :
    p'.inspectFrom isSealed visit state entered ((asides ++ rest) :: stack) =
      p'.inspectFrom isSealed visit state entered (rest :: stack) := by
  induction asides with
  | nil => rfl
  | cons instruction asides ih =>
      have hfirst := haside instruction List.mem_cons_self
      rw [List.cons_append, inspectFrom_cons,
        hoverlooks state instruction hfirst, ha.callee?,
        callee?_of_isAside hfirst]
      exact ih fun i hmember => haside i (List.mem_cons_of_mem _ hmember)

/-- Once the second walk has passed over what stands aside, both have the same
instruction before them. -/
theorem inspectFrom_align {instruction : Instruction} {body : List Instruction}
    {stack stack' : List (List Instruction)}
    (hcounted : p.isAside instruction = false)
    (hsame :
      List.Forall₂ (fun body body' => p.gist body' = p.gist body)
        ((instruction :: body) :: stack) stack') :
    ∃ body' rest', List.Forall₂ (fun body body' => p.gist body' = p.gist body)
        (body :: stack) (body' :: rest') ∧
      ∀ state entered, p'.inspectFrom isSealed visit state entered stack' =
        p'.inspectFrom isSealed visit state entered
          ((instruction :: body') :: rest') := by
  obtain ⟨top, rest', hfirst, hrest, rfl⟩ := List.forall₂_cons_left_iff.1 hsame
  rcases gist_cons_cases hfirst with
    ⟨haside, -⟩ | ⟨-, asides, body', rfl, haside, hfirst⟩
  · simp [hcounted] at haside
  · exact ⟨body', rest', .cons hfirst hrest, fun state entered =>
      ha.inspectFrom_asides hoverlooks isSealed state entered haside _ _⟩

/-- Two walks that have stacks of one gist before them. What stands aside is a
step of one walk alone, so the induction is on the first walk, and the second is
aligned with it at every instruction that counts. -/
theorem inspectFrom (state : σ) (entered : List FuncId)
    {stack stack' : List (List Instruction)}
    (hsame :
      List.Forall₂ (fun body body' => p.gist body' = p.gist body) stack
        stack') :
    p'.inspectFrom isSealed visit state entered stack' =
      p.inspectFrom isSealed visit state entered stack := by
  fun_induction Package.inspectFrom p isSealed visit state entered stack
    generalizing stack' with
  | case1 =>
      cases hsame
      rw [Package.inspectFrom]
  | case2 state entered stack ih =>
      obtain ⟨body', rest', hfirst, hrest, rfl⟩ :=
        List.forall₂_cons_left_iff.1 hsame
      have haside : ∀ i ∈ body', p.isAside i = true := by
        simpa [gist] using hfirst
      have hpassed :=
        ha.inspectFrom_asides hoverlooks isSealed state entered haside [] rest'
      rw [List.append_nil] at hpassed
      rw [hpassed, Package.inspectFrom, ih hrest]
  | case3 state entered instruction _ _ _ hvisited
  | case4 state entered instruction _ _ _ hvisited =>
      have hcounted : p.isAside instruction = false := by
        refine Bool.eq_false_iff.2 fun haside => ?_
        simp [hoverlooks _ _ haside] at hvisited
      obtain ⟨body', rest', -, haligned⟩ :=
        ha.inspectFrom_align hoverlooks isSealed hcounted hsame
      simp [haligned, inspectFrom_cons, hvisited]
  | case5 state entered instruction _ _ _ hvisited _ hfailed =>
      have hcounted : p.isAside instruction = false := by
        refine Bool.eq_false_iff.2 fun haside => ?_
        simp [callee?_of_isAside haside] at hfailed
      obtain ⟨body', rest', -, haligned⟩ :=
        ha.inspectFrom_align hoverlooks isSealed hcounted hsame
      simp [haligned, inspectFrom_cons, hvisited, ha.callee?, hfailed]
  | case6 state entered instruction _ _ _ hvisited hresolved ih =>
      cases hcounted : p.isAside instruction with
      | true =>
          obtain ⟨body', rest', hfirst, hrest, rfl⟩ :=
            List.forall₂_cons_left_iff.1 hsame
          cases (hoverlooks state instruction hcounted).symm.trans hvisited
          rcases gist_cons_cases hfirst with ⟨-, hfirst⟩ | ⟨hother, -⟩
          · exact ih (.cons hfirst hrest)
          · simp [hcounted] at hother
      | false =>
          obtain ⟨body', rest', hrest, haligned⟩ :=
            ha.inspectFrom_align hoverlooks isSealed hcounted hsame
          simp [haligned, inspectFrom_cons, hvisited, ha.callee?, hresolved,
            ih hrest]
  | case7 state entered instruction _ _ _ hvisited callee hresolved hknown ih =>
      have hknown : isSealed callee = true ∨ callee ∈ entered := by
        simpa using hknown
      obtain ⟨body', rest', hrest, haligned⟩ :=
        ha.inspectFrom_align hoverlooks isSealed (isAside_of_callee? hresolved)
          hsame
      simp [haligned, inspectFrom_cons, hvisited, ha.callee?, hresolved, hknown,
        ih hrest]
  | case8 state entered instruction _ _ _ hvisited callee hresolved hunknown
      fault hfailed =>
      have hunknown : ¬(isSealed callee = true ∨ callee ∈ entered) := by
        simpa using hunknown
      have hfailed : p.instructions callee = .error fault := by
        simp [Package.instructions, hfailed]
      obtain ⟨body', rest', -, haligned⟩ :=
        ha.inspectFrom_align hoverlooks isSealed (isAside_of_callee? hresolved)
          hsame
      rcases ha.instructions callee with
        ⟨_, _, hfound, -, -⟩ | ⟨_, hknown, hfailed'⟩
      · cases hfailed.symm.trans hfound
      · cases hfailed.symm.trans hknown
        simp [haligned, inspectFrom_cons, hvisited, ha.callee?, hresolved,
          hunknown, hfailed']
  | case9 state entered instruction _ _ _ hvisited callee hresolved hunknown f
      hfound _ _ ih =>
      have hunknown : ¬(isSealed callee = true ∨ callee ∈ entered) := by
        simpa using hunknown
      have hfound : p.instructions callee = .ok f.instructions := by
        simp [Package.instructions, hfound]
      obtain ⟨body', rest', hrest, haligned⟩ :=
        ha.inspectFrom_align hoverlooks isSealed (isAside_of_callee? hresolved)
          hsame
      rcases ha.instructions callee with
        ⟨_, _, hknown, hfound', hentering⟩ | ⟨_, hfailed, -⟩
      · cases hfound.symm.trans hknown
        simp [haligned, inspectFrom_cons, hvisited, ha.callee?, hresolved,
          hunknown, hfound', ih (.cons hentering hrest)]
      · cases hfound.symm.trans hfailed

theorem inspect (state : σ) {start start' : List Instruction}
    (hsame : p.gist start' = p.gist start) :
    p'.inspect isSealed visit state start' =
      p.inspect isSealed visit state start :=
  ha.inspectFrom hoverlooks isSealed state [] (.cons hsame .nil)

end

theorem walk (isSealed : FuncId → Bool) {start start' : List Instruction}
    (hsame : p.gist start' = p.gist start) :
    (p'.walk isSealed start').map p.gist =
      (p.walk isSealed start).map p.gist := by
  rw [walk_gist, walk_gist, ha.inspect p.overlooks_collect isSealed [] hsame]

/-! ## Traces -/

theorem originStep? (value : ValueId) (index : Nat) :
    p'.originStep? value index = p.originStep? value index := by
  simp only [Package.originStep?, ha.operationAt, ha.staticCallee?,
    ha.returnValue?]

theorem traceFrom (seen : List ValueId) (current : ValueId) (index : Nat) :
    p'.traceFrom seen current index = p.traceFrom seen current index := by
  fun_induction Package.traceFrom p seen current index with
  | case1 seen current index hmet => rw [Package.traceFrom, dif_pos hmet]
  | case2 seen current index hfresh fault hstep =>
      rw [Package.traceFrom, dif_neg hfresh]
      have hstep' := (ha.originStep? current index).trans hstep
      split <;> simp_all
  | case3 seen current index hfresh hstep =>
      rw [Package.traceFrom, dif_neg hfresh]
      have hstep' := (ha.originStep? current index).trans hstep
      split <;> simp_all
  | case4 seen current index hfresh next number hstep hbelow ih =>
      rw [Package.traceFrom, dif_neg hfresh]
      have hstep' := (ha.originStep? current index).trans hstep
      split <;> simp_all

theorem trace (value : ValueId) : p'.trace value = p.trace value :=
  ha.traceFrom [] value 0

theorem analysisTrace (value : ValueId) :
    (Analysis.trace p' value : Analysis ε Trace) = Analysis.trace p value := by
  simp only [Analysis.trace, ha.trace]

theorem root (value : ValueId) :
    (Analysis.root p' value : Analysis ε ValueId) = Analysis.root p value := by
  simp only [Analysis.root, ha.analysisTrace]

theorem constText? (value : ValueId) :
    (Analysis.constString? p' value : Analysis ε (Option String)) =
      Analysis.constString? p value := by
  simp only [Analysis.constString?, ha.root, ha.constString?]

theorem unboxWithin (steps : Nat) (value : ValueId) :
    p'.unboxWithin steps value = p.unboxWithin steps value := by
  induction steps generalizing value with
  | zero => rfl
  | succ steps ih => simp only [Package.unboxWithin, ha.operationAt, ih]

theorem stripBoxing (value : ValueId) :
    p'.stripBoxing value = p.stripBoxing value := by
  rw [Package.stripBoxing, Package.stripBoxing, ha.values, ha.unboxWithin]

theorem isElementAddr (value : ValueId) :
    p'.isElementAddr value = p.isElementAddr value := by
  simp only [Package.isElementAddr, ha.operationAt]

theorem firstBare? (values : List ValueId) :
    p'.firstBare? values = p.firstBare? values := by
  induction values with
  | nil => rfl
  | cons value rest ih =>
      simp only [Package.firstBare?, Package.isBare, ha.operationAt, ih]

theorem outermost (trace : Trace) : trace.outermost p' = trace.outermost p := by
  simp only [Trace.outermost, ha.firstBare?]

/-! ## Stores -/

theorem fieldAddress? (typeName : String) (instruction : Instruction) :
    p'.fieldAddress? typeName instruction =
      p.fieldAddress? typeName instruction := by
  cases instruction <;>
    simp only [Package.fieldAddress?, ha.operationAt, ha.typeOf, ha.isType,
      ha.field?]

theorem fieldStores {instructions instructions' : List Instruction}
    (hsame : p.gist instructions' = p.gist instructions) (typeName : String) :
    (p'.fieldStores instructions' typeName : Analysis ε (List FieldStore)) =
      p.fieldStores instructions typeName := by
  have hasked :
      (p'.fieldStores instructions' typeName : Analysis ε (List FieldStore)) =
      p.fieldStores instructions' typeName := by
    simp only [Package.fieldStores, funext (ha.fieldAddress? typeName), ha.root]
  rw [hasked, ← fieldStores_gist, hsame, fieldStores_gist]

theorem isAllocOf (value : ValueId) (typeName : String) :
    p'.isAllocOf value typeName = p.isAllocOf value typeName := by
  simp only [Package.isAllocOf, ha.valueAt, ha.isType]

theorem isMap (value : ValueId) : p'.isMap value = p.isMap value := by
  simp only [Package.isMap, ha.operationAt]

theorem reachedStores (func : FuncId) (typeName : String) :
    (p'.reachedStores func typeName : Analysis ε (List FieldStore)) =
      p.reachedStores func typeName := by
  unfold Package.reachedStores
  rcases ha.instructions func with
    ⟨body, body', hfound, hfound', hsame⟩ | ⟨fault, hfound, hfound'⟩
  · rw [hfound, hfound', Access.ok_bind, Access.ok_bind]
    have hwalked := ha.walk (fun _ => false) hsame
    cases hofBody : p.walk (fun _ => false) body with
    | error fault =>
        cases hofBody' : p'.walk (fun _ => false) body' with
        | error fault' =>
            rw [hofBody, hofBody'] at hwalked
            cases hwalked
            rw [Analysis.ofAccess_error_bind, Analysis.ofAccess_error_bind]
        | ok visited' => simp [hofBody, hofBody', Except.map] at hwalked
    | ok visited =>
        cases hofBody' : p'.walk (fun _ => false) body' with
        | error fault' => simp [hofBody, hofBody', Except.map] at hwalked
        | ok visited' =>
            rw [hofBody, hofBody'] at hwalked
            rw [Analysis.ofAccess_ok_bind, Analysis.ofAccess_ok_bind,
              ha.fieldStores (Except.ok.inj hwalked)]
  · rw [hfound, hfound', Access.error_bind, Access.error_bind,
      Analysis.ofAccess_error_bind, Analysis.ofAccess_error_bind]

theorem siblings (value : ValueId) :
    (∃ body body', p.siblings value = .ok body ∧ p'.siblings value = .ok body' ∧
        p.gist body' = p.gist body) ∨ ∃ fault, p.siblings value = .error fault ∧
        p'.siblings value = .error fault :=
  @siblings_forall₂ p p' (fun body body' => p.gist body' = p.gist body)
    ha.bodies ha.values rfl value

theorem instanceStores (alloc : ValueId) (typeName : String) :
    (p'.instanceStores alloc typeName : Analysis ε (List FieldStore)) =
      p.instanceStores alloc typeName := by
  unfold Package.instanceStores
  rcases ha.siblings alloc with
    ⟨body, body', hfound, hfound', hsame⟩ | ⟨fault, hfound, hfound'⟩
  · rw [hfound, hfound', Analysis.lift_ok_bind, Analysis.lift_ok_bind,
      ha.fieldStores hsame]
  · rw [hfound, hfound', Analysis.lift_error_bind, Analysis.lift_error_bind]

end Alike

end Package

end SchemaLint
