import SchemaLint.Lint.Run
import SchemaLint.Proofs.Queries.Providers

/-!
# Rules on well-formed packages

Every rule stays in the tables of the package when it checks a component whose
functions are functions of the package, and so does a run of the linter over
such components.
-/

namespace SchemaLint

theorem Package.HoldsComponent.lifecycle? {p : Package} {component : Component}
    {slot : LifecycleSlot} {func : FuncId} (hholds : p.HoldsComponent component)
    (hfound : component.lifecycle? slot = some func) : p.HasFunc func := by
  obtain ⟨before, after, hsame, -⟩ := List.lookup_eq_some_iff.1 hfound
  exact hholds.declared (slot, func) (by simp [hsame])

namespace RuleContext

variable {ctx : RuleContext}

/-! ## Set calls -/

theorem namedCall?_faultless (hwf : ctx.package.WellFormed)
    {instruction : Instruction}
    (hhas : ctx.package.HasInstruction instruction) :
    Faultless (ctx.namedCall? instruction) fun found =>
      ∀ named ∈ found, ctx.package.HoldsCall named.1.call := by
  refine (hwf.callSite? hhas).bind fun found hknown => ?_
  split
  · exact .pure_none
  · next site =>
      have hholds := hknown site rfl
      refine (hwf.staticCallee? hholds).bind fun target hresolved => ?_
      split
      · exact .pure_none
      · next callee =>
          refine (hwf.funcName (hresolved callee rfl)).bind
            fun name _ => .pure ?_
          rintro _ ⟨⟩
          exact hholds

def HoldsSearch (ctx : RuleContext) (search : SetSearch) : Prop :=
  ∀ site ∈ search.sites, ctx.package.HoldsCall site.call

theorem noteSetCall_faultless (hwf : ctx.package.WellFormed)
    {search : SetSearch} (hknown : ctx.HoldsSearch search)
    {instruction : Instruction}
    (hhas : ctx.package.HasInstruction instruction) :
    Faultless (ctx.noteSetCall search instruction) fun answer =>
      ctx.HoldsSearch answer.1 := by
  refine (namedCall?_faultless hwf hhas).bind fun found hholds => ?_
  split
  · exact .pure hknown
  · next site name =>
      split
      · exact .pure hknown
      · dsimp only
        split
        · exact .pure (List.forall_mem_cons.2 ⟨hholds _ rfl, hknown⟩)
        · exact .pure hknown

theorem searchSlot_faultless (hwf : ctx.package.WellFormed) {search : SetSearch}
    (hknown : ctx.HoldsSearch search) {func : FuncId}
    (hhas : ctx.package.HasFunc func) :
    Faultless (ctx.searchSlot search func) ctx.HoldsSearch := by
  unfold searchSlot
  split
  · exact .pure hknown
  · refine (hwf.instructions hhas).bind fun body hinside => ?_
    exact hwf.inspect _ hknown
      (fun _ hknown _ hhas => noteSetCall_faultless hwf hknown hhas) hinside

theorem searchComponent_faultless (hwf : ctx.package.WellFormed)
    {component : Component} (hholds : ctx.package.HoldsComponent component) :
    Faultless (ctx.searchComponent component) ctx.HoldsSearch := by
  have hstart : ctx.HoldsSearch {} := by simp [HoldsSearch]
  refine Faultless.foldlM hstart fun search hknown func hmember => ?_
  obtain ⟨slot, -, hfound⟩ := List.mem_filterMap.1 hmember
  exact searchSlot_faultless hwf hknown (hholds.lifecycle? hfound)

theorem setCallAt?_faultless (hwf : ctx.package.WellFormed) {site : CallSite}
    (hholds : ctx.package.HoldsCall site.call) :
    Faultless (ctx.setCallAt? site) fun found =>
      ∀ call ∈ found, ctx.package.HasValue call.value := by
  have hargs : ∀ arg ∈ site.call.args, ctx.package.HasValue arg :=
    fun arg hmember => hholds arg (by simp [Call.operands, hmember])
  unfold setCallAt?
  split
  · next receiver name value hsame =>
      rw [hsame] at hargs
      refine (hwf.analysisConstString? (hargs name (by simp))).bind
        fun constant _ => ?_
      split
      · refine .pure ?_
        rintro _ ⟨⟩
        exact hargs value (by simp)
      · exact Faultless.log.bind fun _ _ => .pure_none
  · exact .pure_none

theorem setCalls_faultless (hwf : ctx.package.WellFormed)
    {component : Component} (hholds : ctx.package.HoldsComponent component) :
    Faultless (ctx.setCalls component) fun calls =>
      ∀ call ∈ calls, ctx.package.HasValue call.value := by
  refine (searchComponent_faultless hwf hholds).ofAccess.bind
    fun search hknown => ?_
  have heach :
      ∀ site ∈ search.sites.reverse, Faultless (ctx.setCallAt? site)
        fun found =>
      ∀ call ∈ found, ctx.package.HasValue call.value :=
    fun site hmember =>
      setCallAt?_faultless hwf (hknown site (List.mem_reverse.1 hmember))
  refine (Faultless.filterMapM heach).bind fun calls hinside => ?_
  split
  · exact .refuse
  · exact .pure hinside

end RuleContext

/-! ## Blacklists -/

namespace CallBlacklist

variable {ctx : RuleContext}

theorem note_faultless (hwf : ctx.package.WellFormed) (denied : List String)
    (found : Found) {instruction : Instruction}
    (hhas : ctx.package.HasInstruction instruction) :
    Faultless (note ctx denied found instruction) fun _ => True := by
  refine (RuleContext.namedCall?_faultless hwf hhas).bind fun named _ => ?_
  split
  · exact .pure trivial
  · split <;> exact .pure trivial

theorem searchSlot_faultless (hwf : ctx.package.WellFormed)
    {component : Component} (hholds : ctx.package.HoldsComponent component)
    (found : Found) (entry : LifecycleSlot × List String) :
    Faultless (searchSlot ctx component found entry) fun _ => True := by
  obtain ⟨slot, denied⟩ := entry
  unfold searchSlot
  dsimp only
  split
  · exact .pure trivial
  · split
    · exact .pure trivial
    · next func hdeclared =>
        have hhas := hholds.lifecycle? hdeclared
        refine (hwf.funcName hhas).bind fun name _ => ?_
        split
        · exact .pure trivial
        · refine (hwf.instructions hhas).bind fun body hinside => ?_
          exact hwf.inspect _ trivial
            (fun found _ _ hhas => note_faultless hwf denied found hhas) hinside

theorem check_faultless (hwf : ctx.package.WellFormed)
    (blacklist : CallBlacklist) {component : Component}
    (hholds : ctx.package.HoldsComponent component) :
    Faultless (blacklist.check ctx component) fun _ => True := by
  have hslots : Faultless (blacklist.slots.foldlM (searchSlot ctx component) [])
      fun _ => True :=
    Faultless.foldlM trivial fun found _ entry _ =>
      searchSlot_faultless hwf hholds found entry
  exact hslots.bind fun _ _ => .pure trivial

end CallBlacklist

/-! ## Checks of set calls -/

theorem Package.WellFormed.unboxInterfaceWithin {p : Package}
    (hwf : p.WellFormed) (steps : Nat) {value : ValueId}
    (hhas : p.HasValue value) :
    Faultless (p.unboxInterfaceWithin steps value) p.HasValue := by
  induction steps generalizing value with
  | zero => exact .pure hhas
  | succ steps ih =>
      refine (hwf.operationAt hhas).bind fun operation hknown => ?_
      split
      · next x => exact ih (hknown.operands x (by simp [Operation.operands]))
      · exact .pure hhas

namespace RuleContext

variable {ctx : RuleContext}

theorem isCompatible_faultless (hwf : ctx.package.WellFormed)
    (type : AttributeType) {value : ValueId}
    (hhas : ctx.package.HasValue value) :
    Faultless (ctx.isCompatible type value) fun _ => True := by
  refine (hwf.unboxInterfaceWithin (ctx.package.values.size + 1) hhas).bind
    fun inner hinside => ?_
  refine (hwf.typeOf hinside).bind fun valueType hofType => ?_
  refine (hwf.derefType hofType).bind fun pointee hofPointee => ?_
  refine (hwf.structureOf hofPointee).bind fun shape _ => ?_
  split <;> exact .pure trivial

theorem checkTypes_faultless (hwf : ctx.package.WellFormed)
    (component : Component) {call : SetCall}
    (hhas : ctx.package.HasValue call.value) :
    Faultless (ctx.checkTypes component call) fun _ => True := by
  unfold checkTypes
  split
  · exact .pure trivial
  · next attr _ =>
      split
      · refine (isCompatible_faultless hwf attr.type hhas).ofAccess.bind
          fun answer _ => ?_
        split <;> exact .pure trivial
      · exact Faultless.log.bind fun _ _ => .pure trivial

theorem isDereference_faultless (hwf : ctx.package.WellFormed) {value : ValueId}
    (hhas : ctx.package.HasValue value) :
    Faultless (ctx.isDereference value) fun _ => True := by
  refine (hwf.operationAt hhas).bind fun operation hknown => ?_
  split
  · next x =>
      have hinside := hknown.operands x (by simp [Operation.operands])
      refine (hwf.isElementAddr hinside).bind fun answer _ => ?_
      split
      · exact .pure trivial
      · refine (hwf.typeOf hinside).bind fun type hofType => ?_
        exact (hwf.pointerDepth hofType).bind fun _ _ => .pure trivial
  · exact .pure trivial

theorem checkDereference_faultless (hwf : ctx.package.WellFormed)
    {call : SetCall} (hhas : ctx.package.HasValue call.value) :
    Faultless (ctx.checkDereference call) fun _ => True := by
  refine (hwf.analysisTrace hhas).bind fun trace hinside => ?_
  refine (hwf.outermost hinside.1 hinside.2).ofAccess.bind
    fun outer hofOuter => ?_
  refine (isDereference_faultless hwf hofOuter).ofAccess.bind fun answer _ => ?_
  split <;> exact .pure trivial

end RuleContext

/-! ## Runs -/

theorem Rule.check_faultless (rule : Rule) {ctx : RuleContext}
    (hwf : ctx.package.WellFormed) (readOnly : Bool) {component : Component}
    (hholds : ctx.package.HoldsComponent component) :
    Faultless (rule.check ctx readOnly component) fun _ => True := by
  have hcalls := RuleContext.setCalls_faultless hwf hholds
  cases rule with
  | callBlacklist blacklist =>
      exact (blacklist.check_faultless hwf hholds).ofAccess
  | attributeExists => exact hcalls.bind fun _ _ => .pure trivial
  | attributeTypes =>
      refine hcalls.bind fun calls hinside =>
        Faultless.filterMapM_true fun call hmember => ?_
      exact RuleContext.checkTypes_faultless hwf component
        (hinside call hmember)
  | noDereference =>
      refine hcalls.bind fun calls hinside =>
        Faultless.filterMapM_true fun call hmember => ?_
      exact RuleContext.checkDereference_faultless hwf (hinside call hmember)
  | reservedNames => exact .pure trivial

theorem Linter.checkComponent_faultless {linter : Linter}
    (hwf : linter.provider.package.WellFormed) (readOnly : Bool)
    {component : Component}
    (hholds : linter.provider.package.HoldsComponent component) :
    Faultless (linter.checkComponent readOnly component) fun _ => True := by
  have hrules : ∀ entry ∈ linter.rules, Faultless
      (linter.checkRule readOnly component entry)
      fun _ => True := by
    intro entry _
    have hcheck : Faultless (entry.2.check linter.context readOnly component)
        fun _ => True :=
      entry.2.check_faultless hwf readOnly hholds
    exact hcheck.within.bind fun _ _ => .pure trivial
  exact (Faultless.mapM hrules).bind fun _ _ => .pure trivial

theorem Linter.run_faultless {linter : Linter}
    (hwf : linter.provider.package.WellFormed)
    (hinside :
      ∀ entry ∈ linter.provider.components,
        linter.provider.package.HoldsComponent entry.2) :
    Faultless linter.run fun _ => True := by
  have hcomponents : ∀ entry ∈ linter.selected, Faultless
      (linter.checkComponent entry.1 entry.2)
      fun _ => True :=
    fun entry hmember => checkComponent_faultless hwf entry.1
      (hinside entry (List.mem_of_mem_filter hmember))
  exact (Faultless.mapM hcomponents).bind fun _ _ => .pure trivial

end SchemaLint
