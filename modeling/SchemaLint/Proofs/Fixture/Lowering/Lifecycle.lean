import SchemaLint.Proofs.Build.Functions
import SchemaLint.Proofs.Fixture.Entries

/-!
# Lowering lifecycle functions

Whatever a lifecycle function of a fixture does, lowering it changes no function
but those it declares and the one it fills in, and none of the functions it
declares is an entry point.
-/

namespace SchemaLint

def Inner (name : String) : Prop := name ≠ "Provider"

instance : DecidablePred Inner :=
  fun name => inferInstanceAs (Decidable (name ≠ "Provider"))

/-! ## Shapes of values -/

namespace ValueShape

theorem samplePointer_works (string : TypeId) (heap : Bool) :
    Preserves (Site.Works Inner) (samplePointer string heap) := by
  refine .bind (Body.alloc_works _ _) fun _ =>
    .bind (.lift (Build.constOf_adds _ _).works) fun _ => ?_
  exact .bind (Body.store_works _ _) fun _ => .pure _

private theorem sampleStruct_works (string stringPtr : TypeId) :
    Preserves (Site.Works Inner) (sampleStruct string stringPtr) :=
  .bind (Body.intern_works _) fun _ => Body.alloc_works _ _

private theorem sampleElement_works (elem : TypeId) :
    Preserves (Site.Works Inner) (sampleElement elem) := by
  refine .bind (Body.intern_works _) fun _ =>
    .bind (.lift (Build.constOf_adds _ _).works) fun _ => ?_
  refine .bind (Body.define_works _ _) fun _ =>
    .bind (.lift (Build.constOf_adds _ _).works) fun _ => ?_
  exact .bind (Body.indexAddr_works _ _) fun _ => Body.deref_works _

private theorem sampleEntry_works (int elem : TypeId) :
    Preserves (Site.Works Inner) (sampleEntry int elem) := by
  refine .bind (Body.intern_works _) fun _ =>
    .bind (Body.define_works _ _) fun _ => ?_
  exact .bind (.lift (Build.constOf_adds _ _).works) fun _ =>
    Body.lookup_works _ _

theorem sampleFunction_works {name : String} (hinner : Inner name)
    (result : TypeId) {make : Body ValueId}
    (hkept : Preserves (Site.Works Inner) make) :
    Preserves (Site.Works Inner) (sampleFunction name result make) :=
  Build.function_works hinner fun _ =>
    .bind hkept fun _ => .bind (Body.ret_works _) fun _ => .pure _

private theorem sampleCall_works (string stringPtr : TypeId) :
    Preserves (Site.Works Inner) (sampleCall string stringPtr) :=
  .bind (.lift (sampleFunction_works (by decide) _ (samplePointer_works _ _)))
    fun _ => Body.call_works _ _

private theorem make_works (plugin : Plugin) (stringPtr : TypeId)
    (shape : ValueShape) :
    Preserves (Site.Works Inner) (shape.make plugin textType stringPtr) := by
  have hconstant (kind : BasicKind) (value : Constant) :
      Preserves (Site.Works Inner)
        (liftM (Build.constOf kind value) : Body ValueId) :=
    .lift (Build.constOf_adds kind value).works
  cases shape with
  | bool | int | int64 | uint | float32 | float64 | string =>
      exact hconstant _ _
  | namedString =>
      refine .bind (Body.ask_works _) fun _ =>
        .bind (.lift (Build.named_adds _).works) fun _ => ?_
      exact .bind (hconstant _ _) fun _ => Body.define_works _ _
  | pointer => exact samplePointer_works _ _
  | pointerPointer =>
      refine .bind (Body.alloc_works _ _) fun _ =>
        .bind (Body.alloc_works _ _) fun _ => ?_
      exact .bind (Body.store_works _ _) fun _ => .pure _
  | deref => exact .bind (samplePointer_works _ _) fun _ => Body.deref_works _
  | field =>
      refine .bind (sampleStruct_works _ _) fun _ =>
        .bind (Body.fieldAddr_works _ _) fun _ => ?_
      exact Body.deref_works _
  | fieldPointerDeref =>
      refine .bind (sampleStruct_works _ _) fun _ =>
        .bind (Body.fieldAddr_works _ _) fun _ => ?_
      exact .bind (Body.deref_works _) fun _ => Body.deref_works _
  | sliceElem => exact sampleElement_works _
  | sliceElemDeref =>
      exact .bind (sampleElement_works _) fun _ => Body.deref_works _
  | mapElem => exact sampleEntry_works _ _
  | mapElemDeref =>
      exact .bind (sampleEntry_works _ _) fun _ => Body.deref_works _
  | callString =>
      exact .bind (.lift (sampleFunction_works (by decide) _ (hconstant _ _)))
        fun _ => Body.call_works _ _
  | callPointer => exact sampleCall_works _ _
  | callPointerDeref =>
      exact .bind (sampleCall_works _ _) fun _ => Body.deref_works _
  | map => exact .bind (Body.intern_works _) fun _ => Body.define_works _ _

end ValueShape

/-! ## Bodies -/

theorem nextLine_adds : Preserves Site.Adds nextLine :=
  .bind nextPos_adds fun _ => .lift (Body.moveTo_adds _)

private theorem ofOption_works (error : FixtureError) (option : Option α) :
    Preserves (Site.Works Inner) (Lower.ofOption error option) := by
  intro s a s' hran
  obtain ⟨-, rfl⟩ := runs_ofOption.1 hran
  exact .refl _

theorem throw_works (error : FixtureError) :
    Preserves (Site.Works Inner) (throw error : Lower α) :=
  fun _ _ _ hran => (runs_throw hran).elim

theorem call_works (callee : FuncId) (args : List ValueId) :
    Preserves (Site.Works Inner)
      (discard (liftM (Body.call callee args)) : Lower Unit) :=
  .discard (.lift (Body.call_works callee args))

private theorem lowerCall_works (plugin : Plugin) (data context : ValueId)
    (name : String) :
    Preserves (Site.Works Inner) (lowerCall plugin data context name) := by
  refine .bind nextLine_adds.works fun _ => ?_
  split
  · exact .bind (.lift (Build.constOf_adds _ _).works) fun _ => call_works _ _
  · refine .bind (.lift (Build.constOf_adds _ _).works) fun _ => ?_
    exact .bind (.lift (Build.pushValue_adds _).works) fun _ => call_works _ _
  · exact call_works _ _
  · exact throw_works _

private theorem lowerLocalCall_works (data context : ValueId)
    (callee : FuncId) :
    Preserves (Site.Works Inner) (lowerLocalCall data context callee) :=
  .bind nextLine_adds.works fun _ => call_works _ _

private theorem inner_helper (name : String) : Inner (name ++ "Helper") := by
  intro hsame
  have hsuffix :=
    congrArg (fun text : String => text.toList.reverse.take 3) hsame
  simp [String.toList_append] at hsuffix

theorem crudParams_adds (plugin : Plugin) :
    Preserves Site.Adds plugin.crudParams :=
  .bind (Build.intern_adds _) fun _ => .pure _

section

variable {plugin : Plugin} (htexts : plugin.string = textType)

include htexts

private theorem setValue_works (shape : String) :
    Preserves (Site.Works Inner) (setValue plugin shape) := by
  refine .bind (.lift (Build.intern_adds _).works) fun _ => ?_
  cases ValueShape.ofName? shape with
  | none => exact throw_works _
  | some shape =>
      rw [htexts]
      exact .lift (shape.make_works _ _)

private theorem SetFixture.lower_works (data : ValueId) (fixture : SetFixture) :
    Preserves (Site.Works Inner) (fixture.lower plugin data) := by
  refine .bind (setValue_works htexts _) fun _ =>
    .bind (.lift (Body.boxAny_works _)) fun boxed => ?_
  have hnamed (name : ValueId) : Preserves (Site.Works Inner) (do
      nextLine
      discard (Body.call plugin.set
        ([data, name, boxed] ++ if fixture.hasExtraArg then [boxed] else [])) :
        Lower Unit) :=
    .bind nextLine_adds.works fun _ => call_works _ _
  rcases fixture with ⟨_, _, _ | _, _⟩
  · exact .bind (.lift (Build.constOf_adds _ _).works) hnamed
  · refine .bind (.lift (Build.global_adds _ _).works) fun _ => ?_
    exact .bind (.lift (Body.deref_works _)) hnamed

theorem lowerStatements_works (slots : Slots) (fixture : FunctionFixture)
    (helper : Option FuncId) :
    Preserves (Site.Works Inner)
      (lowerStatements plugin slots fixture helper) := by
  refine .bind (.lift (Body.param?_adds 0).works) fun _ =>
    .bind (ofOption_works _ _) fun data => ?_
  refine .bind (.lift (Body.param?_adds 1).works) fun _ =>
    .bind (ofOption_works _ _) fun context => ?_
  refine .bind (.forM fun set _ => set.lower_works htexts _) fun _ => ?_
  refine .bind (.forM fun name _ => lowerCall_works _ _ _ name) fun _ => ?_
  refine .bind (.forM fun slot _ =>
    .bind (ofOption_works _ _) fun _ => lowerLocalCall_works _ _ _)
    fun _ => ?_
  refine .bind (.optionForM fun func => lowerLocalCall_works _ _ func)
    fun _ => ?_
  exact .bind (.lift (Build.pushValue_adds _).works) fun _ =>
    .lift (Body.ret_works _)

end

/-! ## Functions -/

theorem FunctionFixture.runs_lower_helper {plugin : Plugin} {slots : Slots}
    {fixture inner : FunctionFixture} {func : FuncId} {s s' : Site} {u : Unit}
    (hhelped : fixture.helper = some inner)
    (hran : Runs (fixture.lower plugin slots func) s u s') :
    ∃ f helper s₁ u₁ s₂, s.builder.package.funcAt func = .ok f ∧
      (∀ may, s.Grows Inner may s₁) ∧
      helper.index = s.builder.package.functions.size ∧
      s₁.Prepared helper (f.name ++ "Helper") none [plugin.error] ∧
      Runs (inner.lower plugin slots helper) s₁ u₁ s₂ ∧
      Runs (lowerBody func (lowerStatements plugin slots fixture (some helper)))
        s₂ u s' := by
  obtain ⟨sdk, sets, calls, callSlots, helper⟩ := fixture
  cases hhelped
  obtain ⟨params, s₁, hinterned, hran₁⟩ := runs_bind.1 hran
  obtain ⟨f, s₂, hasked, hran₂⟩ := runs_bind.1 hran₁
  obtain ⟨helper, s₃, hdeclared, hran₃⟩ := runs_bind.1 hran₂
  obtain ⟨u, s₄, hfilled, hlast⟩ := runs_bind.1 hran₃
  obtain ⟨hfound, rfl⟩ := runs_ask.1 (runs_lift.1 hasked)
  have hadds := crudParams_adds plugin (runs_lift.1 hinterned)
  obtain ⟨hnumber, -⟩ := Build.declare_found (runs_lift.1 hdeclared)
  refine ⟨f, helper, s₃, _, s₄, ?_, fun may => ?_,
    by rw [hnumber, hadds.functions],
    Build.declare_prepared (runs_lift.1 hdeclared), hfilled, hlast⟩
  · rwa [Package.funcAt, hadds.functions] at hfound
  · exact (hadds.grows Inner may).trans (Build.declare_grows
      (inner_helper f.name) _ _ may (runs_lift.1 hdeclared))
      fun _ _ _ => id

theorem FunctionFixture.lower_none {plugin : Plugin} {slots : Slots}
    {fixture : FunctionFixture} {func : FuncId}
    (halone : fixture.helper = none) :
    fixture.lower plugin slots func =
      lowerBody func (lowerStatements plugin slots fixture none) := by
  obtain ⟨sdk, sets, calls, callSlots, helper⟩ := fixture
  cases halone
  rfl

theorem FunctionFixture.lower_grows {plugin : Plugin}
    (htexts : plugin.string = textType) {slots : Slots}
    (fixture : FunctionFixture) {func : FuncId} {s s' : Site} {u : Unit}
    (hran : Runs (fixture.lower plugin slots func) s u s') :
    s.Grows Inner
      (fun id => id = func ∨ s.builder.package.functions.size ≤ id.index)
      s' := by
  induction fixture using helper_induction generalizing func s s' u with
  | alone fixture halone =>
      rw [lower_none halone] at hran
      exact (lowerBody_grows (lowerStatements_works htexts _ _ _) hran).weaken
        fun _ => .inl
  | helped fixture inner hhelped ih =>
      obtain ⟨f, helper, s₁, u₁, s₂, -, hdeclaring, hnumber, -, hfilled,
          hlast⟩ := runs_lower_helper hhelped hran
      have hmore := (hdeclaring fun _ => True).builder.funcCount
      have hhelping : s₁.Grows Inner
          (fun id => id = func ∨ s.builder.package.functions.size ≤ id.index)
          s₂ := by
        refine (ih hfilled).weaken ?_
        rintro id (rfl | hnew)
        · exact .inr (Nat.le_of_eq hnumber.symm)
        · exact .inr (Nat.le_trans hmore hnew)
      have hfilling :=
        lowerBody_grows (lowerStatements_works htexts _ _ _) hlast
      exact (hdeclaring _).trans (hhelping.trans hfilling fun _ _ _ => .inl)
        fun _ _ _ => id

end SchemaLint
