import SchemaLint.Proofs.Build.Safety

/-!
# Packages made by sessions

Whatever the operations of a session and their order, as long as they are given
numbers that were given out before, all of them succeed and the package is valid
but for its jumps. So a builder finishes with its package unless a jump goes to
a block that its function never got, and then that is what it reports.
-/

namespace SchemaLint

structure Package.HasIds (p : Package) (ids : Ids) : Prop where
  types : ∀ id ∈ ids.types, p.HasType id
  values : ∀ id ∈ ids.values, p.HasValue id
  funcs : ∀ id ∈ ids.funcs, p.HasFunc id

namespace Package

variable {p q : Package}

theorem hasIds_none : p.HasIds {} := ⟨nofun, nofun, nofun⟩

private theorem hasIds_type {id : TypeId} (hhas : p.HasType id) :
    p.HasIds (.type id) :=
  ⟨by simpa [Ids.type] using hhas, nofun, nofun⟩

theorem hasIds_value {id : ValueId} (hhas : p.HasValue id) :
    p.HasIds (.value id) :=
  ⟨nofun, by simpa [Ids.value] using hhas, nofun⟩

theorem hasIds_func {id : FuncId} (hhas : p.HasFunc id) : p.HasIds (.func id) :=
  ⟨nofun, nofun, by simpa [Ids.func] using hhas⟩

theorem Within.hasIds (hwithin : p.Within q) {ids : Ids} (hhas : p.HasIds ids) :
    q.HasIds ids :=
  ⟨fun id hmember => hwithin.hasType (hhas.types id hmember),
    fun id hmember => hwithin.hasValue (hhas.values id hmember),
    fun id hmember => hwithin.hasFunc (hhas.funcs id hmember)⟩

theorem HasIds.append {one other : Ids} (hfirst : p.HasIds one)
    (hsecond : p.HasIds other) : p.HasIds (one.append other) :=
  ⟨List.forall_mem_append.2 ⟨hfirst.types, hsecond.types⟩,
    List.forall_mem_append.2 ⟨hfirst.values, hsecond.values⟩,
    List.forall_mem_append.2 ⟨hfirst.funcs, hsecond.funcs⟩⟩

private theorem HasIds.of_among {used issued : Ids} (hhas : p.HasIds issued)
    (hamong : used.Among issued) : p.HasIds used :=
  ⟨fun id hmember => hhas.types id (hamong.types id hmember),
    fun id hmember => hhas.values id (hamong.values id hmember),
    fun id hmember => hhas.funcs id (hamong.funcs id hmember)⟩

end Package

/-! ## Steps -/

namespace Safe

variable {m : Type → Type} [Monad m] [Building m] {s : Site}

theorem givesType {x : m TypeId} (hsafe : Safe x s Package.HasType) :
    Safe (do return .type (← x) : m Ids) s Package.HasIds :=
  hsafe.bind fun _ _ hkept hhas =>
    .pure hkept.inOrder (Package.hasIds_type hhas)

theorem givesValue {x : m ValueId} (hsafe : Safe x s Package.HasValue) :
    Safe (do return .value (← x) : m Ids) s Package.HasIds :=
  hsafe.bind fun _ _ hkept hhas =>
    .pure hkept.inOrder (Package.hasIds_value hhas)

theorem givesFunc {x : m FuncId} (hsafe : Safe x s Package.HasFunc) :
    Safe (do return .func (← x) : m Ids) s Package.HasIds :=
  hsafe.bind fun _ _ hkept hhas =>
    .pure hkept.inOrder (Package.hasIds_func hhas)

theorem givesNone {x : m α} (hsafe : Safe x s fun _ _ => True) :
    Safe (do let _ ← x; return {} : m Ids) s Package.HasIds :=
  hsafe.bind fun _ _ hkept _ => .pure hkept.inOrder Package.hasIds_none

end Safe

variable {s : Site}

private theorem Build.Op.run_safe (hinOrder : s.builder.InOrder) {op : Build.Op}
    (hknown : s.builder.package.HasIds op.ids) :
    Safe op.run s Package.HasIds := by
  have htypes := hknown.types
  have hfuncs := hknown.funcs
  cases op with
  | intern | pointer | slice | map | signature | tuple =>
      exact .givesType (Build.intern_hasType hinOrder htypes)
  | basic | interface | emptyInterface =>
      exact .givesType (Build.intern_hasType hinOrder nofun)
  | structType fields =>
      refine .givesType
        (Build.intern_hasType hinOrder fun id hmember => htypes id ?_)
      simpa [Ty.referenced, ids] using hmember
  | declareNamed package name =>
      exact .givesType (Build.declareNamed_safe hinOrder package name)
  | setUnderlying type underlying =>
      exact .givesNone (Build.setUnderlying_safe hinOrder type
        (htypes underlying (by simp [ids])))
  | named package name underlying =>
      exact .givesType (Build.declare_setUnderlying_safe hinOrder package name
        (htypes underlying List.mem_cons_self))
  | errorType => exact .givesType (Build.errorType_safe hinOrder)
  | pos file line column =>
      exact .givesNone (Build.pos_safe hinOrder file line column)
  | constant | constInt | nil =>
      exact .givesValue
        (Build.constant_safe hinOrder _ (htypes _ List.mem_cons_self))
  | constString | constBool =>
      exact .givesValue (Build.constOf_safe hinOrder _ _)
  | global name elem =>
      exact .givesValue
        (Build.global_safe hinOrder name (htypes elem List.mem_cons_self))
  | externalFunction package name receiver params results =>
      refine .givesFunc (Build.addFunction_safe hinOrder package name
        (fun id hmember => htypes id ?_) (fun id hmember => htypes id ?_)
        (fun id hmember => htypes id ?_) rfl)
      · simp [ids, Option.mem_def.1 hmember]
      · simp only [List.map_map, List.mem_map] at hmember
        obtain ⟨type, hinside, rfl⟩ := hmember
        simp [ids, hinside]
      · simp [ids, hmember]
  | declare name params results =>
      exact .givesFunc (Build.declare_safe hinOrder name
        (fun id hmember => htypes id (List.mem_append_left _ hmember))
        fun id hmember => htypes id (List.mem_append_right _ hmember))
  | funcRef func =>
      exact .givesValue
        (Build.funcRef_safe hinOrder (hfuncs func List.mem_cons_self))
  | setDoc func doc => exact .givesNone (Build.setDoc_safe hinOrder func doc)
  | setFuncPos func place =>
      exact .givesNone (Build.setFuncPos_safe hinOrder func place)

private theorem Body.Op.run_safe (hready : s.Ready) {op : Body.Op}
    (hknown : s.builder.package.HasIds op.ids) :
    Safe op.run s Package.HasIds := by
  have htypes := hknown.types
  have hvalues := hknown.values
  have hfuncs := hknown.funcs
  cases op with
  | moveTo | switchTo =>
      exact ⟨_, _, rfl, ⟨hready.inOrder, .refl _, rfl⟩, Package.hasIds_none⟩
  | doc text =>
      exact .givesNone
        (.getCursor (.lift (Build.setDoc_safe hready.inOrder _ text)))
  | param index =>
      refine (Body.param?_safe hready index).bind fun found _ hkept hhas =>
        .pure hkept.inOrder ⟨by simp, ?_, by simp⟩
      simpa using hhas
  | newBlock => exact .givesNone (Body.newBlock_safe hready)
  | name value text =>
      refine .bind (.lift (Build.nameValue_safe hready.inOrder value text))
        fun _ _ hkept _ => ?_
      exact .pure hkept.inOrder (Package.hasIds_value
        (hkept.within.hasValue (hvalues value List.mem_cons_self)))
  | newValue | localVar =>
      exact .givesValue (Body.alloc_safe hready _ (htypes _ List.mem_cons_self))
  | fieldAddr x index =>
      exact .givesValue
        (Body.fieldAddr_safe hready (hvalues x List.mem_cons_self) index)
  | fieldAddrNamed x text =>
      exact .givesValue
        (Body.fieldAddrNamed_safe hready (hvalues x List.mem_cons_self) text)
  | field x index =>
      exact .givesValue
        (Body.field_safe hready (hvalues x List.mem_cons_self) index)
  | store addr val =>
      exact .givesNone (Body.store_safe hready (hvalues addr (by simp [ids]))
        (hvalues val (by simp [ids])))
  | storeField addr text val =>
      exact .givesValue (Body.storeField_safe hready text
        (hvalues addr (by simp [ids])) (hvalues val (by simp [ids])))
  | deref x =>
      exact .givesValue (Body.deref_safe hready (hvalues x List.mem_cons_self))
  | makeMap type =>
      exact .givesValue (Body.define_safe hready
        (htypes type List.mem_cons_self) (.of_operands hvalues fun _ => rfl))
  | mapUpdate map key value =>
      refine .givesNone (Body.pushAt_safe hready ?_)
      simpa [Package.HasInstruction, Package.definedValue, Instruction.operands,
        ids] using hvalues
  | makeSlice type length =>
      refine .givesValue (Body.define_safe hready
        (htypes type List.mem_cons_self) (.of_operands ?_ fun _ => rfl))
      simpa [Operation.operands, ids] using hvalues
  | indexAddr x index =>
      exact .givesValue (Body.indexAddr_safe hready (hvalues x (by simp [ids]))
        (hvalues index (by simp [ids])))
  | lookup x index =>
      exact .givesValue (Body.lookup_safe hready (hvalues x (by simp [ids]))
        (hvalues index (by simp [ids])))
  | extract tuple index =>
      exact .givesValue
        (Body.extract_safe hready (hvalues tuple List.mem_cons_self) index)
  | makeInterface | changeType | convert | phi =>
      exact .givesValue (Body.define_safe hready (htypes _ List.mem_cons_self)
        (.of_operands hvalues fun _ => rfl))
  | boxAny x =>
      exact .givesValue (Body.boxAny_safe hready (hvalues x List.mem_cons_self))
  | unary op x =>
      refine .givesValue (.askBody
        (hready.inOrder.numbered.typeOf (hvalues x List.mem_cons_self))
        fun type hhas => ?_)
      exact Body.define_safe hready hhas (.of_operands hvalues fun _ => rfl)
  | call callee args =>
      exact .givesValue
        (Body.call_safe hready (hfuncs callee List.mem_cons_self) hvalues)
  | callValue target args results | invoke target method args results =>
      exact .givesValue (Body.callTo_safe hready _
        (hvalues target List.mem_cons_self)
        (fun arg hmember => hvalues arg (List.mem_cons_of_mem _ hmember))
        htypes)
  | makeClosure func bindings =>
      exact .givesValue
        (Body.makeClosure_safe hready (hfuncs func List.mem_cons_self) hvalues)
  | defer callee args | go callee args =>
      exact .givesNone (Body.statement_safe hready (fun _ _ => rfl)
        (hfuncs callee List.mem_cons_self) hvalues)
  | jump target => exact .givesNone (Body.push_safe hready hvalues)
  | branch cond thenBlock elseBlock =>
      exact .givesNone (Body.push_safe hready hvalues)
  | ret results => exact .givesNone (Body.pushAt_safe hready hvalues)

/-! ## Sessions -/

theorem Safe.build_eq {x : Build α} {post : Package → α → Prop}
    (hsafe : Safe x s post) :
    ∃ a e, x s.builder = .ok (a, e) ∧ e.InOrder ∧
      s.builder.package.Within e.package ∧ post e.package a := by
  obtain ⟨a, s', hran, hkept, hholds⟩ := hsafe
  refine ⟨a, s'.builder, ?_, hkept.inOrder, hkept.within, hholds⟩
  simp only [Runs, Building.run] at hran
  split at hran
  · next hfound =>
      cases hran
      exact hfound
  · cases hran

theorem Safe.body_eq {x : Body α} {post : Package → α → Prop}
    (hsafe : Safe x s post) :
    ∃ a c e, x s.cursor s.builder = .ok ((a, c), e) ∧ c.func = s.cursor.func ∧
      e.InOrder ∧ s.builder.package.Within e.package ∧ post e.package a := by
  obtain ⟨a, s', hran, hkept, hholds⟩ := hsafe
  refine ⟨a, s'.cursor, s'.builder, ?_, hkept.func, hkept.inOrder, hkept.within,
    hholds⟩
  simp only [Runs, Building.run] at hran
  split at hran
  · next hfound =>
      cases hran
      exact hfound
  · cases hran

namespace Session

def siteOf (builder : Builder) (cursor : Cursor) : Site :=
  ⟨⟨"", 1⟩, cursor, builder⟩

/-- The builder is in order, bodies are open of its functions, and what was
given out is there. -/
structure InOrder (s : Session) : Prop where
  builder : s.builder.InOrder
  cursors : ∀ cursor ∈ s.cursors, s.builder.package.HasFunc cursor.func
  issued : s.builder.package.HasIds s.issued

variable {s : Session}

theorem inOrder_new (path : String) : (Session.new path).InOrder :=
  ⟨Builder.inOrder_new path, nofun, Package.hasIds_none⟩

theorem InOrder.opened (hinOrder : s.InOrder) {func : FuncId}
    (hhas : s.builder.package.HasFunc func) :
    ∃ next, s.opened func = .ok next ∧ next.InOrder := by
  obtain ⟨f, hfound, -⟩ := hinOrder.builder.numbered.funcAt hhas
  refine ⟨{ s with cursors := ⟨func, 0, f.pos⟩ :: s.cursors },
    by simp [Session.opened, hfound], ?_⟩
  exact ⟨hinOrder.builder, List.forall_mem_cons.2 ⟨hhas, hinOrder.cursors⟩,
    hinOrder.issued⟩

theorem InOrder.issuing (hinOrder : s.InOrder) {b : Builder} {ids : Ids}
    (hbuilder : b.InOrder) (hwithin : s.builder.package.Within b.package)
    (hhas : b.package.HasIds ids) :
    { s with builder := b, issued := s.issued.append ids }.InOrder :=
  ⟨hbuilder,
    fun cursor hisOpen => hwithin.hasFunc (hinOrder.cursors cursor hisOpen),
    (hwithin.hasIds hinOrder.issued).append hhas⟩

theorem InOrder.step (hinOrder : s.InOrder) {step : Step}
    (hamong : step.ids.Among s.issued) :
    ∃ next, s.step step = .ok next ∧ next.InOrder := by
  have hknown := hinOrder.issued.of_among hamong
  cases step with
  | build op =>
      have hsafe : Safe op.run (siteOf s.builder ⟨⟨0⟩, 0, .unknown⟩)
          Package.HasIds :=
        Build.Op.run_safe hinOrder.builder hknown
      obtain ⟨ids, b, hran, hbuilder, hwithin, hhas⟩ := hsafe.build_eq
      refine ⟨_, ?_, hinOrder.issuing hbuilder hwithin hhas⟩
      simp only [siteOf] at hran
      simp [Session.step, hran]
  | body func => exact hinOrder.opened (hknown.funcs func List.mem_cons_self)
  | function name params results =>
      have hsafe : Safe (Build.declare name params results)
          (siteOf s.builder ⟨⟨0⟩, 0, .unknown⟩) Package.HasFunc :=
        Build.declare_safe hinOrder.builder name
          (fun id hmember => hknown.types id (List.mem_append_left _ hmember))
          fun id hmember => hknown.types id (List.mem_append_right _ hmember)
      obtain ⟨func, b, hran, hbuilder, hwithin, hhas⟩ := hsafe.build_eq
      obtain ⟨next, hopened, hlater⟩ :=
        (hinOrder.issuing hbuilder hwithin (Package.hasIds_func hhas)).opened
          hhas
      refine ⟨next, ?_, hlater⟩
      simp only [siteOf] at hran
      simp [Session.step, hran, hopened]
  | write op =>
      cases hisOpen : s.cursors with
      | nil => exact ⟨s, by simp [Session.step, hisOpen], hinOrder⟩
      | cons cursor outer =>
          have hofCursor := hinOrder.cursors cursor (by simp [hisOpen])
          have hsafe : Safe op.run (siteOf s.builder cursor) Package.HasIds :=
            Body.Op.run_safe ⟨hinOrder.builder, hofCursor⟩ hknown
          obtain ⟨ids, moved, b, hran, hfunc, hbuilder, hwithin, hhas⟩ :=
            hsafe.body_eq
          simp only [siteOf] at hran hfunc hwithin
          refine ⟨⟨b, moved :: outer, s.issued.append ids⟩,
            by simp [Session.step, hisOpen, hran], ?_⟩
          have hissuing := hinOrder.issuing hbuilder hwithin hhas
          refine { hissuing with
            cursors :=
              List.forall_mem_cons.2 ⟨hfunc ▸ hwithin.hasFunc hofCursor, ?_⟩ }
          exact fun c hinside => hissuing.cursors c (by simp [hisOpen, hinside])
  | leave =>
      refine ⟨_, rfl, hinOrder.builder, fun cursor hinside => ?_,
        hinOrder.issued⟩
      exact hinOrder.cursors cursor (List.mem_of_mem_tail hinside)

theorem InOrder.run (hinOrder : s.InOrder) {steps : List Step}
    (hallowed : s.Allows steps) :
    ∃ final, s.run steps = .ok final ∧ final.InOrder := by
  induction steps generalizing s with
  | nil => exact ⟨s, rfl, hinOrder⟩
  | cons step rest ih =>
      obtain ⟨next, hstepped, hkept⟩ := hinOrder.step hallowed.1
      obtain ⟨final, hran, hdone⟩ := ih hkept (hallowed.2 next hstepped)
      refine ⟨final, ?_, hdone⟩
      rw [Session.run, List.foldlM_cons, hstepped, Access.ok_bind]
      exact hran

end Session

/-- A package that is valid but for its jumps is refused for one of them, if for
anything. -/
theorem Package.Numbered.missingBlock_of_validate {p : Package}
    (hnumbered : p.Numbered) {error : LoadError}
    (hrefused : p.validate = .error error) :
    ∃ f ∈ p.functions, ∃ instruction target, f.Contains instruction ∧
      instruction.JumpsTo target ∧ f.body.length ≤ target ∧
      error = .missingBlock f.name target := by
  cases Package.violated_of_validate hrefused with
  | outOfRange hheld houtside =>
      exact absurd (hnumbered.holds hheld) (Nat.not_lt.2 houtside)
  | notASignature hinTable hfound hother =>
      obtain ⟨params, results, variadic, hsignature⟩ :=
        (hnumbered.headers _ hinTable).signature
      exact absurd (Option.some.inj (hfound.symm.trans hsignature))
        (hother params results variadic)
  | missingBlock hinTable hcontains hjumps hmissing =>
      exact ⟨_, hinTable, _, _, hcontains, hjumps, hmissing, rfl⟩

/-- A session that is given only numbers which it gave out ends, and its builder
finishes with the package unless a jump goes to a block that its function does
not have in the end. In that case one such jump is reported. -/
theorem session_finishes_unless_block_missing (path : String)
    (steps : List Step) (hallowed : (Session.new path).Allows steps) :
    ∃ final, (Session.new path).run steps = .ok final ∧
      (final.builder.package.JumpsInside →
        final.builder.finish = .ok final.builder.package) ∧
      (¬final.builder.package.JumpsInside →
        ∃ f ∈ final.builder.package.functions,
          ∃ instruction target, f.Contains instruction ∧
            instruction.JumpsTo target ∧ f.body.length ≤ target ∧
            final.builder.finish = .error (.missingBlock f.name target)) := by
  obtain ⟨final, hran, hinOrder⟩ := (Session.inOrder_new path).run hallowed
  have hnumbered := hinOrder.builder.numbered
  refine ⟨final, hran, fun hinside => ?_, fun houtside => ?_⟩
  · have hvalid :=
      Package.validate_eq_ok_iff.2
        (Package.wellFormed_iff.2 ⟨hnumbered, hinside⟩)
    rw [Builder.finish, hvalid]
    rfl
  · cases hrefused : final.builder.package.validate with
    | ok done =>
        have hvalid :=
          Package.wellFormed_iff.1 (Package.validate_eq_ok_iff.1 hrefused)
        exact absurd hvalid.2 houtside
    | error error =>
        obtain ⟨f, hinTable, instruction, target, hcontains, hjumps, hmissing,
            rfl⟩ :=
          hnumbered.missingBlock_of_validate hrefused
        refine ⟨f, hinTable, instruction, target, hcontains, hjumps, hmissing,
          ?_⟩
        rw [Builder.finish, hrefused]
        rfl

/-- A list type that refers to itself, and a function that calls itself on the
tail. While its body is open, a function of another package gets a body; the
block that is jumped to is added when the body is opened again. -/
def errand : List Step := [
  .build (.basic .string),
  .build (.declareNamed (some "example.com/p") "Node"),
  .build (.pointer ⟨2⟩),
  .build (.structType [("next", ⟨3⟩), ("name", ⟨0⟩)]),
  .build (.setUnderlying ⟨2⟩ ⟨4⟩),
  .build (.externalFunction "example.com/log" "Print" none [⟨0⟩] []),
  .function "visit" [("node", ⟨3⟩)] [],
  .write (.param 0),
  .write (.fieldAddrNamed ⟨1⟩ "next"),
  .write (.deref ⟨2⟩),
  .body ⟨0⟩,
  .write (.ret []),
  .leave,
  .write (.call ⟨1⟩ [⟨3⟩]),
  .write (.jump 1),
  .leave,
  .body ⟨1⟩,
  .write .newBlock,
  .write (.switchTo 7),
  .write (.ret []),
  .leave]

theorem errand_finishes_unless_block_missing :
    (Session.new "example.com/p").Allows errand ∧
      ∃ final, (Session.new "example.com/p").run errand = .ok final ∧
        (final.builder.package.JumpsInside →
          final.builder.finish = .ok final.builder.package) ∧
        (¬final.builder.package.JumpsInside →
          ∃ f ∈ final.builder.package.functions,
            ∃ instruction target, f.Contains instruction ∧
              instruction.JumpsTo target ∧ f.body.length ≤ target ∧
              final.builder.finish = .error (.missingBlock f.name target)) := by
  have hallowed : (Session.new "example.com/p").Allows errand := by
    decide +kernel
  exact ⟨hallowed, session_finishes_unless_block_missing _ _ hallowed⟩

end SchemaLint
