import SchemaLint.Proofs.Build.Calls

/-!
# Values of bodies

What operations inside bodies make, as it is found in the finished package: the
operation of the value and its type. Types were looked up while the package was
being built, and are the ones that are there in the end.
-/

namespace SchemaLint

namespace Package

def TypedAs (p : Package) (value : ValueId) (type : Ty) : Prop :=
  ∃ id, p.typeOf value = .ok id ∧ p.typeAt id = .ok type

def HasFieldAt (p : Package) (x : ValueId) (index : Nat) (type : TypeId) :
    Prop :=
  ∃ struct fields, p.TypedAs x (.pointer struct) ∧
    p.typeAt struct = .ok (.struct fields) ∧
    ∃ field, fields[index]? = some field ∧ field.type = type

structure Has (p : Package) (value : ValueId) (operation : Operation)
    (type : TypeId) : Prop where
  operation : p.operationAt value = .ok operation
  type : p.typeOf value = .ok type

theorem Has.typedAs {p : Package} {value : ValueId} {operation : Operation}
    {type : TypeId} {behind : Ty} (hhas : p.Has value operation type)
    (hknown : p.typeAt type = .ok behind) : p.TypedAs value behind :=
  ⟨type, hhas.type, hknown⟩

theorem has_of_valueAt {p : Package} {value : ValueId} {found : Value}
    (hknown : p.valueAt value = .ok found) :
    p.Has value found.operation found.type :=
  ⟨operationAt_eq_ok_iff.2 ⟨found, hknown, rfl⟩, by simp [typeOf, hknown]⟩

end Package

/-! ## Early look-ups -/

namespace Builder.Before

variable {b e : Builder}

theorem typeOf_eq (hbefore : b.Before e) {value : ValueId} {type last : TypeId}
    (hfound : b.package.typeOf value = .ok type)
    (hlater : e.package.typeOf value = .ok last) : type = last := by
  obtain ⟨whole, hknown, hsame⟩ := Access.bind_eq_ok_iff.1 hfound
  obtain ⟨whole', hknown', hsame'⟩ := Access.bind_eq_ok_iff.1 hlater
  cases hknown'.symm.trans (hbefore.values _ _ hknown)
  cases hsame
  cases hsame'
  rfl

variable (hbefore : b.Before e) (hsound : e.Sound) {id : TypeId}

include hbefore hsound

theorem structureOf_eq {type found : Ty}
    (hlater : e.package.typeAt id = .ok type) (hplain : type.isNamed = false)
    (hearly : b.package.structureOf id = .ok found) : found = type := by
  obtain ⟨first, hknown⟩ := Package.typeAt_of_structureOf hearly
  obtain rfl :=
    hbefore.typeAt_eq hsound hknown hlater (by rintro _ _ rfl; cases hplain)
  cases hearly.symm.trans (Package.structureOf_of_not_named hknown hplain)
  rfl

theorem derefType_pointer {elem found : TypeId}
    (hlater : e.package.typeAt id = .ok (.pointer elem))
    (hearly : b.package.derefType id = .ok found) : found = elem := by
  obtain ⟨type, hstructured, hearly⟩ := Access.bind_eq_ok_iff.1 hearly
  cases hbefore.structureOf_eq hsound hlater rfl hstructured
  cases hearly
  rfl

private theorem derefType_other {type : Ty} {found : TypeId}
    (hlater : e.package.typeAt id = .ok type) (hplain : type.isNamed = false)
    (hother : ∀ elem, type ≠ .pointer elem)
    (hearly : b.package.derefType id = .ok found) : found = id := by
  obtain ⟨type', hstructured, hearly⟩ := Access.bind_eq_ok_iff.1 hearly
  obtain rfl := hbefore.structureOf_eq hsound hlater hplain hstructured
  split at hearly
  · exact absurd rfl (hother _)
  · cases hearly
    rfl

theorem field?_eq {struct : TypeId} {fields : List Field} {index : Nat}
    {found : Option Field}
    (hpoints : e.package.typeAt id = .ok (.pointer struct))
    (hlater : e.package.typeAt struct = .ok (.struct fields))
    (hearly : b.package.field? id index = .ok found) :
    found = fields[index]? := by
  obtain ⟨list, hlisted, hearly⟩ := Access.bind_eq_ok_iff.1 hearly
  obtain ⟨pointed, hdereferenced, hlisted⟩ := Access.bind_eq_ok_iff.1 hlisted
  obtain rfl := hbefore.derefType_pointer hsound hpoints hdereferenced
  obtain ⟨type, hstructured, hlisted⟩ := Access.bind_eq_ok_iff.1 hlisted
  cases hbefore.structureOf_eq hsound hlater rfl hstructured
  cases hlisted
  cases hearly
  rfl

theorem results_eq {func : FuncId} {found : List TypeId} {last : TypeId}
    (hearly : b.package.results func = .ok found)
    (hlater : e.package.results func = .ok [last]) : found = [last] := by
  obtain ⟨f, hknown, hearly⟩ := Access.bind_eq_ok_iff.1 hearly
  obtain ⟨type, htyped, hearly⟩ := Access.bind_eq_ok_iff.1 hearly
  obtain ⟨f', hknown', hlater⟩ := Access.bind_eq_ok_iff.1 hlater
  obtain ⟨type', htyped', hlater⟩ := Access.bind_eq_ok_iff.1 hlater
  obtain ⟨f'', hknown'', hsame⟩ := hbefore.headers func f hknown
  cases hknown'.symm.trans hknown''
  rw [Func.SameHeader] at hsame
  rw [hsame] at htyped'
  split at hlater
  · obtain rfl := hbefore.typeAt_eq hsound htyped htyped' (by simp)
    exact Except.ok.inj (hearly.symm.trans hlater)
  · cases hlater

end Builder.Before

/-! ## Operations outside of bodies -/

section

variable {e : Builder} {k : Nat} {pre : Prop}

namespace Build

theorem runs_cursor {x : Build α} {s s' : Site} {a : α} (hran : Runs x s a s') :
    s'.cursor = s.cursor := by
  simp only [Runs, Building.run] at hran
  split at hran
  · cases hran
    rfl
  · cases hran

theorem intern_emits (hsound : e.Sound) {type : Ty}
    (hplain : type.isNamed = false) :
    Emits e k pre (intern type) fun id => e.package.typeAt id = .ok type := by
  refine .of_adds fun s id s' hran => ?_
  obtain ⟨hadds, hknown⟩ := runs_intern hran
  exact ⟨hadds,
    fun _ hbefore => hsound.interned _ _ (hbefore.interned hknown) hplain⟩

theorem constOf_emits (hsound : e.Sound) (kind : BasicKind)
    (constant : Constant) :
    Emits e k pre (constOf kind constant) fun value =>
      e.package.operationAt value = .ok (.const constant) ∧
        e.package.TypedAs value (.basic kind) := by
  refine .bind (intern_emits hsound rfl) fun type =>
    .of_adds fun s value s' hran => ?_
  obtain ⟨hadds, hfound⟩ := runs_constant hran
  refine ⟨hadds, fun hknown hbefore => ?_⟩
  have hhas := Package.has_of_valueAt (hbefore.values _ _ hfound)
  exact ⟨hhas.operation, hhas.typedAs hknown⟩

theorem global_emits (name : String) (elem : TypeId) (hsound : e.Sound) :
    Emits e k pre (global name elem) fun value =>
      e.package.operationAt value = .ok (.global name) ∧
        e.package.TypedAs value (.pointer elem) := by
  refine .bind (intern_emits hsound rfl) fun type =>
    .of_adds fun s value s' hran => ?_
  refine ⟨pushValue_adds _ hran, fun hknown hbefore => ?_⟩
  obtain ⟨rfl, rfl⟩ := runs_pushValue hran
  have hfound :
      (s.builder.pushing
        ⟨.global name, type, .unknown, none, none⟩).package.valueAt
      ⟨s.builder.package.values.size⟩ =
          .ok ⟨.global name, type, .unknown, none, none⟩ := by
    simp [Builder.pushing, Package.valueAt_eq_ok_iff]
  have hhas := Package.has_of_valueAt (hbefore.values _ _ hfound)
  exact ⟨hhas.operation, hhas.typedAs hknown⟩

theorem named_emits (package : String) (hsound : e.Sound) :
    Emits e k pre (named package "MyString" textType) fun id =>
      e.package.typeAt id = .ok (.named package "MyString" textType) := by
  refine .of_adds fun s id s' hran => ?_
  obtain ⟨hadds, hknown⟩ := runs_named hran
  exact ⟨hadds, fun _ hbefore => hsound.madeUp _ _ (hbefore.declared hknown)⟩

end Build

/-! ## Operations inside of bodies -/

namespace Body

theorem ask_emits (question : Package → Access α) :
    Emits e k pre (ask question) fun a =>
      pre ∧ ∃ b : Builder, b.Before e ∧ question b.package = .ok a := by
  refine .of_adds fun s a s' hran =>
    ⟨ask_adds question hran, fun hgiven hbefore => ⟨hgiven, s.builder, ?_⟩⟩
  obtain ⟨hknown, rfl⟩ := runs_ask.1 (runs_lift.1 hran)
  exact ⟨hbefore, hknown⟩

theorem define_emits {operation : Operation} {type : TypeId}
    (hplain : ∀ call, operation ≠ .call call) :
    Emits e k pre (define operation type) fun value =>
      pre ∧ e.package.Has value operation type := by
  intro s value s' hran
  obtain ⟨hwrote, -, hfound⟩ := runs_define hran
  refine ⟨hwrote.works _, fun _ hahead hgiven => ?_⟩
  have hhas := Package.has_of_valueAt (hahead.before.values _ _ hfound)
  refine ⟨⟨_, hwrote.toPut, .quiet (fun callee hcalled => ?_) .nil⟩, hgiven,
    hhas⟩
  cases hcalled with
  | call hknown =>
      exact hplain _ (Except.ok.inj (hhas.operation.symm.trans hknown))

theorem boxAny_emits (hsound : e.Sound) (x : ValueId) :
    Emits e k pre (boxAny x) fun value =>
      pre ∧ e.package.operationAt value = .ok (.makeInterface x) := by
  refine .bind (.frame (.lift (Build.intern_emits hsound rfl))) fun type =>
    .imp (define_emits nofun) ?_
  rintro value ⟨⟨hgiven, -⟩, hhas⟩
  exact ⟨hgiven, hhas.operation⟩

theorem push_emits {instruction : Instruction}
    (hquiet : ∀ callee, ¬e.package.StaticCall instruction callee) :
    Emits e k pre (push instruction) fun _ => pre := by
  intro s u s' hran
  have hwrote := push_wrote hran
  exact ⟨hwrote.works _,
    fun _ _ hgiven => ⟨⟨_, hwrote.toPut, .quiet hquiet .nil⟩, hgiven⟩⟩

theorem get_emits : Emits e k pre (get : Body Cursor) fun _ => pre :=
  .of_adds fun _ _ _ hran => ⟨get_adds hran, fun hgiven _ => hgiven⟩

theorem store_emits (addr val : ValueId) :
    Emits e k pre (store addr val) fun _ => pre :=
  .bind get_emits fun _ => push_emits nofun

theorem ret_emits (results : List ValueId) :
    Emits e k pre (ret results) fun _ => pre :=
  .bind get_emits fun _ => push_emits nofun

theorem alloc_emits (hsound : e.Sound) (heap : Bool) (elem : TypeId) :
    Emits e k pre (alloc heap elem) fun value =>
      e.package.operationAt value = .ok (.alloc heap) ∧
        e.package.TypedAs value (.pointer elem) := by
  refine .bind (.lift (Build.intern_emits hsound rfl)) fun type =>
    .imp (define_emits nofun) ?_
  rintro value ⟨hknown, hhas⟩
  exact ⟨hhas.operation, hhas.typedAs hknown⟩

theorem deref_emits (hsound : e.Sound) {x : ValueId} {elem : TypeId} :
    Emits e k (e.package.TypedAs x (.pointer elem)) (deref x) fun value =>
      e.package.Has value (.unary .deref x) elem := by
  refine .bind (ask_emits _) fun type =>
    .bind (ask_emits _) fun target => .imp (define_emits nofun) ?_
  rintro value ⟨⟨⟨⟨pointer, htyped, hpoints⟩, b, hbefore, hearly⟩, c, hbefore',
      hearly'⟩, hhas⟩
  obtain rfl := hbefore.typeOf_eq hearly htyped
  obtain rfl := hbefore'.derefType_pointer hsound hpoints hearly'
  exact hhas

theorem fieldAddr_emits (hsound : e.Sound) {x : ValueId} {index : Nat}
    {type : TypeId} :
    Emits e k (e.package.HasFieldAt x index type) (fieldAddr x index)
      fun value => e.package.operationAt value = .ok (.fieldAddr x index) ∧
        e.package.TypedAs value (.pointer type) := by
  have htyped : Emits e k (e.package.HasFieldAt x index type)
      (fieldType x index) (· = type) := by
    refine .bind (ask_emits _) fun ofStruct =>
      .bind (ask_emits _) fun found => ?_
    intro s type' s' hran
    refine ⟨(typeOrInvalid_adds _ hran).works, fun hinside hahead => ?_⟩
    rintro ⟨⟨⟨struct, fields, ⟨pointer, htyped, hpoints⟩, hknown, field,
          hlisted, rfl⟩, b, hbefore, hearly⟩, c, hbefore', hearly'⟩
    obtain rfl := hbefore.typeOf_eq hearly htyped
    obtain rfl := hbefore'.field?_eq hsound hpoints hknown hearly'
    rw [hlisted] at hran
    obtain ⟨rfl, rfl⟩ := runs_pure.1 hran
    exact ⟨.of_adds (.refl _), rfl⟩
  refine .bind htyped fun type =>
    .bind (.frame (.lift (Build.intern_emits hsound rfl))) fun pointer => ?_
  refine .imp (define_emits nofun) ?_
  rintro value ⟨⟨rfl, hknown⟩, hhas⟩
  exact ⟨hhas.operation, hhas.typedAs hknown⟩

theorem indexAddr_emits (hsound : e.Sound) {x index : ValueId} {elem : TypeId} :
    Emits e k (e.package.TypedAs x (.slice elem)) (indexAddr x index)
      fun value => e.package.operationAt value = .ok (.indexAddr x index) ∧
        e.package.TypedAs value (.pointer elem) := by
  have hdefined :
      Emits e k True
        (do define (.indexAddr x index) (← Build.pointer elem) : Body ValueId)
        fun value =>
      e.package.operationAt value = .ok (.indexAddr x index) ∧
          e.package.TypedAs value (.pointer elem) := by
    refine .bind (.lift (Build.intern_emits hsound rfl)) fun pointer =>
      .imp (define_emits nofun) ?_
    rintro value ⟨hknown, hhas⟩
    exact ⟨hhas.operation, hhas.typedAs hknown⟩
  intro s value s' hran
  have hworks : s.Works (fun _ => True) s' := indexAddr_works x index hran
  refine ⟨hworks, fun hinside hahead => ?_⟩
  rintro ⟨slice, htyped, hknown⟩
  have hbefore := hworks.builder.before.trans hahead.before
  obtain ⟨type, s₁, hasked, hran₁⟩ := runs_bind.1 hran
  obtain ⟨hearly, rfl⟩ := runs_ask.1 (runs_lift.1 hasked)
  obtain ⟨type', hfound, hearly₁⟩ := Access.bind_eq_ok_iff.1 hearly
  obtain rfl := hbefore.typeOf_eq hfound htyped
  obtain ⟨target, hpointed, hstructured⟩ := Access.bind_eq_ok_iff.1 hearly₁
  obtain rfl := hbefore.derefType_other hsound hknown rfl nofun hpointed
  cases hbefore.structureOf_eq hsound hknown rfl hstructured
  exact (hdefined hran₁).2 hinside hahead trivial

theorem lookup_emits (hsound : e.Sound) {x index : ValueId}
    {key elem : TypeId} :
    Emits e k (e.package.TypedAs x (.map key elem)) (lookup x index)
      fun value => e.package.Has value (.lookup x index false) elem := by
  have hdefined :
      Emits e k True (define (.lookup x index false) elem) fun value =>
      e.package.Has value (.lookup x index false) elem :=
    .imp (define_emits nofun) fun _ => And.right
  intro s value s' hran
  have hworks : s.Works (fun _ => True) s' := lookup_works x index hran
  refine ⟨hworks, fun hinside hahead => ?_⟩
  rintro ⟨map, htyped, hknown⟩
  have hbefore := hworks.builder.before.trans hahead.before
  obtain ⟨type, s₁, hasked, hran₁⟩ := runs_bind.1 hran
  obtain ⟨hearly, rfl⟩ := runs_ask.1 (runs_lift.1 hasked)
  obtain ⟨type', hfound, hstructured⟩ := Access.bind_eq_ok_iff.1 hearly
  obtain rfl := hbefore.typeOf_eq hfound htyped
  cases hbefore.structureOf_eq hsound hknown rfl hstructured
  exact (hdefined hran₁).2 hinside hahead trivial

private theorem resultType_cursor {results : List TypeId} {s s' : Site}
    {type : TypeId} (hran : Runs (resultType results) s type s') :
    s'.cursor = s.cursor := by
  unfold resultType at hran
  split at hran
  · rw [(runs_pure.1 hran).2]
  · exact Build.runs_cursor (runs_lift.1 hran)

theorem runs_call (hsound : e.Sound) {callee : FuncId} {args : List ValueId}
    {s s' : Site} {value : ValueId} (hran : Runs (call callee args) s value s')
    (hlater : s'.builder.Before e) :
    ∃ target type, s.Wrote [.define value] s' ∧
      e.package.valueAt value =
        .ok ⟨.call ⟨target, none, args⟩, type, s.cursor.pos, some s.cursor.func,
          none⟩ ∧ e.package.operationAt target = .ok (.function callee) ∧
      ∀ last, e.package.results callee = .ok [last] → type = last := by
  obtain ⟨results, s₁, hasked, hran₁⟩ := runs_bind.1 hran
  obtain ⟨type, s₂, htyped, hran₂⟩ := runs_bind.1 hran₁
  obtain ⟨target, s₃, hreferred, hran₃⟩ := runs_bind.1 hran₂
  obtain ⟨hearly, rfl⟩ := runs_ask.1 (runs_lift.1 hasked)
  have htyping := resultType_adds _ htyped
  obtain ⟨hreferring, hknown⟩ := Build.runs_funcRef (runs_lift.1 hreferred)
  obtain ⟨hwrote, -, hfound⟩ := runs_define hran₃
  have hbefore₃ := (hwrote.works fun _ => True).builder.before.trans hlater
  have hwhole : s₁.Wrote [.define value] s' :=
    .adds_left (htyping.trans hreferring) hwrote
  refine ⟨target, type, hwhole, ?_,
    hsound.funcRefs _ _ (hbefore₃.funcRefs hknown), fun last hresulting => ?_⟩
  · have hsame : s₃.cursor = s₁.cursor :=
      (Build.runs_cursor (runs_lift.1 hreferred)).trans
        (resultType_cursor htyped)
    rw [← hsame]
    exact hlater.values _ _ hfound
  · have hbefore := (hwhole.works fun _ => True).builder.before.trans hlater
    obtain rfl := hbefore.results_eq hsound hearly hresulting
    obtain ⟨rfl, -⟩ := runs_pure.1 htyped
    rfl

theorem call_writes (hsound : e.Sound) (callee : FuncId) (args : List ValueId) :
    Writes e k (call callee args) fun s value s' =>
      s.Calls e [(value, callee)] s' ∧ e.package.IsCall value callee args ∧
        ∃ found, e.package.valueAt value = .ok found ∧
          found.pos = s.cursor.pos := by
  intro s value s' hran
  refine ⟨call_works callee args hran, fun _ hahead => ?_⟩
  obtain ⟨target, type, hwrote, hknown, hfunction, -⟩ :=
    runs_call hsound hran hahead.before
  have hisCall : e.package.IsCall value callee args :=
    ⟨target, (Package.has_of_valueAt hknown).operation, hfunction⟩
  exact ⟨⟨_, hwrote.toPut, .call hisCall .nil⟩, hisCall, _, hknown, rfl⟩

theorem call_emits (hsound : e.Sound) (callee : FuncId) (args : List ValueId) :
    Emits e k (e.package.Aside callee) (call callee args) fun value =>
      ∃ call, e.package.operationAt value = .ok (.call call) ∧
        ∀ type, e.package.results callee = .ok [type] →
          e.package.typeOf value = .ok type := by
  intro s value s' hran
  refine ⟨call_works callee args hran, fun _ hahead haside => ?_⟩
  obtain ⟨target, type, hwrote, hknown, hfunction, htyped⟩ :=
    runs_call hsound hran hahead.before
  have hhas := Package.has_of_valueAt hknown
  refine ⟨⟨_, hwrote.toPut,
      .aside ⟨target, hhas.operation, hfunction⟩ haside .nil⟩, _,
    hhas.operation, ?_⟩
  intro last hresulting
  rw [← htyped last hresulting]
  exact hhas.type

end Body

end

end SchemaLint
