import SchemaLint.Proofs.Build.Operations
import SchemaLint.Proofs.Extraction.Effects
import SchemaLint.Proofs.Fixture.Library

/-!
# What is written to bodies

The part of a body that an operation writes has effects. They are told by the
package that is finished in the end: what is built later adds to the tables and
does not change what was written.
-/

namespace SchemaLint

/-! ## Subjects of effects -/

def Effect.subject? : Effect → Option ValueId
  | .call _ => none
  | .store _ into => some into.base
  | .update map _ => some map

def effectsOn (subject : ValueId) (effects : List Effect) : List Effect :=
  effects.filter (·.subject? == some subject)

@[simp] theorem effectsOn_append (subject : ValueId)
    (first second : List Effect) :
    effectsOn subject (first ++ second) =
      effectsOn subject first ++ effectsOn subject second :=
  List.filter_append ..

theorem effectsOn_single {effect : Effect} {subject : ValueId}
    (hknown : effect.subject? = some subject) :
    effectsOn subject [effect] = [effect] := by
  simp [effectsOn, hknown]

/-- Every effect is on a struct or map with the property; none is a call or a
store into a provider. -/
def OnlyOn (P : ValueId → Prop) (effects : List Effect) : Prop :=
  ∀ effect ∈ effects, (∃ subject, effect.subject? = some subject ∧ P subject) ∧
    ∀ into, effect ≠ .store (libraryName "Provider") into

namespace OnlyOn

variable {P Q : ValueId → Prop} {effects first second : List Effect}

theorem nil : OnlyOn P [] := nofun

theorem stores {base : ValueId} {type : String} {stores : List FieldStore}
    (hsame : ∀ store ∈ stores, store.base = base)
    (hother : type ≠ libraryName "Provider") :
    OnlyOn (· = base) (stores.map (.store type)) := by
  intro effect hmember
  obtain ⟨store, hinside, rfl⟩ := List.mem_map.1 hmember
  refine ⟨⟨store.base, rfl, hsame store hinside⟩, ?_⟩
  rintro into ⟨⟩
  exact hother rfl

theorem store {type : String} (into : FieldStore)
    (hother : type ≠ libraryName "Provider") :
    OnlyOn (· = into.base) [.store type into] :=
  stores (List.forall_mem_singleton.2 rfl) hother

theorem update (map : ValueId) (entry : MapEntry) :
    OnlyOn (· = map) [.update map entry] := by
  intro effect hmember
  rw [List.mem_singleton.1 hmember]
  exact ⟨⟨map, rfl, rfl⟩, nofun⟩

theorem append (hone : OnlyOn P first) (htwo : OnlyOn P second) :
    OnlyOn P (first ++ second) := by
  intro effect hmember
  rcases List.mem_append.1 hmember with hhere | hthere
  · exact hone effect hhere
  · exact htwo effect hthere

theorem imp (honly : OnlyOn P effects)
    (hweaker : ∀ subject, P subject → Q subject) : OnlyOn Q effects := by
  intro effect hmember
  obtain ⟨⟨subject, hsame, hholds⟩, hother⟩ := honly effect hmember
  exact ⟨⟨subject, hsame, hweaker subject hholds⟩, hother⟩

theorem effectsOn_eq_nil (honly : OnlyOn P effects) {subject : ValueId}
    (hother : ¬P subject) : effectsOn subject effects = [] := by
  rw [effectsOn, List.filter_eq_nil_iff]
  intro effect hmember hsame
  obtain ⟨⟨found, hknown, hholds⟩, -⟩ := honly effect hmember
  rw [hknown, beq_iff_eq, Option.some.injEq] at hsame
  exact hother (hsame ▸ hholds)

theorem calleesOf_eq_nil (honly : OnlyOn P effects) :
    calleesOf effects = [] := by
  rw [calleesOf, List.filterMap_eq_nil_iff]
  intro effect hmember
  obtain ⟨⟨subject, hknown, -⟩, -⟩ := honly effect hmember
  cases effect with
  | call => cases hknown
  | store | update => rfl

theorem storesOf_provider (honly : OnlyOn P effects) :
    storesOf (libraryName "Provider") effects = [] := by
  rw [storesOf, List.filterMap_eq_nil_iff]
  intro effect hmember
  obtain ⟨-, hother⟩ := honly effect hmember
  cases effect with
  | call | update => rfl
  | store type into =>
      have hapart : type ≠ libraryName "Provider" := by
        rintro rfl
        exact hother into rfl
      simp [hapart]

end OnlyOn

theorem filter_storesOf (type : String) (base : ValueId)
    (effects : List Effect) :
    (storesOf type effects).filter (·.base == base) =
      storesOf type (effectsOn base effects) := by
  rw [storesOf, storesOf, effectsOn, List.filter_filterMap,
    List.filterMap_filter]
  congr 1
  funext effect
  cases effect with
  | call | update => simp [Effect.subject?]
  | store other into =>
      by_cases hsame : other = type
      · simp [Effect.subject?, hsame, Option.filter_some]
      · simp [hsame]

theorem updatesOf_effectsOn (map : ValueId) (effects : List Effect) :
    updatesOf map (effectsOn map effects) = updatesOf map effects := by
  rw [updatesOf, updatesOf, effectsOn, List.filterMap_filter]
  congr 1
  funext effect
  cases effect with
  | call | store => simp
  | update other entry =>
      by_cases hsame : other = map <;> simp [Effect.subject?, hsame]

theorem OnlyOn.updatesOf_eq_nil {P : ValueId → Prop} {effects : List Effect}
    (honly : OnlyOn P effects) {map : ValueId} (hother : ¬P map) :
    updatesOf map effects = [] := by
  rw [← updatesOf_effectsOn, honly.effectsOn_eq_nil hother]
  rfl

/-! ## Segments -/

def Site.Segment (e : Builder) (effects : List Effect) (s s' : Site) : Prop :=
  ∃ seg, s.Wrote seg s' ∧ e.package.Effects seg effects

def Site.count (s : Site) : Nat := s.builder.package.values.size

namespace Site.Segment

variable {e : Builder} {effects effects' : List Effect} {s s' s'' : Site}

theorem of_adds (hadds : s.Adds s') : s.Segment e [] s' :=
  ⟨[], .of_adds hadds, .nil⟩

theorem trans (hfirst : s.Segment e effects s')
    (hsecond : s'.Segment e effects' s'') :
    s.Segment e (effects ++ effects') s'' := by
  obtain ⟨seg, hwrote, hdone⟩ := hfirst
  obtain ⟨seg', hwrote', hdone'⟩ := hsecond
  exact ⟨seg ++ seg', hwrote.trans hwrote', hdone.append hdone'⟩

theorem adds_left (hadds : s.Adds s') (hsecond : s'.Segment e effects s'') :
    s.Segment e effects s'' :=
  (of_adds hadds).trans hsecond

theorem grows (hsegment : s.Segment e effects s') :
    s.Works (fun _ => True) s' := by
  obtain ⟨seg, hwrote, -⟩ := hsegment
  exact hwrote.works _

theorem before (hsegment : s.Segment e effects s') :
    s.builder.Before s'.builder :=
  hsegment.grows.builder.before

theorem func (hsegment : s.Segment e effects s') :
    s'.cursor.func = s.cursor.func :=
  hsegment.grows.func

theorem count_le (hsegment : s.Segment e effects s') : s.count ≤ s'.count :=
  hsegment.grows.builder.valueCount

end Site.Segment

/-! ## Values -/

namespace Package

variable {p : Package} {func : FuncId} {value : ValueId}

def IsAllocated (p : Package) (func : FuncId) (value : ValueId)
    (elem : TypeId) : Prop :=
  ∃ type pos, p.valueAt value = .ok ⟨.alloc true, type, pos, some func, none⟩ ∧
    p.typeAt type = .ok (.pointer elem)

def IsMade (p : Package) (func : FuncId) (value : ValueId) : Prop :=
  ∃ type pos, p.valueAt value = .ok ⟨.makeMap none, type, pos, some func, none⟩

def IsCall (p : Package) (value : ValueId) (callee : FuncId)
    (args : List ValueId) : Prop :=
  ∃ target, p.operationAt value = .ok (.call ⟨target, none, args⟩) ∧
    p.operationAt target = .ok (.function callee)

def IsConst (p : Package) (value : ValueId) (constant : Constant) : Prop :=
  p.operationAt value = .ok (.const constant)

theorem IsAllocated.isStruct {elem : TypeId} {name : String}
    {fields : List String} (hallocated : p.IsAllocated func value elem)
    (hhas : p.HasStruct elem name fields) :
    p.IsStruct value (libraryName name) fields := by
  obtain ⟨type, pos, hfound, hpoints⟩ := hallocated
  obtain ⟨list, hlisted, hsame⟩ := hhas.fields_pointer hpoints
  exact ⟨_, true, list, hfound, rfl, hhas.isType_pointer hpoints, hlisted,
    hsame⟩

end Package

section

variable {e : Builder} {s s' : Site}

theorem Builder.Before.operationAt {b : Builder} (hbefore : b.Before e)
    {value : ValueId} {operation : Operation}
    (hfound : b.package.operationAt value = .ok operation) :
    e.package.operationAt value = .ok operation := by
  obtain ⟨whole, hknown, rfl⟩ := Package.operationAt_eq_ok_iff.1 hfound
  exact Package.operationAt_eq_ok_iff.2 ⟨whole, hbefore.values _ _ hknown, rfl⟩

namespace Build

theorem runs_constant {constant : Constant} {type : TypeId} {value : ValueId}
    (hran : Runs (Build.constant constant type) s value s') :
    s.Adds s' ∧
      s'.builder.package.valueAt value =
        .ok ⟨.const constant, type, .unknown, none, none⟩ := by
  refine ⟨pushValue_adds _ hran, ?_⟩
  obtain ⟨rfl, rfl⟩ := runs_pushValue hran
  simp [Builder.pushing, Package.valueAt_eq_ok_iff]

theorem runs_constOf {kind : BasicKind} {constant : Constant} {value : ValueId}
    (hran : Runs (constOf kind constant) s value s') :
    s.Adds s' ∧ s'.builder.package.IsConst value constant := by
  obtain ⟨type, s₁, hinterned, hran⟩ := runs_bind.1 hran
  obtain ⟨hadds, hfound⟩ := runs_constant hran
  exact ⟨(intern_adds _ hinterned).trans hadds,
    Package.operationAt_eq_ok_iff.2 ⟨_, hfound, rfl⟩⟩

theorem runs_global {name : String} {elem : TypeId} {value : ValueId}
    (hran : Runs (global name elem) s value s') :
    s.Adds s' ∧ s'.builder.package.operationAt value = .ok (.global name) := by
  obtain ⟨type, s₁, hinterned, hran⟩ := runs_bind.1 hran
  refine ⟨(intern_adds _ hinterned).trans (pushValue_adds _ hran), ?_⟩
  obtain ⟨rfl, rfl⟩ := runs_pushValue hran
  simp [Builder.pushing, Package.operationAt_eq_ok_iff,
    Package.valueAt_eq_ok_iff]

end Build

/-! ## Operations inside bodies -/

namespace Body

theorem define_segment {operation : Operation} {type : TypeId} {value : ValueId}
    (hran : Runs (define operation type) s value s')
    (hlater : s'.builder.Before e) (hplain : Package.IsPlain operation) :
    s.Segment e [] s' ∧ s.count ≤ value.index ∧ value.index < s'.count ∧
      e.package.valueAt value =
        .ok ⟨operation, type, s.cursor.pos, some s.cursor.func, none⟩ := by
  obtain ⟨hwrote, rfl, hfound⟩ := runs_define hran
  have hlast := hlater.values _ _ hfound
  refine ⟨⟨_, hwrote, .define ?_ hplain .nil⟩, Nat.le_refl _, ?_, hlast⟩
  · exact Package.operationAt_eq_ok_iff.2 ⟨_, hlast, rfl⟩
  · exact (Array.getElem?_eq_some_iff.1 (Package.valueAt_eq_ok_iff.1 hfound)).1

theorem newValue_segment {elem : TypeId} {value : ValueId}
    (hran : Runs (newValue elem) s value s') (hlater : s'.builder.Before e)
    (hsound : e.Sound) :
    s.Segment e [] s' ∧ s.count ≤ value.index ∧ value.index < s'.count ∧
      e.package.IsAllocated s.cursor.func value elem := by
  obtain ⟨type, s₁, hinterned, hran⟩ := runs_bind.1 hran
  obtain ⟨hadds, hknown⟩ := Build.runs_intern (runs_lift.1 hinterned)
  obtain ⟨hsegment, hlow, hhigh, hfound⟩ :=
    define_segment hran hlater ⟨nofun, nofun⟩
  have hbefore := hsegment.before.trans hlater
  have hgrown := hadds.grows (fun _ => True) fun _ => True
  refine ⟨.adds_left hadds hsegment,
    Nat.le_trans hgrown.builder.valueCount hlow, hhigh, type, s₁.cursor.pos, ?_,
    ?_⟩
  · rw [hfound, hgrown.func]
  · exact hsound.interned _ _ (hbefore.interned hknown) rfl

theorem makeMap_segment {type : TypeId} {value : ValueId}
    (hran : Runs (makeMap type) s value s') (hlater : s'.builder.Before e) :
    s.Segment e [] s' ∧ s.count ≤ value.index ∧ value.index < s'.count ∧
      e.package.IsMade s.cursor.func value := by
  obtain ⟨hsegment, hlow, hhigh, hfound⟩ :=
    define_segment hran hlater ⟨nofun, nofun⟩
  exact ⟨hsegment, hlow, hhigh, type, _, hfound⟩

theorem boxAny_segment {x value : ValueId} (hran : Runs (boxAny x) s value s')
    (hlater : s'.builder.Before e) :
    s.Segment e [] s' ∧
      e.package.operationAt value = .ok (.makeInterface x) := by
  obtain ⟨type, s₁, hinterned, hran⟩ := runs_bind.1 hran
  obtain ⟨hsegment, -, -, hfound⟩ := define_segment hran hlater ⟨nofun, nofun⟩
  exact ⟨.adds_left (Build.intern_adds _ (runs_lift.1 hinterned)) hsegment,
    Package.operationAt_eq_ok_iff.2 ⟨_, hfound, rfl⟩⟩

theorem deref_segment {x value : ValueId} (hran : Runs (deref x) s value s')
    (hlater : s'.builder.Before e) :
    s.Segment e [] s' ∧
      e.package.operationAt value = .ok (.unary .deref x) := by
  obtain ⟨type, s₁, hasked, hran⟩ := runs_bind.1 hran
  obtain ⟨target, s₂, hasked', hran⟩ := runs_bind.1 hran
  obtain ⟨hsegment, -, -, hfound⟩ := define_segment hran hlater ⟨nofun, nofun⟩
  exact ⟨.adds_left (ask_adds _ hasked)
      (.adds_left (ask_adds _ hasked') hsegment),
    Package.operationAt_eq_ok_iff.2 ⟨_, hfound, rfl⟩⟩

theorem unary_segment {op : UnaryOp} {x value : ValueId}
    (hran : Runs (unary op x) s value s') (hlater : s'.builder.Before e) :
    s.Segment e [] s' ∧ e.package.operationAt value = .ok (.unary op x) := by
  obtain ⟨type, s₁, hasked, hran⟩ := runs_bind.1 hran
  obtain ⟨hsegment, -, -, hfound⟩ := define_segment hran hlater ⟨nofun, nofun⟩
  exact ⟨.adds_left (ask_adds _ hasked) hsegment,
    Package.operationAt_eq_ok_iff.2 ⟨_, hfound, rfl⟩⟩

theorem mapUpdate_segment {map key value : ValueId} {u : Unit}
    (hran : Runs (mapUpdate map key value) s u s') :
    ∃ pos, s.Segment e [.update map ⟨key, value, pos⟩] s' := by
  obtain ⟨c, s₁, hgot, hran⟩ := runs_bind.1 hran
  obtain ⟨rfl, rfl⟩ := runs_get_cursor.1 hgot
  exact ⟨_, _, push_wrote hran, .update .nil⟩

theorem ret_segment {results : List ValueId} {u : Unit}
    (hran : Runs (ret results) s u s') : s.Segment e [] s' := by
  obtain ⟨c, s₁, hgot, hran⟩ := runs_bind.1 hran
  obtain ⟨rfl, rfl⟩ := runs_get_cursor.1 hgot
  exact ⟨_, push_wrote hran, .ret .nil⟩

theorem call_segment {callee : FuncId} {args : List ValueId} {value : ValueId}
    (hran : Runs (call callee args) s value s') (hlater : s'.builder.Before e)
    (hsound : e.Sound) :
    s.Segment e [.call callee] s' ∧ e.package.IsCall value callee args := by
  obtain ⟨results, s₁, hasked, hran⟩ := runs_bind.1 hran
  obtain ⟨type, s₂, htyped, hran⟩ := runs_bind.1 hran
  obtain ⟨target, s₃, hreferred, hran⟩ := runs_bind.1 hran
  obtain ⟨hreferring, hknown⟩ := Build.runs_funcRef (runs_lift.1 hreferred)
  obtain ⟨hwrote, rfl, hfound⟩ := runs_define hran
  have hlast : e.package.operationAt _ = .ok (.call ⟨target, none, args⟩) :=
    Package.operationAt_eq_ok_iff.2 ⟨_, hlater.values _ _ hfound, rfl⟩
  have htarget_known : e.package.operationAt target = .ok (.function callee) :=
    hsound.funcRefs _ _ (((hwrote.works fun _ => True).builder.before.trans
      hlater).funcRefs hknown)
  have hresolved : e.package.staticCallee? ⟨target, none, args⟩ =
      .ok (some callee) := by
    simp [Package.staticCallee?, htarget_known]
  have hadds :=
    (ask_adds _ hasked).trans ((resultType_adds _ htyped).trans hreferring)
  exact ⟨⟨_, .adds_left hadds hwrote, .call hlast hresolved .nil⟩, target,
    hlast, htarget_known⟩

/-- The address of a field of an allocated struct has the number of the
field. -/
theorem runs_fieldAddrNamed {base addr : ValueId} {field : String}
    (hran : Runs (fieldAddrNamed base field) s addr s')
    (hlater : s'.builder.Before e) (hsound : e.Sound) {func : FuncId}
    {elem : TypeId} {name : String} {fields : List String}
    (hallocated : e.package.IsAllocated func base elem)
    (hhas : e.package.HasStruct elem name fields) (hsettled : name ≠ "MyString")
    (hmember : field ∈ fields) :
    ∃ index, s.Wrote [.define addr] s' ∧
      e.package.operationAt addr = .ok (.fieldAddr base index) ∧
      fields[index]? = some field := by
  obtain ⟨type, s₁, hasked, hran₁⟩ := runs_bind.1 hran
  obtain ⟨htyped, rfl⟩ := runs_ask.1 (runs_lift.1 hasked)
  obtain ⟨index, s₂, hasked', hran₂⟩ := runs_bind.1 hran₁
  obtain ⟨hindexed, rfl⟩ := runs_ask.1 (runs_lift.1 hasked')
  obtain ⟨inner, s₃, hfielded, hran₃⟩ := runs_bind.1 hran₂
  obtain ⟨outer, s₄, hinterned, hran₄⟩ := runs_bind.1 hran₃
  obtain ⟨hwrote, -, hfound⟩ := runs_define hran₄
  have hadds :=
    (fieldType_adds _ _ hfielded).trans
      (Build.intern_adds _ (runs_lift.1 hinterned))
  have hbefore : s₂.builder.Before e :=
    (Site.Wrote.adds_left hadds hwrote).works (fun _ => True)
      |>.builder.before.trans hlater
  -- The type and its fields were looked up early, and are the ones of the
  -- finished package.
  obtain ⟨pointer, pos, hknown, hpoints⟩ := hallocated
  obtain ⟨whole, hearly, hsame⟩ := Access.bind_eq_ok_iff.1 htyped
  cases Except.ok.inj ((hbefore.values _ _ hearly).symm.trans hknown)
  cases hsame
  obtain ⟨list, hlisted, hsame⟩ := Access.bind_eq_ok_iff.1 hindexed
  cases hsame
  have hnames := hbefore.fields_eq hsound hpoints hhas hsettled hlisted
  subst hnames
  obtain ⟨entry, hinside, hnamed⟩ := List.mem_map.1 hmember
  obtain ⟨index, hposition⟩ : ∃ index, list.findIdx? (·.name == field) =
      some index := by
    rw [← Option.isSome_iff_exists, List.findIdx?_isSome, List.any_eq_true]
    exact ⟨entry, hinside, by simp [hnamed]⟩
  refine ⟨index, .adds_left hadds hwrote, ?_, ?_⟩
  · rw [hposition] at hfound
    exact Package.operationAt_eq_ok_iff.2 ⟨_, hlater.values _ _ hfound, rfl⟩
  · obtain ⟨hbound, hmatched, -⟩ :=
      List.findIdx?_eq_some_iff_getElem.1 hposition
    simpa [List.getElem?_map, hbound] using hmatched

theorem storeField_segment {base value addr : ValueId} {field : String}
    (hran : Runs (storeField base field value) s addr s')
    (hlater : s'.builder.Before e) (hsound : e.Sound) {func : FuncId}
    {elem : TypeId} {name : String} {fields : List String}
    (hallocated : e.package.IsAllocated func base elem)
    (hhas : e.package.HasStruct elem name fields) (hsettled : name ≠ "MyString")
    (hmember : field ∈ fields) :
    ∃ pos, s.Segment e [.store (libraryName name) ⟨base, field, value, pos⟩]
      s' := by
  obtain ⟨addr, s₁, haddressed, hran₁⟩ := runs_bind.1 hran
  obtain ⟨u, s₂, hstored, hran₂⟩ := runs_bind.1 hran₁
  obtain ⟨rfl, rfl⟩ := runs_pure.1 hran₂
  obtain ⟨c, s₃, hgot, hpushed⟩ := runs_bind.1 hstored
  obtain ⟨rfl, rfl⟩ := runs_get_cursor.1 hgot
  have hwrote := push_wrote hpushed
  have hbefore := (hwrote.works fun _ => True).builder.before.trans hlater
  obtain ⟨index, hdefined, hknown, hlisted⟩ :=
    runs_fieldAddrNamed haddressed hbefore hsound hallocated hhas hsettled
      hmember
  exact ⟨_, _, hdefined.trans hwrote,
    .store hknown (hallocated.isStruct hhas) hlisted .nil⟩

end Body

end

end SchemaLint
