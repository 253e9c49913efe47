import SchemaLint.Proofs.Build.Segments
import SchemaLint.Proofs.Fixture.Lowering.Lifecycle

/-!
# Lowering attributes

An attribute of a fixture becomes a struct whose fields say what the attribute
is. Many such structs and maps are built in one body; the effects on each of
them are the ones that the lowering of its own attribute had.
-/

namespace SchemaLint

/-! ## Assignments -/

abbrev Assignment := String × (ValueId → Prop)

def Assigned (base : ValueId) (stores : List FieldStore)
    (assignments : List Assignment) : Prop :=
  List.Forall₂ (fun store assignment =>
    store.base = base ∧ store.field = assignment.1 ∧
      assignment.2 store.value) stores assignments

def Site.Assigns (e : Builder) (type : String) (base : ValueId)
    (assignments : List Assignment) (s s' : Site) : Prop :=
  ∃ stores, s.Segment e (stores.map (.store type)) s' ∧
    Assigned base stores assignments

section

variable {e : Builder} {type : String} {base : ValueId}
  {stores : List FieldStore} {assignments more : List Assignment}
  {s s' s'' : Site}

theorem Assigned.base_eq (hassigned : Assigned base stores assignments) :
    ∀ store ∈ stores, store.base = base := by
  induction hassigned with
  | nil => exact nofun
  | cons hfirst _ ih => exact List.forall_mem_cons.2 ⟨hfirst.1, ih⟩

theorem Assigned.onlyOn (hassigned : Assigned base stores assignments)
    (hother : type ≠ libraryName "Provider") :
    OnlyOn (· = base) (stores.map (.store type)) :=
  .stores hassigned.base_eq hother

theorem Assigned.effectsOn (hassigned : Assigned base stores assignments) :
    effectsOn base (stores.map (.store type)) = stores.map (.store type) := by
  rw [SchemaLint.effectsOn, List.filter_eq_self]
  intro effect hmember
  obtain ⟨store, hinside, rfl⟩ := List.mem_map.1 hmember
  simp [Effect.subject?, hassigned.base_eq store hinside]

theorem storesOf_map (type : String) (stores : List FieldStore) :
    storesOf type (stores.map (.store type)) = stores := by
  simp [storesOf, List.filterMap_map]

namespace Site.Assigns

theorem of_adds (hadds : s.Adds s') : s.Assigns e type base [] s' :=
  ⟨[], .of_adds hadds, .nil⟩

theorem trans (hfirst : s.Assigns e type base assignments s')
    (hsecond : s'.Assigns e type base more s'') :
    s.Assigns e type base (assignments ++ more) s'' := by
  obtain ⟨stores, hsegment, hassigned⟩ := hfirst
  obtain ⟨stores', hsegment', hassigned'⟩ := hsecond
  refine ⟨stores ++ stores', ?_, List.rel_append hassigned hassigned'⟩
  rw [List.map_append]
  exact hsegment.trans hsegment'

theorem before (hassigns : s.Assigns e type base assignments s') :
    s.builder.Before s'.builder := by
  obtain ⟨stores, hsegment, -⟩ := hassigns
  exact hsegment.before

theorem nil_left (hsegment : s.Segment e [] s')
    (hsecond : s'.Assigns e type base assignments s'') :
    s.Assigns e type base assignments s'' :=
  trans ⟨[], hsegment, .nil⟩ hsecond

theorem forM {m : Type → Type} [Monad m] [Building m] {f : α → m PUnit}
    {assignment : α → Assignment} {list : List α} {u : PUnit}
    (heach : ∀ a ∈ list, ∀ ⦃s u s'⦄, Runs (f a) s u s' → s'.builder.Before e →
        s.Assigns e type base [assignment a] s')
    (hran : Runs (list.forM f) s u s') (hlater : s'.builder.Before e) :
    s.Assigns e type base (list.map assignment) s' := by
  induction list generalizing s with
  | nil =>
      obtain ⟨-, rfl⟩ := runs_pure.1 hran
      exact of_adds (.refl _)
  | cons a rest ih =>
      obtain ⟨u, s₁, hfirst, hran₁⟩ := runs_bind.1 hran
      have hothers :=
        ih (fun b hmember => heach b (List.mem_cons_of_mem a hmember)) hran₁
      exact (heach a (List.mem_cons_self ..) hfirst
        (hothers.before.trans hlater)).trans hothers

theorem optionForM {m : Type → Type} [Monad m] [Building m] {f : α → m PUnit}
    {assignment : α → Assignment} {option : Option α} {u : PUnit}
    (heach : ∀ a ∈ option, ∀ ⦃s u s'⦄, Runs (f a) s u s' → s'.builder.Before e →
        s.Assigns e type base [assignment a] s')
    (hran : Runs (option.forM f) s u s') (hlater : s'.builder.Before e) :
    s.Assigns e type base (option.toList.map assignment) s' := by
  cases option with
  | none =>
      obtain ⟨-, rfl⟩ := runs_pure.1 hran
      exact of_adds (.refl _)
  | some a => exact heach a rfl hran hlater

theorem storeField {m : Type → Type} [Monad m] [Building m]
    [MonadLiftT Body m] [LiftsRuns Body m] [LawfulMonad m] {func : FuncId}
    {elem : TypeId} {name : String} {fields : List String} (hsound : e.Sound)
    (hallocated : e.package.IsAllocated func base elem)
    (hhas : e.package.HasStruct elem name fields)
    (hsettled : name ≠ "MyString") {make : m ValueId} {field : String}
    {holds : ValueId → Prop} {u : PUnit}
    (hran :
      Runs (do discard (Body.storeField base field (← make)) : m PUnit) s u s')
    (hlater : s'.builder.Before e) (hmember : field ∈ fields)
    (hmade : ∀ ⦃s value s'⦄, Runs make s value s' → s'.builder.Before e →
        s.Segment e [] s' ∧ holds value) :
    s.Assigns e (libraryName name) base [(field, holds)] s' := by
  obtain ⟨value, s₁, hmaking, hran⟩ := runs_bind.1 hran
  obtain ⟨addr, hran⟩ := runs_discard.1 hran
  obtain ⟨pos, hsegment⟩ :=
    Body.storeField_segment (runs_lift.1 hran) hlater hsound hallocated hhas
      hsettled hmember
  obtain ⟨hbefore, hright⟩ := hmade hmaking (hsegment.before.trans hlater)
  exact .nil_left hbefore
    ⟨[⟨base, field, value, pos⟩], hsegment, .cons ⟨rfl, rfl, hright⟩ .nil⟩

end Site.Assigns

end

/-! ## Plain fields -/

namespace Package

def IsCode (p : Package) (type : TypeId) (value : ValueId) (code : Int) :
    Prop :=
  p.valueAt value = .ok ⟨.const (.int code), type, .unknown, none, none⟩

def IsTrue (p : Package) (value : ValueId) : Prop :=
  p.IsConst value (.bool true) ∨
    ∃ x, p.operationAt value = .ok (.unary .not x) ∧ p.IsConst x (.bool false)

end Package

namespace AttributeFixture

def typeAssignments (p : Package) (plugin : Plugin) (code : Option Int) :
    List Assignment :=
  code.toList.map fun code => ("Type", (p.IsCode plugin.valueType · code))

def plainAssignments (p : Package) (attr : AttributeFixture) :
    List Assignment :=
  attr.flags.map (fun flag => (flag, p.IsTrue)) ++
    (attr.description.toList.map
        (fun text => ("Description", (p.IsConst · (.string text)))) ++
      attr.bounds.map fun (name, bound) => (name, (p.IsConst · (.int bound))))

section

variable {plugin : Plugin} {e : Builder} {s s' : Site} {attr : AttributeFixture}
  {schema : ValueId} {func : FuncId}

private theorem flagValue_segment {negated : Bool} {value : ValueId}
    (hran : Runs (flagValue negated) s value s')
    (hlater : s'.builder.Before e) :
    s.Segment e [] s' ∧ e.package.IsTrue value := by
  cases negated with
  | false =>
      obtain ⟨hadds, hknown⟩ := Build.runs_constOf (runs_lift.1 hran)
      exact ⟨.of_adds hadds, .inl (hlater.operationAt hknown)⟩
  | true =>
      obtain ⟨x, s₁, hconstant, hnegation⟩ := runs_bind.1 hran
      obtain ⟨hadds, hknown⟩ := Build.runs_constOf (runs_lift.1 hconstant)
      obtain ⟨hsegment, hnegated⟩ := Body.unary_segment hnegation hlater
      exact ⟨.adds_left hadds hsegment,
        .inr ⟨x, hnegated, (hsegment.before.trans hlater).operationAt hknown⟩⟩

private theorem flags_subset (attr : AttributeFixture) :
    attr.flags ⊆ Plugin.schemaFields := by
  intro flag hmember
  simp only [flags, List.mem_append, List.mem_ite_nil_right,
    List.mem_singleton] at hmember
  rcases hmember with (⟨-, rfl⟩ | ⟨-, rfl⟩) | ⟨-, rfl⟩ <;> decide

private theorem bounds_subset (attr : AttributeFixture) :
    attr.bounds.map Prod.fst ⊆ Plugin.schemaFields := by
  intro name hmember
  simp only [bounds, List.map_append, List.map_map, List.mem_append,
    List.mem_map, Function.comp_apply] at hmember
  rcases hmember with ⟨_, -, rfl⟩ | ⟨_, -, rfl⟩ <;> decide

variable (hknown : plugin.Known e.package) (hsound : e.Sound)
  (hallocated : e.package.IsAllocated func schema plugin.schema)

include hknown hsound hallocated

private theorem storePlain_assigns {u : Unit}
    (hran : Runs (storePlain plugin schema attr) s u s')
    (hlater : s'.builder.Before e) :
    s.Assigns e (libraryName "Schema") schema (attr.plainAssignments e.package)
      s' := by
  obtain ⟨u, s₁, hflagged, hran₁⟩ := runs_bind.1 hran
  obtain ⟨u, s₂, htold, hbounded⟩ := runs_bind.1 hran₁
  have hbounds : s₂.Assigns e (libraryName "Schema") schema
      (attr.bounds.map fun (name, bound) =>
          (name, (e.package.IsConst · (.int bound)))) s' := by
    refine .forM (fun entry hmember s u s' hran hlater => ?_) hbounded hlater
    refine Site.Assigns.storeField hsound hallocated hknown.schema (by decide)
      hran hlater
      (attr.bounds_subset (List.mem_map_of_mem hmember))
        fun s value s' hran hlater => ?_
    obtain ⟨hadds, hfound⟩ := Build.runs_constant (runs_lift.1 hran)
    exact ⟨.of_adds hadds,
      hlater.operationAt (Package.operationAt_eq_ok_iff.2 ⟨_, hfound, rfl⟩)⟩
  have hlater₂ := hbounds.before.trans hlater
  have hdescription : s₁.Assigns e (libraryName "Schema") schema
      (attr.description.toList.map fun text =>
          ("Description", (e.package.IsConst · (.string text)))) s₂ := by
    refine .optionForM (fun text _ s u s' hran hlater => ?_) htold hlater₂
    refine Site.Assigns.storeField hsound hallocated hknown.schema (by decide)
      hran hlater (by decide)
      fun s value s' hran hlater => ?_
    obtain ⟨hadds, hfound⟩ := Build.runs_constOf (runs_lift.1 hran)
    exact ⟨.of_adds hadds, hlater.operationAt hfound⟩
  have hlater₁ := hdescription.before.trans hlater₂
  have hflags : s.Assigns e (libraryName "Schema") schema
      (attr.flags.map fun flag => (flag, e.package.IsTrue)) s₁ := by
    refine .forM (fun flag hmember s u s' hran hlater => ?_) hflagged hlater₁
    exact Site.Assigns.storeField hsound hallocated hknown.schema (by decide)
      hran hlater (attr.flags_subset hmember)
      fun s value s' => flagValue_segment
  exact hflags.trans (hdescription.trans hbounds)

private theorem storeType_assigns {u : Unit}
    (hran : Runs (storeType plugin schema attr) s u s')
    (hlater : s'.builder.Before e) :
    ∃ code, attr.code? = .ok code ∧
      s.Assigns e (libraryName "Schema") schema
        (typeAssignments e.package plugin code) s' := by
  obtain ⟨code, s₁, hcoded, hran₁⟩ := runs_bind.1 hran
  obtain ⟨hsame, rfl⟩ := runs_ofExcept.1 hcoded
  refine ⟨code, hsame, ?_⟩
  cases code with
  | none =>
      obtain ⟨-, rfl⟩ := runs_pure.1 hran₁
      exact .of_adds (.refl _)
  | some code =>
      obtain ⟨value, s₂, hconstant, hran₂⟩ := runs_bind.1 hran₁
      obtain ⟨u, s₃, hmoved, hstored⟩ := runs_bind.1 hran₂
      obtain ⟨hadds, hfound⟩ := Build.runs_constant (runs_lift.1 hconstant)
      have hmoving := nextLine_adds hmoved
      obtain ⟨addr, hstored⟩ := runs_discard.1 hstored
      obtain ⟨pos, hsegment⟩ :=
        Body.storeField_segment (runs_lift.1 hstored) hlater hsound hallocated
          hknown.schema (by decide) (by decide)
      have hright :=
        (hmoving.grows (fun _ => True) fun _ => True).builder.before.trans
          (hsegment.before.trans hlater) |>.values _ _ hfound
      exact .nil_left (.of_adds (hadds.trans hmoving)) ⟨[⟨schema, "Type", value,
          pos⟩], hsegment, .cons ⟨rfl, rfl, hright⟩ .nil⟩

end

/-! ## Descriptions -/

section

variable (p : Package) (plugin : Plugin) (func : FuncId) (effects : List Effect)

mutual

/-- `Described p plugin func effects value attr`: the value is built as the
attribute says, in a function with these effects. -/
inductive Described : ValueId → AttributeFixture → Prop
  | dynamic {value source name attr} :
    attr.isDynamic = true → p.operationAt value = .ok (.unary .deref source) →
      p.operationAt source = .ok (.global name) → Described value attr
  | built {value attr code stores last} :
    attr.isDynamic = false → attr.code? = .ok code →
    p.IsAllocated func value plugin.schema →
      storesOf (libraryName "Schema") (effectsOn value effects) =
        stores ++ last →
      Assigned value stores
        (typeAssignments p plugin code ++ attr.plainAssignments p) →
      Element attr.elem last →
      Described value attr

inductive Element : Option (ElemOf AttributeFixture) → List FieldStore → Prop
  | absent : Element none []
  | ofSchema {store value inner} :
    store.field = "Elem" →
    p.operationAt store.value = .ok (.makeInterface value) →
    Described value inner →
      Element (some ⟨some inner, none⟩) [store]
  | ofResource {store value map pos attributes} :
    store.field = "Elem" →
    p.operationAt store.value = .ok (.makeInterface value) →
      p.IsAllocated func value plugin.resource →
      storesOf (libraryName "Resource") (effectsOn value effects) =
        [⟨value, "Schema", map, pos⟩] →
      p.IsMade func map → Entries (updatesOf map effects) attributes →
      Element (some ⟨none, some attributes⟩) [store]

inductive Entries : List MapEntry → AttributeFixtures → Prop
  | nil : Entries [] []
  | cons {entry rest name attr attributes} :
    p.IsConst entry.key (.string name) → Described entry.value attr →
    Entries rest attributes →
      Entries (entry :: rest) ((name, attr) :: attributes)

end

end

/-! ## Lowering -/

def lowerElement (plugin : Plugin) (schema : ValueId) :
    Option (ElemOf AttributeFixture) → Lower ValueId
  | none => return schema
  | some ⟨some inner, none⟩ => do
    let elem ← lower plugin inner
    discard (Body.storeField schema "Elem" (← Body.boxAny elem))
    return schema
  | some ⟨none, some attributes⟩ => do
    let resource ← Body.newValue plugin.resource
    let map ← Body.makeMap plugin.schemaMap
    lowerEntries plugin map attributes
    discard (Body.storeField resource "Schema" map)
    discard (Body.storeField schema "Elem" (← Body.boxAny resource))
    return schema
  | some _ => throw .elemChoice

theorem lower_eq (plugin : Plugin) (attr : AttributeFixture) :
    lower plugin attr =
      (if attr.isDynamic then liftM (dynamicSchema plugin)
      else do
        let schema ← Body.newValue plugin.schema
        storeType plugin schema attr
        storePlain plugin schema attr
        lowerElement plugin schema attr.elem : Lower ValueId) := by
  rw [lower]
  rcases attr with ⟨_, _, _, _, _, _, _, _, _, _ | ⟨_ | _, _ | _⟩, _⟩ <;> rfl

private theorem dynamicSchema_segment {plugin : Plugin} {e : Builder}
    {s s' : Site} {value : ValueId}
    (hran : Runs (dynamicSchema plugin) s value s')
    (hlater : s'.builder.Before e) :
    s.Segment e [] s' ∧
      ∃ source name, e.package.operationAt value = .ok (.unary .deref source) ∧
        e.package.operationAt source = .ok (.global name) := by
  obtain ⟨type, s₁, hinterned, hran₁⟩ := runs_bind.1 hran
  obtain ⟨source, s₂, hglobal, hran₂⟩ := runs_bind.1 hran₁
  obtain ⟨hadds, hfound⟩ := Build.runs_global (runs_lift.1 hglobal)
  obtain ⟨hsegment, hread⟩ := Body.deref_segment hran₂ hlater
  have hbefore := hsegment.before.trans hlater
  exact ⟨.adds_left ((Build.intern_adds _ (runs_lift.1 hinterned)).trans hadds)
      hsegment, source, _, hread, hbefore.operationAt hfound⟩

section

variable {names : String → Prop} (plugin : Plugin)

private theorem dynamicSchema_works :
    Preserves (Site.Works names) (dynamicSchema plugin) := by
  refine .bind (.lift (Build.intern_adds _).works) fun _ =>
    .bind (.lift (Build.global_adds _ _).works) fun _ => ?_
  exact Body.deref_works _

theorem storeType_works (schema : ValueId) (attr : AttributeFixture) :
    Preserves (Site.Works names) (storeType plugin schema attr) := by
  intro s u s' hran
  obtain ⟨code, s₁, hcoded, hran₁⟩ := runs_bind.1 hran
  obtain ⟨-, rfl⟩ := runs_ofExcept.1 hcoded
  revert hran₁
  cases code with
  | none => exact fun hran => Preserves.pure _ hran
  | some code =>
      refine fun hran =>
        Preserves.bind (.lift (Build.pushValue_adds _).works) (fun _ => ?_) hran
      exact .bind nextLine_adds.works fun _ =>
        .discard (.lift (Body.storeField_works _ _ _))

theorem storePlain_works (schema : ValueId) (attr : AttributeFixture) :
    Preserves (Site.Works names) (storePlain plugin schema attr) := by
  have hflagged (negated : Bool) :
      Preserves (Site.Works names) (flagValue negated) := by
    cases negated with
    | false => exact .lift (Build.constOf_adds _ _).works
    | true =>
      exact .bind (.lift (Build.constOf_adds _ _).works) fun _ =>
        .bind (Body.ask_works _) fun _ => Body.define_works _ _
  refine .bind (.forM fun _ _ =>
    .bind (hflagged _) fun _ => .discard (Body.storeField_works _ _ _))
    fun _ => ?_
  refine .bind (.optionForM fun _ =>
    .bind (.lift (Build.constOf_adds _ _).works) fun _ => ?_)
    fun _ => ?_
  · exact .discard (Body.storeField_works _ _ _)
  · exact .forM fun _ _ => .bind (.lift (Build.pushValue_adds _).works) fun _ =>
      .discard (Body.storeField_works _ _ _)

mutual

theorem lower_works :
    (attr : AttributeFixture) → Preserves (Site.Works names) (lower plugin attr)
  | ⟨_, _, _, _, _, _, _, _, _, elem, _⟩ => by
    rw [lower_eq]
    split
    · exact .lift (dynamicSchema_works plugin)
    · refine .bind (.lift (Body.alloc_works _ _)) fun schema =>
        .bind (storeType_works _ _ _) fun _ => ?_
      exact .bind (.lift (storePlain_works _ _ _)) fun _ =>
        lowerElement_works schema elem

private theorem lowerElement_works (schema : ValueId) :
    (elem : Option (ElemOf AttributeFixture)) →
      Preserves (Site.Works names) (lowerElement plugin schema elem)
  | none => .pure _
  | some ⟨some inner, none⟩ => by
    refine .bind (lower_works inner) fun _ =>
      .bind (.lift (Body.boxAny_works _)) fun _ => ?_
    exact .bind (.discard (.lift (Body.storeField_works _ _ _)))
      fun _ => .pure _
  | some ⟨none, some attributes⟩ => by
    refine .bind (.lift (Body.alloc_works _ _)) fun _ =>
      .bind (.lift (Body.define_works _ _)) fun map => ?_
    refine .bind (lowerEntries_works map attributes) fun _ => ?_
    refine .bind (.discard (.lift (Body.storeField_works _ _ _))) fun _ =>
      .bind (.lift (Body.boxAny_works _)) fun _ => ?_
    exact .bind (.discard (.lift (Body.storeField_works _ _ _)))
      fun _ => .pure _
  | some ⟨none, none⟩ => fun _ _ _ hran => (runs_throw hran).elim
  | some ⟨some _, some _⟩ => fun _ _ _ hran => (runs_throw hran).elim

theorem lowerEntries_works (map : ValueId) : (attributes : AttributeFixtures) →
    Preserves (Site.Works names) (lowerEntries plugin map attributes)
  | [] => .pure _
  | (name, attr) :: rest => by
    refine .bind (lower_works attr) fun _ =>
      .bind nextPos_adds.works fun _ => ?_
    refine .bind (.lift (Build.constOf_adds _ _).works) fun _ =>
      .bind (.lift (Body.moveTo_adds _).works) fun _ => ?_
    exact .bind (.lift (Body.pushAt_works _)) fun _ =>
      lowerEntries_works map rest

end

end

def Between (low high : Nat) (value : ValueId) : Prop :=
  low ≤ value.index ∧ value.index < high

def Agree (low high : Nat) (effects effects' : List Effect) : Prop :=
  ∀ subject, Between low high subject →
    effectsOn subject effects = effectsOn subject effects'

section

variable {low low' high high' : Nat} {all first second : List Effect}
  {P : ValueId → Prop}

/-- The second part is all there is on structs and maps that the first part
leaves alone. -/
theorem Agree.right (hagree : Agree low high all (first ++ second))
    (honly : OnlyOn P first)
    (hinside : ∀ subject, Between low' high' subject →
        Between low high subject ∧ ¬P subject) :
    Agree low' high' all second := by
  intro subject hbetween
  obtain ⟨hwithin, hother⟩ := hinside subject hbetween
  rw [hagree subject hwithin, effectsOn_append, honly.effectsOn_eq_nil hother,
    List.nil_append]

theorem effectsOn_before_entries {map subject : ValueId}
    (honly :
      OnlyOn (fun subject => subject = map ∨ Between low high subject) all)
    (hbound : map.index < low) (hearlier : subject.index < map.index) :
    effectsOn subject all = [] := by
  refine honly.effectsOn_eq_nil ?_
  rintro (rfl | ⟨habove, _⟩) <;> omega

theorem Agree.left (hagree : Agree low high all (first ++ second))
    (honly : OnlyOn P second)
    (hinside : ∀ subject, Between low' high' subject →
        Between low high subject ∧ ¬P subject) :
    Agree low' high' all first := by
  intro subject hbetween
  obtain ⟨hwithin, hother⟩ := hinside subject hbetween
  rw [hagree subject hwithin, effectsOn_append, honly.effectsOn_eq_nil hother,
    List.append_nil]

end

section

variable {plugin : Plugin} {e : Builder} (hknown : plugin.Known e.package)
  (hsound : e.Sound)

include hknown hsound

/-- Before its element, an attribute that is not dynamic has its description
with all other fields. -/
theorem runs_lower_static {attr : AttributeFixture}
    (hstatic : attr.isDynamic = false) {s s' : Site} {value : ValueId}
    (hran : Runs (lower plugin attr) s value s')
    (hlater : s'.builder.Before e) :
    ∃ schema s₁ code stores, Runs (lowerElement plugin schema attr.elem) s₁
        value s' ∧ attr.code? = .ok code ∧
      e.package.IsAllocated s.cursor.func schema plugin.schema ∧
      Between s.count s₁.count schema ∧
      s.Segment e (stores.map (.store (libraryName "Schema"))) s₁ ∧
      Assigned schema stores (typeAssignments e.package plugin code ++
        attr.plainAssignments e.package) := by
  rw [lower_eq, hstatic] at hran
  obtain ⟨schema, s₁, hmade, hran₁⟩ := runs_bind.1 hran
  obtain ⟨u, s₂, htyped, hran₂⟩ := runs_bind.1 hran₁
  obtain ⟨u, s₃, hplain, hran₃⟩ := runs_bind.1 hran₂
  have hlater₃ :=
    (lowerElement_works plugin schema attr.elem).before hran₃ hlater
  have hlater₂ :=
    (storePlain_works plugin schema attr).before (runs_lift.1 hplain) hlater₃
  have hlater₁ := (storeType_works plugin schema attr).before htyped hlater₂
  obtain ⟨hsegment, hlow, hhigh, hallocated⟩ :=
    Body.newValue_segment (runs_lift.1 hmade) hlater₁ hsound
  obtain ⟨code, hcoded, hfirst⟩ :=
    storeType_assigns hknown hsound hallocated htyped hlater₂
  have hsecond :=
    storePlain_assigns hknown hsound hallocated (runs_lift.1 hplain) hlater₃
  obtain ⟨stores, hstored, hassigned⟩ := hfirst.trans hsecond
  have hwhole := hsegment.trans hstored
  exact ⟨schema, s₃, code, stores, hran₃, hcoded, hallocated,
    ⟨hlow, Nat.lt_of_lt_of_le hhigh hstored.count_le⟩, hwhole, hassigned⟩

/-- The resource of an element is allocated and its map made before the entries,
and both are stored after them. -/
theorem runs_lowerElement_resource {attributes : AttributeFixtures}
    {schema value : ValueId} {s s' : Site}
    (hran :
      Runs (lowerElement plugin schema (some ⟨none, some attributes⟩)) s value
        s')
    (hlater : s'.builder.Before e)
    (hallocated : e.package.IsAllocated s.cursor.func schema plugin.schema) :
    value = schema ∧
      ∃ resource map s₁ s₂ s₃ pos stores u, (s.Segment e [] s₁ ∧
          Between s.count s₁.count resource ∧
          e.package.IsAllocated s.cursor.func resource plugin.resource) ∧
        (s₁.Segment e [] s₂ ∧ Between s₁.count s₂.count map ∧
          e.package.IsMade s.cursor.func map) ∧
        (Runs (lowerEntries plugin map attributes) s₂ u s₃ ∧
          s₃.builder.Before e) ∧
        s₃.Segment e (.store (libraryName "Resource")
            ⟨resource, "Schema", map, pos⟩ ::
          stores.map (.store (libraryName "Schema"))) s' ∧
        Assigned schema stores [("Elem",
          (e.package.operationAt · = .ok (.makeInterface resource)))] := by
  obtain ⟨resource, s₁, hmade, hran₁⟩ := runs_bind.1 hran
  obtain ⟨map, s₂, hmapped, hran₂⟩ := runs_bind.1 hran₁
  obtain ⟨u, s₃, hentered, hran₃⟩ := runs_bind.1 hran₂
  obtain ⟨u, s₄, hkept, hran₄⟩ := runs_bind.1 hran₃
  obtain ⟨box, s₅, hboxed, hran₅⟩ := runs_bind.1 hran₄
  obtain ⟨u, s₆, hstored, hran₆⟩ := runs_bind.1 hran₅
  obtain ⟨rfl, rfl⟩ := runs_pure.1 hran₆
  obtain ⟨stores, htail, hassigned⟩ :=
    Site.Assigns.storeField hsound hallocated hknown.schema (by decide)
      (runs_bind.2 ⟨box, s₅, hboxed, hstored⟩) hlater (by decide)
      fun s value s' hran hlater =>
        Body.boxAny_segment (runs_lift.1 hran) hlater
  have hlater₄ := htail.before.trans hlater
  have hlater₃ :=
    (Preserves.discard (.lift (Body.storeField_works _ _ _))).before hkept
      hlater₄
  have hlater₂ :=
    (lowerEntries_works plugin map attributes).before hentered hlater₃
  obtain ⟨hmapping, hlow, hhigh, hisMade⟩ :=
    Body.makeMap_segment (runs_lift.1 hmapped) hlater₂
  obtain ⟨hmaking, hlow', hhigh', hisAllocated⟩ :=
    Body.newValue_segment (runs_lift.1 hmade) (hmapping.before.trans hlater₂)
      hsound
  obtain ⟨addr, hkept⟩ := runs_discard.1 hkept
  obtain ⟨pos, hkeeping⟩ :=
    Body.storeField_segment (runs_lift.1 hkept) hlater₄ hsound hisAllocated
      hknown.resource (by decide) (by decide)
  rw [hmaking.func] at hisMade
  exact ⟨rfl, resource, map, s₁, s₂, s₃, pos, stores, _,
    ⟨hmaking, ⟨hlow', hhigh'⟩, hisAllocated⟩,
    ⟨hmapping, ⟨hlow, hhigh⟩, hisMade⟩, ⟨hentered, hlater₃⟩,
    hkeeping.trans htail, hassigned⟩

omit hknown hsound in
theorem runs_lowerEntries_cons {name : String} {attr : AttributeFixture}
    {rest : AttributeFixtures} {map : ValueId} {s s' : Site} {u : Unit}
    (hran : Runs (lowerEntries plugin map ((name, attr) :: rest)) s u s')
    (hlater : s'.builder.Before e) :
    ∃ value s₁ key pos s₂, (Runs (lower plugin attr) s value s₁ ∧
        s₁.builder.Before e) ∧ s₁.Segment e [.update map ⟨key, value, pos⟩] s₂ ∧
      e.package.IsConst key (.string name) ∧
      Runs (lowerEntries plugin map rest) s₂ u s' := by
  obtain ⟨value, s₁, hlowered, hran₁⟩ := runs_bind.1 hran
  obtain ⟨pos, s₂, hadvanced, hran₂⟩ := runs_bind.1 hran₁
  obtain ⟨key, s₃, hconstant, hran₃⟩ := runs_bind.1 hran₂
  obtain ⟨u, s₄, hmoved, hran₄⟩ := runs_bind.1 hran₃
  obtain ⟨u, s₅, hupdated, hentered⟩ := runs_bind.1 hran₄
  obtain ⟨pos, hupdating⟩ :=
    Body.mapUpdate_segment (e := e) (runs_lift.1 hupdated)
  obtain ⟨hadding, hfound⟩ := Build.runs_constOf (runs_lift.1 hconstant)
  have hmoving := Body.moveTo_adds _ (runs_lift.1 hmoved)
  have hkeyed : s₃.Segment e [.update map ⟨key, value, pos⟩] s₅ :=
    .adds_left hmoving hupdating
  have hlater₃ :=
    hkeyed.before.trans
      ((lowerEntries_works plugin map rest).before hentered hlater)
  have hwhole :=
    Site.Segment.adds_left ((nextPos_adds hadvanced).trans hadding) hkeyed
  have hlater₁ :=
    hwhole.before.trans
      ((lowerEntries_works plugin map rest).before hentered hlater)
  exact ⟨value, s₁, key, pos, s₅, ⟨hlowered, hlater₁⟩, hwhole,
    hlater₃.operationAt hfound, hentered⟩

end

section

variable (plugin : Plugin) (e : Builder)

-- The effects `all` of the whole body are not known while a part of it is
-- lowered. A part only asks that they agree with its own effects on the structs
-- and maps that it numbers, which no other part touches.

def WritesAttribute (value : ValueId) (attr : AttributeFixture) (s s' : Site) :
    Prop :=
  ∃ effects, s.Segment e effects s' ∧
    OnlyOn (Between s.count s'.count) effects ∧
    ∀ all, Agree s.count s'.count all effects →
    Described e.package plugin s.cursor.func all value attr

def WritesElement (schema : ValueId) (elem : Option (ElemOf AttributeFixture))
    (s s' : Site) : Prop :=
  ∃ effects last, s.Segment e effects s' ∧
    OnlyOn (fun subject => subject = schema ∨ Between s.count s'.count subject)
      effects ∧
    effectsOn schema effects = last.map (.store (libraryName "Schema")) ∧
    ∀ all, Agree s.count s'.count all effects →
    Element e.package plugin s.cursor.func all elem last

def WritesEntries (map : ValueId) (attributes : AttributeFixtures)
    (s s' : Site) : Prop :=
  ∃ effects, s.Segment e effects s' ∧
    OnlyOn (fun subject => subject = map ∨ Between s.count s'.count subject)
      effects ∧
    ∀ all, Agree s.count s'.count all effects →
      Entries e.package plugin s.cursor.func all (updatesOf map effects)
        attributes

end

section

variable {plugin : Plugin} {e : Builder} (hknown : plugin.Known e.package)
  (hsound : e.Sound)

include hknown hsound

theorem writesAttribute_of_static {attr : AttributeFixture}
    (hstatic : attr.isDynamic = false) {s s' : Site} {value : ValueId}
    (hran : Runs (lower plugin attr) s value s') (hlater : s'.builder.Before e)
    (helement :
      ∀ {schema s value}, Runs (lowerElement plugin schema attr.elem) s value
          s' → e.package.IsAllocated s.cursor.func schema plugin.schema →
        schema.index < s.count →
        value = schema ∧ WritesElement plugin e schema attr.elem s s') :
    WritesAttribute plugin e value attr s s' := by
  obtain ⟨schema, s₁, code, stores, hinner, hcoded, hallocated, ⟨hlow, hhigh⟩,
      hsegment, hassigned⟩ :=
    runs_lower_static hknown hsound hstatic hran hlater
  have honly₀ :=
    hassigned.onlyOn (by decide : libraryName "Schema" ≠ libraryName "Provider")
  obtain ⟨rfl, effects, last, htail, honly, hon, helement⟩ :=
    helement hinner (hsegment.func ▸ hallocated) hhigh
  have hbelow : value.index < s'.count :=
    Nat.lt_of_lt_of_le hhigh htail.count_le
  refine ⟨_, hsegment.trans htail, (honly₀.imp ?_).append (honly.imp ?_),
    fun all hagree => ?_⟩
  · rintro subject rfl
    exact ⟨hlow, hbelow⟩
  · rintro subject (rfl | ⟨habove, hbelow⟩)
    · exact ⟨hlow, hbelow⟩
    · exact ⟨Nat.le_trans hsegment.count_le habove, hbelow⟩
  · rw [hsegment.func] at helement
    refine .built hstatic hcoded hallocated ?_ hassigned (helement all ?_)
    · rw [hagree _ ⟨hlow, hbelow⟩, effectsOn_append, hassigned.effectsOn, hon,
        ← List.map_append, storesOf_map]
    · refine hagree.right honly₀ fun subject ⟨habove, hbelow⟩ =>
        ⟨⟨Nat.le_trans hsegment.count_le habove, hbelow⟩, ?_⟩
      rintro rfl
      exact absurd hhigh (Nat.not_lt.2 habove)

private theorem writesElement_of_attribute {inner : AttributeFixture}
    {schema value : ValueId} {s s' : Site}
    (hran :
      Runs (lowerElement plugin schema (some ⟨some inner, none⟩)) s value s')
    (hlater : s'.builder.Before e)
    (hallocated : e.package.IsAllocated s.cursor.func schema plugin.schema)
    (hbound : schema.index < s.count)
    (hwrites : ∀ {x s'}, Runs (lower plugin inner) s x s' →
        s'.builder.Before e → WritesAttribute plugin e x inner s s') :
    value = schema ∧
      WritesElement plugin e schema (some ⟨some inner, none⟩) s s' := by
  obtain ⟨x, s₁, hlowered, hran₁⟩ := runs_bind.1 hran
  obtain ⟨box, s₂, hboxed, hran₂⟩ := runs_bind.1 hran₁
  obtain ⟨u, s₃, hstored, hran₃⟩ := runs_bind.1 hran₂
  obtain ⟨rfl, rfl⟩ := runs_pure.1 hran₃
  obtain ⟨stores, htail, hassigned⟩ :=
    Site.Assigns.storeField hsound hallocated hknown.schema (by decide)
      (runs_bind.2 ⟨box, s₂, hboxed, hstored⟩) hlater (by decide)
      fun s value s' hran hlater =>
        Body.boxAny_segment (runs_lift.1 hran) hlater
  have honly₀ :=
    hassigned.onlyOn (by decide : libraryName "Schema" ≠ libraryName "Provider")
  obtain ⟨effects, hsegment, honly, hdescribed⟩ :=
    hwrites hlowered (htail.before.trans hlater)
  have hlow := hsegment.count_le
  have hhigh := htail.count_le
  refine ⟨rfl, _, stores, hsegment.trans htail,
    (honly.imp ?_).append (honly₀.imp ?_), ?_, fun all hagree => ?_⟩
  · rintro subject ⟨habove, hbelow⟩
    exact .inr ⟨habove, Nat.lt_of_lt_of_le hbelow hhigh⟩
  · exact fun subject => .inl
  · rw [effectsOn_append, honly.effectsOn_eq_nil, hassigned.effectsOn,
      List.nil_append]
    rintro ⟨habove, hbelow⟩
    omega
  · have hinside : Agree s.count s₁.count all effects := by
      refine hagree.left honly₀ fun subject ⟨habove, hbelow⟩ =>
        ⟨⟨habove, Nat.lt_of_lt_of_le hbelow hhigh⟩, ?_⟩
      rintro rfl
      omega
    cases hassigned with
    | cons hfirst hnone =>
        cases hnone
        exact .ofSchema hfirst.2.1 hfirst.2.2 (hdescribed all hinside)

/-- The description, the resource, its map and what the entries need are
numbered in this order. So the entries, the store into the resource and the
stores into the description are on different structs and maps. -/
theorem writesElement_of_entries {attributes : AttributeFixtures}
    {schema value : ValueId} {s s' : Site}
    (hran :
      Runs (lowerElement plugin schema (some ⟨none, some attributes⟩)) s value
        s')
    (hlater : s'.builder.Before e)
    (hallocated : e.package.IsAllocated s.cursor.func schema plugin.schema)
    (hbound : schema.index < s.count)
    (hentries :
      ∀ {map s u s'}, Runs (lowerEntries plugin map attributes) s u s' →
        s'.builder.Before e → map.index < s.count →
        WritesEntries plugin e map attributes s s') :
    value = schema ∧
      WritesElement plugin e schema (some ⟨none, some attributes⟩) s s' := by
  obtain ⟨rfl, resource, map, s₁, s₂, s₃, pos, stores, u,
      ⟨hmaking, hresourceIn, hisAllocated⟩, ⟨hmapping, hmapIn, hisMade⟩,
      ⟨hentered, hlater₃⟩, htail, hassigned⟩ :=
    runs_lowerElement_resource hknown hsound hran hlater hallocated
  obtain ⟨effects, hentering, honly, hentries⟩ :=
    hentries hentered hlater₃ hmapIn.2
  rw [hmapping.func, hmaking.func] at hentries
  obtain ⟨hresourceLow, hresourceHigh⟩ := hresourceIn
  obtain ⟨hmapLow, hmapHigh⟩ := hmapIn
  have hcount₃ := hentering.count_le
  have hcount₄ := htail.count_le
  have honly₀ :=
    hassigned.onlyOn (by decide : libraryName "Schema" ≠ libraryName "Provider")
  have honly₁ : OnlyOn (· = resource)
      [.store (libraryName "Resource") ⟨resource, "Schema", map, pos⟩] :=
    .store _ (by decide)
  have hquiet {subject : ValueId} (hearlier : subject.index < map.index) :
      effectsOn subject effects = [] :=
    effectsOn_before_entries honly hmapHigh hearlier
  have hsegment : s.Segment e (effects ++
      [.store (libraryName "Resource") ⟨resource, "Schema", map, pos⟩] ++
      stores.map (.store (libraryName "Schema"))) s' := by
    rw [List.append_assoc]
    exact hmaking.trans (hmapping.trans (hentering.trans htail))
  refine ⟨rfl, _, stores, hsegment,
    ((honly.imp ?_).append (honly₁.imp ?_)).append (honly₀.imp fun _ => .inl),
    ?_, fun all hagree => ?_⟩
  · rintro subject (rfl | ⟨hlow, hhigh⟩) <;> exact .inr ⟨by omega, by omega⟩
  · rintro subject rfl
    exact .inr ⟨hresourceLow, by omega⟩
  · have hapart : ¬value = resource := by
      rintro rfl
      omega
    rw [effectsOn_append, effectsOn_append, hquiet (by omega),
      honly₁.effectsOn_eq_nil hapart, hassigned.effectsOn, List.nil_append,
      List.nil_append]
  · have hofResource : Agree s.count s'.count all
        (effects ++
            [.store (libraryName "Resource")
              ⟨resource, "Schema", map, pos⟩]) := by
      refine hagree.left honly₀ fun subject ⟨hlow, hhigh⟩ => ⟨⟨hlow, hhigh⟩, ?_⟩
      rintro rfl
      omega
    have hstored : storesOf (libraryName "Resource") (effectsOn resource all) =
        [⟨resource, "Schema", map, pos⟩] := by
      rw [hofResource resource ⟨hresourceLow, by omega⟩, effectsOn_append,
        hquiet (by omega), effectsOn_single rfl]
      exact storesOf_map _ [_]
    have hupdates : updatesOf map all = updatesOf map effects := by
      rw [← updatesOf_effectsOn, hofResource map ⟨by omega, by omega⟩,
        updatesOf_effectsOn, updatesOf_append]
      exact List.append_nil _
    have hinside : Agree s₂.count s₃.count all effects := by
      refine hofResource.left honly₁ fun subject ⟨hlow, hhigh⟩ =>
        ⟨⟨by omega, by omega⟩, ?_⟩
      rintro rfl
      omega
    cases hassigned with
    | cons hfirst hnone =>
        cases hnone
        exact .ofResource hfirst.2.1 hfirst.2.2 hisAllocated hstored hisMade
          (hupdates ▸ hentries all hinside)

omit hknown hsound in
theorem writesEntries_cons {name : String} {attr : AttributeFixture}
    {rest : AttributeFixtures} {map : ValueId} {s s' : Site} {u : Unit}
    (hran : Runs (lowerEntries plugin map ((name, attr) :: rest)) s u s')
    (hlater : s'.builder.Before e) (hbound : map.index < s.count)
    (hwrites : ∀ {value s'}, Runs (lower plugin attr) s value s' →
        s'.builder.Before e → WritesAttribute plugin e value attr s s')
    (hentries : ∀ {s u}, Runs (lowerEntries plugin map rest) s u s' →
        map.index < s.count → WritesEntries plugin e map rest s s') :
    WritesEntries plugin e map ((name, attr) :: rest) s s' := by
  obtain ⟨value, s₁, key, pos, s₂, ⟨hlowered, hlater₁⟩, hupdating, hisKey,
      hentered⟩ := runs_lowerEntries_cons hran hlater
  have hcounting := hupdating.count_le
  obtain ⟨begun, hlowering, honly, hdescribed⟩ := hwrites hlowered hlater₁
  have hcounted := hlowering.count_le
  obtain ⟨others, hentering, honly', hentries⟩ := hentries hentered (by omega)
  have hcounts := hentering.count_le
  refine ⟨_, hlowering.trans (hupdating.trans hentering),
    (honly.imp ?_).append
      (((OnlyOn.update map _).imp ?_).append (honly'.imp ?_)),
    fun all hagree => ?_⟩
  · rintro subject ⟨hlow, hhigh⟩
    exact .inr ⟨hlow, by omega⟩
  · exact fun subject => .inl
  · rintro subject (rfl | ⟨hlow, hhigh⟩)
    · exact .inl rfl
    · exact .inr ⟨by omega, hhigh⟩
  · have hlater : Agree s₁.count s'.count all
        ([.update map ⟨key, value, pos⟩] ++ others) := by
      refine hagree.right honly fun subject ⟨hlow, hhigh⟩ =>
        ⟨⟨by omega, hhigh⟩, ?_⟩
      rintro ⟨_, hbelow⟩
      omega
    have hsecond : Agree s₂.count s'.count all others := by
      refine hlater.right (.update map _) fun subject ⟨hlow, hhigh⟩ =>
        ⟨⟨by omega, hhigh⟩, ?_⟩
      rintro rfl
      omega
    have hfirst : Agree s.count s₁.count all begun := by
      refine hagree.left
          (((OnlyOn.update map _).imp fun _ => .inl).append honly')
          fun subject ⟨hlow, hhigh⟩ =>
        ⟨⟨hlow, by omega⟩, ?_⟩
      rintro (rfl | ⟨habove, _⟩) <;> omega
    have hquiet : updatesOf map begun = [] := by
      refine honly.updatesOf_eq_nil ?_
      rintro ⟨habove, _⟩
      omega
    have hlisted :
        updatesOf map (begun ++ ([.update map ⟨key, value, pos⟩] ++ others)) =
        ⟨key, value, pos⟩ :: updatesOf map others := by
      rw [updatesOf_append, updatesOf_append, hquiet]
      simp [updatesOf]
    rw [hlisted]
    rw [hupdating.func, hlowering.func] at hentries
    exact .cons hisKey (hdescribed all hfirst) (hentries all hsecond)

end

section

variable {plugin : Plugin} {e : Builder}

mutual

theorem lower_described (hknown : plugin.Known e.package) (hsound : e.Sound) :
    (attr : AttributeFixture) →
      ∀ {s : Site} {value : ValueId} {s' : Site}, Runs (lower plugin attr) s
          value s' → s'.builder.Before e →
        WritesAttribute plugin e value attr s s'
  | ⟨type, typeConst, required, optional, computed, negated, description,
      minItems, maxItems, elem, true⟩, s, value, s', hran, hlater => by
    rw [lower_eq] at hran
    obtain ⟨hsegment, source, name, hread, hglobal⟩ :=
      dynamicSchema_segment (runs_lift.1 hran) hlater
    exact ⟨[], hsegment, .nil, fun all _ => .dynamic rfl hread hglobal⟩
  | ⟨type, typeConst, required, optional, computed, negated, description,
      minItems, maxItems, elem, false⟩, s, value, s', hran, hlater =>
    writesAttribute_of_static hknown hsound rfl hran hlater fun hran =>
      lowerElement_described hknown hsound elem hran hlater

theorem lowerElement_described (hknown : plugin.Known e.package)
    (hsound : e.Sound) :
    (elem : Option (ElemOf AttributeFixture)) →
      ∀ {schema : ValueId} {s : Site} {value : ValueId} {s' : Site}, Runs
          (lowerElement plugin schema elem) s value s' → s'.builder.Before e →
        e.package.IsAllocated s.cursor.func schema plugin.schema →
        schema.index < s.count →
        value = schema ∧ WritesElement plugin e schema elem s s'
  | none, schema, s, value, s', hran, hlater, hallocated, hbound => by
    obtain ⟨rfl, rfl⟩ := runs_pure.1 hran
    exact ⟨rfl, [], [], .of_adds (.refl _), .nil, rfl, fun all _ => .absent⟩
  | some ⟨some inner, none⟩, schema, s, value, s', hran, hlater, hallocated,
      hbound =>
    writesElement_of_attribute hknown hsound hran hlater hallocated hbound
      (lower_described hknown hsound inner)
  | some ⟨none, some attributes⟩, schema, s, value, s', hran, hlater,
      hallocated, hbound =>
    writesElement_of_entries hknown hsound hran hlater hallocated hbound
      (lowerEntries_described hknown hsound attributes)
  | some ⟨none, none⟩, schema, s, value, s', hran, hlater, hallocated, hbound =>
      (runs_throw hran).elim
  | some ⟨some _, some _⟩, schema, s, value, s', hran, hlater, hallocated,
      hbound =>
      (runs_throw hran).elim

theorem lowerEntries_described (hknown : plugin.Known e.package)
    (hsound : e.Sound) :
    (attributes : AttributeFixtures) →
      ∀ {map : ValueId} {s : Site} {u : Unit} {s' : Site}, Runs
          (lowerEntries plugin map attributes) s u s' → s'.builder.Before e →
        map.index < s.count → WritesEntries plugin e map attributes s s'
  | [], map, s, u, s', hran, hlater, hbound => by
    obtain ⟨-, rfl⟩ := runs_pure.1 hran
    exact ⟨[], .of_adds (.refl _), .nil, fun all _ => .nil⟩
  | (_, attr) :: rest, map, s, u, s', hran, hlater, hbound =>
    writesEntries_cons hran hlater hbound (lower_described hknown hsound attr)
      fun hran => lowerEntries_described hknown hsound rest hran hlater

end

end

end AttributeFixture

end SchemaLint
