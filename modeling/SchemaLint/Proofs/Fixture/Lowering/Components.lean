import SchemaLint.Proofs.Fixture.Lowering.Attributes
import SchemaLint.Proofs.Fixture.Lowering.Bodies

/-!
# Lowering components

A component becomes its lifecycle functions and a function that builds a
resource out of them and of the schema. What is lowered later does not touch
these functions.
-/

namespace SchemaLint

/-! ## Lifecycle functions -/

/-- The function of a slot: the one of the plugin library, or an own one of this
name. -/
def FunctionFixture.FilledBy (p : Package) (plugin : Plugin) (name : String)
    (fixture : FunctionFixture)
    (func : FuncId) :
    Prop :=
  match fixture.sdk with
  | some _ => func = plugin.removeFromState
  | none =>
    ∃ f, p.funcAt func = .ok f ∧ f.name = name ∧ f.package = some p.path ∧
      f.receiver = none

theorem FunctionFixture.FilledBy.grow {names : String → Prop}
    {may : FuncId → Prop} {b e : Builder} {plugin : Plugin} {name : String}
    {fixture : FunctionFixture} {func : FuncId}
    (hfilled : fixture.FilledBy b.package plugin name func)
    (hgrows : b.Grows names may e) :
    fixture.FilledBy e.package plugin name func := by
  unfold FilledBy at hfilled ⊢
  split at hfilled
  · exact hfilled
  · obtain ⟨f, hfound, hnamed, hpackage, hreceiver⟩ := hfilled
    obtain ⟨f', hfound', hsame⟩ := hgrows.headers func f hfound
    rw [Func.SameHeader] at hsame
    rw [hgrows.path]
    exact ⟨f', hfound', by rw [hsame, hnamed], by rw [hsame, hpackage],
      by rw [hsame, hreceiver]⟩

section

variable {plugin : Plugin} {stem : String} {k : Nat} {s s' : Site}

private theorem runs_declareSlot {slot : LifecycleSlot}
    {fixture : FunctionFixture} {func : FuncId}
    (hinner : Inner (stem ++ slot.fieldName))
    (hran : Runs (declareSlot plugin stem slot fixture) s func s')
    (hroom : k ≤ s.builder.package.functions.size) :
    s.Grows Inner (k ≤ ·.index) s' ∧
      fixture.FilledBy s'.builder.package plugin (stem ++ slot.fieldName) func ∧
      (fixture.sdk = none →
        k ≤ func.index ∧
          s'.Prepared func (stem ++ slot.fieldName) none [plugin.error]) := by
  unfold declareSlot at hran
  unfold FunctionFixture.FilledBy
  split at hran
  · next hknown =>
      obtain ⟨rfl, rfl⟩ := runs_pure.1 hran
      rw [hknown]
      exact ⟨⟨.refl _, rfl⟩, rfl, nofun⟩
  · exact (runs_throw_package hran).elim
  · next hown =>
      rw [hown]
      obtain ⟨params, s₁, hprepared, hdeclared⟩ := runs_bind.1 hran
      have hpreparing := crudParams_adds plugin (runs_lift.1 hprepared)
      have hgrown := Build.declare_above hinner _ _ k (runs_lift.1 hdeclared)
      obtain ⟨hnumber, f, hfound, hnamed, hpackage, hreceiver, -⟩ :=
        Build.declare_found (runs_lift.1 hdeclared)
      refine ⟨hpreparing.above.trans hgrown hroom,
        ⟨f, hfound, hnamed, hpackage, hreceiver⟩, fun _ => ⟨?_, ?_⟩⟩
      · rw [hnumber, hpreparing.functions]
        exact hroom
      · exact Build.declare_prepared (runs_lift.1 hdeclared)

end

def SlotsFilled (p : Package) (plugin : Plugin) (stem : String)
    (bodies : List (LifecycleSlot × FunctionFixture)) (slots : Slots) : Prop :=
  List.Forall₂ (fun body slot => slot.1 = body.1 ∧
    body.2.FilledBy p plugin (stem ++ slot.1.fieldName) slot.2)
    bodies slots

theorem SlotsFilled.slots_eq {p : Package} {plugin : Plugin} {stem : String}
    {bodies : List (LifecycleSlot × FunctionFixture)} {slots : Slots}
    (hfilled : SlotsFilled p plugin stem bodies slots) :
    slots.map Prod.fst = bodies.map Prod.fst := by
  induction hfilled with
  | nil => rfl
  | cons hfirst _ ih => rw [List.map_cons, List.map_cons, hfirst.1, ih]

namespace ComponentFixture

variable {plugin : Plugin} {stem : String} {k : Nat}
  {fixture : ComponentFixture} {slots : Slots} {s s' : Site}

theorem mem_bodies {slot : LifecycleSlot} {body : FunctionFixture} :
    (slot, body) ∈ fixture.bodies ↔ fixture.slot slot = some body := by
  rw [bodies, List.mem_filterMap]
  constructor
  · rintro ⟨other, -, hfound⟩
    obtain ⟨_, hthere, ⟨⟩⟩ := Option.map_eq_some_iff.1 hfound
    exact hthere
  · intro hthere
    exact ⟨slot, by cases slot <;> decide, by rw [hthere, Option.map_some]⟩

theorem bodies_slots (fixture : ComponentFixture) :
    (fixture.bodies.map Prod.fst).Sublist LifecycleSlot.all := by
  have hkept : fixture.bodies.map Prod.fst =
      LifecycleSlot.all.filter fun slot => (fixture.slot slot).isSome := by
    rw [bodies, List.map_filterMap, ← List.filterMap_eq_filter]
    congr 1
    funext slot
    cases hthere : fixture.slot slot <;> simp [Option.guard, hthere]
  rw [hkept]
  exact List.filter_sublist

theorem isOwn_iff {slot : LifecycleSlot} {body : FunctionFixture}
    (hgiven : fixture.slot slot = some body) :
    fixture.isOwn slot ↔ body.sdk = none := by
  cases hown : body.sdk <;> simp [isOwn, ownBody?, hgiven, hown]

/-- Functions are declared for the slots one after the other, so that no two
slots share one. -/
theorem runs_declareEach
    (hinner : ∀ slot : LifecycleSlot, Inner (stem ++ slot.fieldName))
    {bodies : List (LifecycleSlot × FunctionFixture)}
    (hgiven : ∀ body ∈ bodies, fixture.slot body.1 = some body.2)
    (hran : Runs
      (bodies.mapM fun (slot, body) =>
        do return (slot, ← declareSlot plugin stem slot body) :
          LowerPackage Slots) s
      slots s')
    (hroom : k ≤ s.builder.package.functions.size) :
    s.Grows Inner (k ≤ ·.index) s' ∧
    SlotsFilled s'.builder.package plugin stem bodies slots ∧
      (∀ entry ∈ slots, fixture.isOwn entry.1 →
        k ≤ entry.2.index ∧
        s'.Prepared entry.2 (stem ++ entry.1.fieldName) none [plugin.error]) ∧
      slots.Pairwise fun one other =>
      fixture.isOwn one.1 → fixture.isOwn other.1 → one.2 ≠ other.2 := by
  induction bodies generalizing slots s k with
  | nil =>
      obtain ⟨rfl, rfl⟩ := runs_pure.1 hran
      exact ⟨⟨.refl _, rfl⟩, .nil, nofun, .nil⟩
  | cons body bodies ih =>
      obtain ⟨slot, body⟩ := body
      obtain ⟨hhere, hthere⟩ := List.forall_mem_cons.1 hgiven
      obtain ⟨first, others, s₁, hran₁, hran₂, rfl⟩ := runs_mapM_cons.1 hran
      obtain ⟨func, s₂, hdeclared, hran₃⟩ := runs_bind.1 hran₁
      obtain ⟨rfl, rfl⟩ := runs_pure.1 hran₃
      obtain ⟨hgrown, hfilled, hown⟩ :=
        runs_declareSlot (hinner slot) hdeclared hroom
      obtain ⟨hgrown', hfilled', howned, hapart⟩ :=
        ih hthere hran₂ (Nat.le_refl _)
      have hmore := Nat.le_trans hroom hgrown.builder.funcCount
      have hbelow (hisOwn : fixture.isOwn slot) :
          func.index < s₁.builder.package.functions.size := by
        obtain ⟨-, f, hfound, -⟩ := hown ((isOwn_iff hhere).1 hisOwn)
        exact Package.funcAt_bound hfound
      refine ⟨hgrown.trans (hgrown'.weaken fun _ => Nat.le_trans hmore)
          fun _ _ _ => id, .cons ⟨rfl, hfilled.grow hgrown'.builder⟩ hfilled',
        List.forall_mem_cons.2 ⟨fun hisOwn => ?_, ?_⟩,
        .cons (fun other hmember hisOwn hisOwn' => ?_) hapart⟩
      · obtain ⟨hbound, hprepared⟩ := hown ((isOwn_iff hhere).1 hisOwn)
        exact ⟨hbound, hprepared.grow hgrown' (Nat.not_le.2 (hbelow hisOwn))⟩
      · intro other hmember hisOwn
        obtain ⟨hbound, hprepared⟩ := howned other hmember hisOwn
        exact ⟨Nat.le_trans hmore hbound, hprepared⟩
      · rintro rfl
        exact absurd (hbelow hisOwn)
          (Nat.not_lt.2 (howned other hmember hisOwn').1)

theorem runs_declareSlots
    (hinner : ∀ slot : LifecycleSlot, Inner (stem ++ slot.fieldName))
    (hran : Runs (fixture.declareSlots plugin stem) s slots s')
    (hroom : k ≤ s.builder.package.functions.size) :
    s.Grows Inner (k ≤ ·.index) s' ∧
      SlotsFilled s'.builder.package plugin stem fixture.bodies slots ∧
      (∀ entry ∈ slots, fixture.isOwn entry.1 → k ≤ entry.2.index) ∧
      fixture.Prepares s' plugin slots ∧ slots.Pairwise fixture.Apart := by
  obtain ⟨hgrown, hfilled, howned, hapart⟩ :=
    runs_declareEach hinner (fun _ => mem_bodies.1) hran hroom
  have hkeys : (slots.map Prod.fst).Nodup := by
    rw [hfilled.slots_eq]
    exact fixture.bodies_slots.nodup (by decide)
  refine ⟨hgrown, hfilled,
    fun entry hmember hisOwn => (howned entry hmember hisOwn).1,
    fun entry hmember hisOwn => ?_, (List.pairwise_map.1 hkeys).and hapart⟩
  refine ⟨_, unlikeSet_append stem ?_, (howned entry hmember hisOwn).2⟩
  cases entry.1 <;> decide

theorem fillSlots_above (htexts : plugin.string = textType)
    (howned : ∀ entry ∈ slots, fixture.isOwn entry.1 → k ≤ entry.2.index) :
    Preserves (Site.Above Inner k) (fixture.fillSlots plugin slots) := by
  intro s u s' hran hroom
  rw [fillSlots_eq] at hran
  refine (fillSlots_grows htexts hran).weaken ?_
  rintro id (⟨entry, hmember, hisOwn, rfl⟩ | hnew)
  · exact howned entry hmember hisOwn
  · exact Nat.le_trans hroom hnew

structure Lives (p : Package) (plugin : Plugin) (slots : Slots)
    (fixture : ComponentFixture) (chains : LifecycleSlot → List Level) :
    Prop where
  fulfilled :
    ∀ entry ∈ slots, fixture.Fulfils p plugin slots entry (chains entry.1)
  positions :
    (slots.flatMap fun entry => (chains entry.1).flatMap Level.positions).Nodup

end ComponentFixture

/-! ## Builders -/

inductive SchemaStored (p : Package) (plugin : Plugin) (func : FuncId)
    (effects : List Effect) : Option AttributeFixtures → List FieldStore → Prop
  | absent : SchemaStored p plugin func effects none []
  | present {store attributes} :
    store.field = "Schema" → p.IsMade func store.value →
      AttributeFixture.Entries p plugin func effects
        (updatesOf store.value effects) attributes →
      SchemaStored p plugin func effects (some attributes) [store]

def slotAssignments (p : Package) (slots : Slots) : List Assignment :=
  slots.map fun (slot, func) =>
    (slot.fieldName, (p.operationAt · = .ok (.function func)))

namespace ComponentFixture

structure Fills (p : Package) (plugin : Plugin) (slots : Slots)
    (fixture : ComponentFixture) (func : FuncId) (effects : List Effect)
    (resource : ValueId) : Prop where
  allocated : p.IsAllocated func resource plugin.resource
  only : OnlyOn (fun _ => True) effects
  stored :
    ∃ stores last, storesOf (libraryName "Resource")
        (effectsOn resource effects) = stores ++ last ∧
    Assigned resource stores (slotAssignments p slots) ∧
    SchemaStored p plugin func effects fixture.schema last

def lowerSlots (resource : ValueId) (slots : Slots) : Lower Unit :=
  slots.forM fun (slot, func) => do
    discard (Body.storeField resource slot.fieldName (← Build.funcRef func))

def lowerSchema (plugin : Plugin) (resource : ValueId)
    (schema : Option AttributeFixtures) : Lower Unit :=
  schema.forM fun attributes => do
    let map ← AttributeFixture.lowerAll plugin attributes
    nextLine
    discard (Body.storeField resource "Schema" map)

theorem lowerBuilder_eq (plugin : Plugin) (slots : Slots)
    (fixture : ComponentFixture) :
    fixture.lowerBuilder plugin slots = (do
      let resource ← Body.newValue plugin.resource
      lowerSlots resource slots
      lowerSchema plugin resource fixture.schema
      Body.ret [resource]) :=
  rfl

section

variable {names : String → Prop} (plugin : Plugin) (resource : ValueId)

theorem lowerSlots_works (slots : Slots) :
    Preserves (Site.Works names) (lowerSlots resource slots) := by
  refine .forM fun slot _ =>
    .bind (.lift (Build.funcRef_adds _).works) fun _ => ?_
  exact .discard (.lift (Body.storeField_works _ _ _))

theorem lowerSchema_works (schema : Option AttributeFixtures) :
    Preserves (Site.Works names) (lowerSchema plugin resource schema) := by
  refine .optionForM fun attributes =>
    .bind (.bind (.lift (Body.define_works _ _)) fun map => ?_) fun _ => ?_
  · exact .bind (AttributeFixture.lowerEntries_works plugin map attributes)
      fun _ => .pure _
  · exact .bind nextLine_adds.works fun _ =>
      .discard (.lift (Body.storeField_works _ _ _))

theorem lowerBuilder_works (slots : Slots) (fixture : ComponentFixture) :
    Preserves (Site.Works names) (fixture.lowerBuilder plugin slots) := by
  refine .bind (.lift (Body.alloc_works _ _)) fun resource =>
    .bind (lowerSlots_works resource slots) fun _ => ?_
  exact .bind (lowerSchema_works plugin resource _) fun _ =>
    .lift (Body.ret_works _)

end

section

variable {plugin : Plugin} {e : Builder} (hknown : plugin.Known e.package)
  (hsound : e.Sound) {s s' : Site} {u : Unit}

include hknown hsound

private theorem lowerSlots_assigns {resource : ValueId} {slots : Slots}
    {func : FuncId}
    (hallocated : e.package.IsAllocated func resource plugin.resource)
    (hran : Runs (lowerSlots resource slots) s u s')
    (hlater : s'.builder.Before e) :
    s.Assigns e (libraryName "Resource") resource
      (slotAssignments e.package slots) s' := by
  refine .forM (fun (slot, func) _ s u s' hran hlater => ?_) hran hlater
  refine .storeField hsound hallocated hknown.resource (by decide) hran hlater
    (by cases slot <;> decide)
    fun s value s' hran hlater => ?_
  obtain ⟨hadds, hreferred⟩ := Build.runs_funcRef (runs_lift.1 hran)
  exact ⟨.of_adds hadds, hsound.funcRefs _ _ (hlater.funcRefs hreferred)⟩

theorem lowerSchema_stored {resource : ValueId}
    {schema : Option AttributeFixtures}
    (hran : Runs (lowerSchema plugin resource schema) s u s')
    (hlater : s'.builder.Before e)
    (hallocated : e.package.IsAllocated s.cursor.func resource plugin.resource)
    (hbound : resource.index < s.count) :
    ∃ effects last, s.Segment e effects s' ∧ OnlyOn (fun _ => True) effects ∧
      storesOf (libraryName "Resource") (effectsOn resource effects) = last ∧
      ∀ first, OnlyOn (· = resource) first →
        SchemaStored e.package plugin s.cursor.func (first ++ effects) schema
          last := by
  cases schema with
  | none =>
      obtain ⟨-, rfl⟩ := runs_pure.1 hran
      exact ⟨[], [], .of_adds (.refl _), .nil, rfl, fun first _ => .absent⟩
  | some attributes =>
      obtain ⟨map, s₁, hlowered, hran₁⟩ := runs_bind.1 hran
      obtain ⟨u, s₂, hmoved, hstored⟩ := runs_bind.1 hran₁
      obtain ⟨map, s₃, hmapped, hran₂⟩ := runs_bind.1 hlowered
      obtain ⟨u, s₄, hentered, hran₃⟩ := runs_bind.1 hran₂
      obtain ⟨rfl, rfl⟩ := runs_pure.1 hran₃
      obtain ⟨addr, hstored⟩ := runs_discard.1 hstored
      obtain ⟨pos, hstoring⟩ :=
        Body.storeField_segment (runs_lift.1 hstored) hlater hsound hallocated
          hknown.resource (by decide) (by decide)
      have htail : s₁.Segment e
          [.store (libraryName "Resource") ⟨resource, "Schema", map, pos⟩] s' :=
        .adds_left (nextLine_adds hmoved) hstoring
      have hlater₄ := htail.before.trans hlater
      have hlater₃ :=
        (AttributeFixture.lowerEntries_works plugin map attributes).before
          hentered hlater₄
      obtain ⟨hmapping, hlow, hhigh, hisMade⟩ :=
        Body.makeMap_segment (runs_lift.1 hmapped) hlater₃
      obtain ⟨effects, hentering, honly, hentries⟩ :=
        AttributeFixture.lowerEntries_described hknown hsound attributes
          hentered hlater₄ hhigh
      have hearlier : resource.index < map.index :=
        Nat.lt_of_lt_of_le hbound hlow
      have hapart : resource ≠ map := by
        rintro rfl
        omega
      have hquiet :=
        AttributeFixture.effectsOn_before_entries honly hhigh hearlier
      have honly₁ : OnlyOn (· = resource)
          [.store (libraryName "Resource") ⟨resource, "Schema", map, pos⟩] :=
        .store _ (by decide)
      have hsegment : s.Segment e (effects ++
          [.store (libraryName "Resource") ⟨resource, "Schema", map, pos⟩])
          s' :=
        hmapping.trans (hentering.trans htail)
      refine ⟨_, [⟨resource, "Schema", map, pos⟩], hsegment,
        (honly.imp fun _ _ => trivial).append (honly₁.imp fun _ _ => trivial),
        ?_, fun first hown => .present rfl hisMade ?_⟩
      · rw [effectsOn_append, hquiet, effectsOn_single rfl]
        exact storesOf_map _ [_]
      · rw [hmapping.func] at hentries
        rw [updatesOf_append, updatesOf_append,
          hown.updatesOf_eq_nil hapart.symm,
          honly₁.updatesOf_eq_nil hapart.symm, List.nil_append, List.append_nil]
        have houtside (subject : ValueId)
            (hinside : AttributeFixture.Between s₃.count s₁.count subject) :
            AttributeFixture.Between s₃.count s₁.count subject ∧
            ¬subject = resource := by
          refine ⟨hinside, ?_⟩
          rintro rfl
          exact absurd hinside.1 (by omega)
        have hwhole : AttributeFixture.Agree s₃.count s₁.count
            (first ++
                (effects ++
                  [.store (libraryName "Resource")
                    ⟨resource, "Schema", map, pos⟩])) _ :=
          fun subject _ => rfl
        exact hentries _ ((hwhole.right hown houtside).left honly₁ houtside)

theorem lowerBuilder_fills {slots : Slots} {fixture : ComponentFixture}
    (hran : Runs (fixture.lowerBuilder plugin slots) s u s')
    (hlater : s'.builder.Before e) :
    ∃ seg resource pos effects, s.Wrote (seg ++ [.ret [resource] pos]) s' ∧
      e.package.Effects seg effects ∧
      fixture.Fills e.package plugin slots s.cursor.func effects resource := by
  rw [lowerBuilder_eq] at hran
  obtain ⟨resource, s₁, hmade, hran₁⟩ := runs_bind.1 hran
  obtain ⟨u, s₂, hslotted, hran₂⟩ := runs_bind.1 hran₁
  obtain ⟨u, s₃, hschemed, hreturned⟩ := runs_bind.1 hran₂
  obtain ⟨c, s₄, hgot, hpushed⟩ := runs_bind.1 (runs_lift.1 hreturned)
  obtain ⟨rfl, rfl⟩ := runs_get_cursor.1 hgot
  have hreturning := Body.push_wrote hpushed
  have hlater₃ := (hreturning.works fun _ => True).builder.before.trans hlater
  have hlater₂ :=
    (lowerSchema_works plugin resource fixture.schema).before hschemed hlater₃
  have hlater₁ := (lowerSlots_works resource slots).before hslotted hlater₂
  obtain ⟨hmaking, hlow, hhigh, hallocated⟩ :=
    Body.newValue_segment (runs_lift.1 hmade) hlater₁ hsound
  obtain ⟨stores, hslotting, hassigned⟩ :=
    lowerSlots_assigns hknown hsound hallocated hslotted hlater₂
  have hfunc : s₂.cursor.func = s.cursor.func :=
    hslotting.func.trans hmaking.func
  have honly₀ :=
    hassigned.onlyOn
      (by decide : libraryName "Resource" ≠ libraryName "Provider")
  obtain ⟨effects, last, hscheming, honly, hon, hstored⟩ :=
    lowerSchema_stored hknown hsound hschemed hlater₃ (hfunc ▸ hallocated)
      (Nat.lt_of_lt_of_le hhigh hslotting.count_le)
  have hsegment : s.Segment e
      (stores.map (.store (libraryName "Resource")) ++ effects) s₄ :=
    hmaking.trans (hslotting.trans hscheming)
  obtain ⟨seg, hwrote, hdone⟩ := hsegment
  refine ⟨seg, resource, _, _, hwrote.trans hreturning, hdone, hallocated,
    (honly₀.imp fun _ _ => trivial).append honly, stores, last, ?_, hassigned,
    hfunc ▸ hstored _ honly₀⟩
  rw [effectsOn_append, hassigned.effectsOn, storesOf_append, storesOf_map, hon]

end

/-! ## Components -/

section

variable {plugin : Plugin} {stem : String} {k : Nat}
  {fixture : ComponentFixture} {builder : FuncId} {s s' : Site}

/-- The builder of a component is declared after its lifecycle functions and
filled in last. -/
theorem runs_lower (hinner : Inner stem)
    (hran : Runs (fixture.lower plugin stem) s builder s') :
    ∃ slots s₁ u₁ s₂ pointer s₃ u₂, Runs (fixture.declareSlots plugin stem) s
        slots s₁ ∧ Runs (fixture.fillSlots plugin slots) s₁ u₁ s₂ ∧
      s₂.Grows Inner (s₂.builder.package.functions.size ≤ ·.index) s₃ ∧
      s₃.Prepared builder stem fixture.doc [pointer] ∧
      s₂.builder.package.functions.size ≤ builder.index ∧
      Runs (lowerBody builder (fixture.lowerBuilder plugin slots)) s₃ u₂
        s' := by
  obtain ⟨slots, s₁, hdeclared, hran₁⟩ := runs_bind.1 hran
  obtain ⟨u, s₂, hfilled, hran₂⟩ := runs_bind.1 hran₁
  obtain ⟨pointer, s₃, hinterned, hran₃⟩ := runs_bind.1 hran₂
  obtain ⟨func, s₄, hadded, hran₄⟩ := runs_bind.1 hran₃
  obtain ⟨pos, s₅, hadvanced, hran₅⟩ := runs_bind.1 hran₄
  obtain ⟨u, s₆, hplaced, hran₆⟩ := runs_bind.1 hran₅
  obtain ⟨u, s₇, htold, hran₇⟩ := runs_bind.1 hran₆
  obtain ⟨u, s₈, hlowered, hran₈⟩ := runs_bind.1 hran₇
  obtain ⟨rfl, rfl⟩ := runs_pure.1 hran₈
  have hinterning := Build.intern_adds _ (runs_lift.1 hinterned)
  have hbound : s₂.builder.package.functions.size ≤ builder.index := by
    obtain ⟨hnumber, -⟩ := Build.declare_found (runs_lift.1 hadded)
    exact Nat.le_of_eq (by rw [hnumber, hinterning.functions])
  have hadding :=
    Build.declare_above hinner _ _ s₂.builder.package.functions.size
      (runs_lift.1 hadded)
  have hadvancing := nextPos_package_adds hadvanced
  have hplacing : s₅.Above Inner _ s₆ :=
    Build.setFuncPos_above hbound pos (runs_lift.1 hplaced)
  have htelling : s₆.Above Inner _ s₇ :=
    Preserves.optionForM (fun text => .lift (Build.setDoc_above hbound text))
      htold
  have hlater :=
    hinterning.above.trans
      (hadding.trans (hadvancing.above.trans (hplacing.trans htelling)))
  have hprepared :=
    ((Build.declare_prepared (runs_lift.1 hadded)).adds hadvancing).setFuncPos
      (runs_lift.1 hplaced)
  refine ⟨slots, s₁, _, s₂, pointer, s₇, _, hdeclared, hfilled,
    hlater (Nat.le_refl _), ?_, hbound, hlowered⟩
  cases htext : fixture.doc with
  | none =>
      rw [htext] at htold
      obtain ⟨-, rfl⟩ := runs_pure.1 htold
      exact hprepared
  | some text' =>
      rw [htext] at htold
      exact hprepared.setDoc (runs_lift.1 htold)

variable (htexts : plugin.string = textType) (hinner : Inner stem)
  (hslotted : ∀ slot : LifecycleSlot, Inner (stem ++ slot.fieldName))

include htexts hinner hslotted

theorem lower_above :
    Preserves (Site.Above Inner k) (fixture.lower plugin stem) := by
  intro s builder s' hran hroom
  obtain ⟨slots, s₁, u₁, s₂, pointer, s₃, u₂, hdeclared, hfilled, hgrown, -,
      hbound, hlowered⟩ := runs_lower hinner hran
  obtain ⟨hdeclaring, -, howned, -⟩ :=
    runs_declareSlots hslotted hdeclared hroom
  have hfilling :=
    fillSlots_above htexts howned hfilled
      (Nat.le_trans hroom hdeclaring.builder.funcCount)
  have hearly := hdeclaring.trans hfilling fun _ _ _ => id
  have hroom₂ : k ≤ s₂.builder.package.functions.size :=
    Nat.le_trans hroom hearly.builder.funcCount
  have hpreparing : s₂.Above Inner k s₃ :=
    fun _ => hgrown.weaken fun _ hnew => Nat.le_trans hroom₂ hnew
  have hdone : s₃.Above Inner k s' :=
    lowerBody_above (lowerBuilder_works plugin slots fixture)
      (Nat.le_trans hroom₂ hbound) hlowered
  exact hearly.trans (hpreparing.trans hdone hroom₂) fun _ _ _ => id

omit htexts hinner hslotted

structure Made (p : Package) (plugin : Plugin) (stem : String)
    (fixture : ComponentFixture) (builder : FuncId) (slots : Slots)
    (effects : List Effect) (resource : ValueId) : Prop where
  own :
    ∃ results seg pos, p.IsOwn builder stem fixture.doc results
        (seg ++ [.ret [resource] pos]) ∧ results ≠ [] ∧
    p.Effects seg effects
  filled : SlotsFilled p plugin stem fixture.bodies slots
  fills : fixture.Fills p plugin slots builder effects resource
  lives : fixture.SetsPlainly → ∃ chains, fixture.Lives p plugin slots chains

theorem lower_made {e : Builder} (hknown : plugin.Known e.package)
    (hsound : e.Sound) (htexts : plugin.string = textType)
    (hstring : e.package.typeAt textType = .ok (.basic .string))
    (haside :
      ∀ func ∈ [plugin.setId, plugin.errwrapWrapf, plugin.removeFromState],
        e.package.Aside func)
    (hinner : Inner stem)
    (hslotted : ∀ slot : LifecycleSlot, Inner (stem ++ slot.fieldName))
    (hran : Runs (fixture.lower plugin stem) s builder s')
    (hsettled : s'.builder.Settled e) :
    ∃ slots effects resource, fixture.Made e.package plugin stem builder slots
      effects resource := by
  obtain ⟨slots, s₁, u₁, s₂, pointer, s₃, u₂, hdeclared, hfilled, hgrown,
      hprepared, hbound, hlowered⟩ := runs_lower hinner hran
  obtain ⟨-, hslotsFilled, howned, hprepares, hapart⟩ :=
    runs_declareSlots hslotted hdeclared (Nat.zero_le _)
  have hfilling := fillSlots_above htexts howned hfilled (Nat.zero_le _)
  obtain ⟨pos, cursor, hworked, hown⟩ := hprepared.lowerBody hlowered
  obtain ⟨seg, resource, pos', effects, hwrote, hdone, hfills⟩ :=
    lowerBuilder_fills hknown hsound hworked hsettled.before
  have hsettled₂ : s₂.builder.Settled e := by
    have hbuilding : s₃.Grows (fun _ => True) (· = builder) s' :=
      lowerBody_grows (lowerBuilder_works plugin slots fixture) hlowered
    refine Builder.Grows.settled
      (hgrown.builder.anyName.trans hbuilding.builder ?_) hsettled
    rintro id f - rfl
    exact hbound
  refine ⟨slots, effects, resource,
    ⟨_, seg, pos', hown _ e hwrote hsettled hsound, nofun, hdone⟩, ?_, hfills,
    fun hplain => ?_⟩
  · have hbefore := hfilling.builder.before.trans hsettled₂.before
    exact hslotsFilled.imp fun body slot ⟨hsame, hfilled⟩ =>
      ⟨hsame, hfilled.grow hbefore⟩
  · rw [fillSlots_eq] at hfilled
    obtain ⟨chains, hfulfilled, hfresh⟩ :=
      runs_fillSlots hsound htexts hstring haside hplain hfilled hprepares
        hapart hsettled₂
    exact ⟨chains, hfulfilled, hfresh.distinct⟩

end

end ComponentFixture

end SchemaLint
