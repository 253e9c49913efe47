import SchemaLint.Proofs.Fixture.Reading.Attributes
import SchemaLint.Proofs.Fixture.Reading.Live

/-!
# Set calls of built packages

Every entry that is reached has a call of its own, told apart from the others by
its position. So the calls that rules look at are those of the live entries,
each once.
-/

namespace SchemaLint

/-! ## Lists -/

section

variable {α β : Type}

end

/-! ## The setter -/

namespace Plugin.Callable

variable {p : Package} {plugin : Plugin}

theorem isSetter (hcallable : plugin.Callable p) : p.IsSetter plugin.set := by
  obtain ⟨underlying, hdeclared⟩ := hcallable.receiver
  obtain ⟨receiver, hpoints, ⟨f, hfound, -, hreceived, hnamed, -⟩, -⟩ :=
    hcallable.methods
  obtain ⟨steps, hsize⟩ :=
    Nat.exists_eq_succ_of_ne_zero
      (Nat.ne_of_gt (Nat.zero_lt_of_lt (Package.typeAt_bound hpoints)))
  have htyped : p.typeName receiver =
      .ok ("*" ++ libraryName "ResourceData") := by
    simp [Package.typeName, hsize, Package.typeNameWithin, hpoints, hdeclared]
  simp only [Package.IsSetter, Package.funcName, hfound, Access.ok_bind,
    hreceived, htyped, hnamed]
  decide

private theorem setter_instructions (hcallable : plugin.Callable p) :
    p.instructions plugin.set = .ok [] := by
  obtain ⟨receiver, -, hhas, -⟩ := hcallable.methods
  obtain ⟨f, hfound, hbodiless⟩ := hhas.bodiless
  simp [Package.instructions, hfound, Func.instructions, Func.body, hbodiless]

end Plugin.Callable

theorem Package.Aside.hasFunc {p : Package} {func : FuncId}
    (haside : p.Aside func) : p.HasFunc func := by
  obtain ⟨-, hinside, -⟩ := haside
  obtain ⟨f, hfound, -⟩ := Access.bind_eq_ok_iff.1 hinside
  exact Package.funcAt_bound hfound

theorem SlotsFilled.hasFunc {p : Package} {plugin : Plugin} {stem : String}
    {bodies : List (LifecycleSlot × FunctionFixture)} {slots : Slots}
    (hfilled : SlotsFilled p plugin stem bodies slots)
    (hremoval : p.HasFunc plugin.removeFromState) {slot : LifecycleSlot}
    {func : FuncId} (hlooked : slots.lookup slot = some func) :
    p.HasFunc func := by
  obtain ⟨-, body, -, hfilledBy⟩ := hfilled.of_lookup hlooked
  unfold FunctionFixture.FilledBy at hfilledBy
  split at hfilledBy
  · exact hfilledBy ▸ hremoval
  · obtain ⟨f, hfound, -⟩ := hfilledBy
    exact Package.funcAt_bound hfound

/-! ## Entries and calls -/

namespace SetFixture

/-- The call that is found for an entry: its name, its position and a value of
its shape, boxed. -/
structure FoundAs (p : Package) (fixture : SetFixture) (pos : Pos)
    (call : SetCall) : Prop where
  name : call.name = fixture.name
  pos : call.pos = pos
  value :
    ∃ content shape, p.operationAt call.value = .ok (.makeInterface content) ∧
    ValueShape.ofName? fixture.value = some shape ∧ shape.Shown p content

variable {p : Package} {plugin : Plugin} {fixture : SetFixture}
  {site : ValueId × Pos}

theorem SetAt.entryOf (hcallable : plugin.Callable p)
    (hsetAt : fixture.SetAt p plugin site) :
    ∃ (call : CallSite) (found : Option SetCall), RuleContext.SetsAt ⟨p, .usual⟩
        (.define site.1) call ∧ call.pos = site.2 ∧ call.takesThree ∧
      RuleContext.EntryOf ⟨p, .usual⟩ call found ∧
      if fixture.hasDynamicName then found = none
        else ∃ call, found = some call ∧ fixture.FoundAs p site.2 call := by
  obtain ⟨value, hknown, hplaced⟩ := hsetAt.pos
  obtain ⟨data, name, boxed, content, ⟨target, hcalled, hfunction⟩, hboxing,
      ⟨shape, hshaped, hshown⟩, hnamed⟩ := hsetAt.call
  obtain ⟨_, hagain, hoperation⟩ := Package.operationAt_eq_ok_iff.1 hcalled
  cases hknown.symm.trans hagain
  have hsets : RuleContext.SetsAt ⟨p, .usual⟩ (.define site.1)
      ⟨⟨target, none, [data, name, boxed]⟩, some site.1, value.pos⟩ :=
    .call hknown hoperation
      ⟨plugin.set, .function rfl hfunction, hcallable.isSetter⟩
  cases hdynamic : fixture.hasDynamicName with
  | true =>
      rw [hdynamic] at hnamed
      obtain ⟨addr, global, hread, hisGlobal⟩ := hnamed
      have hstep : p.originStep? name 0 = .ok (some (addr, 0)) := by
        simp [Package.originStep?, hread]
      have hstuck : p.originStep? addr 0 = .ok none := by
        simp [Package.originStep?, hisGlobal]
      refine ⟨_, none, hsets, hplaced, rfl,
        .unnamed rfl (Package.root_of_step hstep hstuck) ?_, by simp⟩
      intro text hconstant
      cases hisGlobal.symm.trans hconstant
  | false =>
      rw [hdynamic] at hnamed
      have hconstant : p.operationAt name =
          .ok (.const (.string fixture.name)) := by simpa using hnamed
      refine ⟨_, some ⟨fixture.name, boxed, value.pos⟩, hsets, hplaced, rfl,
        .named rfl (Package.IsConst.root hconstant) hconstant, ?_⟩
      exact ⟨_, rfl, rfl, hplaced, content, shape, hboxing, hshaped, hshown⟩

end SetFixture

namespace ComponentFixture

/-- The entry is in a body that is reached, and its call is at the value and
position. -/
def Places (fixture : ComponentFixture) (chains : LifecycleSlot → List Level)
    (entry : SetEntry) (site : ValueId × Pos) : Prop :=
  ∃ body level, fixture.Meets chains entry.slot entry.depth body level ∧
    body.sets[entry.index]? = some entry.set ∧
    level.sites[entry.index]? = some site

section

variable {p : Package} {plugin : Plugin} {stem : String} {slots : Slots}
  {fixture : ComponentFixture} {chains : LifecycleSlot → List Level}

theorem Places.site_eq {entry : SetEntry} {site site' : ValueId × Pos}
    (hone : fixture.Places chains entry site)
    (hother : fixture.Places chains entry site') : site = site' := by
  obtain ⟨body, level, hmeets, -, hat⟩ := hone
  obtain ⟨body', level', hmeets', -, hat_'⟩ := hother
  cases hmeets.level.symm.trans hmeets'.level
  exact Option.some.inj (hat.symm.trans hat_')

theorem Places.isLive_iff {entry : SetEntry} {site : ValueId × Pos}
    (hplaces : fixture.Places chains entry site) :
    fixture.IsLive entry ↔ entry.set.hasDynamicName = false := by
  obtain ⟨body, level, hmeets, hlisted, -⟩ := hplaces
  exact ⟨IsLive.constant,
    fun hconstant => ⟨hmeets.reached, ⟨body, hmeets.body, hlisted⟩, hconstant⟩⟩

variable (hfilled : SlotsFilled p plugin stem fixture.bodies slots)
  (hlives : fixture.Lives p plugin slots chains)

include hfilled hlives

theorem Places.setAt {entry : SetEntry} {site : ValueId × Pos}
    (hplaces : fixture.Places chains entry site) :
    entry.set.SetAt p plugin site := by
  obtain ⟨body, level, hmeets, hlisted, hat⟩ := hplaces
  obtain ⟨found, hat_', hsetAt⟩ :=
    exists_getElem?_right (hmeets.performs hfilled hlives).sets hlisted
  cases hat.symm.trans hat_'
  exact hsetAt

private theorem exists_places {slot : LifecycleSlot} {depth : Nat}
    {body : FunctionFixture} {level : Level} {site : ValueId × Pos}
    (hmeets : fixture.Meets chains slot depth body level)
    (hmember : site ∈ level.sites) :
    ∃ entry, fixture.Places chains entry site := by
  obtain ⟨index, hat⟩ := List.mem_iff_getElem?.1 hmember
  obtain ⟨set, hlisted, -⟩ :=
    exists_getElem?_right (hmeets.performs hfilled hlives).sets.flip hat
  exact ⟨⟨slot, depth, index, set⟩, body, level, hmeets, hlisted, hat⟩

private theorem IsLive.exists_places {entry : SetEntry}
    (hlive : fixture.IsLive entry) :
    ∃ site, fixture.Places chains entry site := by
  obtain ⟨body, hfound, hlisted⟩ := hlive.listed
  obtain ⟨level, hat⟩ := exists_level hfilled hlives hfound
  have hmeets : fixture.Meets chains entry.slot entry.depth body level :=
    ⟨hlive.reached, hfound, hat⟩
  obtain ⟨site, hthere, -⟩ :=
    exists_getElem?_right (hmeets.performs hfilled hlives).sets hlisted
  exact ⟨site, body, level, hmeets, hlisted, hthere⟩

theorem Meets.positions {slot : LifecycleSlot} {depth : Nat}
    {body : FunctionFixture} {level : Level} {pos : Pos}
    (hmeets : fixture.Meets chains slot depth body level)
    (hmember : pos ∈ level.positions) :
    ∃ (i : Nat) (func : FuncId), slots[i]? = some (slot, func) ∧
      pos ∈ (chains slot).flatMap Level.positions := by
  obtain ⟨own, hgiven, -⟩ := Option.bind_eq_some_iff.1 hmeets.body
  obtain ⟨func, -, -, -, hlisted, -⟩ := fulfils hfilled hlives hgiven
  obtain ⟨i, hfound⟩ := List.mem_iff_getElem?.1 hlisted
  exact ⟨i, func, hfound, List.mem_flatMap.2
      ⟨level, List.mem_iff_getElem?.2 ⟨depth, hmeets.level⟩, hmember⟩⟩

/-- A position is in one slot, there in one level, and there in one place. -/
theorem Meets.place_eq {slot slot' : LifecycleSlot}
    {depth depth' index index' : Nat} {body body' : FunctionFixture}
    {level level' : Level} {pos : Pos}
    (hone : fixture.Meets chains slot depth body level)
    (hother : fixture.Meets chains slot' depth' body' level')
    (hfirst : level.positions[index]? = some pos)
    (hsecond : level'.positions[index']? = some pos) :
    slot = slot' ∧ depth = depth' ∧ index = index' := by
  have hmember := List.mem_iff_getElem?.2 ⟨_, hfirst⟩
  have hmember' := List.mem_iff_getElem?.2 ⟨_, hsecond⟩
  obtain ⟨i, func, hfound, hinSlot⟩ := hone.positions hfilled hlives hmember
  obtain ⟨j, func', hfound', hinSlot'⟩ :=
    hother.positions hfilled hlives hmember'
  obtain rfl :=
    eq_of_flatMap_nodup hlives.positions hfound hfound' hinSlot hinSlot'
  cases hfound.symm.trans hfound'
  have hinChain :=
    (List.nodup_flatMap.1 hlives.positions).1 _
      (List.mem_iff_getElem?.2 ⟨i, hfound⟩)
  obtain rfl :=
    eq_of_flatMap_nodup hinChain hone.level hother.level hmember hmember'
  cases hone.level.symm.trans hother.level
  have hinLevel :=
    (List.nodup_flatMap.1 hinChain).1 level
      (List.mem_iff_getElem?.2 ⟨_, hone.level⟩)
  exact ⟨rfl, rfl, (List.getElem?_inj (List.getElem?_eq_some_iff.1 hfirst).1
      hinLevel).1 (hfirst.trans hsecond.symm)⟩

theorem Places.eq_of_pos_eq {entry entry' : SetEntry}
    {site site' : ValueId × Pos} (hone : fixture.Places chains entry site)
    (hother : fixture.Places chains entry' site') (hsame : site.2 = site'.2) :
    entry = entry' := by
  obtain ⟨slot, depth, index, set⟩ := entry
  obtain ⟨slot', depth', index', set'⟩ := entry'
  obtain ⟨body, level, hmeets, hlisted, hat⟩ := hone
  obtain ⟨body', level', hmeets', hlisted', hat_'⟩ := hother
  have hfirst : level.positions[index]? = some site.2 := by
    rw [Level.positions, List.getElem?_map, hat, Option.map_some]
  have hsecond : level'.positions[index']? = some site.2 := by
    rw [Level.positions, List.getElem?_map, hat_', Option.map_some, hsame]
  obtain ⟨rfl, rfl, rfl⟩ :=
    hmeets.place_eq hfilled hlives hmeets' hfirst hsecond
  cases hmeets.body.symm.trans hmeets'.body
  cases hlisted.symm.trans hlisted'
  rfl

/-! ## The list of calls -/

def Stands (fixture : ComponentFixture) (chains : LifecycleSlot → List Level)
    (call : CallSite) (entry : SetEntry × Pos) : Prop :=
  ∃ id, call.identity = (some id, entry.2) ∧
    fixture.Places chains entry.1 (id, entry.2)

omit hfilled hlives in
theorem Stands.value_eq {call call' : CallSite} {entry entry' : SetEntry × Pos}
    (hone : fixture.Stands chains call entry)
    (hother : fixture.Stands chains call' entry') (hsame : entry.1 = entry'.1) :
    call.value = call'.value := by
  obtain ⟨id, hidentity, hplaces⟩ := hone
  obtain ⟨id', hidentity', hplaces'⟩ := hother
  rw [← hsame] at hplaces'
  obtain ⟨hidEq, -⟩ := Prod.mk.inj (hplaces.site_eq hplaces')
  calc call.value = some id := congrArg Prod.fst hidentity
    _ = some id' := by rw [hidEq]
    _ = call'.value := (congrArg Prod.fst hidentity').symm

omit hfilled hlives in
theorem Stands.pos_eq {call : CallSite} {entry : SetEntry × Pos}
    (hstands : fixture.Stands chains call entry) : call.pos = entry.2 := by
  obtain ⟨id, hidentity, -⟩ := hstands
  exact congrArg Prod.snd hidentity

theorem Stands.entry_eq {call call' : CallSite} {entry entry' : SetEntry × Pos}
    (hone : fixture.Stands chains call entry)
    (hother : fixture.Stands chains call' entry') (hsame : entry.2 = entry'.2) :
    entry.1 = entry'.1 := by
  obtain ⟨id, -, hplaces⟩ := hone
  obtain ⟨id', -, hplaces'⟩ := hother
  exact hplaces.eq_of_pos_eq hfilled hlives hplaces' hsame

private theorem listsLive_of_stands {met : List CallSite}
    {place : CallSite → SetEntry × Pos}
    (hstands : ∀ call ∈ met, fixture.Stands chains call (place call))
    (hdistinct : (met.map CallSite.value).Nodup)
    (hcomplete : ∀ entry, fixture.IsLive entry →
        ∃ call ∈ met, ∃ pos, fixture.Stands chains call (entry, pos)) :
    fixture.ListsLive ((met.filter fun call =>
      !(place call).1.set.hasDynamicName).map place) := by
  have hentries : ∀ call ∈ met,
      ∀ call' ∈ met, (place call).1 = (place call').1 → call = call' := by
    intro call hmember call' hmember' hsame
    exact List.inj_on_of_nodup_map hdistinct hmember hmember'
      ((hstands call hmember).value_eq (hstands call' hmember') hsame)
  have hpositions : ∀ call ∈ met,
      ∀ call' ∈ met, (place call).2 = (place call').2 → call = call' := by
    intro call hmember call' hmember' hsame
    exact hentries call hmember call' hmember' ((hstands call hmember).entry_eq
      hfilled hlives (hstands call' hmember') hsame)
  have hnodup :=
    hdistinct.of_map.filter fun call => !(place call).1.set.hasDynamicName
  refine ⟨?_, ?_, fun entry => ?_⟩
  · rw [List.map_map]
    exact hnodup.map_on fun call hkept call' hkept' =>
      hentries call (List.mem_of_mem_filter hkept) call'
        (List.mem_of_mem_filter hkept')
  · rw [List.map_map]
    exact hnodup.map_on fun call hkept call' hkept' =>
      hpositions call (List.mem_of_mem_filter hkept) call'
        (List.mem_of_mem_filter hkept')
  · simp only [List.map_map, List.mem_map, List.mem_filter, Function.comp_apply]
    constructor
    · rintro ⟨call, ⟨hmember, hconstant⟩, rfl⟩
      obtain ⟨id, -, hplaces⟩ := hstands call hmember
      exact hplaces.isLive_iff.2 (by simpa using hconstant)
    · intro hlive
      obtain ⟨call, hmember, pos, hown⟩ := hcomplete entry hlive
      have hsame : (place call).1 = entry :=
        (hstands call hmember).entry_eq hfilled hlives hown
          ((hstands call hmember).pos_eq.symm.trans hown.pos_eq)
      exact ⟨call, ⟨hmember, by rw [hsame]; simp [hlive.constant]⟩, hsame⟩

variable (hcallable : plugin.Callable p)

include hcallable

theorem Stands.entryOf {call : CallSite} {entry : SetEntry × Pos}
    (hstands : fixture.Stands chains call entry) {i : Instruction}
    (hsets : RuleContext.SetsAt ⟨p, .usual⟩ i call) :
    call.takesThree ∧ ∀ found, RuleContext.EntryOf ⟨p, .usual⟩ call found →
        if entry.1.set.hasDynamicName then found = none
          else ∃ call, found = some call ∧
            entry.1.set.FoundAs p entry.2 call := by
  obtain ⟨id, hidentity, hplaces⟩ := hstands
  obtain ⟨call', found, hsets', -, hwhole, hown, hlisted⟩ :=
    (hplaces.setAt hfilled hlives).entryOf hcallable
  obtain rfl := hsets.eq_define (congrArg Prod.fst hidentity)
  obtain rfl := hsets.unique hsets'
  refine ⟨hwhole, fun other hown' => ?_⟩
  rw [hown'.unique hown]
  exact hlisted

theorem Places.exists_stands {entry : SetEntry} {site : ValueId × Pos}
    (hplaces : fixture.Places chains entry site) :
    ∃ call, RuleContext.SetsAt ⟨p, .usual⟩ (.define site.1) call ∧
      fixture.Stands chains call (entry, site.2) := by
  obtain ⟨call, -, hsets, hplaced, -⟩ :=
    (hplaces.setAt hfilled hlives).entryOf hcallable
  exact ⟨call, hsets, site.1, Prod.ext hsets.value_eq hplaced, hplaces⟩

variable (hremoval : p.Aside plugin.removeFromState) {component : Component}
  (hdeclared : component.declared = slots)

include hremoval hdeclared

theorem exists_stands {i : Instruction} {call : CallSite}
    (hreached : RuleContext.ReachedBySetting ⟨p, .usual⟩ component i)
    (hsets : RuleContext.SetsAt ⟨p, .usual⟩ i call) :
    ∃ entry, fixture.Stands chains call entry := by
  obtain ⟨slot, depth, body, level, id, pos, hmeets, hmember, rfl⟩ :=
    setsAt_reached hfilled hlives hremoval hdeclared
      hcallable.setter_instructions hreached hsets
  obtain ⟨entry, hplaces⟩ := exists_places hfilled hlives hmeets hmember
  obtain ⟨call', hsets', hstands⟩ :=
    hplaces.exists_stands hfilled hlives hcallable
  obtain rfl := hsets.unique hsets'
  exact ⟨(entry, pos), hstands⟩

theorem setCalls_live (hwf : p.WellFormed) :
    ∃ order calls, fixture.ListsLive order ∧
      (RuleContext.setCalls ⟨p, .usual⟩ component).Yields calls ∧
      List.Forall₂ (fun entry call => entry.1.set.FoundAs p entry.2 call) order
        calls := by
  have hinside (slot : LifecycleSlot) (func : FuncId)
      (hstarted : component.lifecycle? slot = some func) :
      p.HasFunc func := by
    rw [Component.lifecycle?, hdeclared] at hstarted
    exact hfilled.hasFunc hremoval.hasFunc hstarted
  obtain ⟨visited, found, -, hreached, hrelated, houtcome⟩ :=
    @RuleContext.setCalls_outcome ⟨p, .usual⟩ hwf component hinside
  have hplain : ∀ i ∈ visited, ∀ call, RuleContext.SetsAt ⟨p, .usual⟩ i call →
      ∃ id, i = .define id := by
    intro i hmember call hsets
    obtain ⟨entry, id, hidentity, -⟩ :=
      exists_stands hfilled hlives hcallable hremoval hdeclared
        ((hreached i).1 hmember) hsets
    exact ⟨id, hsets.eq_define (congrArg Prod.fst hidentity)⟩
  have hfirsts := RuleContext.metSites_firstVisits hplain
  generalize RuleContext.metSites ⟨p, .usual⟩ visited =
    met at hrelated houtcome hfirsts
  have hsetting : ∀ call ∈ met,
      ∃ i ∈ visited, RuleContext.SetsAt ⟨p, .usual⟩ i call := by
    intro call hmember
    obtain ⟨id, hinside, hsets⟩ := (hfirsts.mem_iff call).1 hmember
    exact ⟨_, hinside, hsets⟩
  have heach : ∀ call ∈ met, ∃ entry, fixture.Stands chains call entry := by
    intro call hmember
    obtain ⟨i, hinside, hsets⟩ := hsetting call hmember
    exact exists_stands hfilled hlives hcallable hremoval hdeclared
      ((hreached i).1 hinside) hsets
  choose! place hstands using heach
  have hwhole : ∀ call ∈ met, call.takesThree := by
    intro call hmember
    obtain ⟨i, -, hsets⟩ := hsetting call hmember
    exact ((hstands call hmember).entryOf hfilled hlives hcallable hsets).1
  rw [List.takeWhile_eq_self_iff.2 hwhole] at hrelated
  have hnone : met.find? (!·.takesThree) = none :=
    List.find?_eq_none.2 fun call hmember => by simp [hwhole call hmember]
  rw [hnone] at houtcome
  refine ⟨(met.filter fun call => !(place call).1.set.hasDynamicName).map place,
    _, ?_, houtcome, ?_⟩
  · refine listsLive_of_stands hfilled hlives hstands hfirsts.distinct
      fun entry hlive => ?_
    obtain ⟨site, hplaces⟩ := hlive.exists_places hfilled hlives
    obtain ⟨call, hsets, hown⟩ := hplaces.exists_stands hfilled hlives hcallable
    obtain ⟨body, level, hmeets, -, hat⟩ := hplaces
    have hinside :=
      hmeets.reachedBySetting hfilled hlives hdeclared
        (List.mem_iff_getElem?.2 ⟨_, hat⟩) .usual
    exact ⟨call,
      (hfirsts.mem_iff call).2 ⟨site.1, (hreached _).2 hinside, hsets⟩, site.2,
      hown⟩
  · refine List.forall₂_map_left_iff.2
      (forall₂_filter_filterMap_id hrelated fun call hmember found hown => ?_)
    obtain ⟨i, -, hsets⟩ := hsetting call hmember
    have hlisted :=
      ((hstands call hmember).entryOf hfilled hlives hcallable hsets).2 found
        hown
    cases hdynamic : (place call).1.set.hasDynamicName <;>
      simpa [hdynamic] using hlisted

end

end ComponentFixture

end SchemaLint
