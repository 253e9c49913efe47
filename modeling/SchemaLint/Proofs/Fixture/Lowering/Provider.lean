import SchemaLint.Proofs.Fixture.Lowering.Components

/-!
# Lowering providers

The components are lowered one after the other, and last the entry point that
calls their builders.
-/

namespace SchemaLint

/-! ## Components -/

/-- What is named after a component does not have the name of the entry
point. -/
theorem inner_stem {kind : String}
    (his : kind = "data_source" ∨ kind = "resource") (name tail : String) :
    Inner (camel (kind ++ "_" ++ name) ++ tail) := by
  intro hsame
  have hfirst := congrArg (fun text : String => text.toList.head?) hsame
  rcases his with rfl | rfl <;> simp [camel, camelFrom] at hfirst

section

variable {plugin : Plugin} {kind : String}
  (his : kind = "data_source" ∨ kind = "resource")
  (htexts : plugin.string = textType)

include his

theorem inner_camel (name : String) : Inner (camel (kind ++ "_" ++ name)) := by
  have hinner := inner_stem his name ""
  rwa [String.append_empty] at hinner

include htexts

theorem lowerComponents_above {k : Nat}
    (components : List (String × ComponentFixture)) :
    Preserves (Site.Above Inner k)
      (lowerComponents plugin kind components) := by
  refine .mapM fun (name, fixture) _ => .bind (inFile_above ?_) fun _ => .pure _
  exact ComponentFixture.lower_above htexts (inner_camel his name) fun slot =>
    inner_stem his name slot.fieldName

def Lowered.Builds (p : Package) (plugin : Plugin) (kind : String)
    (component : String × ComponentFixture) (lowered : Lowered) : Prop :=
  lowered.name = component.1 ∧ lowered.shim = component.2.shim ∧
    ∃ slots effects resource,
      component.2.Made p plugin (camel (kind ++ "_" ++ component.1))
        lowered.builder slots effects
      resource

private theorem lowerComponents_builds {e : Builder}
    (hknown : plugin.Known e.package) (hsound : e.Sound)
    (hstring : e.package.typeAt textType = .ok (.basic .string))
    (haside :
      ∀ func ∈ [plugin.setId, plugin.errwrapWrapf, plugin.removeFromState],
        e.package.Aside func)
    {components : List (String × ComponentFixture)}
    {s s' : Site} {list : List Lowered}
    (hran : Runs (lowerComponents plugin kind components) s list s')
    (hsettled : s'.builder.Settled e) :
    List.Forall₂ (Lowered.Builds e.package plugin kind) components list := by
  induction components generalizing s list with
  | nil =>
      obtain ⟨rfl, rfl⟩ := runs_pure.1 hran
      exact .nil
  | cons component components ih =>
      obtain ⟨name, fixture⟩ := component
      obtain ⟨lowered, others, s₁, hfirst, hmore, rfl⟩ := runs_mapM_cons.1 hran
      obtain ⟨builder, s₂, hbuilt, hran₁⟩ := runs_bind.1 hfirst
      obtain ⟨rfl, rfl⟩ := runs_pure.1 hran₁
      obtain ⟨lines, hlowering, -⟩ := runs_inFile hbuilt
      have hgrowing :=
        lowerComponents_above his htexts components hmore (Nat.le_refl _)
      have hmade :=
        ComponentFixture.lower_made hknown hsound htexts hstring haside
          (inner_camel his name)
          (fun slot => inner_stem his name slot.fieldName) hlowering
          (hgrowing.builder.settled hsettled)
      exact .cons ⟨rfl, rfl, hmade⟩ (ih hmore)

end

/-! ## Maps of components -/

def CallsAndUpdates (callees : FuncId → Prop) (map : ValueId)
    (effects : List Effect) : Prop :=
  ∀ effect ∈ effects, (∃ callee, effect = .call callee ∧ callees callee) ∨
    ∃ entry, effect = .update map entry

namespace CallsAndUpdates

variable {callees : FuncId → Prop} {map : ValueId}
  {effects first second : List Effect}

theorem nil : CallsAndUpdates callees map [] := nofun

private theorem cons_call {callee : FuncId} (hcalled : callees callee)
    (hrest : CallsAndUpdates callees map effects) :
    CallsAndUpdates callees map (.call callee :: effects) :=
  List.forall_mem_cons.2 ⟨.inl ⟨callee, rfl, hcalled⟩, hrest⟩

private theorem cons_update (entry : MapEntry)
    (hrest : CallsAndUpdates callees map effects) :
    CallsAndUpdates callees map (.update map entry :: effects) :=
  List.forall_mem_cons.2 ⟨.inr ⟨entry, rfl⟩, hrest⟩

theorem imp {more : FuncId → Prop} (honly : CallsAndUpdates callees map effects)
    (hweaker : ∀ func, callees func → more func) :
    CallsAndUpdates more map effects := by
  intro effect hmember
  rcases honly effect hmember with ⟨callee, hsame, hholds⟩ | hupdated
  · exact .inl ⟨callee, hsame, hweaker callee hholds⟩
  · exact .inr hupdated

theorem append (hone : CallsAndUpdates callees map first)
    (htwo : CallsAndUpdates callees map second) :
    CallsAndUpdates callees map (first ++ second) :=
  List.forall_mem_append.2 ⟨hone, htwo⟩

theorem storesOf (honly : CallsAndUpdates callees map effects) (type : String) :
    storesOf type effects = [] := by
  rw [SchemaLint.storesOf, List.filterMap_eq_nil_iff]
  intro effect hmember
  rcases honly effect hmember with ⟨callee, rfl, -⟩ | ⟨entry, rfl⟩ <;> rfl

theorem updatesOf (honly : CallsAndUpdates callees map effects)
    {other : ValueId} (hapart : map ≠ other) :
    updatesOf other effects = [] := by
  rw [SchemaLint.updatesOf, List.filterMap_eq_nil_iff]
  intro effect hmember
  rcases honly effect hmember with ⟨callee, rfl, -⟩ | ⟨entry, rfl⟩
  · rfl
  · simp [hapart]

theorem calleesOf (honly : CallsAndUpdates callees map effects) :
    ∀ callee ∈ calleesOf effects, callees callee := by
  intro callee hmember
  obtain ⟨effect, hinside, hcalled⟩ := List.mem_filterMap.1 hmember
  rcases honly effect hinside with ⟨found, rfl, hholds⟩ | ⟨entry, rfl⟩
  · cases hcalled
    exact hholds
  · cases hcalled

end CallsAndUpdates

/-- The entry of a component: a call of its builder, or of the shim with such a
call. -/
def Lowered.IsEntry (p : Package) (plugin : Plugin) (component : Lowered)
    (entry : MapEntry) : Prop :=
  p.IsConst entry.key (.string component.name) ∧
    if component.shim then
      ∃ name made, p.IsCall entry.value plugin.resourceShim [name, made] ∧
        p.IsCall made component.builder []
    else p.IsCall entry.value component.builder []

def Lowered.Calls (plugin : Plugin) (components : List Lowered)
    (callee : FuncId) : Prop :=
  callee = plugin.resourceShim ∨
    ∃ component ∈ components, callee = component.builder

theorem Lowered.Calls.mono {plugin : Plugin} {components more : List Lowered}
    {callee : FuncId} (hpart : components ⊆ more)
    (hcalls : Lowered.Calls plugin components callee) :
    Lowered.Calls plugin more callee :=
  hcalls.imp id fun ⟨component, hmember, hsame⟩ =>
    ⟨component, hpart hmember, hsame⟩

def lowerValue (plugin : Plugin) (component : Lowered) (made : ValueId) :
    Lower ValueId := do
  if component.shim then
    Body.call plugin.resourceShim [← Build.constString component.name, made]
  else return made

theorem lowerEntry_eq (plugin : Plugin) (map : ValueId) (component : Lowered) :
    lowerEntry plugin map component = (do
      nextLine
      let made ← Body.call component.builder []
      let value ← lowerValue plugin component made
      Body.mapUpdate map (← Build.constString component.name) value) := by
  unfold lowerEntry lowerValue
  cases component.shim with
  | false => rfl
  | true => simp only [if_true, bind_assoc]

section

variable {names : String → Prop} (plugin : Plugin)

private theorem lowerEntry_works (map : ValueId) (component : Lowered) :
    Preserves (Site.Works names) (lowerEntry plugin map component) := by
  rw [lowerEntry_eq]
  refine .bind nextLine_adds.works fun _ =>
    .bind (.lift (Body.call_works _ _)) fun made => .bind ?_ fun _ => ?_
  · unfold lowerValue
    split
    · exact .bind (.lift (Build.constOf_adds _ _).works) fun _ =>
        .lift (Body.call_works _ _)
    · exact .pure _
  · exact .bind (.lift (Build.constOf_adds _ _).works) fun _ =>
      .lift (Body.pushAt_works _)

theorem lowerMap_works (provider : ValueId) (field : String)
    (components : List Lowered) :
    Preserves (Site.Works names)
      (lowerMap plugin provider field components) := by
  refine .bind (.lift (Body.define_works _ _)) fun map => ?_
  refine .bind (.forM fun component _ => lowerEntry_works plugin map component)
    fun _ => ?_
  exact .discard (.lift (Body.storeField_works _ _ _))

end

section

variable {plugin : Plugin} {e : Builder} (hsound : e.Sound) {s s' : Site}
  {u : Unit}

include hsound

private theorem lowerEntry_segment {map : ValueId} {component : Lowered}
    (hran : Runs (lowerEntry plugin map component) s u s')
    (hlater : s'.builder.Before e) :
    ∃ entry effects, s.Segment e effects s' ∧
      CallsAndUpdates (Lowered.Calls plugin [component]) map effects ∧
      updatesOf map effects = [entry] ∧
      component.IsEntry e.package plugin entry := by
  rw [lowerEntry_eq] at hran
  obtain ⟨u, s₁, hmoved, hran₁⟩ := runs_bind.1 hran
  obtain ⟨made, s₂, hcalled, hran₂⟩ := runs_bind.1 hran₁
  obtain ⟨value, s₃, hchosen, hran₃⟩ := runs_bind.1 hran₂
  obtain ⟨key, s₄, hconstant, hupdated⟩ := runs_bind.1 hran₃
  obtain ⟨pos, hupdating⟩ :=
    Body.mapUpdate_segment (e := e) (runs_lift.1 hupdated)
  obtain ⟨hadding, hfound⟩ := Build.runs_constOf (runs_lift.1 hconstant)
  have hisKey := (hupdating.before.trans hlater).operationAt hfound
  have htail : s₃.Segment e [.update map ⟨key, value, pos⟩] s' :=
    .adds_left hadding hupdating
  have hlater₃ := htail.before.trans hlater
  have hmoving := nextLine_adds hmoved
  have hown : Lowered.Calls plugin [component] component.builder :=
    .inr ⟨component, List.mem_singleton.2 rfl, rfl⟩
  unfold lowerValue at hchosen
  unfold Lowered.IsEntry
  split at hchosen
  · next hshimmed =>
      obtain ⟨name, s₅, htold, hwrapped⟩ := runs_bind.1 hchosen
      obtain ⟨hwrapping, hisWrapped⟩ :=
        Body.call_segment (runs_lift.1 hwrapped) hlater₃ hsound
      obtain ⟨htelling, -⟩ := Build.runs_constOf (runs_lift.1 htold)
      have hwrap : s₂.Segment e [.call plugin.resourceShim] s₃ :=
        .adds_left htelling hwrapping
      obtain ⟨hcalling, hisCall⟩ :=
        Body.call_segment (runs_lift.1 hcalled) (hwrap.before.trans hlater₃)
          hsound
      have hsegment : s.Segment e
          [.call component.builder, .call plugin.resourceShim,
              .update map ⟨key, value, pos⟩] s' :=
        .adds_left hmoving (hcalling.trans (hwrap.trans htail))
      refine ⟨⟨key, value, pos⟩, _, hsegment,
        .cons_call hown (.cons_call (.inl rfl) (.cons_update _ .nil)), ?_,
        hisKey, ?_⟩
      · simp [updatesOf]
      · rw [if_pos hshimmed]
        exact ⟨name, made, hisWrapped, hisCall⟩
  · next hdirect =>
      obtain ⟨rfl, rfl⟩ := runs_pure.1 hchosen
      obtain ⟨hcalling, hisCall⟩ :=
        Body.call_segment (runs_lift.1 hcalled) hlater₃ hsound
      have hsegment : s.Segment e
          [.call component.builder, .update map ⟨key, value, pos⟩] s' :=
        .adds_left hmoving (hcalling.trans htail)
      refine ⟨⟨key, value, pos⟩, _, hsegment,
        .cons_call hown (.cons_update _ .nil), ?_, hisKey, ?_⟩
      · simp [updatesOf]
      · rwa [if_neg hdirect]

theorem lowerEntries_segment {map : ValueId} {components : List Lowered}
    (hran : Runs (components.forM (lowerEntry plugin map)) s u s')
    (hlater : s'.builder.Before e) :
    ∃ effects, s.Segment e effects s' ∧
      CallsAndUpdates (Lowered.Calls plugin components) map effects ∧
      List.Forall₂ (Lowered.IsEntry e.package plugin) components
        (updatesOf map effects) := by
  induction components generalizing s with
  | nil =>
      obtain ⟨-, rfl⟩ := runs_pure.1 hran
      exact ⟨[], .of_adds (.refl _), .nil, .nil⟩
  | cons component components ih =>
      obtain ⟨u, s₁, hfirst, hran₁⟩ := runs_bind.1 hran
      obtain ⟨others, hsegment, honly, hentries⟩ := ih hran₁
      obtain ⟨entry, effects, hentering, hown, hupdates, hisEntry⟩ :=
        lowerEntry_segment hsound hfirst (hsegment.before.trans hlater)
      refine ⟨_, hentering.trans hsegment, (hown.imp ?_).append (honly.imp ?_),
        ?_⟩
      · exact fun _ => .mono (by simp)
      · exact fun _ => .mono (by simp)
      · rw [updatesOf_append, hupdates]
        exact .cons hisEntry hentries

private theorem lowerMap_segment (hknown : plugin.Known e.package)
    {func : FuncId} {provider : ValueId}
    (hallocated : e.package.IsAllocated func provider plugin.provider)
    {field : String} (hmember : field ∈ Plugin.providerFields)
    {components : List Lowered}
    (hran : Runs (lowerMap plugin provider field components) s u s')
    (hlater : s'.builder.Before e) :
    ∃ map pos effects, s.Segment e (effects ++
        [.store (libraryName "Provider") ⟨provider, field, map, pos⟩]) s' ∧
      (s.count ≤ map.index ∧ map.index < s'.count ∧
        e.package.IsMade s.cursor.func map) ∧
      CallsAndUpdates (Lowered.Calls plugin components) map effects ∧
      List.Forall₂ (Lowered.IsEntry e.package plugin) components
        (updatesOf map effects) := by
  obtain ⟨map, s₁, hmade, hran₁⟩ := runs_bind.1 hran
  obtain ⟨u, s₂, hentered, hstored⟩ := runs_bind.1 hran₁
  obtain ⟨addr, hstored⟩ := runs_discard.1 hstored
  obtain ⟨pos, hstoring⟩ :=
    Body.storeField_segment (runs_lift.1 hstored) hlater hsound hallocated
      hknown.provider (by decide) hmember
  obtain ⟨effects, hentering, honly, hentries⟩ :=
    lowerEntries_segment hsound hentered (hstoring.before.trans hlater)
  have htail := hentering.trans hstoring
  obtain ⟨hmaking, hlow, hhigh, hisMade⟩ :=
    Body.makeMap_segment (runs_lift.1 hmade) (htail.before.trans hlater)
  exact ⟨map, pos, effects, hmaking.trans htail,
    ⟨hlow, Nat.lt_of_lt_of_le hhigh htail.count_le, hisMade⟩, honly, hentries⟩

end

/-! ## The entry point -/

def lowerProvider (plugin : Plugin) (dataSources resources : List Lowered) :
    Lower Unit := do
  let provider ← Body.newValue plugin.provider
  lowerMap plugin provider "DataSourcesMap" dataSources
  lowerMap plugin provider "ResourcesMap" resources
  Body.ret [← Body.makeInterface provider plugin.resourceProvider]

def HoldsComponents (p : Package) (plugin : Plugin) (func : FuncId)
    (effects : List Effect) (map : ValueId) (components : List Lowered) :
    Prop :=
  p.IsMade func map ∧
    List.Forall₂ (Lowered.IsEntry p plugin) components (updatesOf map effects)

structure IsEntryPoint (p : Package) (plugin : Plugin)
    (dataSources resources : List Lowered) (func : FuncId)
    (effects : List Effect) : Prop where
  maps :
    ∃ provider map pos map' pos', storesOf (libraryName "Provider") effects =
      [⟨provider, "DataSourcesMap", map, pos⟩,
        ⟨provider, "ResourcesMap", map', pos'⟩] ∧
    HoldsComponents p plugin func effects map dataSources ∧
    HoldsComponents p plugin func effects map' resources
  calls :
    ∀ callee ∈ calleesOf effects, Lowered.Calls plugin
      (dataSources ++ resources) callee

section

variable {plugin : Plugin} {s s' : Site} {u : Unit}
  {dataSources resources : List Lowered}

theorem lowerProvider_works {names : String → Prop} (plugin : Plugin)
    (dataSources resources : List Lowered) :
    Preserves (Site.Works names)
      (lowerProvider plugin dataSources resources) := by
  refine .bind (.lift (Body.alloc_works _ _)) fun provider =>
    .bind (lowerMap_works plugin provider _ _) fun _ => ?_
  refine .bind (lowerMap_works plugin provider _ _) fun _ =>
    .bind (.lift (Body.define_works _ _)) fun _ => ?_
  exact .lift (Body.ret_works _)

private theorem lowerProvider_segment {e : Builder} (hsound : e.Sound)
    (hknown : plugin.Known e.package)
    (hran : Runs (lowerProvider plugin dataSources resources) s u s')
    (hlater : s'.builder.Before e) :
    ∃ effects, s.Segment e effects s' ∧
      IsEntryPoint e.package plugin dataSources resources s.cursor.func
        effects := by
  obtain ⟨provider, s₁, hmade, hran₁⟩ := runs_bind.1 hran
  obtain ⟨u, s₂, hfirst, hran₂⟩ := runs_bind.1 hran₁
  obtain ⟨u, s₃, hsecond, hran₃⟩ := runs_bind.1 hran₂
  obtain ⟨boxed, s₄, hboxing, hreturned⟩ := runs_bind.1 hran₃
  have hreturning : s₄.Segment e [] s' :=
    Body.ret_segment (runs_lift.1 hreturned)
  obtain ⟨hboxing, -⟩ :=
    Body.define_segment (runs_lift.1 hboxing) (hreturning.before.trans hlater)
      ⟨nofun, nofun⟩
  have htail : s₃.Segment e [] s' := hboxing.trans hreturning
  have hlater₃ := htail.before.trans hlater
  have hlater₂ :=
    (lowerMap_works plugin provider _ resources).before hsecond hlater₃
  have hlater₁ :=
    (lowerMap_works plugin provider _ dataSources).before hfirst hlater₂
  obtain ⟨hmaking, -, -, hallocated⟩ :=
    Body.newValue_segment (runs_lift.1 hmade) hlater₁ hsound
  obtain ⟨map, pos, effects, hmapping, ⟨-, hhigh, hisMade⟩, honly, hentries⟩ :=
    lowerMap_segment hsound hknown hallocated (by decide) hfirst hlater₂
  obtain ⟨map', pos', effects', hmapping', ⟨hlow, -, hisMade'⟩, honly',
      hentries'⟩ :=
    lowerMap_segment hsound hknown hallocated (by decide) hsecond hlater₃
  have hapart : map ≠ map' := by
    rintro rfl
    omega
  let stored : Effect :=
    .store (libraryName "Provider") ⟨provider, "DataSourcesMap", map, pos⟩
  let stored' : Effect :=
    .store (libraryName "Provider") ⟨provider, "ResourcesMap", map', pos'⟩
  have hsegment : s.Segment e (effects ++ ([stored] ++ (effects' ++ [stored'])))
      s' := by
    have hwhole := hmaking.trans (hmapping.trans (hmapping'.trans htail))
    rwa [List.nil_append, List.append_nil, List.append_assoc] at hwhole
  refine ⟨_, hsegment, ⟨provider, map, pos, map', pos', ?_, ⟨?_, ?_⟩, ?_, ?_⟩,
    ?_⟩
  · simp only [storesOf_append, honly.storesOf, honly'.storesOf]
    simp [storesOf, stored, stored']
  · rwa [hmaking.func] at hisMade
  · simp only [updatesOf_append, honly'.updatesOf hapart.symm]
    simpa [updatesOf, stored, stored'] using hentries
  · rwa [hmapping.func, hmaking.func] at hisMade'
  · simp only [updatesOf_append, honly.updatesOf hapart]
    simpa [updatesOf, stored, stored'] using hentries'
  · intro callee hmember
    simp only [calleesOf_append, List.mem_append] at hmember
    rcases hmember with hhere | hnone | hthere | hnone
    · exact (honly.calleesOf callee hhere).mono (List.subset_append_left ..)
    · cases hnone
    · exact (honly'.calleesOf callee hthere).mono (List.subset_append_right ..)
    · cases hnone

theorem lowerEntryPoint_new
    (hran : Runs (lowerEntryPoint plugin dataSources resources) s u s') :
    ∃ entry s₁ u, s.Grows (fun _ => True)
        (s.builder.package.functions.size ≤ ·.index) s₁ ∧
      s₁.Prepared entry "Provider" none [plugin.resourceProvider] ∧
      Runs (lowerBody entry (lowerProvider plugin dataSources resources)) s₁ u
        s' ∧ s.builder.package.functions.size ≤ entry.index ∧
      ∀ id f, s'.builder.package.funcAt id = .ok f → id ≠ entry →
        ∃ f, s.builder.package.funcAt id = .ok f := by
  obtain ⟨entry, s₁, hdeclared, hran₁⟩ := runs_bind.1 hran
  obtain ⟨pos, s₂, hadvanced, hran₂⟩ := runs_bind.1 hran₁
  obtain ⟨u, s₃, hplaced, hlowered⟩ := runs_bind.1 hran₂
  have hadvancing := nextPos_package_adds hadvanced
  have hprepared :=
    (Build.declare_prepared (runs_lift.1 hdeclared)).adds hadvancing
      |>.setFuncPos (runs_lift.1 hplaced)
  have hbound : s.builder.package.functions.size ≤ entry.index := by
    obtain ⟨hnumber, -⟩ := Build.declare_found (runs_lift.1 hdeclared)
    exact Nat.le_of_eq hnumber.symm
  have hgrowing : s.Above (fun _ => True) s.builder.package.functions.size s₃ :=
    (Build.declare_above trivial _ _ _ (runs_lift.1 hdeclared)).trans
      (hadvancing.above.trans
        (Build.setFuncPos_above hbound pos (runs_lift.1 hplaced)))
  have hlast : s₁.Above (fun _ => False) 0 s' :=
    (hadvancing.above.trans
      (Build.setFuncPos_above (Nat.zero_le _) pos (runs_lift.1 hplaced))).trans
      (lowerBody_above (lowerProvider_works plugin dataSources resources)
        (Nat.zero_le _) hlowered)
  refine ⟨entry, s₃, _, hgrowing (Nat.le_refl _), hprepared, hlowered, hbound,
    fun func f hfound hother => ?_⟩
  obtain ⟨f', hfound'⟩ :=
    ((hlast (Nat.zero_le _)).builder.added func f hfound).resolve_right id
  obtain ⟨new, s₄, hadds, rfl, rfl, -⟩ :=
    Build.runs_declare (runs_lift.1 hdeclared)
  rcases Builder.funcAt_adding.1 hfound' with hold | ⟨hsame, -⟩
  · exact ⟨f', by rwa [Package.funcAt, hadds.functions] at hold⟩
  · rw [hadds.functions] at hsame
    exact absurd (congrArg FuncId.mk hsame) hother

end

/-! ## Providers -/

/-- Gives the function that removes a component from the state a body, or leaves
it as it is. -/
def lowerRemoval (plugin : Plugin) (isVendored : Bool) :
    ExceptT FixtureError Build Unit :=
  if isVendored then
    ExceptT.mk (Build.body plugin.removeFromState (vendoredRemoval plugin).run)
  else return

theorem vendoredRemoval_emits {plugin : Plugin} {e : Builder} {k : Nat}
    (hsound : e.Sound) (haside : e.package.Aside plugin.setId) :
    Emits e k True (vendoredRemoval plugin) fun _ => True := by
  refine .bind (.of_adds fun _ _ _ hran =>
    ⟨Body.param?_adds 0 (runs_lift.1 hran), fun _ _ => trivial⟩)
    fun data => ?_
  cases data with
  | none => exact nofun
  | some data =>
      refine .bind (.lift (Build.constOf_emits hsound .string (.string "")))
        fun text => ?_
      refine .bind (.discard (.lift
        (.given (Body.call_emits hsound plugin.setId _) fun _ => haside)))
        fun _ => ?_
      refine .bind (.of_adds fun _ _ _ hran => ⟨?_, fun _ _ => trivial⟩)
        fun value => .lift (Body.ret_emits [value])
      exact Build.pushValue_adds _ (runs_lift.1 hran)

private theorem lowerRemoval_grows {names : String → Prop} (plugin : Plugin)
    (isVendored : Bool) :
    Preserves (Site.Grows names (· = plugin.removeFromState))
      (lowerRemoval plugin isVendored) := by
  intro s u s' hran
  have hkept : Preserves (Site.Works names) (vendoredRemoval plugin) := by
    refine .bind (.lift (Body.param?_adds 0).works) fun data => ?_
    cases data with
    | none => exact nofun
    | some data =>
        refine .bind (.lift (Build.constOf_adds _ _).works) fun _ =>
          .bind (.discard (.lift (Body.call_works _ _))) fun _ => ?_
        exact .bind (.lift (Build.pushValue_adds _).works) fun _ =>
          .lift (Body.ret_works _)
  cases isVendored with
  | false =>
      obtain ⟨-, rfl⟩ := runs_pure.1 hran
      exact ⟨.refl _, rfl⟩
  | true =>
      obtain ⟨f, cursor, -, hworked, hsame⟩ := runs_failingBody hran
      exact ⟨(hkept hworked).builder, by rw [hsame]⟩

theorem Package.HasExternal.aside {p : Package} {func : FuncId}
    {package name : String} {receiver : Option TypeId}
    (hhas : p.HasExternal func package receiver name)
    (hunlike : UnlikeSet name) : p.Aside func := by
  obtain ⟨f, hfound, -, -, rfl, hbodiless⟩ := hhas
  have hbody : p.instructions func = .ok [] := by
    simp [Package.instructions, hfound, Func.instructions, Func.body, hbodiless]
  exact .of_calls (Package.not_isSetter hfound hunlike) hbody .nil

/-- With or without a body, the function that removes a component from the state
sets no attributes. -/
theorem lowerRemoval_aside {plugin : Plugin} {isVendored : Bool} {s s' : Site}
    {u : Unit} {e : Builder} (hsound : e.Sound)
    (haside : e.package.Aside plugin.setId)
    (hexternal :
      s.builder.package.HasExternal plugin.removeFromState schemaPackage none
        "RemoveFromState")
    (hran : Runs (lowerRemoval plugin isVendored) s u s')
    (hsettled : s'.builder.Settled e) :
    e.package.Aside plugin.removeFromState := by
  obtain ⟨f, hfound, hpackage, hreceiver, hnamed, hbodiless⟩ := hexternal
  have hunlike : UnlikeSet f.name := by
    rw [hnamed]
    decide
  cases isVendored with
  | false =>
      obtain ⟨-, rfl⟩ := runs_pure.1 hran
      exact Package.HasExternal.aside
        ⟨f, hsettled.funcAt hfound, hpackage, hreceiver, rfl, hbodiless⟩ hunlike
  | true =>
      obtain ⟨f', cursor, hfound', hworked, -⟩ := runs_failingBody hran
      have hinside : (s.enter plugin.removeFromState f'.pos).Inside
          s.builder.package.functions.size :=
        ⟨Package.funcAt_bound hfound', Nat.le_refl _⟩
      obtain ⟨⟨seg, hput, hmade⟩, -⟩ :=
        (vendoredRemoval_emits hsound haside hworked).2 hinside
          (hsettled.ahead _) trivial
      have hwritten :=
        hsettled.funcAt (hput.body f hfound (by simp [Func.body, hbodiless]))
      refine .of_calls (Package.not_isSetter hwritten ?_) ?_ hmade
      · cases seg <;> exact hunlike
      · have hempty : f.instructions = [] := by
          simp [Func.instructions, Func.body, hbodiless]
        simp [Package.instructions,
          show e.package.funcAt plugin.removeFromState = .ok _ from hwritten,
          Func.extended_instructions, hempty]

namespace Plugin

private theorem declared_of_runs {plugin : Plugin} {path : String} {s s' : Site}
    (hstart : s.builder = Builder.new path) (hran : Runs declare s plugin s') :
    plugin.Declared s'.builder ∧ s'.builder.package.path = path := by
  obtain ⟨plugin, b, hcomputed, hisDeclared, hsame⟩ := declare_new path
  simp only [Runs, Building.run, hstart, hcomputed] at hran
  cases hran
  exact ⟨hisDeclared, hsame⟩

namespace Declared

variable {plugin : Plugin} {b c e : Builder} (hisDeclared : plugin.Declared b)
  (hremoving : b.Grows Inner (· = plugin.removeFromState) c)
  (hsettled : c.Settled e)

include hisDeclared hremoving hsettled

/-- The only function of the library that may get a body is not the shim, which
has to stay without one. -/
theorem known_later : plugin.Known e.package := by
  have hknown :=
    hisDeclared.known.grow hisDeclared.sound hremoving
      hisDeclared.known.resourceShim_ne
  refine hknown.grow (hremoving.sound hisDeclared.sound) hsettled ?_
  obtain ⟨f, hfound, -⟩ := hknown.shim
  exact Nat.not_le.2 (Package.funcAt_bound hfound)

private theorem callable_later : plugin.Callable e.package := by
  have hcallable :=
    hisDeclared.callable.grow hisDeclared.sound hremoving
      (hisDeclared.callable.ne_removal hisDeclared.known)
  refine hcallable.grow (hremoving.sound hisDeclared.sound) hsettled
    fun func hmember => ?_
  obtain ⟨f, hfound, -⟩ := hcallable.named func hmember
  exact Nat.not_le.2 (Package.funcAt_bound hfound)

end Declared

end Plugin

namespace ProviderFixture

theorem lower_eq (fixture : ProviderFixture) :
    fixture.lower = (do
      let plugin ← Plugin.declare
      lowerRemoval plugin fixture.isVendored
      let dataSources ← lowerComponents plugin "data_source" fixture.dataSources
      let resources ← lowerComponents plugin "resource" fixture.resources
      inFile "provider.go" (lowerEntryPoint plugin dataSources resources)) := by
  unfold lower lowerRemoval
  cases fixture.isVendored <;> rfl

structure Built (fixture : ProviderFixture) (p : Package) (plugin : Plugin)
    (dataList resourceList : List Lowered) (entry : FuncId)
    (effects : List Effect) : Prop where
  wellFormed : p.WellFormed
  path : p.path = fixture.path
  known : plugin.Known p
  callable : plugin.Callable p
  removal : p.Aside plugin.removeFromState
  dataSources :
    List.Forall₂ (Lowered.Builds p plugin "data_source") fixture.dataSources
      dataList
  resources :
    List.Forall₂ (Lowered.Builds p plugin "resource") fixture.resources
      resourceList
  own : ∃ body, p.IsOwn entry "Provider" none [plugin.resourceProvider] body ∧
      p.Effects body effects
  only : ∀ func f, p.funcAt func = .ok f → func ≠ entry → Inner f.name
  does : IsEntryPoint p plugin dataList resourceList entry effects

theorem lower_built {fixture : ProviderFixture} {s s' : Site} {u : Unit}
    (hstart : s.builder = Builder.new fixture.path)
    (hran : Runs fixture.lower s u s') (hwf : s'.builder.package.WellFormed) :
    ∃ plugin dataList resourceList entry effects, fixture.Built
      s'.builder.package plugin dataList resourceList entry effects := by
  rw [lower_eq] at hran
  obtain ⟨plugin, s₁, hdeclared, hran₁⟩ := runs_bind.1 hran
  obtain ⟨u, s₂, hremoved, hran₂⟩ := runs_bind.1 hran₁
  obtain ⟨dataList, s₃, hsourced, hran₃⟩ := runs_bind.1 hran₂
  obtain ⟨resourceList, s₄, hmanaged, hentered⟩ := runs_bind.1 hran₃
  obtain ⟨lines, hentering, -⟩ := runs_inFile hentered
  obtain ⟨hisDeclared, hpath⟩ :=
    Plugin.declared_of_runs hstart (runs_lift.1 hdeclared)
  have hremoving : s₁.Grows Inner (· = plugin.removeFromState) s₂ :=
    lowerRemoval_grows _ _ hremoved
  have hsourcing :=
    lowerComponents_above (.inl rfl) hisDeclared.texts _ hsourced
      (Nat.le_refl _)
  have hmanaging :=
    lowerComponents_above (.inr rfl) hisDeclared.texts _ hmanaged
      (Nat.le_refl _)
  obtain ⟨entry, s₅, u, hgrowing, hprepared, hlowered, hbound, hnew⟩ :=
    lowerEntryPoint_new hentering
  have hfinishing : s₅.Above (fun _ => True) s₄.builder.package.functions.size
      { s' with lines } :=
    lowerBody_above (lowerProvider_works plugin dataList resourceList) hbound
      hlowered
  -- What is lowered after a component leaves its functions alone.
  have hdone : s'.builder.Settled s'.builder := .refl _
  have hsettled₄ : s₄.builder.Settled s'.builder := by
    have hwhole :=
      hgrowing.trans (hfinishing hgrowing.builder.funcCount) fun _ _ _ => id
    exact hwhole.builder.settled hdone
  have hsettled₃ := hmanaging.builder.settled hsettled₄
  have hsettled₂ := hsourcing.builder.settled hsettled₃
  have hsound := hsettled₂.sound (hremoving.builder.sound hisDeclared.sound)
  have hknown := hisDeclared.known_later hremoving.builder hsettled₂
  have hcallable := hisDeclared.callable_later hremoving.builder hsettled₂
  have hstring : s'.builder.package.typeAt textType = .ok (.basic .string) :=
    hisDeclared.texts ▸ hcallable.string
  have haside : ∀ func ∈
      [plugin.setId, plugin.errwrapWrapf, plugin.removeFromState],
      s'.builder.package.Aside func := by
    obtain ⟨receiver, -, -, hsetId⟩ := hcallable.methods
    have hasideSetId := hsetId.aside (by decide)
    have hasideWrapf := hcallable.errwrapWrapf.aside (by decide)
    have hasideRemoval :=
      lowerRemoval_aside hsound hasideSetId hisDeclared.removal hremoved
        hsettled₂
    simp [hasideSetId, hasideWrapf, hasideRemoval]
  obtain ⟨pos, cursor, hworked, hown⟩ := hprepared.lowerBody hlowered
  obtain ⟨effects, ⟨body, hwrote, hdone'⟩, hdoes⟩ :=
    lowerProvider_segment hsound hknown hworked hdone.before
  have hinner :=
    hmanaging.builder.allNames (hsourcing.builder.allNames
      (hremoving.builder.allNames hisDeclared.inner))
  refine ⟨plugin, dataList, resourceList, entry, effects, hwf, ?_, hknown,
    hcallable, haside _ (by simp), lowerComponents_builds (.inl rfl)
      hisDeclared.texts hknown hsound hstring haside hsourced hsettled₃,
    lowerComponents_builds (.inr rfl) hisDeclared.texts hknown hsound hstring
      haside hmanaged hsettled₄,
    ⟨body, hown body _ hwrote hdone hsound, hdone'⟩, ?_, hdoes⟩
  · rw [hsettled₂.path, hremoving.builder.path, hpath]
  · intro func f hfound hother
    obtain ⟨f₀, hold⟩ := hnew func f hfound hother
    obtain ⟨f', hfound', hsame⟩ := hsettled₄.headers func f₀ hold
    cases hfound.symm.trans hfound'
    rw [Func.SameHeader] at hsame
    rw [hsame]
    exact hinner func f₀ hold

theorem build_built {fixture : ProviderFixture} {p : Package}
    (hbuilt : fixture.build = .ok p) :
    ∃ plugin dataList resourceList entry effects, fixture.Built p plugin
      dataList resourceList entry effects := by
  unfold build at hbuilt
  split at hbuilt
  · cases hbuilt
  · cases hbuilt
  · next builder hran =>
      split at hbuilt
      · cases hbuilt
      · next hvalid =>
          cases hbuilt
          let start : Site :=
            ⟨⟨"", 1⟩, ⟨⟨0⟩, 0, .unknown⟩, Builder.new fixture.path⟩
          have hruns : Runs fixture.lower start () { start with builder } := by
            have hran : fixture.lower (Builder.new fixture.path) =
                .ok (.ok (), builder) := hran
            simp only [Runs, Building.run, start, hran]
          exact lower_built rfl hruns (Package.validate_eq_ok_iff.1 hvalid)

end ProviderFixture

end SchemaLint
