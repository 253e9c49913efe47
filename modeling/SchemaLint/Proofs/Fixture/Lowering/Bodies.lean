import SchemaLint.Proofs.Fixture.Entries
import SchemaLint.Proofs.Fixture.Lowering.Lifecycle
import SchemaLint.Proofs.Fixture.Lowering.Shapes

/-!
# Bodies of lifecycle functions

A lifecycle function sets attributes, each in a line of its own, and then calls
library functions, other lifecycle functions and its helper. Of these calls only
those of lifecycle functions and of the helper lead on to further ones that set
attributes.
-/

namespace SchemaLint

/-! ## Positions -/

def Site.posCount (s : Site) : Nat := s.builder.package.positions.entries.size

structure Site.Fresh (positions : List Pos) (s s' : Site) : Prop where
  distinct : positions.Nodup
  rising : s.posCount ≤ s'.posCount
  between :
    ∀ pos ∈ positions, s.posCount < pos.handle ∧ pos.handle ≤ s'.posCount

namespace Site.Fresh

variable {s s' s'' : Site} {first second : List Pos}

theorem of_grows {names : String → Prop} {may : FuncId → Prop}
    (hgrows : s.Grows names may s') : s.Fresh [] s' :=
  ⟨.nil, hgrows.builder.posCount, nofun⟩

theorem refl (s : Site) : s.Fresh [] s := ⟨.nil, Nat.le_refl _, nofun⟩

theorem trans (hone : s.Fresh first s') (hother : s'.Fresh second s'') :
    s.Fresh (first ++ second) s'' where
  distinct := by
    refine List.nodup_append.2
      ⟨hone.distinct, hother.distinct, fun pos hearly late hlater hsame => ?_⟩
    have hbelow := (hone.between pos hearly).2
    have habove := (hother.between late hlater).1
    rw [← hsame] at habove
    omega
  rising := Nat.le_trans hone.rising hother.rising
  between := by
    have := hone.rising
    have := hother.rising
    intro pos hmember
    rcases List.mem_append.1 hmember with hearly | hlate
    · have := hone.between pos hearly
      omega
    · have := hother.between pos hlate
      omega

theorem perm (hfresh : s.Fresh first s') (hsame : first.Perm second) :
    s.Fresh second s' :=
  ⟨hsame.nodup_iff.1 hfresh.distinct, hfresh.rising,
    fun pos hmember => hfresh.between pos (hsame.mem_iff.2 hmember)⟩

end Site.Fresh

theorem nextLine_fresh {s s' : Site} {u : Unit} (hran : Runs nextLine s u s') :
    s.Fresh [s'.cursor.pos] s' := by
  obtain ⟨pos, s₁, hadvanced, hmoved⟩ := runs_bind.1 hran
  have hplaced : pos =
      (s.builder.package.positions.add s.lines.file s.lines.next 2).2 := by
    cases hadvanced
    rfl
  rw [runs_nextPos hadvanced] at hmoved
  have hended := runs_modify_cursor.1 (runs_lift.1 hmoved)
  have hsize :=
    PositionTable.size_add s.builder.package.positions s.lines.file s.lines.next
      2
  have hcount : s'.posCount = s.posCount + 1 := by
    rw [hended]
    exact hsize
  have hhandle : s'.cursor.pos.handle = s.posCount + 1 := by
    rw [hended, hplaced]
    exact hsize
  refine ⟨List.pairwise_singleton _ _, by omega, fun other hmember => ?_⟩
  obtain rfl := List.mem_singleton.1 hmember
  omega

theorem nextLine_writes {e : Builder} {k : Nat} :
    Writes e k nextLine fun s _ s' =>
      s.Calls e [] s' ∧ s.Fresh [s'.cursor.pos] s' :=
  .of_adds fun _ _ _ hran => ⟨nextLine_adds hran,
    fun _ => ⟨.of_adds (nextLine_adds hran), nextLine_fresh hran⟩⟩

/-! ## Set calls -/

structure SetFixture.SetAt (p : Package) (plugin : Plugin)
    (fixture : SetFixture) (site : ValueId × Pos) : Prop where
  pos : ∃ value, p.valueAt site.1 = .ok value ∧ value.pos = site.2
  call :
    ∃ data name boxed content, p.IsCall site.1 plugin.set [data, name, boxed] ∧
    p.operationAt boxed = .ok (.makeInterface content) ∧
    (∃ shape, ValueShape.ofName? fixture.value = some shape ∧
      shape.Shown p content) ∧
    if fixture.hasDynamicName then
      ∃ addr global, p.operationAt name = .ok (.unary .deref addr) ∧
        p.operationAt addr = .ok (.global global)
    else p.operationAt name = .ok (.const (.string fixture.name))

def SetFixture.lowerArgs (plugin : Plugin) (fixture : SetFixture) :
    Lower (ValueId × ValueId) := do
  let boxed ← Body.boxAny (← setValue plugin fixture.value)
  let name ←
    if fixture.hasDynamicName then
      do Body.deref (← Build.global "attributeName" plugin.string)
    else Build.constString fixture.name
  return (name, boxed)

theorem SetFixture.lower_eq {plugin : Plugin} {data : ValueId}
    {fixture : SetFixture}
    (hplain : fixture.hasExtraArg = false) :
    fixture.lower plugin data = (do
      let args ← fixture.lowerArgs plugin
      nextLine
      discard (Body.call plugin.set [data, args.1, args.2])) := by
  unfold lower lowerArgs
  rw [hplain]
  cases fixture.hasDynamicName <;> simp [bind_assoc]

section

variable {plugin : Plugin} {e : Builder} (hsound : e.Sound)
  (htexts : plugin.string = textType)
  (hstring : e.package.typeAt textType = .ok (.basic .string)) {k : Nat}

include hsound htexts hstring

private theorem setValue_emits (name : String) :
    Emits e k True (setValue plugin name) fun value =>
      ∃ shape, ValueShape.ofName? name = some shape ∧
        shape.Shown e.package value := by
  refine .bind (.lift (Build.intern_emits hsound rfl)) fun stringPtr => ?_
  cases hshaped : ValueShape.ofName? name with
  | none => exact fun _ _ _ hran => (runs_throw hran).elim
  | some shape =>
      rw [htexts]
      exact .imp (.lift (shape.make_emits hsound hstring plugin))
        fun value hshown => ⟨shape, rfl, hshown⟩

private theorem SetFixture.lowerArgs_emits (fixture : SetFixture) :
    Emits e k True (fixture.lowerArgs plugin) fun (name, boxed) =>
      ∃ content, e.package.operationAt boxed = .ok (.makeInterface content) ∧
        (∃ shape, ValueShape.ofName? fixture.value = some shape ∧
          shape.Shown e.package content) ∧
        if fixture.hasDynamicName then
            ∃ addr global, e.package.operationAt name =
                .ok (.unary .deref addr) ∧
              e.package.operationAt addr = .ok (.global global)
          else e.package.operationAt name =
            .ok (.const (.string fixture.name)) := by
  refine .bind (setValue_emits hsound htexts hstring _) fun content => ?_
  refine .bind (.lift (Body.boxAny_emits hsound content)) fun boxed => ?_
  rcases fixture with ⟨name, value, _ | _, extra⟩
  · refine .bind
      (.frame (.lift (Build.constOf_emits hsound .string (.string name))))
      fun name => .pure ?_
    rintro ⟨⟨hshown, hboxing⟩, hknown, -⟩
    exact ⟨content, hboxing, hshown, hknown⟩
  · refine .bind
      (.frame (.lift (Build.global_emits "attributeName" plugin.string hsound)))
      fun addr => ?_
    refine .bind (.frame
      (.lift (.given (Body.deref_emits hsound) fun hknown => hknown.2.2)))
      fun name => .pure ?_
    rintro ⟨⟨⟨hshown, hboxing⟩, hglobal, -⟩, hread⟩
    exact ⟨content, hboxing, hshown, addr, _, hread.operation, hglobal⟩

/-- A set entry becomes one call of the setter, in a line of its own. -/
theorem SetFixture.lower_writes {fixture : SetFixture}
    (hplain : fixture.hasExtraArg = false) (data : ValueId) :
    Writes e k (fixture.lower plugin data) fun s _ s' =>
      ∃ site : ValueId × Pos, s.Calls e [(site.1, plugin.set)] s' ∧
        fixture.SetAt e.package plugin site ∧ s.Fresh [site.2] s' := by
  rw [lower_eq hplain]
  refine (Writes.bind (lowerArgs_emits hsound htexts hstring fixture)
      fun args =>
    .bind nextLine_writes fun _ => .discard
      (.lift (Body.call_writes hsound plugin.set [data, args.1, args.2]))).imp
      ?_
  rintro s u s' ⟨⟨name, boxed⟩, s₁, harguments, u₁, s₂, ⟨hmoving, hfresh⟩,
    value, hcalling, hisCall, found, hknown, hplaced⟩
  obtain ⟨hpreparing, content, hboxing, hshown, hnamed⟩ := harguments trivial
  refine ⟨(value, found.pos), hpreparing.trans (hmoving.trans hcalling),
    ⟨⟨found, hknown, rfl⟩, ?_⟩, ?_⟩
  · exact ⟨data, name, boxed, content, hisCall, hboxing, hshown, hnamed⟩
  · rw [hplaced]
    exact (Site.Fresh.of_grows hpreparing.works).trans
      (hfresh.trans (.of_grows hcalling.works))

private theorem lowerSets_writes {sets : List SetFixture}
    (hplain : ∀ set ∈ sets, set.hasExtraArg = false) (data : ValueId) :
    Writes e k (sets.forM (SetFixture.lower plugin data)) fun s _ s' =>
      ∃ sites : List (ValueId × Pos), s.Calls e
          (sites.map fun site => (site.1, plugin.set)) s' ∧
        List.Forall₂ (SetFixture.SetAt e.package plugin) sets sites ∧
        s.Fresh (sites.map Prod.snd) s' := by
  induction sets with
  | nil =>
      refine .of_adds fun s u s' hran => ?_
      obtain ⟨-, rfl⟩ := runs_pure.1 hran
      exact ⟨.refl _, fun _ => ⟨[], .of_adds (.refl _), .nil, .refl s'⟩⟩
  | cons set sets ih =>
      obtain ⟨hfirst, hothers⟩ := List.forall_mem_cons.1 hplain
      refine (Writes.bind (set.lower_writes hsound htexts hstring hfirst data)
        fun _ => ih hothers).imp ?_
      rintro s u s' ⟨u₁, s₁, ⟨site, hcalling, hisSet, hfresh⟩, sites, hcalls,
        hrelated, hlater⟩
      exact ⟨site :: sites, hcalling.trans hcalls, .cons hisSet hrelated,
        hfresh.trans hlater⟩

end

/-! ## Further calls -/

section

variable {plugin : Plugin} {e : Builder} (hsound : e.Sound) {k : Nat}

include hsound

private theorem lowerCall_emits
    (haside :
      ∀ func ∈ [plugin.setId, plugin.errwrapWrapf, plugin.removeFromState],
        e.package.Aside func)
    (data context : ValueId) (name : String) :
    Emits e k True (lowerCall plugin data context name) fun _ => True := by
  have hcalled {func : FuncId} (hmember :
      func ∈ [plugin.setId, plugin.errwrapWrapf, plugin.removeFromState])
      (args : List ValueId) :
          Emits e k True (discard (liftM (Body.call func args)) : Lower Unit)
            fun _ => True :=
    .discard (.lift
      (.given (Body.call_emits hsound func args) fun _ => haside func hmember))
  have hconstant (value : Constant) :
      Emits e k True (liftM (Build.constOf .string value) : Lower ValueId)
        fun _ => True :=
    .imp (.lift (Build.constOf_emits hsound .string value)) fun _ _ => trivial
  refine .bind
    (.of_adds fun _ _ _ hran => ⟨nextLine_adds hran, fun _ _ => trivial⟩)
    fun _ => ?_
  split
  · exact .bind (hconstant _) fun _ => hcalled (by simp) _
  · refine .bind (hconstant _) fun _ =>
        .bind (.of_adds fun _ _ _ hran => ⟨?_, fun _ _ => trivial⟩) fun _ =>
      hcalled (by simp) _
    exact Build.pushValue_adds _ (runs_lift.1 hran)
  · exact hcalled (by simp) _
  · exact fun _ _ _ hran => (runs_throw hran).elim

theorem lowerLocalCall_writes (data context : ValueId) (callee : FuncId) :
    Writes e k (lowerLocalCall data context callee) fun s _ s' =>
      ∃ value, s.Calls e [(value, callee)] s' := by
  refine (Writes.bind nextLine_writes fun _ =>
    .discard (.lift (Body.call_writes hsound callee [data, context]))).imp ?_
  rintro s u s' ⟨u₁, s₁, ⟨hmoving, -⟩, value, hcalling, -⟩
  exact ⟨value, hmoving.trans hcalling⟩

private theorem lowerSlotCalls_writes (slots : Slots) (data context : ValueId)
    (called : List LifecycleSlot) :
    Writes e k (called.forM fun slot => do
      lowerLocalCall data context
          (← Lower.ofOption (.missingSlot slot) (slots.lookup slot)))
          fun s _ s' =>
      ∃ calls, s.Calls e calls s' ∧
        ∀ callee, callee ∈ calls.map Prod.snd ↔
        ∃ slot ∈ called, slots.lookup slot = some callee := by
  induction called with
  | nil =>
      refine .of_adds fun s u s' hran => ?_
      obtain ⟨-, rfl⟩ := runs_pure.1 hran
      exact ⟨.refl _, fun _ => ⟨[], .of_adds (.refl _), by simp⟩⟩
  | cons slot called ih =>
      have hfound :
          Writes e k (Lower.ofOption (.missingSlot slot) (slots.lookup slot))
            fun s func s' =>
          s.Calls e [] s' ∧ slots.lookup slot = some func := by
        refine .of_adds fun s func s' hran => ?_
        obtain ⟨hknown, rfl⟩ := runs_ofOption.1 hran
        exact ⟨.refl _, fun _ => ⟨.of_adds (.refl _), hknown⟩⟩
      refine (Writes.bind (.bind hfound fun callee =>
          lowerLocalCall_writes hsound data context callee)
          fun _ =>
        ih).imp ?_
      rintro s u s' ⟨u₁, s₁, ⟨callee, s₂, ⟨hasking, hknown⟩, value, hcalling⟩,
        calls, hmore, hmembers⟩
      refine ⟨(value, callee) :: calls, (hasking.trans hcalling).trans hmore,
        fun other => ?_⟩
      rw [List.map_cons, List.mem_cons, hmembers, List.exists_mem_cons_iff,
        hknown, Option.some.injEq, eq_comm]

private theorem lowerHelperCall_writes (data context : ValueId)
    (helper : Option FuncId) :
    Writes e k (helper.forM (lowerLocalCall data context)) fun s _ s' =>
      ∃ calls, s.Calls e calls s' ∧
        ∀ callee, callee ∈ calls.map Prod.snd ↔ helper = some callee := by
  cases helper with
  | none =>
      refine .of_adds fun s u s' hran => ?_
      obtain ⟨-, rfl⟩ := runs_pure.1 hran
      exact ⟨.refl _, fun _ => ⟨[], .of_adds (.refl _), by simp⟩⟩
  | some func =>
      refine (lowerLocalCall_writes hsound data context func).imp ?_
      rintro s u s' ⟨value, hcalling⟩
      exact ⟨[(value, func)], hcalling, by simp [eq_comm]⟩

end

/-! ## Functions -/

/-- A function and the calls in it that set attributes. -/
structure Level where
  func : FuncId
  sites : List (ValueId × Pos)

def Level.positions (level : Level) : List Pos := level.sites.map Prod.snd

namespace FunctionFixture

/-- The function sets the attributes of the fixture, and calls the functions of
its slots and the helper. -/
structure Performs (p : Package) (plugin : Plugin) (slots : Slots)
    (fixture : FunctionFixture) (level : Level) (helper : Option FuncId) :
    Prop where
  notSetter : ¬p.IsSetter level.func
  sets : List.Forall₂ (SetFixture.SetAt p plugin) fixture.sets level.sites
  body : ∃ body calls, p.instructions level.func = .ok body ∧
    p.Calls body (level.sites.map (fun site => (site.1, plugin.set)) ++ calls) ∧
    ∀ callee, callee ∈ calls.map Prod.snd ↔
      (∃ slot ∈ fixture.callSlots, slots.lookup slot = some callee) ∨
      helper = some callee

inductive Performed (p : Package) (plugin : Plugin) (slots : Slots) :
    FunctionFixture → List Level → Prop
  | last {fixture level} :
    fixture.helper = none → Performs p plugin slots fixture level none →
    Performed p plugin slots fixture [level]
  | more {fixture inner level next rest} :
    fixture.helper = some inner →
    Performs p plugin slots fixture level (some next.func) →
      Performed p plugin slots inner (next :: rest) →
      Performed p plugin slots fixture (level :: next :: rest)

end FunctionFixture

section

variable {plugin : Plugin} {e : Builder} (hsound : e.Sound)
  (htexts : plugin.string = textType)
  (hstring : e.package.typeAt textType = .ok (.basic .string))
  (haside :
    ∀ func ∈ [plugin.setId, plugin.errwrapWrapf, plugin.removeFromState],
      e.package.Aside func)

include hsound htexts hstring haside

private theorem lowerStatements_writes {k : Nat} {fixture : FunctionFixture}
    (hplain : ∀ set ∈ fixture.sets, set.hasExtraArg = false) (slots : Slots)
    (helper : Option FuncId) :
    Writes e k (lowerStatements plugin slots fixture helper) fun s _ s' =>
      ∃ (sites : List (ValueId × Pos)) (calls : _), s.Calls e
          (sites.map (fun site => (site.1, plugin.set)) ++ calls) s' ∧
        List.Forall₂ (SetFixture.SetAt e.package plugin) fixture.sets sites ∧
        s.Fresh (sites.map Prod.snd) s' ∧
        ∀ callee, callee ∈ calls.map Prod.snd ↔
          (∃ slot ∈ fixture.callSlots, slots.lookup slot = some callee) ∨
            helper = some callee := by
  have hasked (index : Nat) : Emits e k True
      (liftM (Body.param? index) : Lower (Option ValueId))
      fun _ => True :=
    .of_adds fun _ _ _ hran =>
      ⟨Body.param?_adds index (runs_lift.1 hran), fun _ _ => trivial⟩
  have hchosen (error : FixtureError) (option : Option ValueId) :
      Emits e k True (Lower.ofOption error option) fun _ => True := by
    refine .of_adds fun _ _ _ hran => ⟨?_, fun _ _ => trivial⟩
    obtain ⟨-, rfl⟩ := runs_ofOption.1 hran
    exact .refl _
  have hdone : Emits e k True
      (do Body.ret [← Build.nil plugin.error] : Lower Unit)
      fun _ => True := by
    refine .bind (.of_adds fun _ _ _ hran => ⟨?_, fun _ _ => trivial⟩)
      fun value => .lift (Body.ret_emits [value])
    exact Build.pushValue_adds _ (runs_lift.1 hran)
  refine (Writes.bind (hasked 0) fun _ =>
      .bind (hchosen _ _) fun data => .bind (hasked 1) fun _ =>
    .bind (hchosen _ _) fun context =>
        .bind (lowerSets_writes hsound htexts hstring hplain data) fun _ =>
    .bind (Emits.forM fun name _ =>
        lowerCall_emits hsound haside data context name)
        fun _ =>
    .bind (lowerSlotCalls_writes hsound slots data context _) fun _ =>
    .bind (lowerHelperCall_writes hsound data context helper)
      fun _ => hdone).imp ?_
  rintro s u s' ⟨_, s₁, hfirst, data, s₂, hsecond, _, s₃, hthird, context, s₄,
    hfourth, _, s₅, ⟨sites, hsetting, hrelated, hfresh⟩, _, s₆, hcalling, _, s₇,
    ⟨slotCalls, hslotting, hslotted⟩, _, s₈, ⟨helperCalls, hhelping, hhelped⟩,
    hlast⟩
  have hbefore : s.Calls e [] s₄ :=
    (hfirst trivial).1.trans
      ((hsecond trivial).1.trans ((hthird trivial).1.trans (hfourth trivial).1))
  have hafter : s₅.Calls e (slotCalls ++ helperCalls) s' := by
    have hwhole :=
      (hcalling trivial).1.trans
        (hslotting.trans (hhelping.trans (hlast trivial).1))
    rwa [List.append_nil] at hwhole
  refine ⟨sites, slotCalls ++ helperCalls,
    hbefore.trans (hsetting.trans hafter), hrelated, ?_, fun callee => ?_⟩
  · have hwhole :=
      (Site.Fresh.of_grows hbefore.works).trans
        (hfresh.trans (.of_grows hafter.works))
    rwa [List.append_nil] at hwhole
  · rw [List.map_append, List.mem_append, hslotted, hhelped]

variable {slots : Slots} {func : FuncId} {name : String} {s s' : Site}
  {u : Unit}

private theorem lowerBody_performs {fixture : FunctionFixture}
    {helper : Option FuncId}
    (hplain : ∀ set ∈ fixture.sets, set.hasExtraArg = false)
    (hunlike : UnlikeSet name)
    (hprepared : s.Prepared func name none [plugin.error])
    (hran :
      Runs (lowerBody func (lowerStatements plugin slots fixture helper)) s u
        s')
    (hahead : s'.builder.Ahead s.builder.package.functions.size e)
    (hkept : ∀ f, s'.builder.package.funcAt func = .ok f →
        e.package.funcAt func = .ok f) :
    ∃ sites, fixture.Performs e.package plugin slots ⟨func, sites⟩ helper ∧
      s.Fresh (sites.map Prod.snd) s' := by
  obtain ⟨f, cursor, hfound, hworked, -⟩ := runs_lowerBody hran
  have hinside : (s.enter func f.pos).Inside s.builder.package.functions.size :=
    ⟨Package.funcAt_bound hfound, Nat.le_refl _⟩
  obtain ⟨sites, calls, ⟨seg, hput, hmade⟩, hrelated, hfresh, hcallees⟩ :=
    (lowerStatements_writes hsound htexts hstring haside hplain slots helper
      hworked).2 hinside hahead
  have hown := hprepared.own hput hahead.before hkept hsound
  exact ⟨sites, ⟨hown.not_isSetter hunlike, hrelated, seg, calls,
      hown.instructions, hmade, hcallees⟩, hfresh.distinct, hfresh.rising,
    hfresh.between⟩

/-- A function is filled in after its helper, and nothing that is lowered for it
later changes the helper. -/
theorem FunctionFixture.lower_performed {fixture : FunctionFixture}
    (hplain :
      ∀ level ∈ fixture.levels, ∀ set ∈ level.sets, set.hasExtraArg = false)
    (hunlike : UnlikeSet name)
    (hprepared : s.Prepared func name none [plugin.error])
    (hran : Runs (fixture.lower plugin slots func) s u s')
    (hahead : s'.builder.Ahead s.builder.package.functions.size e)
    (hkept : ∀ f, s'.builder.package.funcAt func = .ok f →
        e.package.funcAt func = .ok f) :
    ∃ sites rest, fixture.Performed e.package plugin slots
        (⟨func, sites⟩ :: rest) ∧
      s.Fresh ((⟨func, sites⟩ :: rest : List Level).flatMap Level.positions)
        s' := by
  induction fixture using helper_induction generalizing func name s s' u with
  | alone fixture halone =>
      rw [lower_none halone] at hran
      rw [levels_alone halone] at hplain
      obtain ⟨sites, hperforms, hfresh⟩ :=
        lowerBody_performs hsound htexts hstring haside
          (List.forall_mem_singleton.1 hplain) hunlike hprepared hran hahead
          hkept
      refine ⟨sites, [], .last halone hperforms, ?_⟩
      rwa [List.flatMap_singleton]
  | helped fixture inner hhelped ih =>
      rw [levels_helped hhelped] at hplain
      obtain ⟨hown, hinside⟩ := List.forall_mem_cons.1 hplain
      obtain ⟨f, helper, s₁, u₁, s₂, hfound, hdeclaring, hnumber,
          hpreparedHelper, hfilled, hlast⟩ :=
        runs_lower_helper hhelped hran
      have hbound := Package.funcAt_bound hfound
      have hgrown := (hdeclaring fun _ => True).builder.funcCount
      have hfilling :=
        lowerBody_grows (lowerStatements_works htexts _ _ _) hlast
      have hahead₂ : s₂.builder.Ahead s.builder.package.functions.size e := by
        refine hfilling.builder.ahead hahead ?_
        rintro id rfl
        exact .inl hbound
      obtain ⟨sites, rest, hperformed, hfresh⟩ :=
        ih hinside (unlikeSet_append f.name (by decide)) hpreparedHelper hfilled
          (hahead₂.mono hgrown) fun f hfound =>
          hahead₂.funcAt hfound (Nat.le_of_eq hnumber.symm)
      have hhelping := inner.lower_grows htexts hfilled
      have hprepared₂ : s₂.Prepared func name none [plugin.error] := by
        refine (hprepared.grow (hdeclaring fun _ => False) id).grow hhelping ?_
        rintro (rfl | hnew) <;> omega
      obtain ⟨sites', hperforms, hfresh'⟩ :=
        lowerBody_performs hsound htexts hstring haside hown hunlike hprepared₂
          hlast (hahead.mono (Nat.le_trans hgrown hhelping.builder.funcCount))
          hkept
      refine ⟨sites', _, .more hhelped hperforms hperformed, ?_⟩
      refine ((Site.Fresh.of_grows (hdeclaring fun _ => True)).trans
        (hfresh.trans hfresh')).perm ?_
      rw [List.nil_append, List.flatMap_cons (x := (⟨func, sites'⟩ : Level))]
      exact List.perm_append_comm

end

/-! ## Slots -/

namespace ComponentFixture

variable {plugin : Plugin} {slots rest : Slots} {fixture : ComponentFixture}
  {s s' : Site} {u : Unit}

def isOwn (fixture : ComponentFixture) (slot : LifecycleSlot) : Bool :=
  (fixture.ownBody? slot).isSome

def fillSlot (plugin : Plugin) (slots : Slots) (fixture : ComponentFixture)
    (entry : LifecycleSlot × FuncId) : LowerPackage Unit :=
  match fixture.ownBody? entry.1 with
  | some body => body.lower plugin slots entry.2
  | none => return

theorem fillSlots_eq (plugin : Plugin) (slots : Slots)
    (fixture : ComponentFixture) :
    fixture.fillSlots plugin slots =
      slots.forM (fixture.fillSlot plugin slots) := by
  refine congrArg slots.forM (funext fun (slot, func) => ?_)
  simp only [fillSlot, ownBody?]
  cases fixture.slot slot with
  | none => rfl
  | some body => cases hown : body.sdk.isNone <;> simp [hown, Option.filter]

theorem fillSlot_grows (htexts : plugin.string = textType)
    {entry : LifecycleSlot × FuncId}
    (hran : Runs (fixture.fillSlot plugin slots entry) s u s') :
    s.Grows Inner (fun id => (fixture.isOwn entry.1 ∧ id = entry.2) ∨
      s.builder.package.functions.size ≤ id.index) s' := by
  unfold fillSlot at hran
  split at hran
  · next body hfound =>
      exact (body.lower_grows htexts hran).weaken fun id =>
        Or.imp_left fun hsame => ⟨by simp [isOwn, hfound], hsame⟩
  · obtain ⟨-, rfl⟩ := runs_pure.1 hran
    exact ⟨.refl _, rfl⟩

theorem fillSlots_grows (htexts : plugin.string = textType)
    (hran : Runs (rest.forM (fixture.fillSlot plugin slots)) s u s') :
    s.Grows Inner (fun id => (∃ entry ∈ rest, fixture.isOwn entry.1 ∧
        id = entry.2) ∨ s.builder.package.functions.size ≤ id.index) s' := by
  induction rest generalizing s with
  | nil =>
      obtain ⟨-, rfl⟩ := runs_pure.1 hran
      exact ⟨.refl _, rfl⟩
  | cons entry rest ih =>
      obtain ⟨u, s₁, hfirst, hmore⟩ := runs_bind.1 hran
      have hfilling := fillSlot_grows htexts hfirst
      have hcount := hfilling.builder.funcCount
      refine (hfilling.weaken ?_).trans (ih hmore) fun id f _ => ?_
      · rintro id (⟨hown, hsame⟩ | hnew)
        · exact .inl ⟨entry, List.mem_cons_self .., hown, hsame⟩
        · exact .inr hnew
      · rintro (⟨other, hmember, hown⟩ | hnew)
        · exact .inl ⟨other, List.mem_cons_of_mem _ hmember, hown⟩
        · exact .inr (Nat.le_trans hcount hnew)

def Prepares (s : Site) (plugin : Plugin) (slots : Slots)
    (fixture : ComponentFixture) : Prop :=
  ∀ entry ∈ slots, fixture.isOwn entry.1 →
    ∃ name, UnlikeSet name ∧ s.Prepared entry.2 name none [plugin.error]

def Apart (fixture : ComponentFixture) (one other : LifecycleSlot × FuncId) :
    Prop :=
  one.1 ≠ other.1 ∧
    (fixture.isOwn one.1 → fixture.isOwn other.1 → one.2 ≠ other.2)

def Fulfils (p : Package) (plugin : Plugin) (slots : Slots)
    (fixture : ComponentFixture) (entry : LifecycleSlot × FuncId)
    (levels : List Level) : Prop :=
  ∀ body, fixture.ownBody? entry.1 = some body →
    ∃ sites more, levels = ⟨entry.2, sites⟩ :: more ∧
    body.Performed p plugin slots levels

section

variable {e : Builder} (hsound : e.Sound) (htexts : plugin.string = textType)
  (hstring : e.package.typeAt textType = .ok (.basic .string))
  (haside :
    ∀ func ∈ [plugin.setId, plugin.errwrapWrapf, plugin.removeFromState],
      e.package.Aside func)
  (hplain : fixture.SetsPlainly)

include hsound htexts hstring haside hplain

private theorem runs_fillSlot {entry : LifecycleSlot × FuncId}
    (hran : Runs (fixture.fillSlot plugin slots entry) s u s')
    (hprepared :
      fixture.isOwn entry.1 →
        ∃ name, UnlikeSet name ∧ s.Prepared entry.2 name none [plugin.error])
    (hahead : s'.builder.Ahead s.builder.package.functions.size e)
    (hkept :
      fixture.isOwn entry.1 → ∀ f, s'.builder.package.funcAt entry.2 = .ok f →
          e.package.funcAt entry.2 = .ok f) :
    ∃ levels, fixture.Fulfils e.package plugin slots entry levels ∧
      s.Fresh (levels.flatMap Level.positions) s' := by
  unfold fillSlot at hran
  split at hran
  · next body hfound =>
      have hown : fixture.isOwn entry.1 := by simp [isOwn, hfound]
      obtain ⟨name, hunlike, hprepared⟩ := hprepared hown
      have hplainly : ∀ level ∈ body.levels,
          ∀ set ∈ level.sets, set.hasExtraArg = false := by
        intro level hmember
        obtain ⟨depth, hat⟩ := List.getElem?_of_mem hmember
        exact hplain entry.1 depth level
          (by rw [bodyAt?, hfound, Option.bind_some, hat])
      obtain ⟨sites, more, hperformed, hfresh⟩ :=
        body.lower_performed hsound htexts hstring haside hplainly hunlike
          hprepared hran hahead (hkept hown)
      refine ⟨_, fun other hsame => ?_, hfresh⟩
      cases hfound.symm.trans hsame
      exact ⟨sites, more, rfl, hperformed⟩
  · next hnone =>
      obtain ⟨-, rfl⟩ := runs_pure.1 hran
      exact ⟨[], fun body hfound => absurd hfound (by simp [hnone]), .refl _⟩

theorem runs_fillSlots
    (hran : Runs (rest.forM (fixture.fillSlot plugin slots)) s u s')
    (hprepared : fixture.Prepares s plugin rest)
    (hapart : rest.Pairwise fixture.Apart) (hsettled : s'.builder.Settled e) :
    ∃ chains : LifecycleSlot → List Level, (∀ entry ∈ rest, fixture.Fulfils
        e.package plugin slots entry (chains entry.1)) ∧
      s.Fresh
        (rest.flatMap fun entry => (chains entry.1).flatMap Level.positions)
        s' := by
  induction rest generalizing s with
  | nil =>
      obtain ⟨-, rfl⟩ := runs_pure.1 hran
      exact ⟨fun _ => [], nofun, .refl _⟩
  | cons entry rest ih =>
      obtain ⟨u, s₁, hfirst, hmore⟩ := runs_bind.1 hran
      obtain ⟨hothers, hapart⟩ := List.pairwise_cons.1 hapart
      obtain ⟨hhere, hthere⟩ := List.forall_mem_cons.1 hprepared
      have hfilling := fillSlot_grows htexts hfirst
      have hlater := fillSlots_grows htexts hmore
      have hbound {entry : LifecycleSlot × FuncId} {name : String}
          (hprepared : s.Prepared entry.2 name none [plugin.error]) :
          entry.2.index < s.builder.package.functions.size := by
        obtain ⟨f, hfound, -⟩ := hprepared
        exact Package.funcAt_bound hfound
      have hcount := hfilling.builder.funcCount
      have hprepared₁ : fixture.Prepares s₁ plugin rest := by
        intro other hmember hown
        obtain ⟨name, hunlike, hprepared⟩ := hthere other hmember hown
        refine ⟨name, hunlike, hprepared.grow hfilling ?_⟩
        rintro (⟨hownEntry, hsame⟩ | hnew)
        · exact (hothers other hmember).2 hownEntry hown hsame.symm
        · exact absurd (hbound hprepared) (Nat.not_lt.2 hnew)
      have hahead : s₁.builder.Ahead s.builder.package.functions.size e := by
        refine hlater.builder.ahead (hsettled.ahead _) ?_
        rintro id (⟨other, hmember, hown, rfl⟩ | hnew)
        · obtain ⟨name, -, hprepared⟩ := hthere other hmember hown
          exact .inl (hbound hprepared)
        · exact .inr hnew
      have hkept (hown : fixture.isOwn entry.1) (f : Func)
          (hfound : s₁.builder.package.funcAt entry.2 = .ok f) :
          e.package.funcAt entry.2 = .ok f := by
        refine hsettled.funcAt (hlater.builder.untouched _ f hfound ?_)
        rintro (⟨other, hmember, hownOther, hsame⟩ | hnew)
        · exact (hothers other hmember).2 hown hownOther hsame
        · obtain ⟨name, -, hprepared⟩ := hhere hown
          have := hbound hprepared
          omega
      obtain ⟨levels, hfulfils, hfresh⟩ :=
        runs_fillSlot hsound htexts hstring haside hplain hfirst hhere hahead
          hkept
      obtain ⟨chains, hfulfilled, hfresh'⟩ := ih hmore hprepared₁ hapart
      refine ⟨fun slot => if slot = entry.1 then levels else chains slot, ?_,
        ?_⟩
      · refine List.forall_mem_cons.2 ⟨?_, fun other hmember => ?_⟩
        · simpa using hfulfils
        · simpa [(hothers other hmember).1.symm] using hfulfilled other hmember
      · have hunchanged : (rest.flatMap fun other =>
            (if other.1 = entry.1 then levels else chains other.1).flatMap
              Level.positions) =
            rest.flatMap fun other =>
              (chains other.1).flatMap Level.positions :=
          List.flatMap_congr fun other hmember => by
            rw [if_neg (hothers other hmember).1.symm]
        simp only [List.flatMap_cons, reduceIte, hunchanged]
        exact hfresh.trans hfresh'

end

end ComponentFixture

end SchemaLint
