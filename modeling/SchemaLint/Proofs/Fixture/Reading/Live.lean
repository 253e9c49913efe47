import Mathlib.Logic.Relation
import SchemaLint.Proofs.Fixture.Lowering.Components
import SchemaLint.Proofs.Lint.SetCalls

/-!
# Live set entries

The walks from the functions that create, read and update a component come to
the bodies that its fixture reaches and to no others that set attributes. So the
calls of the setter that they meet are those of the entries in these bodies.
-/

namespace SchemaLint

/-! ## Calls of functions -/

namespace Package

variable {p : Package}

def CallsFunction (p : Package) (f g : FuncId) : Prop :=
  ∃ body i, p.instructions f = .ok body ∧ i ∈ body ∧ p.StaticCall i g

private theorem reach_iff_transGen {f g : FuncId} {start : List Instruction}
    (hfound : p.instructions f = .ok start) :
    p.Reach (fun _ => false) start g ↔
      Relation.TransGen p.CallsFunction f g := by
  constructor
  · intro hreach
    induction hreach with
    | start hmember hcalled =>
        exact .single ⟨start, _, hfound, hmember, hcalled⟩
    | body _ hinside hmember hcalled _ ih =>
        exact ih.tail ⟨_, _, hinside, hmember, hcalled⟩
  · intro hchain
    induction hchain with
    | single hcalled =>
        obtain ⟨body, i, hsame, hmember, hcalled⟩ := hcalled
        cases hfound.symm.trans hsame
        exact .start hmember hcalled rfl
    | tail _ hcalled ih =>
        obtain ⟨body, i, hinside, hmember, hcalled⟩ := hcalled
        exact .body ih hinside hmember hcalled rfl

theorem reachesInstruction_iff {f : FuncId} {i : Instruction} :
    p.ReachesInstruction f i ↔
      ∃ g body, Relation.ReflTransGen p.CallsFunction f g ∧
        p.instructions g = .ok body ∧ i ∈ body := by
  constructor
  · rintro ⟨start, hfound, hhere | ⟨g, body, hreach, hinside, hmember⟩⟩
    · exact ⟨f, start, .refl, hfound, hhere⟩
    · exact ⟨g, body, ((reach_iff_transGen hfound).1 hreach).to_reflTransGen,
        hinside, hmember⟩
  · rintro ⟨g, body, hchain, hinside, hmember⟩
    rcases Relation.reflTransGen_iff_eq_or_transGen.1 hchain with rfl | hchain
    · exact ⟨body, hinside, .inl hmember⟩
    · obtain ⟨next, ⟨start, i, hfound, -⟩, -⟩ :=
        Relation.TransGen.head'_iff.1 hchain
      exact ⟨start, hfound,
        .inr ⟨g, body, (reach_iff_transGen hfound).2 hchain, hinside, hmember⟩⟩

theorem Aside.callsFunction {f g : FuncId} (haside : p.Aside f)
    (hcalls : p.CallsFunction f g) : p.Aside g := by
  obtain ⟨body, i, hfound, hmember, hcalled⟩ := hcalls
  exact haside.callee hfound hmember hcalled

end Package

/-! ## Functions of slots -/

namespace SlotsFilled

variable {p : Package} {plugin : Plugin} {stem : String}
  {bodies : List (LifecycleSlot × FunctionFixture)} {slots : Slots}
  {slot : LifecycleSlot}

theorem of_lookup {func : FuncId}
    (hfilled : SlotsFilled p plugin stem bodies slots)
    (hlooked : slots.lookup slot = some func) :
    (slot, func) ∈ slots ∧ ∃ body, (slot, body) ∈ bodies ∧
        body.FilledBy p plugin (stem ++ slot.fieldName) func := by
  induction hfilled with
  | nil => cases hlooked
  | @cons body entry bodies slots hfirst _ ih =>
      obtain ⟨key, value⟩ := entry
      obtain ⟨_, body⟩ := body
      obtain ⟨rfl, hfilledBy⟩ := hfirst
      rw [List.lookup_cons] at hlooked
      split at hlooked
      · next hequal =>
          obtain rfl : slot = key := by simpa using hequal
          cases hlooked
          exact ⟨List.mem_cons_self .., body, List.mem_cons_self .., hfilledBy⟩
      · obtain ⟨hmember, body', hlisted, hfilledBy'⟩ := ih hlooked
        exact ⟨List.mem_cons_of_mem _ hmember, body',
          List.mem_cons_of_mem _ hlisted, hfilledBy'⟩

private theorem lookup_of_mem {body : FunctionFixture}
    (hfilled : SlotsFilled p plugin stem bodies slots)
    (hmember : (slot, body) ∈ bodies) :
    ∃ func, slots.lookup slot = some func := by
  cases hlooked : slots.lookup slot with
  | some func => exact ⟨func, rfl⟩
  | none =>
      have hlisted : slot ∈ slots.map Prod.fst :=
        hfilled.slots_eq ▸ List.mem_map_of_mem hmember
      obtain ⟨entry, hinside, rfl⟩ := List.mem_map.1 hlisted
      have habsent := List.lookup_eq_none_iff.1 hlooked entry hinside
      simp at habsent

end SlotsFilled

/-! ## Levels -/

namespace FunctionFixture.Performed

variable {p : Package} {plugin : Plugin} {slots : Slots}
  {fixture : FunctionFixture} {levels : List Level}

theorem length_eq (hperformed : fixture.Performed p plugin slots levels) :
    levels.length = fixture.levels.length := by
  induction hperformed with
  | last halone =>
      rw [levels_alone halone, List.length_singleton, List.length_singleton]
  | more hhelped _ _ ih =>
      rw [levels_helped hhelped]
      exact congrArg (· + 1) ih

theorem performs {depth : Nat} {body : FunctionFixture} {level : Level}
    (hperformed : fixture.Performed p plugin slots levels)
    (hfound : fixture.levels[depth]? = some body)
    (hat : levels[depth]? = some level) :
    body.Performs p plugin slots level (levels[depth + 1]?.map Level.func) := by
  induction hperformed generalizing depth with
  | @last fixture first halone hperforms =>
      rw [levels_alone halone] at hfound
      obtain ⟨rfl, rfl⟩ : depth = 0 ∧ fixture = body := by
        simpa using List.getElem?_eq_some_iff.1 hfound
      cases hat
      exact hperforms
  | more hhelped hperforms _ ih =>
      rw [levels_helped hhelped] at hfound
      cases depth with
      | zero =>
          cases hfound
          cases hat
          exact hperforms
      | succ depth => exact ih hfound hat

end FunctionFixture.Performed

namespace ComponentFixture

structure Meets (fixture : ComponentFixture)
    (chains : LifecycleSlot → List Level) (slot : LifecycleSlot) (depth : Nat)
    (body : FunctionFixture) (level : Level) : Prop where
  reached : fixture.ReachesBody slot depth
  body : fixture.bodyAt? slot depth = some body
  level : (chains slot)[depth]? = some level

section

variable {p : Package} {plugin : Plugin} {stem : String} {slots : Slots}
  {fixture : ComponentFixture} {chains : LifecycleSlot → List Level}
  (hfilled : SlotsFilled p plugin stem fixture.bodies slots)
  (hlives : fixture.Lives p plugin slots chains)

include hfilled hlives

theorem fulfils {slot : LifecycleSlot} {body : FunctionFixture}
    (hown : fixture.ownBody? slot = some body) :
    ∃ func sites more, slots.lookup slot = some func ∧ (slot, func) ∈ slots ∧
      chains slot = ⟨func, sites⟩ :: more ∧
      body.Performed p plugin slots (chains slot) := by
  have hgiven : fixture.slot slot = some body :=
    (Option.filter_eq_some_iff.1 hown).1
  obtain ⟨func, hlooked⟩ := hfilled.lookup_of_mem (mem_bodies.2 hgiven)
  obtain ⟨hmember, -⟩ := hfilled.of_lookup hlooked
  obtain ⟨sites, more, hsame, hperformed⟩ :=
    hlives.fulfilled (slot, func) hmember body hown
  exact ⟨func, sites, more, hlooked, hmember, hsame, hperformed⟩

theorem exists_level {slot : LifecycleSlot} {depth : Nat}
    {body : FunctionFixture} (hfound : fixture.bodyAt? slot depth = some body) :
    ∃ level, (chains slot)[depth]? = some level := by
  obtain ⟨own, hgiven, hat⟩ := Option.bind_eq_some_iff.1 hfound
  obtain ⟨func, sites, more, -, -, -, hperformed⟩ :=
    fulfils hfilled hlives hgiven
  have hbound : depth < (chains slot).length := by
    rw [hperformed.length_eq]
    exact (List.getElem?_eq_some_iff.1 hat).1
  exact ⟨_, List.getElem?_eq_getElem hbound⟩

theorem Meets.performs {slot : LifecycleSlot} {depth : Nat}
    {body : FunctionFixture} {level : Level}
    (hmeets : fixture.Meets chains slot depth body level) :
    body.Performs p plugin slots level
      ((chains slot)[depth + 1]?.map Level.func) := by
  obtain ⟨own, hgiven, hat⟩ := Option.bind_eq_some_iff.1 hmeets.body
  obtain ⟨func, sites, more, -, -, -, hperformed⟩ :=
    fulfils hfilled hlives hgiven
  exact hperformed.performs hat hmeets.level

theorem Meets.helper {slot : LifecycleSlot} {depth : Nat}
    {body : FunctionFixture} {level : Level} {callee : FuncId}
    (hmeets : fixture.Meets chains slot depth body level)
    (hcalled : (chains slot)[depth + 1]?.map Level.func = some callee) :
    ∃ inner next, fixture.Meets chains slot (depth + 1) inner next ∧
      next.func = callee := by
  obtain ⟨next, hat, hsame⟩ := Option.map_eq_some_iff.1 hcalled
  obtain ⟨own, hgiven, hinside⟩ := Option.bind_eq_some_iff.1 hmeets.body
  obtain ⟨func, sites, more, -, -, -, hperformed⟩ :=
    fulfils hfilled hlives hgiven
  have hbound : depth + 1 < own.levels.length := by
    rw [← hperformed.length_eq]
    exact (List.getElem?_eq_some_iff.1 hat).1
  have hfurther : fixture.bodyAt? slot (depth + 1) =
      some own.levels[depth + 1] := by
    rw [bodyAt?, hgiven, Option.bind_some, List.getElem?_eq_getElem hbound]
  have hhelped := (bodyAt?_succ hmeets.body).symm.trans hfurther
  exact ⟨_, next, ⟨.helper hmeets.reached hmeets.body hhelped, hfurther, hat⟩,
    hsame⟩

/-- The function of a slot that is reached: the body of the fixture, or a
function that sets no attributes. -/
theorem enters (hremoval : p.Aside plugin.removeFromState)
    {slot : LifecycleSlot} {func : FuncId}
    (hreached : fixture.ReachesBody slot 0)
    (hlooked : slots.lookup slot = some func) :
    p.Aside func ∨ ∃ body level, fixture.Meets chains slot 0 body level ∧
        level.func = func := by
  obtain ⟨hmember, body, hlisted, hfilledBy⟩ := hfilled.of_lookup hlooked
  have hgiven := mem_bodies.1 hlisted
  cases hsdk : body.sdk with
  | some name =>
      rw [FunctionFixture.FilledBy, hsdk] at hfilledBy
      exact .inl (hfilledBy ▸ hremoval)
  | none =>
      have hown : fixture.ownBody? slot = some body := by
        simp [ownBody?, hgiven, hsdk]
      obtain ⟨func', sites, more, hlooked', -, hsame, -⟩ :=
        fulfils hfilled hlives hown
      cases hlooked.symm.trans hlooked'
      have hfound : fixture.bodyAt? slot 0 = some body := by
        rw [bodyAt?, hown, Option.bind_some, body.levels_zero]
      exact .inr ⟨body, ⟨func, sites⟩,
        ⟨hreached, hfound, by rw [hsame, List.getElem?_cons_zero]⟩, rfl⟩

/-! ## What is reached -/

variable (hremoval : p.Aside plugin.removeFromState)

include hremoval

/-- The functions that a body calls, apart from the setter, set attributes as
the fixture says or not at all. -/
theorem Meets.callee {slot : LifecycleSlot} {depth : Nat}
    {body : FunctionFixture} {level : Level} {i : Instruction} {callee : FuncId}
    {instructions : List Instruction}
    (hmeets : fixture.Meets chains slot depth body level)
    (hfound : p.instructions level.func = .ok instructions)
    (hmember : i ∈ instructions) (hcalled : p.StaticCall i callee) :
    (∃ id pos, i = .define id ∧ (id, pos) ∈ level.sites ∧ callee = plugin.set) ∨
      p.Aside callee ∨
      ∃ slot depth body level, fixture.Meets chains slot depth body level ∧
        level.func = callee := by
  obtain ⟨body', calls, hsame, hmade, hcallees⟩ :=
    (hmeets.performs hfilled hlives).body
  cases hfound.symm.trans hsame
  rcases hmade.staticCall hmember hcalled with haside | ⟨id, rfl, hlisted⟩
  · exact .inr (.inl haside)
  rcases List.mem_append.1 hlisted with hsets | hfurther
  · obtain ⟨⟨id', pos⟩, hinside, hequal⟩ := List.mem_map.1 hsets
    cases hequal
    exact .inl ⟨id', pos, rfl, hinside, rfl⟩
  · rcases (hcallees callee).1 (List.mem_map_of_mem hfurther) with
      ⟨other, hinside, hlooked⟩ | hhelped
    · rcases enters hfilled hlives hremoval
          (.call hmeets.reached hmeets.body hinside) hlooked with
        haside | ⟨body', level', hentered⟩
      · exact .inr (.inl haside)
      · exact .inr (.inr ⟨other, 0, body', level', hentered⟩)
    · obtain ⟨inner, next, hentered⟩ := hmeets.helper hfilled hlives hhelped
      exact .inr (.inr ⟨slot, depth + 1, inner, next, hentered⟩)

variable {component : Component} (hdeclared : component.declared = slots)

include hdeclared

section

variable (houtside : p.instructions plugin.set = .ok [])

include houtside

/-- A walk stays among bodies of the fixture, functions that set no attributes,
and the setter. -/
theorem tame_of_reached {slot : LifecycleSlot} {func g : FuncId}
    (hsetting : slot = .create ∨ slot = .read ∨ slot = .update)
    (hstarted : component.lifecycle? slot = some func)
    (hchain : Relation.ReflTransGen p.CallsFunction func g) :
    g = plugin.set ∨ p.Aside g ∨
      ∃ slot depth body level, fixture.Meets chains slot depth body level ∧
        level.func = g := by
  induction hchain with
  | refl =>
      rw [Component.lifecycle?, hdeclared] at hstarted
      rcases enters hfilled hlives hremoval (.setting hsetting) hstarted with
        haside | ⟨body, level, hentered⟩
      · exact .inr (.inl haside)
      · exact .inr (.inr ⟨slot, 0, body, level, hentered⟩)
  | tail _ hcalled ih =>
      rcases ih with rfl | haside | ⟨slot, depth, body, level, hmeets, rfl⟩
      · obtain ⟨body, i, hfound, hmember, -⟩ := hcalled
        cases houtside.symm.trans hfound
        cases hmember
      · exact .inr (.inl (haside.callsFunction hcalled))
      · obtain ⟨instructions, i, hfound, hmember, hcalled⟩ := hcalled
        rcases hmeets.callee hfilled hlives hremoval hfound hmember hcalled with
          ⟨-, -, -, -, rfl⟩ | hfurther
        · exact .inl rfl
        · exact .inr hfurther

theorem setsAt_reached {i : Instruction} {site : CallSite}
    (hreached : RuleContext.ReachedBySetting ⟨p, .usual⟩ component i)
    (hsets : RuleContext.SetsAt ⟨p, .usual⟩ i site) :
    ∃ slot depth body level id pos, fixture.Meets chains slot depth body level ∧
      (id, pos) ∈ level.sites ∧ i = .define id := by
  obtain ⟨slot, hsetting, func, hstarted, hinside⟩ := hreached
  obtain ⟨g, instructions, hchain, hfound, hmember⟩ :=
    Package.reachesInstruction_iff.1 hinside
  obtain ⟨callee, hcalled, hisSetter⟩ : ∃ callee, p.StaticCall i callee ∧
      p.IsSetter callee := by
    cases hsets with
    | call hknown hoperation hsets =>
        obtain ⟨callee, hresolves, hnamed⟩ := hsets
        exact ⟨callee, .call
            (Package.operationAt_eq_ok_iff.2 ⟨_, hknown, hoperation⟩) hresolves,
          hnamed⟩
    | go hsets =>
        obtain ⟨callee, hresolves, hnamed⟩ := hsets
        exact ⟨callee, .go hresolves, hnamed⟩
    | defer hsets =>
        obtain ⟨callee, hresolves, hnamed⟩ := hsets
        exact ⟨callee, .defer hresolves, hnamed⟩
  rcases tame_of_reached hfilled hlives hremoval hdeclared houtside hsetting
      hstarted hchain with
    rfl | haside | ⟨slot, depth, body, level, hmeets, rfl⟩
  · cases houtside.symm.trans hfound
    cases hmember
  · exact absurd hisSetter (haside.callee hfound hmember hcalled).not_isSetter
  · rcases hmeets.callee hfilled hlives hremoval hfound hmember hcalled with
      ⟨id, pos, rfl, hlisted, -⟩ | haside |
        ⟨slot', depth', body', level', hmeets', rfl⟩
    · exact ⟨slot, depth, body, level, id, pos, hmeets, hlisted, rfl⟩
    · exact absurd hisSetter haside.not_isSetter
    · exact absurd hisSetter (hmeets'.performs hfilled hlives).notSetter

end

omit hremoval hdeclared

theorem Meets.callsFunction {slot : LifecycleSlot} {depth : Nat}
    {body : FunctionFixture} {level : Level} {callee : FuncId}
    (hmeets : fixture.Meets chains slot depth body level)
    (hcalled :
      (∃ other ∈ body.callSlots, slots.lookup other = some callee) ∨
        (chains slot)[depth + 1]?.map Level.func = some callee) :
    p.CallsFunction level.func callee := by
  obtain ⟨instructions, calls, hfound, hmade, hcallees⟩ :=
    (hmeets.performs hfilled hlives).body
  obtain ⟨⟨id, _⟩, hlisted, rfl⟩ := List.mem_map.1 ((hcallees callee).2 hcalled)
  obtain ⟨hmember, hcalled⟩ := hmade.mem (List.mem_append_right _ hlisted)
  exact ⟨instructions, .define id, hfound, hmember, hcalled⟩

private theorem first_level {slot : LifecycleSlot} {body : FunctionFixture}
    {level : Level} (hfound : fixture.bodyAt? slot 0 = some body)
    (hat : (chains slot)[0]? = some level) :
    slots.lookup slot = some level.func := by
  obtain ⟨own, hgiven, -⟩ := Option.bind_eq_some_iff.1 hfound
  obtain ⟨func, sites, more, hlooked, -, hsame, -⟩ :=
    fulfils hfilled hlives hgiven
  rw [hsame] at hat
  cases hat
  exact hlooked

include hdeclared

theorem reached_of_reachesBody {slot : LifecycleSlot} {depth : Nat}
    {body : FunctionFixture} {level : Level}
    (hreached : fixture.ReachesBody slot depth)
    (hfound : fixture.bodyAt? slot depth = some body)
    (hat : (chains slot)[depth]? = some level) :
    ∃ first, (first = .create ∨ first = .read ∨ first = .update) ∧
      ∃ func, component.lifecycle? first = some func ∧
        Relation.ReflTransGen p.CallsFunction func level.func := by
  induction hreached generalizing body level with
  | @setting slot hsetting =>
      refine ⟨slot, hsetting, level.func, ?_, .refl⟩
      rw [Component.lifecycle?, hdeclared]
      exact first_level hfilled hlives hfound hat
  | @helper slot depth caller inner hreached hinside hhelped ih =>
      obtain ⟨level', hat_'⟩ := exists_level hfilled hlives hinside
      obtain ⟨first, hsetting, func, hstarted, hchain⟩ := ih hinside hat_'
      have hcalls : p.CallsFunction level'.func level.func :=
        Meets.callsFunction hfilled hlives ⟨hreached, hinside, hat_'⟩
          (.inr (by rw [hat, Option.map_some]))
      exact ⟨first, hsetting, func, hstarted, hchain.tail hcalls⟩
  | @call slot depth caller other hreached hinside hlisted ih =>
      obtain ⟨level', hat_'⟩ := exists_level hfilled hlives hinside
      obtain ⟨first, hsetting, func, hstarted, hchain⟩ := ih hinside hat_'
      have hcalls : p.CallsFunction level'.func level.func :=
        Meets.callsFunction hfilled hlives ⟨hreached, hinside, hat_'⟩
          (.inl ⟨other, hlisted, first_level hfilled hlives hfound hat⟩)
      exact ⟨first, hsetting, func, hstarted, hchain.tail hcalls⟩

theorem Meets.reachedBySetting {slot : LifecycleSlot} {depth : Nat}
    {body : FunctionFixture} {level : Level}
    (hmeets : fixture.Meets chains slot depth body level) {site : ValueId × Pos}
    (hlisted : site ∈ level.sites) (sdk : Sdk) :
    RuleContext.ReachedBySetting ⟨p, sdk⟩ component (.define site.1) := by
  obtain ⟨first, hsetting, func, hstarted, hchain⟩ :=
    reached_of_reachesBody hfilled hlives hdeclared hmeets.reached hmeets.body
      hmeets.level
  obtain ⟨instructions, calls, hfound, hmade, -⟩ :=
    (hmeets.performs hfilled hlives).body
  have hinside : (site.1, plugin.set) ∈
      level.sites.map (fun site => (site.1, plugin.set)) ++ calls :=
    List.mem_append_left _ (List.mem_map_of_mem hlisted)
  exact ⟨first, hsetting, func, hstarted,
    Package.reachesInstruction_iff.2
      ⟨level.func, instructions, hchain, hfound, (hmade.mem hinside).1⟩⟩

end

end ComponentFixture

end SchemaLint
