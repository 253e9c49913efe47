import SchemaLint.Proofs.Queries.Rules
import SchemaLint.Proofs.Walk.Reach

/-!
# What a blacklist reports

A blacklist reports the denied calls that the lifecycle functions of a component
reach, each callee name and position once. `DeniedCall` says which calls these
are in terms of reachability alone, without the walk that finds them.
-/

namespace SchemaLint

namespace Package

variable {p : Package}

/-- The instruction is a call, a go or a defer statement at `pos` that is known
to go to the function. -/
inductive CallAt (p : Package) : Instruction → FuncId → Pos → Prop
  | call {id value call f} :
    p.valueAt id = .ok value → value.operation = .call call →
    p.ResolvesTo call f →
      CallAt p (.define id) f value.pos
  | go {call pos f} : p.ResolvesTo call f → CallAt p (.go call pos) f pos
  | defer {call pos f} : p.ResolvesTo call f → CallAt p (.defer call pos) f pos

theorem callAt_iff {instruction : Instruction} {f : FuncId} {pos : Pos} :
    p.CallAt instruction f pos ↔
      ∃ site, p.callSite? instruction = .ok (some site) ∧ site.pos = pos ∧
        p.staticCallee? site.call = .ok (some f) := by
  constructor
  · intro hcalls
    cases hcalls with
    | @call id value call f hentry hoperation hresolves =>
        refine ⟨⟨call, some id, value.pos⟩, ?_, rfl,
          staticCallee?_eq_some_iff.2 hresolves⟩
        simp [callSite?, hentry, hoperation]
    | go hresolves | defer hresolves =>
        exact ⟨_, rfl, rfl, staticCallee?_eq_some_iff.2 hresolves⟩
  · rintro ⟨site, hknown, rfl, hresolved⟩
    have hresolves := staticCallee?_eq_some_iff.1 hresolved
    cases instruction with
    | define id =>
        obtain ⟨value, hentry, hknown⟩ := Access.bind_eq_ok_iff.1 hknown
        split at hknown
        · next call hoperation =>
            cases hknown
            exact .call hentry hoperation hresolves
        · cases hknown
    | go call pos =>
        cases hknown
        exact .go hresolves
    | defer call pos =>
        cases hknown
        exact .defer hresolves
    | _ => cases hknown

/-- `ReachesPast p barred f g`: known calls lead from `f` to `g`, none of them
into a function called `barred`. -/
inductive ReachesPast (p : Package) (barred : String) (f : FuncId) :
    FuncId → Prop
  | refl : ReachesPast p barred f f
  | call {g h body instruction name} :
    ReachesPast p barred f g → p.instructions g = .ok body →
    instruction ∈ body → p.StaticCall instruction h →
      p.funcName h = .ok name → name ≠ barred → ReachesPast p barred f h

theorem StaticCall.hasFunc (hwf : p.WellFormed) {instruction : Instruction}
    {f : FuncId} (hcalls : p.StaticCall instruction f)
    (hhas : p.HasInstruction instruction) : p.HasFunc f :=
  (hwf.callee? hhas).of_ok (callee?_eq_some_iff.2 hcalls) f rfl

theorem ReachesPast.hasFunc (hwf : p.WellFormed) {barred : String}
    {f g : FuncId} (hreached : p.ReachesPast barred f g) (hhas : p.HasFunc f) :
    p.HasFunc g := by
  induction hreached with
  | refl => exact hhas
  | call _ hfound hmember hcalls _ _ ih =>
      exact hcalls.hasFunc hwf ((hwf.instructions ih).of_ok hfound _ hmember)

end Package

namespace CallBlacklist

open Package

variable {ctx : RuleContext}

def Denies (blacklist : CallBlacklist) (slot : LifecycleSlot) (name : String) :
    Prop :=
  ∃ denied, (slot, denied) ∈ blacklist.slots ∧ name ∈ denied

def NamedCall (ctx : RuleContext) (instruction : Instruction)
    (pair : String × Pos) : Prop :=
  ∃ callee, ctx.package.CallAt instruction callee pair.2 ∧
    ctx.package.funcName callee = .ok pair.1

/-- A call of a function of the given name stands at the position, in a body
that the function `f` reaches without going into the function that removes a
component from the state. -/
def ReachedCall (ctx : RuleContext) (f : FuncId) (pair : String × Pos) : Prop :=
  ∃ g body instruction, ctx.package.ReachesPast ctx.sdk.removeFromState f g ∧
    ctx.package.instructions g = .ok body ∧ instruction ∈ body ∧
    NamedCall ctx instruction pair

/-- For some slot, a call to a function whose name is denied there is reached
from the function of the slot, which is not itself the one that removes a
component from the state. -/
def DeniedCall (blacklist : CallBlacklist) (ctx : RuleContext)
    (component : Component) (pair : String × Pos) : Prop :=
  ∃ slot f own, component.lifecycle? slot = some f ∧
    ctx.package.funcName f = .ok own ∧
    own ≠ ctx.sdk.removeFromState ∧ blacklist.Denies slot pair.1 ∧
    ReachedCall ctx f pair

/-! ## Reachability in walks -/

theorem isRemoval_eq_false_iff (hwf : ctx.package.WellFormed) {f : FuncId}
    (hhas : ctx.package.HasFunc f) :
    isRemoval ctx f = false ↔ ∃ name, ctx.package.funcName f = .ok name ∧
        name ≠ ctx.sdk.removeFromState := by
  obtain ⟨name, hknown, -⟩ := hwf.funcName hhas
  simp [isRemoval, hknown]

theorem reachesPast_iff (hwf : ctx.package.WellFormed) {f g : FuncId}
    (hhas : ctx.package.HasFunc f) {start : List Instruction}
    (hbody : ctx.package.instructions f = .ok start) :
    ctx.package.ReachesPast ctx.sdk.removeFromState f g ↔
      g = f ∨ ctx.package.Reach (isRemoval ctx) start g := by
  constructor
  · intro hreached
    induction hreached with
    | refl => exact .inl rfl
    | @call g h inner instruction name hreached hfound hmember hcalls hnamed
        hother ih =>
        have hinG := hreached.hasFunc hwf hhas
        have hinH :=
          hcalls.hasFunc hwf ((hwf.instructions hinG).of_ok hfound _ hmember)
        have hunsealed :=
          (isRemoval_eq_false_iff hwf hinH).2 ⟨name, hnamed, hother⟩
        refine .inr ?_
        rcases ih with rfl | honward
        · cases hbody.symm.trans hfound
          exact .start hmember hcalls hunsealed
        · exact .body honward hfound hmember hcalls hunsealed
  · -- Each step of `Reach` goes into a function of the table, so its name is
    -- known.
    have hstep :
        ∀ {g h : FuncId} {inner : List Instruction} {instruction : Instruction},
        ctx.package.ReachesPast ctx.sdk.removeFromState f g →
        ctx.package.instructions g = .ok inner →
        instruction ∈ inner → ctx.package.StaticCall instruction h →
        isRemoval ctx h = false →
        ctx.package.ReachesPast ctx.sdk.removeFromState f h := by
      intro g h inner instruction hreached hfound hmember hcalls hunsealed
      have hinG := hreached.hasFunc hwf hhas
      have hinH :=
        hcalls.hasFunc hwf ((hwf.instructions hinG).of_ok hfound _ hmember)
      obtain ⟨name, hnamed, hother⟩ :=
        (isRemoval_eq_false_iff hwf hinH).1 hunsealed
      exact .call hreached hfound hmember hcalls hnamed hother
    rintro (rfl | hreached)
    · exact .refl
    · induction hreached with
      | start hmember hcalls hunsealed =>
          exact hstep .refl hbody hmember hcalls hunsealed
      | body _ hfound hmember hcalls hunsealed ih =>
          exact hstep ih hfound hmember hcalls hunsealed

/-- The calls that a walk from the body of `f` meets are the ones that `f`
reaches. -/
theorem exists_visited_iff_reachedCall (hwf : ctx.package.WellFormed)
    {f : FuncId} (hhas : ctx.package.HasFunc f)
    {start visited : List Instruction} {entered : List FuncId}
    (hbody : ctx.package.instructions f = .ok start)
    (hcovers : ctx.package.Covers (isRemoval ctx) start visited entered)
    (pair : String × Pos) :
    (∃ instruction ∈ visited, NamedCall ctx instruction pair) ↔
      ReachedCall ctx f pair := by
  constructor
  · rintro ⟨instruction, hmember, hnamed⟩
    rcases List.mem_append.1 (hcovers.once.mem_iff.1 hmember) with
      hinStart | hinBodies
    · exact ⟨f, start, instruction, .refl, hbody, hinStart, hnamed⟩
    · obtain ⟨g, hinEntered, hinBody⟩ := List.mem_flatMap.1 hinBodies
      have hreached := (hcovers.reached g).1 hinEntered
      exact ⟨g, _, instruction,
        (reachesPast_iff hwf hhas hbody).2 (.inr hreached),
        hcovers.found g hinEntered, hinBody, hnamed⟩
  · rintro ⟨g, inner, instruction, hreached, hfound, hmember, hnamed⟩
    refine ⟨instruction, hcovers.once.mem_iff.2 (List.mem_append.2 ?_), hnamed⟩
    rcases (reachesPast_iff hwf hhas hbody).1 hreached with rfl | honward
    · cases hbody.symm.trans hfound
      exact .inl hmember
    · refine .inr (List.mem_flatMap.2 ⟨g, (hcovers.reached g).2 honward, ?_⟩)
      rwa [bodyOf_eq hfound]

/-! ## Taking notes -/

/-- A search goes from `found` to `later` by adding the pairs of which `new`
holds, each once. -/
structure Adds (new : String × Pos → Prop) (found later : Found) : Prop where
  distinct : found.Nodup → later.Nodup
  mem_iff (pair : String × Pos) : pair ∈ later ↔ pair ∈ found ∨ new pair

theorem Adds.unchanged {new : String × Pos → Prop} {found : Found}
    (hknown : ∀ pair, new pair → pair ∈ found) : Adds new found found where
  distinct := id
  mem_iff pair := ⟨.inl, fun heither => heither.elim id (hknown pair)⟩

theorem Adds.trans {first second new : String × Pos → Prop}
    {found middle later : Found} (hone : Adds first found middle)
    (htwo : Adds second middle later)
    (hboth : ∀ pair, new pair ↔ first pair ∨ second pair) :
    Adds new found later where
  distinct := htwo.distinct ∘ hone.distinct
  mem_iff pair := by rw [htwo.mem_iff, hone.mem_iff, hboth, or_assoc]

theorem namedCall?_iff {instruction : Instruction}
    {answer : Option (CallSite × String)}
    (hknown : ctx.namedCall? instruction = .ok answer) (pair : String × Pos) :
    NamedCall ctx instruction pair ↔
      ∃ site, answer = some (site, pair.1) ∧ site.pos = pair.2 := by
  obtain ⟨site, hatSite, hknown⟩ := Access.bind_eq_ok_iff.1 hknown
  cases site with
  | none =>
      cases hknown
      simp [NamedCall, callAt_iff, hatSite]
  | some site =>
      obtain ⟨callee, hresolved, hknown⟩ := Access.bind_eq_ok_iff.1 hknown
      cases callee with
      | none =>
          cases hknown
          simp [NamedCall, callAt_iff, hatSite, hresolved]
      | some callee =>
          obtain ⟨name, hnamed, hknown⟩ := Access.bind_eq_ok_iff.1 hknown
          cases hknown
          simp [NamedCall, callAt_iff, hatSite, hresolved, hnamed, and_comm]

private theorem note_adds (hwf : ctx.package.WellFormed) (denied : List String)
    (found : Found) {instruction : Instruction}
    (hhas : ctx.package.HasInstruction instruction) :
    ∃ later, note ctx denied found instruction = .ok (later, true) ∧
      Adds (fun pair => NamedCall ctx instruction pair ∧ pair.1 ∈ denied) found
        later := by
  obtain ⟨answer, hknown, -⟩ := RuleContext.namedCall?_faultless hwf hhas
  have hnamed := namedCall?_iff hknown
  rcases answer with _ | ⟨site, name⟩
  · refine ⟨found, by simp [note, hknown], .unchanged ?_⟩
    rintro pair ⟨hcalls, -⟩
    simp [hnamed] at hcalls
  · by_cases hisNew : name ∈ denied ∧ (name, site.pos) ∉ found
    · refine ⟨(name, site.pos) :: found, by simp [note, hknown, hisNew], ?_, ?_⟩
      · exact fun hdistinct => List.nodup_cons.2 ⟨hisNew.2, hdistinct⟩
      · rintro ⟨callee, pos⟩
        simp only [hnamed, List.mem_cons, Prod.mk.injEq, Option.some.injEq]
        grind
    · have hpassed : (denied.contains name &&
            !found.contains (name, site.pos)) = false := by
        simpa [-not_and, Bool.eq_false_iff] using hisNew
      refine ⟨found, by simp only [note, hknown, Access.ok_bind, hpassed]; rfl,
        .unchanged ?_⟩
      rintro ⟨callee, pos⟩ ⟨hcalls, hlisted⟩
      simp only [hnamed, Option.some.injEq, Prod.mk.injEq] at hcalls
      grind

private theorem visitAll_note_adds (hwf : ctx.package.WellFormed)
    (denied : List String) {list : List Instruction}
    (hinside : ∀ i ∈ list, ctx.package.HasInstruction i) (found : Found) :
    ∃ later, visitAll (note ctx denied) found list = .ok later ∧
      Adds (fun pair => (∃ i ∈ list, NamedCall ctx i pair) ∧ pair.1 ∈ denied)
        found later := by
  induction list generalizing found with
  | nil => exact ⟨found, rfl, .unchanged (by simp)⟩
  | cons i rest ih =>
      obtain ⟨middle, hnoted, hfirst⟩ :=
        note_adds hwf denied found (hinside i List.mem_cons_self)
      obtain ⟨later, hvisited, hsecond⟩ :=
        ih (fun j hmember => hinside j (List.mem_cons_of_mem _ hmember)) middle
      refine ⟨later, by simp [visitAll, hnoted, hvisited],
        hfirst.trans hsecond fun pair => ?_⟩
      simp only [List.mem_cons, exists_eq_or_imp]
      tauto

/-! ## Slots -/

def SlotCall (ctx : RuleContext) (component : Component)
    (entry : LifecycleSlot × List String) (pair : String × Pos) : Prop :=
  ∃ f own, component.lifecycle? entry.1 = some f ∧
    ctx.package.funcName f = .ok own ∧
    own ≠ ctx.sdk.removeFromState ∧ pair.1 ∈ entry.2 ∧ ReachedCall ctx f pair

theorem deniedCall_iff {blacklist : CallBlacklist} {component : Component}
    {pair : String × Pos} :
    blacklist.DeniedCall ctx component pair ↔
      ∃ entry ∈ blacklist.slots, SlotCall ctx component entry pair := by
  constructor
  · rintro ⟨slot, f, own, hdeclared, hnamed, hother, ⟨denied, hlisted, hmember⟩,
      hreached⟩
    exact ⟨(slot, denied), hlisted, f, own, hdeclared, hnamed, hother, hmember,
      hreached⟩
  · rintro ⟨⟨slot, denied⟩, hlisted, f, own, hdeclared, hnamed, hother, hmember,
      hreached⟩
    exact ⟨slot, f, own, hdeclared, hnamed, hother, ⟨denied, hlisted, hmember⟩,
      hreached⟩

section

variable {component : Component}
  (hinside :
    ∀ slot f, component.lifecycle? slot = some f → ctx.package.HasFunc f)
include hinside

private theorem searchSlot_adds (hwf : ctx.package.WellFormed) (found : Found)
    (entry : LifecycleSlot × List String) :
    ∃ later, searchSlot ctx component found entry = .ok later ∧
      Adds (SlotCall ctx component entry) found later := by
  obtain ⟨slot, denied⟩ := entry
  by_cases hempty : denied = []
  · subst hempty
    refine ⟨found, by simp [searchSlot], .unchanged ?_⟩
    rintro pair ⟨f, own, -, -, -, hmember, -⟩
    simp at hmember
  cases hdeclared : component.lifecycle? slot with
  | none =>
      refine ⟨found, by simp [searchSlot, hdeclared, hempty], .unchanged ?_⟩
      rintro pair ⟨f, own, hother, -⟩
      simp [hdeclared] at hother
  | some f =>
      have hhas := hinside slot f hdeclared
      obtain ⟨own, hnamed, -⟩ := hwf.funcName hhas
      by_cases hremoval : own = ctx.sdk.removeFromState
      · refine ⟨found,
          by simp [searchSlot, hdeclared, hempty, hnamed, hremoval],
          .unchanged ?_⟩
        rintro pair ⟨g, name, hother, hcalled, hdifferent, -⟩
        cases hdeclared.symm.trans hother
        cases hnamed.symm.trans hcalled
        exact absurd hremoval hdifferent
      · obtain ⟨start, hbody, hinRange⟩ := hwf.instructions hhas
        have hahead : ∀ i ∈ [start].flatten, ctx.package.HasInstruction i := by
          simpa using hinRange
        obtain ⟨visited, final, hwalked⟩ :=
          hwf.walked (isRemoval ctx) [] [start] hahead
        obtain ⟨later, hnoted, hadds⟩ :=
          visitAll_note_adds hwf denied (hwalked.inside hwf hahead) found
        have hreached :=
          exists_visited_iff_reachedCall hwf hhas hbody hwalked.covers
        refine ⟨later, ?_, hadds.distinct, fun pair => ?_⟩
        · simp [searchSlot, hdeclared, hempty, hnamed, hremoval, hbody, inspect,
            hwalked.inspectFrom_eq, hnoted]
        · rw [hadds.mem_iff, hreached]
          simp [SlotCall, hdeclared, hnamed, hremoval, and_comm]

private theorem searchSlots_adds (hwf : ctx.package.WellFormed)
    (entries : List (LifecycleSlot × List String)) (found : Found) :
    ∃ later, entries.foldlM (searchSlot ctx component) found = .ok later ∧
      Adds (fun pair => ∃ entry ∈ entries, SlotCall ctx component entry pair)
        found later := by
  induction entries generalizing found with
  | nil => exact ⟨found, rfl, .unchanged (by simp)⟩
  | cons entry rest ih =>
      obtain ⟨middle, hsearched, hfirst⟩ :=
        searchSlot_adds hinside hwf found entry
      obtain ⟨later, hfolded, hsecond⟩ := ih middle
      refine ⟨later, by simp [List.foldlM_cons, hsearched, hfolded],
        hfirst.trans hsecond fun pair => ?_⟩
      simp [List.mem_cons, exists_eq_or_imp]

end

theorem check_reports_denied_calls_once (hvalid : ctx.package.validate = .ok ())
    (blacklist : CallBlacklist) {component : Component}
    (hinside :
      ∀ slot f, component.lifecycle? slot = some f → ctx.package.HasFunc f) :
    ∃ pairs : List (String × Pos), blacklist.check ctx component =
        .ok (pairs.map fun (callee, pos) =>
          Issue.new pos (blacklist.messageFor callee)) ∧ pairs.Nodup ∧
      ∀ pair, pair ∈ pairs ↔ blacklist.DeniedCall ctx component pair := by
  have hwf := validate_eq_ok_iff.1 hvalid
  obtain ⟨found, hsearched, hadds⟩ :=
    searchSlots_adds hinside hwf blacklist.slots []
  refine ⟨found.reverse, by simp [check, hsearched], ?_, fun pair => ?_⟩
  · exact List.nodup_reverse.2 (hadds.distinct List.nodup_nil)
  · simp [hadds.mem_iff, deniedCall_iff]

/-- A function that deletes calls a helper and defers the function that removes
from the state, which clears the id. The helper clears the id in a go statement
and calls back, and it also is the function that reads. -/
def warden : Package where
  path := "example.com/p"
  types := #[.signature [] [] false, .tuple []]
  values := #[
    ⟨.function ⟨0⟩, ⟨0⟩, .unknown, none, none⟩,
    ⟨.function ⟨1⟩, ⟨0⟩, .unknown, none, none⟩,
    ⟨.function ⟨2⟩, ⟨0⟩, .unknown, none, none⟩,
    ⟨.function ⟨3⟩, ⟨0⟩, .unknown, none, none⟩,
    ⟨.call ⟨⟨1⟩, none, []⟩, ⟨1⟩, ⟨1⟩, some ⟨0⟩, none⟩,
    ⟨.call ⟨⟨0⟩, none, []⟩, ⟨1⟩, ⟨4⟩, some ⟨1⟩, none⟩,
    ⟨.call ⟨⟨3⟩, none, []⟩, ⟨1⟩, ⟨5⟩, some ⟨2⟩, none⟩]
  functions := #[
    { name := "delete"
      package := some "example.com/p"
      receiver := none
      signature := ⟨0⟩
      params := []
      blocks :=
        some [⟨[.define ⟨4⟩, .defer ⟨⟨2⟩, none, []⟩ ⟨2⟩, .ret [] .unknown]⟩]
      pos := .unknown
      doc := none },
    { name := "read"
      package := some "example.com/p"
      receiver := none
      signature := ⟨0⟩
      params := []
      blocks :=
        some [⟨[.go ⟨⟨3⟩, none, []⟩ ⟨3⟩, .define ⟨5⟩, .ret [] .unknown]⟩]
      pos := .unknown
      doc := none },
    { name := "Remove"
      package := some "a/vendor/sdk"
      receiver := none
      signature := ⟨0⟩
      params := []
      blocks := some [⟨[.define ⟨6⟩, .ret [] .unknown]⟩]
      pos := .unknown
      doc := none },
    { name := "Clear"
      package := some "sdk"
      receiver := none
      signature := ⟨0⟩
      params := []
      blocks := none, pos := .unknown, doc := none }]

def wardenContext : RuleContext :=
  ⟨warden, { Sdk.usual with removeFromState := "sdk.Remove" }⟩

def wardenComponent : Component :=
  { (default : Component) with declared := [(.read, ⟨1⟩), (.delete, ⟨0⟩)] }

def wardenBlacklist : CallBlacklist :=
  ⟨"no \x7b\x7d here",
    [(.read, ["sdk.Clear"]), (.delete, ["sdk.Clear", "sdk.Remove"])]⟩

theorem warden_check_reports_denied_calls_once :
    warden.validate = .ok () ∧
      (∀ slot f, wardenComponent.lifecycle? slot = some f → warden.HasFunc f) ∧
      wardenBlacklist.DeniedCall wardenContext wardenComponent
        ("sdk.Clear", ⟨3⟩) ∧
      ∃ pairs : List (String × Pos), wardenBlacklist.check wardenContext
            wardenComponent =
          .ok (pairs.map fun (callee, pos) =>
            Issue.new pos (wardenBlacklist.messageFor callee)) ∧ pairs.Nodup ∧
        ∀ pair, pair ∈ pairs ↔
          wardenBlacklist.DeniedCall wardenContext wardenComponent pair := by
  have hinside : ∀ slot f, wardenComponent.lifecycle? slot = some f →
      warden.HasFunc f := by
    intro slot f hdeclared
    cases slot <;> cases hdeclared <;> decide
  refine ⟨by decide, hinside, ?_,
    check_reports_denied_calls_once (by decide) wardenBlacklist hinside⟩
  -- From the function that deletes, through the helper.
  have hhelper : warden.ReachesPast "sdk.Remove" ⟨0⟩ ⟨1⟩ := by
    have hnamed : warden.funcName ⟨1⟩ = .ok "example.com/p.read" := by
      decide +kernel
    exact .call .refl rfl (List.mem_cons_self ..)
      (.call rfl (.function rfl rfl)) hnamed (by decide)
  have hcleared : NamedCall wardenContext (.go ⟨⟨3⟩, none, []⟩ ⟨3⟩)
      ("sdk.Clear", ⟨3⟩) :=
    ⟨⟨3⟩, .go (.function rfl rfl), by decide +kernel⟩
  have hdenied : wardenBlacklist.Denies .delete "sdk.Clear" :=
    ⟨["sdk.Clear", "sdk.Remove"], by decide, by decide⟩
  exact ⟨.delete, ⟨0⟩, "example.com/p.delete", rfl, by decide +kernel,
    by decide, hdenied, ⟨1⟩, _, _, hhelper, rfl, List.mem_cons_self ..,
    hcleared⟩

end CallBlacklist

end SchemaLint
