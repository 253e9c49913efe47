import SchemaLint.Proofs.Queries.Rules
import SchemaLint.Proofs.Walk.Reach
import SchemaLint.Proofs.Yields

/-!
# The search for set calls

The walks from the functions that create, read and update a component meet calls
of the setter. The search keeps the first site of each identity and ends at the
first one with a wrong number of arguments, so its answer depends only on the
sites that the walks meet, in order.
-/

namespace SchemaLint

namespace Package

variable {p : Package}

/-- The instruction stands in the body of `f` or in one that known calls lead to
from there. -/
def ReachesInstruction (p : Package) (f : FuncId) (instruction : Instruction) :
    Prop :=
  ∃ start, p.instructions f = .ok start ∧ (instruction ∈ start ∨
    ∃ g body, p.Reach (fun _ => false) start g ∧ p.instructions g = .ok body ∧
    instruction ∈ body)

theorem Covers.mem_iff_reachesInstruction {f : FuncId}
    {start visited : List Instruction} {entered : List FuncId}
    (hcovers : p.Covers (fun _ => false) start visited entered)
    (hbody : p.instructions f = .ok start) (instruction : Instruction) :
    instruction ∈ visited ↔ p.ReachesInstruction f instruction := by
  rw [hcovers.once.mem_iff, List.mem_append, List.mem_flatMap]
  constructor
  · rintro (hinStart | ⟨g, hinEntered, hinBody⟩)
    · exact ⟨start, hbody, .inl hinStart⟩
    · exact ⟨start, hbody, .inr ⟨g, p.bodyOf g,
          (hcovers.reached g).1 hinEntered, hcovers.found g hinEntered,
          hinBody⟩⟩
  · rintro ⟨other, hsame, hreached⟩
    cases hbody.symm.trans hsame
    rcases hreached with hinStart | ⟨g, inner, hreached, hfound, hmember⟩
    · exact .inl hinStart
    · exact .inr ⟨g, (hcovers.reached g).2 hreached, by rwa [bodyOf_eq hfound]⟩

theorem ReachesInstruction.mem_body {f : FuncId} {instruction : Instruction}
    (hreached : p.ReachesInstruction f instruction) :
    ∃ g ∈ p.functions.toList, instruction ∈ g.instructions := by
  have hinTable :
      ∀ {g : FuncId} {body : List Instruction}, p.instructions g = .ok body →
        instruction ∈ body →
      ∃ g ∈ p.functions.toList, instruction ∈ g.instructions := by
    intro g body hfound hmember
    obtain ⟨entry, hknown, hsame⟩ := Access.bind_eq_ok_iff.1 hfound
    cases hsame
    unfold funcAt at hknown
    split at hknown
    · next hatIndex =>
        cases hknown
        exact ⟨_, Array.mem_toList_iff.2 (Array.mem_of_getElem? hatIndex),
          hmember⟩
    · cases hknown
  obtain ⟨start, hbody, hinStart | ⟨g, inner, -, hfound, hmember⟩⟩ := hreached
  · exact hinTable hbody hinStart
  · exact hinTable hfound hmember

def walkFrom (p : Package) (f : FuncId) : Access (List Instruction) := do
  p.walk (fun _ => false) (← p.instructions f)

end Package

namespace RuleContext

variable {ctx : RuleContext}

/-! ## Calls of the setter -/

/-- The call is known to go to a function of the setter's name. -/
def Sets (ctx : RuleContext) (call : Call) : Prop :=
  ∃ callee, ctx.package.ResolvesTo call callee ∧
    ctx.package.funcName callee = .ok ctx.sdk.set

inductive SetsAt (ctx : RuleContext) : Instruction → CallSite → Prop
  | call {id value call} :
    ctx.package.valueAt id = .ok value → value.operation = .call call →
    ctx.Sets call →
      SetsAt ctx (.define id) ⟨call, some id, value.pos⟩
  | go {call pos} : ctx.Sets call → SetsAt ctx (.go call pos) ⟨call, none, pos⟩
  | defer {call pos} :
    ctx.Sets call → SetsAt ctx (.defer call pos) ⟨call, none, pos⟩

def setterSite? (ctx : RuleContext) (instruction : Instruction) :
    Option CallSite :=
  match ctx.namedCall? instruction with
  | .ok (some (site, name)) => if name = ctx.sdk.set then some site else none
  | _ => none

theorem namedCall?_eq_some_iff {instruction : Instruction} {site : CallSite}
    {name : String} :
    ctx.namedCall? instruction = .ok (some (site, name)) ↔
      ctx.package.callSite? instruction = .ok (some site) ∧
        ∃ callee, ctx.package.ResolvesTo site.call callee ∧
          ctx.package.funcName callee = .ok name := by
  constructor
  · intro hknown
    obtain ⟨found, hatSite, hknown⟩ := Access.bind_eq_ok_iff.1 hknown
    cases found with
    | none => cases hknown
    | some found =>
        obtain ⟨callee, hresolved, hknown⟩ := Access.bind_eq_ok_iff.1 hknown
        cases callee with
        | none => cases hknown
        | some callee =>
            obtain ⟨called, hnamed, hknown⟩ := Access.bind_eq_ok_iff.1 hknown
            cases hknown
            exact ⟨hatSite, callee,
              Package.staticCallee?_eq_some_iff.1 hresolved, hnamed⟩
  · rintro ⟨hatSite, callee, hresolves, hnamed⟩
    simp [namedCall?, hatSite, Package.staticCallee?_eq_some_iff.2 hresolves,
      hnamed]

theorem setsAt_iff {instruction : Instruction} {site : CallSite} :
    ctx.SetsAt instruction site ↔
      ctx.package.callSite? instruction = .ok (some site) ∧
        ctx.Sets site.call := by
  constructor
  · intro hsets
    cases hsets with
    | call hentry hoperation hsets =>
        exact ⟨by simp [Package.callSite?, hentry, hoperation], hsets⟩
    | go hsets | defer hsets => exact ⟨rfl, hsets⟩
  · rintro ⟨hatSite, hsets⟩
    cases instruction with
    | define id =>
        obtain ⟨value, hentry, hatSite⟩ := Access.bind_eq_ok_iff.1 hatSite
        split at hatSite
        · next call hoperation =>
            cases hatSite
            exact .call hentry hoperation hsets
        · cases hatSite
    | go call pos =>
        cases hatSite
        exact .go hsets
    | defer call pos =>
        cases hatSite
        exact .defer hsets
    | _ => cases hatSite

theorem setterSite?_eq_some_iff {instruction : Instruction} {site : CallSite} :
    ctx.setterSite? instruction = some site ↔ ctx.SetsAt instruction site := by
  rw [setsAt_iff, Sets, ← namedCall?_eq_some_iff, setterSite?]
  cases ctx.namedCall? instruction with
  | error fault => simp
  | ok answer =>
      cases answer with
      | none => simp
      | some named =>
          by_cases hsets : named.2 = ctx.sdk.set <;> simp [hsets, Prod.ext_iff]

theorem SetsAt.unique {instruction : Instruction} {site site' : CallSite}
    (hone : ctx.SetsAt instruction site)
    (hother : ctx.SetsAt instruction site') : site = site' := by
  have hknown := setterSite?_eq_some_iff.2 hone
  rw [setterSite?_eq_some_iff.2 hother] at hknown
  exact (Option.some.inj hknown).symm

end RuleContext

/-! ## Sites that are new -/

def newSites (seen : List (Option ValueId × Pos)) :
    List CallSite → List CallSite
  | [] => []
  | site :: rest =>
    if site.identity ∈ seen then newSites seen rest
    else site :: newSites (site.identity :: seen) rest

theorem newSites_not_seen {seen : List (Option ValueId × Pos)}
    {sites : List CallSite} {site : CallSite}
    (hmember : site ∈ newSites seen sites) : site.identity ∉ seen := by
  induction sites generalizing seen with
  | nil => simp [newSites] at hmember
  | cons first rest ih =>
      simp only [newSites] at hmember
      split at hmember
      · exact ih hmember
      · next hfresh =>
          rcases List.mem_cons.1 hmember with rfl | hlater
          · exact hfresh
          · exact fun hold => ih hlater (List.mem_cons_of_mem _ hold)

private theorem newSites_sublist (seen : List (Option ValueId × Pos))
    (sites : List CallSite) : (newSites seen sites).Sublist sites := by
  induction sites generalizing seen with
  | nil => exact .slnil
  | cons site rest ih =>
      simp only [newSites]
      split
      · exact (ih seen).cons site
      · exact (ih (site.identity :: seen)).cons_cons site

def CallSite.takesThree (site : CallSite) : Bool := site.call.args.length == 3

def CallSite.miscount (site : CallSite) : RuleError :=
  ⟨"ResourceData.Set", site.call.args.length, site.pos⟩

/-! ## The search as a fold over sites -/

def SetSearch.noted (search : SetSearch) (site : CallSite) : SetSearch :=
  if search.error.isSome ∨ site.identity ∈ search.seen then search
  else
    let search := { search with seen := site.identity :: search.seen }
    if site.takesThree then { search with sites := site :: search.sites }
    else { search with error := some site.miscount }

theorem SetSearch.foldl_noted_of_ended {search : SetSearch}
    (hended : search.error.isSome) (sites : List CallSite) :
    sites.foldl noted search = search := by
  induction sites with
  | nil => rfl
  | cons site rest ih => simpa [noted, hended] using ih

private theorem SetSearch.foldl_noted {search : SetSearch}
    (hrunning : search.error = none) (sites : List CallSite) :
    (sites.foldl noted search).sites =
        ((newSites search.seen sites).takeWhile CallSite.takesThree).reverse ++
          search.sites ∧
      (sites.foldl noted search).error =
        ((newSites search.seen sites).find? (!·.takesThree)).map
          CallSite.miscount := by
  induction sites generalizing search with
  | nil => simp [newSites, hrunning]
  | cons site rest ih =>
      rw [List.foldl_cons]
      by_cases hold : site.identity ∈ search.seen
      · simpa [noted, newSites, hold] using ih hrunning
      · by_cases hwhole : site.takesThree
        · have hnext :=
            @ih { search with
              seen := site.identity :: search.seen
              sites := site :: search.sites } hrunning
          simpa [noted, newSites, hold, hrunning, hwhole] using hnext
        · simp [noted, newSites, hold, hrunning, hwhole, foldl_noted_of_ended]

namespace RuleContext

variable {ctx : RuleContext}

theorem noteSetCall_eq (hwf : ctx.package.WellFormed) {search : SetSearch}
    (hrunning : search.error = none) {instruction : Instruction}
    (hhas : ctx.package.HasInstruction instruction) :
    ctx.noteSetCall search instruction =
      .ok ((ctx.setterSite? instruction).toList.foldl SetSearch.noted search,
        ((ctx.setterSite? instruction).toList.foldl SetSearch.noted
          search).error.isNone) := by
  obtain ⟨answer, hknown, -⟩ := namedCall?_faultless hwf hhas
  rcases answer with _ | ⟨site, name⟩
  · simp [noteSetCall, setterSite?, hknown, hrunning]
  · by_cases hsets : name = ctx.sdk.set
    · subst hsets
      by_cases hold : site.identity ∈ search.seen
      · simp [noteSetCall, setterSite?, hknown, hrunning, hold, SetSearch.noted]
      · by_cases hwhole : site.call.args.length = 3
        · simp [noteSetCall, setterSite?, hknown, hrunning, hold,
            SetSearch.noted, CallSite.takesThree, hwhole]
        · simp [noteSetCall, setterSite?, hknown, hrunning, hold,
            SetSearch.noted, CallSite.takesThree, hwhole, CallSite.miscount]
    · simp [noteSetCall, setterSite?, hknown, hrunning, hsets]

private theorem visitAll_noteSetCall (hwf : ctx.package.WellFormed)
    {list : List Instruction}
    (hinside : ∀ i ∈ list, ctx.package.HasInstruction i) {search : SetSearch}
    (hrunning : search.error = none) :
    Package.visitAll ctx.noteSetCall search list =
      .ok ((list.filterMap ctx.setterSite?).foldl SetSearch.noted search) := by
  induction list generalizing search with
  | nil => rfl
  | cons i rest ih =>
      rw [Package.visitAll,
        noteSetCall_eq hwf hrunning (hinside i List.mem_cons_self)]
      have hsites : (i :: rest).filterMap ctx.setterSite? =
          (ctx.setterSite? i).toList ++ rest.filterMap ctx.setterSite? := by
        rw [List.filterMap_cons]
        cases ctx.setterSite? i <;> rfl
      rw [hsites, List.foldl_append]
      generalize (ctx.setterSite? i).toList.foldl SetSearch.noted search = later
      cases hended : later.error with
      | none =>
          simpa [hended] using ih
            (fun j hmember => hinside j (List.mem_cons_of_mem _ hmember)) hended
      | some error => simp [hended, SetSearch.foldl_noted_of_ended]

/-! ## Walks -/

/-- What the walks from the functions that create, read and update visit, one
walk after the other. -/
def settingWalk (ctx : RuleContext) (component : Component) :
    Access (List Instruction) := do
  let funcs := [LifecycleSlot.create, .read, .update].filterMap
    component.lifecycle?
  return (← funcs.mapM ctx.package.walkFrom).flatten

def ReachedBySetting (ctx : RuleContext) (component : Component)
    (instruction : Instruction) : Prop :=
  ∃ slot, (slot = .create ∨ slot = .read ∨ slot = .update) ∧
    ∃ f, component.lifecycle? slot = some f ∧
      ctx.package.ReachesInstruction f instruction

theorem mem_settingSlots_iff {slot : LifecycleSlot} :
    slot ∈ settingSlots ↔ slot = .create ∨ slot = .read ∨ slot = .update := by
  simp [settingSlots]

theorem searchSlot_eq (hwf : ctx.package.WellFormed) {f : FuncId}
    (hhas : ctx.package.HasFunc f) :
    ∃ visited, ctx.package.walkFrom f = .ok visited ∧
      (∀ i ∈ visited, ctx.package.HasInstruction i) ∧
      (∀ i, i ∈ visited ↔ ctx.package.ReachesInstruction f i) ∧
      ∀ search, ctx.searchSlot search f =
        .ok ((visited.filterMap ctx.setterSite?).foldl SetSearch.noted
          search) := by
  obtain ⟨start, hbody, hinRange⟩ := hwf.instructions hhas
  have hahead : ∀ i ∈ [start].flatten, ctx.package.HasInstruction i := by
    simpa using hinRange
  obtain ⟨visited, entered, hwalked⟩ :=
    hwf.walked (fun _ => false) [] [start] hahead
  have hinside := hwalked.inside hwf hahead
  refine ⟨visited, ?_, hinside, hwalked.covers.mem_iff_reachesInstruction hbody,
    fun search => ?_⟩
  · simp [Package.walkFrom, hbody, hwalked.walk_eq]
  · cases hended : search.error with
    | none =>
        simp [searchSlot, hended, hbody, Package.inspect,
          hwalked.inspectFrom_eq, visitAll_noteSetCall hwf hinside hended]
    | some error => simp [searchSlot, hended, SetSearch.foldl_noted_of_ended]

theorem searchSlots_eq (hwf : ctx.package.WellFormed) {funcs : List FuncId}
    (hinside : ∀ f ∈ funcs, ctx.package.HasFunc f) :
    ∃ walks, funcs.mapM ctx.package.walkFrom = .ok walks ∧
      (∀ i ∈ walks.flatten, ctx.package.HasInstruction i) ∧
      (∀ i, i ∈ walks.flatten ↔
        ∃ f ∈ funcs, ctx.package.ReachesInstruction f i) ∧
      ∀ search, funcs.foldlM ctx.searchSlot search =
        .ok ((walks.flatten.filterMap ctx.setterSite?).foldl SetSearch.noted
          search) := by
  induction funcs with
  | nil => exact ⟨[], rfl, by simp, by simp, fun _ => rfl⟩
  | cons f rest ih =>
      obtain ⟨visited, hwalk, hinRange, hreached, hfirst⟩ :=
        searchSlot_eq hwf (hinside f List.mem_cons_self)
      obtain ⟨walks, hothers, hallInRange, hallReached, hremaining⟩ :=
        ih fun g hmember => hinside g (List.mem_cons_of_mem _ hmember)
      refine ⟨visited :: walks, by simp [hwalk, hothers], ?_, fun i => ?_,
        fun search => ?_⟩
      · exact List.forall_mem_append.2 ⟨hinRange, hallInRange⟩
      · rw [List.flatten_cons, List.mem_append, hreached, hallReached]
        simp
      · simp [hfirst, hremaining, List.filterMap_append]

/-! ## Entries -/

/-- What is listed for a site with three arguments: an entry if the name
argument traces to a string constant. -/
inductive EntryOf (ctx : RuleContext) (site : CallSite) : Option SetCall → Prop
  | named {receiver name value root text} :
    site.call.args = [receiver, name, value] →
    ctx.package.root name = .ok root →
      ctx.package.operationAt root = .ok (.const (.string text)) →
      EntryOf ctx site (some ⟨text, value, site.pos⟩)
  | unnamed {receiver name value root} :
    site.call.args = [receiver, name, value] →
    ctx.package.root name = .ok root →
      (∀ text, ctx.package.operationAt root ≠ .ok (.const (.string text))) →
      EntryOf ctx site none

theorem setCallAt?_yields (hwf : ctx.package.WellFormed) {site : CallSite}
    (hholds : ctx.package.HoldsCall site.call) (hwhole : site.takesThree) :
    ∃ entry, (ctx.setCallAt? site).Yields entry ∧ ctx.EntryOf site entry := by
  obtain ⟨receiver, name, value, hargs⟩ : ∃ receiver name value,
      site.call.args = [receiver, name, value] :=
    List.length_eq_three.1 (by simpa [CallSite.takesThree] using hwhole)
  have hinside : ctx.package.HasValue name :=
    hholds name (by simp [Call.operands, hargs])
  obtain ⟨trace, htraced, hofRoot, -⟩ := hwf.trace_hasValue hinside
  have hroot : ctx.package.root name = .ok trace.root := by
    simp [Package.root, htraced]
  obtain ⟨operation, hknown, -⟩ := hwf.operationAt hofRoot
  obtain ⟨constant, hread, -⟩ := hwf.constString? hofRoot
  have hanswer : (ctx.setCallAt? site).Yields
      (constant.map fun text => ⟨text, value, site.pos⟩) := by
    simp only [setCallAt?, hargs, Report.bind_yields,
      Analysis.constString?_yields]
    refine ⟨constant, ⟨trace.root, hroot, hread⟩, ?_⟩
    cases constant <;> simp
  refine ⟨_, hanswer, ?_⟩
  cases constant with
  | some text =>
      exact .named hargs hroot (Package.constString?_eq_some_iff.1 hread)
  | none =>
      refine .unnamed hargs hroot fun text hsame => ?_
      rw [Package.constString?_eq_some_iff.2 hsame] at hread
      cases hread

private theorem entries_yield (hwf : ctx.package.WellFormed)
    {sites : List CallSite}
    (hholds :
      ∀ site ∈ sites, ctx.package.HoldsCall site.call ∧ site.takesThree) :
    ∃ found, List.Forall₂ ctx.EntryOf sites found ∧
      (sites.filterMapM ctx.setCallAt?).Yields (found.filterMap id) := by
  have heach : ∃ found, List.Forall₂ (fun site entry =>
        (ctx.setCallAt? site).Yields entry ∧ ctx.EntryOf site entry)
      sites found := by
    induction sites with
    | nil => exact ⟨[], .nil⟩
    | cons site rest ih =>
        obtain ⟨⟨hinside, hwhole⟩, hothers⟩ := List.forall_mem_cons.1 hholds
        obtain ⟨entry, hfirst⟩ := setCallAt?_yields hwf hinside hwhole
        obtain ⟨found, hrelated⟩ := ih hothers
        exact ⟨entry :: found, .cons hfirst hrelated⟩
  obtain ⟨found, hrelated⟩ := heach
  refine ⟨found, hrelated.imp fun _ _ hboth => hboth.2, ?_⟩
  exact Report.filterMapM_yields.2
    ⟨found, hrelated.imp fun _ _ hboth => hboth.1, rfl⟩

def metSites (ctx : RuleContext) (visited : List Instruction) : List CallSite :=
  newSites [] (visited.filterMap ctx.setterSite?)

theorem mem_of_metSites {visited : List Instruction} {site : CallSite}
    (hmember : site ∈ ctx.metSites visited) :
    ∃ i ∈ visited, ctx.SetsAt i site := by
  obtain ⟨i, hinVisited, hknown⟩ :=
    List.mem_filterMap.1 ((newSites_sublist _ _).subset hmember)
  exact ⟨i, hinVisited, setterSite?_eq_some_iff.1 hknown⟩

theorem setCalls_outcome (hwf : ctx.package.WellFormed) {component : Component}
    (hinside :
      ∀ slot f, component.lifecycle? slot = some f → ctx.package.HasFunc f) :
    ∃ visited found, ctx.settingWalk component = .ok visited ∧
      (∀ i, i ∈ visited ↔ ctx.ReachedBySetting component i) ∧
      List.Forall₂ ctx.EntryOf
        ((ctx.metSites visited).takeWhile CallSite.takesThree) found ∧
      (ctx.setCalls component).outcome =
        match (ctx.metSites visited).find? (!·.takesThree) with
        | some site => .error (.cause site.miscount)
        | none => .ok (found.filterMap id) := by
  have hdeclared : ∀ f ∈ settingSlots.filterMap component.lifecycle?,
      ctx.package.HasFunc f := by
    intro f hmember
    obtain ⟨slot, -, hfound⟩ := List.mem_filterMap.1 hmember
    exact hinside slot f hfound
  obtain ⟨walks, hwalked, hinRange, hreached, hsearched⟩ :=
    searchSlots_eq hwf hdeclared
  obtain ⟨hsites, herror⟩ :=
    @SetSearch.foldl_noted {} rfl (walks.flatten.filterMap ctx.setterSite?)
  have hwhole :
      ∀ site ∈ (ctx.metSites walks.flatten).takeWhile CallSite.takesThree,
      ctx.package.HoldsCall site.call ∧ site.takesThree := by
    intro site hmember
    obtain ⟨i, hinWalks, hsets⟩ :=
      mem_of_metSites ((List.takeWhile_sublist _).subset hmember)
    exact ⟨(hwf.callSite? (hinRange i hinWalks)).of_ok (setsAt_iff.1 hsets).1
        site rfl, List.all_eq_true.1 List.all_takeWhile site hmember⟩
  obtain ⟨found, hrelated, hyields⟩ := entries_yield hwf hwhole
  refine ⟨walks.flatten, found, ?_, fun i => ?_, hrelated, ?_⟩
  · rw [settingSlots] at hwalked
    simp [settingWalk, hwalked]
  · rw [hreached, ReachedBySetting]
    simp only [List.mem_filterMap, mem_settingSlots_iff]
    grind
  · have hlisted :
        ((walks.flatten.filterMap ctx.setterSite?).foldl SetSearch.noted
          {}).sites.reverse =
        (ctx.metSites walks.flatten).takeWhile CallSite.takesThree := by
      rw [hsites, List.reverse_append, List.reverse_reverse]
      rfl
    rw [setCalls, searchComponent, hsearched]
    refine (Report.Yields.bind_outcome (Analysis.ofAccess_yields.2 rfl) _).trans
      ?_
    rw [hlisted, hyields.bind_outcome, herror]
    simp only [metSites]
    cases List.find? _ _ <;> rfl

end RuleContext

end SchemaLint
