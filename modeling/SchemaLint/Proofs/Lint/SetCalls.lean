import Mathlib.Data.List.TakeWhile
import SchemaLint.Proofs.Lint.SetSearch

/-!
# Which set calls are listed

Calls are told apart by their value, so each of them is listed, in the order of
the first visits. Go and defer statements have no value and are told apart by
their position alone: of those that share one, only the first visited is looked
at.
-/

namespace SchemaLint.RuleContext

variable {ctx : RuleContext}

/-! ## First visits -/

/-- The site is visited, and no visited site of the same identity comes before
it. -/
def FirstMet (ctx : RuleContext) (visited : List Instruction)
    (site : CallSite) : Prop :=
  ∃ before i after, visited = before ++ i :: after ∧ ctx.SetsAt i site ∧
    ∀ j ∈ before, ∀ other, ctx.SetsAt j other → other.identity ≠ site.identity

theorem firstMet_cons {i : Instruction} {rest : List Instruction}
    {site : CallSite} :
    ctx.FirstMet (i :: rest) site ↔
      ctx.SetsAt i site ∨
        (∀ other, ctx.SetsAt i other → other.identity ≠ site.identity) ∧
          ctx.FirstMet rest site := by
  constructor
  · rintro ⟨before, j, after, hsplit, hsets, hfresh⟩
    cases before with
    | nil =>
        cases hsplit
        exact .inl hsets
    | cons first before =>
        cases hsplit
        obtain ⟨hother, hfresh⟩ := List.forall_mem_cons.1 hfresh
        exact .inr ⟨hother, before, j, after, rfl, hsets, hfresh⟩
  · rintro (hsets | ⟨hother, before, j, after, rfl, hsets, hfresh⟩)
    · exact ⟨[], i, rest, rfl, hsets, by simp⟩
    · exact ⟨i :: before, j, after, rfl, hsets,
        List.forall_mem_cons.2 ⟨hother, hfresh⟩⟩

theorem mem_newSites_iff {seen : List (Option ValueId × Pos)}
    {visited : List Instruction} {site : CallSite} :
    site ∈ newSites seen (visited.filterMap ctx.setterSite?) ↔
      site.identity ∉ seen ∧ ctx.FirstMet visited site := by
  induction visited generalizing seen with
  | nil => simp [newSites, FirstMet]
  | cons i rest ih =>
      have hsets : ∀ other, ctx.SetsAt i other ↔
          ctx.setterSite? i = some other :=
        fun other => setterSite?_eq_some_iff.symm
      rw [List.filterMap_cons, firstMet_cons]
      cases hknown : ctx.setterSite? i with
      | none => simp [hsets, hknown, ih]
      | some first =>
          simp only [hsets, hknown, newSites, Option.some.injEq]
          split
          · rw [ih]
            grind
          · rw [List.mem_cons, ih, List.mem_cons]
            grind

theorem exists_firstMet {visited : List Instruction} {i : Instruction}
    {site : CallSite} (hmember : i ∈ visited) (hsets : ctx.SetsAt i site) :
    ∃ first, ctx.FirstMet visited first ∧ first.identity = site.identity := by
  induction visited with
  | nil => simp at hmember
  | cons j rest ih =>
      by_cases hhere :
        ∃ other, ctx.SetsAt j other ∧ other.identity = site.identity
      · obtain ⟨other, hsets, hsame⟩ := hhere
        exact ⟨other, firstMet_cons.2 (.inl hsets), hsame⟩
      · rcases List.mem_cons.1 hmember with rfl | hlater
        · exact absurd ⟨site, hsets, rfl⟩ hhere
        · obtain ⟨first, hmet, hsame⟩ := ih hlater
          refine ⟨first,
            firstMet_cons.2 (.inr ⟨fun other hsets hequal => ?_, hmet⟩), hsame⟩
          exact hhere ⟨other, hsets, hequal.trans hsame⟩

theorem FirstMet.unique {visited : List Instruction} {a b : CallSite}
    (hone : ctx.FirstMet visited a) (hother : ctx.FirstMet visited b)
    (hsame : a.identity = b.identity) : a = b := by
  induction visited with
  | nil => simp [FirstMet] at hone
  | cons i rest ih =>
      rcases firstMet_cons.1 hone with hsetsA | ⟨hnotA, hlaterA⟩
      · rcases firstMet_cons.1 hother with hsetsB | ⟨hnotB, -⟩
        · exact hsetsA.unique hsetsB
        · exact absurd hsame (hnotB a hsetsA)
      · rcases firstMet_cons.1 hother with hsetsB | ⟨-, hlaterB⟩
        · exact absurd hsame.symm (hnotA b hsetsB)
        · exact ih hlaterA hlaterB

theorem SetsAt.value_eq {id : ValueId} {site : CallSite}
    (hsets : ctx.SetsAt (.define id) site) : site.value = some id := by
  cases hsets
  rfl

theorem SetsAt.eq_define {i : Instruction} {id : ValueId} {site : CallSite}
    (hsets : ctx.SetsAt i site) (hvalue : site.value = some id) :
    i = .define id := by
  cases hsets <;> simp_all

/-- A value is one call, so every visited call is the first of its identity. -/
theorem SetsAt.firstMet {visited : List Instruction} {id : ValueId}
    {site : CallSite} (hsets : ctx.SetsAt (.define id) site)
    (hmember : .define id ∈ visited) : ctx.FirstMet visited site := by
  obtain ⟨first, hmet, hsame⟩ := exists_firstMet hmember hsets
  have ⟨before, i, after, _, hsetsFirst, _⟩ := hmet
  have hvalue : first.value = some id :=
    (congrArg Prod.fst hsame).trans hsets.value_eq
  cases hsetsFirst.eq_define hvalue
  rwa [hsets.unique hsetsFirst]

def VisitedBefore (ctx : RuleContext) (visited : List Instruction)
    (a b : CallSite) : Prop :=
  ∃ before i after, visited = before ++ i :: after ∧ ctx.SetsAt i a ∧
    ∀ j ∈ before ++ [i], ¬ctx.SetsAt j b

theorem VisitedBefore.asymm {visited : List Instruction} {a b : CallSite}
    (hone : ctx.VisitedBefore visited a b) :
    ¬ctx.VisitedBefore visited b a := by
  rintro ⟨before', j, after', hsplit', hsetsB, hnotA⟩
  obtain ⟨before, i, after, hsplit, hsetsA, hnotB⟩ := hone
  have hupToA : before ++ [i] <+: visited := ⟨after, by simp [hsplit]⟩
  have hupToB : before' ++ [j] <+: visited := ⟨after', by simp [hsplit']⟩
  rcases Nat.le_total (before ++ [i]).length (before' ++ [j]).length with
    hshorter | hshorter
  · exact hnotA i ((List.prefix_of_prefix_length_le hupToA hupToB
      hshorter).subset (by simp)) hsetsA
  · exact hnotB j ((List.prefix_of_prefix_length_le hupToB hupToA
      hshorter).subset (by simp)) hsetsB

theorem VisitedBefore.ne {visited : List Instruction} {a b : CallSite}
    (hone : ctx.VisitedBefore visited a b) : a ≠ b := by
  rintro rfl
  exact hone.asymm hone

private theorem newSites_inOrder (seen : List (Option ValueId × Pos))
    (visited : List Instruction) :
    (newSites seen (visited.filterMap ctx.setterSite?)).Pairwise
      (ctx.VisitedBefore visited) := by
  induction visited generalizing seen with
  | nil => exact .nil
  | cons i rest ih =>
      -- What is visited before in the rest is so in the whole, unless the
      -- second one is the site of `i` itself.
      have honward :
          ∀ {seen : List (Option ValueId × Pos)}, (∀ site, ctx.SetsAt i site →
            site.identity ∈ seen) →
          (newSites seen (rest.filterMap ctx.setterSite?)).Pairwise
            (ctx.VisitedBefore (i :: rest)) := by
        intro seen hold
        refine (ih seen).imp_of_mem ?_
        rintro a b - hmember ⟨before, j, after, hsplit, hsets, hnotB⟩
        refine ⟨i :: before, j, after, by simp [hsplit], hsets,
          List.forall_mem_cons.2 ⟨?_, hnotB⟩⟩
        exact fun hsetsB => newSites_not_seen hmember (hold b hsetsB)
      rw [List.filterMap_cons]
      cases hknown : ctx.setterSite? i with
      | none =>
          refine honward fun site hsets => ?_
          simp [setterSite?_eq_some_iff.2 hsets] at hknown
      | some first =>
          have hsets : ctx.SetsAt i first := setterSite?_eq_some_iff.1 hknown
          simp only [newSites]
          split
          · next hold =>
              exact honward fun site hother => hsets.unique hother ▸ hold
          · refine .cons (fun b hmember => ?_)
              (honward fun site hother => by simp [hsets.unique hother])
            refine ⟨[], i, rest, rfl, hsets, ?_⟩
            simp only [List.nil_append, List.mem_singleton, forall_eq]
            exact fun hsetsB =>
              newSites_not_seen hmember (by simp [hsets.unique hsetsB])

/-- The distinct calls of the setter, in the order of their first visit. -/
structure FirstVisits (ctx : RuleContext) (visited : List Instruction)
    (calls : List CallSite) : Prop where
  mem_iff (site : CallSite) :
    site ∈ calls ↔ ∃ id, .define id ∈ visited ∧ ctx.SetsAt (.define id) site
  distinct : (calls.map CallSite.value).Nodup
  inOrder : calls.Pairwise (ctx.VisitedBefore visited)

theorem FirstVisits.unique {visited : List Instruction}
    {calls calls' : List CallSite} (hone : ctx.FirstVisits visited calls)
    (hother : ctx.FirstVisits visited calls') : calls = calls' := by
  have hperm : calls.Perm calls' := by
    rw [List.perm_ext_iff_of_nodup hone.distinct.of_map hother.distinct.of_map]
    intro site
    rw [hone.mem_iff, hother.mem_iff]
  refine hperm.eq_of_pairwise ?_ hone.inOrder hother.inOrder
  intro a b _ _ hfirst hsecond
  exact absurd hsecond hfirst.asymm

/-- Without go and defer statements that call the setter, the sites met are the
calls of it. -/
theorem metSites_firstVisits {visited : List Instruction}
    (hplain : ∀ i ∈ visited, ∀ site, ctx.SetsAt i site → ∃ id, i = .define id) :
    ctx.FirstVisits visited (ctx.metSites visited) := by
  have hdefined : ∀ site ∈ ctx.metSites visited, ∃ id, .define id ∈ visited ∧
      ctx.SetsAt (.define id) site := by
    intro site hmember
    obtain ⟨i, hinVisited, hsets⟩ := mem_of_metSites hmember
    obtain ⟨id, rfl⟩ := hplain i hinVisited site hsets
    exact ⟨id, hinVisited, hsets⟩
  have hinOrder : (ctx.metSites visited).Pairwise (ctx.VisitedBefore visited) :=
    newSites_inOrder [] visited
  refine ⟨fun site => ⟨hdefined site, ?_⟩, ?_, hinOrder⟩
  · rintro ⟨id, hmember, hsets⟩
    exact mem_newSites_iff.2 ⟨by simp, hsets.firstMet hmember⟩
  · rw [List.Nodup, List.pairwise_map]
    refine hinOrder.imp_of_mem
      fun {a b} hinA hinB hbefore hsame => hbefore.ne ?_
    obtain ⟨id, -, hsets⟩ := hdefined a hinA
    obtain ⟨id', -, hsets'⟩ := hdefined b hinB
    rw [hsets.value_eq, hsets'.value_eq] at hsame
    cases hsame
    exact hsets.unique hsets'

/-! ## The list of set calls -/

theorem setCalls_lists_first_visits (hvalid : ctx.package.validate = .ok ())
    {component : Component}
    (hinside :
      ∀ slot f, component.lifecycle? slot = some f → ctx.package.HasFunc f)
    (hnoGo : ∀ call pos, ctx.ReachedBySetting component (.go call pos) →
        ¬ctx.Sets call)
    (hnoDefer : ∀ call pos, ctx.ReachedBySetting component (.defer call pos) →
        ¬ctx.Sets call) :
    ∃ visited calls, ctx.settingWalk component = .ok visited ∧
      ctx.FirstVisits visited calls ∧
      (∀ other, ctx.FirstVisits visited other → other = calls) ∧
      ((∃ failure, (ctx.setCalls component).outcome = .error failure) ↔
        ∃ site ∈ calls, site.call.args.length ≠ 3) ∧
      (∀ failure, (ctx.setCalls component).outcome = .error failure →
        ∃ before site after, calls = before ++ site :: after ∧
          (∀ earlier ∈ before, earlier.call.args.length = 3) ∧
          site.call.args.length ≠ 3 ∧
          failure =
            .cause ⟨"ResourceData.Set", site.call.args.length, site.pos⟩) ∧
      ∀ entries, (ctx.setCalls component).outcome = .ok entries →
        ∃ found, List.Forall₂ ctx.EntryOf calls found ∧
          entries = found.filterMap id := by
  have hwf := Package.validate_eq_ok_iff.1 hvalid
  obtain ⟨visited, found, hwalked, hreached, hrelated, houtcome⟩ :=
    setCalls_outcome hwf hinside
  have hplain : ∀ i ∈ visited, ∀ site, ctx.SetsAt i site →
      ∃ id, i = .define id := by
    intro i hmember site hsets
    cases hsets with
    | call => exact ⟨_, rfl⟩
    | go hsets => exact absurd hsets (hnoGo _ _ ((hreached _).1 hmember))
    | defer hsets => exact absurd hsets (hnoDefer _ _ ((hreached _).1 hmember))
  have hfirst := metSites_firstVisits hplain
  refine ⟨visited, ctx.metSites visited, hwalked, hfirst,
    fun other hsame => hsame.unique hfirst, ?_⟩
  rw [houtcome]
  cases hmalformed : (ctx.metSites visited).find? (!·.takesThree) with
  | some site =>
      obtain ⟨hwrong, before, after, hsplit, hwhole⟩ :=
        List.find?_eq_some_iff_append.1 hmalformed
      have hwrong : site.call.args.length ≠ 3 := by
        simpa [CallSite.takesThree] using hwrong
      refine ⟨⟨fun _ => ⟨site, by simp [hsplit], hwrong⟩, fun _ => ⟨_, rfl⟩⟩,
        ?_, by simp⟩
      rintro failure ⟨⟩
      exact ⟨before, site, after, hsplit,
        by simpa [CallSite.takesThree] using hwhole, hwrong, rfl⟩
  | none =>
      have hwhole : ∀ site ∈ ctx.metSites visited, site.takesThree := by
        simpa using hmalformed
      refine ⟨⟨by simp, ?_⟩, by simp, ?_⟩
      · rintro ⟨site, hmember, hwrong⟩
        exact absurd (hwhole site hmember)
          (by simpa [CallSite.takesThree] using hwrong)
      · rintro entries ⟨⟩
        rw [List.takeWhile_eq_self_iff.2 hwhole] at hrelated
        exact ⟨found, hrelated, rfl⟩

/-- The function that creates sets an attribute, calls the function that loads
and starts it once more. That one sets two attributes, of which the name of the
second is not a constant, and calls back. The functions that read and update
each set an attribute that no other function sets. -/
def ledger : Package where
  path := "example.com/p"
  types := #[.basic .string, .signature [] [] false, .tuple []]
  values := #[
    ⟨.function ⟨0⟩, ⟨1⟩, .unknown, none, none⟩,
    ⟨.function ⟨1⟩, ⟨1⟩, .unknown, none, none⟩,
    ⟨.function ⟨2⟩, ⟨1⟩, .unknown, none, none⟩,
    ⟨.const (.string "a"), ⟨0⟩, .unknown, none, none⟩,
    ⟨.const (.string "b"), ⟨0⟩, .unknown, none, none⟩,
    ⟨.const .nil, ⟨0⟩, .unknown, none, none⟩,
    ⟨.call ⟨⟨2⟩, none, [⟨5⟩, ⟨3⟩, ⟨4⟩]⟩, ⟨2⟩, ⟨1⟩, some ⟨0⟩, none⟩,
    ⟨.call ⟨⟨1⟩, none, []⟩, ⟨2⟩, ⟨2⟩, some ⟨0⟩, none⟩,
    ⟨.call ⟨⟨2⟩, none, [⟨5⟩, ⟨4⟩, ⟨3⟩]⟩, ⟨2⟩, ⟨3⟩, some ⟨1⟩, none⟩,
    ⟨.call ⟨⟨2⟩, none, [⟨5⟩, ⟨5⟩, ⟨3⟩]⟩, ⟨2⟩, ⟨4⟩, some ⟨1⟩, none⟩,
    ⟨.call ⟨⟨0⟩, none, []⟩, ⟨2⟩, ⟨5⟩, some ⟨1⟩, none⟩,
    ⟨.const (.string "c"), ⟨0⟩, .unknown, none, none⟩,
    ⟨.const (.string "d"), ⟨0⟩, .unknown, none, none⟩,
    ⟨.call ⟨⟨1⟩, none, []⟩, ⟨2⟩, ⟨7⟩, some ⟨3⟩, none⟩,
    ⟨.call ⟨⟨2⟩, none, [⟨5⟩, ⟨11⟩, ⟨5⟩]⟩, ⟨2⟩, ⟨8⟩, some ⟨3⟩, none⟩,
    ⟨.call ⟨⟨2⟩, none, [⟨5⟩, ⟨12⟩, ⟨5⟩]⟩, ⟨2⟩, ⟨9⟩, some ⟨4⟩, none⟩]
  functions := #[
    { name := "create", package := some "example.com/p", receiver := none
      signature := ⟨1⟩, params := []
      blocks := some [⟨[
        .define ⟨6⟩, .define ⟨7⟩, .go ⟨⟨1⟩, none, []⟩ ⟨6⟩,
        .ret [] .unknown]⟩]
      pos := .unknown, doc := none },
    { name := "load", package := some "example.com/p", receiver := none
      signature := ⟨1⟩, params := []
      blocks := some [⟨[
        .define ⟨8⟩, .define ⟨9⟩, .define ⟨10⟩, .ret [] .unknown]⟩]
      pos := .unknown, doc := none },
    { name := "Set", package := some "a/vendor/sdk", receiver := none
      signature := ⟨1⟩, params := [], blocks := none, pos := .unknown
      doc := none },
    { name := "read", package := some "example.com/p", receiver := none
      signature := ⟨1⟩, params := []
      blocks := some [⟨[.define ⟨13⟩, .define ⟨14⟩, .ret [] .unknown]⟩]
      pos := .unknown, doc := none },
    { name := "update", package := some "example.com/p", receiver := none
      signature := ⟨1⟩, params := []
      blocks := some [⟨[.define ⟨15⟩, .ret [] .unknown]⟩]
      pos := .unknown, doc := none }]

def ledgerContext : RuleContext := ⟨ledger, { Sdk.usual with set := "sdk.Set" }⟩

def ledgerComponent : Component :=
  { (default : Component) with
    declared := [(.create, ⟨0⟩), (.read, ⟨3⟩), (.update, ⟨4⟩)] }

/-- The only statement starts the function that loads, and nothing is
deferred. -/
private theorem ledger_statements {i : Instruction}
    (hreached : ledgerContext.ReachedBySetting ledgerComponent i) :
    (∀ call pos, i = .go call pos → call = ⟨⟨1⟩, none, []⟩) ∧
      ∀ call pos, i ≠ .defer call pos := by
  have hall : ∀ f ∈ ledger.functions.toList, ∀ i ∈ f.instructions,
      (match i with
        | .go call _ => call == ⟨⟨1⟩, none, []⟩
        | .defer .. => false
        | _ => true) = true := by decide
  obtain ⟨slot, -, f, -, hreached⟩ := hreached
  obtain ⟨g, hmember, hinBody⟩ := hreached.mem_body
  have hone := hall g hmember i hinBody
  constructor
  · rintro call pos rfl
    simpa using hone
  · rintro call pos rfl
    cases hone

theorem ledger_setCalls_lists_first_visits :
    ledger.validate = .ok () ∧
      (∀ slot f, ledgerComponent.lifecycle? slot = some f → ledger.HasFunc f) ∧
      (∀ call pos, ledgerContext.ReachedBySetting ledgerComponent
          (.go call pos) → ¬ledgerContext.Sets call) ∧
      (∀ call pos, ledgerContext.ReachedBySetting ledgerComponent
          (.defer call pos) → ¬ledgerContext.Sets call) ∧
      (ledgerContext.setCalls ledgerComponent).outcome.toOption =
        some
          [⟨"a", ⟨4⟩, ⟨1⟩⟩, ⟨"b", ⟨3⟩, ⟨3⟩⟩, ⟨"c", ⟨5⟩, ⟨8⟩⟩, ⟨"d", ⟨5⟩, ⟨9⟩⟩] ∧
      ∃ visited calls, ledgerContext.settingWalk ledgerComponent = .ok visited ∧
        ledgerContext.FirstVisits visited calls ∧
        (∀ other, ledgerContext.FirstVisits visited other → other = calls) ∧
        ((∃ failure, (ledgerContext.setCalls ledgerComponent).outcome =
            .error failure) ↔ ∃ site ∈ calls, site.call.args.length ≠ 3) ∧
        (∀ failure, (ledgerContext.setCalls ledgerComponent).outcome =
            .error failure →
          ∃ before site after, calls = before ++ site :: after ∧
            (∀ earlier ∈ before, earlier.call.args.length = 3) ∧
            site.call.args.length ≠ 3 ∧
            failure =
              .cause ⟨"ResourceData.Set", site.call.args.length, site.pos⟩) ∧
        ∀ entries, (ledgerContext.setCalls ledgerComponent).outcome =
            .ok entries →
          ∃ found, List.Forall₂ ledgerContext.EntryOf calls found ∧
            entries = found.filterMap id := by
  have hinside : ∀ slot f, ledgerComponent.lifecycle? slot = some f →
      ledger.HasFunc f := by
    intro slot f hdeclared
    cases slot <;> cases hdeclared <;> decide
  have hnoGo : ∀ call pos, ledgerContext.ReachedBySetting ledgerComponent
        (.go call pos) → ¬ledgerContext.Sets call := by
    rintro call pos hreached ⟨callee, hresolves, hnamed⟩
    cases (ledger_statements hreached).1 call pos rfl
    have hresolved := Package.staticCallee?_eq_some_iff.2 hresolves
    have hfound : ledger.staticCallee? ⟨⟨1⟩, none, []⟩ = .ok (some ⟨1⟩) := by
      decide
    cases hfound.symm.trans hresolved
    have hother : ledger.funcName ⟨1⟩ = .ok "example.com/p.load" := by
      decide +kernel
    have hsame : "example.com/p.load" = "sdk.Set" :=
      Except.ok.inj (hother.symm.trans hnamed)
    exact absurd hsame (by decide)
  have hnoDefer : ∀ call pos, ledgerContext.ReachedBySetting ledgerComponent
        (.defer call pos) → ¬ledgerContext.Sets call := by
    intro call pos hreached
    exact absurd rfl ((ledger_statements hreached).2 call pos)
  exact ⟨by decide, hinside, hnoGo, hnoDefer, by decide +kernel,
    setCalls_lists_first_visits (by decide) hinside hnoGo hnoDefer⟩

/-! ## Statements -/

theorem EntryOf.unique {site : CallSite} {entry entry' : Option SetCall}
    (hone : ctx.EntryOf site entry) (hother : ctx.EntryOf site entry') :
    entry = entry' := by
  cases hone with
  | named hargs hroot hconstant =>
      cases hother with
      | named hargs' hroot' hconstant' =>
          cases hargs.symm.trans hargs'
          cases hroot.symm.trans hroot'
          cases hconstant.symm.trans hconstant'
          rfl
      | unnamed hargs' hroot' hnoConstant =>
          cases hargs.symm.trans hargs'
          cases hroot.symm.trans hroot'
          exact absurd hconstant (hnoConstant _)
  | unnamed hargs hroot hnoConstant =>
      cases hother with
      | named hargs' hroot' hconstant =>
          cases hargs.symm.trans hargs'
          cases hroot.symm.trans hroot'
          exact absurd hconstant (hnoConstant _)
      | unnamed => rfl

theorem EntryOf.pos_eq {site : CallSite} {entry : SetCall}
    (hown : ctx.EntryOf site (some entry)) : entry.pos = site.pos := by
  cases hown
  rfl

theorem mem_entries_iff {sites : List CallSite} {found : List (Option SetCall)}
    (hrelated : List.Forall₂ ctx.EntryOf sites found) (entry : SetCall) :
    entry ∈ found.filterMap id ↔
      ∃ site ∈ sites, ctx.EntryOf site (some entry) := by
  induction hrelated with
  | nil => simp
  | @cons site listed sites found hfirst _ ih =>
      have hown : listed = some entry ↔ ctx.EntryOf site (some entry) :=
        ⟨fun hsame => hsame ▸ hfirst, fun hother => hfirst.unique hother⟩
      simp only [List.exists_mem_cons_iff, ← ih, ← hown]
      cases listed <;> simp [eq_comm]

/-- The entries listed are those of the sites that are the first visited of
their identity. -/
theorem mem_setCalls_iff (hwf : ctx.package.WellFormed) {component : Component}
    (hinside :
      ∀ slot f, component.lifecycle? slot = some f → ctx.package.HasFunc f)
    {entries : List SetCall}
    (hlisted : (ctx.setCalls component).outcome = .ok entries) :
    ∃ visited, ctx.settingWalk component = .ok visited ∧
      (∀ i, i ∈ visited ↔ ctx.ReachedBySetting component i) ∧
      (∀ site, ctx.FirstMet visited site → site.call.args.length = 3) ∧
      ∀ entry, entry ∈ entries ↔
        ∃ site, ctx.FirstMet visited site ∧ ctx.EntryOf site (some entry) := by
  obtain ⟨visited, found, hwalked, hreached, hrelated, houtcome⟩ :=
    setCalls_outcome hwf hinside
  have hmet : ∀ site, site ∈ ctx.metSites visited ↔
      ctx.FirstMet visited site := by
    simp [metSites, mem_newSites_iff]
  rw [hlisted] at houtcome
  split at houtcome
  · cases houtcome
  · next hnoneWrong =>
      cases houtcome
      have hwhole : ∀ site ∈ ctx.metSites visited, site.takesThree := by
        simpa using hnoneWrong
      rw [List.takeWhile_eq_self_iff.2 hwhole] at hrelated
      refine ⟨visited, hwalked, hreached, fun site hfirst => ?_,
        fun entry => ?_⟩
      · simpa [CallSite.takesThree] using hwhole site ((hmet site).2 hfirst)
      · rw [mem_entries_iff hrelated]
        simp only [hmet]

/-- Of a go or defer statement that sets an attribute, the entry is listed
exactly if the first such statement visited at its position has that entry, or a
call at that position has. -/
theorem statement_listed_iff_first_at_pos
    (hvalid : ctx.package.validate = .ok ()) {component : Component}
    (hinside :
      ∀ slot f, component.lifecycle? slot = some f → ctx.package.HasFunc f)
    {entries : List SetCall}
    (hlisted : (ctx.setCalls component).outcome = .ok entries) {i : Instruction}
    {site : CallSite} {entry : SetCall}
    (hreached : ctx.ReachedBySetting component i) (hsets : ctx.SetsAt i site)
    (hstatement : site.value = none) (hown : ctx.EntryOf site (some entry)) :
    ∃ visited first, ctx.settingWalk component = .ok visited ∧
      ctx.FirstMet visited first ∧ first.value = none ∧ first.pos = site.pos ∧
      first.call.args.length = 3 ∧
      (entry ∈ entries ↔
        ctx.EntryOf first (some entry) ∨
          ∃ id call, ctx.ReachedBySetting component (.define id) ∧
            ctx.SetsAt (.define id) call ∧ call.pos = site.pos ∧
            ctx.EntryOf call (some entry)) := by
  have hwf := Package.validate_eq_ok_iff.1 hvalid
  obtain ⟨visited, hwalked, hinWalk, hwhole, hmem_iff⟩ :=
    mem_setCalls_iff hwf hinside hlisted
  obtain ⟨first, hmet, hsame⟩ := exists_firstMet ((hinWalk i).2 hreached) hsets
  have hnoValue : first.value = none :=
    (congrArg Prod.fst hsame).trans hstatement
  refine ⟨visited, first, hwalked, hmet, hnoValue, congrArg Prod.snd hsame,
    hwhole first hmet, ?_⟩
  rw [hmem_iff]
  constructor
  · rintro ⟨other, hmetOther, hofOther⟩
    have hsamePos : other.pos = site.pos :=
      hofOther.pos_eq.symm.trans hown.pos_eq
    cases hvalue : other.value with
    | none =>
        have hsameIdentity : other.identity = first.identity := by
          rw [hsame, CallSite.identity, CallSite.identity, hvalue, hstatement,
            hsamePos]
        cases hmetOther.unique hmet hsameIdentity
        exact .inl hofOther
    | some id =>
        obtain ⟨before, j, after, hsplit, hsetsOther, -⟩ := hmetOther
        cases hsetsOther.eq_define hvalue
        exact .inr ⟨id, other, (hinWalk _).1 (by simp [hsplit]), hsetsOther,
          hsamePos, hofOther⟩
  · rintro (hofFirst | ⟨id, call, hreachedCall, hsetsCall, -, hofCall⟩)
    · exact ⟨first, hmet, hofFirst⟩
    · exact ⟨call, hsetsCall.firstMet ((hinWalk _).2 hreachedCall), hofCall⟩

/-- The function that creates defers two calls of the setter, for which no
positions are known. -/
def rota : Package where
  path := "example.com/p"
  types := #[.basic .string, .signature [] [] false]
  values := #[
    ⟨.function ⟨0⟩, ⟨1⟩, .unknown, none, none⟩,
    ⟨.function ⟨1⟩, ⟨1⟩, .unknown, none, none⟩,
    ⟨.const .nil, ⟨0⟩, .unknown, none, none⟩,
    ⟨.const (.string "a"), ⟨0⟩, .unknown, none, none⟩,
    ⟨.const (.string "b"), ⟨0⟩, .unknown, none, none⟩]
  functions := #[
    { name := "create"
      package := some "example.com/p"
      receiver := none
      signature := ⟨1⟩
      params := []
      blocks :=
        some [⟨[.defer ⟨⟨1⟩, none, [⟨2⟩, ⟨3⟩, ⟨3⟩]⟩ .unknown,
          .defer ⟨⟨1⟩, none, [⟨2⟩, ⟨4⟩, ⟨4⟩]⟩ .unknown, .ret [] .unknown]⟩]
      pos := .unknown, doc := none },
    { name := "Set"
      package := some "sdk"
      receiver := none
      signature := ⟨1⟩
      params := []
      blocks := none, pos := .unknown, doc := none }]

def rotaContext : RuleContext := ⟨rota, { Sdk.usual with set := "sdk.Set" }⟩

def rotaComponent : Component :=
  { (default : Component) with declared := [(.create, ⟨0⟩)] }

def rotaSite : CallSite := ⟨⟨⟨1⟩, none, [⟨2⟩, ⟨4⟩, ⟨4⟩]⟩, none, .unknown⟩

theorem rota_setsAt :
    rotaContext.SetsAt (.defer rotaSite.call .unknown) rotaSite :=
  .defer ⟨⟨1⟩, .function rfl rfl, by decide +kernel⟩

theorem rota_entryOf :
    rotaContext.EntryOf rotaSite (some ⟨"b", ⟨4⟩, .unknown⟩) :=
  .named rfl (show rota.root ⟨4⟩ = .ok ⟨4⟩ by decide +kernel) rfl

theorem rota_reached :
    rotaContext.ReachedBySetting rotaComponent
      (.defer rotaSite.call .unknown) :=
  ⟨.create, .inl rfl, ⟨0⟩, rfl, _, rfl, .inl (by decide)⟩

theorem rota_inside (slot : LifecycleSlot) (f : FuncId)
    (hdeclared : rotaComponent.lifecycle? slot = some f) : rota.HasFunc f := by
  cases slot <;> cases hdeclared
  decide

theorem rota_setCalls :
    (rotaContext.setCalls rotaComponent).outcome = .ok [⟨"a", ⟨3⟩, .unknown⟩] :=
  Report.yields_of_toOption (by decide +kernel)

theorem rota_second_defer_not_listed :
    rota.validate = .ok () ∧
      (∀ slot f, rotaComponent.lifecycle? slot = some f → rota.HasFunc f) ∧
      rotaContext.ReachedBySetting rotaComponent
        (.defer rotaSite.call .unknown) ∧
      rotaContext.SetsAt (.defer rotaSite.call .unknown) rotaSite ∧
      rotaContext.EntryOf rotaSite (some ⟨"b", ⟨4⟩, .unknown⟩) ∧
      ∃ entries, (rotaContext.setCalls rotaComponent).outcome = .ok entries ∧
        ¬∃ entry ∈ entries, entry.name = "b" ∧ entry.value = ⟨4⟩ :=
  ⟨by decide, rota_inside, rota_reached, rota_setsAt, rota_entryOf, _,
    rota_setCalls, by decide⟩

theorem rota_statement_listed_iff_first_at_pos :
    rota.validate = .ok () ∧
      (∀ slot f, rotaComponent.lifecycle? slot = some f → rota.HasFunc f) ∧
      (rotaContext.setCalls rotaComponent).outcome =
        .ok [⟨"a", ⟨3⟩, .unknown⟩] ∧
      rotaContext.ReachedBySetting rotaComponent
        (.defer rotaSite.call .unknown) ∧
      rotaContext.SetsAt (.defer rotaSite.call .unknown) rotaSite ∧
      rotaSite.value = none ∧
      rotaContext.EntryOf rotaSite (some ⟨"b", ⟨4⟩, .unknown⟩) ∧
      ∃ visited first, rotaContext.settingWalk rotaComponent = .ok visited ∧
        rotaContext.FirstMet visited first ∧ first.value = none ∧
        first.pos = rotaSite.pos ∧ first.call.args.length = 3 ∧
        ((⟨"b", ⟨4⟩, .unknown⟩ : SetCall) ∈
            ([⟨"a", ⟨3⟩, .unknown⟩] : List SetCall) ↔
          rotaContext.EntryOf first (some ⟨"b", ⟨4⟩, .unknown⟩) ∨
            ∃ id call, rotaContext.ReachedBySetting rotaComponent (.define id) ∧
              rotaContext.SetsAt (.define id) call ∧ call.pos = rotaSite.pos ∧
              rotaContext.EntryOf call (some ⟨"b", ⟨4⟩, .unknown⟩)) :=
  ⟨by decide, rota_inside, rota_setCalls, rota_reached, rota_setsAt, rfl,
    rota_entryOf, statement_listed_iff_first_at_pos (by decide) rota_inside
      rota_setCalls rota_reached rota_setsAt rfl rota_entryOf⟩

end SchemaLint.RuleContext
