import SchemaLint.Lint.Config
import SchemaLint.Proofs.Extraction.Reading
import SchemaLint.Proofs.Lint.SetCalls

/-!
# Restricted runs

Rules are run one by one on one component after the other, and no result depends
on which others are run. So leaving out rules and components takes their results
out of the list and changes nothing else.
-/

namespace SchemaLint

/-- When leaving out an entry takes out its results, leaving out entries one by
one does so in the whole list. -/
theorem exists_restriction {f f' : α → Report ε (List β)} {keep : α → Bool}
    {sift : β → Bool} {list : List α} {lists : List (List β)}
    (heach : List.Forall₂ (fun a bs => (f a).Yields bs) list lists)
    (hkept :
      ∀ a bs, keep a = true → (f a).Yields bs → (f' a).Yields (bs.filter sift))
    (hdropped :
      ∀ a bs, keep a = false → (f a).Yields bs → bs.filter sift = []) :
    ∃ lists', List.Forall₂ (fun a bs => (f' a).Yields bs) (list.filter keep)
        lists' ∧ lists'.flatten = lists.flatten.filter sift := by
  induction heach with
  | nil => exact ⟨[], .nil, rfl⟩
  | @cons a bs rest lists hfirst _ ih =>
      obtain ⟨lists', heach', hflat⟩ := ih
      rw [List.flatten_cons, List.filter_append, ← hflat]
      cases hpasses : keep a with
      | true =>
          rw [List.filter_cons_of_pos hpasses]
          exact ⟨bs.filter sift :: lists',
            .cons (hkept a bs hpasses hfirst) heach', rfl⟩
      | false =>
          rw [List.filter_cons_of_neg (by simp [hpasses]),
            hdropped a bs hpasses hfirst]
          exact ⟨lists', heach', rfl⟩

/-- An id is chosen when it is included, or nothing is, and it is not
excluded. -/
def isChosen (included excluded : List String) (id : String) : Bool :=
  (included.isEmpty || included.contains id) && !excluded.contains id

/-- Whether a result is of a chosen rule, on a component that the filter names
among those of its kind. A filter that names none lets all pass. -/
def IssueResult.passes (chosen : String → Bool) (filter : ComponentFilter)
    (result : IssueResult) : Bool :=
  chosen result.issue.ruleId &&
    decide (filter.resources = [] ∧ filter.dataSources = [] ∨
      if result.readOnly then result.component ∈ filter.dataSources
      else result.component ∈ filter.resources)

private theorem ComponentFilter.selects_eq_decide (filter : ComponentFilter)
    (readOnly : Bool) (name : String) :
    filter.selects readOnly name =
      decide (filter.resources = [] ∧ filter.dataSources = [] ∨
        if readOnly then name ∈ filter.dataSources
        else name ∈ filter.resources) := by
  rw [Bool.eq_iff_iff, decide_eq_true_iff]
  cases readOnly <;> simp [selects, isEmpty]

theorem IssueResult.passes_eq (chosen : String → Bool)
    (filter : ComponentFilter) (result : IssueResult) :
    result.passes chosen filter = (chosen result.issue.ruleId &&
      filter.selects result.readOnly result.component) := by
  rw [passes, ComponentFilter.selects_eq_decide]

namespace RuleRegistry

private theorem select_all (registry : RuleRegistry) (sdk : Sdk) :
    registry.select [] [] sdk =
      .ok (registry.entries.map fun (id, make) => (id, make sdk)) := by
  simp [select]

/-- The selected rules are those of all registered ones whose id is chosen, in
the order of registration. -/
theorem select_eq_filter {registry : RuleRegistry}
    {included excluded : List String} {sdk : Sdk}
    {all selected : List (String × Rule)}
    (hevery : registry.select [] [] sdk = .ok all)
    (haccepted : registry.select included excluded sdk = .ok selected) :
    selected = all.filter fun (id, _) => isChosen included excluded id := by
  rw [select_all] at hevery
  cases hevery
  unfold select at haccepted
  split at haccepted
  · cases haccepted
  · cases haccepted
    rw [List.filter_map]
    rfl

end RuleRegistry

namespace Linter

variable {linter : Linter}

/-- The results of a rule on a component carry the id of the rule and the name
of the component. -/
theorem checkRule_marks {readOnly : Bool} {component : Component}
    {entry : String × Rule} {results : List IssueResult}
    (hfound : (linter.checkRule readOnly component entry).Yields results) :
    ∀ result ∈ results, result.readOnly = readOnly ∧
      result.component = component.name ∧ result.issue.ruleId = entry.1 := by
  simp only [checkRule, Report.bind_yields, Report.pure_yields] at hfound
  obtain ⟨issues, -, rfl⟩ := hfound
  intro result hmember
  obtain ⟨issue, -, rfl⟩ := List.mem_map.1 hmember
  exact ⟨rfl, rfl, rfl⟩

theorem checkComponent_yields {readOnly : Bool} {component : Component}
    {results : List IssueResult} :
    (linter.checkComponent readOnly component).Yields results ↔
      ∃ lists, List.Forall₂ (fun entry list =>
          (linter.checkRule readOnly component entry).Yields list) linter.rules
          lists ∧ results = lists.flatten := by
  simp only [checkComponent, Report.bind_yields, Report.pure_yields,
    Report.mapM_yields]

theorem run_yields {results : List IssueResult} :
    linter.run.Yields results ↔
      ∃ lists, List.Forall₂ (fun entry list =>
          (linter.checkComponent entry.1 entry.2).Yields list) linter.selected
          lists ∧ results = lists.flatten := by
  simp only [run, Report.bind_yields, Report.pure_yields, Report.mapM_yields]

private theorem checkComponent_marks {readOnly : Bool} {component : Component}
    {results : List IssueResult}
    (hfound : (linter.checkComponent readOnly component).Yields results) :
    ∀ result ∈ results, result.readOnly = readOnly ∧
      result.component = component.name := by
  obtain ⟨lists, heach, rfl⟩ := checkComponent_yields.1 hfound
  intro result hmember
  obtain ⟨list, hlisted, hmember⟩ := List.mem_flatten.1 hmember
  obtain ⟨entry, hpaired⟩ := exists_mem_zip heach hlisted
  have hmarks := checkRule_marks (List.forall₂_zip heach hpaired) result hmember
  exact ⟨hmarks.1, hmarks.2.1⟩

variable {provider : Provider} {sdk : Sdk} {all : List (String × Rule)}
  {chosen : String → Bool} {filter : ComponentFilter}

theorem checkComponent_restricted {readOnly : Bool} {component : Component}
    {results : List IssueResult}
    (hselected : filter.selects readOnly component.name = true)
    (hfound :
      (checkComponent ⟨provider, sdk, all, {}⟩ readOnly component).Yields
        results) :
    (checkComponent ⟨provider, sdk, all.filter fun (id, _) => chosen id, filter⟩
      readOnly component).Yields
      (results.filter (IssueResult.passes chosen filter)) := by
  obtain ⟨lists, heach, rfl⟩ := checkComponent_yields.1 hfound
  have hpasses {entry : String × Rule} {list : List IssueResult}
      (hfound :
        (checkRule ⟨provider, sdk, all, {}⟩ readOnly component entry).Yields
          list) :
      ∀ result ∈ list, result.passes chosen filter = chosen entry.1 := by
    intro result hmember
    obtain ⟨hside, hname, hid⟩ := checkRule_marks hfound result hmember
    rw [IssueResult.passes_eq, hside, hname, hid, hselected, Bool.and_true]
  have hkept (entry : String × Rule) (list : List IssueResult)
      (hisChosen : chosen entry.1 = true)
      (hfound :
        (checkRule ⟨provider, sdk, all, {}⟩ readOnly component entry).Yields
          list) :
      (checkRule ⟨provider, sdk, all.filter fun (id, _) => chosen id, filter⟩
        readOnly component entry).Yields
        (list.filter (IssueResult.passes chosen filter)) := by
    rw [List.filter_eq_self.2 fun result hmember =>
      (hpasses hfound result hmember).trans hisChosen]
    exact hfound
  have hdropped (entry : String × Rule) (list : List IssueResult)
      (hnotChosen : chosen entry.1 = false)
      (hfound :
        (checkRule ⟨provider, sdk, all, {}⟩ readOnly component entry).Yields
          list) :
      list.filter (IssueResult.passes chosen filter) = [] :=
    List.filter_eq_nil_iff.2 fun result hmember => by
      simp [hpasses hfound result hmember, hnotChosen]
  obtain ⟨lists', heach', hflat⟩ := exists_restriction heach hkept hdropped
  exact checkComponent_yields.2 ⟨lists', heach', hflat.symm⟩

theorem run_restricted {results : List IssueResult}
    (hfound : (run ⟨provider, sdk, all, {}⟩).Yields results) :
    (run ⟨provider, sdk, all.filter fun (id, _) => chosen id, filter⟩).Yields
      (results.filter (IssueResult.passes chosen filter)) := by
  obtain ⟨lists, heach, rfl⟩ := run_yields.1 hfound
  have heverything : Linter.selected ⟨provider, sdk, all, {}⟩ =
      provider.components :=
    List.filter_eq_self.2 fun _ _ => rfl
  rw [heverything] at heach
  have hdropped (entry : Bool × Component) (list : List IssueResult)
      (hnotSelected : filter.selects entry.1 entry.2.name = false)
      (hfound :
        (checkComponent ⟨provider, sdk, all, {}⟩ entry.1 entry.2).Yields list) :
      list.filter (IssueResult.passes chosen filter) = [] := by
    refine List.filter_eq_nil_iff.2 fun result hmember => ?_
    obtain ⟨hside, hname⟩ := checkComponent_marks hfound result hmember
    simp [IssueResult.passes_eq, hside, hname, hnotSelected]
  obtain ⟨lists', heach', hflat⟩ :=
    exists_restriction heach
      (fun _ _ hselected hfound => checkComponent_restricted hselected hfound)
      hdropped
  exact run_yields.2 ⟨lists', heach', hflat.symm⟩

end Linter

/-- Where all registered rules can be run on all components, any selection of
them can be run on any selection of the components, and it finds the results
that the whole run has for them, in the same order. -/
theorem selection_restricts_results {config : LintConfig} {made sdk : Sdk}
    {provider : Provider} {all selected : List (String × Rule)}
    {included excluded : List String} {filter : ComponentFilter}
    {results : List IssueResult}
    (hevery :
      (config.registry >>= fun registry => registry.select [] [] made) =
        .ok all)
    (hfound : (Linter.run ⟨provider, sdk, all, {}⟩).Yields results)
    (haccepted :
      (config.registry >>=
          fun registry => registry.select included excluded made) =
        .ok selected) :
    (Linter.run ⟨provider, sdk, selected, filter⟩).Yields
      (results.filter
        (IssueResult.passes (isChosen included excluded) filter)) := by
  cases hknown : config.registry with
  | error error =>
      rw [hknown] at hevery
      cases hevery
  | ok registry =>
      rw [hknown] at hevery haccepted
      rw [RuleRegistry.select_eq_filter hevery haccepted]
      exact Linter.run_restricted hfound

/-- A data source and a resource of one name and another resource, which set
attributes that they do not have. -/
def journal : Provider where
  name := ""
  package := RuleContext.ledger
  dataSources := [{ RuleContext.ledgerComponent with
    name := "page", attributes := [{ name := "a" }, { name := "count" }] }]
  resources := [
    { RuleContext.ledgerComponent with
      name := "page", attributes := [{ name := "b" }, { name := "id" }] },
    { RuleContext.ledgerComponent with
      name := "volume", attributes := [{ name := "a" }, { name := "c" }] }]

def journalConfig : LintConfig where
  callBlacklists := [("local", ⟨"", []⟩)]

/-- Every rule that is registered for the journal. -/
def journalRules : List (String × Rule) :=
  RuleRegistry.builtins.entries.map (fun (id, make) => (id, make {})) ++
    [("local", .callBlacklist ⟨"", []⟩)]

/-- The results for attributes that a page does not have. -/
def unreadOnPage (readOnly : Bool) (first : String) (pos : Pos) :
    List IssueResult :=
  [(first, pos), ("c", ⟨8⟩), ("d", ⟨9⟩)].map fun (name, pos) =>
    ⟨readOnly, "page", ⟨"tfprovlint002", "attribute " ++ Text.quoted name ++
      " was not read from the schema", pos⟩⟩

def journalResults : List IssueResult :=
  unreadOnPage true "b" ⟨3⟩ ++
    [⟨true, "page", ⟨"tfprovlint026",
      "\"count\" is a reserved attribute name", .unknown⟩⟩] ++
    unreadOnPage false "a" ⟨1⟩ ++
    [⟨false, "page", ⟨"tfprovlint026",
        "\"id\" is a reserved attribute name", .unknown⟩⟩,
      ⟨false, "volume", ⟨"tfprovlint002",
        "attribute \"b\" was not read from the schema", ⟨3⟩⟩⟩,
      ⟨false, "volume", ⟨"tfprovlint002",
        "attribute \"d\" was not read from the schema", ⟨9⟩⟩⟩]

theorem journal_selection_restricts_results :
    (journalConfig.registry >>= fun registry => registry.select [] [] {}) =
        .ok journalRules ∧
      (journalConfig.registry >>= fun registry =>
        registry.select ["tfprovlint002", "local"] ["local"] {}) =
        .ok [("tfprovlint002", .attributeExists)] ∧
      (Linter.run ⟨journal, RuleContext.ledgerContext.sdk, journalRules,
        {}⟩).Yields journalResults ∧
      journalResults.filter (IssueResult.passes
        (isChosen ["tfprovlint002", "local"] ["local"]) ⟨["page"], []⟩) =
        unreadOnPage false "a" ⟨1⟩ ∧
      (Linter.run ⟨journal, RuleContext.ledgerContext.sdk,
        [("tfprovlint002", .attributeExists)], ⟨["page"], []⟩⟩).Yields
        (unreadOnPage false "a" ⟨1⟩) := by
  have hevery : (journalConfig.registry >>= fun registry =>
      registry.select [] [] {}) = .ok journalRules := by decide
  have haccepted : (journalConfig.registry >>= fun registry =>
      registry.select ["tfprovlint002", "local"] ["local"] {}) =
      .ok [("tfprovlint002", .attributeExists)] := by decide
  have hfound : (Linter.run ⟨journal, RuleContext.ledgerContext.sdk,
      journalRules, {}⟩).Yields journalResults :=
    Report.yields_of_toOption (by decide +kernel)
  have hkept : journalResults.filter (IssueResult.passes
      (isChosen ["tfprovlint002", "local"] ["local"]) ⟨["page"], []⟩) =
      unreadOnPage false "a" ⟨1⟩ := by decide +kernel
  exact ⟨hevery, haccepted, hfound, hkept,
    hkept ▸ selection_restricts_results hevery hfound haccepted⟩

end SchemaLint
