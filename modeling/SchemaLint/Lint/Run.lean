import SchemaLint.Lint.Registry
import SchemaLint.Provider.Extraction

/-!
# Running rules over a provider

Every selected rule checks every selected component, data sources first. The
first rule that fails ends the run.
-/

namespace SchemaLint

/-- The components to check by name. When both lists are empty, all are
checked. -/
structure ComponentFilter where
  resources : List String := []
  dataSources : List String := []
deriving DecidableEq, Repr

namespace ComponentFilter

def isEmpty (filter : ComponentFilter) : Bool :=
  filter.resources.isEmpty && filter.dataSources.isEmpty

def selects (filter : ComponentFilter) (readOnly : Bool) (name : String) :
    Bool :=
  filter.isEmpty ||
    (if readOnly then filter.dataSources else filter.resources).contains name

def encode (filter : ComponentFilter) : Document :=
  .record [("resources", .texts filter.resources),
    ("data_sources", .texts filter.dataSources)]

def decode? (document : Document) : Option ComponentFilter := do
  let members ← document.members?
  return ⟨← members.listOf "resources" Document.text?,
    ← members.listOf "data_sources" Document.text?⟩

end ComponentFilter

structure LintError where
  ruleId : String
  component : String
  error : RuleError
deriving DecidableEq, Repr

def LintError.render (error : LintError) (positions : PositionTable) : String :=
  "rule " ++ error.ruleId ++ " failed on " ++ error.component ++ ": " ++
    positions.display error.error.pos ++ ": " ++ error.error.message

structure Linter where
  provider : Provider
  sdk : Sdk
  rules : List (String × Rule)
  filter : ComponentFilter := {}

namespace Linter

def context (linter : Linter) : RuleContext :=
  ⟨linter.provider.package, linter.sdk⟩

def checkRule (linter : Linter) (readOnly : Bool) (component : Component)
    (entry : String × Rule) : Analysis LintError (List IssueResult) := do
  let (id, rule) := entry
  let issues ←
    Analysis.within (LintError.mk id component.name)
      (rule.check linter.context readOnly component)
  return issues.map fun issue =>
    ⟨readOnly, component.name, { issue with ruleId := id }⟩

def checkComponent (linter : Linter) (readOnly : Bool) (component : Component) :
    Analysis LintError (List IssueResult) := do
  return (← linter.rules.mapM (linter.checkRule readOnly component)).flatten

def selected (linter : Linter) : List (Bool × Component) :=
  linter.provider.components.filter fun (readOnly, component) =>
    linter.filter.selects readOnly component.name

def run (linter : Linter) : Analysis LintError (List IssueResult) := do
  return (← linter.selected.mapM fun (readOnly, component) =>
    linter.checkComponent readOnly component).flatten

end Linter

end SchemaLint
