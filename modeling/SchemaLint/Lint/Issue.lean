import SchemaLint.Diagnostics
import SchemaLint.Program.Codec
import SchemaLint.Provider.Sdk

/-!
# Issues

A finding of a rule, and a finding with the component it was made on.
-/

namespace SchemaLint

structure Issue where
  /-- The id under which the rule was run, empty before that. -/
  ruleId : String
  message : String
  pos : Pos
deriving DecidableEq, Repr

def Issue.new (pos : Pos) (message : String) : Issue := ⟨"", message, pos⟩

structure IssueResult where
  /-- Whether the component is a data source. -/
  readOnly : Bool
  component : String
  issue : Issue
deriving DecidableEq, Repr

namespace IssueResult

def render (result : IssueResult) (positions : PositionTable) : String :=
  "[" ++ (if result.readOnly then "data" else "resource") ++ "." ++
    result.component ++ "] [" ++
    result.issue.ruleId ++ "] " ++ positions.display result.issue.pos ++ ": " ++
    result.issue.message

def encode (result : IssueResult) : Document :=
  .record [("read_only", .bool result.readOnly),
    ("component", .text result.component),
    ("rule_id", .text result.issue.ruleId),
    ("message", .text result.issue.message)]

end IssueResult

/-- A call with a number of arguments that the called function does not take. -/
structure RuleError where
  function : String
  count : Nat
  pos : Pos
deriving DecidableEq, Repr

def RuleError.message (error : RuleError) : String :=
  "incorrect args count for " ++ error.function ++ " call: " ++
    toString error.count

structure RuleContext where
  package : Package
  sdk : Sdk

abbrev Check (α : Type) := Analysis RuleError α

end SchemaLint
