import SchemaLint.Document.Json
import SchemaLint.Lint.Run

/-!
# Configuration of a run

Which rules and components to check, how much to log, the names of the plugin
library, and further call blacklists under ids of their own.
-/

namespace SchemaLint

namespace LogLevel

def decode? (document : Document) : Option LogLevel := do
  let name ← document.choice?
  all.find? (·.name == name)

end LogLevel

structure LintConfig where
  included : List String := []
  excluded : List String := []
  resources : List String := []
  dataSources : List String := []
  logLevel : LogLevel := .usual
  sdk : Sdk := {}
  callBlacklists : List (String × CallBlacklist) := []
deriving DecidableEq, Repr

namespace LintConfig

def encode (config : LintConfig) : Document :=
  .record [("include", .texts config.included),
    ("exclude", .texts config.excluded), ("resources", .texts config.resources),
    ("data_sources", .texts config.dataSources),
    ("log_level", .text config.logLevel.name), ("sdk", config.sdk.encode),
    ("call_blacklists", .record (config.callBlacklists.map
        fun (id, blacklist) => (id, blacklist.encode)))]

def memberNames : List String :=
  ["include", "exclude", "resources", "data_sources", "log_level", "sdk",
    "call_blacklists"]

/-- Absent members have their usual values; a member of another name is
refused. -/
def decode? (document : Document) : Option LintConfig := do
  let members ← document.members?
  guard (members.onlyNames memberNames)
  return {
    included := ← members.listOf "include" Document.text?
    excluded := ← members.listOf "exclude" Document.text?
    resources := ← members.listOf "resources" Document.text?
    dataSources := ← members.listOf "data_sources" Document.text?
    logLevel := ← members.defaulted "log_level" LogLevel.decode? .usual
    sdk := ← members.defaulted "sdk" Sdk.decode? {}
    callBlacklists :=
      ← members.defaulted "call_blacklists"
        (Document.mapOf? CallBlacklist.decode?) [] }

def registry (config : LintConfig) : Except RegistryError RuleRegistry :=
  config.callBlacklists.foldlM (fun registry (id, blacklist) =>
    registry.register id fun _ => .callBlacklist blacklist)
    .builtins

def rules (config : LintConfig) :
    Except RegistryError (List (String × Rule)) := do
  (← config.registry).select config.included config.excluded config.sdk

def filter (config : LintConfig) : ComponentFilter :=
  ⟨config.resources, config.dataSources⟩

end LintConfig

end SchemaLint
