import SchemaLint.Command.Arguments
import SchemaLint.Files.Loading
import SchemaLint.Program.Listing
import SchemaLint.Provider.SchemaTree

/-!
# The command

The command checks a provider, prints its schema, lists the rules or prints the
instructions of a package. What it prints goes to the standard output and what
went wrong to the standard error.
-/

namespace SchemaLint

structure LintOptions where
  config : Option String := none
  included : List String := []
  excluded : List String := []
  resources : List String := []
  dataSources : List String := []
deriving DecidableEq, Repr

inductive Command
  | lint (path : String) (options : LintOptions)
  | schema (path : String) (json : Bool)
  | rules (config : Option String)
  /-- The instructions of all functions, or of those of one name. -/
  | listing (path : String) (function : Option String)
deriving DecidableEq, Repr

structure Invocation where
  command : Command
  /-- Absent when it is given nowhere. -/
  level : Option LogLevel
deriving DecidableEq, Repr

/-! ## Reading the command line -/

def levelOption : OptionSpec := { name := "log-level", kind := .single }
def configOption : OptionSpec :=
  { name := "config", letter := 'c', kind := .single }

def commandOptions : String → Option (List OptionSpec)
  | "lint" =>
    some [levelOption, configOption, { name := "include", kind := .many },
      { name := "exclude", kind := .many }, { name := "rs", kind := .many },
      { name := "ds", kind := .many }]
  | "schema" => some [levelOption, { name := "json", kind := .flag }]
  | "rules" => some [levelOption, configOption]
  | "ir" =>
    some [levelOption, { name := "function", letter := 'f', kind := .single }]
  | _ => none

def path? (text : String) : Option String :=
  if text == "" then none else some text

def configPath? (arguments : List Argument) : Option (Option String) :=
  match valuesOf arguments "config" with
  | [] => some none
  | value :: _ => (path? value).map some

def commandOf? (name : String) (arguments : List Argument) : Option Command :=
  match name, positionals arguments with
  | "lint", [path] => do
    return .lint (← path? path)
      { config := ← configPath? arguments
        included := valuesOf arguments "include"
        excluded := valuesOf arguments "exclude"
        resources := valuesOf arguments "rs"
        dataSources := valuesOf arguments "ds" }
  | "schema", [path] =>
    do return .schema (← path? path) !(valuesOf arguments "json").isEmpty
  | "rules", [] => do return .rules (← configPath? arguments)
  | "ir", [path] =>
    do return .listing (← path? path) (valuesOf arguments "function").head?
  | _, _ => none

/-- The level on one part of the command line: as an option, or else from the
environment. -/
def levelOf? (arguments : List Argument) (environment : Option String) :
    Option (Option LogLevel) :=
  match valuesOf arguments "log-level", environment with
  | text :: _, _ | [], some text => (LogLevel.ofName? text).map some
  | [], none => some none

/-- Reads a command line. There is none when it is used wrongly. A level may
stand before the command and after it; the one of the environment must be right
wherever it would count. -/
def Invocation.read? (args : List String) (environment : Option String) :
    Option Invocation := do
  let (before, rest) ← readArguments [levelOption] true args
  match rest with
  | [] => none
  | name :: rest =>
    let specs ← commandOptions name
    let (arguments, _) ← readArguments specs false rest
    guard (areCounted [levelOption] before && areCounted specs arguments)
    let outer ← levelOf? before environment
    let inner ← levelOf? arguments environment
    let level :=
      if (valuesOf arguments "log-level").isEmpty then outer else inner
    return ⟨← commandOf? name arguments, level⟩

/-! ## Running a command -/

structure Outcome where
  code : Nat
  output : String := ""
  /-- Lines for the standard error. -/
  errors : List String := []
deriving DecidableEq, Repr

namespace Outcome

def usage : Outcome :=
  { code := 2
    errors := ["usage: (lint | schema | rules | ir) [options] [path]"] }

def failed (records : List Record) (message : String) : Outcome :=
  { code := 1, errors := records.map Record.message ++ ["Error: " ++ message] }

end Outcome

/-- Goes on with the result of an analysis, or says why there is none. -/
def Analysis.finish (level : LogLevel) (describe : ε → String)
    (x : Analysis ε α) (onward : α → List Record → Outcome) : Outcome :=
  let records := level.select x.records
  match x.outcome with
  | .ok a => onward a records
  | .error (.cause error) => .failed records (describe error)
  | .error (.outside _) => .failed records "broken package"

def issueReport (results : List IssueResult) (positions : PositionTable) :
    String :=
  String.join (results.map fun result => result.render positions ++ "\n") ++
    "\n" ++
    toString results.length ++ " issues found\n"

def LintConfig.extend (config : LintConfig) (options : LintOptions)
    (level : Option LogLevel) : LintConfig :=
  { config with
    included := config.included ++ options.included
    excluded := config.excluded ++ options.excluded
    resources := config.resources ++ options.resources
    dataSources := config.dataSources ++ options.dataSources
    logLevel := level.getD config.logLevel }

def listingOutcome (package : Package) (function : Option String) : Outcome :=
  let selected :=
    package.localFunctions.filter fun (_, f) => function.all (· == f.name)
  if selected.isEmpty then
    .failed [] ("no matching function in " ++ package.path)
  else
    match selected.mapM fun (id, _) => package.listing id with
    | .ok texts => { code := 0, output := String.join (texts.map (· ++ "\n")) }
    | .error _ => .failed [] "broken package"

namespace Files

variable {m : Type → Type} [Monad m] (files : Files m)

def configOr (path : Option String) : m (Except FileError LintConfig) :=
  match path with
  | some path => files.config path
  | none => return .ok {}

def runLint (path : String) (options : LintOptions) (level : Option LogLevel) :
    m Outcome := do
  match ← files.configOr options.config with
  | .error error => return .failed [] error.message
  | .ok config =>
    let config := config.extend options level
    match config.rules with
    | .error error => return .failed [] error.message
    | .ok rules =>
      let loaded ← files.provider path config.sdk
      return loaded.finish config.logLevel FileError.message
          fun provider records =>
        let linter : Linter :=
          { provider, sdk := config.sdk, rules, filter := config.filter }
        let positions := provider.package.positions
        linter.run.finish config.logLevel (·.render positions)
            fun results more =>
          { code := if results.isEmpty then 0 else 1
            output := issueReport results positions
            errors := (records ++ more).map Record.message }

def runSchema (path : String) (json : Bool) (level : LogLevel) : m Outcome := do
  let loaded ← files.provider path {}
  return loaded.finish level FileError.message fun provider records =>
    { code := 0
      output :=
        if json then Json.indented provider.encode ++ "\n" else provider.tree
      errors := records.map Record.message }

def runRules (config : Option String) : m Outcome := do
  match ← files.configOr config with
  | .error error => return .failed [] error.message
  | .ok config =>
    match config.registry with
    | .error error => return .failed [] error.message
    | .ok registry =>
      return { code := 0, output := String.join (registry.ids.map (· ++ "\n")) }

def runListing (path : String) (function : Option String) : m Outcome := do
  match ← files.locate path with
  | .error error => return .failed [] error.message
  | .ok document =>
    match ← files.readPackage document with
    | .error error => return .failed [] error.message
    | .ok package => return listingOutcome package function

def run (invocation : Invocation) : m Outcome :=
  match invocation.command with
  | .lint path options => files.runLint path options invocation.level
  | .schema path json =>
    files.runSchema path json (invocation.level.getD .usual)
  | .rules config => files.runRules config
  | .listing path function => files.runListing path function

def command (args : List String) (environment : Option String) : m Outcome :=
  match Invocation.read? args environment with
  | none => return .usage
  | some invocation => files.run invocation

end Files

end SchemaLint
