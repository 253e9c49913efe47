import SchemaLint.Files.Basic
import SchemaLint.Lint.Config
import SchemaLint.Program.Reading

/-!
# Loading packages and configurations

A package is found by the path of its document, or of a directory with a
document of a usual name in it.
-/

namespace SchemaLint

inductive FileError
  | absent (path : String)
  | undetermined (path : String)
  | unreadable (path : String)
  | unsupported (path : String)
  | invalid (path : String) (cause : LoadError)
  | unsupportedConfig (path : String)
  | invalidConfig (path : String) (format : Format)
  | extraction (text : String)
deriving DecidableEq, Repr

namespace FileError

def message : FileError → String
  | absent path => path ++ " does not exist"
  | undetermined path => "unable to determine provider package in " ++ path
  | unreadable path => "failed to read " ++ path
  | unsupported path => (LoadError.unsupportedFormat path).message
  | invalid path _ => "failed to load " ++ path
  | unsupportedConfig path => "unsupported configuration file " ++ path
  | invalidConfig path _ => "invalid configuration " ++ path
  | extraction text => text

def cause? : FileError → Option LoadError
  | unsupported path => some (.unsupportedFormat path)
  | invalid _ cause => some cause
  | invalidConfig _ format => some (.ofFormat format)
  | _ => none

end FileError

/-- The names that package documents have, in the order in which they are looked
for. -/
def documentNames : List String :=
  ["package.json", "package.yaml", "package.yml"]

def packageDirs (path : String) : List String :=
  let name? :=
    (Path.fileName? path).bind fun name => segmentProviderName? name.toList
  (match name? with
    | some name =>
      [Path.join path "provider", Path.join path (String.ofList name)]
    | none => []) ++ [path]

def documentCandidates (path : String) : List String :=
  (packageDirs path).flatMap fun dir => documentNames.map (Path.join dir)

namespace Files

variable {m : Type → Type} [Monad m] (files : Files m)

def firstFile? : List String → m (Option String)
  | [] => return none
  | path :: rest =>
    do if ← files.isFile path then return some path else firstFile? rest

def locate (path : String) : m (Except FileError String) := do
  if ← files.isFile path then return .ok path
  else if ← files.isDir path then
    match ← files.firstFile? (documentCandidates path) with
    | some document => return .ok document
    | none => return .error (.undetermined path)
  else return .error (.absent path)

def formatOf? (path : String) : Option Format :=
  (Path.extension? path).bind Format.ofExtension?

def readPackage (path : String) : m (Except FileError Package) := do
  match ← files.read path, formatOf? path with
  | none, _ => return .error (.unreadable path)
  | some _, none => return .error (.unsupported path)
  | some text, some format =>
    return (Package.ofText format text).mapError (.invalid path)

def provider (path : String) (sdk : Sdk) : m (Analysis FileError Provider) := do
  match ← files.locate path with
  | .error error => return Analysis.refuse error
  | .ok document =>
    let loaded ← files.readPackage document
    return do
      Report.debug ("loading " ++ document)
      match loaded with
      | .error error => Analysis.refuse error
      | .ok package =>
        Analysis.within
          (fun error => .extraction (error.render package.positions))
          (Provider.ofPackage package sdk)

def config (path : String) : m (Except FileError LintConfig) := do
  match ← files.read path, formatOf? path with
  | none, _ => return .error (.unreadable path)
  | some _, none => return .error (.unsupportedConfig path)
  | some text, some format =>
    match (format.parse? text).bind LintConfig.decode? with
    | some config => return .ok config
    | none => return .error (.invalidConfig path format)

end Files

end SchemaLint
