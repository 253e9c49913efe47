import SchemaLint.Document.Json
import SchemaLint.Document.Yaml.Tree

/-!
# Document formats

A document is kept as JSON or as YAML text.
-/

namespace SchemaLint

inductive Format
  | json
  | yaml
deriving DecidableEq, Repr

namespace Format

def parse? : Format → String → Option Document
  | json, text => Json.parse? text
  | yaml, text => Yaml.parse? text

def ofExtension? : String → Option Format
  | "json" => some json
  | "yaml" | "yml" => some yaml
  | _ => none

end Format

end SchemaLint
