import SchemaLint.Document.Format
import SchemaLint.Program.Codec
import SchemaLint.Program.Validity

/-!
# Reading and writing packages

A package that is read from text is valid.
-/

namespace SchemaLint

def LoadError.ofFormat : Format → LoadError
  | .json => .json
  | .yaml => .yaml

namespace Package

def ofText (format : Format) (text : String) : Except LoadError Package :=
  match (format.parse? text).bind decode? with
  | none => .error (.ofFormat format)
  | some package => do
    package.validate
    return package

def toText (p : Package) : String := Json.indented p.encode

end Package

end SchemaLint
