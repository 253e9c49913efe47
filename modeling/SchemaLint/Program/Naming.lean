import SchemaLint.Program.Shape

/-!
# Names of types and functions

Types are written as in Go source. A package path loses everything up to its
last vendor directory, so a vendored copy of a package has the names of the
package itself.
-/

namespace SchemaLint

def vendorMark : List Char := "/vendor/".toList

def afterVendor? : List Char → Option (List Char)
  | [] => none
  | c :: rest =>
    match afterVendor? rest with
    | some path => some path
    | none =>
      if vendorMark.isPrefixOf (c :: rest) then
        some ((c :: rest).drop vendorMark.length)
      else none

def normalizePath (path : String) : String :=
  match afterVendor? path.toList with
  | some rest => String.ofList rest
  | none => path

def qualified (package : Option String) (name : String) : String :=
  match package with
  | some package => normalizePath package ++ "." ++ name
  | none => name

namespace Package

/-- The name of a type with at most `depth` types nested in each other; deeper
ones are left out. -/
def typeNameWithin (p : Package) : Nat → TypeId → Access String
  | 0, _ => .ok "..."
  | depth + 1, id => do
    let name := p.typeNameWithin depth
    let names (ids : List TypeId) : Access String := do
      return ", ".intercalate (← ids.mapM name)
    match ← p.typeAt id with
    | .basic kind => return kind.name
    | .named package declared _ => return qualified package declared
    | .pointer elem => return "*" ++ (← name elem)
    | .slice elem => return "[]" ++ (← name elem)
    | .array elem length =>
      return "[" ++ toString length ++ "]" ++ (← name elem)
    | .map key elem => return "map[" ++ (← name key) ++ "]" ++ (← name elem)
    | .chan elem => return "chan " ++ (← name elem)
    | .struct fields =>
      let texts ← fields.mapM fun field => do
        return (if field.embedded then "" else field.name ++ " ") ++
          (← name field.type)
      return "struct\x7b" ++ "; ".intercalate texts ++ "\x7d"
    | .interface methods =>
      return "interface\x7b" ++ "; ".intercalate methods ++ "\x7d"
    | .signature params [] _ => return "func(" ++ (← names params) ++ ")"
    | .signature params [result] _ =>
      return "func(" ++ (← names params) ++ ") " ++ (← name result)
    | .signature params results _ =>
      return "func(" ++ (← names params) ++ ") (" ++ (← names results) ++ ")"
    | .tuple elems => return "(" ++ (← names elems) ++ ")"

def typeName (p : Package) (id : TypeId) : Access String :=
  p.typeNameWithin (p.types.size + 1) id

def isType (p : Package) (id : TypeId) (name : String) : Access Bool := do
  return (← p.typeName (← p.derefType id)) == name

/-- A method is named by its receiver type, a function by its package. -/
def funcName (p : Package) (id : FuncId) : Access String := do
  let f ← p.funcAt id
  match f.receiver with
  | some receiver => return "(" ++ (← p.typeName receiver) ++ ")." ++ f.name
  | none => return qualified f.package f.name

end Package

end SchemaLint
