/-!
# Positions

A position is a handle into a table of file, line and column. Handle zero is no
position; handle `n + 1` is the `n`-th entry. Files are listed once and entries
refer to them by number.
-/

namespace SchemaLint

structure Pos where
  handle : Nat
deriving DecidableEq, Repr, Inhabited

namespace Pos

def unknown : Pos := ⟨0⟩

def isKnown (pos : Pos) : Bool := pos != unknown

end Pos

structure PositionEntry where
  file : Nat
  line : Nat
  column : Nat
deriving DecidableEq, Repr

structure Location where
  file : String
  line : Nat
  column : Nat
deriving DecidableEq, Repr

def Location.text (location : Location) : String :=
  location.file ++ ":" ++ toString location.line ++ ":" ++
    toString location.column

structure PositionTable where
  files : Array String := #[]
  entries : Array PositionEntry := #[]
deriving DecidableEq, Repr, Inhabited

namespace PositionTable

/-- The number of a file, which is added to the list when it is new. -/
def fileNumber (table : PositionTable) (file : String) : PositionTable × Nat :=
  match table.files.findIdx? (· == file) with
  | some index => (table, index)
  | none => ({ table with files := table.files.push file }, table.files.size)

def add (table : PositionTable) (file : String) (line column : Nat) :
    PositionTable × Pos :=
  let (table, number) := table.fileNumber file
  let table :=
    { table with entries := table.entries.push ⟨number, line, column⟩ }
  (table, ⟨table.entries.size⟩)

def resolve? (table : PositionTable) (pos : Pos) : Option Location :=
  match pos.handle with
  | 0 => none
  | index + 1 => do
    let entry ← table.entries[index]?
    let file ← table.files[entry.file]?
    return ⟨file, entry.line, entry.column⟩

/-- File, line and column, or a dash for a position that is not in the table. -/
def display (table : PositionTable) (pos : Pos) : String :=
  match table.resolve? pos with
  | some location => location.text
  | none => "-"

end PositionTable

end SchemaLint
