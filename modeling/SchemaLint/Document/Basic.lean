import SchemaLint.Decimal.Double

/-!
# Documents

The tree that a data file holds: scalars, lists, and records whose members keep
the order in which they were written. A scalar written without quotes may carry
its own text, for formats in which such a scalar can also be read as text. A
part of a file may be well formed and have no value all the same; it is kept as
unreadable, and matters only to those who look at it.
-/

namespace SchemaLint

inductive Number
  | whole (n : Int)
  /-- A zero with a minus sign that is still whole. -/
  | minusZero
  | real (x : Decimal.Double)
deriving DecidableEq, Repr

inductive Scalar
  | null
  | bool (b : Bool)
  | number (n : Number)
  | text (s : String)
  /-- What is written here has no value: it is out of range, no text, or nested
  too deep. -/
  | unreadable
deriving DecidableEq, Repr

inductive Document
  | scalar (value : Scalar) (plain : Option String)
  | list (items : List Document)
  | record (members : List (String × Document))
  /-- Entries whose keys are not all text. -/
  | mapping (entries : List (Document × Document))
deriving Repr, Inhabited

abbrev Members := List (String × Document)
abbrev Entries := List (Document × Document)

namespace Document

def null : Document := .scalar .null none
def bool (b : Bool) : Document := .scalar (.bool b) none
def text (s : String) : Document := .scalar (.text s) none
def int (n : Int) : Document := .scalar (.number (.whole n)) none
def nat (n : Nat) : Document := .int n
def real (x : Decimal.Double) : Document := .scalar (.number (.real x)) none
def texts (items : List String) : Document := .list (items.map .text)
def unreadable : Document := .scalar .unreadable none

def nullable (encode : α → Document) : Option α → Document
  | none => null
  | some a => encode a

/-! ## Depth -/

mutual

/-- The document with every list, record and mapping inside more than `depth`
others made unreadable. -/
def withinDepth (depth : Nat) : Document → Document
  | .scalar value plain => .scalar value plain
  | .list items =>
    match depth with
    | 0 => unreadable
    | depth + 1 => .list (itemsWithin depth items)
  | .record members =>
    match depth with
    | 0 => unreadable
    | depth + 1 => .record (membersWithin depth members)
  | .mapping entries =>
    match depth with
    | 0 => unreadable
    | depth + 1 => .mapping (entriesWithin depth entries)

def itemsWithin (depth : Nat) : List Document → List Document
  | [] => []
  | item :: rest => withinDepth depth item :: itemsWithin depth rest

def membersWithin (depth : Nat) : Members → Members
  | [] => []
  | (name, item) :: rest =>
    (name, withinDepth depth item) :: membersWithin depth rest

def entriesWithin (depth : Nat) : Entries → Entries
  | [] => []
  | (key, item) :: rest =>
    (withinDepth depth key, withinDepth depth item) :: entriesWithin depth rest

end

/-! ## Settling -/

mutual

/-- Fixes every plain scalar to the value it was read as. Nothing in the
document may be unreadable. -/
def settle? : Document → Option Document
  | .scalar .unreadable _ => none
  | .scalar value _ => some (.scalar value none)
  | .list items => (settleItems? items).map .list
  | .record members => (settleMembers? members).map .record
  | .mapping entries => (settleEntries? entries).map .mapping

def settleItems? : List Document → Option (List Document)
  | [] => some []
  | item :: rest => do return (← settle? item) :: (← settleItems? rest)

def settleMembers? : Members → Option Members
  | [] => some []
  | (name, item) :: rest =>
    do return (name, ← settle? item) :: (← settleMembers? rest)

def settleEntries? : Entries → Option Entries
  | [] => some []
  | (key, item) :: rest =>
    do return (← settle? key, ← settle? item) :: (← settleEntries? rest)

end

end Document

end SchemaLint
