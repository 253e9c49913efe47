import SchemaLint.Document.Basic

/-!
# Reading values out of documents

Each reader gives no result when the document has the wrong shape. A record is
read member by member: a required member must be there, an optional one may be
absent or null, and a defaulted one may be absent. No member that is read may
occur twice.

Inside tagged records documents are settled first. A settled record is read more
freely than others: the place of a member may stand for its name, and a list for
the members in their order.
-/

namespace SchemaLint.Document

/-! ## Scalars -/

def text? : Document → Option String
  | .scalar (.text s) _ => some s
  | .scalar _ plain => plain
  | _ => none

def bool? : Document → Option Bool
  | .scalar (.bool b) _ => some b
  | _ => none

/-- A whole number below a bound. A zero with a minus sign counts in settled
documents only. -/
def natBelow? (bound : Nat) : Document → Option Nat
  | .scalar (.number (.whole (.ofNat n))) _ =>
    if n < bound then some n else none
  | .scalar (.number .minusZero) none => if 0 < bound then some 0 else none
  | _ => none

def word32? : Document → Option Nat := natBelow? (Nat.pow 2 32)
def word64? : Document → Option Nat := natBelow? (Nat.pow 2 64)

def int64Bound : Int := .ofNat (Nat.pow 2 63)

def int64? : Document → Option Int
  | .scalar (.number (.whole n)) _ =>
    if -int64Bound ≤ n ∧ n < int64Bound then some n else none
  | .scalar (.number .minusZero) _ => some 0
  | _ => none

def double? : Document → Option Decimal.Double
  | .scalar (.number (.real x)) _ => some x
  | .scalar (.number (.whole n)) _ =>
    if -int64Bound ≤ n ∧ n < 2 * int64Bound then some (Decimal.Double.ofInt n)
    else none
  | .scalar (.number .minusZero) _ => some (Decimal.Double.ofInt 0)
  | _ => none

def nullable? (decode : Document → Option α) : Document → Option (Option α)
  | .scalar .null _ => some none
  | document => (decode document).map some

/-! ## Lists and records -/

def items? : Document → Option (List Document)
  | .list items => some items
  | .scalar .null (some "") => some []
  | _ => none

def listOf? (decode : Document → Option α) (document : Document) :
    Option (List α) := do
  (← document.items?).mapM decode

/-- The members of a record by name. A key that is no text counts by the text it
was written with, and a plain scalar with no text stands for an empty record. -/
def members? : Document → Option Members
  | .record members => some members
  | .mapping entries =>
    entries.mapM fun (key, item) => do return (← key.text?, item)
  | .scalar .null (some "") => some []
  | _ => none

/-- Puts a member in: a name that is already there keeps its place and takes the
new value. -/
def putMember (members : List (String × α)) (name : String) (value : α) :
    List (String × α) :=
  if members.any (·.1 == name) then
    members.map fun (other, old) =>
      if other == name then (other, value) else (other, old)
  else members ++ [(name, value)]

/-- A record whose member names are free, in the order of first mention. -/
def mapOf? (decode : Document → Option α) (document : Document) :
    Option (List (String × α)) := do
  let decoded ←
    (← document.members?).mapM fun (name, item) =>
      do return (name, ← decode item)
  return decoded.foldl
    (fun members (name, value) => putMember members name value) []

/-! ## Settled records -/

/-- The name that a key stands for, given all names in their order: itself, or
the name at its place. A place beyond them stands for none. -/
def nameOfKey? (names : List String) : Document → Option (Option String)
  | .scalar (.text name) _ => some (some name)
  | .scalar (.number (.whole (.ofNat place))) _ => some names[place]?
  | _ => none

def fields? (names : List String) : Document → Option Members
  | .record members => some members
  | .mapping entries => entries.filterMapM fun (key, item) => do
    return (← nameOfKey? names key).map fun name => (name, item)
  | .list items =>
    if items.length ≤ names.length then some (names.zip items) else none
  | _ => none

/-- The tag of a tagged record and the settled rest of it. In a list the tag
comes first. -/
def tagged? (tag : String) : Document → Option (String × Document)
  | .record members =>
    match members.partition (·.1 == tag) with
    | ([(_, document)], rest) =>
      do return (← document.text?, .record (← settleMembers? rest))
    | _ => none
  | .mapping entries =>
    let isTag : Document × Document → Bool
      | (.scalar (.text name) _, _) => name == tag
      | _ => false
    match entries.partition isTag with
    | ([(_, document)], rest) =>
      do return (← document.text?, .mapping (← settleEntries? rest))
    | _ => none
  | .list (document :: rest) =>
    do return (← document.text?, .list (← settleItems? rest))
  | _ => none

/-! ## Choices -/

/-- One name out of several: a text, or a record with this name alone and null
under it. A plain scalar that only reads as null does not count. -/
def choice? : Document → Option String
  | .record [(name, .scalar .null none)] => some name
  | document => document.text?

/-- One name out of several in a settled document, and what stands under it, if
anything does. -/
def variant? (names : List String) :
    Document → Option (String × Option Document)
  | .scalar (.text name) _ => some (name, none)
  | .record [(name, payload)] => some (name, some payload)
  | .mapping [(key, payload)] =>
    do return (← ← nameOfKey? names key, some payload)
  | _ => none

/-- One name out of several in a settled document, under which null or an empty
record may stand. -/
def settledChoice? (names : List String) (document : Document) :
    Option String := do
  match ← document.variant? names with
  | (name, none) | (name, some (.scalar .null _)) | (name, some (.record [])) =>
    return name
  | _ => none

end Document

namespace Members

/-- The member of this name, if there is one. Two members of one name have no
reading. -/
def find? (members : Members) (name : String) : Option (Option Document) :=
  match members.filter (·.1 == name) with
  | [] => some none
  | [(_, document)] => some (some document)
  | _ => none

def required (members : Members) (name : String)
    (decode : Document → Option α) : Option α := do
  decode (← ← members.find? name)

def optional (members : Members) (name : String)
    (decode : Document → Option α) : Option (Option α) := do
  match ← members.find? name with
  | none => return none
  | some document => document.nullable? decode

def defaulted (members : Members) (name : String) (decode : Document → Option α)
    (otherwise : α) : Option α := do
  match ← members.find? name with
  | none => return otherwise
  | some document => decode document

def listOf (members : Members) (name : String) (decode : Document → Option α) :
    Option (List α) :=
  members.defaulted name (Document.listOf? decode) []

def onlyNames (members : Members) (names : List String) : Bool :=
  members.all fun (name, _) => names.contains name

end SchemaLint.Members
