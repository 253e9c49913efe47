import SchemaLint.Document.Basic
import SchemaLint.Decimal.Shortest

/-!
# JSON text

A text is first cut into tokens, then the tokens are folded into a document with
the open lists and records kept on a stack. Numbers out of range, texts with
half a surrogate pair, and lists and records nested too deep are well formed but
unreadable. Printing has a compact layout and an indented one.
-/

namespace SchemaLint.Json

/-! ## Tokens -/

inductive Token
  | openList
  | closeList
  | openRecord
  | closeRecord
  | comma
  | colon
  | scalar (value : Scalar)
  /-- A text in quotes, absent when it is unreadable. -/
  | text (s : Option String)
deriving DecidableEq, Repr

def isSpace (c : Char) : Bool := c == ' ' || c == '\n' || c == '\t' || c == '\r'

def hexDigit? (c : Char) : Option Nat :=
  if c.isDigit then some (c.toNat - '0'.toNat)
  else if 'a' ≤ c ∧ c ≤ 'f' then some (c.toNat - 'a'.toNat + 10)
  else if 'A' ≤ c ∧ c ≤ 'F' then some (c.toNat - 'A'.toNat + 10)
  else none

def hexUnit? (a b c d : Char) : Option Nat := do
  return ((← hexDigit? a) * 16 + (← hexDigit? b)) * 256 + (← hexDigit? c) * 16 +
    (← hexDigit? d)

def shortEscape? : Char → Option Char
  | '"' => some '"'
  | '\\' => some '\\'
  | '/' => some '/'
  | 'b' => some '\x08'
  | 'f' => some '\x0c'
  | 'n' => some '\n'
  | 'r' => some '\r'
  | 't' => some '\t'
  | _ => none

def isHighSurrogate (code : Nat) : Bool := 0xD800 ≤ code && code < 0xDC00
def isLowSurrogate (code : Nat) : Bool := 0xDC00 ≤ code && code < 0xE000

/-- A text of which some has been read: its characters in reverse, and the first
half of a surrogate pair if the second is awaited. -/
structure OpenText where
  reversed : List Char := []
  high : Option Nat := none

namespace OpenText

def push (c : Char) (soFar : OpenText) : Option OpenText :=
  if soFar.high.isNone then some ⟨c :: soFar.reversed, none⟩ else none

def pushUnit (code : Nat) (soFar : OpenText) : Option OpenText :=
  match soFar.high with
  | some high =>
    if isLowSurrogate code then
      some ⟨Char.ofNat (0x10000 + (high - 0xD800) * 0x400 + (code - 0xDC00)) ::
          soFar.reversed, none⟩
    else none
  | none =>
    if isHighSurrogate code then some { soFar with high := some code }
    else if isLowSurrogate code then none
    else some ⟨Char.ofNat code :: soFar.reversed, none⟩

def close (soFar : OpenText) : Option String :=
  if soFar.high.isNone then some (String.ofList soFar.reversed.reverse)
  else none

end OpenText

/-- The text up to the closing quote, and what follows it. Once the text is
unreadable it is only read over. -/
def readText (soFar : Option OpenText) :
    List Char → Option (Option String × List Char)
  | '"' :: rest => some (soFar.bind OpenText.close, rest)
  | '\\' :: 'u' :: a :: b :: c :: d :: rest =>
    match hexUnit? a b c d with
    | none => none
    | some code => readText (soFar.bind (OpenText.pushUnit code)) rest
  | '\\' :: c :: rest =>
    match shortEscape? c with
    | none => none
    | some c => readText (soFar.bind (OpenText.push c)) rest
  | c :: rest =>
    if c.toNat < 0x20 then none
    else readText (soFar.bind (OpenText.push c)) rest
  | [] => none

/-! ## Numbers -/

def digitsOf (chars : List Char) : List Char × List Char :=
  (chars.takeWhile Char.isDigit, chars.dropWhile Char.isDigit)

def natOfDigits (digits : List Char) : Nat :=
  digits.foldl (fun n c => n * 10 + (c.toNat - '0'.toNat)) 0

/-- Adds digits to a significand as long as it stays below `2 ^ 64`; also the
number of digits left over. -/
def addDigits (significand : Nat) : List Char → Nat × Nat × Nat
  | [] => (significand, 0, 0)
  | c :: rest =>
    let next := significand * 10 + (c.toNat - '0'.toNat)
    if next < Nat.pow 2 64 then
      let (result, taken, left) := addDigits next rest
      (result, taken + 1, left)
    else (significand, 0, rest.length + 1)

def readExponent (chars : List Char) : Option (Int × List Char) :=
  let (negative, chars) :=
    match chars with
    | '+' :: rest => (false, rest)
    | '-' :: rest => (true, rest)
    | _ => (false, chars)
  let (digits, rest) := digitsOf chars
  if digits.isEmpty then none
  else
    let n : Int := natOfDigits digits
    some (if negative then -n else n, rest)

def readFraction : List Char → Option (List Char × List Char)
  | '.' :: rest =>
    let (digits, rest) := digitsOf rest
    if digits.isEmpty then none else some (digits, rest)
  | chars => some ([], chars)

def readScale : List Char → Option (Option Int × List Char)
  | 'e' :: rest | 'E' :: rest =>
    (readExponent rest).map fun (n, rest) => (some n, rest)
  | chars => some (none, chars)

def exponentLimit : Nat := Nat.pow 2 31 - 1

/-- A number from its parts, unless it is out of range. Digits that no longer
fit the significand are dropped; those before the point still count for the
exponent. Whole numbers that fit 64 bits stay whole. -/
def numberOf (negative : Bool) (whole fraction : List Char)
    (exponent : Option Int) : Option Number :=
  let (significand, _, left) := addDigits 0 whole
  if fraction.isEmpty && exponent.isNone && left == 0 &&
      (!negative || (0 < significand && significand ≤ Nat.pow 2 63)) then
    some (.whole (if negative then -(significand : Int) else significand))
  else
    let (significand, taken, _) := addDigits significand fraction
    let shift : Int := left - taken
    let given := exponent.getD 0
    if exponentLimit < given.natAbs then
      if significand = 0 || given < 0 then
        some (.real (Decimal.Double.zero negative))
      else none
    else
      (Decimal.Double.ofScaled negative significand (shift + given)).map .real

/-- Whether digits can stand before the point. A zero starts no longer
number. -/
def areWhole (digits : List Char) : Bool :=
  !digits.isEmpty && (digits.length == 1 || digits.head? != some '0')

def readMagnitude (negative : Bool) (chars : List Char) :
    Option (Scalar × List Char) :=
  let (whole, rest) := digitsOf chars
  if areWhole whole then do
    let (fraction, rest) ← readFraction rest
    let (exponent, rest) ← readScale rest
    return ((numberOf negative whole fraction exponent).elim .unreadable
        .number, rest)
  else none

/-! ## Cutting a text into tokens -/

def readToken : List Char → Option (Token × List Char)
  | '[' :: rest => some (.openList, rest)
  | ']' :: rest => some (.closeList, rest)
  | '\x7b' :: rest => some (.openRecord, rest)
  | '\x7d' :: rest => some (.closeRecord, rest)
  | ',' :: rest => some (.comma, rest)
  | ':' :: rest => some (.colon, rest)
  | '"' :: rest =>
    (readText (some {}) rest).map fun (s, rest) => (.text s, rest)
  | 't' :: 'r' :: 'u' :: 'e' :: rest => some (.scalar (.bool true), rest)
  | 'f' :: 'a' :: 'l' :: 's' :: 'e' :: rest =>
    some (.scalar (.bool false), rest)
  | 'n' :: 'u' :: 'l' :: 'l' :: rest => some (.scalar .null, rest)
  | '-' :: rest =>
    (readMagnitude true rest).map fun (value, rest) => (.scalar value, rest)
  | chars =>
    (readMagnitude false chars).map fun (value, rest) => (.scalar value, rest)

theorem readText_length {soFar : Option OpenText} {chars rest : List Char}
    {s : Option String} (h : readText soFar chars = some (s, rest)) :
    rest.length < chars.length := by
  fun_induction readText soFar chars <;>
    simp_all only [List.length_cons, reduceCtorEq, forall_const]
  all_goals grind

theorem digitsOf_length (chars : List Char) :
    (digitsOf chars).1.length + (digitsOf chars).2.length = chars.length := by
  rw [digitsOf, ← List.length_append, List.takeWhile_append_dropWhile]

theorem readExponent_length {chars rest : List Char} {n : Int}
    (h : readExponent chars = some (n, rest)) : rest.length ≤ chars.length := by
  unfold readExponent at h
  grind [digitsOf_length]

theorem readFraction_length {chars digits rest : List Char}
    (h : readFraction chars = some (digits, rest)) :
    rest.length ≤ chars.length := by
  unfold readFraction at h
  grind [digitsOf_length]

theorem readScale_length {chars rest : List Char} {exponent : Option Int}
    (h : readScale chars = some (exponent, rest)) :
    rest.length ≤ chars.length := by
  unfold readScale at h
  split at h <;>
    simp only [Option.some.injEq, Prod.mk.injEq, Option.map_eq_some_iff,
      Prod.exists] at h
  all_goals grind [→ readExponent_length]

theorem ne_nil_of_areWhole {digits : List Char} (hwhole : areWhole digits) :
    digits ≠ [] := by
  rintro rfl
  simp [areWhole] at hwhole

theorem readMagnitude_length {negative : Bool} {chars rest : List Char}
    {value : Scalar} (h : readMagnitude negative chars = some (value, rest)) :
    rest.length < chars.length := by
  have htotal := digitsOf_length chars
  by_cases hwhole : areWhole (digitsOf chars).1
  · simp only [readMagnitude, hwhole, if_true, Option.bind_eq_bind,
      Option.bind_eq_some_iff] at h
    obtain ⟨⟨fraction, afterFraction⟩, hfraction_read, ⟨exponent, afterScale⟩,
        hscale_read, hresult⟩ := h
    have := readFraction_length hfraction_read
    have := readScale_length hscale_read
    have := List.length_pos_iff.2 (ne_nil_of_areWhole hwhole)
    grind
  · simp [readMagnitude, hwhole] at h

theorem readToken_length {chars rest : List Char} {token : Token}
    (h : readToken chars = some (token, rest)) :
    rest.length < chars.length := by
  unfold readToken at h
  split at h <;>
    simp only [Option.some.injEq, Prod.mk.injEq, Option.map_eq_some_iff,
      Prod.exists] at h
  all_goals grind [→ readText_length, → readMagnitude_length]

def tokens? (chars : List Char) : Option (List Token) :=
  match chars with
  | [] => some []
  | c :: rest =>
    if isSpace c then tokens? rest
    else
      match hread : readToken (c :: rest) with
      | none => none
      | some (token, after) =>
        have := readToken_length hread
        (tokens? after).map (token :: ·)
termination_by chars.length
decreasing_by
  · simp
  · exact this

/-! ## From tokens to a document -/

abbrev OpenMembers := List (Option String × Document)

def recordOf (members : OpenMembers) : Document :=
  match members.mapM fun (name, item) => name.map fun name => (name, item) with
  | some members => .record members
  | none => .unreadable

inductive Frame
  | list (reversed : List Document)
  | record (reversed : OpenMembers) (name : Option String)

/-- What may come next. The frames are the lists and records around it,
innermost first. -/
inductive Parsing
  | value (frames : List Frame) (mayClose : Bool)
  | name (frames : List Frame) (reversed : OpenMembers) (mayClose : Bool)
  | colon (frames : List Frame) (reversed : OpenMembers) (name : Option String)
  | afterItem (frames : List Frame) (reversed : List Document)
  | afterMember (frames : List Frame) (reversed : OpenMembers)
  | done (document : Document)

def complete (document : Document) : List Frame → Parsing
  | [] => .done document
  | .list reversed :: frames => .afterItem frames (document :: reversed)
  | .record reversed name :: frames =>
    .afterMember frames ((name, document) :: reversed)

def step : Parsing → Token → Option Parsing
  | .value frames _, .scalar value =>
    some (complete (.scalar value none) frames)
  | .value frames _, .text s =>
    some (complete (s.elim .unreadable .text) frames)
  | .value frames _, .openList => some (.value (.list [] :: frames) true)
  | .value frames _, .openRecord => some (.name frames [] true)
  | .value (.list [] :: frames) true, .closeList =>
    some (complete (.list []) frames)
  | .name frames reversed _, .text name => some (.colon frames reversed name)
  | .name frames [] true, .closeRecord => some (complete (.record []) frames)
  | .colon frames reversed name, .colon =>
    some (.value (.record reversed name :: frames) false)
  | .afterItem frames reversed, .comma =>
    some (.value (.list reversed :: frames) false)
  | .afterItem frames reversed, .closeList =>
    some (complete (.list reversed.reverse) frames)
  | .afterMember frames reversed, .comma => some (.name frames reversed false)
  | .afterMember frames reversed, .closeRecord =>
    some (complete (recordOf reversed.reverse) frames)
  | _, _ => none

def ofTokens? (tokens : List Token) : Option Document :=
  match tokens.foldlM step (.value [] false) with
  | some (.done document) => some document
  | _ => none

def depthLimit : Nat := 127

def parse? (text : String) : Option Document := do
  return (← ofTokens? (← tokens? text.toList)).withinDepth depthLimit

/-! ## Printing -/

def escapeChar (c : Char) : List Char :=
  match c with
  | '"' => ['\\', '"']
  | '\\' => ['\\', '\\']
  | '\x08' => ['\\', 'b']
  | '\x0c' => ['\\', 'f']
  | '\n' => ['\\', 'n']
  | '\r' => ['\\', 'r']
  | '\t' => ['\\', 't']
  | _ =>
    if c.toNat < 0x20 then
      ['\\', 'u', '0', '0', Nat.digitChar (c.toNat / 16),
        Nat.digitChar (c.toNat % 16)]
    else [c]

def writeText (s : String) : String :=
  String.ofList ('"' :: s.toList.flatMap escapeChar ++ ['"'])

def writeScalar : Scalar → String
  | .null => "null"
  | .bool b => if b then "true" else "false"
  | .number (.whole n) => toString n
  | .number .minusZero => "-0"
  | .number (.real (.finite negative mantissa exponent)) =>
    Decimal.markedText negative mantissa exponent
  | .number (.real _) => "null"
  | .text s => writeText s
  | .unreadable => "null"

/-- How a list or record is laid out: what stands before its items, between
them, after them, and after a name. -/
structure Layout where
  before : Nat → String
  between : Nat → String
  after : Nat → String
  named : String

def Layout.compact : Layout := ⟨fun _ => "", fun _ => ",", fun _ => "", ":"⟩

private def newLine (depth : Nat) : String :=
  "\n" ++ String.ofList (List.replicate (2 * depth) ' ')

/-- Every item on a line of its own, two spaces deeper than what holds it. -/
def Layout.indented : Layout :=
  ⟨fun depth => newLine (depth + 1), fun depth => "," ++ newLine (depth + 1),
    newLine, ": "⟩

mutual

def write (layout : Layout) (depth : Nat) : Document → String
  | .scalar value _ => writeScalar value
  | .list [] => "[]"
  | .list (item :: rest) =>
    "[" ++ layout.before depth ++ write layout (depth + 1) item ++
      writeItems layout depth rest ++
      layout.after depth ++ "]"
  | .record [] => "\x7b\x7d"
  | .record ((name, item) :: rest) =>
    "\x7b" ++ layout.before depth ++ writeText name ++ layout.named ++
      write layout (depth + 1) item ++
      writeMembers layout depth rest ++ layout.after depth ++ "\x7d"
  | .mapping [] => "[]"
  | .mapping (entry :: rest) =>
    "[" ++ writeEntries layout depth (layout.before depth) (entry :: rest) ++
      layout.after depth ++ "]"

def writeItems (layout : Layout) (depth : Nat) : List Document → String
  | [] => ""
  | item :: rest =>
    layout.between depth ++ write layout (depth + 1) item ++
      writeItems layout depth rest

def writeMembers (layout : Layout) (depth : Nat) : Members → String
  | [] => ""
  | (name, item) :: rest =>
    layout.between depth ++ writeText name ++ layout.named ++
      write layout (depth + 1) item ++
      writeMembers layout depth rest

/-- Entries of a mapping, each as a list of its key and what is under it. -/
def writeEntries (layout : Layout) (depth : Nat) (lead : String) :
    Entries → String
  | [] => ""
  | (key, item) :: rest =>
    lead ++ "[" ++ layout.before (depth + 1) ++ write layout (depth + 2) key ++
      layout.between (depth + 1) ++
      write layout (depth + 2) item ++ layout.after (depth + 1) ++ "]" ++
      writeEntries layout depth (layout.between depth) rest

end

def compact (document : Document) : String := write .compact 0 document
def indented (document : Document) : String := write .indented 0 document

end SchemaLint.Json
