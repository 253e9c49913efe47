import SchemaLint.Document.Json

/-!
# YAML tokens

A text is cut into tokens that already show its block structure: deeper
indentation opens a block and shallower indentation ends it. A key is recognised
by the colon after it, so the tokens that open a mapping and announce a key are
put in front of what has been read when the colon comes. Tags, anchors,
directives and block scalars are not read.
-/

namespace SchemaLint.Yaml

inductive Token
  | documentStart
  | documentEnd
  | openSequence
  | openMapping
  | closeBlock
  | openList
  | closeList
  | openRecord
  | closeRecord
  | comma
  /-- The dash of a sequence entry. -/
  | entry
  | key
  /-- The colon before a value. -/
  | value
  /-- A scalar without quotes. -/
  | plain (text : String)
  | quoted (text : String)
deriving DecidableEq, Repr

/-! ## Characters and places -/

structure Cell where
  char : Char
  line : Nat
  column : Nat
  /-- How many bytes of the text come before it. -/
  offset : Nat
deriving DecidableEq, Repr

def isBreak (c : Char) : Bool := c == '\n' || c == '\u2028' || c == '\u2029'

def isBlank (c : Char) : Bool := c == ' ' || c == '\t'

def isReadable (c : Char) : Bool :=
  let code := c.toNat
  c == '\t' || c == '\n' || c == '\r' || (0x20 ≤ code && code ≤ 0x7E) ||
    code == 0x85 ||
    (0xA0 ≤ code && code ≤ 0xFFFD) || 0x10000 ≤ code

def place (line column offset : Nat) : List Char → List Cell
  | [] => []
  | '\r' :: '\n' :: rest =>
    ⟨'\n', line, column, offset⟩ :: place (line + 1) 0 (offset + 2) rest
  | c :: rest =>
    let next := offset + c.utf8Size
    if c == '\r' || c == '\u0085' then
      ⟨'\n', line, column, offset⟩ :: place (line + 1) 0 next rest
    else if isBreak c then
      ⟨c, line, column, offset⟩ :: place (line + 1) 0 next rest
    else ⟨c, line, column, offset⟩ :: place line (column + 1) next rest

/-- Whether a blank, a line end or the end of the text follows. -/
def endsWord : List Cell → Bool
  | [] => true
  | cell :: _ => isBlank cell.char || isBreak cell.char

/-- Whether a line starts with three of these characters and nothing right after
them. -/
def isMarker (mark : Char) : List Cell → Bool
  | a :: b :: c :: rest =>
    a.column == 0 && a.char == mark && b.char == mark && c.char == mark &&
      endsWord rest
  | _ => false

/-- A byte order mark at the start of a line. It stands for nothing, but takes
up a column. -/
def isByteOrderMark (cell : Cell) : Bool :=
  cell.column == 0 && cell.char == '\ufeff'

/-- Blanks, comments and line ends before a token. Tabs may not indent where a
key may begin. The result says whether a key may begin after them. -/
def skipTrivia (inFlow keyAllowed inComment : Bool) :
    List Cell → Bool × List Cell
  | [] => (keyAllowed, [])
  | cell :: rest =>
    if isBreak cell.char then
      skipTrivia inFlow (keyAllowed || !inFlow) false rest
    else if inComment then skipTrivia inFlow keyAllowed true rest
    else if isByteOrderMark cell || cell.char == ' ' ||
        (cell.char == '\t' && (inFlow || !keyAllowed)) then
      skipTrivia inFlow keyAllowed false rest
    else if cell.char == '#' then skipTrivia inFlow keyAllowed true rest
    else (keyAllowed, cell :: rest)

/-! ## Scalars -/

inductive Gap
  | none
  | blanks (chars : List Char)
  /-- A first line end, unless it was escaped, and those after it. -/
  | breaks (first : Option Char) (others : List Char)

namespace Gap

def add (gap : Gap) (c : Char) : Gap :=
  match gap with
  | none => if isBreak c then breaks c [] else blanks [c]
  | blanks chars => if isBreak c then breaks c [] else blanks (c :: chars)
  | breaks first others =>
    if isBreak c then breaks first (c :: others) else breaks first others

def isNone : Gap → Bool
  | none => true
  | _ => false

def hasBreak : Gap → Bool
  | breaks .. => true
  | _ => false

/-- What the gap stands for, reversed: one line feed is a space, and more of
them are one fewer. -/
def text : Gap → List Char
  | none => []
  | blanks chars => chars
  | breaks .none others => others
  | breaks (some c) others =>
    if c == '\n' then if others.isEmpty then [' ']
    else others else others ++ [c]

end Gap

def escape? : Char → Option Char
  | '0' => some '\x00'
  | 'a' => some '\x07'
  | 'b' => some '\x08'
  | 't' | '\t' => some '\t'
  | 'n' => some '\n'
  | 'v' => some '\x0b'
  | 'f' => some '\x0c'
  | 'r' => some '\r'
  | 'e' => some '\x1b'
  | ' ' => some ' '
  | '"' => some '"'
  | '/' => some '/'
  | '\\' => some '\\'
  | 'N' => some '\u0085'
  | '_' => some '\u00a0'
  | 'L' => some '\u2028'
  | 'P' => some '\u2029'
  | _ => none

def hexWidth? : Char → Option Nat
  | 'x' => some 2
  | 'u' => some 4
  | 'U' => some 8
  | _ => none

inductive QuoteMode
  | text
  | escape
  /-- Inside a hexadecimal escape. -/
  | hex (missing value : Nat)

def quotedFrom (single : Bool) (mode : QuoteMode) (gap : Gap)
    (reversed : List Char) : List Cell → Option (List Char × List Cell)
  | [] => none
  | cell :: rest =>
    let c := cell.char
    match mode with
    | .hex missing value =>
      match Json.hexDigit? c with
      | none => none
      | some digit =>
        let value := value * 16 + digit
        if 1 < missing then
          quotedFrom single (.hex (missing - 1) value) .none reversed rest
        else if value.isValidChar then
          quotedFrom single .text .none (Char.ofNat value :: reversed) rest
        else none
    | .escape =>
      if isBreak c then quotedFrom single .text (.breaks none []) reversed rest
      else
        match hexWidth? c, escape? c with
        | some width, _ => quotedFrom single (.hex width 0) .none reversed rest
        | none, some c => quotedFrom single .text .none (c :: reversed) rest
        | none, none => none
    | .text =>
      if isBlank c || isBreak c then
        quotedFrom single .text (gap.add c) reversed rest
      else if isMarker '-' (cell :: rest) || isMarker '.' (cell :: rest) then
        none
      else
        let reversed := gap.text ++ reversed
        if single && c == '\'' then
          match rest with
          | [] => some (reversed, [])
          | next :: after =>
            if next.char == '\'' then
              quotedFrom single .text .none ('\'' :: reversed) after
            else some (reversed, rest)
        else if !single && c == '"' then some (reversed, rest)
        else if !single && c == '\\' then
          quotedFrom single .escape .none reversed rest
        else quotedFrom single .text .none (c :: reversed) rest

def isFlowMark (c : Char) : Bool :=
  c == ',' || c == '[' || c == ']' || c == '\x7b' || c == '\x7d'

structure PlainEnd where
  reversed : List Char
  /-- Whether the scalar was followed by a line end. -/
  endedLine : Bool
  rest : List Cell

/-- Reads a plain scalar: up to a colon or comment, a mark of the surrounding
flow, or a line that is indented less than `indent`. -/
def plainFrom (inFlow : Bool) (indent : Int) (gap : Gap)
    (reversed : List Char) : List Cell → Option PlainEnd
  | [] => some ⟨reversed, gap.hasBreak, []⟩
  | cell :: rest =>
    let c := cell.char
    let stop : Option PlainEnd := some ⟨reversed, gap.hasBreak, cell :: rest⟩
    if isBlank c then
      if gap.hasBreak && c == '\t' && (cell.column : Int) < indent then none
      else plainFrom inFlow indent (gap.add c) reversed rest
    else if isBreak c then plainFrom inFlow indent (gap.add c) reversed rest
    else if !gap.isNone &&
        (c == '#' || (!inFlow && (cell.column : Int) < indent) ||
          isMarker '-' (cell :: rest) || isMarker '.' (cell :: rest)) then
      stop
    else if inFlow && c == ':' &&
        rest.head?.any fun next => next.char == '?' || isFlowMark next.char then
      none
    else if (c == ':' && endsWord rest) || (inFlow && isFlowMark c) then stop
    else plainFrom inFlow indent .none (c :: gap.text ++ reversed) rest

/-! ## The state between tokens -/

/-- A token that turns out to be a key if a colon follows it on its line. -/
structure KeyCandidate where
  /-- It stands where a key has to be. -/
  required : Bool
  /-- How many tokens came before it. -/
  number : Nat
  line : Nat
  column : Nat
  offset : Nat

def keyLimit : Nat := 1024

structure Scanner where
  cells : List Cell
  reversed : List Token := []
  /-- The number of tokens. -/
  count : Nat := 0
  /-- The column of the innermost block. -/
  indent : Int := -1
  /-- The columns of the blocks around it. -/
  outer : List Int := []
  /-- The candidate of each flow level, innermost first, and of the blocks
  around all flows. -/
  keys : List (Option KeyCandidate) := [none]
  keyAllowed : Bool := true

namespace Scanner

def inFlow (s : Scanner) : Bool :=
  match s.keys with
  | _ :: _ :: _ => true
  | _ => false

def push (s : Scanner) (token : Token) : Scanner :=
  { s with reversed := token :: s.reversed, count := s.count + 1 }

def insertAt (s : Scanner) (number : Nat) (token : Token) : Scanner :=
  let later := s.count - number
  { s with
    reversed := s.reversed.take later ++ token :: s.reversed.drop later
    count := s.count + 1 }

/-- Ends the blocks, from the innermost one, that are indented more than
`column`. -/
def closeBlocks (column : Int) (s : Scanner) : List Int → Scanner
  | [] => s
  | indent :: outer =>
    if column < s.indent then
      closeBlocks column { s.push .closeBlock with indent, outer } outer
    else s

def unroll (s : Scanner) (column : Int) : Scanner :=
  if s.inFlow then s else closeBlocks column s s.outer

/-- Opens a block at a column, unless the innermost one is there already. -/
def roll (s : Scanner) (column : Nat) (number : Nat) (token : Token) :
    Scanner :=
  if !s.inFlow && s.indent < column then
    { s.insertAt number token with
      indent := column
      outer := s.indent :: s.outer }
  else s

def rollHere (s : Scanner) (column : Nat) (token : Token) : Scanner :=
  s.roll column s.count token

def dropKey (s : Scanner) : Option Scanner :=
  match s.keys with
  | some key :: keys =>
    if key.required then none else some { s with keys := none :: keys }
  | _ => some s

def saveKey (s : Scanner) (cell : Cell) : Option Scanner :=
  if s.keyAllowed then do
    let key : KeyCandidate :=
      { required := !s.inFlow && s.indent == cell.column
        number := s.count
        line := cell.line
        column := cell.column
        offset := cell.offset }
    let s ← s.dropKey
    return { s with keys := some key :: s.keys.drop 1 }
  else some s

/-- Gives up the current candidate if it is too far back. Those of outer levels
become current later. -/
def dropStale (s : Scanner) (cell : Cell) : Option Scanner :=
  match s.keys with
  | some key :: _ =>
    if key.line < cell.line || key.offset + keyLimit < cell.offset then
      s.dropKey
    else some s
  | _ => some s

/-! ## Reading one token -/

def marker (s : Scanner) (token : Token) (rest : List Cell) :
    Option Scanner := do
  let s ← (s.unroll (-1)).dropKey
  return { s.push token with keyAllowed := false, cells := rest.drop 2 }

def openFlow (s : Scanner) (token : Token) (cell : Cell) (rest : List Cell) :
    Option Scanner := do
  let s ← s.saveKey cell
  return { s.push token with
    keys := none :: s.keys
    keyAllowed := true
    cells := rest }

def closeFlow (s : Scanner) (token : Token) (rest : List Cell) :
    Option Scanner := do
  let s ← s.dropKey
  let keys := if s.inFlow then s.keys.drop 1 else s.keys
  return { s.push token with keys, keyAllowed := false, cells := rest }

def comma (s : Scanner) (rest : List Cell) : Option Scanner := do
  let s ← s.dropKey
  return { s.push .comma with keyAllowed := true, cells := rest }

def blockMark (s : Scanner) (opening mark : Token) (keyAllowed : Bool)
    (cell : Cell) (rest : List Cell) : Option Scanner := do
  guard (s.inFlow || s.keyAllowed)
  let s ← (s.rollHere cell.column opening).dropKey
  return { s.push mark with keyAllowed, cells := rest }

/-- A colon. The candidate before it, if there is one, is a key. -/
def colon (s : Scanner) (cell : Cell) (rest : List Cell) : Option Scanner :=
  match s.keys with
  | some key :: keys =>
    let s :=
      (s.insertAt key.number .key).roll key.column key.number .openMapping
    some { s.push .value with
      keys := none :: keys
      keyAllowed := false
      cells := rest }
  | _ =>
    if s.inFlow then
      some { s.push .value with keyAllowed := false, cells := rest }
    else if s.keyAllowed then
      let s := s.rollHere cell.column .openMapping
      some { s.push .value with keyAllowed := true, cells := rest }
    else none

def quotedScalar (s : Scanner) (single : Bool) (cell : Cell)
    (rest : List Cell) : Option Scanner := do
  let s ← s.saveKey cell
  let (reversed, rest) ← quotedFrom single .text .none [] rest
  return { s.push (.quoted (String.ofList reversed.reverse)) with
    keyAllowed := false
    cells := rest }

def plainScalar (s : Scanner) (cell : Cell) (rest : List Cell) :
    Option Scanner := do
  let s ← s.saveKey cell
  let scalar ← plainFrom s.inFlow (s.indent + 1) .none [] (cell :: rest)
  return { s.push (.plain (String.ofList scalar.reversed.reverse)) with
    keyAllowed := scalar.endedLine, cells := scalar.rest }

def indicators : List Char :=
  ['-', '?', ':', ',', '[', ']', '\x7b', '\x7d', '#', '&', '*', '!', '|', '>',
    '\'', '"', '%', '@', '\x60']

def startsPlain (inFlow : Bool) (c : Char) (rest : List Cell) : Bool :=
  !(isBlank c || isBreak c || indicators.contains c) ||
    (c == '-' && !endsWord rest) ||
    (!inFlow && (c == '?' || c == ':') && !endsWord rest)

def next (s : Scanner) (cell : Cell) (rest : List Cell) : Option Scanner := do
  let s ← s.dropStale cell
  let s := s.unroll cell.column
  let c := cell.char
  if cell.column == 0 && c == '%' then none
  else if isMarker '-' (cell :: rest) then s.marker .documentStart rest
  else if isMarker '.' (cell :: rest) then s.marker .documentEnd rest
  else if c == '[' then s.openFlow .openList cell rest
  else if c == '\x7b' then s.openFlow .openRecord cell rest
  else if c == ']' then s.closeFlow .closeList rest
  else if c == '\x7d' then s.closeFlow .closeRecord rest
  else if c == ',' then s.comma rest
  else if c == '-' && endsWord rest then
    s.blockMark .openSequence .entry true cell rest
  else if c == '?' && (s.inFlow || endsWord rest) then
    s.blockMark .openMapping .key (!s.inFlow) cell rest
  else if c == ':' && (s.inFlow || endsWord rest) then s.colon cell rest
  else if c == '\'' then s.quotedScalar true cell rest
  else if c == '"' then s.quotedScalar false cell rest
  else if startsPlain s.inFlow c rest then s.plainScalar cell rest
  else none

def finish (s : Scanner) : Option (List Token) := do
  return (← (s.unroll (-1)).dropKey).reversed.reverse

/-- Reads all tokens. Every token takes at least one cell, so as many steps as
cells are enough. -/
def runWithin : Nat → Scanner → Option (List Token)
  | 0, _ => none
  | steps + 1, s =>
    match skipTrivia s.inFlow s.keyAllowed false s.cells with
    | (_, []) => s.finish
    | (keyAllowed, cell :: rest) =>
      match { s with keyAllowed }.next cell rest with
      | none => none
      | some s => runWithin steps s

end Scanner

def tokens? (text : String) : Option (List Token) :=
  let chars := text.toList
  if chars.all isReadable then
    let cells := place 0 0 0 chars
    Scanner.runWithin (cells.length + 1) { cells }
  else none

end SchemaLint.Yaml
