import SchemaLint.Document.Decode
import SchemaLint.Document.Yaml.Scalar
import SchemaLint.Document.Yaml.Token

/-!
# YAML documents

Tokens are folded into a document with the open collections kept on a stack. A
place where a node may stand but does not is a plain scalar without text. Where
a sequence stands right under a key, at the key's own indentation, no token ends
it; it ends at the first token that is no entry. Any node may be a key.
-/

namespace SchemaLint.Yaml

def plainNode (text : String) : Document := .scalar (resolve text) (some text)

def emptyNode : Document := plainNode ""

def textKey? : Document × Document → Option (String × Document)
  | (.scalar (.text name) _, item) => some (name, item)
  | _ => none

def collectionOf (entries : Entries) : Document :=
  match entries.mapM textKey? with
  | some members => .record members
  | none => .mapping entries

inductive Slot
  /-- Between entries. -/
  | idle
  /-- A key is awaited. -/
  | key
  | afterKey (key : Document)
  /-- A value is awaited. -/
  | value (key : Document)

inductive FlowSlot
  | start
  | afterComma
  | afterItem

inductive Frame
  | root (document : Option Document)
  /-- `awaiting` says that a dash has been read and its item has not. -/
  | sequence (items : List Document) (awaiting : Bool)
  /-- A sequence without indentation of its own. -/
  | flatSequence (items : List Document) (awaiting : Bool)
  | mapping (entries : Entries) (slot : Slot)
  | flowList (items : List Document) (slot : FlowSlot)
  /-- A record of one member without brackets, in a flow list. -/
  | flowPair (slot : Slot)
  | flowRecord (entries : Entries) (slot : FlowSlot)
  /-- A flow record inside an entry. -/
  | flowEntry (entries : Entries) (slot : Slot)

abbrev Stack := List Frame

def deliver (node : Document) : Stack → Option Stack
  | .root none :: stack => some (.root node :: stack)
  | .sequence items true :: stack =>
    some (.sequence (node :: items) false :: stack)
  | .flatSequence items true :: stack =>
    some (.flatSequence (node :: items) false :: stack)
  | .mapping entries .key :: stack =>
    some (.mapping entries (.afterKey node) :: stack)
  | .mapping entries (.value key) :: stack =>
    some (.mapping ((key, node) :: entries) .idle :: stack)
  | .flowList items .start :: stack | .flowList items .afterComma :: stack =>
    some (.flowList (node :: items) .afterItem :: stack)
  | .flowPair .key :: stack => some (.flowPair (.afterKey node) :: stack)
  | .flowPair (.value key) :: stack =>
    deliver (collectionOf [(key, node)]) stack
  | .flowRecord entries .start :: stack
  | .flowRecord entries .afterComma :: stack =>
    some (.flowRecord ((node, emptyNode) :: entries) .afterItem :: stack)
  | .flowEntry entries .key :: stack =>
    some (.flowEntry entries (.afterKey node) :: stack)
  | .flowEntry entries (.value key) :: stack =>
    some (.flowRecord ((key, node) :: entries) .afterItem :: stack)
  | _ => none

def holdsBlocks : Stack → Bool
  | .root _ :: _ | .sequence .. :: _ | .flatSequence .. :: _
  | .mapping .. :: _ => true
  | _ => false

def awaitsNode : Stack → Bool
  | .root none :: _ | .sequence _ true :: _ | .flatSequence _ true :: _
  | .mapping _ .key :: _ | .mapping _ (.value _) :: _
  | .flowList _ .start :: _ | .flowList _ .afterComma :: _
  | .flowPair .key :: _ | .flowPair (.value _) :: _
  | .flowRecord _ .start :: _ | .flowRecord _ .afterComma :: _
  | .flowEntry _ .key :: _ | .flowEntry _ (.value _) :: _ => true
  | _ => false

def beginNode (stack : Stack) : Token → Option Stack
  | .plain text => deliver (plainNode text) stack
  | .quoted text => deliver (.text text) stack
  | .openList =>
    if awaitsNode stack then some (.flowList [] .start :: stack) else none
  | .openRecord =>
    if awaitsNode stack then some (.flowRecord [] .start :: stack) else none
  | .openSequence =>
    if awaitsNode stack && holdsBlocks stack then
      some (.sequence [] false :: stack)
    else none
  | .openMapping =>
    if awaitsNode stack && holdsBlocks stack then
      some (.mapping [] .idle :: stack)
    else none
  | _ => none

/-- Ends collections that no token of their own ends, before a token that cannot
belong to them. -/
def endOpen (token : Token) : Stack → Option Stack
  | .flatSequence items awaiting :: stack =>
    let ended :=
      if awaiting then token == .key || token == .value || token == .closeBlock
      else token != .entry
    if ended then
      deliver (.list (if awaiting then emptyNode :: items else items).reverse)
        stack
    else some (.flatSequence items awaiting :: stack)
  | .flowPair (.afterKey key) :: stack =>
    if token == .value then some (.flowPair (.afterKey key) :: stack)
    else deliver (collectionOf [(key, emptyNode)]) stack
  | .flowPair (.value key) :: stack =>
    if token == .comma || token == .closeList then
      deliver (collectionOf [(key, emptyNode)]) stack
    else some (.flowPair (.value key) :: stack)
  | stack => some stack

def endEntry (entries : Entries) : Slot → Entries
  | .idle => entries
  | .key => (emptyNode, emptyNode) :: entries
  | .afterKey key | .value key => (key, emptyNode) :: entries

def inMapping (entries : Entries) (slot : Slot) (stack : Stack)
    (token : Token) : Option Stack :=
  match token, slot with
  | .key, _ => some (.mapping (endEntry entries slot) .key :: stack)
  | .closeBlock, _ =>
    deliver (collectionOf (endEntry entries slot).reverse) stack
  | .value, .key => some (.mapping entries (.value emptyNode) :: stack)
  | .value, .afterKey key => some (.mapping entries (.value key) :: stack)
  | .value, _ => none
  | .entry, .key | .entry, .value _ =>
    some (.flatSequence [] true :: .mapping entries slot :: stack)
  | _, .key | _, .value _ => beginNode (.mapping entries slot :: stack) token
  | _, _ => none

def inFlowEntry (entries : Entries) (slot : Slot) (stack : Stack)
    (token : Token) : Option Stack :=
  match token, slot with
  | .comma, _ => some (.flowRecord (endEntry entries slot) .afterComma :: stack)
  | .closeRecord, _ =>
    deliver (collectionOf (endEntry entries slot).reverse) stack
  | .value, .key => some (.flowEntry entries (.value emptyNode) :: stack)
  | .value, .afterKey key => some (.flowEntry entries (.value key) :: stack)
  | _, .key | _, .value _ => beginNode (.flowEntry entries slot :: stack) token
  | _, _ => none

/-- Takes a token in a pair of a flow list. Where its key is awaited, a mark
that can start none is passed over and the key is empty, even if the mark would
have ended the list. -/
def inFlowPair (slot : Slot) (stack : Stack) (token : Token) : Option Stack :=
  match token, slot with
  | .value, .key | .comma, .key | .closeList, .key =>
    some (.flowPair (.afterKey emptyNode) :: stack)
  | .value, .afterKey key => some (.flowPair (.value key) :: stack)
  | _, .key | _, .value _ => beginNode (.flowPair slot :: stack) token
  | _, _ => none

def inFlowList (items : List Document) (slot : FlowSlot) (stack : Stack)
    (token : Token) : Option Stack :=
  match token, slot with
  | .closeList, _ => deliver (.list items.reverse) stack
  | .comma, .afterItem => some (.flowList items .afterComma :: stack)
  | _, .afterItem => none
  | .key, _ => some (.flowPair .key :: .flowList items slot :: stack)
  | _, _ => beginNode (.flowList items slot :: stack) token

def inFlowRecord (entries : Entries) (slot : FlowSlot) (stack : Stack)
    (token : Token) : Option Stack :=
  match token, slot with
  | .closeRecord, _ => deliver (collectionOf entries.reverse) stack
  | .comma, .afterItem => some (.flowRecord entries .afterComma :: stack)
  | _, .afterItem => none
  | .key, _ => some (.flowEntry entries .key :: stack)
  | _, _ => beginNode (.flowRecord entries slot :: stack) token

def inSequence (items : List Document) (awaiting : Bool) (stack : Stack)
    (token : Token) : Option Stack :=
  let done := if awaiting then emptyNode :: items else items
  match token with
  | .entry => some (.sequence done true :: stack)
  | .closeBlock => deliver (.list done.reverse) stack
  | _ =>
    if awaiting then beginNode (.sequence items awaiting :: stack) token
    else none

def step (stack : Stack) (token : Token) : Option Stack := do
  match ← endOpen token stack with
  | .sequence items awaiting :: stack => inSequence items awaiting stack token
  | .flatSequence items awaiting :: stack =>
    if token == .entry then
      return .flatSequence (if awaiting then emptyNode :: items else items)
          true :: stack
    else beginNode (.flatSequence items awaiting :: stack) token
  | .mapping entries slot :: stack => inMapping entries slot stack token
  | .flowList items slot :: stack => inFlowList items slot stack token
  | .flowPair slot :: stack => inFlowPair slot stack token
  | .flowRecord entries slot :: stack => inFlowRecord entries slot stack token
  | .flowEntry entries slot :: stack => inFlowEntry entries slot stack token
  | stack => beginNode stack token

def ofTokens? (tokens : List Token) : Option Document := do
  match ← tokens.foldlM step [.root none] with
  | [.root document] => return document.getD emptyNode
  | _ => none

/-- Takes off the mark that starts a document and those that end it. -/
def withoutMarks (tokens : List Token) : List Token :=
  let tokens :=
    if tokens.head? == some .documentStart then tokens.drop 1 else tokens
  (tokens.reverse.dropWhile (· == .documentEnd)).reverse

def depthLimit : Nat := 128

/-- Reads a text that holds one document. A text without any is an empty one. -/
def parse? (text : String) : Option Document := do
  let tokens ← tokens? text
  guard (tokens.head? != some .documentEnd)
  return (← ofTokens? (withoutMarks tokens)).withinDepth depthLimit

end SchemaLint.Yaml
