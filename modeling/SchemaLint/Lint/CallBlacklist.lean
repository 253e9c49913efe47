import SchemaLint.Document.Decode
import SchemaLint.Lint.SetCalls
import SchemaLint.Provider.Codec

/-!
# Call blacklists

Functions that must not be reached from given lifecycle functions. Every reached
call of a denied function is an issue, once for each callee name and position.
-/

namespace SchemaLint

def insertName (name : String) : List String → List String
  | [] => [name]
  | other :: rest =>
    if name < other then name :: other :: rest
    else if name = other then other :: rest
    else other :: insertName name rest

structure CallBlacklist where
  /-- The issue text, in which braces stand for the callee name. -/
  message : String
  /-- Denied names by slot. Slots are in their order and names rise. -/
  slots : List (LifecycleSlot × List String) := []
deriving DecidableEq, Repr

namespace CallBlacklist

def putSlot (slot : LifecycleSlot) (names : List String) :
    List (LifecycleSlot × List String) → List (LifecycleSlot × List String)
  | [] => [(slot, names)]
  | (other, old) :: rest =>
    if slot.rank < other.rank then (slot, names) :: (other, old) :: rest
    else if slot = other then (slot, names) :: rest
    else (other, old) :: putSlot slot names rest

def deny (blacklist : CallBlacklist) (slot : LifecycleSlot) (callee : String) :
    CallBlacklist :=
  let names := insertName callee ((blacklist.slots.lookup slot).getD [])
  { blacklist with slots := putSlot slot names blacklist.slots }

/-! ## Checking -/

/-- The denied calls found so far, latest first, by callee name and position. -/
abbrev Found := List (String × Pos)

/-- Whether a function is the one that removes a component from the state: it is
not gone into. -/
def isRemoval (ctx : RuleContext) (func : FuncId) : Bool :=
  match ctx.package.funcName func with
  | .ok name => name == ctx.sdk.removeFromState
  | .error _ => false

def note (ctx : RuleContext) (denied : List String) (found : Found)
    (instruction : Instruction) : Access (Found × Bool) := do
  match ← ctx.namedCall? instruction with
  | none => return (found, true)
  | some (site, name) =>
    if denied.contains name && !found.contains (name, site.pos) then
      return ((name, site.pos) :: found, true)
    return (found, true)

def searchSlot (ctx : RuleContext) (component : Component) (found : Found)
    (entry : LifecycleSlot × List String) : Access Found := do
  let (slot, denied) := entry
  if denied.isEmpty then return found
  match component.lifecycle? slot with
  | none => return found
  | some func =>
    if (← ctx.package.funcName func) == ctx.sdk.removeFromState then
      return found
    ctx.package.inspect (isRemoval ctx) (note ctx denied) found
      (← ctx.package.instructions func)

def messageFor (blacklist : CallBlacklist) (callee : String) : String :=
  blacklist.message.replace "\x7b\x7d" callee

def check (blacklist : CallBlacklist) (ctx : RuleContext)
    (component : Component) : Access (List Issue) := do
  let found ← blacklist.slots.foldlM (searchSlot ctx component) []
  return found.reverse.map fun (callee, pos) =>
    Issue.new pos (blacklist.messageFor callee)

/-! ## Documents -/

def encodeSlots (blacklist : CallBlacklist) : Document :=
  .record (blacklist.slots.map fun (slot, names) => (slot.label, .texts names))

def encode (blacklist : CallBlacklist) : Document :=
  .record
    [("message", .text blacklist.message), ("slots", blacklist.encodeSlots)]

def decodeSlots? (document : Document) :
    Option (List (LifecycleSlot × List String)) := do
  let entries ← (← document.members?).mapM fun (label, names) => do
    return (← LifecycleSlot.ofLabel? label,
      (← names.listOf? Document.text?).foldr insertName [])
  return entries.foldl (fun slots (slot, names) => putSlot slot names slots) []

def decode? (document : Document) : Option CallBlacklist := do
  let members ← document.members?
  guard (members.onlyNames ["message", "slots"])
  return ⟨← members.required "message" Document.text?,
    ← members.defaulted "slots" decodeSlots? []⟩

end CallBlacklist

end SchemaLint
