import SchemaLint.Lint.Issue
import SchemaLint.Program.Naming
import SchemaLint.Program.Walk
import SchemaLint.Provenance
import SchemaLint.Provider.Model

/-!
# Calls that set attributes

The calls of the setter that are reached from the functions that create, read
and update a component. Each is listed once, even if several functions reach it,
and only when the attribute name is a constant.
-/

namespace SchemaLint

structure SetCall where
  name : String
  /-- The value argument as it is passed. -/
  value : ValueId
  pos : Pos
deriving DecidableEq, Repr

/-- The setter calls met so far, latest first, and what tells them apart. -/
structure SetSearch where
  seen : List (Option ValueId × Pos) := []
  sites : List CallSite := []
  error : Option RuleError := none

def CallSite.identity (site : CallSite) : Option ValueId × Pos :=
  (site.value, site.pos)

namespace RuleContext

def namedCall? (ctx : RuleContext) (instruction : Instruction) :
    Access (Option (CallSite × String)) := do
  match ← ctx.package.callSite? instruction with
  | none => return none
  | some site =>
    match ← ctx.package.staticCallee? site.call with
    | none => return none
    | some callee => return some (site, ← ctx.package.funcName callee)

/-- Takes note of an instruction. A setter call takes the receiver, a name and a
value; one with another number of arguments ends the search. -/
def noteSetCall (ctx : RuleContext) (search : SetSearch)
    (instruction : Instruction) : Access (SetSearch × Bool) := do
  match ← ctx.namedCall? instruction with
  | none => return (search, true)
  | some (site, name) =>
    if name != ctx.sdk.set || search.seen.contains site.identity then
      return (search, true)
    let search := { search with seen := site.identity :: search.seen }
    if site.call.args.length == 3 then
      return ({ search with sites := site :: search.sites }, true)
    return ({ search with
        error := some ⟨"ResourceData.Set", site.call.args.length, site.pos⟩ },
      false)

def searchSlot (ctx : RuleContext) (search : SetSearch) (func : FuncId) :
    Access SetSearch := do
  if search.error.isSome then return search
  ctx.package.inspect (fun _ => false) ctx.noteSetCall search
    (← ctx.package.instructions func)

def settingSlots : List LifecycleSlot := [.create, .read, .update]

def searchComponent (ctx : RuleContext) (component : Component) :
    Access SetSearch :=
  (settingSlots.filterMap component.lifecycle?).foldlM ctx.searchSlot {}

/-- The setter call at a site, if its name argument is a constant. -/
def setCallAt? (ctx : RuleContext) (site : CallSite) :
    Check (Option SetCall) := do
  match site.call.args with
  | [_, name, value] =>
    match ← Analysis.constString? ctx.package name with
    | some name => return some ⟨name, value, site.pos⟩
    | none =>
      Report.warn
        (ctx.package.positions.display site.pos ++
          ": unable to determine what attribute is being set")
      return none
  | _ => return none

def setCalls (ctx : RuleContext) (component : Component) :
    Check (List SetCall) := do
  let search ← Analysis.ofAccess (ctx.searchComponent component)
  let calls ← search.sites.reverse.filterMapM ctx.setCallAt?
  match search.error with
  | some error => Analysis.refuse error
  | none => return calls

end RuleContext

end SchemaLint
