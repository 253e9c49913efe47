import SchemaLint.Diagnostics
import SchemaLint.Program.Calls
import SchemaLint.Program.Unvisited

/-!
# Provenance

Where a value comes from: through boxing, type changes, dereferences, receives,
closures, tuples and the results of known calls, step by step. With the value
goes a result number, which a tuple extraction sets and a call uses up. A trace
ends at a value that has no step, or when a step leads back to a value already
met.
-/

namespace SchemaLint

namespace Package

def originStep? (p : Package) (value : ValueId) (index : Nat) :
    Access (Option (ValueId × Nat)) := do
  match ← p.operationAt value with
  | .makeInterface x | .changeType x => return some (x, index)
  | .unary .deref x => return some (x, index)
  | .unary .recv x => return some (x, 0)
  | .extract tuple number => return some (tuple, number)
  | .makeClosure func _ => return some (func, index)
  | .call call =>
    match ← p.staticCallee? call with
    | none => return none
    | some callee =>
      return (← p.returnValue? callee index).map fun result => (result, 0)
  | _ => return none

end Package

/-- The values met from a start value to its root. A revisited root is one that
was met before. -/
structure Trace where
  values : List ValueId
  root : ValueId
  revisited : Bool
deriving DecidableEq, Repr

namespace Package

theorem originStep?_bound {p : Package} {value : ValueId} {index : Nat}
    {next : Option (ValueId × Nat)}
    (hfound : p.originStep? value index = .ok next) :
    value.index < p.values.size := by
  unfold originStep? operationAt valueAt at hfound
  split at hfound
  · next hsome => exact (Array.getElem?_eq_some_iff.1 hsome).1
  · contradiction

def unmet (p : Package) (seen : List ValueId) : Nat :=
  unvisited p.values.size (seen.map ValueId.index)

theorem unmet_cons_lt {p : Package} {seen : List ValueId} {id : ValueId}
    (hbound : id.index < p.values.size) (hfresh : seen.contains id = false) :
    p.unmet (id :: seen) < p.unmet seen := by
  refine unvisited_cons_lt hbound ?_
  rw [List.contains_eq_mem, decide_eq_false_iff_not, List.mem_map]
  rintro ⟨⟨index⟩, hmember, rfl⟩
  simp_all

/-- Goes on with a trace that has met `seen`, latest first, and has come to
`current`. -/
def traceFrom (p : Package) (seen : List ValueId) (current : ValueId)
    (index : Nat) : Access Trace :=
  if hmet : seen.contains current then .ok ⟨seen.reverse, current, true⟩
  else
    match hstep : p.originStep? current index with
    | .error outside => .error outside
    | .ok none => .ok ⟨(current :: seen).reverse, current, false⟩
    | .ok (some (next, index)) =>
      have := unmet_cons_lt (originStep?_bound hstep) (Bool.eq_false_iff.2 hmet)
      p.traceFrom (current :: seen) next index
termination_by p.unmet seen

def trace (p : Package) (value : ValueId) : Access Trace :=
  p.traceFrom [] value 0

def root (p : Package) (value : ValueId) : Access ValueId := do
  return (← p.trace value).root

/-- The value behind boxing and type changes, for a chain of them that ends
within the given steps. -/
def unboxWithin (p : Package) : Nat → ValueId → Access ValueId
  | 0, value => .ok value
  | steps + 1, value => do
    match (← p.operationAt value).transparent? with
    | some x => p.unboxWithin steps x
    | none => return value

def stripBoxing (p : Package) (value : ValueId) : Access ValueId :=
  p.unboxWithin (p.values.size + 1) value

/-- Whether a value is the address of a field or of an element. -/
def isElementAddr (p : Package) (value : ValueId) : Access Bool := do
  match ← p.operationAt value with
  | .fieldAddr .. | .indexAddr .. => return true
  | _ => return false

/-- Whether a value is read through a pointer. Reading a field or an element by
its address does not count. -/
def isIndirection (p : Package) (value : ValueId) : Access Bool := do
  match ← p.operationAt value with
  | .unary .deref x => return !(← p.isElementAddr x)
  | _ => return false

def isBare (p : Package) (value : ValueId) : Access Bool := do
  return (← p.operationAt value).transparent?.isNone

/-- The first of some values that is neither boxing nor a type change. -/
def firstBare? (p : Package) : List ValueId → Access (Option ValueId)
  | [] => .ok none
  | value :: rest => do
    if ← p.isBare value then return some value else p.firstBare? rest

end Package

namespace Trace

/-- The first value of the trace that is neither boxing nor a type change. -/
def outermost (trace : Trace) (p : Package) : Access ValueId := do
  return (← p.firstBare? trace.values).getD trace.root

def indirections (trace : Trace) (p : Package) : Access Nat := do
  return (← trace.values.filterM p.isIndirection).length

/-- A trace that comes back to a value it has met leaves a record. -/
def records (trace : Trace) (start : ValueId) : List Record :=
  if trace.revisited then
    [⟨.trace,
      "provenance of " ++ start.text ++ " revisits " ++ trace.root.text ++
        ", stopping"⟩]
  else []

end Trace

namespace Analysis

def trace (p : Package) (value : ValueId) : Analysis ε Trace := do
  let trace ← ofAccess (p.trace value)
  ⟨.ok trace, trace.records value⟩

def root (p : Package) (value : ValueId) : Analysis ε ValueId := do
  return (← trace p value).root

def constString? (p : Package) (value : ValueId) :
    Analysis ε (Option String) := do
  p.constString? (← root p value)

end Analysis

end SchemaLint
