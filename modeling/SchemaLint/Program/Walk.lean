import SchemaLint.Program.Calls
import SchemaLint.Program.Unvisited

/-!
# Walking through calls

A walk visits instructions in order and goes into the body of every function
that is known to be called, right after the call, each function once. Functions
can be sealed: calls to them are visited, their bodies are not.
-/

namespace SchemaLint.Package

def pending : List (List Instruction) → Nat
  | [] => 0
  | instructions :: stack => instructions.length + 1 + pending stack

theorem funcAt_bound {p : Package} {id : FuncId} {f : Func}
    (hfound : p.funcAt id = .ok f) : id.index < p.functions.size := by
  unfold funcAt at hfound
  split at hfound
  · next hsome => exact (Array.getElem?_eq_some_iff.1 hsome).1
  · contradiction

def unentered (p : Package) (entered : List FuncId) : Nat :=
  unvisited p.functions.size (entered.map FuncId.index)

theorem unentered_cons_lt {p : Package} {entered : List FuncId} {id : FuncId}
    {f : Func} (hfound : p.funcAt id = .ok f)
    (hfresh : entered.contains id = false) :
    p.unentered (id :: entered) < p.unentered entered := by
  refine unvisited_cons_lt (funcAt_bound hfound) ?_
  rw [List.contains_eq_mem, decide_eq_false_iff_not, List.mem_map]
  rintro ⟨⟨index⟩, hmember, rfl⟩
  simp_all

def bodySize (p : Package) : Nat :=
  (p.functions.toList.map Func.instructions).flatten.length

theorem length_le_bodySize {p : Package} {id : FuncId} {f : Func}
    (hfound : p.funcAt id = .ok f) : f.instructions.length ≤ p.bodySize := by
  unfold funcAt at hfound
  split at hfound
  · next hentry =>
      cases hfound
      have hmember := Array.mem_toList_iff.2 (Array.mem_of_getElem? hentry)
      exact (List.sublist_flatten_of_mem
        (List.mem_map_of_mem hmember)).length_le
  · contradiction

/-- What a walk has before it, where a function it has not gone into counts as
all bodies. -/
def remaining (p : Package) (entered : List FuncId)
    (stack : List (List Instruction)) : Nat :=
  p.unentered entered * (p.bodySize + 1) + pending stack

theorem remaining_enter_lt {p : Package} {entered : List FuncId} {id : FuncId}
    {f : Func} (hfound : p.funcAt id = .ok f)
    (hfresh : entered.contains id = false) (instruction : Instruction)
    (rest : List Instruction) (stack : List (List Instruction)) :
    p.remaining (id :: entered) (f.instructions :: rest :: stack) <
      p.remaining entered ((instruction :: rest) :: stack) := by
  have hfewer :=
    Nat.mul_le_mul_right (p.bodySize + 1) (unentered_cons_lt hfound hfresh)
  rw [Nat.succ_mul] at hfewer
  have hbounded := length_le_bodySize hfound
  simp only [remaining, pending, List.length_cons]
  omega

/-- The walk with what is still to visit on a stack, innermost body first. The
visitor folds a state over the instructions and says whether to go on. -/
def inspectFrom (p : Package) (isSealed : FuncId → Bool)
    (visit : σ → Instruction → Access (σ × Bool)) (state : σ)
    (entered : List FuncId) (stack : List (List Instruction)) : Access σ :=
  match stack with
  | [] => .ok state
  | [] :: stack => p.inspectFrom isSealed visit state entered stack
  | (instruction :: rest) :: stack =>
    match visit state instruction with
    | .error outside => .error outside
    | .ok (state, false) => .ok state
    | .ok (state, true) =>
      match p.callee? instruction with
      | .error outside => .error outside
      | .ok none => p.inspectFrom isSealed visit state entered (rest :: stack)
      | .ok (some callee) =>
        if hknown : isSealed callee || entered.contains callee then
          p.inspectFrom isSealed visit state entered (rest :: stack)
        else
          match hfound : p.funcAt callee with
          | .error outside => .error outside
          | .ok f =>
            have hfresh :=
              (Bool.or_eq_false_iff.1 (Bool.eq_false_iff.2 hknown)).2
            have := remaining_enter_lt hfound hfresh instruction rest stack
            p.inspectFrom isSealed visit state (callee :: entered)
              (f.instructions :: rest :: stack)
termination_by p.remaining entered stack
decreasing_by
  · simp [remaining, pending]
  · simp [remaining, pending]
  · simp [remaining, pending]
  · exact this

def inspect (p : Package) (isSealed : FuncId → Bool)
    (visit : σ → Instruction → Access (σ × Bool)) (state : σ)
    (start : List Instruction) : Access σ :=
  p.inspectFrom isSealed visit state [] [start]

def walk (p : Package) (isSealed : FuncId → Bool) (start : List Instruction) :
    Access (List Instruction) := do
  return (← p.inspect isSealed
    (fun seen instruction => .ok (instruction :: seen, true)) [] start).reverse

end SchemaLint.Package
