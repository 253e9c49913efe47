import SchemaLint.Fixture.Lowering
import SchemaLint.Lint.Rule

/-!
# Set entries of fixtures

Which entries of a component's fixture set attributes when the component is
created, read or updated, and which of them are mistakes. All is read off the
fixture itself: no package is built and no function walked through.
-/

namespace SchemaLint

theorem FunctionFixture.helper_induction {motive : FunctionFixture → Prop}
    (alone : ∀ fixture, fixture.helper = none → motive fixture)
    (helped : ∀ fixture inner, fixture.helper = some inner → motive inner →
        motive fixture) : (fixture : FunctionFixture) → motive fixture
  | { helper := none, .. } => alone _ rfl
  | { helper := some inner, .. } =>
      helped _ inner rfl (helper_induction alone helped inner)

def FunctionFixture.levels : FunctionFixture → List FunctionFixture
  | fixture@{ helper := none, .. } => [fixture]
  | fixture@{ helper := some inner, .. } => fixture :: inner.levels

namespace FunctionFixture

variable {fixture inner : FunctionFixture}

theorem levels_alone (halone : fixture.helper = none) :
    fixture.levels = [fixture] := by
  obtain ⟨sdk, sets, calls, callSlots, helper⟩ := fixture
  cases halone
  rfl

theorem levels_helped (hhelped : fixture.helper = some inner) :
    fixture.levels = fixture :: inner.levels := by
  obtain ⟨sdk, sets, calls, callSlots, helper⟩ := fixture
  cases hhelped
  rfl

theorem levels_zero (fixture : FunctionFixture) :
    fixture.levels[0]? = some fixture := by
  cases hhelped : fixture.helper with
  | none => rw [levels_alone hhelped, List.getElem?_cons_zero]
  | some inner => rw [levels_helped hhelped, List.getElem?_cons_zero]

private theorem levels_succ {depth : Nat} {body : FunctionFixture}
    (hfound : fixture.levels[depth]? = some body) :
    fixture.levels[depth + 1]? = body.helper := by
  induction fixture using helper_induction generalizing depth with
  | alone fixture halone =>
      rw [levels_alone halone] at hfound ⊢
      obtain ⟨rfl, rfl⟩ : depth = 0 ∧ fixture = body := by
        simpa using List.getElem?_eq_some_iff.1 hfound
      exact halone.symm
  | helped fixture inner hhelped ih =>
      rw [levels_helped hhelped] at hfound ⊢
      cases depth with
      | zero =>
          cases hfound
          rw [hhelped]
          exact inner.levels_zero
      | succ depth => exact ih hfound

end FunctionFixture

/-- A set entry of a component and where it stands: in the function of a slot or
in a helper at some depth. -/
structure SetEntry where
  slot : LifecycleSlot
  depth : Nat
  index : Nat
  set : SetFixture
deriving DecidableEq, Repr

instance : Inhabited SetEntry := ⟨⟨.create, 0, 0, {}⟩⟩

namespace ComponentFixture

def ownBody? (fixture : ComponentFixture) (slot : LifecycleSlot) :
    Option FunctionFixture :=
  (fixture.slot slot).filter (·.sdk.isNone)

def bodyAt? (fixture : ComponentFixture) (slot : LifecycleSlot) (depth : Nat) :
    Option FunctionFixture :=
  (fixture.ownBody? slot).bind (·.levels[depth]?)

theorem bodyAt?_succ {fixture : ComponentFixture} {slot : LifecycleSlot}
    {depth : Nat} {body : FunctionFixture}
    (hfound : fixture.bodyAt? slot depth = some body) :
    fixture.bodyAt? slot (depth + 1) = body.helper := by
  obtain ⟨own, hgiven, hat⟩ := Option.bind_eq_some_iff.1 hfound
  rw [bodyAt?, hgiven, Option.bind_some, FunctionFixture.levels_succ hat]

inductive ReachesBody (fixture : ComponentFixture) : LifecycleSlot → Nat → Prop
  | setting {slot} : slot = .create ∨ slot = .read ∨ slot = .update →
      ReachesBody fixture slot 0
  | helper {slot depth body inner} :
    ReachesBody fixture slot depth → fixture.bodyAt? slot depth = some body →
    body.helper = some inner →
      ReachesBody fixture slot (depth + 1)
  | call {slot depth body other} :
    ReachesBody fixture slot depth → fixture.bodyAt? slot depth = some body →
    other ∈ body.callSlots →
      ReachesBody fixture other 0

structure IsLive (fixture : ComponentFixture) (entry : SetEntry) : Prop where
  reached : fixture.ReachesBody entry.slot entry.depth
  listed : ∃ body, fixture.bodyAt? entry.slot entry.depth = some body ∧
      body.sets[entry.index]? = some entry.set
  constant : entry.set.hasDynamicName = false

structure ListsLive (fixture : ComponentFixture)
    (order : List (SetEntry × Pos)) : Prop where
  entries : (order.map Prod.fst).Nodup
  positions : (order.map Prod.snd).Nodup
  mem_iff (entry : SetEntry) : entry ∈ order.map Prod.fst ↔ fixture.IsLive entry

/-- Every set entry has the right number of arguments. -/
def SetsPlainly (fixture : ComponentFixture) : Prop :=
  ∀ slot depth body, fixture.bodyAt? slot depth = some body →
    ∀ set ∈ body.sets, set.hasExtraArg = false

theorem setsPlainly_iff {fixture : ComponentFixture} :
    fixture.SetsPlainly ↔
      ∀ slot ∈ LifecycleSlot.all,
        ∀ own ∈ fixture.ownBody? slot, ∀ body ∈ own.levels,
          ∀ set ∈ body.sets, set.hasExtraArg = false := by
  constructor
  · intro hplain slot _ own hgiven body hmember
    obtain ⟨depth, hfound⟩ := List.mem_iff_getElem?.1 hmember
    exact hplain slot depth body
      (Option.bind_eq_some_iff.2 ⟨own, hgiven, hfound⟩)
  · intro hplain slot depth body hfound
    obtain ⟨own, hgiven, hat⟩ := Option.bind_eq_some_iff.1 hfound
    exact hplain slot (by cases slot <;> decide) own hgiven body
      (List.mem_iff_getElem?.2 ⟨depth, hat⟩)

instance : DecidablePred SetsPlainly :=
  fun _ => decidable_of_iff _ setsPlainly_iff.symm

end ComponentFixture

/-! ## Verdicts -/

def dereferencedShapes : List String :=
  ["deref", "field_pointer_deref", "slice_elem_deref", "map_elem_deref",
    "call_pointer_deref"]

def fittingShapes : AttributeType → List String
  | .bool => ["bool"]
  | .int => ["int", "int64"]
  | .float => ["float32", "float64"]
  | .string =>
    ["string", "named_string", "*string", "deref", "field",
      "field_pointer_deref", "slice_elem", "slice_elem_deref", "map_elem",
      "map_elem_deref", "call_string", "call_pointer", "call_pointer_deref"]
  | _ => []

namespace SetFixture

def unknownIssue? (keys : List String) (fixture : SetFixture) (pos : Pos) :
    Option Issue :=
  if fixture.name ∈ keys then none
  else
    some (.new pos ("attribute " ++ Text.quoted fixture.name ++
      " was not read from the schema"))

def dereferenceIssue? (fixture : SetFixture) (pos : Pos) : Option Issue :=
  if fixture.value ∈ dereferencedShapes then
    some (.new pos ("do not dereference value for attribute " ++
      Text.quoted fixture.name ++ " when calling Set"))
  else none

def typeIssue? (typeOf : String → Option AttributeType) (fixture : SetFixture)
    (pos : Pos) : Option Issue := do
  let type ← typeOf fixture.name
  if type ∈ [.bool, .int, .float, .string] ∧
      fixture.value ∉ fittingShapes type then
    some (.new pos ("attribute " ++ Text.quoted fixture.name ++
      " expects a Set value compatible with " ++ type.constantName))
  else none

end SetFixture

/-- A type for each of the names and for no others, as it was extracted for the
component. -/
structure Component.TypedBy (component : Component) (names : List String)
    (typeOf : String → Option AttributeType) : Prop where
  isSome_iff (name : String) : (typeOf name).isSome ↔ name ∈ names
  extracted {name : String} {type : AttributeType} :
    typeOf name = some type →
    ∃ attr ∈ component.attributes, attr.name = name ∧ attr.type = type

end SchemaLint
