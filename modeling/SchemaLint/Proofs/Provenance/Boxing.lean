import Mathlib.Logic.Relation
import SchemaLint.Lint.Rule
import SchemaLint.Proofs.Provenance.Root

/-!
# Values behind boxing

Three loops look behind boxing: one goes through boxing and type changes, one
through boxing only, and a trace goes through both and on. From a value whose
chain of boxings and type changes has an end all three agree on the chain. A
chain without an end runs into a cycle, and there the trace stops.
-/

namespace SchemaLint.Package

open Relation

variable {p : Package}

/-! ## Layers -/

/-- The first value boxes the second or changes its type. -/
def Unwraps (p : Package) (value x : ValueId) : Prop :=
  ∃ operation, p.operationAt value = .ok operation ∧
    operation.transparent? = some x

/-- The value is there, and it is neither boxing nor a type change. -/
def Bare (p : Package) (value : ValueId) : Prop :=
  ∃ operation, p.operationAt value = .ok operation ∧
    operation.transparent? = none

theorem hasValue_of_operationAt {value : ValueId} {operation : Operation}
    (hknown : p.operationAt value = .ok operation) : p.HasValue value := by
  obtain ⟨whole, hfound, -⟩ := Access.bind_eq_ok_iff.1 hknown
  unfold valueAt at hfound
  split at hfound
  · next hsome => exact (Array.getElem?_eq_some_iff.1 hsome).1
  · cases hfound

theorem Unwraps.unique {value x y : ValueId} (hone : p.Unwraps value x)
    (hother : p.Unwraps value y) : x = y := by
  obtain ⟨operation, hknown, hthrough⟩ := hone
  obtain ⟨operation', hknown', hthrough'⟩ := hother
  cases hknown.symm.trans hknown'
  exact Option.some.inj (hthrough.symm.trans hthrough')

theorem Unwraps.not_bare {value x : ValueId} (hunwraps : p.Unwraps value x) :
    ¬p.Bare value := by
  rintro ⟨operation, hknown, hnone⟩
  obtain ⟨operation', hknown', hthrough⟩ := hunwraps
  cases hknown.symm.trans hknown'
  cases hnone.symm.trans hthrough

theorem Unwraps.isBare {value x : ValueId} (hunwraps : p.Unwraps value x) :
    p.isBare value = .ok false := by
  obtain ⟨operation, hknown, hthrough⟩ := hunwraps
  simp [Package.isBare, hknown, hthrough]

theorem isBare_eq_true_iff {value : ValueId} :
    p.isBare value = .ok true ↔ p.Bare value := by
  simp only [Package.isBare, Access.bind_eq_ok_iff, Access.pure_eq,
    Except.ok.injEq, Option.isNone_iff_eq_none, Bare]

theorem Unwraps.originStep {value x : ValueId} (hunwraps : p.Unwraps value x)
    (index : Nat) : p.OriginStep (value, index) (x, index) := by
  obtain ⟨operation, hknown, hthrough⟩ := hunwraps
  cases operation <;> cases hthrough
  · exact .boxing hknown
  · exact .typeChange hknown

/-- `Wrapped p value layers inner`: behind the boxings and type changes
`layers`, which start with `value`, is `inner`. -/
inductive Wrapped (p : Package) : ValueId → List ValueId → ValueId → Prop
  | bare {value} : p.Bare value → Wrapped p value [] value
  | layer {value x layers inner} :
    p.Unwraps value x → Wrapped p x layers inner →
    Wrapped p value (value :: layers) inner

namespace Wrapped

variable {value inner : ValueId} {layers : List ValueId}

private theorem of_reflTransGen (hchain : ReflTransGen p.Unwraps value inner)
    (hbare : p.Bare inner) : ∃ layers, p.Wrapped value layers inner := by
  induction hchain using ReflTransGen.head_induction_on with
  | refl => exact ⟨[], .bare hbare⟩
  | head hunwraps _ ih =>
      obtain ⟨layers, hwrapped⟩ := ih
      exact ⟨_, .layer hunwraps hwrapped⟩

theorem inner_bare (hwrapped : p.Wrapped value layers inner) :
    p.Bare inner := by
  induction hwrapped with
  | bare hbare => exact hbare
  | layer _ _ ih => exact ih

theorem reflTransGen (hwrapped : p.Wrapped value layers inner) :
    ReflTransGen p.Unwraps value inner := by
  induction hwrapped with
  | bare => exact .refl
  | layer hunwraps _ ih => exact .head hunwraps ih

theorem unwraps_of_mem (hwrapped : p.Wrapped value layers inner) :
    ∀ x ∈ layers, ∃ y, p.Unwraps x y := by
  induction hwrapped with
  | bare => simp
  | layer hunwraps _ ih => exact List.forall_mem_cons.2 ⟨⟨_, hunwraps⟩, ih⟩

private theorem inner_not_mem (hwrapped : p.Wrapped value layers inner) :
    inner ∉ layers := by
  intro hmember
  obtain ⟨y, hunwraps⟩ := hwrapped.unwraps_of_mem inner hmember
  exact hunwraps.not_bare hwrapped.inner_bare

theorem unique {layers' : List ValueId} {inner' : ValueId}
    (hone : p.Wrapped value layers inner)
    (hother : p.Wrapped value layers' inner') : layers = layers' := by
  induction hone generalizing layers' with
  | bare hbare =>
      cases hother with
      | bare => rfl
      | layer hunwraps => exact absurd hbare hunwraps.not_bare
  | layer hunwraps _ ih =>
      cases hother with
      | bare hbare => exact absurd hbare hunwraps.not_bare
      | layer hunwraps' hrest =>
          cases hunwraps.unique hunwraps'
          rw [ih hrest]

theorem from_layer (hwrapped : p.Wrapped value layers inner) {x : ValueId}
    (hmember : x ∈ layers) :
    ∃ rest, p.Wrapped x rest inner ∧ rest.length ≤ layers.length := by
  induction hwrapped with
  | bare => simp at hmember
  | @layer value _ layers _ hunwraps hrest ih =>
      rcases List.mem_cons.1 hmember with rfl | hmember
      · exact ⟨_, .layer hunwraps hrest, Nat.le_refl _⟩
      · obtain ⟨later, hwrapped, hshort⟩ := ih hmember
        exact ⟨later, hwrapped, Nat.le_succ_of_le hshort⟩

theorem nodup (hwrapped : p.Wrapped value layers inner) : layers.Nodup := by
  induction hwrapped with
  | bare => exact .nil
  | layer hunwraps hrest ih =>
      refine List.nodup_cons.2 ⟨fun hagain => ?_, ih⟩
      obtain ⟨later, hwrapped, hshort⟩ := hrest.from_layer hagain
      rw [← (Wrapped.layer hunwraps hrest).unique hwrapped,
        List.length_cons] at hshort
      exact absurd hshort (Nat.not_succ_le_self _)

/-! ## The loops -/

theorem unboxWithin (hwrapped : p.Wrapped value layers inner) {steps : Nat}
    (henough : layers.length ≤ steps) :
    p.unboxWithin steps value = .ok inner := by
  induction hwrapped generalizing steps with
  | @bare value hbare =>
      obtain ⟨operation, hknown, hnone⟩ := hbare
      cases steps with
      | zero => rfl
      | succ steps => simp [Package.unboxWithin, hknown, hnone]
  | layer hunwraps _ ih =>
      obtain ⟨operation, hknown, hthrough⟩ := hunwraps
      cases steps with
      | zero => simp at henough
      | succ steps =>
          simp only [Package.unboxWithin, hknown, Access.ok_bind, hthrough]
          exact ih (Nat.le_of_succ_le_succ henough)

/-- Going through boxing only, a loop stops at the first type change or at the
end of the chain. -/
theorem unboxInterfaceWithin (hwrapped : p.Wrapped value layers inner)
    {steps : Nat} (henough : layers.length ≤ steps) :
    ∃ stop, p.unboxInterfaceWithin steps value = .ok stop ∧
      ReflTransGen p.Unwraps value stop ∧ ReflTransGen p.Unwraps stop inner ∧
      ∀ x, p.operationAt stop ≠ .ok (.makeInterface x) := by
  induction hwrapped generalizing steps with
  | @bare value hbare =>
      obtain ⟨operation, hknown, hnone⟩ := hbare
      have hplain (x : ValueId) :
          p.operationAt value ≠ .ok (.makeInterface x) := by
        intro hboxing
        cases hknown.symm.trans hboxing
        cases hnone
      refine ⟨value, ?_, .refl, .refl, hplain⟩
      cases steps with
      | zero => rfl
      | succ steps =>
          cases operation with
          | makeInterface x => exact absurd hknown (hplain x)
          | _ => simp [Package.unboxInterfaceWithin, hknown]
  | @layer value x layers inner hunwraps hrest ih =>
      cases steps with
      | zero => simp at henough
      | succ steps =>
          by_cases hboxing : p.operationAt value = .ok (.makeInterface x)
          · obtain ⟨stop, hstopped, hbefore, hafter, hplain⟩ :=
              ih (Nat.le_of_succ_le_succ henough)
            refine ⟨stop, ?_, .head hunwraps hbefore, hafter, hplain⟩
            simpa [Package.unboxInterfaceWithin, hboxing] using hstopped
          · obtain ⟨operation, hknown, hthrough⟩ := hunwraps
            have hchanges : operation = .changeType x := by
              cases operation <;> cases hthrough
              · exact absurd hknown hboxing
              · rfl
            subst hchanges
            refine ⟨value, by simp [Package.unboxInterfaceWithin, hknown],
              .refl, ?_, by simp [hknown]⟩
            exact .head ⟨_, hknown, rfl⟩ hrest.reflTransGen

/-- A trace that has met none of the layers goes through all of them to what is
inside. -/
theorem traced (hwrapped : p.Wrapped value layers inner) {seen : List ValueId}
    {index : Nat} {path : List (ValueId × Nat)} {root : ValueId}
    {revisited : Bool}
    (htraced : p.Traced seen (value, index) path root revisited)
    (hfresh : ∀ x ∈ layers, x ∉ seen) :
    ∃ rest, p.Traced (layers.reverse ++ seen) (inner, index) rest root
        revisited ∧ path.map Prod.fst = layers ++ rest.map Prod.fst := by
  induction hwrapped generalizing seen path with
  | bare => exact ⟨path, htraced, rfl⟩
  | @layer value x layers inner hunwraps hwrapped ih =>
      obtain ⟨hunmet, hothers⟩ := List.forall_mem_cons.1 hfresh
      cases htraced with
      | met hmet => exact absurd hmet hunmet
      | stuck _ hstuck => exact absurd (hunwraps.originStep index) (hstuck _)
      | step _ hstep htraced =>
          cases (hunwraps.originStep index).unique hstep
          have hapart :=
            (List.nodup_cons.1 (Wrapped.layer hunwraps hwrapped).nodup).1
          obtain ⟨rest, htraced, hsplit⟩ := ih htraced fun y hmember => by
            rw [List.mem_cons, not_or]
            exact ⟨fun hsame => hapart (hsame ▸ hmember), hothers y hmember⟩
          exact ⟨rest, by simpa using htraced, by simp [hsplit]⟩

end Wrapped

/-! ## Traces -/

theorem firstBare?_append {layers : List ValueId}
    (hwrapping : ∀ x ∈ layers, ∃ y, p.Unwraps x y) (rest : List ValueId) :
    p.firstBare? (layers ++ rest) = p.firstBare? rest := by
  induction layers with
  | nil => rfl
  | cons x layers ih =>
      obtain ⟨⟨y, hunwraps⟩, hothers⟩ := List.forall_mem_cons.1 hwrapping
      simpa [firstBare?, hunwraps.isBare] using ih hothers

/-- The first value of a trace that is of another kind is what is inside. -/
theorem Wrapped.firstBare? {value inner root : ValueId} {layers : List ValueId}
    {index : Nat} {path : List (ValueId × Nat)} {revisited : Bool}
    (hwrapped : p.Wrapped value layers inner)
    (htraced : p.Traced [] (value, index) path root revisited) :
    p.firstBare? (path.map Prod.fst) = .ok (some inner) := by
  obtain ⟨rest, hinside, hsplit⟩ := hwrapped.traced htraced (by simp)
  rw [hsplit, firstBare?_append hwrapped.unwraps_of_mem]
  rcases hinside.path_cases with ⟨-, hmet, -⟩ | ⟨-, tail, rfl⟩
  · exact absurd (by simpa using hmet) hwrapped.inner_not_mem
  · simp [Package.firstBare?, isBare_eq_true_iff.2 hwrapped.inner_bare]

private theorem Traced.not_mem_of_stuck {seen : List ValueId}
    {state : ValueId × Nat} {path : List (ValueId × Nat)} {root : ValueId}
    (htraced : p.Traced seen state path root false) : root ∉ seen := by
  generalize hended : false = revisited at htraced
  induction htraced with
  | met => cases hended
  | stuck hfresh => exact hfresh
  | step _ _ _ ih => exact fun hold => ih hended (List.mem_cons_of_mem _ hold)

/-- A trace through a chain without an end goes along the chain until it has
closed a cycle. -/
theorem Traced.cycle {seen : List ValueId} {state : ValueId × Nat}
    {path : List (ValueId × Nat)} {root : ValueId} {revisited : Bool}
    (htraced : p.Traced seen state path root revisited)
    (hendless : ∀ x, ReflTransGen p.Unwraps state.1 x → ∃ y, p.Unwraps x y) :
    (∀ x ∈ path.map Prod.fst, ∃ y, p.Unwraps x y) ∧
      ReflTransGen p.Unwraps state.1 root ∧
      (root ∉ seen → TransGen p.Unwraps root root) := by
  induction htraced with
  | met hmember => exact ⟨by simp, .refl, fun hunmet => absurd hmember hunmet⟩
  | @stuck _ value index _ hnone =>
      obtain ⟨y, hunwraps⟩ := hendless value .refl
      exact absurd (hunwraps.originStep index) (hnone _)
  | @step seen value index next path root revisited _ hstep _ ih =>
      obtain ⟨y, hunwraps⟩ := hendless value .refl
      cases (hunwraps.originStep index).unique hstep
      obtain ⟨hwrapping, honward, hclosed⟩ :=
        ih fun x hchain => hendless x (.head hunwraps hchain)
      refine ⟨List.forall_mem_cons.2 ⟨⟨y, hunwraps⟩, hwrapping⟩,
        .head hunwraps honward, fun hunmet => ?_⟩
      by_cases hback : root = value
      · subst hback
        exact .head' hunwraps honward
      · exact hclosed (by simpa [hback] using hunmet)

/-- From a value whose chain of boxings and type changes comes to an end, the
loop that goes through both comes there, the trace has it as its first value of
another kind, the loop through boxing only stops on the way there, and unless
the trace comes back to a value it is rooted where the trace from the end of the
chain is. When the chain does not end, the trace has as its outermost value one
that the chain comes back to. -/
theorem unboxing_loops_agree (hvalid : p.validate = .ok ()) (value : ValueId)
    (hinRange : value.index < p.values.size) :
    ∃ trace, p.trace value = .ok trace ∧
      (∀ inner, ReflTransGen p.Unwraps value inner → p.Bare inner →
        p.stripBoxing value = .ok inner ∧ trace.outermost p = .ok inner ∧
          (∃ stop, p.unboxInterface value = .ok stop ∧
            ReflTransGen p.Unwraps value stop ∧
            ReflTransGen p.Unwraps stop inner ∧
            ∀ x, p.operationAt stop ≠ .ok (.makeInterface x)) ∧
          (trace.revisited = false →
            p.root value = p.stripBoxing value >>= p.root)) ∧
      ((∀ x, ReflTransGen p.Unwraps value x → ∃ y, p.Unwraps x y) →
        ∃ met, trace.outermost p = .ok met ∧ ReflTransGen p.Unwraps value met ∧
          TransGen p.Unwraps met met) := by
  have hwf := validate_eq_ok_iff.1 hvalid
  obtain ⟨path, root, revisited, htraced, hresult⟩ := hwf.trace hinRange
  refine ⟨_, hresult, fun inner hchain hbare => ?_, fun hendless => ?_⟩
  · obtain ⟨layers, hwrapped⟩ := Wrapped.of_reflTransGen hchain hbare
    obtain ⟨rest, hinside, hsplit⟩ := hwrapped.traced htraced (by simp)
    rw [List.append_nil] at hinside
    have henough : layers.length ≤ p.values.size + 1 := by
      have hlength := congrArg List.length hsplit
      have hbound := htraced.length_le hwf hinRange
      simp only [List.length_map, List.length_append] at hlength
      omega
    have hstripped : p.stripBoxing value = .ok inner :=
      hwrapped.unboxWithin henough
    refine ⟨hstripped, by simp [Trace.outermost, hwrapped.firstBare? htraced],
      hwrapped.unboxInterfaceWithin henough, ?_⟩
    · rintro (rfl : revisited = false)
      have hrestarted :=
        hinside.forget (List.nil_subset _) fun hold =>
          absurd hold hinside.not_mem_of_stuck
      obtain ⟨operation, hknown, -⟩ := hbare
      obtain ⟨path', root', revisited', htraced', hresult'⟩ :=
        hwf.trace (hasValue_of_operationAt hknown)
      obtain ⟨-, rfl, -⟩ := hrestarted.unique htraced'
      simp [Package.root, hstripped, hresult, hresult']
  · obtain ⟨hwrapping, hchain, hclosed⟩ := htraced.cycle hendless
    have hfirst : p.firstBare? (path.map Prod.fst) = .ok none := by
      simpa [Package.firstBare?] using firstBare?_append hwrapping []
    exact ⟨root, by simp [Trace.outermost, hfirst], hchain, hclosed (by simp)⟩

/-- The result of a call is given another type and boxed; the last three values
are wrapped in each other. -/
def parcel : Package where
  path := "example.com/p"
  types :=
    #[.basic .string, .signature [] [⟨0⟩] false,
      .named (some "example.com/p") "Label" ⟨0⟩, .interface []]
  values := #[
    ⟨.function ⟨0⟩, ⟨1⟩, .unknown, none, none⟩,
    ⟨.const (.string "a"), ⟨0⟩, .unknown, none, none⟩,
    ⟨.call ⟨⟨0⟩, none, []⟩, ⟨0⟩, .unknown, some ⟨0⟩, none⟩,
    ⟨.changeType ⟨2⟩, ⟨2⟩, .unknown, some ⟨0⟩, none⟩,
    ⟨.makeInterface ⟨3⟩, ⟨3⟩, .unknown, some ⟨0⟩, none⟩,
    ⟨.makeInterface ⟨6⟩, ⟨3⟩, .unknown, some ⟨0⟩, none⟩,
    ⟨.changeType ⟨7⟩, ⟨2⟩, .unknown, some ⟨0⟩, none⟩,
    ⟨.makeInterface ⟨6⟩, ⟨3⟩, .unknown, some ⟨0⟩, none⟩]
  functions := #[{
    name := "f"
    package := some "example.com/p"
    receiver := none
    signature := ⟨1⟩
    params := []
    blocks :=
      some [⟨[.define ⟨2⟩, .define ⟨3⟩, .define ⟨4⟩, .define ⟨5⟩, .define ⟨6⟩,
        .define ⟨7⟩, .ret [⟨1⟩] .unknown]⟩]
    pos := .unknown, doc := none }]

private theorem parcel_endless (x : ValueId)
    (hchain : ReflTransGen parcel.Unwraps ⟨5⟩ x) : ∃ y, parcel.Unwraps x y := by
  have hwraps : x = ⟨5⟩ ∨ x = ⟨6⟩ ∨ x = ⟨7⟩ := by
    induction hchain with
    | refl => exact .inl rfl
    | tail _ hunwraps ih =>
        rcases ih with rfl | rfl | rfl
        · exact .inr (.inl (hunwraps.unique ⟨_, rfl, rfl⟩))
        · exact .inr (.inr (hunwraps.unique ⟨_, rfl, rfl⟩))
        · exact .inr (.inl (hunwraps.unique ⟨_, rfl, rfl⟩))
  rcases hwraps with rfl | rfl | rfl <;> exact ⟨_, _, rfl, rfl⟩

theorem parcel_unboxing_loops_agree :
    parcel.validate = .ok () ∧
      (∃ trace, parcel.trace ⟨4⟩ = .ok trace ∧ trace.revisited = false ∧
        parcel.stripBoxing ⟨4⟩ = .ok ⟨2⟩ ∧ trace.outermost parcel = .ok ⟨2⟩ ∧
        (∃ stop, parcel.unboxInterface ⟨4⟩ = .ok stop ∧
          ReflTransGen parcel.Unwraps ⟨4⟩ stop ∧
          ReflTransGen parcel.Unwraps stop ⟨2⟩ ∧
          ∀ x, parcel.operationAt stop ≠ .ok (.makeInterface x)) ∧
        parcel.root ⟨4⟩ = parcel.stripBoxing ⟨4⟩ >>= parcel.root) ∧
      ∃ trace met, parcel.trace ⟨5⟩ = .ok trace ∧
        trace.outermost parcel = .ok met ∧ ReflTransGen parcel.Unwraps ⟨5⟩ met ∧
        TransGen parcel.Unwraps met met := by
  have hvalid : parcel.validate = .ok () := by decide
  have htraced : parcel.trace ⟨4⟩ = .ok ⟨[⟨4⟩, ⟨3⟩, ⟨2⟩, ⟨1⟩], ⟨1⟩, false⟩ := by
    decide +kernel
  refine ⟨hvalid, ?_, ?_⟩
  · obtain ⟨trace, hfound, hended, -⟩ :=
      unboxing_loops_agree hvalid ⟨4⟩ (by decide)
    cases htraced.symm.trans hfound
    have hchain : ReflTransGen parcel.Unwraps ⟨4⟩ ⟨2⟩ :=
      .head ⟨_, rfl, rfl⟩ (.single ⟨_, rfl, rfl⟩)
    obtain ⟨hstripped, houtermost, hstopped, hrooted⟩ :=
      hended ⟨2⟩ hchain ⟨_, rfl, rfl⟩
    exact ⟨_, hfound, rfl, hstripped, houtermost, hstopped, hrooted rfl⟩
  · obtain ⟨trace, hfound, -, hclosed⟩ :=
      unboxing_loops_agree hvalid ⟨5⟩ (by decide)
    obtain ⟨met, houtermost, hcycle⟩ := hclosed parcel_endless
    exact ⟨trace, met, hfound, houtermost, hcycle⟩

end SchemaLint.Package
