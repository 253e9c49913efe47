import Mathlib.Data.List.Chain
import Mathlib.Data.List.Nodup
import Mathlib.Data.List.Perm.Subperm
import SchemaLint.Proofs.Queries.Calls
import SchemaLint.Provenance

/-!
# Traces follow the steps

`OriginStep` relates a value and the result number carried to it to the value
and number of the next step. A trace follows these steps from its start until
there is none or until one leads back to a value already met, and it does so on
every well-formed package.
-/

namespace SchemaLint.Package

variable {p : Package}

/-! ## Steps -/

/-- A step from a value, by what defines it. The number is kept, set by an
extraction, or used up by a call. -/
inductive OriginStep (p : Package) : ValueId × Nat → ValueId × Nat → Prop
  | boxing {value x index} :
    p.operationAt value = .ok (.makeInterface x) →
    OriginStep p (value, index) (x, index)
  | typeChange {value x index} :
    p.operationAt value = .ok (.changeType x) →
    OriginStep p (value, index) (x, index)
  | dereference {value x index} :
    p.operationAt value = .ok (.unary .deref x) →
    OriginStep p (value, index) (x, index)
  | receive {value x index} :
    p.operationAt value = .ok (.unary .recv x) →
    OriginStep p (value, index) (x, 0)
  | extraction {value tuple number index} :
    p.operationAt value = .ok (.extract tuple number) →
    OriginStep p (value, index) (tuple, number)
  | closure {value func bindings index} :
    p.operationAt value = .ok (.makeClosure func bindings) →
    OriginStep p (value, index) (func, index)
  | call {value call callee result index} :
    p.operationAt value = .ok (.call call) →
    p.staticCallee? call = .ok (some callee) →
      p.returnValue? callee index = .ok (some result) →
      OriginStep p (value, index) (result, 0)

theorem originStep?_eq_some_iff {value : ValueId} {index : Nat}
    {next : ValueId × Nat} :
    p.originStep? value index = .ok (some next) ↔
      p.OriginStep (value, index) next := by
  constructor
  · intro hfound
    obtain ⟨operation, hknown, hfound⟩ := Access.bind_eq_ok_iff.1 hfound
    split at hfound
    · cases hfound
      exact .boxing hknown
    · cases hfound
      exact .typeChange hknown
    · cases hfound
      exact .dereference hknown
    · cases hfound
      exact .receive hknown
    · cases hfound
      exact .extraction hknown
    · cases hfound
      exact .closure hknown
    · obtain ⟨target, hresolved, hfound⟩ := Access.bind_eq_ok_iff.1 hfound
      cases target with
      | none => cases hfound
      | some callee =>
          obtain ⟨returned, hresult, hfound⟩ := Access.bind_eq_ok_iff.1 hfound
          cases returned with
          | none => cases hfound
          | some value =>
              cases hfound
              exact .call hknown hresolved hresult
    · cases hfound
  · intro hstep
    cases hstep with
    | boxing hknown | typeChange hknown | dereference hknown | receive hknown
    | extraction hknown | closure hknown => simp [originStep?, hknown]
    | call hknown hresolved hreturned =>
        simp [originStep?, hknown, hresolved, hreturned]

theorem OriginStep.unique {state first second : ValueId × Nat}
    (hone : p.OriginStep state first) (hother : p.OriginStep state second) :
    first = second := by
  have hsame :=
    (originStep?_eq_some_iff.2 hone).symm.trans
      (originStep?_eq_some_iff.2 hother)
  simpa using hsame

private theorem not_originStep {value : ValueId} {index : Nat}
    (hfound : p.originStep? value index = .ok none) (next : ValueId × Nat) :
    ¬p.OriginStep (value, index) next := by
  intro hstep
  have hsame := hfound.symm.trans (originStep?_eq_some_iff.2 hstep)
  simp at hsame

theorem WellFormed.originStep? (hwf : p.WellFormed) {value : ValueId}
    (hhas : p.HasValue value) (index : Nat) :
    Faultless (p.originStep? value index) fun found =>
      ∀ next ∈ found, p.HasValue next.1 := by
  refine (hwf.operationAt hhas).bind fun operation hholds => ?_
  have hinside : ∀ x ∈ operation.operands, ∀ n : Nat,
      ∀ next ∈ some (x, n), p.HasValue next.1 := by
    rintro x hmember n _ ⟨⟩
    exact hholds.operands x hmember
  cases operation with
  | makeInterface x | changeType x | makeClosure x bindings
  | extract x number => exact .pure (hinside x (by simp [Operation.operands]) _)
  | unary op x =>
      cases op with
      | deref | recv => exact .pure (hinside x (by simp [Operation.operands]) _)
      | _ => exact .pure_none
  | call call =>
      refine (hwf.staticCallee? hholds.operands).bind fun target hknown => ?_
      cases target with
      | none => exact .pure_none
      | some callee =>
          refine (hwf.returnValue? (hknown callee rfl) index).bind
            fun returned hknown => .pure ?_
          intro next hfound
          obtain ⟨result, hsame, rfl⟩ := Option.map_eq_some_iff.1 hfound
          exact hknown result hsame
  | _ => exact .pure_none

/-! ## Runs -/

/-- `Traced p seen state path root revisited`: a trace that has met `seen` and
has come to `state` goes on through the states of `path` to `root`. -/
inductive Traced (p : Package) :
    List ValueId → ValueId × Nat → List (ValueId × Nat) → ValueId → Bool → Prop
  | met {seen value index} :
    value ∈ seen → Traced p seen (value, index) [] value true
  | stuck {seen value index} :
    value ∉ seen → (∀ next, ¬p.OriginStep (value, index) next) →
      Traced p seen (value, index) [(value, index)] value false
  | step {seen value index next path root revisited} :
    value ∉ seen → p.OriginStep (value, index) next →
    Traced p (value :: seen) next path root revisited →
      Traced p seen (value, index) ((value, index) :: path) root revisited

theorem WellFormed.traceFrom (hwf : p.WellFormed) (seen : List ValueId)
    {current : ValueId} (hhas : p.HasValue current) (index : Nat) :
    ∃ path root revisited, p.Traced seen (current, index) path root revisited ∧
      p.traceFrom seen current index =
        .ok ⟨seen.reverse ++ path.map Prod.fst, root, revisited⟩ := by
  fun_induction Package.traceFrom p seen current index with
  | case1 seen current index hmet =>
      exact ⟨[], current, true, .met (by simpa using hmet), by simp⟩
  | case2 seen current index hfresh fault hstep =>
      exact absurd hstep ((hwf.originStep? hhas index).ne_error fault)
  | case3 seen current index hfresh hstep =>
      refine ⟨[(current, index)], current, false, ?_, by simp⟩
      exact .stuck (by simpa using hfresh) (not_originStep hstep)
  | case4 seen current index hfresh next number hstep hbelow ih =>
      have hinside := (hwf.originStep? hhas index).of_ok hstep
      obtain ⟨path, root, revisited, htraced, hresult⟩ :=
        ih (hinside (next, number) rfl)
      refine ⟨(current, index) :: path, root, revisited, ?_, by simp [hresult]⟩
      exact .step (by simpa using hfresh) (originStep?_eq_some_iff.1 hstep)
        htraced

theorem Traced.unique {seen : List ValueId} {state : ValueId × Nat}
    {path path' : List (ValueId × Nat)} {root root' : ValueId}
    {revisited revisited' : Bool}
    (hone : p.Traced seen state path root revisited)
    (hother : p.Traced seen state path' root' revisited') :
    path = path' ∧ root = root' ∧ revisited = revisited' := by
  induction hone generalizing path' with
  | met hmember =>
      cases hother with
      | met => exact ⟨rfl, rfl, rfl⟩
      | stuck hfresh | step hfresh => exact absurd hmember hfresh
  | stuck hfresh hnone =>
      cases hother with
      | met hmember => exact absurd hmember hfresh
      | stuck => exact ⟨rfl, rfl, rfl⟩
      | step _ hstep => exact absurd hstep (hnone _)
  | step hfresh hstep _ ih =>
      cases hother with
      | met hmember => exact absurd hmember hfresh
      | stuck _ hnone => exact absurd hstep (hnone _)
      | step _ hstep' hrest =>
          cases hstep.unique hstep'
          obtain ⟨rfl, rfl, rfl⟩ := ih hrest
          exact ⟨rfl, rfl, rfl⟩

theorem Traced.hasValue (hwf : p.WellFormed) {seen : List ValueId}
    {state : ValueId × Nat} {path : List (ValueId × Nat)} {root : ValueId}
    {revisited : Bool} (htraced : p.Traced seen state path root revisited)
    (hhas : p.HasValue state.1) : ∀ met ∈ path, p.HasValue met.1 := by
  induction htraced with
  | met => simp
  | stuck => simpa using hhas
  | step hfresh hstep _ ih =>
      have hinside :=
        (hwf.originStep? hhas _).of_ok (originStep?_eq_some_iff.2 hstep)
      simpa using ⟨hhas, by simpa using ih (hinside _ rfl)⟩

section

variable {seen : List ValueId} {state : ValueId × Nat}
  {path : List (ValueId × Nat)} {root : ValueId} {revisited : Bool}

theorem Traced.path_cases (htraced : p.Traced seen state path root revisited) :
    (path = [] ∧ state.1 ∈ seen ∧ root = state.1 ∧ revisited = true) ∨
      state.1 ∉ seen ∧ ∃ rest, path = state :: rest := by
  cases htraced with
  | met hmember => exact .inl ⟨rfl, hmember, rfl, rfl⟩
  | stuck hfresh => exact .inr ⟨hfresh, [], rfl⟩
  | step hfresh => exact .inr ⟨hfresh, _, rfl⟩

theorem Traced.isChain (htraced : p.Traced seen state path root revisited) :
    path.IsChain p.OriginStep := by
  induction htraced with
  | met => exact .nil
  | stuck => exact .singleton _
  | step hfresh hstep hrest ih =>
      refine ih.cons ?_
      intro next hfirst
      rcases hrest.path_cases with ⟨rfl, -⟩ | ⟨-, tail, rfl⟩
      · simp at hfirst
      · cases hfirst
        exact hstep

theorem Traced.fresh (htraced : p.Traced seen state path root revisited) :
    ∀ met ∈ path, met.1 ∉ seen := by
  induction htraced with
  | met => simp
  | stuck hfresh => simpa using hfresh
  | step hfresh _ _ ih =>
      intro met hmember
      rcases List.mem_cons.1 hmember with rfl | hmember
      · exact hfresh
      · exact fun hold => ih met hmember (List.mem_cons_of_mem _ hold)

theorem Traced.nodup (htraced : p.Traced seen state path root revisited) :
    (path.map Prod.fst).Nodup := by
  induction htraced with
  | met => simp
  | stuck => simp
  | step _ _ hrest ih =>
      rw [List.map_cons, List.nodup_cons]
      refine ⟨?_, ih⟩
      intro hmember
      obtain ⟨met, hinPath, hsame⟩ := List.mem_map.1 hmember
      exact hrest.fresh met hinPath (by simp [hsame])

theorem Traced.ending (htraced : p.Traced seen state path root revisited)
    (hfresh : state.1 ∉ seen) :
    ∃ last, path.getLast? = some last ∧
      ((∀ next, ¬p.OriginStep last next) ∧ root = last.1 ∧ revisited = false ∨
        ∃ next, p.OriginStep last next ∧ next.1 ∈ seen ++ path.map Prod.fst ∧
          root = next.1 ∧ revisited = true) := by
  induction htraced with
  | met hmember => exact absurd hmember hfresh
  | stuck _ hnone => exact ⟨_, rfl, .inl ⟨hnone, rfl, rfl⟩⟩
  | @step seen value index next path root revisited _ hstep hrest ih =>
      rcases hrest.path_cases with
        ⟨rfl, hmember, rfl, rfl⟩ | ⟨hfresh, tail, rfl⟩
      · refine ⟨(value, index), rfl, .inr ⟨next, hstep, ?_, rfl, rfl⟩⟩
        simpa [or_comm] using hmember
      · obtain ⟨last, hfinal, hending⟩ := ih hfresh
        refine ⟨last, by simpa using hfinal, ?_⟩
        rcases hending with hstuck | ⟨onward, hstep', hmember, rfl, rfl⟩
        · exact .inl hstuck
        · exact .inr
            ⟨onward, hstep', List.perm_middle.mem_iff.2 hmember, rfl, rfl⟩

theorem Traced.root_carried (htraced : p.Traced [] state path root revisited) :
    ∃ carried, (root, carried) ∈ path := by
  obtain ⟨last, hfinal, hending⟩ := htraced.ending (by simp)
  rcases hending with ⟨-, rfl, -⟩ | ⟨next, -, hmember, rfl, -⟩
  · exact ⟨last.2, List.mem_of_getLast? hfinal⟩
  · simpa using hmember

end

/-! ## Whole traces -/

/-- `path` is the values of a trace from `value`, each with the result number
that is carried to it. -/
structure CarriedPath (p : Package) (value : ValueId) (trace : Trace)
    (path : List (ValueId × Nat)) : Prop where
  values_eq : trace.values = path.map Prod.fst
  starts : path.head? = some (value, 0)
  steps : path.IsChain p.OriginStep

theorem Traced.carriedPath {value : ValueId} {path : List (ValueId × Nat)}
    {root : ValueId} {revisited : Bool}
    (htraced : p.Traced [] (value, 0) path root revisited) :
    p.CarriedPath value ⟨path.map Prod.fst, root, revisited⟩ path := by
  refine ⟨rfl, ?_, htraced.isChain⟩
  rcases htraced.path_cases with ⟨-, hmember, -⟩ | ⟨-, rest, rfl⟩
  · simp at hmember
  · rfl

theorem WellFormed.trace (hwf : p.WellFormed) {value : ValueId}
    (hhas : p.HasValue value) :
    ∃ path root revisited, p.Traced [] (value, 0) path root revisited ∧
      p.trace value = .ok ⟨path.map Prod.fst, root, revisited⟩ := by
  simpa [Package.trace] using hwf.traceFrom [] hhas 0

theorem Traced.length_le (hwf : p.WellFormed) {state : ValueId × Nat}
    {path : List (ValueId × Nat)} {root : ValueId} {revisited : Bool}
    (htraced : p.Traced [] state path root revisited)
    (hhas : p.HasValue state.1) : path.length ≤ p.values.size := by
  have hinjective : Function.Injective ValueId.index :=
    fun ⟨_⟩ ⟨_⟩ hsame => congrArg ValueId.mk hsame
  have hdistinct : ((path.map Prod.fst).map ValueId.index).Nodup :=
    htraced.nodup.map hinjective
  have hbelow : (path.map Prod.fst).map ValueId.index ⊆
      List.range p.values.size := by
    intro index hmember
    simp only [List.map_map, List.mem_map] at hmember
    obtain ⟨met, hinPath, rfl⟩ := hmember
    exact List.mem_range.2 (htraced.hasValue hwf hhas met hinPath)
  simpa using (hdistinct.subperm hbelow).length_le

theorem trace_follows_origin_steps (hvalid : p.validate = .ok ())
    {value : ValueId} (hinRange : value.index < p.values.size) (ε : Type) :
    ∃ trace path last records, (Analysis.trace p value : Analysis ε Trace) =
        ⟨.ok trace, records⟩ ∧ p.CarriedPath value trace path ∧
      trace.values.Nodup ∧ trace.values.length ≤ p.values.size ∧
      path.getLast? = some last ∧
      ((∀ next, ¬p.OriginStep last next) ∧ trace.root = last.1 ∧ records = [] ∨
        ∃ next, p.OriginStep last next ∧ next.1 ∈ trace.values ∧
          trace.root = next.1 ∧
          records =
            [⟨.trace,
              "provenance of " ++ value.text ++ " revisits " ++
                trace.root.text ++ ", stopping"⟩]) := by
  have hwf := validate_eq_ok_iff.1 hvalid
  obtain ⟨path, root, revisited, htraced, hresult⟩ := hwf.trace hinRange
  obtain ⟨last, hfinal, hending⟩ := htraced.ending (by simp)
  refine ⟨⟨path.map Prod.fst, root, revisited⟩, path, last, _,
    by rw [Analysis.trace, hresult]; rfl, htraced.carriedPath, htraced.nodup,
    by simpa using htraced.length_le hwf hinRange, hfinal, ?_⟩
  rcases hending with ⟨hnone, rfl, rfl⟩ | ⟨next, hstep, hmember, rfl, rfl⟩
  · exact .inl ⟨hnone, rfl, rfl⟩
  · exact .inr ⟨next, hstep, by simpa using hmember, rfl, rfl⟩

/-- A function of three results that calls itself, returns a constant as the
first result, and hands the first two results of the inner call on as its second
and third. -/
def shifting : Package where
  path := "example.com/p"
  types :=
    #[.basic .string, .signature [] [⟨0⟩, ⟨0⟩, ⟨0⟩] false,
      .tuple [⟨0⟩, ⟨0⟩, ⟨0⟩]]
  values := #[
    ⟨.function ⟨0⟩, ⟨1⟩, .unknown, none, none⟩,
    ⟨.call ⟨⟨0⟩, none, []⟩, ⟨2⟩, .unknown, some ⟨0⟩, none⟩,
    ⟨.extract ⟨1⟩ 0, ⟨0⟩, .unknown, some ⟨0⟩, none⟩,
    ⟨.extract ⟨1⟩ 1, ⟨0⟩, .unknown, some ⟨0⟩, none⟩,
    ⟨.const (.string "a"), ⟨0⟩, .unknown, none, none⟩]
  functions := #[{
    name := "f"
    package := some "example.com/p"
    receiver := none
    signature := ⟨1⟩
    params := []
    blocks :=
      some [⟨[.define ⟨1⟩, .define ⟨2⟩, .define ⟨3⟩,
        .ret [⟨4⟩, ⟨2⟩, ⟨3⟩] .unknown]⟩]
    pos := .unknown, doc := none }]

theorem shifting_trace_follows_origin_steps :
    shifting.validate = .ok () ∧ 3 < shifting.values.size ∧
      ∃ trace path last records, (Analysis.trace shifting ⟨3⟩ :
            Analysis Empty Trace) = ⟨.ok trace, records⟩ ∧
        shifting.CarriedPath ⟨3⟩ trace path ∧ trace.values.Nodup ∧
        trace.values.length ≤ shifting.values.size ∧ path.getLast? = some last ∧
        ((∀ next, ¬shifting.OriginStep last next) ∧ trace.root = last.1 ∧
            records = [] ∨ ∃ next, shifting.OriginStep last next ∧
            next.1 ∈ trace.values ∧ trace.root = next.1 ∧
            records =
              [⟨.trace, "provenance of " ++ ValueId.text ⟨3⟩ ++ " revisits " ++
                  trace.root.text ++ ", stopping"⟩]) :=
  ⟨by decide, by decide,
    trace_follows_origin_steps (by decide) (by decide) Empty⟩

end SchemaLint.Package
