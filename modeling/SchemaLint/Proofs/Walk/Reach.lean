import Mathlib.Data.List.Basic
import SchemaLint.Proofs.Walk.Run

/-!
# What a walk reaches

`Reach` is the least set of functions that the start or a function of the set is
known to call, without the sealed ones. A walk visits its start and, once each,
the bodies of exactly these functions.
-/

namespace SchemaLint.Package

variable {p : Package} {isSealed : FuncId → Bool}

/-! ## Known calls -/

inductive ResolvesTo (p : Package) (call : Call) (f : FuncId) : Prop
  | function :
    call.method = none → p.operationAt call.target = .ok (.function f) →
      ResolvesTo p call f
  | closure {closed bindings} :
    call.method = none →
    p.operationAt call.target = .ok (.makeClosure closed bindings) →
      p.operationAt closed = .ok (.function f) → ResolvesTo p call f

theorem staticCallee?_eq_some_iff {call : Call} {f : FuncId} :
    p.staticCallee? call = .ok (some f) ↔ p.ResolvesTo call f := by
  constructor
  · intro hfound
    unfold staticCallee? at hfound
    split at hfound
    · cases hfound
    · next hplain =>
        have hplain : call.method = none := by simpa using hplain
        obtain ⟨operation, htarget, hfound⟩ := Access.bind_eq_ok_iff.1 hfound
        split at hfound
        · cases hfound
          exact .function hplain htarget
        · obtain ⟨inner, hclosed, hfound⟩ := Access.bind_eq_ok_iff.1 hfound
          split at hfound
          · cases hfound
            exact .closure hplain htarget hclosed
          · cases hfound
        · cases hfound
  · intro hresolves
    cases hresolves with
    | function hplain htarget => simp [staticCallee?, hplain, htarget]
    | closure hplain htarget hclosed =>
        simp [staticCallee?, hplain, htarget, hclosed]

/-- The instruction is a call, a go or a defer statement that is known to go to
the function. -/
inductive StaticCall (p : Package) : Instruction → FuncId → Prop
  | call {value call f} :
    p.operationAt value = .ok (.call call) → p.ResolvesTo call f →
    StaticCall p (.define value) f
  | go {call pos f} : p.ResolvesTo call f → StaticCall p (.go call pos) f
  | defer {call pos f} : p.ResolvesTo call f → StaticCall p (.defer call pos) f

theorem callee?_eq_some_iff {instruction : Instruction} {f : FuncId} :
    p.callee? instruction = .ok (some f) ↔ p.StaticCall instruction f := by
  constructor
  · intro hfound
    obtain ⟨site, hknown, hfound⟩ := Access.bind_eq_ok_iff.1 hfound
    cases site with
    | none => cases hfound
    | some site =>
        have hresolves := staticCallee?_eq_some_iff.1 hfound
        cases instruction with
        | define id =>
            obtain ⟨value, hentry, hknown⟩ := Access.bind_eq_ok_iff.1 hknown
            split at hknown
            · next call hoperation =>
                cases hknown
                exact .call (by simp [operationAt, hentry, hoperation])
                  hresolves
            · cases hknown
        | go call pos =>
            cases hknown
            exact .go hresolves
        | defer call pos =>
            cases hknown
            exact .defer hresolves
        | _ => cases hknown
  · intro hcalls
    cases hcalls with
    | @call value call f hoperation hresolves =>
        obtain ⟨entry, hknown, hsame⟩ := Access.bind_eq_ok_iff.1 hoperation
        have hsame : entry.operation = .call call := by simpa using hsame
        simp [callee?, callSite?, hknown, hsame,
          staticCallee?_eq_some_iff.2 hresolves]
    | go hresolves | defer hresolves =>
        simp [callee?, callSite?, staticCallee?_eq_some_iff.2 hresolves]

/-! ## Reached functions -/

inductive Reach (p : Package) (isSealed : FuncId → Bool)
    (start : List Instruction) : FuncId → Prop
  | start {instruction f} :
    instruction ∈ start → p.StaticCall instruction f → isSealed f = false →
    Reach p isSealed start f
  | body {caller body instruction f} :
    Reach p isSealed start caller → p.instructions caller = .ok body →
    instruction ∈ body →
      p.StaticCall instruction f → isSealed f = false → Reach p isSealed start f

/-- The instructions of a function in the table. -/
def bodyOf (p : Package) (f : FuncId) : List Instruction :=
  match p.instructions f with
  | .ok body => body
  | .error _ => []

theorem bodyOf_eq {f : FuncId} {body : List Instruction}
    (hfound : p.instructions f = .ok body) : p.bodyOf f = body := by
  simp [bodyOf, hfound]

section

variable {entered final : List FuncId} {stack : List (List Instruction)}
  {visited : List Instruction}

theorem Walked.perm (hwalked : p.Walked isSealed entered stack visited final) :
    (visited ++ entered.flatMap p.bodyOf).Perm
      (stack.flatten ++ final.flatMap p.bodyOf) := by
  induction hwalked with
  | done => simp
  | leave _ ih => simpa using ih
  | pass _ _ _ ih => simpa using ih
  | enter _ _ _ hfound _ ih =>
      -- The new body is on the stack and among the bodies of `entered`: both
      -- sides of the hypothesis count it once.
      rw [List.perm_iff_count] at ih ⊢
      intro instruction
      have hcounted := ih instruction
      simp only [List.flatMap_cons, bodyOf_eq hfound, List.flatten_cons,
        List.count_append, List.cons_append, List.count_cons] at hcounted ⊢
      omega

/-- What holds of the functions gone into so far, and is kept by going into one
more, holds at the end. -/
theorem Walked.entered_inv
    (hwalked : p.Walked isSealed entered stack visited final)
    (inv : List FuncId → Prop) (hstart : inv entered)
    (hstep : ∀ {entered callee body}, callee ∉ entered →
        p.instructions callee = .ok body → inv entered →
        inv (callee :: entered)) : inv final := by
  induction hwalked with
  | done => exact hstart
  | leave _ ih => exact ih hstart
  | pass _ _ _ ih => exact ih hstart
  | enter _ _ hfresh hfound _ ih => exact ih (hstep hfresh hfound hstart)

theorem Walked.nodup (hwalked : p.Walked isSealed entered stack visited final)
    (hdistinct : entered.Nodup) : final.Nodup :=
  hwalked.entered_inv List.Nodup hdistinct fun hfresh _ hdistinct =>
    List.nodup_cons.2 ⟨hfresh, hdistinct⟩

private theorem Walked.entered_subset
    (hwalked : p.Walked isSealed entered stack visited final) :
    entered ⊆ final :=
  hwalked.entered_inv (entered ⊆ ·) (List.Subset.refl entered) fun _ _ hkept =>
    List.subset_cons_of_subset _ hkept

theorem Walked.found (hwalked : p.Walked isSealed entered stack visited final)
    (hknown : ∀ f ∈ entered, p.instructions f = .ok (p.bodyOf f)) :
    ∀ f ∈ final, p.instructions f = .ok (p.bodyOf f) := by
  refine hwalked.entered_inv
    (fun list => ∀ f ∈ list, p.instructions f = .ok (p.bodyOf f)) hknown ?_
  intro entered callee body _ hfound hknown
  simpa [bodyOf_eq hfound] using ⟨hfound, hknown⟩

/-- A walk goes into every function that an instruction it visits is known to
call. -/
theorem Walked.callee_mem
    (hwalked : p.Walked isSealed entered stack visited final)
    {instruction : Instruction} (hmember : instruction ∈ visited) {f : FuncId}
    (hcalls : p.StaticCall instruction f) (hunsealed : isSealed f = false) :
    f ∈ final := by
  induction hwalked with
  | done => simp at hmember
  | leave _ ih => exact ih hmember
  | pass hresolved hknown hrest ih =>
      rcases List.mem_cons.1 hmember with rfl | hmember
      · rw [callee?_eq_some_iff.2 hcalls] at hresolved
        cases hresolved
        rcases hknown f rfl with hclosed | hold
        · simp [hclosed] at hunsealed
        · exact hrest.entered_subset hold
      · exact ih hmember
  | enter hresolved _ _ _ hrest ih =>
      rcases List.mem_cons.1 hmember with rfl | hmember
      · rw [callee?_eq_some_iff.2 hcalls] at hresolved
        cases hresolved
        exact hrest.entered_subset (by simp)
      · exact ih hmember

/-- What is on the stack calls only functions that are reached, and so does
every body that is put on it. -/
theorem Walked.reach {start : List Instruction}
    (hwalked : p.Walked isSealed entered stack visited final)
    (hahead : ∀ instruction ∈ stack.flatten, ∀ f, p.StaticCall instruction f →
        isSealed f = false → p.Reach isSealed start f)
    (hknown : ∀ f ∈ entered, p.Reach isSealed start f) :
    ∀ f ∈ final, p.Reach isSealed start f := by
  induction hwalked with
  | done => exact hknown
  | leave _ ih => exact ih (by simpa using hahead) hknown
  | pass _ _ _ ih => exact ih (fun i hmember => hahead i (by simp_all)) hknown
  | @enter entered instruction rest stack callee body visited final hresolved
      hunsealed _ hfound _ ih =>
      have hreached : p.Reach isSealed start callee :=
        hahead instruction (by simp) callee (callee?_eq_some_iff.1 hresolved)
          hunsealed
      refine ih ?_ (by simpa using ⟨hreached, hknown⟩)
      intro i hmember f hcalls hunsealed
      rcases List.mem_append.1 hmember with hmember | hmember
      · exact .body hreached hfound hmember hcalls hunsealed
      · exact hahead i (List.mem_cons_of_mem _ hmember) f hcalls hunsealed

end

/-! ## Whole walks -/

section

variable {start visited : List Instruction} {final : List FuncId}

theorem Walked.perm_start
    (hwalked : p.Walked isSealed [] [start] visited final) :
    visited.Perm (start ++ final.flatMap p.bodyOf) := by
  simpa using hwalked.perm

private theorem Walked.mem_iff_reach
    (hwalked : p.Walked isSealed [] [start] visited final) {f : FuncId} :
    f ∈ final ↔ p.Reach isSealed start f := by
  constructor
  · exact hwalked.reach (fun i hmember g => .start (by simpa using hmember))
      (by simp) f
  · intro hreached
    induction hreached with
    | start hmember hcalls hunsealed =>
        exact hwalked.callee_mem
          (hwalked.perm_start.mem_iff.2 (by simp [hmember])) hcalls hunsealed
    | @body caller body instruction f _ hfound hmember hcalls hunsealed ih =>
        have hinBody : instruction ∈ final.flatMap p.bodyOf :=
          List.mem_flatMap.2 ⟨caller, ih, by rwa [bodyOf_eq hfound]⟩
        exact hwalked.callee_mem
          (hwalked.perm_start.mem_iff.2 (by simp [hinBody])) hcalls hunsealed

theorem Walked.walk_eq (hwalked : p.Walked isSealed [] [start] visited final) :
    p.walk isSealed start = .ok visited := by
  simp [walk, inspect, hwalked.inspectFrom_eq,
    visitAll_total (fun seen i => i :: seen)]

end

/-- `visited` is the start and, once each, the bodies of the functions of
`entered`, and these are the ones reached. -/
structure Covers (p : Package) (isSealed : FuncId → Bool)
    (start visited : List Instruction) (entered : List FuncId) : Prop where
  distinct : entered.Nodup
  reached : ∀ f, f ∈ entered ↔ p.Reach isSealed start f
  found : ∀ f ∈ entered, p.instructions f = .ok (p.bodyOf f)
  once : visited.Perm (start ++ entered.flatMap p.bodyOf)

theorem Walked.covers {start visited : List Instruction} {final : List FuncId}
    (hwalked : p.Walked isSealed [] [start] visited final) :
    p.Covers isSealed start visited final where
  distinct := hwalked.nodup List.nodup_nil
  reached _ := hwalked.mem_iff_reach
  found := hwalked.found (by simp)
  once := hwalked.perm_start

/-- The body of a start function that is reached again is visited as the start
and as one of the bodies. -/
theorem Covers.twice {start visited : List Instruction} {entered : List FuncId}
    (hcovers : p.Covers isSealed start visited entered) {f : FuncId}
    (hbody : p.instructions f = .ok start)
    (hreached : p.Reach isSealed start f) :
    f ∉ entered.erase f ∧
      visited.Perm
        (start ++ (start ++ (entered.erase f).flatMap p.bodyOf)) := by
  have hbodies : (entered.flatMap p.bodyOf).Perm
      (p.bodyOf f ++ (entered.erase f).flatMap p.bodyOf) := by
    simpa using (List.perm_cons_erase
      ((hcovers.reached f).2 hreached)).flatMap_right p.bodyOf
  rw [bodyOf_eq hbody] at hbodies
  exact ⟨hcovers.distinct.not_mem_erase,
    hcovers.once.trans (hbodies.append_left start)⟩

theorem walk_visits_reached_bodies_once (hvalid : p.validate = .ok ())
    (isSealed : FuncId → Bool) {start : List Instruction}
    (hinRange : ∀ instruction ∈ start, p.HasInstruction instruction) :
    ∃ (visited : List Instruction) (entered : List FuncId), p.walk isSealed
          start = .ok visited ∧
      (∀ (σ : Type) (visit : σ → Instruction → σ) (state : σ), p.inspect
          isSealed
          (fun state instruction => .ok (visit state instruction, true)) state
          start = .ok (visited.foldl visit state)) ∧
      p.Covers isSealed start visited entered ∧
      ∀ f, p.instructions f = .ok start → p.Reach isSealed start f →
        f ∉ entered.erase f ∧
          visited.Perm
            (start ++ (start ++ (entered.erase f).flatMap p.bodyOf)) := by
  have hwf := validate_eq_ok_iff.1 hvalid
  obtain ⟨visited, entered, hwalked⟩ :=
    hwf.walked isSealed [] [start] (by simpa using hinRange)
  refine ⟨visited, entered, hwalked.walk_eq, ?_, hwalked.covers,
    fun f => hwalked.covers.twice⟩
  intro σ visit state
  rw [inspect, hwalked.inspectFrom_eq, visitAll_total]

/-- A function that calls itself and starts another through a closure. The other
one defers calls of the first and of a third. -/
def relay : Package where
  path := "example.com/p"
  types := #[.signature [] [] false, .tuple []]
  values := #[
    ⟨.function ⟨0⟩, ⟨0⟩, .unknown, none, none⟩,
    ⟨.function ⟨1⟩, ⟨0⟩, .unknown, none, none⟩,
    ⟨.function ⟨2⟩, ⟨0⟩, .unknown, none, none⟩,
    ⟨.call ⟨⟨0⟩, none, []⟩, ⟨1⟩, .unknown, some ⟨0⟩, none⟩,
    ⟨.makeClosure ⟨1⟩ [], ⟨0⟩, .unknown, some ⟨0⟩, none⟩]
  functions := #[
    { name := "f"
      package := some "example.com/p"
      receiver := none
      signature := ⟨0⟩
      params := []
      blocks :=
        some [⟨[.define ⟨3⟩, .define ⟨4⟩, .go ⟨⟨4⟩, none, []⟩ .unknown,
          .ret [] .unknown]⟩]
      pos := .unknown, doc := none },
    { name := "g"
      package := some "example.com/p"
      receiver := none
      signature := ⟨0⟩
      params := []
      blocks :=
        some [⟨[.defer ⟨⟨0⟩, none, []⟩ .unknown,
          .defer ⟨⟨2⟩, none, []⟩ .unknown, .ret [] .unknown]⟩]
      pos := .unknown, doc := none },
    { name := "h"
      package := some "example.com/p"
      receiver := none
      signature := ⟨0⟩
      params := []
      blocks := some [⟨[.ret [] .unknown]⟩], pos := .unknown, doc := none }]

theorem relay_walk_visits_reached_bodies_once :
    relay.validate = .ok () ∧
      (∀ instruction ∈ relay.bodyOf ⟨0⟩, relay.HasInstruction instruction) ∧
      relay.instructions ⟨0⟩ = .ok (relay.bodyOf ⟨0⟩) ∧
      relay.Reach (· == ⟨2⟩) (relay.bodyOf ⟨0⟩) ⟨0⟩ ∧
      ∃ (visited : List Instruction) (entered : List FuncId), relay.walk
            (· == ⟨2⟩) (relay.bodyOf ⟨0⟩) = .ok visited ∧
        (∀ (σ : Type) (visit : σ → Instruction → σ) (state : σ), relay.inspect
            (· == ⟨2⟩)
            (fun state instruction => .ok (visit state instruction, true)) state
            (relay.bodyOf ⟨0⟩) = .ok (visited.foldl visit state)) ∧
        relay.Covers (· == ⟨2⟩) (relay.bodyOf ⟨0⟩) visited entered ∧
        ∀ f, relay.instructions f = .ok (relay.bodyOf ⟨0⟩) →
          relay.Reach (· == ⟨2⟩) (relay.bodyOf ⟨0⟩) f →
          f ∉ entered.erase f ∧
            visited.Perm (relay.bodyOf ⟨0⟩ ++
              (relay.bodyOf ⟨0⟩ ++ (entered.erase f).flatMap relay.bodyOf)) :=
  ⟨by decide, by decide, by decide,
    .start (List.mem_cons_self ..) (.call rfl (.function rfl rfl)) rfl,
    walk_visits_reached_bodies_once (by decide) _ (by decide)⟩

end SchemaLint.Package
