import SchemaLint.Proofs.Walk.Reach

/-!
# Walks as splices

A walk keeps the bodies that it has to come back to on a stack. `splice` says by
recursion what it visits: each instruction and, right after one that is known to
call a function not gone into yet, the whole body of that function. A visitor
that declines cuts the sequence short and changes nothing else about it.
-/

namespace SchemaLint

private theorem unvisited_le_of_subset {bound : Nat} {seen later : List Nat}
    (hkept : seen ⊆ later) : unvisited bound later ≤ unvisited bound seen := by
  refine (List.monotone_filter_right (List.range bound)
    fun n hfresh => ?_).length_le
  have hunseen : n ∉ later := by simpa using hfresh
  simpa using fun hmember => hunseen (hkept hmember)

namespace Package

variable {p : Package} {isSealed : FuncId → Bool}

private theorem remaining_le_of_subset {entered later : List FuncId}
    (hkept : entered ⊆ later) (stack : List (List Instruction)) :
    p.remaining later stack ≤ p.remaining entered stack := by
  have hfewer : p.unentered later ≤ p.unentered entered :=
    unvisited_le_of_subset (List.map_subset _ hkept)
  exact Nat.add_le_add_right (Nat.mul_le_mul_right _ hfewer) _

/-! ## Splicing -/

/-- The function that an instruction is known to call, if it is not sealed and
was not gone into. -/
def newCallee? (p : Package) (isSealed : FuncId → Bool) (entered : List FuncId)
    (instruction : Instruction) : Access (Option FuncId) := do
  return (← p.callee? instruction).filter fun callee =>
    !isSealed callee && !entered.contains callee

theorem newCallee?_eq_some_iff {entered : List FuncId}
    {instruction : Instruction} {callee : FuncId} :
    p.newCallee? isSealed entered instruction = .ok (some callee) ↔
      p.callee? instruction = .ok (some callee) ∧ isSealed callee = false ∧
        callee ∉ entered := by
  rw [newCallee?, Access.bind_eq_ok_iff]
  simp only [Access.pure_eq, Except.ok.injEq, Option.filter_eq_some_iff]
  constructor
  · rintro ⟨_, hresolved, rfl, hnew⟩
    exact ⟨hresolved, by simpa using hnew⟩
  · rintro ⟨hresolved, hnew⟩
    exact ⟨_, hresolved, rfl, by simpa using hnew⟩

theorem newCallee?_eq_none_iff {entered : List FuncId}
    {instruction : Instruction} :
    p.newCallee? isSealed entered instruction = .ok none ↔
      ∃ callee, p.callee? instruction = .ok callee ∧
        ∀ f ∈ callee, isSealed f = true ∨ f ∈ entered := by
  rw [newCallee?, Access.bind_eq_ok_iff]
  refine exists_congr fun callee => and_congr_right fun _ => ?_
  simp only [Access.pure_eq, Except.ok.injEq, Option.filter_eq_none_iff]
  refine forall₂_congr fun f _ => ?_
  cases isSealed f <;> simp

theorem newCallee?_fresh {entered : List FuncId} {instruction : Instruction}
    {callee : FuncId}
    (hnew : p.newCallee? isSealed entered instruction = .ok (some callee)) :
    entered.contains callee = false := by
  simpa using (newCallee?_eq_some_iff.1 hnew).2.2

theorem WellFormed.newCallee? (hwf : p.WellFormed) (isSealed : FuncId → Bool)
    (entered : List FuncId) {instruction : Instruction}
    (hhas : p.HasInstruction instruction) :
    Faultless (p.newCallee? isSealed entered instruction) fun found =>
      ∀ callee ∈ found, p.HasFunc callee := by
  refine (hwf.callee? hhas).bind fun found hknown => .pure fun callee hnew => ?_
  exact hknown callee (Option.filter_eq_some_iff.1 hnew).1

/-- What is visited after some functions have been gone into, and all that have
been in the end. -/
structure Spliced (before : List FuncId) where
  visited : List Instruction
  entered : List FuncId
  kept : before ⊆ entered

/-- The instructions, each with the body of the function it is the first to call
spliced in behind it. The functions gone into inside a body count for all that
comes after it. -/
def splice (p : Package) (isSealed : FuncId → Bool) (entered : List FuncId)
    (instructions : List Instruction) : Access (Spliced entered) :=
  match instructions with
  | [] => .ok ⟨[], entered, List.Subset.refl entered⟩
  | instruction :: rest =>
    match hnew : p.newCallee? isSealed entered instruction with
    | .error outside => .error outside
    | .ok none => do
      let after ← p.splice isSealed entered rest
      return ⟨instruction :: after.visited, after.entered, after.kept⟩
    | .ok (some callee) =>
      match hfound : p.funcAt callee with
      | .error outside => .error outside
      | .ok f => do
        have :=
          remaining_enter_lt hfound (newCallee?_fresh hnew) instruction rest []
        let inner ← p.splice isSealed (callee :: entered) f.instructions
        let after ← p.splice isSealed inner.entered rest
        return ⟨instruction :: (inner.visited ++ after.visited), after.entered,
          fun _ hmember =>
            after.kept (inner.kept (List.mem_cons_of_mem callee hmember))⟩
termination_by p.remaining entered [instructions]
decreasing_by
  · simp [remaining, pending]
  · simp only [remaining, pending] at this ⊢
    omega
  · have hlater := remaining_le_of_subset (p := p) inner.kept [rest]
    simp only [remaining, pending] at this hlater ⊢
    omega

/-- A stack with a list of instructions on top is walked as the splice of the
list, and then as the rest of the stack with all functions gone into that the
splice goes into. -/
theorem walked_of_splice {entered : List FuncId}
    {instructions : List Instruction} {result : Spliced entered}
    (hspliced : p.splice isSealed entered instructions = .ok result)
    {stack : List (List Instruction)} {visited : List Instruction}
    {final : List FuncId}
    (hbelow : p.Walked isSealed result.entered stack visited final) :
    p.Walked isSealed entered (instructions :: stack)
      (result.visited ++ visited) final := by
  fun_induction Package.splice p isSealed entered instructions generalizing
      stack visited with
  | case1 entered =>
      cases hspliced
      exact .leave hbelow
  | case2 | case4 => cases hspliced
  | case3 entered instruction rest hnew ih =>
      obtain ⟨after, hofRest, hsame⟩ := Access.bind_eq_ok_iff.1 hspliced
      cases hsame
      obtain ⟨callee, hresolved, hknown⟩ := newCallee?_eq_none_iff.1 hnew
      exact .pass hresolved hknown (ih hofRest hbelow)
  | case5 entered instruction rest callee hnew f hfound _ ihInner ihRest =>
      obtain ⟨inner, hofBody, hspliced⟩ := Access.bind_eq_ok_iff.1 hspliced
      obtain ⟨after, hofRest, hsame⟩ := Access.bind_eq_ok_iff.1 hspliced
      cases hsame
      obtain ⟨hresolved, hunsealed, hfresh⟩ := newCallee?_eq_some_iff.1 hnew
      have hbody : p.instructions callee = .ok f.instructions := by
        simp [Package.instructions, hfound]
      -- The body is walked with the rest of the caller below it on the stack.
      have hwalked := ihInner hofBody (ihRest inner hofRest hbelow)
      rw [List.cons_append, List.append_assoc]
      exact .enter hresolved hunsealed hfresh hbody hwalked

theorem WellFormed.splice (hwf : p.WellFormed) (isSealed : FuncId → Bool)
    (entered : List FuncId) {instructions : List Instruction}
    (hinRange : ∀ i ∈ instructions, p.HasInstruction i) :
    ∃ result, p.splice isSealed entered instructions = .ok result := by
  fun_induction Package.splice p isSealed entered instructions with
  | case1 entered => exact ⟨_, rfl⟩
  | case2 entered instruction rest fault hfailed =>
      have hknown :=
        hwf.newCallee? isSealed entered
          (hinRange instruction List.mem_cons_self)
      exact absurd hfailed (hknown.ne_error fault)
  | case3 entered instruction rest hnew ih =>
      obtain ⟨after, hofRest⟩ :=
        ih fun i hmember => hinRange i (List.mem_cons_of_mem _ hmember)
      exact ⟨_, by rw [hofRest, Access.ok_bind, Access.pure_eq]⟩
  | case4 entered instruction rest callee hnew fault hfailed =>
      have hcalled :=
        (hwf.newCallee? isSealed entered
          (hinRange instruction List.mem_cons_self)).of_ok hnew callee rfl
      exact absurd hfailed ((hwf.funcAt hcalled).ne_error fault)
  | case5 entered instruction rest callee hnew f hfound _ ihInner ihRest =>
      have hcalled :=
        (hwf.newCallee? isSealed entered
          (hinRange instruction List.mem_cons_self)).of_ok hnew callee rfl
      obtain ⟨inner, hofBody⟩ :=
        ihInner ((hwf.funcAt hcalled).of_ok hfound).instructions
      obtain ⟨after, hofRest⟩ :=
        ihRest inner fun i hmember =>
          hinRange i (List.mem_cons_of_mem _ hmember)
      rw [hofBody, Access.ok_bind, hofRest, Access.ok_bind, Access.pure_eq]
      exact ⟨_, rfl⟩

/-! ## Visitors that decline -/

section

variable {σ : Type}

def answers (visit : σ → Instruction → σ × Bool) :
    σ → List Instruction → List Bool
  | _, [] => []
  | state, instruction :: rest =>
    (visit state instruction).2 ::
      answers visit (visit state instruction).1 rest

/-- The instructions up to the first that the visitor declines, with that one,
or all if it declines none. -/
def untilDeclined (visit : σ → Instruction → σ × Bool) (state : σ)
    (list : List Instruction) : List Instruction :=
  list.take ((answers visit state list).findIdx (· == false) + 1)

/-- The visitor, with a list of what it is shown. -/
def recording (visit : σ → Instruction → σ × Bool) (seen : List Instruction × σ)
    (instruction : Instruction) : Access ((List Instruction × σ) × Bool) :=
  .ok ((seen.1 ++ [instruction], (visit seen.2 instruction).1),
    (visit seen.2 instruction).2)

private theorem visitAll_recording (visit : σ → Instruction → σ × Bool)
    (seen : List Instruction) (state : σ) (list : List Instruction) :
    visitAll (recording visit) (seen, state) list =
      .ok (seen ++ untilDeclined visit state list, (untilDeclined visit state
          list).foldl (fun state i => (visit state i).1) state) := by
  induction list generalizing seen state with
  | nil => simp [visitAll, untilDeclined]
  | cons instruction rest ih =>
      rw [visitAll, recording, Access.ok_bind]
      cases hmore : (visit state instruction).2 with
      | false => simp [untilDeclined, answers, hmore, List.findIdx_cons]
      | true => simp [ih, untilDeclined, answers, hmore, List.findIdx_cons]

end

/-- A walk visits the splice of its start, and a visitor that may decline is
shown the splice up to the first instruction that it declines. -/
theorem walk_visits_splice_until_declined (hvalid : p.validate = .ok ())
    (isSealed : FuncId → Bool) {start : List Instruction}
    (hinRange : ∀ instruction ∈ start, p.HasInstruction instruction) :
    ∃ whole, p.splice isSealed [] start = .ok whole ∧
      p.walk isSealed start = .ok whole.visited ∧
      ∀ (σ : Type) (visit : σ → Instruction → σ × Bool) (state : σ), p.inspect
          isSealed (recording visit) ([], state) start =
        .ok (untilDeclined visit state whole.visited,
          (untilDeclined visit state whole.visited).foldl
            (fun state i => (visit state i).1) state) := by
  have hwf := validate_eq_ok_iff.1 hvalid
  obtain ⟨whole, hspliced⟩ := hwf.splice isSealed [] hinRange
  have hwalked : p.Walked isSealed [] [start] whole.visited whole.entered := by
    simpa using walked_of_splice hspliced .done
  refine ⟨whole, hspliced, hwalked.walk_eq, fun σ visit state => ?_⟩
  rw [inspect, hwalked.inspectFrom_eq, visitAll_recording, List.nil_append]

/-- The start calls itself, so its body comes once more, and the closure is gone
into from there. -/
example :
  (relay.splice (· == ⟨2⟩) [] (relay.bodyOf ⟨0⟩)).toOption.map Spliced.visited =
    some
    [.define ⟨3⟩, .define ⟨3⟩, .define ⟨4⟩, .go ⟨⟨4⟩, none, []⟩ .unknown,
        .defer ⟨⟨0⟩, none, []⟩ .unknown, .defer ⟨⟨2⟩, none, []⟩ .unknown,
        .ret [] .unknown, .ret [] .unknown, .define ⟨4⟩,
        .go ⟨⟨4⟩, none, []⟩ .unknown, .ret [] .unknown] := by
  decide +kernel

theorem relay_walk_visits_splice_until_declined :
    relay.validate = .ok () ∧
      (∀ instruction ∈ relay.bodyOf ⟨0⟩, relay.HasInstruction instruction) ∧
      ∃ whole, relay.splice (· == ⟨2⟩) [] (relay.bodyOf ⟨0⟩) = .ok whole ∧
        relay.walk (· == ⟨2⟩) (relay.bodyOf ⟨0⟩) = .ok whole.visited ∧
        ∀ (σ : Type) (visit : σ → Instruction → σ × Bool) (state : σ),
          relay.inspect (· == ⟨2⟩) (recording visit) ([], state)
            (relay.bodyOf ⟨0⟩) =
          .ok (untilDeclined visit state whole.visited,
            (untilDeclined visit state whole.visited).foldl
              (fun state i => (visit state i).1) state) :=
  ⟨by decide, by decide,
    walk_visits_splice_until_declined (by decide) _ (by decide)⟩

end Package

end SchemaLint
