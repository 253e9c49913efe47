import SchemaLint.Program.Walk
import SchemaLint.Proofs.Queries.Calls

/-!
# Runs of the walk

What a walk visits does not depend on who visits it: `Walked` relates the stack
of a walk to the instructions still visited and to the functions gone into in
the end, and every visitor is run over these instructions in order until it
declines.
-/

namespace SchemaLint.Package

variable {p : Package} {isSealed : FuncId → Bool}

/-- `Walked p isSealed entered stack visited final`: a walk that has gone into
`entered` and has `stack` before it visits `visited`, and ends when it has gone
into `final`. -/
inductive Walked (p : Package) (isSealed : FuncId → Bool) :
    List FuncId → List (List Instruction) → List Instruction → List FuncId →
      Prop
  | done {entered} : Walked p isSealed entered [] [] entered
  | leave {entered stack visited final} :
    Walked p isSealed entered stack visited final →
    Walked p isSealed entered ([] :: stack) visited final
  | pass {entered instruction rest stack callee visited final} :
    p.callee? instruction = .ok callee →
    (∀ f ∈ callee, isSealed f = true ∨ f ∈ entered) →
      Walked p isSealed entered (rest :: stack) visited final →
      Walked p isSealed entered ((instruction :: rest) :: stack)
        (instruction :: visited) final
  | enter {entered instruction rest stack callee body visited final} :
    p.callee? instruction = .ok (some callee) → isSealed callee = false →
    callee ∉ entered →
      p.instructions callee = .ok body →
      Walked p isSealed (callee :: entered) (body :: rest :: stack) visited
        final →
      Walked p isSealed entered ((instruction :: rest) :: stack)
        (instruction :: visited) final

/-! ## Visitors -/

def visitAll (visit : σ → Instruction → Access (σ × Bool)) :
    σ → List Instruction → Access σ
  | state, [] => .ok state
  | state, instruction :: rest => do
    let (state, more) ← visit state instruction
    if more then visitAll visit state rest else return state

theorem visitAll_total (visit : σ → Instruction → σ) (state : σ)
    (list : List Instruction) :
    visitAll (fun state instruction => .ok (visit state instruction, true))
        state list = .ok (list.foldl visit state) := by
  induction list generalizing state with
  | nil => rfl
  | cons instruction rest ih => exact ih (visit state instruction)

theorem visitAll_faultless {visit : σ → Instruction → Access (σ × Bool)}
    {inv : σ → Prop} {state : σ} {list : List Instruction} (hstart : inv state)
    (hstep : ∀ state, inv state →
        ∀ i ∈ list, Faultless (visit state i) fun answer => inv answer.1) :
    Faultless (visitAll visit state list) inv := by
  induction list generalizing state with
  | nil => exact .pure hstart
  | cons i rest ih =>
      refine (hstep state hstart i List.mem_cons_self).bind ?_
      rintro ⟨state, _ | _⟩ hholds
      · exact .pure hholds
      · exact ih hholds fun state hholds i hmember =>
          hstep state hholds i (List.mem_cons_of_mem _ hmember)

theorem visitAll_eq_error {visit : σ → Instruction → Access (σ × Bool)}
    {state : σ} {list : List Instruction} {fault : Outside}
    (hfailed : visitAll visit state list = .error fault) :
    ∃ state, ∃ i ∈ list, visit state i = .error fault := by
  induction list generalizing state with
  | nil => cases hfailed
  | cons i rest ih =>
      cases hanswer : visit state i with
      | error other =>
          rw [visitAll, hanswer] at hfailed
          cases hfailed
          exact ⟨state, i, List.mem_cons_self, hanswer⟩
      | ok result =>
          obtain ⟨state, _ | _⟩ := result
          · rw [visitAll, hanswer] at hfailed
            cases hfailed
          · rw [visitAll, hanswer] at hfailed
            obtain ⟨state, j, hmember, hsame⟩ := ih hfailed
            exact ⟨state, j, List.mem_cons_of_mem _ hmember, hsame⟩

theorem inspectFrom_cons (visit : σ → Instruction → Access (σ × Bool))
    (state : σ) (entered : List FuncId) (instruction : Instruction)
    (rest : List Instruction) (stack : List (List Instruction)) :
    p.inspectFrom isSealed visit state entered
        ((instruction :: rest) :: stack) = (do
      let (state, more) ← visit state instruction
      if more then
        match ← p.callee? instruction with
        | none => p.inspectFrom isSealed visit state entered (rest :: stack)
        | some callee =>
          if isSealed callee = true ∨ callee ∈ entered then
            p.inspectFrom isSealed visit state entered (rest :: stack)
          else
            let body ← p.instructions callee
            p.inspectFrom isSealed visit state (callee :: entered)
              (body :: rest :: stack)
      else return state) := by
  rw [inspectFrom]
  cases visit state instruction with
  | error fault => rfl
  | ok answer =>
      obtain ⟨state, _ | _⟩ := answer
      · rfl
      · cases p.callee? instruction with
        | error fault => rfl
        | ok callee =>
            cases callee with
            | none => rfl
            | some callee =>
                simp only [Bool.or_eq_true, List.contains_iff_mem,
                  Access.ok_bind, ↓reduceIte]
                split
                · rfl
                · unfold instructions
                  split
                  · next hfound => rw [hfound]; rfl
                  · next hfound => rw [hfound]; rfl

theorem Walked.inspectFrom_eq {entered : List FuncId}
    {stack : List (List Instruction)} {visited : List Instruction}
    {final : List FuncId}
    (hwalked : p.Walked isSealed entered stack visited final)
    (visit : σ → Instruction → Access (σ × Bool)) (state : σ) :
    p.inspectFrom isSealed visit state entered stack =
      visitAll visit state visited := by
  induction hwalked generalizing state with
  | done => rw [inspectFrom, visitAll]
  | leave _ ih => rw [inspectFrom, ih]
  | @pass entered instruction rest stack callee visited final hresolved hknown _
      ih =>
      rw [inspectFrom_cons, visitAll]
      congr 1
      funext answer
      cases callee with
      | none => simp [hresolved, ih]
      | some callee => simp [hresolved, hknown callee rfl, ih]
  | enter hresolved hunsealed hfresh hfound _ ih =>
      rw [inspectFrom_cons, visitAll]
      congr 1
      funext answer
      simp [hresolved, hunsealed, hfresh, hfound, ih]

/-! ## Walks on well-formed packages -/

/-- Going into the body of a called function keeps what is ahead inside the
tables. -/
theorem WellFormed.body_ahead (hwf : p.WellFormed) {instruction : Instruction}
    {rest body : List Instruction} {stack : List (List Instruction)}
    {callee : FuncId}
    (hahead :
      ∀ i ∈ ((instruction :: rest) :: stack).flatten, p.HasInstruction i)
    (hresolved : p.callee? instruction = .ok (some callee))
    (hfound : p.instructions callee = .ok body) :
    ∀ i ∈ (body :: rest :: stack).flatten, p.HasInstruction i := by
  have hcalled : p.HasFunc callee :=
    (hwf.callee? (hahead instruction List.mem_cons_self)).of_ok hresolved callee
      rfl
  have hinBody := (hwf.instructions hcalled).of_ok hfound
  exact List.forall_mem_append.2
    ⟨hinBody, fun i hmember => hahead i (List.mem_cons_of_mem _ hmember)⟩

theorem WellFormed.walked (hwf : p.WellFormed) (isSealed : FuncId → Bool)
    (entered : List FuncId) (stack : List (List Instruction))
    (hahead : ∀ i ∈ stack.flatten, p.HasInstruction i) :
    ∃ visited final, p.Walked isSealed entered stack visited final := by
  -- The recursion of the walk itself, run by a visitor that never declines so
  -- that only its own cases are left.
  fun_induction Package.inspectFrom p isSealed
      (fun (state : Unit) _ => .ok (state, true)) () entered stack with
  | case1 => exact ⟨[], _, .done⟩
  | case2 _ entered stack ih =>
      obtain ⟨visited, final, hwalked⟩ := ih hahead
      exact ⟨visited, final, .leave hwalked⟩
  | case3 _ _ _ _ _ _ hdeclined | case4 _ _ _ _ _ _ hdeclined => cases hdeclined
  | case5 _ entered instruction rest stack _ _ fault hfailed =>
      exact absurd hfailed
        ((hwf.callee? (hahead instruction List.mem_cons_self)).ne_error fault)
  | case6 _ entered instruction rest stack _ _ hresolved ih =>
      obtain ⟨visited, final, hwalked⟩ :=
        ih fun i hmember => hahead i (List.mem_cons_of_mem _ hmember)
      exact ⟨_, final, .pass hresolved nofun hwalked⟩
  | case7 _ entered instruction rest stack _ _ callee hresolved hknown ih =>
      obtain ⟨visited, final, hwalked⟩ :=
        ih fun i hmember => hahead i (List.mem_cons_of_mem _ hmember)
      refine ⟨_, final, .pass hresolved ?_ hwalked⟩
      rintro _ ⟨⟩
      simpa using hknown
  | case8 _ entered instruction rest stack _ _ callee hresolved hunknown fault
      hfailed =>
      have hcalled :=
        (hwf.callee? (hahead instruction List.mem_cons_self)).of_ok hresolved
          callee rfl
      exact absurd hfailed ((hwf.funcAt hcalled).ne_error fault)
  | case9 _ entered instruction rest stack _ _ callee hresolved hunknown f
      hfound _ _ ih =>
      have hbody : p.instructions callee = .ok f.instructions := by
        simp [Package.instructions, hfound]
      obtain ⟨visited, final, hwalked⟩ :=
        ih (hwf.body_ahead hahead hresolved hbody)
      have ⟨hunsealed, hfresh⟩ :
          isSealed callee = false ∧ callee ∉ entered := by simpa using hunknown
      exact ⟨_, final, .enter hresolved hunsealed hfresh hbody hwalked⟩

section

variable {entered final : List FuncId} {stack : List (List Instruction)}
  {visited : List Instruction}

theorem Walked.inside (hwf : p.WellFormed)
    (hwalked : p.Walked isSealed entered stack visited final)
    (hahead : ∀ i ∈ stack.flatten, p.HasInstruction i) :
    ∀ i ∈ visited, p.HasInstruction i := by
  induction hwalked with
  | done => simp
  | leave _ ih => exact ih hahead
  | pass _ _ _ ih =>
      refine List.forall_mem_cons.2 ⟨hahead _ List.mem_cons_self, ih ?_⟩
      exact fun i hmember => hahead i (List.mem_cons_of_mem _ hmember)
  | enter hresolved _ _ hfound _ ih =>
      exact List.forall_mem_cons.2 ⟨hahead _ List.mem_cons_self,
        ih (hwf.body_ahead hahead hresolved hfound)⟩

theorem WellFormed.inspect_eq_visitAll (hwf : p.WellFormed)
    (isSealed : FuncId → Bool) {start : List Instruction}
    (hinRange : ∀ i ∈ start, p.HasInstruction i) :
    ∃ visited, (∀ i ∈ visited, p.HasInstruction i) ∧
      ∀ {σ : Type} (visit : σ → Instruction → Access (σ × Bool)) (state : σ),
        p.inspect isSealed visit state start =
        visitAll visit state visited := by
  have hahead : ∀ i ∈ [start].flatten, p.HasInstruction i := by
    simpa using hinRange
  obtain ⟨visited, final, hwalked⟩ := hwf.walked isSealed [] [start] hahead
  exact ⟨visited, hwalked.inside hwf hahead,
    fun visit state => hwalked.inspectFrom_eq visit state⟩

theorem Walked.of_sealed_eq (hwf : p.WellFormed) {other : FuncId → Bool}
    (hsame : ∀ f, p.HasFunc f → isSealed f = other f)
    (hwalked : p.Walked isSealed entered stack visited final)
    (hahead : ∀ i ∈ stack.flatten, p.HasInstruction i) :
    p.Walked other entered stack visited final := by
  induction hwalked with
  | done => exact .done
  | leave _ ih => exact .leave (ih hahead)
  | pass hresolved hknown _ ih =>
      refine .pass hresolved (fun f hcalled => ?_)
        (ih fun i hmember => hahead i (List.mem_cons_of_mem _ hmember))
      rw [← hsame f
        ((hwf.callee? (hahead _ List.mem_cons_self)).of_ok hresolved f hcalled)]
      exact hknown f hcalled
  | enter hresolved hunsealed hfresh hfound _ ih =>
      refine .enter hresolved ?_ hfresh hfound
        (ih (hwf.body_ahead hahead hresolved hfound))
      rw [← hsame _
        ((hwf.callee? (hahead _ List.mem_cons_self)).of_ok hresolved _ rfl)]
      exact hunsealed

theorem WellFormed.inspect_sealed_eq (hwf : p.WellFormed)
    {other : FuncId → Bool} (hsame : ∀ f, p.HasFunc f → isSealed f = other f)
    {start : List Instruction} (hinRange : ∀ i ∈ start, p.HasInstruction i)
    (visit : σ → Instruction → Access (σ × Bool)) (state : σ) :
    p.inspect isSealed visit state start =
      p.inspect other visit state start := by
  have hahead : ∀ i ∈ [start].flatten, p.HasInstruction i := by
    simpa using hinRange
  obtain ⟨visited, final, hwalked⟩ := hwf.walked isSealed [] [start] hahead
  rw [inspect, inspect, hwalked.inspectFrom_eq,
    (hwalked.of_sealed_eq hwf hsame hahead).inspectFrom_eq]

end

end SchemaLint.Package
