import SchemaLint.Fixture.Lowering
import SchemaLint.Proofs.Positions

/-!
# Successful runs

Packages are built and fixtures lowered in several monads: with or without a
cursor, with or without lines, and with errors of fixtures or not. A run that
succeeds is the same in all of them: it goes from one site to another and has a
result. What is built before an error does not count.
-/

namespace SchemaLint

structure Site where
  lines : Lines
  cursor : Cursor
  builder : Builder

class Building (m : Type → Type) [Monad m] where
  run : m α → Site → Option (α × Site)
  run_pure (a : α) (s : Site) : run (pure a) s = some (a, s)
  run_bind (x : m α) (f : α → m β) (s : Site) :
    run (x >>= f) s = (run x s).bind fun (a, s') => run (f a) s'

namespace Building

instance : Building Build where
  run x s :=
    match x s.builder with
    | .ok (a, builder) => some (a, { s with builder })
    | .error _ => none
  run_pure _ _ := rfl
  run_bind x f s := by
    simp only [bind, StateT.bind]
    cases x s.builder <;> rfl

instance : Building Body where
  run x s :=
    match x s.cursor s.builder with
    | .ok ((a, cursor), builder) => some (a, { s with cursor, builder })
    | .error _ => none
  run_pure _ _ := rfl
  run_bind x f s := by
    simp only [bind, StateT.bind]
    cases x s.cursor s.builder <;> rfl

instance : Building (ExceptT FixtureError Build) where
  run x s :=
    match x s.builder with
    | .ok (.ok a, builder) => some (a, { s with builder })
    | _ => none
  run_pure _ _ := rfl
  run_bind x f s := by
    simp only [bind, ExceptT.bind, ExceptT.mk, StateT.bind]
    rcases x s.builder with _ | ⟨_ | a, builder⟩ <;> rfl

instance : Building (ExceptT FixtureError Body) where
  run x s :=
    match x s.cursor s.builder with
    | .ok ((.ok a, cursor), builder) => some (a, { s with cursor, builder })
    | _ => none
  run_pure _ _ := rfl
  run_bind x f s := by
    simp only [bind, ExceptT.bind, ExceptT.mk, StateT.bind]
    rcases x s.cursor s.builder with _ | ⟨⟨_ | a, cursor⟩, builder⟩ <;> rfl

instance : Building Lower where
  run x s :=
    match x s.lines s.cursor s.builder with
    | .ok (((.ok a, lines), cursor), builder) =>
      some (a, { lines, cursor, builder })
    | _ => none
  run_pure _ _ := rfl
  run_bind x f s := by
    simp only [bind, ExceptT.bind, ExceptT.mk, StateT.bind]
    rcases x s.lines s.cursor s.builder with _ |
      ⟨⟨⟨_ | a, lines⟩, cursor⟩, builder⟩ <;>
      rfl

instance : Building LowerPackage where
  run x s :=
    match x s.lines s.builder with
    | .ok ((.ok a, lines), builder) => some (a, { s with lines, builder })
    | _ => none
  run_pure _ _ := rfl
  run_bind x f s := by
    simp only [bind, ExceptT.bind, ExceptT.mk, StateT.bind]
    rcases x s.lines s.builder with _ | ⟨⟨_ | a, lines⟩, builder⟩ <;> rfl

end Building

section

variable {m : Type → Type} [Monad m] [Building m]

def Runs (x : m α) (s : Site) (a : α) (s' : Site) : Prop :=
  Building.run x s = some (a, s')

theorem runs_pure {a b : α} {s s' : Site} :
    Runs (pure a : m α) s b s' ↔ b = a ∧ s' = s := by
  rw [Runs, Building.run_pure]
  simp [eq_comm]

theorem runs_bind {x : m α} {f : α → m β} {s s'' : Site} {b : β} :
    Runs (x >>= f) s b s'' ↔ ∃ a s', Runs x s a s' ∧ Runs (f a) s' b s'' := by
  simp only [Runs, Building.run_bind, Option.bind_eq_some_iff, Prod.exists]

private theorem runs_map [LawfulMonad m] {x : m α} {f : α → β} {s s' : Site}
    {b : β} : Runs (f <$> x) s b s' ↔ ∃ a, Runs x s a s' ∧ b = f a := by
  rw [← bind_pure_comp, runs_bind]
  simp only [runs_pure]
  constructor
  · rintro ⟨a, _, hran, rfl, rfl⟩
    exact ⟨a, hran, rfl⟩
  · rintro ⟨a, hran, rfl⟩
    exact ⟨a, s', hran, rfl, rfl⟩

theorem runs_discard [LawfulMonad m] {x : m α} {s s' : Site} {u : PUnit} :
    Runs (discard x) s u s' ↔ ∃ a, Runs x s a s' := by
  have hmapped : discard x = (fun _ => PUnit.unit) <$> x := by
    rw [Functor.discard, map_const]
    rfl
  rw [hmapped, runs_map]
  simp

theorem runs_mapM_cons [LawfulMonad m] {f : α → m β} {a : α} {rest : List α}
    {list : List β} {s s'' : Site} :
    Runs ((a :: rest).mapM f) s list s'' ↔ ∃ b others s', Runs (f a) s b s' ∧
        Runs (rest.mapM f) s' others s'' ∧ list = b :: others := by
  simp only [List.mapM_cons, runs_bind, runs_pure]
  constructor
  · rintro ⟨b, s', hfirst, others, _, hmore, rfl, rfl⟩
    exact ⟨b, others, s', hfirst, hmore, rfl⟩
  · rintro ⟨b, others, s', hfirst, hmore, rfl⟩
    exact ⟨b, s', hfirst, others, s'', hmore, rfl, rfl⟩

end

/-! ## Lifting -/

class LiftsRuns (m n : Type → Type) [Monad m] [Monad n] [Building m]
    [Building n] [MonadLiftT m n] : Prop where
  runs_lift {x : m α} {s s' : Site} {a : α} :
    Runs (liftM x : n α) s a s' ↔ Runs x s a s'

export LiftsRuns (runs_lift)

instance {m : Type → Type} [Monad m] [Building m] : LiftsRuns m m where
  runs_lift := Iff.rfl

instance : LiftsRuns Build Body where
  runs_lift {_ x s _ _} := by
    simp only [Runs, Building.run, liftM, monadLift, MonadLift.monadLift,
      StateT.lift, bind, StateT.bind]
    cases x s.builder <;> rfl

instance : LiftsRuns Build Lower where
  runs_lift {_ x s _ _} := by
    simp only [Runs, Building.run, liftM, monadLift, MonadLift.monadLift,
      ExceptT.lift, ExceptT.mk, StateT.lift, bind, StateT.bind, Functor.map,
      StateT.map]
    cases x s.builder <;> rfl

instance : LiftsRuns Body Lower where
  runs_lift {_ x s _ _} := by
    simp only [Runs, Building.run, liftM, monadLift, MonadLift.monadLift,
      ExceptT.lift, ExceptT.mk, StateT.lift, bind, StateT.bind, Functor.map,
      StateT.map]
    cases x s.cursor s.builder <;> rfl

instance : LiftsRuns Build LowerPackage where
  runs_lift {_ x s _ _} := by
    simp only [Runs, Building.run, liftM, monadLift, MonadLift.monadLift,
      ExceptT.lift, ExceptT.mk, StateT.lift, bind, StateT.bind, Functor.map,
      StateT.map]
    cases x s.builder <;> rfl

instance : LiftsRuns Build (ExceptT FixtureError Build) where
  runs_lift {_ x s _ _} := by
    simp only [Runs, Building.run, liftM, monadLift, MonadLift.monadLift,
      ExceptT.lift, ExceptT.mk, Functor.map, StateT.map, bind]
    cases x s.builder <;> rfl

instance : LiftsRuns Build (ExceptT FixtureError Body) where
  runs_lift {_ x s _ _} := by
    simp only [Runs, Building.run, liftM, monadLift, MonadLift.monadLift,
      ExceptT.lift, ExceptT.mk, StateT.lift, bind, StateT.bind, Functor.map,
      StateT.map]
    cases x s.builder <;> rfl

instance : LiftsRuns Body (ExceptT FixtureError Body) where
  runs_lift {_ x s _ _} := by
    simp only [Runs, Building.run, liftM, monadLift, MonadLift.monadLift,
      ExceptT.lift, ExceptT.mk, Functor.map, StateT.map, bind, StateT.bind]
    cases x s.cursor s.builder <;> rfl

/-! ## Steps -/

section

variable {s s' : Site}

theorem runs_ask {question : Package → Access α} {a : α} :
    Runs (Build.ask question) s a s' ↔
      question s.builder.package = .ok a ∧ s' = s := by
  simp only [Runs, Building.run, Build.ask, bind, Except.bind]
  cases question s.builder.package with
  | error fault => simp
  | ok b =>
      constructor
      · rintro ⟨⟩
        exact ⟨rfl, rfl⟩
      · rintro ⟨⟨⟩, rfl⟩
        rfl

theorem runs_get_builder {b : Builder} :
    Runs (get : Build Builder) s b s' ↔ b = s.builder ∧ s' = s := by
  constructor
  · rintro ⟨⟩
    exact ⟨rfl, rfl⟩
  · rintro ⟨rfl, rfl⟩
    rfl

theorem runs_get_cursor {c : Cursor} :
    Runs (get : Body Cursor) s c s' ↔ c = s.cursor ∧ s' = s := by
  constructor
  · rintro ⟨⟩
    exact ⟨rfl, rfl⟩
  · rintro ⟨rfl, rfl⟩
    rfl

theorem runs_modify_cursor {change : Cursor → Cursor} {u : PUnit} :
    Runs (modify change : Body PUnit) s u s' ↔
      s' = { s with cursor := change s.cursor } := by
  constructor
  · rintro ⟨⟩
    rfl
  · rintro rfl
    rfl

theorem runs_throw {error : FixtureError} {a : α} :
    ¬Runs (throw error : Lower α) s a s' :=
  nofun

theorem runs_throw_package {error : FixtureError} {a : α} :
    ¬Runs (throw error : LowerPackage α) s a s' :=
  nofun

theorem runs_ofExcept {x : Except FixtureError α} {a : α} :
    Runs (Lower.ofExcept x) s a s' ↔ x = .ok a ∧ s' = s := by
  cases x with
  | error error => simpa [Lower.ofExcept] using runs_throw
  | ok b => rw [Lower.ofExcept, runs_pure, Except.ok.injEq, eq_comm]

theorem runs_ofOption {error : FixtureError} {x : Option α} {a : α} :
    Runs (Lower.ofOption error x) s a s' ↔ x = some a ∧ s' = s := by
  cases x with
  | none => simpa [Lower.ofOption] using runs_throw
  | some b => rw [Lower.ofOption, runs_pure, Option.some.injEq, eq_comm]

def Site.advanced (s : Site) : Site :=
  { s with
    lines := { s.lines with next := s.lines.next + 1 }
    builder := { s.builder with package := { s.builder.package with
      positions :=
        (s.builder.package.positions.add s.lines.file s.lines.next 2).1 } } }

theorem runs_nextPos {pos : Pos} (hran : Runs (nextPos : Lower Pos) s pos s') :
    s' = s.advanced := by
  cases hran
  rfl

theorem runs_nextPos_package {pos : Pos}
    (hran : Runs (nextPos : LowerPackage Pos) s pos s') : s' = s.advanced := by
  cases hran
  rfl

def Site.enter (s : Site) (func : FuncId) (pos : Pos) : Site :=
  { s with cursor := ⟨func, 0, pos⟩ }

theorem body_apply (func : FuncId) (work : Body α) (b : Builder) :
    Build.body func work b =
      match b.package.funcAt func with
      | .error fault => .error fault
      | .ok f =>
        match work ⟨func, 0, f.pos⟩ b with
        | .error fault => .error fault
        | .ok ((a, _), b) => .ok (a, b) := by
  simp only [Build.body, Build.ask, StateT.run', bind, StateT.bind, Functor.map,
    StateT.map, Except.bind, pure]
  cases b.package.funcAt func with
  | error fault => rfl
  | ok f =>
      simp only [Except.pure]
      cases work ⟨func, 0, f.pos⟩ b <;> rfl

theorem runs_body {func : FuncId} {work : Body α} {a : α}
    (hran : Runs (Build.body func work) s a s') :
    ∃ f cursor, s.builder.package.funcAt func = .ok f ∧
      Runs work (s.enter func f.pos) a { s' with cursor } ∧
      s'.cursor = s.cursor := by
  simp only [Runs, Building.run, body_apply] at hran
  cases hfound : s.builder.package.funcAt func with
  | error fault => simp [hfound] at hran
  | ok f =>
      rcases hdone : work ⟨func, 0, f.pos⟩ s.builder with
        _ | ⟨⟨b, cursor⟩, builder⟩
      · simp [hfound, hdone] at hran
      · simp only [hfound, hdone] at hran
        cases hran
        exact ⟨f, cursor, rfl, by simp [Runs, Building.run, Site.enter, hdone],
          rfl⟩

theorem runs_lowerBody {func : FuncId} {work : Lower α} {a : α}
    (hran : Runs (lowerBody func work) s a s') :
    ∃ f cursor, s.builder.package.funcAt func = .ok f ∧
      Runs work (s.enter func f.pos) a { s' with cursor } ∧
      s'.cursor = s.cursor := by
  simp only [Runs, Building.run, lowerBody, ExceptT.mk, body_apply] at hran
  cases hfound : s.builder.package.funcAt func with
  | error fault => simp [hfound] at hran
  | ok f =>
      rcases hdone : work s.lines ⟨func, 0, f.pos⟩ s.builder with
        _ | ⟨⟨⟨_ | b, lines⟩, cursor⟩, builder⟩
      · simp [hfound, hdone, ExceptT.run, StateT.run] at hran
      · simp [hfound, hdone, ExceptT.run, StateT.run] at hran
      · simp only [hfound, hdone, ExceptT.run, StateT.run] at hran
        cases hran
        exact ⟨f, cursor, rfl, by simp [Runs, Building.run, Site.enter, hdone],
          rfl⟩

theorem runs_failingBody {func : FuncId} {work : ExceptT FixtureError Body α}
    {a : α}
    (hran :
      Runs
        (ExceptT.mk (Build.body func work.run) : ExceptT FixtureError Build α) s
        a s') :
    ∃ f cursor, s.builder.package.funcAt func = .ok f ∧
      Runs work (s.enter func f.pos) a { s' with cursor } ∧
      s'.cursor = s.cursor := by
  simp only [Runs, Building.run, ExceptT.mk, body_apply] at hran
  cases hfound : s.builder.package.funcAt func with
  | error fault => simp [hfound] at hran
  | ok f =>
      rcases hdone : work ⟨func, 0, f.pos⟩ s.builder with
        _ | ⟨⟨_ | b, cursor⟩, builder⟩
      · simp [hfound, hdone, ExceptT.run] at hran
      · simp [hfound, hdone, ExceptT.run] at hran
      · simp only [hfound, hdone, ExceptT.run] at hran
        cases hran
        exact ⟨f, cursor, rfl, by simp [Runs, Building.run, Site.enter, hdone],
          rfl⟩

theorem runs_inFile {file : String} {work : LowerPackage α} {a : α}
    (hran : Runs (inFile file work) s a s') :
    ∃ lines, Runs work { s with lines := ⟨file, 1⟩ } a { s' with lines } ∧
      s'.lines = s.lines := by
  simp only [Runs, Building.run, inFile, ExceptT.mk, StateT.run', Functor.map,
    StateT.map, bind, Except.bind, pure] at hran
  rcases hdone : work ⟨file, 1⟩ s.builder with _ | ⟨⟨_ | b, lines⟩, builder⟩
  · simp [hdone, ExceptT.run] at hran
  · simp [hdone, ExceptT.run, Except.pure] at hran
  · simp only [hdone, ExceptT.run] at hran
    cases hran
    exact ⟨lines, by simp [Runs, Building.run, hdone], rfl⟩

end

end SchemaLint
