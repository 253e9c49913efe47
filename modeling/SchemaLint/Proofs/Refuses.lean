import SchemaLint.Proofs.Yields
import SchemaLint.Provider.FieldStore

/-!
# Refusals of analyses

`x.Refuses error` says that the analysis `x` ends for a cause of its own.
Look-ups and records never refuse, so the refusals of a composed analysis are
those of the few parts that can.
-/

namespace SchemaLint.Analysis

def Refuses (x : Analysis ε α) (error : ε) : Prop :=
  x.outcome = .error (.cause error)

@[simp] theorem pure_refuses {a : α} {error : ε} :
    ¬Refuses (Pure.pure a) error :=
  nofun

@[simp] theorem bind_refuses {x : Analysis ε α} {f : α → Analysis ε β}
    {error : ε} :
    Refuses (x >>= f) error ↔
      Refuses x error ∨ ∃ a, x.Yields a ∧ Refuses (f a) error := by
  obtain ⟨outcome, records⟩ := x
  cases outcome with
  | error failure =>
      constructor
      · intro hrefused
        cases hrefused
        exact .inl rfl
      · rintro (hrefused | ⟨_, hyields, -⟩)
        · cases hrefused
          rfl
        · cases hyields
  | ok a =>
      constructor
      · intro hrefused
        exact .inr ⟨a, rfl, hrefused⟩
      · rintro (hrefused | ⟨_, ⟨⟩, hrefused⟩)
        · cases hrefused
        · exact hrefused

@[simp] theorem map_refuses {x : Analysis ε α} {f : α → β} {error : ε} :
    Refuses (f <$> x) error ↔ Refuses x error := by
  rw [← bind_pure_comp, bind_refuses]
  simp

@[simp] theorem warn_refuses {message : String} {error : ε} :
    ¬Refuses (Report.warn message) error :=
  nofun

@[simp] theorem debug_refuses {message : String} {error : ε} :
    ¬Refuses (Report.debug message) error :=
  nofun

@[simp] theorem ofAccess_refuses {x : Access α} {error : ε} :
    ¬Refuses (ofAccess x) error := by
  cases x <;> nofun

@[simp] theorem monadLift_refuses {x : Access α} {error : ε} :
    ¬Refuses (MonadLiftT.monadLift x : Analysis ε α) error :=
  ofAccess_refuses

@[simp] theorem refuse_refuses {cause error : ε} :
    Refuses (refuse cause : Analysis ε α) error ↔ error = cause := by
  constructor
  · intro hrefused
    cases hrefused
    rfl
  · rintro rfl
    rfl

@[simp] theorem within_refuses {wrap : ε → δ} {x : Analysis ε α} {error : δ} :
    Refuses (within wrap x) error ↔
      ∃ cause, Refuses x cause ∧ error = wrap cause := by
  obtain ⟨outcome, records⟩ := x
  cases outcome with
  | ok a => exact ⟨nofun, nofun⟩
  | error failure =>
      cases failure with
      | outside fault => exact ⟨nofun, nofun⟩
      | cause cause =>
          constructor
          · intro hrefused
            cases hrefused
            exact ⟨cause, rfl, rfl⟩
          · rintro ⟨_, ⟨⟩, rfl⟩
            rfl

theorem mapM_refuses {f : α → Analysis ε β} {list : List α} {error : ε}
    (hrefused : Refuses (list.mapM f) error) :
    ∃ a ∈ list, Refuses (f a) error := by
  induction list with
  | nil => simp at hrefused
  | cons a rest ih =>
      simp only [List.mapM_cons, bind_refuses, pure_refuses, and_false,
        exists_false, or_false] at hrefused
      rcases hrefused with hfirst | ⟨_, -, hlater⟩
      · exact ⟨a, List.mem_cons_self, hfirst⟩
      · obtain ⟨b, hmember, hrefused⟩ := ih hlater
        exact ⟨b, List.mem_cons_of_mem _ hmember, hrefused⟩

theorem filterMapM_refuses {f : α → Analysis ε (Option β)} {list : List α}
    {error : ε} (hrefused : Refuses (list.filterMapM f) error) :
    ∃ a ∈ list, Refuses (f a) error := by
  induction list with
  | nil => simp at hrefused
  | cons a rest ih =>
      rw [List.filterMapM_cons, bind_refuses] at hrefused
      rcases hrefused with hfirst | ⟨found, -, hlater⟩
      · exact ⟨a, List.mem_cons_self, hfirst⟩
      · have hinRest : Refuses (rest.filterMapM f) error := by
          cases found with
          | none => exact hlater
          | some b => simpa using hlater
        obtain ⟨b, hmember, hrefused⟩ := ih hinRest
        exact ⟨b, List.mem_cons_of_mem _ hmember, hrefused⟩

@[simp] theorem root_refuses {p : Package} {value : ValueId} {error : ε} :
    ¬Refuses (Analysis.root p value) error := by
  have htraced (trace : Trace) :
      ¬Refuses (⟨.ok trace, trace.records value⟩ : Analysis ε Trace) error :=
    nofun
  simp [Analysis.root, Analysis.trace, htraced]

@[simp] theorem constString?_refuses {p : Package} {value : ValueId}
    {error : ε} : ¬Refuses (Analysis.constString? p value) error := by
  simp [Analysis.constString?]

@[simp] theorem fieldStores_refuses {p : Package}
    {instructions : List Instruction} {type : String} {error : ε} :
    ¬Refuses (p.fieldStores instructions type) error := by
  intro hrefused
  simp only [Package.fieldStores, bind_refuses, ofAccess_refuses,
    false_or] at hrefused
  obtain ⟨addresses, -, hrefused⟩ := hrefused
  obtain ⟨instruction, -, hrefused⟩ := filterMapM_refuses hrefused
  split at hrefused
  · split at hrefused <;> simp at hrefused
  · simp at hrefused

@[simp] theorem reachedStores_refuses {p : Package} {func : FuncId}
    {type : String} {error : ε} :
    ¬Refuses (p.reachedStores func type) error := by
  simp [Package.reachedStores]

@[simp] theorem instanceStores_refuses {p : Package} {alloc : ValueId}
    {type : String} {error : ε} :
    ¬Refuses (p.instanceStores alloc type) error := by
  simp [Package.instanceStores]

end SchemaLint.Analysis
