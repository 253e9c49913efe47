import Mathlib.Data.List.Forall2
import SchemaLint.Proofs.Faultless
import SchemaLint.Provenance

/-!
# Results of analyses

`x.Yields a` says that the analysis `x` ends with the result `a`, whatever it
recorded on the way. What a composed analysis yields is read off its parts.
-/

namespace SchemaLint

theorem Access.mapM_eq_ok {f : α → Access β} {list : List α} {results : List β}
    (heach : List.Forall₂ (fun a b => f a = .ok b) list results) :
    list.mapM f = .ok results := by
  induction heach with
  | nil => rfl
  | cons hfirst _ ih =>
      rw [List.mapM_cons, hfirst, Access.ok_bind, ih, Access.ok_bind,
        Access.pure_eq]

theorem Access.mem_filterMapM_iff {f : α → Access (Option β)} {list : List α}
    {results : List β} (hfound : list.filterMapM f = .ok results) {b : β} :
    b ∈ results ↔ ∃ a ∈ list, f a = .ok (some b) := by
  induction list generalizing results with
  | nil =>
      cases hfound
      simp
  | cons a rest ih =>
      rw [List.filterMapM_cons] at hfound
      obtain ⟨first, hofFirst, hfound⟩ := Access.bind_eq_ok_iff.1 hfound
      cases first with
      | none => simp [ih hfound, hofFirst]
      | some first =>
          obtain ⟨tail, hofRest, hsame⟩ := Access.bind_eq_ok_iff.1 hfound
          cases hsame
          simp [ih hofRest, hofFirst, eq_comm]

namespace Report

instance : LawfulMonad (Report ε) := by
  refine LawfulMonad.mk' (Report ε) ?_ ?_ ?_
  · rintro α ⟨_ | a, records⟩
    · rfl
    · change Report.mk (.ok a) (records ++ []) = _
      rw [List.append_nil]
  · intro α β a f
    change Report.mk (f a).outcome ([] ++ (f a).records) = _
    rw [List.nil_append]
  · rintro α β γ ⟨_ | a, records⟩ f g
    · rfl
    · change Report.bind (Report.mk (f a).outcome (records ++ (f a).records))
        g =
        Report.mk (Report.bind (f a) g).outcome
          (records ++ (Report.bind (f a) g).records)
      unfold Report.bind
      cases (f a).outcome with
      | error failure => rfl
      | ok b => simp [List.append_assoc]

def Yields (x : Report ε α) (a : α) : Prop := x.outcome = .ok a

theorem Yields.unique {x : Report ε α} {a b : α} (hone : x.Yields a)
    (hother : x.Yields b) : a = b := by
  have hsame : Except.ok a = Except.ok b := hone.symm.trans hother
  exact Except.ok.inj hsame

theorem yields_of_toOption {x : Report ε α} {a : α}
    (hfound : x.outcome.toOption = some a) : x.Yields a := by
  unfold Yields
  cases houtcome : x.outcome <;> simp_all [Except.toOption]

@[simp] theorem pure_yields {a b : α} :
    (Pure.pure a : Report ε α).Yields b ↔ b = a := by
  constructor
  · intro hsame
    cases hsame
    rfl
  · rintro rfl
    rfl

@[simp] theorem bind_yields {x : Report ε α} {f : α → Report ε β} {b : β} :
    (x >>= f).Yields b ↔ ∃ a, x.Yields a ∧ (f a).Yields b := by
  obtain ⟨outcome, records⟩ := x
  cases outcome with
  | error failure => exact ⟨nofun, nofun⟩
  | ok a =>
      constructor
      · intro hfound
        exact ⟨a, rfl, hfound⟩
      · rintro ⟨_, ⟨⟩, hfound⟩
        exact hfound

theorem Yields.bind_outcome {x : Report ε α} {a : α} (hyields : x.Yields a)
    (f : α → Report ε β) : (x >>= f).outcome = (f a).outcome := by
  obtain ⟨outcome, records⟩ := x
  cases hyields
  rfl

@[simp] theorem map_yields {x : Report ε α} {f : α → β} {b : β} :
    (f <$> x).Yields b ↔ ∃ a, x.Yields a ∧ b = f a := by
  rw [← bind_pure_comp, bind_yields]
  simp

@[simp] theorem log_yields {level : LogLevel} {message : String} {u : Unit} :
    (log level message : Report ε Unit).Yields u :=
  rfl

@[simp] theorem warn_yields {message : String} {u : Unit} :
    (warn message : Report ε Unit).Yields u :=
  rfl

@[simp] theorem debug_yields {message : String} {u : Unit} :
    (debug message : Report ε Unit).Yields u :=
  rfl

theorem mapM_yields {f : α → Report ε β} {list : List α} {results : List β} :
    (list.mapM f).Yields results ↔
      List.Forall₂ (fun a b => (f a).Yields b) list results := by
  induction list generalizing results with
  | nil => simp
  | cons a rest ih =>
      rw [List.mapM_cons, bind_yields, List.forall₂_cons_left_iff]
      simp only [bind_yields, pure_yields, ih]
      constructor
      · rintro ⟨b, hfirst, tail, hrest, rfl⟩
        exact ⟨b, tail, hfirst, hrest, rfl⟩
      · rintro ⟨b, tail, hfirst, hrest, rfl⟩
        exact ⟨b, hfirst, tail, hrest, rfl⟩

theorem filterMapM_yields {f : α → Report ε (Option β)} {list : List α}
    {results : List β} :
    (list.filterMapM f).Yields results ↔
      ∃ found, List.Forall₂ (fun a b => (f a).Yields b) list found ∧
        results = found.filterMap id := by
  induction list generalizing results with
  | nil => simp
  | cons a rest ih =>
      rw [List.filterMapM_cons, bind_yields]
      simp only [List.forall₂_cons_left_iff]
      constructor
      · rintro ⟨b, hfirst, htail⟩
        cases b with
        | none =>
            obtain ⟨found, hrelated, rfl⟩ := ih.1 htail
            exact ⟨none :: found, ⟨none, found, hfirst, hrelated, rfl⟩, rfl⟩
        | some b =>
            simp only [bind_yields, pure_yields, ih] at htail
            obtain ⟨_, ⟨found, hrelated, rfl⟩, rfl⟩ := htail
            exact ⟨some b :: found, ⟨some b, found, hfirst, hrelated, rfl⟩, rfl⟩
      · rintro ⟨_, ⟨b, found, hfirst, hrelated, rfl⟩, rfl⟩
        refine ⟨b, hfirst, ?_⟩
        cases b with
        | none => exact ih.2 ⟨found, hrelated, rfl⟩
        | some b =>
            simp only [bind_yields, pure_yields]
            exact ⟨found.filterMap id, ih.2 ⟨found, hrelated, rfl⟩, rfl⟩

theorem mem_filterMapM_yields {f : α → Report ε (Option β)} {list : List α}
    {results : List β} (hyields : (list.filterMapM f).Yields results) {b : β} :
    b ∈ results ↔ ∃ a ∈ list, (f a).Yields (some b) := by
  obtain ⟨found, hrelated, rfl⟩ := filterMapM_yields.1 hyields
  rw [List.mem_filterMap]
  clear hyields
  induction hrelated with
  | nil => simp
  | @cons a found list rest hfirst _ ih =>
      have hhere : (f a).Yields (some b) ↔ some b = found :=
        ⟨fun hyields => hyields.unique hfirst, fun hsame => hsame ▸ hfirst⟩
      simpa [hhere] using or_congr_right ih

end Report

namespace Analysis

@[simp] theorem ofAccess_yields {x : Access α} {a : α} :
    (ofAccess x : Analysis ε α).Yields a ↔ x = .ok a := by
  cases x with
  | error fault => exact ⟨nofun, nofun⟩
  | ok b => constructor <;> rintro ⟨⟩ <;> rfl

@[simp] theorem monadLift_yields {x : Access α} {a : α} :
    (MonadLiftT.monadLift x : Analysis ε α).Yields a ↔ x = .ok a :=
  ofAccess_yields

@[simp] theorem refuse_yields {error : ε} {a : α} :
    ¬(refuse error : Analysis ε α).Yields a :=
  nofun

@[simp] theorem within_yields {wrap : ε → δ} {x : Analysis ε α} {a : α} :
    (within wrap x).Yields a ↔ x.Yields a := by
  obtain ⟨_ | b, records⟩ := x
  · exact ⟨nofun, nofun⟩
  · constructor <;> rintro ⟨⟩ <;> rfl

@[simp] theorem trace_yields {p : Package} {value : ValueId} {trace : Trace} :
    (Analysis.trace p value : Analysis ε Trace).Yields trace ↔
      p.trace value = .ok trace := by
  rw [Analysis.trace, Report.bind_yields]
  constructor
  · rintro ⟨found, hknown, ⟨⟩⟩
    exact ofAccess_yields.1 hknown
  · intro hknown
    exact ⟨trace, ofAccess_yields.2 hknown, rfl⟩

@[simp] theorem root_yields {p : Package} {value root : ValueId} :
    (Analysis.root p value : Analysis ε ValueId).Yields root ↔
      p.root value = .ok root := by
  simp only [Analysis.root, Report.bind_yields, Report.pure_yields,
    trace_yields, Package.root, Access.bind_eq_ok_iff]
  simp [eq_comm]

@[simp] theorem constString?_yields {p : Package} {value : ValueId}
    {found : Option String} :
    (Analysis.constString? p value : Analysis ε (Option String)).Yields found ↔
      ∃ root, p.root value = .ok root ∧ p.constString? root = .ok found := by
  simp [Analysis.constString?]

end Analysis

end SchemaLint
