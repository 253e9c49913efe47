import SchemaLint.Diagnostics

/-!
# Questions without a fault

`Faultless x post` says that `x` does not lead outside the tables of its package
and that every result of it satisfies `post`. A plain question without a fault
has an answer; an analysis may still refuse for a cause of its own.
-/

namespace SchemaLint

class Guarded (m : Type → Type) [Monad m] where
  stays {α : Type} : m α → (α → Prop) → Prop
  stays_pure {α : Type} {a : α} {post : α → Prop} : post a → stays (pure a) post
  stays_bind {α β : Type} {x : m α} {next : α → m β} {inner : α → Prop}
    {post : β → Prop} :
    stays x inner → (∀ a, inner a → stays (next a) post) →
    stays (x >>= next) post
  stays_imp {α : Type} {x : m α} {post weaker : α → Prop} :
    stays x post → (∀ a, post a → weaker a) → stays x weaker

instance : Guarded (Except Outside) where
  stays x post := ∃ a, x = .ok a ∧ post a
  stays_pure hholds := ⟨_, rfl, hholds⟩
  stays_bind := by
    rintro _ _ _ next inner post ⟨a, rfl, hholds⟩ hrest
    exact hrest a hholds
  stays_imp := by
    rintro _ _ _ _ ⟨a, rfl, hholds⟩ hweaken
    exact ⟨a, rfl, hweaken a hholds⟩

instance : Guarded (Report (Failure ε)) where
  stays x post :=
    (∀ a, x.outcome = .ok a → post a) ∧
      ∀ fault, x.outcome ≠ .error (.outside fault)
  stays_pure := by
    intro _ a post hholds
    refine ⟨fun b hsame => ?_, nofun⟩
    cases hsame
    exact hholds
  stays_bind := by
    rintro _ _ ⟨outcome, records⟩ next inner post ⟨hresult, hinside⟩ hrest
    cases outcome with
    | ok a => exact hrest a (hresult a rfl)
    | error failure =>
        refine ⟨nofun, fun fault hsame => hinside fault ?_⟩
        cases hsame
        rfl
  stays_imp := by
    rintro _ x post weaker ⟨hresult, hinside⟩ hweaken
    exact ⟨fun a hsame => hweaken a (hresult a hsame), hinside⟩

def Faultless {m : Type → Type} [Monad m] [Guarded m] (x : m α)
    (post : α → Prop) : Prop :=
  Guarded.stays x post

namespace Access

@[simp] theorem pure_eq (a : α) : (pure a : Access α) = .ok a := rfl

@[simp] theorem ok_bind (a : α) (next : α → Access β) :
    ((.ok a : Access α) >>= next) = next a := rfl

@[simp] theorem error_bind (fault : Outside) (next : α → Access β) :
    ((.error fault : Access α) >>= next) = .error fault := rfl

theorem bind_eq_ok_iff {x : Access α} {next : α → Access β} {b : β} :
    x >>= next = .ok b ↔ ∃ a, x = .ok a ∧ next a = .ok b := by
  cases x with
  | error fault => exact ⟨nofun, nofun⟩
  | ok a => simp

end Access

theorem Access.faultless_iff {x : Access α} {post : α → Prop} :
    Faultless x post ↔ ∃ a, x = .ok a ∧ post a :=
  Iff.rfl

theorem Faultless.of_ok {x : Access α} {post : α → Prop} {a : α}
    (hholds : Faultless x post) (hfound : x = .ok a) : post a := by
  obtain ⟨b, rfl, hknown⟩ := hholds
  cases hfound
  exact hknown

theorem Faultless.ne_error {x : Access α} {post : α → Prop}
    (hholds : Faultless x post) (fault : Outside) : x ≠ .error fault := by
  obtain ⟨a, rfl, -⟩ := hholds
  nofun

theorem Analysis.faultless_iff {x : Analysis ε α} {post : α → Prop} :
    Faultless x post ↔
      (∀ a, x.outcome = .ok a → post a) ∧
        ∀ fault, x.outcome ≠ .error (.outside fault) :=
  Iff.rfl

namespace Faultless

section

variable {m : Type → Type} [Monad m] [Guarded m] {α β : Type}

theorem pure {a : α} {post : α → Prop} (hholds : post a) :
    Faultless (Pure.pure a : m α) post :=
  Guarded.stays_pure hholds

theorem pure_none {post : α → Prop} :
    Faultless (Pure.pure none : m (Option α))
      fun found => ∀ a ∈ found, post a :=
  pure (by simp)

theorem bind {x : m α} {next : α → m β} {inner : α → Prop} {post : β → Prop}
    (hfirst : Faultless x inner)
    (hrest : ∀ a, inner a → Faultless (next a) post) :
    Faultless (x >>= next) post :=
  Guarded.stays_bind hfirst hrest

theorem imp {x : m α} {post weaker : α → Prop} (hholds : Faultless x post)
    (hweaken : ∀ a, post a → weaker a) : Faultless x weaker :=
  Guarded.stays_imp hholds hweaken

/-! ## Lists -/

theorem mapM {f : α → m β} {post : β → Prop} {list : List α}
    (heach : ∀ a ∈ list, Faultless (f a) post) :
    Faultless (list.mapM f) fun results => ∀ b ∈ results, post b := by
  suffices hloop : ∀ done : List β, (∀ b ∈ done, post b) →
      Faultless (List.mapM.loop f list done) fun results =>
        ∀ b ∈ results, post b from
    hloop [] (by simp)
  induction list with
  | nil =>
      intro done hknown
      exact pure (by simpa using hknown)
  | cons a rest ih =>
      intro done hknown
      refine bind (heach a (by simp)) fun b hholds => ?_
      refine ih (fun a hmember => heach a (by simp [hmember])) (b :: done) ?_
      simpa using ⟨hholds, hknown⟩

theorem filterMapM {f : α → m (Option β)} {post : β → Prop} {list : List α}
    (heach : ∀ a ∈ list, Faultless (f a) fun found => ∀ b ∈ found, post b) :
    Faultless (list.filterMapM f) fun results => ∀ b ∈ results, post b := by
  suffices hloop : ∀ done : List β, (∀ b ∈ done, post b) →
      Faultless (List.filterMapM.loop f list done) fun results =>
        ∀ b ∈ results, post b from
    hloop [] (by simp)
  induction list with
  | nil =>
      intro done hknown
      exact pure (by simpa using hknown)
  | cons a rest ih =>
      intro done hknown
      have htail := ih fun a hmember => heach a (by simp [hmember])
      refine bind (heach a (by simp)) fun found hholds => ?_
      cases found with
      | none => exact htail done hknown
      | some b =>
          exact htail (b :: done) (by simpa using ⟨hholds b rfl, hknown⟩)

theorem filterMapM_true {f : α → m (Option β)} {list : List α}
    (heach : ∀ a ∈ list, Faultless (f a) fun _ => True) :
    Faultless (list.filterMapM f) fun _ => True := by
  have hkept : ∀ a ∈ list, Faultless (f a) fun found =>
      ∀ b ∈ found, (fun _ => True) b :=
    fun a hmember => (heach a hmember).imp fun _ _ _ _ => trivial
  exact (filterMapM hkept).imp fun _ _ => trivial

theorem filterM {f : α → m Bool} {list : List α}
    (heach : ∀ a ∈ list, Faultless (f a) fun _ => True) :
    Faultless (list.filterM f) fun results => ∀ a ∈ results, a ∈ list := by
  suffices hloop : ∀ (scope : List α), (∀ a ∈ list, a ∈ scope) →
        ∀ done : List α, (∀ a ∈ done, a ∈ scope) →
      Faultless (List.filterAuxM f list done) fun results =>
        ∀ a ∈ results, a ∈ scope by
    refine bind (hloop list (fun _ => id) [] (by simp)) fun results hknown => ?_
    exact pure (by simpa using hknown)
  intro scope
  induction list with
  | nil =>
      intro _ done hknown
      exact pure hknown
  | cons a rest ih =>
      intro hinside done hknown
      refine bind (heach a (by simp)) fun kept _ => ?_
      refine ih (fun a hmember => heach a (by simp [hmember]))
        (fun a hmember => hinside a (by simp [hmember])) _ ?_
      cases kept with
      | false => exact hknown
      | true => simpa using ⟨hinside a (by simp), hknown⟩

/-- What holds at the start and is kept by every step of a fold holds at its
end. -/
theorem foldlM {f : β → α → m β} {inv : β → Prop} {list : List α} {init : β}
    (hstart : inv init)
    (hstep : ∀ b, inv b → ∀ a ∈ list, Faultless (f b a) inv) :
    Faultless (list.foldlM f init) inv := by
  induction list generalizing init with
  | nil => exact pure hstart
  | cons a rest ih =>
      rw [List.foldlM_cons]
      refine bind (hstep init hstart a (by simp)) fun b hholds => ?_
      exact ih hholds fun b hholds a hmember =>
        hstep b hholds a (by simp [hmember])

end

/-! ## Analyses -/

theorem ofAccess {x : Access α} {post : α → Prop} (hholds : Faultless x post) :
    Faultless (Analysis.ofAccess x : Analysis ε α) post := by
  obtain ⟨a, rfl, hknown⟩ := hholds
  exact pure hknown

theorem map {f : α → β} {x : Analysis ε α} {post : β → Prop}
    (hholds : Faultless x fun a => post (f a)) : Faultless (f <$> x) post :=
  hholds.bind fun _ hknown => pure hknown

theorem refuse {error : ε} {post : α → Prop} :
    Faultless (Analysis.refuse error : Analysis ε α) post :=
  ⟨nofun, nofun⟩

theorem log {level : LogLevel} {message : String} :
    Faultless (Report.log level message : Analysis ε Unit) fun _ => True :=
  ⟨fun _ _ => trivial, nofun⟩

theorem within {wrap : ε → δ} {x : Analysis ε α} {post : α → Prop}
    (hholds : Faultless x post) : Faultless (Analysis.within wrap x) post := by
  obtain ⟨outcome, records⟩ := x
  obtain ⟨hresult, hinside⟩ := hholds
  cases outcome with
  | ok a =>
      refine ⟨fun b hsame => ?_, nofun⟩
      cases hsame
      exact hresult a rfl
  | error failure =>
      cases failure with
      | outside fault => exact absurd rfl (hinside fault)
      | cause error => exact ⟨nofun, nofun⟩

end Faultless

end SchemaLint
