import SchemaLint.Proofs.Provenance.Trace

/-!
# Roots of roots

A trace from a root starts again at its first result, while the trace that came
to the root may have carried another number there. So a root need not be its own
root; here is when it is.
-/

namespace SchemaLint.Package

variable {p : Package}

section

variable {seen : List ValueId} {state : ValueId × Nat}
  {path : List (ValueId × Nat)} {root : ValueId} {revisited : Bool}

/-- A trace that forgets values it does not come back to goes on as before. -/
theorem Traced.forget {kept : List ValueId}
    (htraced : p.Traced seen state path root revisited) (hfewer : kept ⊆ seen)
    (hrooted : root ∈ seen → root ∈ kept) :
    p.Traced kept state path root revisited := by
  induction htraced generalizing kept with
  | met hmember => exact .met (hrooted hmember)
  | stuck hfresh hnone => exact .stuck (fun hold => hfresh (hfewer hold)) hnone
  | step hfresh hstep _ ih =>
      refine .step (fun hold => hfresh (hfewer hold)) hstep
        (ih (List.cons_subset_cons _ hfewer) ?_)
      intro hmember
      rcases List.mem_cons.1 hmember with rfl | hmember
      · exact List.mem_cons_self
      · exact List.mem_cons_of_mem _ (hrooted hmember)

/-- The trace can be started again where it first meets its root, with the
number it carries there. -/
theorem Traced.restart (htraced : p.Traced seen state path root revisited)
    (hunmet : root ∉ seen) {carried : Nat} (hmember : (root, carried) ∈ path) :
    ∃ rest, p.Traced [] (root, carried) rest root revisited := by
  induction htraced with
  | met => simp at hmember
  | stuck _ hnone =>
      cases List.mem_singleton.1 hmember
      exact ⟨_, .stuck (by simp) hnone⟩
  | @step seen value index next path root revisited _ hstep hrest ih =>
      rcases List.mem_cons.1 hmember with hsame | hmember
      · cases hsame
        refine ⟨_, .step (by simp) hstep (hrest.forget (by simp) ?_)⟩
        simp
      · have hfresh := hrest.fresh _ hmember
        exact ih hfresh hmember

theorem Traced.of_isChain {rest : List (ValueId × Nat)} {last : ValueId × Nat}
    {target : ValueId} {back : Nat}
    (hsteps : (state :: rest).IsChain p.OriginStep)
    (hdistinct : ((state :: rest).map Prod.fst).Nodup)
    (hfresh : ∀ met ∈ state :: rest, met.1 ∉ seen)
    (hfinal : (state :: rest).getLast? = some last)
    (hclosing : p.OriginStep last (target, back))
    (hknown : target ∈ seen ++ (state :: rest).map Prod.fst) :
    p.Traced seen state (state :: rest) target true := by
  obtain ⟨value, index⟩ := state
  induction rest generalizing seen value index with
  | nil =>
      cases hfinal
      exact .step (hfresh (value, index) (by simp)) hclosing
        (.met (by simpa [or_comm] using hknown))
  | cons next rest ih =>
      obtain ⟨hstep, hsteps⟩ := List.isChain_cons_cons.1 hsteps
      rw [List.map_cons, List.nodup_cons] at hdistinct
      refine .step (hfresh (value, index) (by simp)) hstep
        (ih next.1 next.2 hsteps hdistinct.2 ?_ (by simpa using hfinal) ?_)
      · intro met hmember hold
        rcases List.mem_cons.1 hold with rfl | hold
        · exact hdistinct.1 (List.mem_map.2 ⟨met, hmember, rfl⟩)
        · exact hfresh met (List.mem_cons_of_mem _ hmember) hold
      · exact List.perm_middle.mem_iff.1 hknown

end

/-- The steps from a value at its first result lead back to it before they meet
another value twice. -/
def ReturnsTo (p : Package) (value : ValueId) : Prop :=
  ∃ (path : List (ValueId × Nat)) (last : ValueId × Nat) (back : Nat),
    path.head? = some (value, 0) ∧ path.IsChain p.OriginStep ∧
    (path.map Prod.fst).Nodup ∧
    path.getLast? = some last ∧ p.OriginStep last (value, back)

theorem Traced.root_eq_start_iff {value root : ValueId}
    {path : List (ValueId × Nat)} {revisited : Bool}
    (htraced : p.Traced [] (value, 0) path root revisited) :
    root = value ↔
      (∀ next, ¬p.OriginStep (value, 0) next) ∨ p.ReturnsTo value := by
  constructor
  · rintro rfl
    have hstarts := htraced.carriedPath.starts
    obtain ⟨last, hfinal, hending⟩ := htraced.ending (by simp)
    rcases hending with ⟨hnone, hsame, -⟩ | ⟨⟨_, back⟩, hstep, -, rfl, -⟩
    · have hfirst : last = (root, 0) :=
        List.inj_on_of_nodup_map htraced.nodup (List.mem_of_getLast? hfinal)
          (List.mem_of_mem_head? hstarts) hsame.symm
      exact .inl (hfirst ▸ hnone)
    · exact .inr ⟨path, last, back, hstarts, htraced.isChain, htraced.nodup,
        hfinal, hstep⟩
  · rintro (hnone |
      ⟨path, last, back, hstarts, hsteps, hdistinct, hfinal, hclosing⟩)
    · exact (htraced.unique (.stuck (by simp) hnone)).2.1
    · obtain ⟨rest, rfl⟩ := List.head?_eq_some_iff.1 hstarts
      have hclosed : p.Traced [] (value, 0) ((value, 0) :: rest) value true :=
        .of_isChain hsteps hdistinct (by simp) hfinal hclosing (by simp)
      exact (htraced.unique hclosed).2.1

theorem root_root_eq_root_iff (hvalid : p.validate = .ok ()) {value : ValueId}
    (hinRange : value.index < p.values.size) :
    ∃ trace path carried, p.trace value = .ok trace ∧
      p.CarriedPath value trace path ∧ (trace.root, carried) ∈ path ∧
      (p.root value >>= p.root = p.root value ↔
        carried = 0 ∨ (∀ next, ¬p.OriginStep (trace.root, 0) next) ∨
          p.ReturnsTo trace.root) := by
  have hwf := validate_eq_ok_iff.1 hvalid
  obtain ⟨path, root, revisited, htraced, hresult⟩ := hwf.trace hinRange
  obtain ⟨carried, hmember⟩ := htraced.root_carried
  have hinside : p.HasValue root := htraced.hasValue hwf hinRange _ hmember
  obtain ⟨path', root', revisited', htraced', hresult'⟩ := hwf.trace hinside
  refine ⟨_, path, carried, hresult, htraced.carriedPath, hmember, ?_⟩
  have hagain : p.root value >>= p.root = p.root value ↔ root' = root := by
    simp [Package.root, hresult, hresult']
  rw [hagain, htraced'.root_eq_start_iff]
  refine ⟨Or.inr, ?_⟩
  rintro (rfl | hclosed)
  · obtain ⟨rest, hrestarted⟩ := htraced.restart (by simp) hmember
    exact hrestarted.root_eq_start_iff.1 rfl
  · exact hclosed

/-- The inner call is met at its second result, which leads to it again at its
first, and that to a constant. -/
theorem shifting_root_root_ne_root :
    ¬∀ (p : Package) (value : ValueId), p.validate = .ok () →
      value.index < p.values.size → p.root value >>= p.root = p.root value := by
  intro hidempotent
  have hfirst : shifting.root ⟨3⟩ = .ok ⟨1⟩ := by cbv
  have hsecond : shifting.root ⟨1⟩ = .ok ⟨4⟩ := by cbv
  have hsame := hidempotent shifting ⟨3⟩ (by decide) (by decide)
  rw [hfirst, Access.ok_bind, hsecond] at hsame
  simp at hsame

theorem shifting_root_root_eq_root_iff :
    shifting.validate = .ok () ∧ 3 < shifting.values.size ∧
      ∃ trace path carried, shifting.trace ⟨3⟩ = .ok trace ∧
        shifting.CarriedPath ⟨3⟩ trace path ∧ (trace.root, carried) ∈ path ∧
        (shifting.root ⟨3⟩ >>= shifting.root = shifting.root ⟨3⟩ ↔
          carried = 0 ∨ (∀ next, ¬shifting.OriginStep (trace.root, 0) next) ∨
            shifting.ReturnsTo trace.root) :=
  ⟨by decide, by decide, root_root_eq_root_iff (by decide) (by decide)⟩

end SchemaLint.Package
