import Mathlib.Order.Defs.Unbundled
import SchemaLint.Program.Walk
import SchemaLint.Proofs.Build.Growth

/-!
# What the operations of builders do

Operations outside of bodies add to the tables and leave all functions alone;
operations inside a body change no function but the one that is worked on, and
put instructions at its end.
-/

namespace SchemaLint

/-! ## Relations between sites -/

structure Site.Grows (names : String → Prop) (may : FuncId → Prop)
    (s s' : Site) : Prop where
  builder : s.builder.Grows names may s'.builder
  func : s'.cursor.func = s.cursor.func

structure Site.Adds (s s' : Site) : Prop where
  grows : ∀ names may, s.Grows names may s'
  functions : s'.builder.package.functions = s.builder.package.functions

def Site.Works (names : String → Prop) (s s' : Site) : Prop :=
  s.Grows names (· = s.cursor.func) s'

namespace Site

variable {names : String → Prop} {may may' : FuncId → Prop} {s s' s'' : Site}

theorem Grows.trans (hfirst : s.Grows names may s')
    (hsecond : s'.Grows names may' s'')
    (hold : ∀ id f, s.builder.package.funcAt id = .ok f → may' id → may id) :
    s.Grows names may s'' :=
  ⟨hfirst.builder.trans hsecond.builder hold, hsecond.func.trans hfirst.func⟩

theorem Grows.weaken (hgrows : s.Grows names may s')
    (hmore : ∀ func, may func → may' func) : s.Grows names may' s' :=
  ⟨hgrows.builder.weaken hmore, hgrows.func⟩

theorem Adds.refl (s : Site) : s.Adds s := ⟨fun _ _ => ⟨.refl _, rfl⟩, rfl⟩

theorem Adds.trans (hfirst : s.Adds s') (hsecond : s'.Adds s'') : s.Adds s'' :=
  ⟨fun names may =>
      (hfirst.grows names may).trans (hsecond.grows names may) fun _ _ _ => id,
    hsecond.functions.trans hfirst.functions⟩

theorem Adds.works (hadds : s.Adds s') : s.Works names s' := hadds.grows _ _

theorem Works.refl (s : Site) : s.Works names s := ⟨.refl _, rfl⟩

theorem Works.trans (hfirst : s.Works names s') (hsecond : s'.Works names s'') :
    s.Works names s'' := by
  refine Grows.trans hfirst hsecond ?_
  intro id f _ htouched
  rw [htouched, hfirst.func]

instance : IsPreorder Site Adds where
  refl := .refl
  trans _ _ _ := .trans

instance : IsPreorder Site (Works names) where
  refl := .refl
  trans _ _ _ := .trans

end Site

def Preserves {m : Type → Type} [Monad m] [Building m] (R : Site → Site → Prop)
    (x : m α) : Prop :=
  ∀ ⦃s a s'⦄, Runs x s a s' → R s s'

namespace Preserves

variable {m n : Type → Type} [Monad m] [Building m] [Monad n] [Building n]
  {R : Site → Site → Prop}

theorem pure [IsPreorder Site R] (a : α) : Preserves R (Pure.pure a : m α) := by
  intro s b s' hran
  obtain ⟨-, rfl⟩ := runs_pure.1 hran
  exact refl _

theorem bind [IsPreorder Site R] {x : m α} {f : α → m β}
    (hfirst : Preserves R x) (hnext : ∀ a, Preserves R (f a)) :
    Preserves R (x >>= f) := by
  intro s b s'' hran
  obtain ⟨a, s', hran, hran'⟩ := runs_bind.1 hran
  exact IsTrans.trans s s' s'' (hfirst hran) (hnext a hran')

theorem lift [MonadLiftT m n] [LiftsRuns m n] {x : m α}
    (hkept : Preserves R x) : Preserves R (liftM x : n α) :=
  fun _ _ _ hran => hkept (runs_lift.1 hran)

theorem discard [LawfulMonad m] {x : m α} (hkept : Preserves R x) :
    Preserves R (Functor.discard x) := by
  intro s u s' hran
  obtain ⟨a, hran⟩ := runs_discard.1 hran
  exact hkept hran

theorem forM [IsPreorder Site R] {f : α → m PUnit} {list : List α}
    (hkept : ∀ a ∈ list, Preserves R (f a)) : Preserves R (list.forM f) := by
  induction list with
  | nil => exact pure _
  | cons a rest ih =>
      refine bind (hkept a (List.mem_cons_self ..)) fun _ =>
        ih fun b hmember => ?_
      exact hkept b (List.mem_cons_of_mem a hmember)

theorem mapM [LawfulMonad m] [IsPreorder Site R] {f : α → m β} {list : List α}
    (hkept : ∀ a ∈ list, Preserves R (f a)) : Preserves R (list.mapM f) := by
  induction list with
  | nil => exact pure _
  | cons a rest ih =>
      intro s results s'' hran
      obtain ⟨b, others, s', hfirst, hmore, -⟩ := runs_mapM_cons.1 hran
      have hlater :=
        ih (fun b hmember => hkept b (List.mem_cons_of_mem a hmember)) hmore
      exact IsTrans.trans s s' s'' (hkept a (List.mem_cons_self ..) hfirst)
        hlater

theorem optionForM [IsPreorder Site R] {f : α → m PUnit} {option : Option α}
    (hkept : ∀ a, Preserves R (f a)) : Preserves R (option.forM f) := by
  cases option with
  | none => exact pure _
  | some a => exact hkept a

/-- What was there before a run is part of what there is in the end. -/
theorem before {x : m α} (hkept : Preserves (Site.Works fun _ => True) x)
    {s s' : Site} {a : α} (hran : Runs x s a s') {e : Builder}
    (hlater : s'.builder.Before e) : s.builder.Before e :=
  (hkept hran).builder.before.trans hlater

theorem works {names : String → Prop} {x : m α}
    (hkept : Preserves Site.Adds x) : Preserves (Site.Works names) x :=
  fun _ _ _ hran => (hkept hran).works

end Preserves

/-! ## Tables -/

namespace Build

variable {names : String → Prop} {s s' : Site}

theorem runs_update {change : Package → Package} {u : Unit}
    (hran : Runs (update change) s u s') :
    s' =
      { s with
        builder :=
          { s.builder with package := change s.builder.package } } := by
  cases hran
  rfl

private theorem ask_adds (question : Package → Access α) :
    Preserves Site.Adds (ask question) := by
  intro s a s' hran
  obtain ⟨-, rfl⟩ := runs_ask.1 hran
  exact .refl _

/-- A type that was asked for has its number, and any other gets the next
one. -/
theorem runs_intern_cases {type : Ty} {id : TypeId}
    (hran : Runs (intern type) s id s') :
    s.builder.interned.lookup type = some id ∧ s' = s ∨
      s.builder.interned.lookup type = none ∧
        id = ⟨s.builder.package.types.size⟩ ∧
        s' = { s with builder := s.builder.interning type } := by
  obtain ⟨b, s₁, hgot, hran⟩ := runs_bind.1 hran
  obtain ⟨rfl, rfl⟩ := runs_get_builder.1 hgot
  cases hknown : s₁.builder.interned.lookup type with
  | some old =>
      rw [hknown] at hran
      obtain ⟨rfl, rfl⟩ := runs_pure.1 hran
      exact .inl ⟨rfl, rfl⟩
  | none =>
      rw [hknown] at hran
      cases hran
      exact .inr ⟨rfl, rfl, rfl⟩

theorem runs_intern {type : Ty} {id : TypeId}
    (hran : Runs (intern type) s id s') :
    s.Adds s' ∧ (type, id) ∈ s'.builder.interned := by
  obtain ⟨hknown, rfl⟩ | ⟨-, rfl, rfl⟩ := runs_intern_cases hran
  · exact ⟨.refl _, mem_of_lookup hknown⟩
  · exact ⟨⟨fun names may => ⟨s.builder.grows_interning type, rfl⟩, rfl⟩,
      List.mem_cons_self ..⟩

theorem intern_adds (type : Ty) : Preserves Site.Adds (intern type) :=
  fun _ _ _ hran => (runs_intern hran).1

theorem runs_pushValue {value : Value} {id : ValueId}
    (hran : Runs (pushValue value) s id s') :
    id = ⟨s.builder.package.values.size⟩ ∧
      s' = { s with builder := s.builder.pushing value } := by
  cases hran
  exact ⟨rfl, rfl⟩

theorem pushValue_adds (value : Value) :
    Preserves Site.Adds (pushValue value) := by
  intro s id s' hran
  obtain ⟨-, rfl⟩ := runs_pushValue hran
  exact ⟨fun names may => ⟨s.builder.grows_pushing value, rfl⟩, rfl⟩

theorem constOf_adds (kind : BasicKind) (value : Constant) :
    Preserves Site.Adds (constOf kind value) :=
  .bind (intern_adds _) fun _ => pushValue_adds _

theorem global_adds (name : String) (elem : TypeId) :
    Preserves Site.Adds (global name elem) :=
  .bind (intern_adds _) fun _ => pushValue_adds _

theorem runs_declareNamed_cases {package : Option String} {name : String}
    {id : TypeId} (hran : Runs (declareNamed package name) s id s') :
    s.builder.declared.lookup (package, name) = some id ∧ s' = s ∨
      s.builder.declared.lookup (package, name) = none ∧
        ∃ invalid s₁, Runs (basic .invalid) s invalid s₁ ∧
          id = ⟨s₁.builder.package.types.size⟩ ∧
          s' =
            { s₁ with
              builder := s₁.builder.declaring package name invalid } := by
  obtain ⟨b, s₁, hgot, hran⟩ := runs_bind.1 hran
  obtain ⟨rfl, rfl⟩ := runs_get_builder.1 hgot
  cases hknown : s₁.builder.declared.lookup (package, name) with
  | some old =>
      rw [hknown] at hran
      obtain ⟨rfl, rfl⟩ := runs_pure.1 hran
      exact .inl ⟨rfl, rfl⟩
  | none =>
      rw [hknown] at hran
      obtain ⟨invalid, s₂, hinterned, hpushed⟩ := runs_bind.1 hran
      cases hpushed
      exact .inr ⟨rfl, invalid, s₂, hinterned, rfl, rfl⟩

theorem runs_named {package : String} {id : TypeId}
    (hran : Runs (named package "MyString" textType) s id s') :
    s.Adds s' ∧ ((some package, "MyString"), id) ∈ s'.builder.declared := by
  obtain ⟨id, s₁, hdeclared, hran⟩ := runs_bind.1 hran
  obtain ⟨u, s₂, hset, hran⟩ := runs_bind.1 hran
  obtain ⟨rfl, rfl⟩ := runs_pure.1 hran
  rw [runs_update hset]
  obtain ⟨hknown, rfl⟩ | ⟨-, invalid, s₃, hinterned, rfl, rfl⟩ :=
    runs_declareNamed_cases hdeclared
  · have hmember := mem_of_lookup hknown
    exact ⟨⟨fun names may => ⟨s₁.builder.grows_setUnderlying hmember, rfl⟩,
        rfl⟩, hmember⟩
  · refine ⟨(intern_adds _ hinterned).trans ⟨fun names may => ⟨?_, rfl⟩, rfl⟩,
      List.mem_cons_self ..⟩
    simp only [Builder.declaring, modify_push]
    exact s₃.builder.grows_declaring (some package) fun _ => rfl

theorem named_adds (package : String) :
    Preserves Site.Adds (named package "MyString" textType) :=
  fun _ _ _ hran => (runs_named hran).1

/-! ## Functions -/

private theorem parameters_adds (func : FuncId) (index : Nat)
    (params : List (String × TypeId)) :
    Preserves Site.Adds (parameters func index params) := by
  induction params generalizing index with
  | nil => exact .pure _
  | cons param rest ih =>
      exact .bind (pushValue_adds _) fun _ =>
        .bind (ih (index + 1)) fun _ => .pure _

theorem runs_declare {name : String} {params : List (String × TypeId)}
    {results : List TypeId} {id : FuncId}
    (hran : Runs (declare name params results) s id s') :
    ∃ f s₁, s.Adds s₁ ∧ s' = { s₁ with builder := s₁.builder.adding f } ∧
      id = ⟨s.builder.package.functions.size⟩ ∧ f.name = name ∧
      f.package = some s.builder.package.path ∧ f.receiver = none ∧
      f.blocks = some [{}] ∧ f.doc = none ∧
      (.signature (params.map Prod.snd) results false, f.signature) ∈
        s₁.builder.interned := by
  obtain ⟨b, s₁, hgot, hran⟩ := runs_bind.1 hran
  obtain ⟨rfl, rfl⟩ := runs_get_builder.1 hgot
  obtain ⟨signature, s₂, hsigned, hran⟩ := runs_bind.1 hran
  obtain ⟨b, s₃, hgot, hran⟩ := runs_bind.1 hran
  obtain ⟨rfl, rfl⟩ := runs_get_builder.1 hgot
  obtain ⟨values, s₄, hvalued, hran⟩ := runs_bind.1 hran
  obtain ⟨u, s₅, hupdated, hran⟩ := runs_bind.1 hran
  obtain ⟨rfl, rfl⟩ := runs_pure.1 hran
  obtain ⟨hsigning, hinterned⟩ := runs_intern hsigned
  have hvaluing := parameters_adds _ _ _ hvalued
  refine ⟨_, s₄, hsigning.trans hvaluing, runs_update hupdated, ?_, rfl, rfl,
    rfl, rfl, rfl, ?_⟩
  · rw [hsigning.functions]
  · exact (hvaluing.grows (fun _ => True) (fun _ => True)).builder.interned
      hinterned

theorem declare_found {name : String} {params : List (String × TypeId)}
    {results : List TypeId} {id : FuncId}
    (hran : Runs (declare name params results) s id s') :
    id.index = s.builder.package.functions.size ∧
      ∃ f, s'.builder.package.funcAt id = .ok f ∧ f.name = name ∧
        f.package = some s'.builder.package.path ∧ f.receiver = none ∧
        f.blocks = some [{}] ∧ f.doc = none ∧
        (.signature (params.map Prod.snd) results false, f.signature) ∈
          s'.builder.interned := by
  obtain ⟨f, s₁, hadds, rfl, rfl, hnamed, hpackage, hreceiver, hblocks, hdoc,
      hsigned⟩ := runs_declare hran
  have hpath := (hadds.grows (fun _ => True) fun _ => True).builder.path
  have hadded : (s₁.builder.adding f).package.funcAt
        ⟨s.builder.package.functions.size⟩ = .ok f :=
    Builder.funcAt_adding.2 (.inr ⟨by rw [hadds.functions], rfl⟩)
  exact ⟨rfl, f, hadded, hnamed, hpackage.trans (congrArg some hpath.symm),
    hreceiver, hblocks, hdoc, hsigned⟩

theorem declare_grows {name : String} (hnamed : names name)
    (params : List (String × TypeId)) (results : List TypeId)
    (may : FuncId → Prop) :
    Preserves (Site.Grows names may) (declare name params results) := by
  intro s id s' hran
  obtain ⟨f, s₁, hadds, rfl, -, rfl, -⟩ := runs_declare hran
  have hadded : s₁.Grows names may { s₁ with builder := s₁.builder.adding f } :=
    ⟨s₁.builder.grows_adding hnamed, rfl⟩
  exact (hadds.grows names may).trans hadded fun _ _ _ htouched => htouched

theorem runs_modifyFunc {func : FuncId} {change : Func → Func} {u : Unit}
    (hran : Runs (modifyFunc func change) s u s') :
    s' = { s with builder := s.builder.changing func change } :=
  runs_update hran

theorem runs_funcRef_cases {func : FuncId} {value : ValueId}
    (hran : Runs (funcRef func) s value s') :
    s.builder.funcRefs.lookup func = some value ∧ s' = s ∨
      s.builder.funcRefs.lookup func = none ∧
        ∃ f, s.builder.package.funcAt func = .ok f ∧
          value = ⟨s.builder.package.values.size⟩ ∧
          s' = { s with builder := s.builder.referring func f.signature } := by
  obtain ⟨b, s₁, hgot, hran⟩ := runs_bind.1 hran
  obtain ⟨rfl, rfl⟩ := runs_get_builder.1 hgot
  cases hknown : s₁.builder.funcRefs.lookup func with
  | some old =>
      rw [hknown] at hran
      obtain ⟨rfl, rfl⟩ := runs_pure.1 hran
      exact .inl ⟨rfl, rfl⟩
  | none =>
      rw [hknown] at hran
      obtain ⟨f, s₂, hasked, hpushed⟩ := runs_bind.1 hran
      obtain ⟨hfound, rfl⟩ := runs_ask.1 hasked
      cases hpushed
      exact .inr ⟨rfl, f, hfound, rfl, rfl⟩

theorem runs_funcRef {func : FuncId} {value : ValueId}
    (hran : Runs (funcRef func) s value s') :
    s.Adds s' ∧ (func, value) ∈ s'.builder.funcRefs := by
  obtain ⟨hknown, rfl⟩ | ⟨-, f, -, rfl, rfl⟩ := runs_funcRef_cases hran
  · exact ⟨.refl _, mem_of_lookup hknown⟩
  · exact ⟨⟨fun names may => ⟨s.builder.grows_referring func f.signature, rfl⟩,
        rfl⟩, List.mem_cons_self ..⟩

theorem funcRef_adds (func : FuncId) : Preserves Site.Adds (funcRef func) :=
  fun _ _ _ hran => (runs_funcRef hran).1

end Build

theorem Site.advanced_adds (s : Site) : s.Adds s.advanced :=
  ⟨fun _ _ => ⟨{ Builder.Grows.refl s.builder with
    posCount :=
      Nat.le_of_succ_le (Nat.le_of_eq (PositionTable.size_add ..).symm)
    sound := fun hsound => { hsound with } }, rfl⟩, rfl⟩

theorem nextPos_adds : Preserves Site.Adds (nextPos : Lower Pos) := by
  intro s pos s' hran
  rw [runs_nextPos hran]
  exact s.advanced_adds

theorem nextPos_package_adds :
    Preserves Site.Adds (nextPos : LowerPackage Pos) := by
  intro s pos s' hran
  rw [runs_nextPos_package hran]
  exact s.advanced_adds

/-! ## Bodies -/

def Func.extended (f : Func) : List Instruction → Func
  | [] => f
  | seg => { f with blocks := some [⟨f.instructions ++ seg⟩] }

namespace Func

variable {f : Func} {seg : List Instruction}

theorem extended_of_ne_nil (hfilled : seg ≠ []) :
    f.extended seg = { f with blocks := some [⟨f.instructions ++ seg⟩] } := by
  cases seg with
  | nil => exact absurd rfl hfilled
  | cons => rfl

theorem extended_instructions :
    (f.extended seg).instructions = f.instructions ++ seg := by
  cases seg with
  | nil => exact (List.append_nil _).symm
  | cons => simp [extended, instructions, body]

private theorem extended_extended (more : List Instruction) :
    (f.extended seg).extended more = f.extended (seg ++ more) := by
  cases more with
  | nil => rw [List.append_nil, extended]
  | cons i rest =>
      cases seg with
      | nil => rfl
      | cons => simp [extended, instructions, body]

private theorem extended_single (hsingle : f.body.length ≤ 1)
    (seg : List Instruction) : (f.extended seg).body.length ≤ 1 := by
  cases seg with
  | nil => exact hsingle
  | cons => exact Nat.le_refl _

theorem extended_empty (hempty : f.blocks = some [{}])
    (seg : List Instruction) :
    f.extended seg = { f with blocks := some [⟨seg⟩] } := by
  cases seg with
  | nil => rw [extended, ← hempty]
  | cons => simp [extended, instructions, body, hempty]

end Func

/-- The instructions were put at the end of the function of the cursor, if it
has at most one block. -/
structure Site.Put (seg : List Instruction) (s s' : Site) : Prop where
  grown : s.Works (fun _ => True) s'
  body :
    ∀ f, s.builder.package.funcAt s.cursor.func = .ok f → f.body.length ≤ 1 →
    s'.builder.package.funcAt s.cursor.func = .ok (f.extended seg)

structure Site.Wrote (seg : List Instruction) (s s' : Site) : Prop
    extends Site.Put seg s s' where
  works : ∀ names, s.Works names s'

theorem Site.Put.of_untouched {names : String → Prop} {may : FuncId → Prop}
    {s s' : Site} (hgrows : s.Grows names may s')
    (hgrown : s.Works (fun _ => True) s') (hfree : ¬may s.cursor.func) :
    s.Put [] s' where
  grown := hgrown
  body f hfound _ := hgrows.builder.untouched _ f hfound hfree

theorem Site.Put.trans {s s' s'' : Site} {seg seg' : List Instruction}
    (hfirst : s.Put seg s') (hsecond : s'.Put seg' s'') :
    s.Put (seg ++ seg') s'' where
  grown := hfirst.grown.trans hsecond.grown
  body f hfound hsingle := by
    have hgrown := hfirst.body f hfound hsingle
    rw [← hfirst.grown.func] at hgrown ⊢
    rw [← Func.extended_extended]
    exact hsecond.body _ hgrown (Func.extended_single hsingle seg)

namespace Site.Wrote

variable {s s' s'' : Site} {seg seg' : List Instruction}

theorem of_adds (hadds : s.Adds s') : s.Wrote [] s' where
  toPut :=
    .of_untouched (hadds.grows (fun _ => True) fun _ => False) hadds.works id
  works _ := hadds.works

theorem trans (hfirst : s.Wrote seg s') (hsecond : s'.Wrote seg' s'') :
    s.Wrote (seg ++ seg') s'' where
  toPut := hfirst.toPut.trans hsecond.toPut
  works names := (hfirst.works names).trans (hsecond.works names)

theorem adds_left (hadds : s.Adds s') (hwrote : s'.Wrote seg s'') :
    s.Wrote seg s'' :=
  (of_adds hadds).trans hwrote

end Site.Wrote

namespace Body

variable {s s' : Site}

theorem ask_adds (question : Package → Access α) :
    Preserves Site.Adds (ask question) :=
  .lift (Build.ask_adds question)

theorem get_adds : Preserves Site.Adds (get : Body Cursor) := by
  intro s c s' hran
  obtain ⟨-, rfl⟩ := runs_get_cursor.1 hran
  exact .refl _

theorem param?_adds (index : Nat) : Preserves Site.Adds (param? index) :=
  .bind get_adds fun _ => .bind (ask_adds _) fun _ => .pure _

theorem moveTo_adds (pos : Pos) : Preserves Site.Adds (moveTo pos) := by
  intro s u s' hran
  rw [runs_modify_cursor.1 hran]
  exact ⟨fun _ _ => ⟨.refl _, rfl⟩, rfl⟩

theorem runs_push {instruction : Instruction} {u : Unit}
    (hran : Runs (push instruction) s u s') :
    s' =
      { s with
        builder := s.builder.changing s.cursor.func fun f =>
            { f with
              blocks :=
                some (appendAt s.cursor.block instruction f.body) } } := by
  obtain ⟨c, s₁, hgot, hran⟩ := runs_bind.1 hran
  obtain ⟨rfl, rfl⟩ := runs_get_cursor.1 hgot
  obtain ⟨c, s₂, hgot, hran⟩ := runs_bind.1 hran
  obtain ⟨rfl, rfl⟩ := runs_get_cursor.1 hgot
  exact Build.runs_modifyFunc (runs_lift.1 hran)

theorem push_wrote {instruction : Instruction} {u : Unit}
    (hran : Runs (push instruction) s u s') : s.Wrote [instruction] s' := by
  rw [runs_push hran]
  have hworks (names : String → Prop) :
      s.Works names
        { s with builder := s.builder.changing s.cursor.func fun f => { f with
          blocks := some (appendAt s.cursor.block instruction f.body) } } :=
    ⟨Builder.grows_changing s.builder s.cursor.func fun f => rfl, rfl⟩
  refine ⟨⟨hworks _, ?_⟩, hworks⟩
  intro f hfound hsingle
  refine Builder.funcAt_changing.2 ⟨f, hfound, ?_⟩
  rw [if_pos rfl, Func.extended_of_ne_nil (by simp), Func.instructions]
  match f.body, hsingle with
  | [], _ => simp [appendAt]
  | [block], _ => simp [appendAt]

theorem runs_define_parts {operation : Operation} {type : TypeId}
    {value : ValueId} (hran : Runs (define operation type) s value s') :
    ∃ s₁ u, Runs (Build.pushValue
        ⟨operation, type, s.cursor.pos, some s.cursor.func, none⟩) s value s₁ ∧
      Runs (push (.define value)) s₁ u s' := by
  obtain ⟨c, s₁, hgot, hran⟩ := runs_bind.1 hran
  obtain ⟨rfl, rfl⟩ := runs_get_cursor.1 hgot
  obtain ⟨id, s₂, hpushed, hran⟩ := runs_bind.1 hran
  obtain ⟨u, s₃, hwritten, hran⟩ := runs_bind.1 hran
  obtain ⟨rfl, rfl⟩ := runs_pure.1 hran
  exact ⟨s₂, u, runs_lift.1 hpushed, hwritten⟩

theorem runs_define {operation : Operation} {type : TypeId} {value : ValueId}
    (hran : Runs (define operation type) s value s') :
    s.Wrote [.define value] s' ∧ value = ⟨s.builder.package.values.size⟩ ∧
      s'.builder.package.valueAt value =
        .ok ⟨operation, type, s.cursor.pos, some s.cursor.func, none⟩ := by
  obtain ⟨s₁, u, hpushed, hwritten⟩ := runs_define_parts hran
  have hadds := Build.pushValue_adds _ hpushed
  obtain ⟨rfl, rfl⟩ := Build.runs_pushValue hpushed
  refine ⟨.adds_left hadds (push_wrote hwritten), rfl, ?_⟩
  rw [runs_push hwritten, Package.valueAt_eq_ok_iff]
  simp [Builder.pushing, Builder.changing]

theorem typeOrInvalid_adds (found : Option TypeId) :
    Preserves Site.Adds (typeOrInvalid found) := by
  cases found with
  | none => exact .lift (Build.intern_adds _)
  | some type => exact .pure _

theorem fieldType_adds (x : ValueId) (field : Nat) :
    Preserves Site.Adds (fieldType x field) :=
  .bind (ask_adds _) fun _ => .bind (ask_adds _) fun _ => typeOrInvalid_adds _

theorem resultType_adds (results : List TypeId) :
    Preserves Site.Adds (resultType results) := by
  unfold resultType
  split
  · exact .pure _
  · exact .lift (Build.intern_adds _)

section

variable {names : String → Prop}

theorem intern_works (type : Ty) :
    Preserves (Site.Works names) (liftM (Build.intern type) : Body TypeId) :=
  .lift (Build.intern_adds type).works

theorem ask_works (question : Package → Access α) :
    Preserves (Site.Works names) (ask question) :=
  (ask_adds question).works

private theorem push_works (instruction : Instruction) :
    Preserves (Site.Works names) (push instruction) :=
  fun _ _ _ hran => (push_wrote hran).works names

theorem define_works (operation : Operation) (type : TypeId) :
    Preserves (Site.Works names) (define operation type) :=
  fun _ _ _ hran => (runs_define hran).1.works names

theorem pushAt_works (instruction : Pos → Instruction) :
    Preserves (Site.Works names)
      (do push (instruction (← get).pos) : Body Unit) :=
  .bind get_adds.works fun _ => push_works _

theorem alloc_works (heap : Bool) (elem : TypeId) :
    Preserves (Site.Works names) (alloc heap elem) :=
  .bind (intern_works _) fun _ => define_works _ _

theorem fieldAddr_works (x : ValueId) (field : Nat) :
    Preserves (Site.Works names) (fieldAddr x field) :=
  .bind (fieldType_adds _ _).works fun _ =>
    .bind (intern_works _) fun _ => define_works _ _

theorem store_works (addr val : ValueId) :
    Preserves (Site.Works names) (store addr val) :=
  pushAt_works _

theorem storeField_works (addr : ValueId) (name : String) (val : ValueId) :
    Preserves (Site.Works names) (storeField addr name val) := by
  refine .bind (.bind (ask_works _) fun _ =>
    .bind (ask_works _) fun _ => fieldAddr_works _ _)
    fun _ => ?_
  exact .bind (store_works _ _) fun _ => .pure _

theorem deref_works (x : ValueId) : Preserves (Site.Works names) (deref x) :=
  .bind (ask_works _) fun _ => .bind (ask_works _) fun _ => define_works _ _

theorem indexAddr_works (x index : ValueId) :
    Preserves (Site.Works names) (indexAddr x index) := by
  refine .bind (ask_works _) fun type => ?_
  have hdefined (elem : TypeId) :
      Preserves (Site.Works names)
        (do define (.indexAddr x index) (← Build.pointer elem) :
          Body ValueId) :=
    .bind (intern_works _) fun _ => define_works _ _
  split
  · exact .bind (.pure _) hdefined
  · exact .bind (.pure _) hdefined
  · exact .bind (intern_works _) hdefined

theorem lookup_works (x index : ValueId) :
    Preserves (Site.Works names) (lookup x index) := by
  refine .bind (ask_works _) fun type => ?_
  split
  · exact .bind (.pure _) fun _ => define_works _ _
  · exact .bind (intern_works _) fun _ => define_works _ _

theorem boxAny_works (x : ValueId) : Preserves (Site.Works names) (boxAny x) :=
  .bind (intern_works _) fun _ => define_works _ _

theorem call_works (callee : FuncId) (args : List ValueId) :
    Preserves (Site.Works names) (call callee args) := by
  refine .bind (ask_works _) fun results =>
    .bind (resultType_adds results).works fun _ => ?_
  exact .bind (.lift (Build.funcRef_adds _).works) fun _ => define_works _ _

theorem ret_works (results : List ValueId) :
    Preserves (Site.Works names) (ret results) :=
  pushAt_works _

end

end Body

/-! ## Working on functions -/

section

variable {names : String → Prop}

theorem Build.body_grows {func : FuncId} {work : Body α}
    (hkept : Preserves (Site.Works names) work) :
    Preserves (Site.Grows names (· = func)) (Build.body func work) := by
  intro s a s' hran
  obtain ⟨f, cursor, -, hworked, hsame⟩ := runs_body hran
  exact ⟨(hkept hworked).builder, by rw [hsame]⟩

theorem lowerBody_grows {func : FuncId} {work : Lower α}
    (hkept : Preserves (Site.Works names) work) :
    Preserves (Site.Grows names (· = func)) (lowerBody func work) := by
  intro s a s' hran
  obtain ⟨f, cursor, -, hworked, hsame⟩ := runs_lowerBody hran
  exact ⟨(hkept hworked).builder, by rw [hsame]⟩

/-- A function that is declared and worked on in one go is none that was
there. -/
theorem Build.function_works {name : String} {params : List (String × TypeId)}
    {results : List TypeId} {work : FuncId → Body α} (hnamed : names name)
    (hkept : ∀ func, Preserves (Site.Works names) (work func)) :
    Preserves (Site.Works names) (Build.function name params results work) := by
  intro s a s'' hran
  obtain ⟨func, s', hdeclared, hworked⟩ := runs_bind.1 hran
  refine (Build.declare_grows hnamed _ _ _ hdeclared).trans
    (Build.body_grows (hkept func) hworked) ?_
  rintro id f hfound rfl
  obtain ⟨-, -, -, -, rfl, -⟩ := Build.runs_declare hdeclared
  have hbound := Package.funcAt_bound hfound
  exact absurd hbound (Nat.lt_irrefl s.builder.package.functions.size)

def Site.Above (names : String → Prop) (k : Nat) (s s' : Site) : Prop :=
  k ≤ s.builder.package.functions.size → s.Grows names (k ≤ ·.index) s'

theorem Site.Above.trans {k : Nat} {s s' s'' : Site}
    (hfirst : s.Above names k s') (hsecond : s'.Above names k s'') :
    s.Above names k s'' := by
  intro hroom
  have hgrown := hfirst hroom
  exact hgrown.trans (hsecond (Nat.le_trans hroom hgrown.builder.funcCount))
    fun _ _ _ htouched => htouched

instance {k : Nat} : IsPreorder Site (Site.Above names k) where
  refl _ _ := ⟨.refl _, rfl⟩
  trans _ _ _ := .trans

theorem Site.Adds.above {k : Nat} {s s' : Site} (hadds : s.Adds s') :
    s.Above names k s' :=
  fun _ => hadds.grows _ _

theorem Build.declare_above {name : String} (hnamed : names name)
    (params : List (String × TypeId)) (results : List TypeId) (k : Nat) :
    Preserves (Site.Above names k) (declare name params results) :=
  fun _ _ _ hran _ => Build.declare_grows hnamed _ _ _ hran

theorem Build.modifyFunc_above {func : FuncId} {change : Func → Func} {k : Nat}
    (hsame : ∀ f : Func, f.SameHeader (change f)) (hbound : k ≤ func.index) :
    Preserves (Site.Above names k) (modifyFunc func change) := by
  intro s u s' hran _
  rw [runs_modifyFunc hran]
  refine ⟨(s.builder.grows_changing func hsame).weaken ?_, rfl⟩
  rintro id rfl
  exact hbound

theorem Build.setFuncPos_above {func : FuncId} {k : Nat}
    (hbound : k ≤ func.index) (pos : Pos) :
    Preserves (Site.Above names k) (setFuncPos func pos) :=
  modifyFunc_above (fun _ => rfl) hbound

theorem Build.setDoc_above {func : FuncId} {k : Nat} (hbound : k ≤ func.index)
    (text : String) : Preserves (Site.Above names k) (setDoc func text) :=
  modifyFunc_above (fun _ => rfl) hbound

theorem lowerBody_above {func : FuncId} {work : Lower α} {k : Nat}
    (hkept : Preserves (Site.Works names) work) (hbound : k ≤ func.index) :
    Preserves (Site.Above names k) (lowerBody func work) := by
  intro s a s' hran _
  refine (lowerBody_grows hkept hran).weaken ?_
  rintro id rfl
  exact hbound

theorem inFile_above {file : String} {work : LowerPackage α} {k : Nat}
    (hkept : Preserves (Site.Above names k) work) :
    Preserves (Site.Above names k) (inFile file work) := by
  intro s a s' hran hroom
  obtain ⟨lines, hworked, -⟩ := runs_inFile hran
  have hgrown := hkept hworked hroom
  exact ⟨hgrown.builder, hgrown.func⟩

end

end SchemaLint
