import SchemaLint.Proofs.Build.Segments

/-!
# Calls of bodies

The calls that a body makes, in their order. Calls of functions from which no
setter is reached are left out, so that a body that only makes values counts as
one without calls.
-/

namespace SchemaLint

def UnlikeSet (name : String) : Prop :=
  name.toList.getLast?.any (· != 't') = true

instance : DecidablePred UnlikeSet :=
  fun name =>
    inferInstanceAs (Decidable (name.toList.getLast?.any (· != 't') = true))

theorem unlikeSet_append (first : String) {last : String}
    (hunlike : UnlikeSet last) : UnlikeSet (first ++ last) := by
  unfold UnlikeSet at hunlike ⊢
  rw [String.toList_append, List.getLast?_append]
  cases hended : last.toList.getLast? with
  | none => simp [hended] at hunlike
  | some c => simpa [hended] using hunlike

namespace Package

variable {p : Package}

def IsSetter (p : Package) (func : FuncId) : Prop :=
  p.funcName func = .ok Sdk.usual.set

theorem unlikeSet_funcName {func : FuncId} {f : Func} {text : String}
    (hfound : p.funcAt func = .ok f) (hnamed : p.funcName func = .ok text)
    (hunlike : UnlikeSet f.name) : UnlikeSet text := by
  simp only [funcName, hfound, Access.ok_bind] at hnamed
  split at hnamed
  · obtain ⟨receiver, -, hnamed⟩ := Access.bind_eq_ok_iff.1 hnamed
    cases hnamed
    exact unlikeSet_append _ hunlike
  · cases hnamed
    unfold qualified
    split
    · exact unlikeSet_append _ hunlike
    · exact hunlike

theorem not_isSetter {func : FuncId} {f : Func} (hfound : p.funcAt func = .ok f)
    (hunlike : UnlikeSet f.name) : ¬p.IsSetter func :=
  fun hisSetter =>
    absurd (unlikeSet_funcName hfound hisSetter hunlike) (by decide)

inductive Aside (p : Package) : FuncId → Prop
  | intro {func body} :
    ¬p.IsSetter func → p.instructions func = .ok body →
      (∀ i ∈ body, ∀ callee, p.StaticCall i callee → Aside p callee) →
      Aside p func

theorem Aside.not_isSetter {func : FuncId} (haside : p.Aside func) :
    ¬p.IsSetter func := by
  cases haside with
  | intro hother => exact hother

theorem Aside.callee {func callee : FuncId} {body : List Instruction}
    {i : Instruction} (haside : p.Aside func)
    (hfound : p.instructions func = .ok body) (hmember : i ∈ body)
    (hcalled : p.StaticCall i callee) : p.Aside callee := by
  cases haside with
  | intro _ hsame hinner =>
      cases hfound.symm.trans hsame
      exact hinner i hmember callee hcalled

inductive Calls (p : Package) :
    List Instruction → List (ValueId × FuncId) → Prop
  | nil : Calls p [] []
  | quiet {i rest calls} :
    (∀ callee, ¬p.StaticCall i callee) → Calls p rest calls →
      Calls p (i :: rest) calls
  | aside {id callee args rest calls} :
    p.IsCall id callee args → p.Aside callee → Calls p rest calls →
    Calls p (.define id :: rest) calls
  | call {id callee args rest calls} :
    p.IsCall id callee args → Calls p rest calls →
    Calls p (.define id :: rest) ((id, callee) :: calls)

theorem IsCall.staticCall {id : ValueId} {callee : FuncId} {args : List ValueId}
    (hcall : p.IsCall id callee args) : p.StaticCall (.define id) callee := by
  obtain ⟨target, hknown, hfunction⟩ := hcall
  exact .call hknown (.function rfl hfunction)

theorem IsCall.staticCall_eq {id : ValueId} {callee other : FuncId}
    {args : List ValueId} (hcall : p.IsCall id callee args)
    (hcalled : p.StaticCall (.define id) other) : other = callee := by
  have hsame :=
    (callee?_eq_some_iff.2 hcalled).symm.trans
      (callee?_eq_some_iff.2 hcall.staticCall)
  cases hsame
  rfl

namespace Calls

variable {first second body : List Instruction}
  {before after calls : List (ValueId × FuncId)}

theorem append (hone : p.Calls first before) (htwo : p.Calls second after) :
    p.Calls (first ++ second) (before ++ after) := by
  induction hone with
  | nil => exact htwo
  | quiet hnone _ ih => exact .quiet hnone ih
  | aside hcall hharmless _ ih => exact .aside hcall hharmless ih
  | call hcall _ ih => exact .call hcall ih

theorem staticCall (hmade : p.Calls body calls) {i : Instruction}
    {callee : FuncId} (hmember : i ∈ body) (hcalled : p.StaticCall i callee) :
    p.Aside callee ∨ ∃ id, i = .define id ∧ (id, callee) ∈ calls := by
  induction hmade with
  | nil => cases hmember
  | quiet hnone _ ih =>
      rcases List.mem_cons.1 hmember with rfl | hlater
      · exact absurd hcalled (hnone callee)
      · exact ih hlater
  | aside hcall hharmless _ ih =>
      rcases List.mem_cons.1 hmember with rfl | hlater
      · rw [hcall.staticCall_eq hcalled]
        exact .inl hharmless
      · exact ih hlater
  | @call id _ _ _ _ hcall _ ih =>
      rcases List.mem_cons.1 hmember with rfl | hlater
      · rw [hcall.staticCall_eq hcalled]
        exact .inr ⟨id, rfl, List.mem_cons_self ..⟩
      · exact (ih hlater).imp_right fun ⟨id, hsame, hlisted⟩ =>
          ⟨id, hsame, List.mem_cons_of_mem _ hlisted⟩

theorem mem (hmade : p.Calls body calls) {id : ValueId} {callee : FuncId}
    (hlisted : (id, callee) ∈ calls) :
    .define id ∈ body ∧ p.StaticCall (.define id) callee := by
  induction hmade with
  | nil => cases hlisted
  | quiet _ _ ih | aside _ _ _ ih =>
      exact ⟨List.mem_cons_of_mem _ (ih hlisted).1, (ih hlisted).2⟩
  | call hcall _ ih =>
      rcases List.mem_cons.1 hlisted with hsame | hlater
      · cases hsame
        exact ⟨List.mem_cons_self .., hcall.staticCall⟩
      · exact ⟨List.mem_cons_of_mem _ (ih hlater).1, (ih hlater).2⟩

end Calls

theorem Aside.of_calls {func : FuncId} {body : List Instruction}
    (hother : ¬p.IsSetter func) (hfound : p.instructions func = .ok body)
    (hmade : p.Calls body []) : p.Aside func := by
  refine .intro hother hfound fun i hmember callee hcalled => ?_
  rcases hmade.staticCall hmember hcalled with hharmless | ⟨id, -, hlisted⟩
  · exact hharmless
  · cases hlisted

end Package

/-! ## What is built later -/

def Builder.Ahead (k : Nat) (b e : Builder) : Prop :=
  b.Grows (fun _ => True)
    (fun id => id.index < k ∨ b.package.functions.size ≤ id.index) e

namespace Builder

variable {names : String → Prop} {may : FuncId → Prop} {k k' : Nat}
  {b c e : Builder}

theorem Settled.ahead (hsettled : b.Settled e) (k : Nat) : b.Ahead k e :=
  Grows.weaken hsettled fun _ => .inr

namespace Ahead

theorem before (hahead : b.Ahead k e) : b.Before e := Grows.before hahead

theorem mono (hahead : b.Ahead k e) (hle : k ≤ k') : b.Ahead k' e :=
  Grows.weaken hahead fun _ =>
    Or.imp_left fun hbelow => Nat.lt_of_lt_of_le hbelow hle

theorem funcAt (hahead : b.Ahead k e) {func : FuncId} {f : Func}
    (hfound : b.package.funcAt func = .ok f) (habove : k ≤ func.index) :
    e.package.funcAt func = .ok f := by
  refine hahead.untouched func f hfound ?_
  have hbound := Package.funcAt_bound hfound
  omega

end Ahead

theorem Grows.ahead (hgrows : b.Grows names may c) (hahead : c.Ahead k e)
    (hinside :
      ∀ id, may id → id.index < k ∨ b.package.functions.size ≤ id.index) :
    b.Ahead k e := by
  refine (hgrows.anyName.weaken hinside).trans hahead
    fun id f hfound htouched => ?_
  have hmore := hgrows.funcCount
  omega

end Builder

structure Site.Inside (k : Nat) (s : Site) : Prop where
  func : s.cursor.func.index < k
  room : k ≤ s.builder.package.functions.size

section

variable {names : String → Prop} {k : Nat} {s s' : Site} {e : Builder}

theorem Site.Works.inside (hworks : s.Works names s') (hinside : s.Inside k) :
    s'.Inside k :=
  ⟨hworks.func ▸ hinside.func,
    Nat.le_trans hinside.room hworks.builder.funcCount⟩

theorem Site.Works.ahead (hworks : s.Works names s') (hinside : s.Inside k)
    (hahead : s'.builder.Ahead k e) : s.builder.Ahead k e := by
  refine hworks.builder.ahead hahead ?_
  rintro id rfl
  exact .inl hinside.func

end

/-! ## What is written -/

def Site.Calls (e : Builder) (calls : List (ValueId × FuncId)) (s s' : Site) :
    Prop :=
  ∃ seg, s.Put seg s' ∧ e.package.Calls seg calls

namespace Site.Calls

variable {e : Builder} {calls calls' : List (ValueId × FuncId)}
  {s s' s'' : Site}

theorem of_adds (hadds : s.Adds s') : s.Calls e [] s' :=
  ⟨[], (Site.Wrote.of_adds hadds).toPut, .nil⟩

theorem trans (hfirst : s.Calls e calls s') (hsecond : s'.Calls e calls' s'') :
    s.Calls e (calls ++ calls') s'' := by
  obtain ⟨seg, hput, hmade⟩ := hfirst
  obtain ⟨seg', hput', hmade'⟩ := hsecond
  exact ⟨seg ++ seg', hput.trans hput', hmade.append hmade'⟩

theorem works (hmade : s.Calls e calls s') : s.Works (fun _ => True) s' := by
  obtain ⟨seg, hput, -⟩ := hmade
  exact hput.grown

end Site.Calls

/-! ## Computations in bodies -/

/-- Every successful run adds to the function of the cursor. If that is one of
the first functions and the others do not change any more, the sites before and
after and the result are related. -/
def Writes {m : Type → Type} [Monad m] [Building m] (e : Builder) (k : Nat)
    (x : m α) (related : Site → α → Site → Prop) : Prop :=
  ∀ ⦃s a s'⦄, Runs x s a s' →
    s.Works (fun _ => True) s' ∧
    (s.Inside k → s'.builder.Ahead k e → related s a s')

namespace Writes

variable {m n : Type → Type} [Monad m] [Building m] [Monad n] [Building n]
  {e : Builder} {k : Nat}

theorem of_adds {x : m α} {related : Site → α → Site → Prop}
    (hknown : ∀ ⦃s a s'⦄, Runs x s a s' →
        s.Adds s' ∧ (s'.builder.Before e → related s a s')) :
    Writes e k x related := by
  intro s a s' hran
  obtain ⟨hadds, hholds⟩ := hknown hran
  exact ⟨hadds.works, fun _ hahead => hholds hahead.before⟩

theorem bind {x : m α} {f : α → m β} {first : Site → α → Site → Prop}
    {second : α → Site → β → Site → Prop} (hone : Writes e k x first)
    (hother : ∀ a, Writes e k (f a) (second a)) :
    Writes e k (x >>= f) fun s b s'' =>
      ∃ a s', first s a s' ∧ second a s' b s'' := by
  intro s b s'' hran
  obtain ⟨a, s', hran, hran'⟩ := runs_bind.1 hran
  obtain ⟨hworking, hrelated⟩ := hone hran
  obtain ⟨hworking', hrelated'⟩ := hother a hran'
  refine ⟨hworking.trans hworking', fun hinside hahead => ?_⟩
  have hinside' := hworking.inside hinside
  exact ⟨a, s', hrelated hinside (hworking'.ahead hinside' hahead),
    hrelated' hinside' hahead⟩

theorem imp {x : m α} {related weaker : Site → α → Site → Prop}
    (hwrites : Writes e k x related)
    (hweaken : ∀ s a s', related s a s' → weaker s a s') :
    Writes e k x weaker := by
  intro s a s' hran
  obtain ⟨hworks, hholds⟩ := hwrites hran
  exact ⟨hworks, fun hinside hahead => hweaken s a s' (hholds hinside hahead)⟩

theorem lift [MonadLiftT m n] [LiftsRuns m n] {x : m α}
    {related : Site → α → Site → Prop} (hwrites : Writes e k x related) :
    Writes e k (liftM x : n α) related :=
  fun _ _ _ hran => hwrites (runs_lift.1 hran)

theorem discard [LawfulMonad m] {x : m α} {related : Site → α → Site → Prop}
    (hwrites : Writes e k x related) :
    Writes e k (Functor.discard x) fun s _ s' => ∃ a, related s a s' := by
  intro s u s' hran
  obtain ⟨a, hran⟩ := runs_discard.1 hran
  obtain ⟨hworks, hholds⟩ := hwrites hran
  exact ⟨hworks, fun hinside hahead => ⟨a, hholds hinside hahead⟩⟩

end Writes

/-! ## Computations that only make values -/

/-- What is written has no call that matters. If the finished package is as
required before, it has the property of the result. -/
def Emits {m : Type → Type} [Monad m] [Building m] (e : Builder) (k : Nat)
    (pre : Prop) (x : m α) (post : α → Prop) :
    Prop :=
  Writes e k x fun s a s' => pre → s.Calls e [] s' ∧ post a

namespace Emits

variable {m n : Type → Type} [Monad m] [Building m] [Monad n] [Building n]
  {e : Builder} {k : Nat} {pre : Prop}

theorem of_adds {x : m α} {post : α → Prop}
    (hknown : ∀ ⦃s a s'⦄, Runs x s a s' →
        s.Adds s' ∧ (pre → s'.builder.Before e → post a)) :
    Emits e k pre x post := by
  refine Writes.of_adds fun s a s' hran => ?_
  obtain ⟨hadds, hholds⟩ := hknown hran
  exact ⟨hadds, fun hbefore hgiven => ⟨.of_adds hadds, hholds hgiven hbefore⟩⟩

theorem pure {a : α} {post : α → Prop} (hholds : pre → post a) :
    Emits e k pre (Pure.pure a : m α) post := by
  refine of_adds fun s b s' hran => ?_
  obtain ⟨rfl, rfl⟩ := runs_pure.1 hran
  exact ⟨.refl _, fun hgiven _ => hholds hgiven⟩

theorem bind {x : m α} {f : α → m β} {inner : α → Prop} {post : β → Prop}
    (hfirst : Emits e k pre x inner)
    (hnext : ∀ a, Emits e k (inner a) (f a) post) :
    Emits e k pre (x >>= f) post := by
  refine (Writes.bind hfirst hnext).imp ?_
  rintro s b s'' ⟨a, s', hmade, hmade'⟩ hgiven
  obtain ⟨hcalls, hholds⟩ := hmade hgiven
  obtain ⟨hcalls', hholds'⟩ := hmade' hholds
  exact ⟨hcalls.trans hcalls', hholds'⟩

theorem imp {x : m α} {post weaker : α → Prop} (hemits : Emits e k pre x post)
    (hweaken : ∀ a, post a → weaker a) : Emits e k pre x weaker :=
  Writes.imp hemits fun _ a _ hmade hgiven =>
    (hmade hgiven).imp_right (hweaken a)

theorem given {x : m α} {post : α → Prop} {stronger : Prop}
    (hemits : Emits e k pre x post) (henough : stronger → pre) :
    Emits e k stronger x post :=
  Writes.imp hemits fun _ _ _ hmade hknown => hmade (henough hknown)

theorem frame {x : m α} {post : α → Prop} (hemits : Emits e k pre x post) :
    Emits e k pre x fun a => pre ∧ post a :=
  Writes.imp hemits fun _ _ _ hmade hgiven =>
    (hmade hgiven).imp_right fun hholds => ⟨hgiven, hholds⟩

theorem lift [MonadLiftT m n] [LiftsRuns m n] {x : m α} {post : α → Prop}
    (hemits : Emits e k pre x post) : Emits e k pre (liftM x : n α) post :=
  Writes.lift hemits

theorem discard [LawfulMonad m] {x : m α} {post : α → Prop}
    (hemits : Emits e k pre x post) :
    Emits e k pre (Functor.discard x) fun _ => True := by
  refine (Writes.discard hemits).imp ?_
  rintro s u s' ⟨a, hmade⟩ hgiven
  exact ⟨(hmade hgiven).1, trivial⟩

theorem forM {f : α → m PUnit} {list : List α}
    (heach : ∀ a ∈ list, Emits e k pre (f a) fun _ => pre) :
    Emits e k pre (list.forM f) fun _ => pre := by
  induction list with
  | nil => exact pure id
  | cons a rest ih =>
      refine bind (heach a (List.mem_cons_self ..)) fun _ =>
        ih fun b hmember => ?_
      exact heach b (List.mem_cons_of_mem a hmember)

end Emits

end SchemaLint
