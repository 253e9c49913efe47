import SchemaLint.Proofs.Build.Interning
import SchemaLint.Proofs.Walk.Reach

/-!
# Numbers keep their meaning

A number that a builder gave out stands for the same thing from then on. Types
may be given other underlying types, values other names, and functions longer
bodies. One value at most stands for a function, and the builder's table of
these values has exactly them, so that a call that was written for a function is
known to go to it in every later package.
-/

namespace SchemaLint

/-! ## What stays -/

theorem BlocksExtend.trans {one two three : List Block}
    (hfirst : BlocksExtend one two) (hsecond : BlocksExtend two three) :
    BlocksExtend one three := by
  intro index block hfound
  obtain ⟨more, hfound⟩ := hfirst index block hfound
  obtain ⟨last, hfound⟩ := hsecond index _ hfound
  exact ⟨more ++ last, by rw [hfound, List.append_assoc]⟩

namespace Func.Extends

variable {f g h : Func}

theorem refl (f : Func) : f.Extends f := ⟨rfl, id, .refl f.body⟩

theorem trans (hfirst : f.Extends g) (hsecond : g.Extends h) : f.Extends h where
  header := by rw [SameHeader, hsecond.header, hfirst.header]
  defined := hsecond.defined ∘ hfirst.defined
  body := hfirst.body.trans hsecond.body

end Func.Extends

/-- What has a number in the first package has it in the second: a type, which
may have another underlying type if it is named, a value, which may have another
name, and a function, with a body that may be longer. -/
structure Package.Kept (p q : Package) : Prop where
  types : ∀ id type, p.typeAt id = .ok type →
      ∃ underlying, q.typeAt id = .ok (type.withUnderlying underlying)
  values : ∀ id value, p.valueAt id = .ok value →
      ∃ name, q.valueAt id = .ok { value with name }
  functions :
    ∀ id f, p.funcAt id = .ok f → ∃ g, q.funcAt id = .ok g ∧ f.Extends g

namespace Package.Kept

variable {p q r : Package}

theorem refl (p : Package) : p.Kept p where
  types _ type hfound := by
    obtain ⟨underlying, hsame⟩ := type.exists_eq_withUnderlying
    exact ⟨underlying, hsame ▸ hfound⟩
  values _ value hfound := ⟨value.name, hfound⟩
  functions _ f hfound := ⟨f, hfound, .refl f⟩

theorem trans (hfirst : p.Kept q) (hsecond : q.Kept r) : p.Kept r where
  types id type hfound := by
    obtain ⟨between, hfound⟩ := hfirst.types id type hfound
    obtain ⟨underlying, hfound⟩ := hsecond.types id _ hfound
    exact ⟨underlying, by rw [hfound, Ty.withUnderlying_withUnderlying]⟩
  values id value hfound := by
    obtain ⟨between, hfound⟩ := hfirst.values id value hfound
    obtain ⟨name, hfound⟩ := hsecond.values id _ hfound
    exact ⟨name, hfound⟩
  functions id f hfound := by
    obtain ⟨g, hfound, hfirst⟩ := hfirst.functions id f hfound
    obtain ⟨h, hfound, hsecond⟩ := hsecond.functions id g hfound
    exact ⟨h, hfound, hfirst.trans hsecond⟩

end Package.Kept

namespace Builder

variable {may : TypeId → TypeId → Prop} {b e : Builder}

private theorem valueAt_naming {value id : ValueId} {text : String}
    {old : Value} (hfound : b.package.valueAt id = .ok old) :
    ∃ name, (b.naming value text).package.valueAt id =
      .ok { old with name } := by
  rw [Package.valueAt_eq_ok_iff] at hfound
  simp only [Package.valueAt_eq_ok_iff, naming, Array.getElem?_modify, hfound]
  split
  · exact ⟨some text, rfl⟩
  · exact ⟨old.name, rfl⟩

theorem Move.kept (hmove : b.Move may e) : b.package.Kept e.package := by
  have hsame := Package.Kept.refl b.package
  have hunchanged {p : Package} {id : TypeId} {type : Ty}
      (hfound : p.typeAt id = .ok type) :=
    (Package.Kept.refl p).types id type hfound
  cases hmove with
  | intern | declare =>
      exact { hsame with
        types := fun _ _ hfound => hunchanged (Package.typeAt_push hfound _) }
  | @redefine named underlying =>
      refine { hsame with types := fun id type hfound => ?_ }
      have hentry : (b.redefining named underlying).package.typeAt id = .ok _ :=
        typeAt_redefining.2 ⟨type, hfound, rfl⟩
      split at hentry
      · exact ⟨underlying, hentry⟩
      · exact hunchanged hentry
  | locate => exact { hsame with }
  | push | refer =>
      exact { hsame with
        values :=
          fun _ value hfound => ⟨value.name, Package.valueAt_push hfound _⟩ }
  | name => exact { hsame with values := fun _ _ => valueAt_naming }
  | add =>
      exact { hsame with
        functions :=
          fun _ f hfound => ⟨f, funcAt_adding.2 (.inl hfound), .refl f⟩ }
  | change hextended =>
      refine { hsame with
        functions :=
          fun id f hfound => ⟨_, funcAt_changing.2 ⟨f, hfound, rfl⟩, ?_⟩ }
      split
      · exact hextended f
      · exact .refl f

theorem Moves.kept (hmoves : b.Moves may e) : b.package.Kept e.package := by
  induction hmoves with
  | refl => exact .refl b.package
  | tail _ hmove ih => exact ih.trans hmove.kept

end Builder

/-! ## Places of instructions -/

/-- Where an instruction stands: in a block of a function, both numbered, and
under its own number there. -/
structure Place where
  func : FuncId
  block : Nat
  index : Nat

def Package.instructionAt? (p : Package) (place : Place) :
    Option Instruction := do
  let f ← p.functions[place.func.index]?
  let block ← f.body[place.block]?
  block.instructions[place.index]?

namespace Package

variable {p q : Package} {place : Place} {i : Instruction}

theorem instructionAt?_eq_some_iff :
    p.instructionAt? place = some i ↔ ∃ f block, p.funcAt place.func = .ok f ∧
        f.body[place.block]? = some block ∧
        block.instructions[place.index]? = some i := by
  simp only [instructionAt?, bind, Option.bind_eq_some_iff, funcAt_eq_ok_iff,
    exists_and_left]

theorem hasFunc_iff {id : FuncId} : p.HasFunc id ↔ ∃ f, p.funcAt id = .ok f :=
  ⟨fun hhas => ⟨_, funcAt_eq_ok_iff.2 (Array.getElem?_eq_getElem hhas)⟩,
    fun ⟨_, hfound⟩ => funcAt_bound hfound⟩

namespace Kept

variable (hkept : p.Kept q)

include hkept

theorem operationAt {id : ValueId} {operation : Operation}
    (hfound : p.operationAt id = .ok operation) :
    q.operationAt id = .ok operation := by
  obtain ⟨value, hknown, rfl⟩ := operationAt_eq_ok_iff.1 hfound
  obtain ⟨name, hlater⟩ := hkept.values id value hknown
  exact operationAt_eq_ok_iff.2 ⟨_, hlater, rfl⟩

theorem hasFunc {id : FuncId} (hhas : p.HasFunc id) : q.HasFunc id := by
  obtain ⟨f, hfound⟩ := hasFunc_iff.1 hhas
  obtain ⟨g, hlater, -⟩ := hkept.functions id f hfound
  exact hasFunc_iff.2 ⟨g, hlater⟩

theorem instructionAt? (hfound : p.instructionAt? place = some i) :
    q.instructionAt? place = some i := by
  obtain ⟨f, block, hfunc, hinBody, hinBlock⟩ :=
    instructionAt?_eq_some_iff.1 hfound
  obtain ⟨g, hlater, hextended⟩ := hkept.functions _ f hfunc
  obtain ⟨more, hgrown⟩ := hextended.body place.block block hinBody
  refine instructionAt?_eq_some_iff.2 ⟨g, _, hlater, hgrown, ?_⟩
  rw [List.getElem?_append_left (List.getElem?_eq_some_iff.1 hinBlock).1,
    hinBlock]

theorem callSite? {site : CallSite} (hfound : p.callSite? i = .ok (some site)) :
    q.callSite? i = .ok (some site) := by
  cases i with
  | define id =>
      obtain ⟨value, hknown, hfound⟩ := Access.bind_eq_ok_iff.1 hfound
      obtain ⟨name, hlater⟩ := hkept.values id value hknown
      exact Access.bind_eq_ok_iff.2 ⟨_, hlater, hfound⟩
  | _ => exact hfound

theorem staticCallee? {call : Call} {f : FuncId}
    (hfound : p.staticCallee? call = .ok (some f)) :
    q.staticCallee? call = .ok (some f) := by
  rw [staticCallee?_eq_some_iff] at hfound ⊢
  cases hfound with
  | function hplain htarget =>
      exact .function hplain (hkept.operationAt htarget)
  | closure hplain htarget hclosed =>
      exact .closure hplain (hkept.operationAt htarget)
        (hkept.operationAt hclosed)

end Kept

end Package

theorem exists_place_appendAt (block : Nat) (i : Instruction)
    (blocks : List Block) :
    ∃ (number index : Nat) (last : Block), (∀ old : Block, blocks[number]? =
          some old → old.instructions[index]? = none) ∧
      (appendAt block i blocks)[number]? = some last ∧
      last.instructions[index]? = some i := by
  cases blocks with
  | nil => exact ⟨0, 0, ⟨[i]⟩, by simp, by simp [appendAt], rfl⟩
  | cons first rest =>
      have hinside : min block rest.length < (first :: rest).length :=
        Nat.lt_succ_of_le (Nat.min_le_right block rest.length)
      obtain ⟨old, hfound⟩ : ∃ old, (first :: rest)[min block rest.length]? =
          some old :=
        ⟨_, List.getElem?_eq_getElem hinside⟩
      refine ⟨min block rest.length, old.instructions.length,
        ⟨old.instructions ++ [i]⟩, ?_, ?_, by simp⟩
      · rintro other hsame
        cases hfound.symm.trans hsame
        simp
      · simp only [appendAt, List.isEmpty_cons, Bool.false_eq_true, ↓reduceIte,
          List.length_cons, Nat.add_sub_cancel, List.getElem?_modify_eq, hfound,
          Option.map_eq_map, Option.map_some]

/-! ## Values that stand for functions -/

/-- The value and no other stands for the function. -/
def Package.StandsFor (p : Package) (value : ValueId) (f : FuncId) : Prop :=
  ∀ other, p.operationAt other = .ok (.function f) ↔ other = value

namespace Builder

variable {may : TypeId → TypeId → Prop} {b e : Builder}

def Referred (b : Builder) : Prop :=
  ∀ f value, b.funcRefs.lookup f = some value ↔
    b.package.operationAt value = .ok (.function f)

theorem operationAt_pushing_iff {value : Value} {id : ValueId}
    {operation : Operation} :
    (b.pushing value).package.operationAt id = .ok operation ↔
      b.package.operationAt id = .ok operation ∨
        id = ⟨b.package.values.size⟩ ∧ value.operation = operation := by
  obtain ⟨index⟩ := id
  simp only [Package.operationAt_eq_ok_iff, Package.valueAt_eq_ok_iff, pushing,
    Array.getElem?_push]
  split
  · next hlast =>
      subst hlast
      simp
  · next hother => simp [hother]

private theorem operationAt_naming {value id : ValueId} {text : String} :
    (b.naming value text).package.operationAt id =
      b.package.operationAt id := by
  simp only [Package.operationAt, Package.valueAt, naming,
    Array.getElem?_modify]
  by_cases hsame : value.index = id.index
  · rw [if_pos hsame]
    cases b.package.values[id.index]? <;> rfl
  · rw [if_neg hsame]

namespace Referred

theorem new (path : String) : (Builder.new path).Referred := by
  intro f value
  simp [Builder.new, Package.operationAt_eq_ok_iff, Package.valueAt_eq_ok_iff]

theorem standsFor (hreferred : b.Referred) {f : FuncId} {value : ValueId}
    (hfound : b.package.operationAt value = .ok (.function f)) :
    b.package.StandsFor value f := by
  intro other
  rw [← hreferred f other, (hreferred f value).2 hfound, Option.some.injEq,
    eq_comm]

theorem move (hreferred : b.Referred) (hmove : b.Move may e) : e.Referred := by
  intro f value
  cases hmove with
  | intern | declare | redefine | locate | add | change =>
      exact hreferred f value
  | @push new hplain =>
      have hother : new.operation ≠ .function f := by
        intro hsame
        simp [hsame, Operation.isFunction] at hplain
      refine (hreferred f value).trans ?_
      simp only [operationAt_pushing_iff, hother, and_false, or_false]
  | name =>
      rw [operationAt_naming]
      exact hreferred f value
  | @refer func g hnew =>
      refine lookup_cons_eq_some_iff.trans
        (.trans ?_ operationAt_pushing_iff.symm)
      rw [← hreferred f value]
      grind

end Referred

end Builder

/-! ## Written calls -/

/-- An instruction for the call was put into the function of the cursor, at a
place where none stood. -/
def Site.WroteCall (call : Call) (s s' : Site) : Prop :=
  ∃ place i site, place.func = s.cursor.func ∧
    s.builder.package.instructionAt? place = none ∧
    s'.builder.package.instructionAt? place = some i ∧
    s'.builder.package.callSite? i = .ok (some site) ∧
    site.call = call

theorem Site.WroteCall.after {may : TypeId → TypeId → Prop} {s s' s'' : Site}
    {call : Call} (hwrote : s'.WroteCall call s'') (hmoves : s.Moves may s') :
    s.WroteCall call s'' := by
  obtain ⟨place, i, site, hfunc, hfree, htaken, hisCall, hsame⟩ := hwrote
  refine ⟨place, i, site, hfunc.trans hmoves.func, ?_, htaken, hisCall, hsame⟩
  refine Option.eq_none_iff_forall_ne_some.2 fun other hbefore => ?_
  rw [hmoves.builder.kept.instructionAt? hbefore] at hfree
  cases hfree

theorem Site.Moves.hasFunc {may : TypeId → TypeId → Prop} {s s' : Site}
    (hmoves : s.Moves may s') (hhas : s.builder.package.HasFunc s.cursor.func) :
    s'.builder.package.HasFunc s'.cursor.func := by
  rw [hmoves.func]
  exact hmoves.builder.kept.hasFunc hhas

private theorem Build.operationAt_of_funcRef {s s' : Site} {f : FuncId}
    {value : ValueId} (hran : Runs (funcRef f) s value s')
    (hreferred : s.builder.Referred) :
    s'.builder.package.operationAt value = .ok (.function f) := by
  obtain ⟨hknown, rfl⟩ | ⟨-, g, -, rfl, rfl⟩ := runs_funcRef_cases hran
  · exact (hreferred f value).1 hknown
  · exact Builder.operationAt_pushing_iff.2 (.inr ⟨rfl, rfl⟩)

namespace Body

variable {s s' : Site} {call : Call} {u : Unit} {i : Instruction}

theorem exists_place_of_push (hran : Runs (push i) s u s')
    (hhas : s.builder.package.HasFunc s.cursor.func) :
    ∃ place, place.func = s.cursor.func ∧
      s.builder.package.instructionAt? place = none ∧
      s'.builder.package.instructionAt? place = some i := by
  obtain ⟨f, hfound⟩ := Package.hasFunc_iff.1 hhas
  obtain ⟨number, index, last, hfree, hinBody, hinBlock⟩ :=
    exists_place_appendAt s.cursor.block i f.body
  rw [runs_push hran]
  refine ⟨⟨s.cursor.func, number, index⟩, rfl, ?_, ?_⟩
  · refine Option.eq_none_iff_forall_ne_some.2 fun other htaken => ?_
    obtain ⟨g, old, hagain, hinBody, hinBlock⟩ :=
      Package.instructionAt?_eq_some_iff.1 htaken
    cases hfound.symm.trans hagain
    cases (hfree old hinBody).symm.trans hinBlock
  · refine Package.instructionAt?_eq_some_iff.2
      ⟨_, last, Builder.funcAt_changing.2 ⟨f, hfound, rfl⟩, ?_, hinBlock⟩
    rw [if_pos rfl]
    exact hinBody

theorem define_wroteCall {type : TypeId} {value : ValueId}
    (hran : Runs (define (.call call) type) s value s')
    (hhas : s.builder.package.HasFunc s.cursor.func) : s.WroteCall call s' := by
  obtain ⟨-, -, hfound⟩ := runs_define hran
  obtain ⟨s₁, u, hpushed, hwritten⟩ := runs_define_parts hran
  have hmoves : s.Moves (fun _ _ => True) s₁ :=
    Build.pushValue_moves _ rfl hpushed
  obtain ⟨place, hfunc, hfree, htaken⟩ :=
    exists_place_of_push hwritten (hmoves.hasFunc hhas)
  have hwrote : s₁.WroteCall call s' :=
    ⟨place, .define value, _, hfunc, hfree, htaken,
      Access.bind_eq_ok_iff.2 ⟨_, hfound, rfl⟩, rfl⟩
  exact hwrote.after hmoves

theorem pushAt_wroteCall {instruction : Pos → Instruction}
    (hisCall : ∀ (p : Package) pos, p.callSite? (instruction pos) =
        .ok (some ⟨call, none, pos⟩))
    (hran : Runs (do push (instruction (← get).pos) : Body Unit) s u s')
    (hhas : s.builder.package.HasFunc s.cursor.func) : s.WroteCall call s' := by
  obtain ⟨c, s₁, hgot, hran⟩ := runs_bind.1 hran
  obtain ⟨rfl, rfl⟩ := runs_get_cursor.1 hgot
  obtain ⟨place, hfunc, hfree, htaken⟩ := exists_place_of_push hran hhas
  exact ⟨place, _, _, hfunc, hfree, htaken, hisCall _ _, rfl⟩

private theorem callValue_wroteCall {target value : ValueId}
    {args : List ValueId} {results : List TypeId}
    (hran : Runs (callValue target args results) s value s')
    (hhas : s.builder.package.HasFunc s.cursor.func) :
    s.WroteCall ⟨target, none, args⟩ s' := by
  obtain ⟨type, s₁, htyped, hran⟩ := runs_bind.1 hran
  have hmoves : s.Moves (fun _ _ => True) s₁ := resultType_moves results htyped
  exact (define_wroteCall hran (hmoves.hasFunc hhas)).after hmoves

theorem operationAt_of_funcRef {f : FuncId} {rest : ValueId → Body α} {a : α}
    (hran : Runs (do rest (← Build.funcRef f) : Body α) s a s')
    (hreferred : s.builder.Referred)
    (hmoves : ∀ ref, Preserves (Site.Moves fun _ _ => True) (rest ref)) :
    ∃ ref s₁, s.Moves (fun _ _ => True) s₁ ∧ Runs (rest ref) s₁ a s' ∧
      s'.builder.package.operationAt ref = .ok (.function f) := by
  obtain ⟨ref, s₁, hfound, hran⟩ := runs_bind.1 hran
  have htarget := Build.operationAt_of_funcRef (runs_lift.1 hfound) hreferred
  exact ⟨ref, s₁, Build.funcRef_moves f (runs_lift.1 hfound), hran,
    (hmoves ref hran).builder.kept.operationAt htarget⟩

/-- The operations that call a function write a call whose target stands for the
function. -/
theorem Op.wroteCall {op : Op} {f : FuncId} {args : List ValueId} {ids : Ids}
    (hmember : op ∈ [.call f args, .defer f args, .go f args])
    (hran : Runs op.run s ids s') (hreferred : s.builder.Referred)
    (hhas : s.builder.package.HasFunc s.cursor.func) :
    ∃ ref, s'.builder.package.operationAt ref = .ok (.function f) ∧
      s.WroteCall ⟨ref, none, args⟩ s' := by
  simp only [List.mem_cons, List.not_mem_nil, or_false] at hmember
  rcases hmember with rfl | rfl | rfl
  all_goals
    obtain ⟨a, s₀, hran, hdone⟩ := runs_bind.1 hran
    obtain ⟨-, rfl⟩ := runs_pure.1 hdone
  · obtain ⟨results, s₁, hasked, hran⟩ := runs_bind.1 hran
    obtain ⟨type, s₂, htyped, hran⟩ := runs_bind.1 hran
    have hbefore : s.Moves (fun _ _ => True) s₂ :=
      IsTrans.trans _ _ _ (ask_moves _ hasked) (resultType_moves _ htyped)
    obtain ⟨ref, s₃, hmoves, hran, htarget⟩ :=
      operationAt_of_funcRef hran (hbefore.builder.inv hreferred .move)
        fun _ => define_moves _ _ rfl
    refine ⟨ref, htarget,
      .after (.after (define_wroteCall hran ?_) hmoves) hbefore⟩
    exact hmoves.hasFunc (hbefore.hasFunc hhas)
  -- A defer and a go statement differ in the instruction only.
  all_goals
    obtain ⟨ref, s₁, hmoves, hran, htarget⟩ :=
      operationAt_of_funcRef hran hreferred fun _ => pushAt_moves _
    exact ⟨ref, htarget, .after
        (pushAt_wroteCall (fun _ _ => rfl) hran (hmoves.hasFunc hhas)) hmoves⟩

private theorem runs_makeClosure {f : FuncId} {bindings : List ValueId}
    {closure : ValueId} (hran : Runs (makeClosure f bindings) s closure s')
    (hreferred : s.builder.Referred) :
    ∃ ref, s'.builder.package.operationAt closure =
        .ok (.makeClosure ref bindings) ∧
      s'.builder.package.operationAt ref = .ok (.function f) := by
  obtain ⟨g, s₁, hasked, hclosing⟩ := runs_bind.1 hran
  obtain ⟨-, rfl⟩ := runs_ask.1 (runs_lift.1 hasked)
  obtain ⟨ref, s₂, -, hdefined, htarget⟩ :=
    operationAt_of_funcRef hclosing hreferred fun _ => define_moves _ _ rfl
  obtain ⟨-, -, hfound⟩ := runs_define hdefined
  exact ⟨ref, Package.operationAt_eq_ok_iff.2 ⟨_, hfound, rfl⟩, htarget⟩

end Body

/-! ## Sessions -/

namespace Session

variable {s s' : Session}

def Attached (s : Session) : Prop :=
  ∀ cursor ∈ s.cursors, s.builder.package.HasFunc cursor.func

theorem run_kept {steps : List Step} {final : Session}
    (hran : s.run steps = .ok final) :
    s.builder.package.Kept final.builder.package :=
  (run_moves hran).kept

private theorem run_referred {path : String} {steps : List Step}
    (hran : (Session.new path).run steps = .ok s) : s.builder.Referred :=
  run_inv hran (.new path) .move

private theorem attached_new (path : String) : (Session.new path).Attached := by
  simp [Attached, Session.new]

theorem Attached.opened {func : FuncId} (hattached : s.Attached)
    (hopened : s.opened func = .ok s') : s'.Attached := by
  obtain ⟨f, hfound, hsame⟩ := Access.bind_eq_ok_iff.1 hopened
  cases hsame
  exact List.forall_mem_cons.2 ⟨Package.hasFunc_iff.2 ⟨f, hfound⟩, hattached⟩

theorem Attached.step {step : Step} (hattached : s.Attached)
    (hstepped : s.step step = .ok s') : s'.Attached := by
  have hkept := (step_moves hstepped).kept
  have hstill (cursor : Cursor) (hmember : cursor ∈ s.cursors) :
      s'.builder.package.HasFunc cursor.func :=
    hkept.hasFunc (hattached cursor hmember)
  cases step with
  | build op =>
      obtain ⟨⟨ids, b⟩, -, hsame⟩ := Access.bind_eq_ok_iff.1 hstepped
      cases hsame
      exact hstill
  | body func => exact hattached.opened hstepped
  | function name params results =>
      obtain ⟨⟨func, b⟩, -, hopened⟩ := Access.bind_eq_ok_iff.1 hstepped
      rw [builder_of_opened hopened] at hstill
      refine Attached.opened ?_ hopened
      exact hstill
  | write op =>
      cases hisOpen : s.cursors with
      | nil =>
          simp only [Session.step, hisOpen] at hstepped
          cases hstepped
          exact hstill
      | cons cursor outer =>
          obtain ⟨ids, moved, b, hruns, rfl⟩ := runs_of_write hisOpen hstepped
          have hmoves : (siteOf s.builder cursor).Moves (fun _ _ => True)
              (siteOf b moved) := Body.Op.run_moves op hruns
          have hofCursor : s.builder.package.HasFunc cursor.func :=
            hattached cursor (by simp [hisOpen])
          refine List.forall_mem_cons.2
            ⟨hmoves.hasFunc hofCursor, fun other hmember => hstill other ?_⟩
          simp [hisOpen, hmember]
  | leave =>
      cases hstepped
      exact fun cursor hmember => hstill cursor (List.mem_of_mem_tail hmember)

theorem Attached.run {steps : List Step} (hattached : s.Attached)
    (hran : s.run steps = .ok s') : s'.Attached := by
  induction steps generalizing s with
  | nil =>
      cases hran
      exact hattached
  | cons first rest ih =>
      obtain ⟨next, hstepped, hran⟩ := run_cons.1 hran
      exact ih (hattached.step hstepped) hran

/-- Between the two states an instruction was put into the body, at a place
where none stood. From then on it stays there and is the call, which is known to
go to the function. -/
def PlacesCall (s next : Session) (body : FuncId) (call : Call) (f : FuncId) :
    Prop :=
  ∃ place i, place.func = body ∧ s.builder.package.instructionAt? place = none ∧
    ∀ after final, next.run after = .ok final →
      final.builder.package.instructionAt? place = some i ∧
      (∃ site, final.builder.package.callSite? i = .ok (some site) ∧
        site.call = call) ∧
      final.builder.package.staticCallee? call = .ok (some f)

variable {next : Session} {cursor : Cursor} {outer : List Cursor} {f : FuncId}
  {args : List ValueId}

theorem placesCall_of_wroteCall {call : Call} {moved : Cursor}
    (hwrote :
      (siteOf s.builder cursor).WroteCall call (siteOf next.builder moved))
    (hresolves : next.builder.package.ResolvesTo call f) :
    s.PlacesCall next cursor.func call f := by
  obtain ⟨place, i, site, hfunc, hfree, htaken, hisCall, hsame⟩ := hwrote
  refine ⟨place, i, hfunc, hfree, fun after final hran => ?_⟩
  have hkept := run_kept hran
  have hcallee := Package.staticCallee?_eq_some_iff.2 hresolves
  exact ⟨hkept.instructionAt? htaken, ⟨site, hkept.callSite? hisCall, hsame⟩,
    hkept.staticCallee? hcallee⟩

section

variable (hreferred : s.builder.Referred) (hattached : s.Attached)
  (hisOpen : s.cursors = cursor :: outer)

include hattached hisOpen

theorem hasFunc_of_isOpen : s.builder.package.HasFunc cursor.func :=
  hattached cursor (by simp [hisOpen])

private theorem callValue_placesCall {closure ref : ValueId}
    {bindings : List ValueId} {results : List TypeId}
    (hstepped : s.step (.write (.callValue closure args results)) = .ok next)
    (hmade :
      s.builder.package.operationAt closure = .ok (.makeClosure ref bindings))
    (htarget : s.builder.package.operationAt ref = .ok (.function f)) :
    s.PlacesCall next cursor.func ⟨closure, none, args⟩ f := by
  have hkept := (step_moves hstepped).kept
  have hresolves : next.builder.package.ResolvesTo ⟨closure, none, args⟩ f :=
    .closure rfl (hkept.operationAt hmade) (hkept.operationAt htarget)
  obtain ⟨ids, moved, b, hruns, rfl⟩ := runs_of_write hisOpen hstepped
  obtain ⟨value, s₁, hcalled, hdone⟩ := runs_bind.1 hruns
  obtain ⟨-, rfl⟩ := runs_pure.1 hdone
  have hhas : s.builder.package.HasFunc cursor.func :=
    hasFunc_of_isOpen hattached hisOpen
  exact placesCall_of_wroteCall (Body.callValue_wroteCall hcalled hhas)
    hresolves

include hreferred

private theorem call_placesCall {op : Body.Op}
    (hmember : op ∈ [.call f args, .defer f args, .go f args])
    (hstepped : s.step (.write op) = .ok next) :
    ∃ ref, next.builder.package.operationAt ref = .ok (.function f) ∧
      s.PlacesCall next cursor.func ⟨ref, none, args⟩ f := by
  obtain ⟨ids, moved, b, hruns, rfl⟩ := runs_of_write hisOpen hstepped
  have hhas : s.builder.package.HasFunc cursor.func :=
    hasFunc_of_isOpen hattached hisOpen
  obtain ⟨ref, htarget, hwrote⟩ :=
    Body.Op.wroteCall hmember hruns hreferred hhas
  exact ⟨ref, htarget, placesCall_of_wroteCall hwrote (.function rfl htarget)⟩

end

private theorem makeClosure_issues {bindings : List ValueId}
    (hreferred : s.builder.Referred) (hisOpen : s.cursors = cursor :: outer)
    (hstepped : s.step (.write (.makeClosure f bindings)) = .ok next) :
    ∃ closure ref, next.issued = s.issued.append (.value closure) ∧
      next.builder.package.operationAt closure =
        .ok (.makeClosure ref bindings) ∧
      next.builder.package.operationAt ref = .ok (.function f) := by
  obtain ⟨ids, moved, b, hruns, rfl⟩ := runs_of_write hisOpen hstepped
  obtain ⟨closure, s₁, hclosed, hdone⟩ := runs_bind.1 hruns
  obtain ⟨rfl, rfl⟩ := runs_pure.1 hdone
  obtain ⟨ref, hmade, htarget⟩ := Body.runs_makeClosure hclosed hreferred
  exact ⟨closure, ref, rfl, hmade, htarget⟩

/-- In every state of a builder, and whatever is done next: all numbers keep
their meaning; a call, a defer or a go of a function puts an instruction that is
known to call this function ever after, through the one value that stands for
it; and so does a call of a closure over the function, whenever it comes. -/
theorem numbers_keep_meaning (path : String) (before : List Step) {s : Session}
    (hran : (Session.new path).run before = .ok s) :
    (∀ after final, s.run after = .ok final →
        s.builder.package.Kept final.builder.package) ∧
      (∀ f args,
        ∀ op ∈ [Body.Op.call f args, .defer f args, .go f args],
          ∀ cursor outer next, s.cursors = cursor :: outer →
            s.step (.write op) = .ok next →
            ∃ ref, s.PlacesCall next cursor.func ⟨ref, none, args⟩ f ∧
              ∀ after final, next.run after = .ok final →
                final.builder.package.StandsFor ref f) ∧
      ∀ f bindings cursor outer next, s.cursors = cursor :: outer →
        s.step (.write (.makeClosure f bindings)) = .ok next →
        ∃ closure ref, next.issued = s.issued.append (.value closure) ∧
          ∀ after mid, next.run after = .ok mid →
            mid.builder.package.operationAt closure =
                .ok (.makeClosure ref bindings) ∧
              mid.builder.package.StandsFor ref f ∧
              ∀ args results cursor outer later, mid.cursors = cursor :: outer →
                mid.step (.write (.callValue closure args results)) =
                  .ok later →
                mid.PlacesCall later cursor.func ⟨closure, none, args⟩ f := by
  have hreferred := run_referred hran
  have hattached := (attached_new path).run hran
  refine ⟨fun after final => run_kept,
    fun f args op hmember cursor outer next hisOpen hstepped => ?_,
    fun f bindings cursor outer next hisOpen hstepped => ?_⟩
  · obtain ⟨ref, htarget, hplaced⟩ :=
      call_placesCall hreferred hattached hisOpen hmember hstepped
    refine ⟨ref, hplaced, fun after final hlater => ?_⟩
    have hreferred : final.builder.Referred :=
      run_inv hlater ((step_moves hstepped).inv hreferred .move) .move
    exact hreferred.standsFor ((run_kept hlater).operationAt htarget)
  · obtain ⟨closure, ref, hissued, hmade, htarget⟩ :=
      makeClosure_issues hreferred hisOpen hstepped
    refine ⟨closure, ref, hissued, fun after mid hlater => ?_⟩
    have hmade := (run_kept hlater).operationAt hmade
    have htarget := (run_kept hlater).operationAt htarget
    have hreferred : mid.builder.Referred :=
      run_inv hlater ((step_moves hstepped).inv hreferred .move) .move
    have hattached : mid.Attached := (hattached.step hstepped).run hlater
    refine ⟨hmade, hreferred.standsFor htarget,
      fun args results cursor outer last hisOpen hcalled => ?_⟩
    exact callValue_placesCall hattached hisOpen hcalled hmade htarget

private theorem exists_run_of_view {path : String} {steps : List Step}
    {view : Session → α} {a : α}
    (hseen : ((Session.new path).run steps).toOption.map view = some a) :
    ∃ s, (Session.new path).run steps = .ok s ∧ view s = a := by
  cases hran : (Session.new path).run steps with
  | error fault => simp [hran, Except.toOption] at hseen
  | ok s => exact ⟨s, rfl, by simpa [hran, Except.toOption] using hseen⟩

/-- A function of another package is deferred in the body of a new one. -/
def dispatch : List Step := [
  .build (.basic .string),
  .build (.declareNamed (some "example.com/p") "Job"),
  .build (.externalFunction "example.com/log" "Print" none [⟨0⟩] []),
  .function "main" [("job", ⟨2⟩)] [],
  .write (.defer ⟨0⟩ [⟨1⟩])]

/-- The named type gets its underlying type, a value its name, and the open body
a block, where the cursor goes. -/
def dispatchMore : List Step := [
  .build (.setUnderlying ⟨2⟩ ⟨0⟩),
  .write (.name ⟨1⟩ "task"),
  .write .newBlock,
  .write (.switchTo 1)]

theorem dispatch_numbers_keep_meaning :
    ∃ s called closed mid last, (Session.new "example.com/p").run dispatch =
        .ok s ∧ s.step (.write (.call ⟨0⟩ [⟨1⟩])) = .ok called ∧
      s.step (.write (.makeClosure ⟨0⟩ [])) = .ok closed ∧
      closed.run dispatchMore = .ok mid ∧
      mid.step (.write (.callValue ⟨3⟩ [⟨1⟩] [])) = .ok last ∧
      s.builder.package.Kept last.builder.package ∧
      s.PlacesCall called ⟨1⟩ ⟨⟨2⟩, none, [⟨1⟩]⟩ ⟨0⟩ ∧
      called.builder.package.StandsFor ⟨2⟩ ⟨0⟩ ∧
      mid.PlacesCall last ⟨1⟩ ⟨⟨3⟩, none, [⟨1⟩]⟩ ⟨0⟩ ∧
      mid.builder.package.StandsFor ⟨2⟩ ⟨0⟩ := by
  have hopened :
      ((Session.new "example.com/p").run dispatch).toOption.map
        (fun s => s.cursors.map Cursor.func) =
      some [⟨1⟩] := by decide +kernel
  have hcalling :
      ((Session.new "example.com/p").run
        (dispatch ++ [.write (.call ⟨0⟩ [⟨1⟩])])).toOption.map
      (fun s => s.builder.package.operationAt ⟨2⟩) =
          some (.ok (.function ⟨0⟩)) := by decide +kernel
  have hclosing :
      ((Session.new "example.com/p").run
        (dispatch ++ [.write (.makeClosure ⟨0⟩ [])])).toOption.map
      (fun s => s.issued.values.getLast?) = some (some ⟨3⟩) := by decide +kernel
  have hbetween :
      ((Session.new "example.com/p").run (dispatch ++
        [.write (.makeClosure ⟨0⟩ [])] ++ dispatchMore)).toOption.map
        (fun s =>
          (s.cursors.map Cursor.func, s.builder.package.operationAt ⟨2⟩)) =
      some ([⟨1⟩], .ok (.function ⟨0⟩)) := by decide +kernel
  have hending : ((Session.new "example.com/p").run (dispatch ++
        [.write (.makeClosure ⟨0⟩ [])] ++ dispatchMore ++
        [.write (.callValue ⟨3⟩ [⟨1⟩] [])])).toOption.map (fun _ => ()) =
      some () := by decide +kernel
  obtain ⟨s, hran, hbodies⟩ := exists_run_of_view hopened
  obtain ⟨called, hbranch, htarget⟩ := exists_run_of_view hcalling
  obtain ⟨closed, hmade, hissued⟩ := exists_run_of_view hclosing
  obtain ⟨mid, hlater, hseen⟩ := exists_run_of_view hbetween
  obtain ⟨last, hwhole, -⟩ := exists_run_of_view hending
  obtain ⟨_, hagain, hcallStep⟩ := run_concat.1 hbranch
  cases hran.symm.trans hagain
  obtain ⟨_, hagain, hclosureStep⟩ := run_concat.1 hmade
  cases hran.symm.trans hagain
  obtain ⟨_, hagain, hmore⟩ := run_append.1 hlater
  cases hmade.symm.trans hagain
  obtain ⟨_, hagain, hlastStep⟩ := run_concat.1 hwhole
  cases hlater.symm.trans hagain
  obtain ⟨cursor, outer, hisOpen, hfunc, -⟩ := List.map_eq_cons_iff.1 hbodies
  obtain ⟨hmidBodies, hmidTarget⟩ := Prod.mk.inj hseen
  obtain ⟨midCursor, midOuter, hmidOpen, hmidFunc, -⟩ :=
    List.map_eq_cons_iff.1 hmidBodies
  obtain ⟨hkept, hcalls, hclosures⟩ := numbers_keep_meaning _ _ hran
  obtain ⟨ref, hplaced, hstanding⟩ :=
    hcalls ⟨0⟩ [⟨1⟩] _ List.mem_cons_self cursor outer called hisOpen hcallStep
  have hstanding := hstanding [] called rfl
  cases (hstanding ⟨2⟩).1 htarget
  obtain ⟨closure, ref, hgiven, halways⟩ :=
    hclosures ⟨0⟩ [] cursor outer closed hisOpen hclosureStep
  obtain ⟨-, hmidStanding, hmidCalls⟩ := halways dispatchMore mid hmore
  cases (hmidStanding ⟨2⟩).1 hmidTarget
  have hknown : closure = ⟨3⟩ := by
    simpa [hgiven, Ids.append, Ids.value] using hissued
  subst hknown
  have hmidPlaced :=
    hmidCalls [⟨1⟩] [] midCursor midOuter last hmidOpen hlastStep
  have hkeptLast :=
    hkept _ last
      (run_cons.2 ⟨closed, hclosureStep, run_concat.2 ⟨mid, hmore, hlastStep⟩⟩)
  rw [hfunc] at hplaced
  rw [hmidFunc] at hmidPlaced
  exact ⟨s, called, closed, mid, last, hran, hcallStep, hclosureStep, hmore,
    hlastStep, hkeptLast, hplaced, hstanding, hmidPlaced, hmidStanding⟩

end Session

end SchemaLint
