import Mathlib.Logic.Relation
import SchemaLint.Proofs.Build.Finish
import SchemaLint.Proofs.Build.Operations

/-!
# What operations are made of

Every operation on a builder is a sequence of moves, each of which changes one
table. An operation names the entry that it changes; only the underlying type of
a named type can be set from outside, for any number at all. What all moves keep
is kept by whole sessions.
-/

namespace SchemaLint

def BlocksExtend (blocks later : List Block) : Prop :=
  ∀ (index : Nat) (block : Block), blocks[index]? = some block →
    ∃ more, later[index]? = some ⟨block.instructions ++ more⟩

theorem BlocksExtend.refl (blocks : List Block) : BlocksExtend blocks blocks :=
  fun _ block hfound => ⟨[], by simp [hfound]⟩

theorem blocksExtend_append (blocks more : List Block) :
    BlocksExtend blocks (blocks ++ more) := by
  intro index block hfound
  have hbound := (List.getElem?_eq_some_iff.1 hfound).1
  exact ⟨[], by simp [List.getElem?_append_left hbound, hfound]⟩

private theorem blocksExtend_appendAt (block : Nat) (instruction : Instruction)
    (blocks : List Block) :
    BlocksExtend blocks (appendAt block instruction blocks) := by
  intro index old hfound
  have hfilled : blocks.isEmpty = false := by
    cases blocks with
    | nil => simp at hfound
    | cons => rfl
  simp only [appendAt, hfilled, Bool.false_eq_true, ↓reduceIte,
    List.getElem?_modify, hfound]
  split
  · exact ⟨[instruction], rfl⟩
  · exact ⟨[], by simp⟩

structure Func.Extends (f g : Func) : Prop where
  header : f.SameHeader g
  defined : f.blocks.isSome → g.blocks.isSome
  body : BlocksExtend f.body g.body

def Operation.isFunction : Operation → Bool
  | .function _ => true
  | _ => false

namespace Builder

def redefining (b : Builder) (named underlying : TypeId) : Builder :=
  { b with package := { b.package with
    types :=
      b.package.types.modify named.index (Ty.withUnderlying underlying) } }

/-- One change of the tables. The underlying types that `may` allows are set,
and those of types declared by name. A value that stands for a function comes
with an entry for it. -/
inductive Move (may : TypeId → TypeId → Prop) (b : Builder) : Builder → Prop
  | intern {type} :
    b.interned.lookup type = none → Move may b (b.interning type)
  | declare {package name underlying} :
    b.declared.lookup (package, name) = none →
    Move may b (b.declaring package name underlying)
  | redefine {named underlying} :
    (may named underlying ∨ ∃ key, (key, named) ∈ b.declared) →
    Move may b (b.redefining named underlying)
  | locate {file line column} :
    Move may b { b with
      package := { b.package with
          positions := (b.package.positions.add file line column).1 } }
  | push {value} :
    value.operation.isFunction = false → Move may b (b.pushing value)
  | name {value text} : Move may b (b.naming value text)
  | refer {func f} :
    b.funcRefs.lookup func = none → b.package.funcAt func = .ok f →
    Move may b (b.referring func f.signature)
  | add {f} : Move may b (b.adding f)
  | change {func change} :
    (∀ f : Func, f.Extends (change f)) → Move may b (b.changing func change)

def Moves (may : TypeId → TypeId → Prop) : Builder → Builder → Prop :=
  Relation.ReflTransGen (Move may)

variable {may : TypeId → TypeId → Prop}

theorem Move.weaken {wider : TypeId → TypeId → Prop} {b e : Builder}
    (hmove : b.Move may e)
    (hmore :
      ∀ named underlying, may named underlying → wider named underlying) :
    b.Move wider e := by
  cases hmove with
  | intern hnew => exact .intern hnew
  | declare hnew => exact .declare hnew
  | redefine hallowed => exact .redefine (hallowed.imp_left (hmore _ _))
  | locate => exact .locate
  | push hplain => exact .push hplain
  | name => exact .name
  | refer hnew hfound => exact .refer hnew hfound
  | add => exact .add
  | change hextended => exact .change hextended

theorem Moves.weaken {wider : TypeId → TypeId → Prop} {b e : Builder}
    (hmoves : b.Moves may e)
    (hmore :
      ∀ named underlying, may named underlying → wider named underlying) :
    b.Moves wider e :=
  Relation.ReflTransGen.mono (fun _ _ hmove => Move.weaken hmove hmore) _ _
    hmoves

theorem Moves.inv {inv : Builder → Prop} {b e : Builder}
    (hmoves : b.Moves may e) (hstart : inv b)
    (hstep : ∀ {b e}, inv b → b.Move may e → inv e) : inv e := by
  induction hmoves with
  | refl => exact hstart
  | tail _ hmove ih => exact hstep ih hmove

end Builder

structure Site.Moves (may : TypeId → TypeId → Prop) (s s' : Site) : Prop where
  builder : s.builder.Moves may s'.builder
  func : s'.cursor.func = s.cursor.func

namespace Site.Moves

variable {may : TypeId → TypeId → Prop} {s s' : Site} {b : Builder}

theorem refl : s.Moves may s := ⟨.refl, rfl⟩

theorem tail (hmoves : s.Moves may s') (hmove : s'.builder.Move may b) :
    s.Moves may { s' with builder := b } :=
  ⟨.tail hmoves.builder hmove, hmoves.func⟩

theorem single (hmove : s.builder.Move may b) :
    s.Moves may { s with builder := b } := refl.tail hmove

instance : IsPreorder Site (Site.Moves may) where
  refl _ := refl
  trans _ _ _ hfirst hsecond :=
    ⟨hfirst.builder.trans hsecond.builder, hsecond.func.trans hfirst.func⟩

end Site.Moves

theorem Preserves.returning {m : Type → Type} [Monad m] [Building m]
    {R : Site → Site → Prop} [IsPreorder Site R]
    {x : m α} (hkept : Preserves R x) (f : α → β) :
        Preserves R (do return f (← x) : m β) :=
  .bind hkept fun _ => .pure _

/-! ## Operations on the package -/

namespace Build

variable {may : TypeId → TypeId → Prop} {s s' : Site}

theorem intern_moves (type : Ty) :
    Preserves (Site.Moves may) (intern type) := by
  intro s id s' hran
  obtain ⟨-, rfl⟩ | ⟨hnew, -, rfl⟩ := runs_intern_cases hran
  · exact .refl
  · exact .single (.intern hnew)

theorem runs_declareNamed {package : Option String} {name : String}
    {id : TypeId} (hran : Runs (declareNamed package name) s id s') :
    s.Moves may s' ∧ ((package, name), id) ∈ s'.builder.declared := by
  obtain ⟨hknown, rfl⟩ | ⟨hnew, invalid, s₁, hinterned, rfl, rfl⟩ :=
    runs_declareNamed_cases hran
  · exact ⟨.refl, mem_of_lookup hknown⟩
  · have hsame : s₁.builder.declared = s.builder.declared := by
      obtain ⟨-, rfl⟩ | ⟨-, -, rfl⟩ := runs_intern_cases hinterned <;> rfl
    exact ⟨(intern_moves _ hinterned).tail (.declare (hsame ▸ hnew)),
      List.mem_cons_self⟩

theorem runs_setUnderlying {named underlying : TypeId} {u : Unit}
    (hran : Runs (setUnderlying named underlying) s u s') :
    s' = { s with builder := s.builder.redefining named underlying } :=
  runs_update hran

theorem declare_setUnderlying_moves (package : Option String) (name : String)
    (underlying : TypeId) :
    Preserves (Site.Moves may) (do
      let id ← declareNamed package name
      setUnderlying id underlying
      return id : Build TypeId) := by
  intro s id s' hran
  obtain ⟨id, s₁, hdeclared, hran⟩ := runs_bind.1 hran
  obtain ⟨u, s₂, hset, hran⟩ := runs_bind.1 hran
  obtain ⟨rfl, rfl⟩ := runs_pure.1 hran
  rw [runs_setUnderlying hset]
  obtain ⟨hmoves, hlisted⟩ := runs_declareNamed hdeclared
  exact hmoves.tail (.redefine (.inr ⟨_, hlisted⟩))

theorem errorType_moves : Preserves (Site.Moves may) errorType :=
  .bind (intern_moves _) fun _ => declare_setUnderlying_moves none "error" _

theorem pos_moves (file : String) (line column : Nat) :
    Preserves (Site.Moves may) (pos file line column) := by
  intro s place s' hran
  cases hran
  exact .single .locate

theorem ask_moves (question : Package → Access α) :
    Preserves (Site.Moves may) (ask question) := by
  intro s a s' hran
  obtain ⟨-, rfl⟩ := runs_ask.1 hran
  exact .refl

theorem get_moves : Preserves (Site.Moves may) (get : Build Builder) := by
  intro s b s' hran
  obtain ⟨-, rfl⟩ := runs_get_builder.1 hran
  exact .refl

theorem pushValue_moves (value : Value)
    (hplain : value.operation.isFunction = false) :
    Preserves (Site.Moves may) (pushValue value) := by
  intro s id s' hran
  obtain ⟨-, rfl⟩ := runs_pushValue hran
  exact .single (.push hplain)

theorem constOf_moves (kind : BasicKind) (value : Constant) :
    Preserves (Site.Moves may) (constOf kind value) :=
  .bind (intern_moves _) fun _ => pushValue_moves _ rfl

theorem global_moves (name : String) (elem : TypeId) :
    Preserves (Site.Moves may) (global name elem) :=
  .bind (intern_moves _) fun _ => pushValue_moves _ rfl

theorem nameValue_moves (value : ValueId) (text : String) :
    Preserves (Site.Moves may) (nameValue value text) := by
  intro s u s' hran
  rw [runs_update hran]
  exact .single .name

theorem parameters_moves (func : FuncId) (index : Nat)
    (params : List (String × TypeId)) :
    Preserves (Site.Moves may) (parameters func index params) := by
  induction params generalizing index with
  | nil => exact .pure _
  | cons param rest ih =>
      exact .bind (pushValue_moves _ rfl) fun _ =>
        .bind (ih (index + 1)) fun _ => .pure _

theorem addFunction_moves (package name : String) (receiver : Option TypeId)
    (params : List (String × TypeId)) (results : List TypeId)
    (blocks : Option (List Block)) :
    Preserves (Site.Moves may)
      (addFunction package name receiver params results blocks) := by
  have hpushed (f : Func) :
      Preserves (Site.Moves may)
        (update fun p => { p with functions := p.functions.push f }) := by
    intro s u s' hran
    rw [runs_update hran]
    exact .single .add
  refine .bind (intern_moves _) fun _ =>
    .bind get_moves fun _ => .bind (parameters_moves _ _ _) fun _ => ?_
  exact .bind (hpushed _) fun _ => .pure _

theorem declare_moves (name : String) (params : List (String × TypeId))
    (results : List TypeId) :
    Preserves (Site.Moves may) (declare name params results) :=
  .bind get_moves fun _ => addFunction_moves _ _ _ _ _ _

theorem modifyFunc_moves (func : FuncId) {change : Func → Func}
    (hextended : ∀ f : Func, f.Extends (change f)) :
    Preserves (Site.Moves may) (modifyFunc func change) := by
  intro s u s' hran
  rw [runs_modifyFunc hran]
  exact .single (.change hextended)

theorem setDoc_moves (func : FuncId) (doc : String) :
    Preserves (Site.Moves may) (setDoc func doc) :=
  modifyFunc_moves func fun f => ⟨rfl, id, .refl f.body⟩

theorem setFuncPos_moves (func : FuncId) (place : Pos) :
    Preserves (Site.Moves may) (setFuncPos func place) :=
  modifyFunc_moves func fun f => ⟨rfl, id, .refl f.body⟩

theorem funcRef_moves (func : FuncId) :
    Preserves (Site.Moves may) (funcRef func) := by
  intro s value s' hran
  obtain ⟨-, rfl⟩ | ⟨hnew, f, hfound, -, rfl⟩ := runs_funcRef_cases hran
  · exact .refl
  · exact .single (.refer hnew hfound)

theorem Op.run_moves (op : Op) :
    Preserves
      (Site.Moves fun named underlying => op = .setUnderlying named underlying)
      op.run := by
  cases op with
  | intern | basic | pointer | slice | map | interface | emptyInterface
  | structType | signature | tuple => exact .returning (intern_moves _) _
  | declareNamed package name =>
      exact .returning (fun _ _ _ hran => (runs_declareNamed hran).1) _
  | setUnderlying type underlying =>
      refine .returning (fun s u s' hran => ?_) _
      rw [runs_setUnderlying hran]
      exact .single (.redefine (.inl rfl))
  | named package name underlying =>
      exact .returning (declare_setUnderlying_moves _ _ _) _
  | errorType => exact .returning errorType_moves _
  | pos file line column => exact .returning (pos_moves _ _ _) _
  | constant | constInt | nil => exact .returning (pushValue_moves _ rfl) _
  | constString | constBool => exact .returning (constOf_moves _ _) _
  | global name elem => exact .returning (global_moves _ _) _
  | externalFunction package name receiver params results =>
      exact .returning (addFunction_moves _ _ _ _ _ _) _
  | declare name params results => exact .returning (declare_moves _ _ _) _
  | funcRef func => exact .returning (funcRef_moves _) _
  | setDoc func doc => exact .returning (setDoc_moves _ _) _
  | setFuncPos func place => exact .returning (setFuncPos_moves _ _) _

end Build

/-! ## Operations on a body -/

namespace Body

variable {may : TypeId → TypeId → Prop}

theorem ask_moves (question : Package → Access α) :
    Preserves (Site.Moves may) (ask question) :=
  .lift (Build.ask_moves question)

theorem intern_moves (type : Ty) :
    Preserves (Site.Moves may) (liftM (Build.intern type) : Body TypeId) :=
  .lift (Build.intern_moves type)

theorem get_moves : Preserves (Site.Moves may) (get : Body Cursor) := by
  intro s c s' hran
  obtain ⟨-, rfl⟩ := runs_get_cursor.1 hran
  exact .refl

theorem modify_moves (change : Cursor → Cursor)
    (hstays : ∀ cursor, (change cursor).func = cursor.func) :
    Preserves (Site.Moves may) (modify change : Body PUnit) := by
  intro s u s' hran
  rw [runs_modify_cursor.1 hran]
  exact ⟨.refl, hstays _⟩

theorem modifyBlocks_moves {change : List Block → List Block}
    (hextended : ∀ blocks, BlocksExtend blocks (change blocks)) :
    Preserves (Site.Moves may) (modifyBlocks change) :=
  .bind get_moves fun _ => .lift
    (Build.modifyFunc_moves _ fun f => ⟨rfl, fun _ => rfl, hextended f.body⟩)

theorem newBlock_moves : Preserves (Site.Moves may) newBlock := by
  refine .bind get_moves fun _ => .bind (ask_moves _) fun _ => ?_
  exact .returning
    (modifyBlocks_moves fun blocks => blocksExtend_append blocks _) _

theorem push_moves (instruction : Instruction) :
    Preserves (Site.Moves may) (push instruction) :=
  .bind get_moves fun _ =>
    modifyBlocks_moves fun blocks => blocksExtend_appendAt _ instruction blocks

theorem pushAt_moves (instruction : Pos → Instruction) :
    Preserves (Site.Moves may)
      (do push (instruction (← get).pos) : Body Unit) :=
  .bind get_moves fun _ => push_moves _

theorem define_moves (operation : Operation) (type : TypeId)
    (hplain : operation.isFunction = false) :
    Preserves (Site.Moves may) (define operation type) :=
  .bind get_moves fun _ => .bind (.lift (Build.pushValue_moves _ hplain))
    fun _ => .returning (push_moves _) _

theorem define_intern_moves (operation : Operation) (type : Ty)
    (hplain : operation.isFunction = false) :
    Preserves (Site.Moves may)
      (do define operation (← Build.intern type) : Body ValueId) :=
  .bind (intern_moves _) fun _ => define_moves _ _ hplain

theorem typeOrInvalid_moves (found : Option TypeId) :
    Preserves (Site.Moves may) (typeOrInvalid found) := by
  cases found with
  | none => exact intern_moves _
  | some type => exact .pure _

theorem fieldType_moves (x : ValueId) (field : Nat) :
    Preserves (Site.Moves may) (fieldType x field) :=
  .bind (ask_moves _) fun _ =>
    .bind (ask_moves _) fun _ => typeOrInvalid_moves _

theorem fieldAddr_moves (x : ValueId) (field : Nat) :
    Preserves (Site.Moves may) (fieldAddr x field) :=
  .bind (fieldType_moves _ _) fun _ => define_intern_moves _ _ rfl

theorem fieldAddrNamed_moves (x : ValueId) (name : String) :
    Preserves (Site.Moves may) (fieldAddrNamed x name) :=
  .bind (ask_moves _) fun _ => .bind (ask_moves _) fun _ => fieldAddr_moves _ _

theorem indexAddr_moves (x index : ValueId) :
    Preserves (Site.Moves may) (indexAddr x index) := by
  refine .bind (ask_moves _) fun type => ?_
  split
  · exact .bind (.pure _) fun _ => define_intern_moves _ _ rfl
  · exact .bind (.pure _) fun _ => define_intern_moves _ _ rfl
  · exact .bind (intern_moves _) fun _ => define_intern_moves _ _ rfl

theorem lookup_moves (x index : ValueId) :
    Preserves (Site.Moves may) (lookup x index) := by
  refine .bind (ask_moves _) fun type => ?_
  split
  · exact .bind (.pure _) fun _ => define_moves _ _ rfl
  · exact .bind (intern_moves _) fun _ => define_moves _ _ rfl

theorem extract_moves (tuple : ValueId) (index : Nat) :
    Preserves (Site.Moves may) (extract tuple index) := by
  refine .bind (ask_moves _) fun type => ?_
  split
  · exact .bind (typeOrInvalid_moves _) fun _ => define_moves _ _ rfl
  · exact .bind (intern_moves _) fun _ => define_moves _ _ rfl

theorem resultType_moves (results : List TypeId) :
    Preserves (Site.Moves may) (resultType results) := by
  unfold resultType
  split
  · exact .pure _
  · exact intern_moves _

theorem call_moves (callee : FuncId) (args : List ValueId) :
    Preserves (Site.Moves may) (call callee args) := by
  refine .bind (ask_moves _) fun _ => .bind (resultType_moves _) fun _ => ?_
  exact .bind (.lift (Build.funcRef_moves _)) fun _ => define_moves _ _ rfl

theorem Op.run_moves (op : Op) : Preserves (Site.Moves may) op.run := by
  cases op with
  | moveTo | switchTo => exact .returning (modify_moves _ (by simp)) _
  | doc text =>
      exact .returning (.bind get_moves fun _ => .lift (Build.setDoc_moves _ _))
        _
  | param index =>
      exact .returning (.bind get_moves fun _ => .returning (ask_moves _) _) _
  | newBlock => exact .returning newBlock_moves _
  | name value text => exact .returning (.lift (Build.nameValue_moves _ _)) _
  | newValue | localVar | boxAny =>
      exact .returning (define_intern_moves _ _ rfl) _
  | fieldAddr x index => exact .returning (fieldAddr_moves _ _) _
  | fieldAddrNamed x text => exact .returning (fieldAddrNamed_moves _ _) _
  | field x index =>
      exact .returning
        (.bind (fieldType_moves _ _) fun _ => define_moves _ _ rfl) _
  | store | mapUpdate | ret => exact .returning (pushAt_moves _) _
  | storeField addr text val =>
      exact .returning (.bind (fieldAddrNamed_moves _ _) fun _ =>
        .returning (pushAt_moves _) _) _
  | deref x =>
      exact .returning (.bind (ask_moves _) fun _ =>
        .bind (ask_moves _) fun _ => define_moves _ _ rfl) _
  | makeMap | makeSlice | makeInterface | changeType | convert | phi =>
      exact .returning (define_moves _ _ rfl) _
  | indexAddr x index => exact .returning (indexAddr_moves _ _) _
  | lookup x index => exact .returning (lookup_moves _ _) _
  | extract tuple index => exact .returning (extract_moves _ _) _
  | unary op x =>
      exact .returning (.bind (ask_moves _) fun _ => define_moves _ _ rfl) _
  | call callee args => exact .returning (call_moves _ _) _
  | callValue | invoke =>
      exact .returning
        (.bind (resultType_moves _) fun _ => define_moves _ _ rfl) _
  | makeClosure func bindings =>
      refine .returning (.bind (ask_moves _) fun _ => ?_) _
      exact .bind (.lift (Build.funcRef_moves _)) fun _ => define_moves _ _ rfl
  | defer | go =>
      exact .returning
        (.bind (.lift (Build.funcRef_moves _)) fun _ => pushAt_moves _) _
  | jump | branch => exact .returning (push_moves _) _

end Body

/-! ## Sessions -/

namespace Session

variable {s s' : Session}

theorem builder_of_opened {func : FuncId} (hopened : s.opened func = .ok s') :
    s'.builder = s.builder := by
  obtain ⟨f, -, hsame⟩ := Access.bind_eq_ok_iff.1 hopened
  cases hsame
  rfl

theorem runs_of_write {op : Body.Op} {cursor : Cursor} {outer : List Cursor}
    (hisOpen : s.cursors = cursor :: outer)
    (hstepped : s.step (.write op) = .ok s') :
    ∃ ids moved b, Runs op.run (siteOf s.builder cursor) ids (siteOf b moved) ∧
      s' =
        { builder := b
          cursors := moved :: outer
          issued := s.issued.append ids } := by
  simp only [Session.step, hisOpen] at hstepped
  obtain ⟨⟨⟨ids, moved⟩, b⟩, hran, hsame⟩ := Access.bind_eq_ok_iff.1 hstepped
  cases hsame
  exact ⟨ids, moved, b, by simp [Runs, Building.run, siteOf, hran], rfl⟩

/-- A step of a session is made of moves, and sets no underlying type unless
that is what it is asked to do. -/
theorem step_moves {step : Step} (hstepped : s.step step = .ok s') :
    s.builder.Moves
      (fun named underlying => step = .build (.setUnderlying named underlying))
      s'.builder := by
  cases step with
  | build op =>
      obtain ⟨⟨ids, b⟩, hran, hsame⟩ := Access.bind_eq_ok_iff.1 hstepped
      cases hsame
      have hruns : Runs op.run (siteOf s.builder ⟨⟨0⟩, 0, .unknown⟩) ids
          (siteOf b ⟨⟨0⟩, 0, .unknown⟩) := by
        simp [Runs, Building.run, siteOf, hran]
      exact (Build.Op.run_moves op hruns).builder.weaken fun _ _ hsame =>
        congrArg Step.build hsame
  | body func => exact builder_of_opened hstepped ▸ .refl
  | function name params results =>
      obtain ⟨⟨func, b⟩, hran, hopened⟩ := Access.bind_eq_ok_iff.1 hstepped
      have hruns :
          Runs (Build.declare name params results)
            (siteOf s.builder ⟨⟨0⟩, 0, .unknown⟩) func
          (siteOf b ⟨⟨0⟩, 0, .unknown⟩) := by
        simp [Runs, Building.run, siteOf, hran]
      rw [builder_of_opened hopened]
      exact (Build.declare_moves name params results hruns).builder
  | write op =>
      cases hisOpen : s.cursors with
      | nil =>
          simp only [Session.step, hisOpen] at hstepped
          cases hstepped
          exact .refl
      | cons cursor outer =>
          obtain ⟨ids, moved, b, hruns, rfl⟩ := runs_of_write hisOpen hstepped
          exact (Body.Op.run_moves op hruns).builder
  | leave =>
      cases hstepped
      exact .refl

theorem run_cons {step : Step} {rest : List Step} {final : Session} :
    s.run (step :: rest) = .ok final ↔
      ∃ next, s.step step = .ok next ∧ next.run rest = .ok final := by
  rw [Session.run, List.foldlM_cons, Access.bind_eq_ok_iff]
  rfl

theorem run_moves {steps : List Step} {final : Session}
    (hran : s.run steps = .ok final) :
    s.builder.Moves (fun _ _ => True) final.builder := by
  induction steps generalizing s with
  | nil =>
      cases hran
      exact .refl
  | cons first rest ih =>
      obtain ⟨next, hstepped, hran⟩ := run_cons.1 hran
      exact .trans ((step_moves hstepped).weaken fun _ _ _ => trivial) (ih hran)

theorem run_inv {inv : Builder → Prop} {steps : List Step} {final : Session}
    (hran : s.run steps = .ok final) (hstart : inv s.builder)
    (hstep : ∀ {b e}, inv b → b.Move (fun _ _ => True) e → inv e) :
    inv final.builder :=
  (run_moves hran).inv hstart hstep

end Session

end SchemaLint
