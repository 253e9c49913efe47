import SchemaLint.Proofs.Build.Numbered
import SchemaLint.Proofs.Build.Session

/-!
# Operations on builders in order

An operation that is given numbers of the tables succeeds on a builder in order,
leaves one in order, and gives out numbers of its tables again.
-/

namespace SchemaLint

/-- The second site has a builder in order with longer tables, and the cursor is
in the same function. -/
structure Site.Kept (s s' : Site) : Prop where
  inOrder : s'.builder.InOrder
  within : s.builder.package.Within s'.builder.package
  func : s'.cursor.func = s.cursor.func

theorem Site.Kept.trans {s s' s'' : Site} (hfirst : s.Kept s')
    (hsecond : s'.Kept s'') : s.Kept s'' :=
  ⟨hsecond.inOrder, hfirst.within.trans hsecond.within,
    hsecond.func.trans hfirst.func⟩

/-- The computation succeeds and keeps builders in order, and `post` holds of
the package it leaves and its result. -/
def Safe {m : Type → Type} [Monad m] [Building m] (x : m α) (s : Site)
    (post : Package → α → Prop) : Prop :=
  ∃ a s', Runs x s a s' ∧ s.Kept s' ∧ post s'.builder.package a

namespace Safe

variable {m n : Type → Type} [Monad m] [Building m] [Monad n] [Building n]
  {s : Site}

theorem pure {a : α} {post : Package → α → Prop} (hinOrder : s.builder.InOrder)
    (hholds : post s.builder.package a) : Safe (Pure.pure a : m α) s post :=
  ⟨a, s, runs_pure.2 ⟨rfl, rfl⟩, ⟨hinOrder, .refl _, rfl⟩, hholds⟩

theorem bind {x : m α} {f : α → m β} {inner : Package → α → Prop}
    {post : Package → β → Prop} (hfirst : Safe x s inner)
    (hrest :
      ∀ a s', s.Kept s' → inner s'.builder.package a → Safe (f a) s' post) :
    Safe (x >>= f) s post := by
  obtain ⟨a, s', hran, hkept, hholds⟩ := hfirst
  obtain ⟨b, s'', hran', hkept', hholds'⟩ := hrest a s' hkept hholds
  exact ⟨b, s'', runs_bind.2 ⟨a, s', hran, hran'⟩, hkept.trans hkept', hholds'⟩

theorem imp {x : m α} {post weaker : Package → α → Prop} (hsafe : Safe x s post)
    (hweaken : ∀ p a, post p a → weaker p a) : Safe x s weaker := by
  obtain ⟨a, s', hran, hkept, hholds⟩ := hsafe
  exact ⟨a, s', hran, hkept, hweaken _ a hholds⟩

theorem lift [MonadLiftT m n] [LiftsRuns m n] {x : m α}
    {post : Package → α → Prop} (hsafe : Safe x s post) :
    Safe (liftM x : n α) s post := by
  obtain ⟨a, s', hran, hkept, hholds⟩ := hsafe
  exact ⟨a, s', runs_lift.2 hran, hkept, hholds⟩

theorem getBuilder {f : Builder → Build α} {post : Package → α → Prop}
    (hrest : Safe (f s.builder) s post) : Safe (get >>= f) s post := by
  obtain ⟨a, s', hran, hkept, hholds⟩ := hrest
  exact ⟨a, s', runs_bind.2 ⟨_, s, runs_get_builder.2 ⟨rfl, rfl⟩, hran⟩, hkept,
    hholds⟩

theorem getCursor {f : Cursor → Body α} {post : Package → α → Prop}
    (hrest : Safe (f s.cursor) s post) : Safe (get >>= f) s post := by
  obtain ⟨a, s', hran, hkept, hholds⟩ := hrest
  exact ⟨a, s', runs_bind.2 ⟨_, s, runs_get_cursor.2 ⟨rfl, rfl⟩, hran⟩, hkept,
    hholds⟩

theorem ask {question : Package → Access α} {f : α → Build β} {inner : α → Prop}
    {post : Package → β → Prop}
    (hanswered : Faultless (question s.builder.package) inner)
    (hrest : ∀ a, inner a → Safe (f a) s post) :
    Safe (Build.ask question >>= f) s post := by
  obtain ⟨a, hfound, hholds⟩ := hanswered
  obtain ⟨b, s', hran, hkept, hholds'⟩ := hrest a hholds
  exact ⟨b, s', runs_bind.2 ⟨a, s, runs_ask.2 ⟨hfound, rfl⟩, hran⟩, hkept,
    hholds'⟩

theorem askBody {question : Package → Access α} {f : α → Body β}
    {inner : α → Prop} {post : Package → β → Prop}
    (hanswered : Faultless (question s.builder.package) inner)
    (hrest : ∀ a, inner a → Safe (f a) s post) :
    Safe (Body.ask question >>= f) s post := by
  obtain ⟨a, hfound, hholds⟩ := hanswered
  obtain ⟨b, s', hran, hkept, hholds'⟩ := hrest a hholds
  exact ⟨b, s',
    runs_bind.2 ⟨a, s, runs_lift.2 (runs_ask.2 ⟨hfound, rfl⟩), hran⟩, hkept,
    hholds'⟩

end Safe

/-! ## Operations on the package -/

namespace Build

variable {s : Site} (hinOrder : s.builder.InOrder)
include hinOrder

theorem intern_safe {type : Ty}
    (hknown : ∀ id ∈ type.referenced, s.builder.package.HasType id) :
    Safe (intern type) s fun p id =>
      p.HasType id ∧ (type.isNamed = false → p.typeAt id = .ok type) := by
  refine .getBuilder ?_
  cases hfound : s.builder.interned.lookup type with
  | some id =>
      exact .pure hinOrder (hinOrder.interned type id (mem_of_lookup hfound))
  | none =>
      have hinterning := hinOrder.interning hknown
      exact ⟨_, { s with builder := s.builder.interning type }, rfl,
        ⟨hinterning, Builder.within_pushType _ type, rfl⟩,
        hinterning.interned type _ List.mem_cons_self⟩

theorem intern_hasType {type : Ty}
    (hknown : ∀ id ∈ type.referenced, s.builder.package.HasType id) :
    Safe (intern type) s Package.HasType :=
  (intern_safe hinOrder hknown).imp fun _ _ => And.left

theorem basic_safe (kind : BasicKind) : Safe (basic kind) s Package.HasType :=
  intern_hasType hinOrder nofun

theorem pointer_safe {elem : TypeId} (hhas : s.builder.package.HasType elem) :
    Safe (pointer elem) s Package.HasType :=
  intern_hasType hinOrder (by simpa [Ty.referenced] using hhas)

theorem declareNamed_safe (package : Option String) (name : String) :
    Safe (declareNamed package name) s Package.HasType := by
  refine .getBuilder ?_
  cases hfound : s.builder.declared.lookup (package, name) with
  | some id =>
      exact .pure hinOrder (hinOrder.declared _ id (mem_of_lookup hfound))
  | none =>
      refine .bind (basic_safe hinOrder .invalid)
        fun invalid s' hkept hhas => ?_
      have hdeclaring := hkept.inOrder.declaring package name hhas
      exact ⟨_,
        { s' with builder := s'.builder.declaring package name invalid }, rfl,
        ⟨hdeclaring, Builder.within_pushType .., rfl⟩,
        hdeclaring.declared _ _ List.mem_cons_self⟩

theorem setUnderlying_safe (named : TypeId) {underlying : TypeId}
    (hhas : s.builder.package.HasType underlying) :
    Safe (setUnderlying named underlying) s fun _ _ => True :=
  ⟨(), _, rfl,
    ⟨hinOrder.setUnderlying named hhas, Builder.within_setUnderlying .., rfl⟩,
    trivial⟩

theorem declare_setUnderlying_safe (package : Option String) (name : String)
    {underlying : TypeId}
    (hhas : s.builder.package.HasType underlying) :
    Safe
      (do
        let id ← declareNamed package name
        setUnderlying id underlying
        return id)
      s Package.HasType := by
  refine .bind (declareNamed_safe hinOrder package name)
    fun id s' hkept hnamed => ?_
  refine .bind (setUnderlying_safe hkept.inOrder id (hkept.within.hasType hhas))
    fun _ s'' hkept' _ => ?_
  exact .pure hkept'.inOrder (hkept'.within.hasType hnamed)

theorem errorType_safe : Safe errorType s Package.HasType :=
  .bind (intern_hasType hinOrder nofun) fun _ _ hkept hhas =>
    declare_setUnderlying_safe hkept.inOrder none "error" hhas

theorem pos_safe (file : String) (line column : Nat) :
    Safe (pos file line column) s fun _ _ => True :=
  ⟨_, _, rfl, ⟨hinOrder.positions _, Builder.within_positions .., rfl⟩, trivial⟩

/-! ### Values -/

theorem pushValue_safe {value : Value}
    (hholds : s.builder.package.HoldsValue value) :
    Safe (pushValue value) s Package.HasValue :=
  ⟨_, { s with builder := s.builder.pushing value }, rfl,
    ⟨hinOrder.pushing hholds, Builder.within_values _ (by simp), rfl⟩,
    by simp [Package.HasValue, Builder.pushing]⟩

theorem constant_safe (value : Constant) {type : TypeId}
    (hhas : s.builder.package.HasType type) :
    Safe (constant value type) s Package.HasValue :=
  pushValue_safe hinOrder ⟨hhas, nofun, nofun, nofun, nofun⟩

theorem constOf_safe (kind : BasicKind) (value : Constant) :
    Safe (constOf kind value) s Package.HasValue :=
  .bind (basic_safe hinOrder kind) fun _ _ hkept hhas =>
    constant_safe hkept.inOrder value hhas

theorem global_safe (name : String) {elem : TypeId}
    (hhas : s.builder.package.HasType elem) :
    Safe (global name elem) s Package.HasValue :=
  .bind (pointer_safe hinOrder hhas) fun _ _ hkept hhas =>
    pushValue_safe hkept.inOrder ⟨hhas, nofun, nofun, nofun, nofun⟩

theorem nameValue_safe (value : ValueId) (text : String) :
    Safe (nameValue value text) s fun _ _ => True :=
  ⟨(), { s with builder := s.builder.naming value text }, rfl,
    ⟨hinOrder.naming value text, Builder.within_values _ (by simp), rfl⟩,
    trivial⟩

/-! ### Functions -/

theorem modifyFunc_safe (func : FuncId) {change : Func → Func}
    (hsame : ∀ f : Func, f.SameHeader (change f))
    (hbody :
      ∀ f ∈ s.builder.package.functions,
        ∀ instruction ∈ (change f).instructions, instruction ∈ f.instructions ∨
          s.builder.package.HasInstruction instruction) :
    Safe (modifyFunc func change) s fun _ _ => True :=
  ⟨(), { s with builder := s.builder.changing func change }, rfl,
    ⟨hinOrder.changing func hsame hbody, Builder.within_changing .., rfl⟩,
    trivial⟩

theorem setDoc_safe (func : FuncId) (doc : String) :
    Safe (setDoc func doc) s fun _ _ => True :=
  modifyFunc_safe hinOrder func (fun _ => rfl) fun _ _ _ => .inl

theorem setFuncPos_safe (func : FuncId) (pos : Pos) :
    Safe (setFuncPos func pos) s fun _ _ => True :=
  modifyFunc_safe hinOrder func (fun _ => rfl) fun _ _ _ => .inl

theorem funcRef_safe {func : FuncId} (hhas : s.builder.package.HasFunc func) :
    Safe (funcRef func) s Package.HasValue := by
  refine .getBuilder ?_
  cases hfound : s.builder.funcRefs.lookup func with
  | some value =>
      exact .pure hinOrder (hinOrder.funcRefs func value (mem_of_lookup hfound))
  | none =>
      refine .ask (hinOrder.numbered.funcAt hhas) fun f hholds => ?_
      have hfunction : s.builder.package.HoldsValue
          ⟨.function func, f.signature, .unknown, none, none⟩ :=
        ⟨hholds.hasSignature, nofun, nofun, by rintro _ ⟨⟩; exact hhas, nofun⟩
      refine .bind (pushValue_safe hinOrder hfunction)
        fun value s' hkept hknown => ?_
      exact ⟨value, { s' with
          builder := { s'.builder with
              funcRefs := (func, value) :: s'.builder.funcRefs } }, rfl,
        ⟨hkept.inOrder.referring func hknown, .refl _, rfl⟩, hknown⟩

end Build

def paramValues (func : FuncId) (index : Nat) :
    List (String × TypeId) → List Value
  | [] => []
  | (name, type) :: rest =>
    ⟨.parameter index, type, .unknown, some func, some name⟩ ::
      paramValues func (index + 1) rest

namespace Build

variable {s : Site}

private theorem runs_parameters (func : FuncId) (index : Nat)
    (params : List (String × TypeId)) (s : Site) :
    ∃ ids, Runs (parameters func index params) s ids
      { s with builder := { s.builder with package :=
        { s.builder.package with
          values :=
            s.builder.package.values ++
              (paramValues func index params).toArray } } } ∧
      ∀ id ∈ ids, id.index <
        s.builder.package.values.size +
          (paramValues func index params).length := by
  induction params generalizing index s with
  | nil => exact ⟨[], runs_pure.2 ⟨rfl, by simp [paramValues]⟩, nofun⟩
  | cons param rest ih =>
      obtain ⟨name, type⟩ := param
      let value : Value :=
        ⟨.parameter index, type, .unknown, some func, some name⟩
      obtain ⟨ids, hran, hbound⟩ :=
        ih (index + 1) { s with builder := s.builder.pushing value }
      refine ⟨⟨s.builder.package.values.size⟩ :: ids, ?_, ?_⟩
      · refine runs_bind.2 ⟨_, { s with builder := s.builder.pushing value },
          rfl, runs_bind.2 ⟨ids, _, hran, ?_⟩⟩
        exact runs_pure.2 ⟨rfl, by simp [paramValues, Builder.pushing, value]⟩
      · intro id hmember
        rcases List.mem_cons.1 hmember with rfl | hlater
        · simp [paramValues]
        · have hinside := hbound id hlater
          simp only [Builder.pushing, Array.size_push] at hinside
          simp only [paramValues, List.length_cons]
          omega

private theorem mem_paramValues {func : FuncId} {index : Nat}
    {params : List (String × TypeId)} {value : Value}
    (hmember : value ∈ paramValues func index params) :
    value.type ∈ params.map Prod.snd ∧ value.parent = some func ∧
      ∃ index, value.operation = .parameter index := by
  induction params generalizing index with
  | nil => cases hmember
  | cons param rest ih =>
      rcases List.mem_cons.1 hmember with rfl | hlater
      · exact ⟨List.mem_cons_self, rfl, index, rfl⟩
      · obtain ⟨htype, hparent, hoperation⟩ := ih hlater
        exact ⟨List.mem_cons_of_mem _ htype, hparent, hoperation⟩

theorem addFunction_safe (hinOrder : s.builder.InOrder) (package name : String)
    {receiver : Option TypeId} {params : List (String × TypeId)}
    {results : List TypeId} {blocks : Option (List Block)}
    (hofReceiver : ∀ type ∈ receiver, s.builder.package.HasType type)
    (hofParams : ∀ type ∈ params.map Prod.snd, s.builder.package.HasType type)
    (hofResults : ∀ type ∈ results, s.builder.package.HasType type)
    (hempty : (blocks.getD []).flatMap Block.instructions = []) :
    Safe (addFunction package name receiver params results blocks) s
      Package.HasFunc := by
  have hall :
      ∀ type ∈ (receiver.toList.map (fun type => ("recv", type)) ++ params).map
        Prod.snd,
      s.builder.package.HasType type := by
    intro type hmember
    rw [List.map_append, List.mem_append] at hmember
    rcases hmember with hofRecv | hofRest
    · exact hofReceiver type (by simpa using hofRecv)
    · exact hofParams type hofRest
  have hsigned : ∀ type ∈
      (Ty.signature ((receiver.toList.map (fun type => ("recv", type)) ++
        params).map Prod.snd) results false).referenced,
      s.builder.package.HasType type :=
    fun type hmember =>
      (List.mem_append.1 hmember).elim (hall type) (hofResults type)
  refine .bind (intern_safe hinOrder hsigned)
    fun signature s' hkept htyped => .getBuilder ?_
  obtain ⟨ids, hran, hbound⟩ :=
    runs_parameters ⟨s'.builder.package.functions.size⟩ 0
      (receiver.toList.map (fun type => ("recv", type)) ++ params) s'
  refine ⟨⟨s'.builder.package.functions.size⟩, _,
    runs_bind.2 ⟨ids, _, hran, rfl⟩, ⟨?_, ?_, rfl⟩, ?_⟩
  · refine hkept.inOrder.adding (fun value hmember => ?_)
      ⟨_, _, _, htyped.2 rfl⟩
      (fun type hofRecv => hkept.within.hasType (hofReceiver type hofRecv))
        hbound hempty
    obtain ⟨htype, hparent, hoperation⟩ := mem_paramValues hmember
    exact ⟨hkept.within.hasType (hall _ htype), hparent, hoperation⟩
  · exact ⟨Nat.le_refl _, by simp, by simp, fun _ _ hfound _ => hfound⟩
  · simp [Package.HasFunc]

theorem declare_safe (hinOrder : s.builder.InOrder) (name : String)
    {params : List (String × TypeId)} {results : List TypeId}
    (hofParams : ∀ type ∈ params.map Prod.snd, s.builder.package.HasType type)
    (hofResults : ∀ type ∈ results, s.builder.package.HasType type) :
    Safe (declare name params results) s Package.HasFunc :=
  .getBuilder (addFunction_safe hinOrder _ name nofun hofParams hofResults rfl)

end Build

/-! ## Operations on a body -/

private theorem mem_appendAt {block : Nat} {instruction other : Instruction}
    {blocks : List Block}
    (hmember :
      other ∈ (appendAt block instruction blocks).flatMap Block.instructions) :
    other ∈ blocks.flatMap Block.instructions ∨ other = instruction := by
  have hpadded :
      (if blocks.isEmpty then [{}] else blocks).flatMap Block.instructions =
      blocks.flatMap Block.instructions := by
    cases blocks <;> rfl
  unfold appendAt at hmember
  rw [← hpadded]
  generalize (if blocks.isEmpty then [{}] else blocks) = blocks at hmember
  obtain ⟨changed, hinBlocks, hinside⟩ := List.mem_flatMap.1 hmember
  obtain ⟨index, hfound⟩ := List.mem_iff_getElem?.1 hinBlocks
  rw [List.getElem?_modify, Option.map_eq_map, Option.map_eq_some_iff] at hfound
  obtain ⟨old, hatIndex, rfl⟩ := hfound
  have hinBlocks := List.mem_of_getElem? hatIndex
  split at hinside
  · rcases List.mem_append.1 hinside with hknown | hnew
    · exact .inl (List.mem_flatMap.2 ⟨old, hinBlocks, hknown⟩)
    · exact .inr (List.mem_singleton.1 hnew)
  · exact .inl (List.mem_flatMap.2 ⟨old, hinBlocks, hinside⟩)

structure Site.Ready (s : Site) : Prop where
  inOrder : s.builder.InOrder
  func : s.builder.package.HasFunc s.cursor.func

theorem Site.Kept.ready {s s' : Site} (hkept : s.Kept s') (hready : s.Ready) :
    s'.Ready :=
  ⟨hkept.inOrder, hkept.func ▸ hkept.within.hasFunc hready.func⟩

namespace Body

variable {s : Site} (hready : s.Ready)
include hready

theorem push_safe {instruction : Instruction}
    (hknown : s.builder.package.HasInstruction instruction) :
    Safe (push instruction) s fun _ _ => True := by
  refine .getCursor (.getCursor
    (.lift (Build.modifyFunc_safe hready.inOrder _ (fun _ => rfl) ?_)))
  intro f _ other hmember
  rcases mem_appendAt hmember with hold | rfl
  · exact .inl hold
  · exact .inr hknown

theorem define_safe {operation : Operation} {type : TypeId}
    (hhas : s.builder.package.HasType type)
    (hholds : s.builder.package.HoldsOperation operation) :
    Safe (define operation type) s Package.HasValue := by
  refine .getCursor (.bind
    (.lift (Build.pushValue_safe hready.inOrder ⟨hhas, ?_, hholds⟩))
    fun value s' hkept hknown => ?_)
  · rintro _ ⟨⟩
    exact hready.func
  · have hdefined : s'.builder.package.HasInstruction (.define value) := by
      simpa [Package.HasInstruction, Package.definedValue,
        Instruction.operands] using hknown
    refine .bind (push_safe (hkept.ready hready) hdefined)
      fun _ s'' hkept' _ => ?_
    exact .pure hkept'.inOrder (hkept'.within.hasValue hknown)

theorem pushAt_safe {instruction : Pos → Instruction}
    (hknown : s.builder.package.HasInstruction (instruction s.cursor.pos)) :
    Safe (do push (instruction (← get).pos) : Body Unit) s fun _ _ => True :=
  .getCursor (push_safe hready hknown)

theorem newBlock_safe : Safe newBlock s fun _ _ => True := by
  have hadded : Safe (modifyBlocks (· ++ [⟨[]⟩])) s fun _ _ => True := by
    refine .getCursor (.lift (Build.modifyFunc_safe hready.inOrder _
      (fun _ => rfl)
      fun f _ other hmember => .inl ?_))
    simpa [Func.instructions, Func.body] using hmember
  refine .getCursor
    (.askBody (hready.inOrder.numbered.funcAt hready.func) fun _ _ => ?_)
  exact .bind hadded fun _ _ hkept _ => .pure hkept.inOrder trivial

theorem param?_safe (index : Nat) :
    Safe (param? index) s fun p found => ∀ value ∈ found, p.HasValue value := by
  refine .getCursor
    (.askBody (hready.inOrder.numbered.funcAt hready.func) fun f hholds => ?_)
  exact .pure hready.inOrder fun value hfound =>
    hholds.params value (List.mem_of_getElem? hfound)

/-! ### Types that are looked up -/

theorem typeOrInvalid_safe {found : Option TypeId}
    (hknown : ∀ type ∈ found, s.builder.package.HasType type) :
    Safe (typeOrInvalid found) s Package.HasType := by
  cases found with
  | none => exact .lift (Build.basic_safe hready.inOrder .invalid)
  | some type => exact .pure hready.inOrder (hknown type rfl)

theorem fieldType_safe {x : ValueId} (hhas : s.builder.package.HasValue x)
    (index : Nat) : Safe (fieldType x index) s Package.HasType := by
  refine .askBody (hready.inOrder.numbered.typeOf hhas) fun type hknown => ?_
  refine .askBody (hready.inOrder.numbered.field? hknown index)
    fun field hofField => ?_
  refine typeOrInvalid_safe hready fun type hfound => ?_
  obtain ⟨field, hmember, rfl⟩ := Option.map_eq_some_iff.1 hfound
  exact hofField field hmember

theorem resultType_safe {results : List TypeId}
    (hknown : ∀ type ∈ results, s.builder.package.HasType type) :
    Safe (resultType results) s Package.HasType := by
  unfold resultType
  split
  · exact .pure hready.inOrder (hknown _ List.mem_cons_self)
  · exact .lift (Build.intern_hasType hready.inOrder hknown)

/-! ### Values -/

theorem alloc_safe (heap : Bool) {elem : TypeId}
    (hhas : s.builder.package.HasType elem) :
    Safe (alloc heap elem) s Package.HasValue :=
  .bind (.lift (Build.pointer_safe hready.inOrder hhas)) fun _ _ hkept hknown =>
    define_safe (hkept.ready hready) hknown
      (.of_operands (by simp [Operation.operands]) fun _ => rfl)

theorem fieldAddr_safe {x : ValueId} (hhas : s.builder.package.HasValue x)
    (index : Nat) : Safe (fieldAddr x index) s Package.HasValue := by
  refine .bind (fieldType_safe hready hhas index) fun type s' hkept hknown => ?_
  refine .bind (.lift (Build.pointer_safe hkept.inOrder hknown))
    fun pointer s'' hkept' hknown' => ?_
  have hall := hkept.trans hkept'
  exact define_safe (hall.ready hready) hknown'
    (.of_operands
      (by simpa [Operation.operands] using hall.within.hasValue hhas)
      fun _ => rfl)

theorem fieldAddrNamed_safe {x : ValueId} (hhas : s.builder.package.HasValue x)
    (name : String) : Safe (fieldAddrNamed x name) s Package.HasValue :=
  .askBody (hready.inOrder.numbered.typeOf hhas) fun _ hknown =>
    .askBody (hready.inOrder.numbered.fieldIndex? hknown name) fun _ _ =>
      fieldAddr_safe hready hhas _

theorem field_safe {x : ValueId} (hhas : s.builder.package.HasValue x)
    (index : Nat) : Safe (field x index) s Package.HasValue :=
  .bind (fieldType_safe hready hhas index) fun _ _ hkept hknown =>
    define_safe (hkept.ready hready) hknown
    (.of_operands
      (by simpa [Operation.operands] using hkept.within.hasValue hhas)
      fun _ => rfl)

theorem store_safe {addr val : ValueId}
    (htoAddr : s.builder.package.HasValue addr)
    (hofVal : s.builder.package.HasValue val) :
    Safe (store addr val) s fun _ _ => True := by
  refine pushAt_safe hready ?_
  simpa [Package.HasInstruction, Package.definedValue,
    Instruction.operands] using ⟨htoAddr, hofVal⟩

theorem storeField_safe {addr val : ValueId} (name : String)
    (htoAddr : s.builder.package.HasValue addr)
    (hofVal : s.builder.package.HasValue val) :
    Safe (storeField addr name val) s Package.HasValue := by
  refine .bind (fieldAddrNamed_safe hready htoAddr name)
    fun field s' hkept hknown => ?_
  refine .bind
    (store_safe (hkept.ready hready) hknown (hkept.within.hasValue hofVal))
    fun _ s'' hkept' _ => ?_
  exact .pure hkept'.inOrder (hkept'.within.hasValue hknown)

theorem deref_safe {x : ValueId} (hhas : s.builder.package.HasValue x) :
    Safe (deref x) s Package.HasValue :=
  .askBody (hready.inOrder.numbered.typeOf hhas) fun _ hknown =>
    .askBody (hready.inOrder.numbered.derefType hknown) fun _ hknown =>
      define_safe hready hknown
        (.of_operands (by simpa [Operation.operands] using hhas) fun _ => rfl)

theorem indexAddr_safe {x index : ValueId} (hhas : s.builder.package.HasValue x)
    (hofIndex : s.builder.package.HasValue index) :
    Safe (indexAddr x index) s Package.HasValue := by
  have hnumbered := hready.inOrder.numbered
  have hstructure' :
      Faultless (do
        s.builder.package.structureOf (← s.builder.package.derefType
          (← s.builder.package.typeOf x)) : Access Ty) fun type =>
      ∀ id ∈ type.referenced, s.builder.package.HasType id :=
    (hnumbered.typeOf hhas).bind fun _ hknown =>
      (hnumbered.derefType hknown).bind fun _ hknown =>
        hnumbered.structureOf hknown
  refine .askBody hstructure' fun type hknown => ?_
  have hdefined {s' : Site} (hkept : s.Kept s') {elem : TypeId}
      (hofElem : s'.builder.package.HasType elem) :
      Safe
        (do define (.indexAddr x index) (← Build.pointer elem) : Body ValueId)
        s' Package.HasValue := by
    refine .bind (.lift (Build.pointer_safe hkept.inOrder hofElem))
      fun pointer s'' hkept' hofPointer => ?_
    have hall := hkept.trans hkept'
    refine define_safe (hall.ready hready) hofPointer
      (.of_operands ?_ fun _ => rfl)
    simpa [Operation.operands] using ⟨hall.within.hasValue hhas,
      hall.within.hasValue hofIndex⟩
  split
  · next elem =>
      refine .bind (.pure hready.inOrder ?_) fun _ _ hkept => hdefined hkept
      exact hknown elem (by simp [Ty.referenced])
  · next elem _ =>
      refine .bind (.pure hready.inOrder ?_) fun _ _ hkept => hdefined hkept
      exact hknown elem (by simp [Ty.referenced])
  · exact .bind (.lift (Build.basic_safe hready.inOrder .invalid))
      fun _ _ hkept => hdefined hkept

theorem lookup_safe {x index : ValueId} (hhas : s.builder.package.HasValue x)
    (hofIndex : s.builder.package.HasValue index) :
    Safe (lookup x index) s Package.HasValue := by
  have hnumbered := hready.inOrder.numbered
  have hstructure' :
      Faultless (do s.builder.package.structureOf (← s.builder.package.typeOf
          x) : Access Ty)
      fun type => ∀ id ∈ type.referenced, s.builder.package.HasType id :=
    (hnumbered.typeOf hhas).bind fun _ hknown => hnumbered.structureOf hknown
  refine .askBody hstructure' fun type hknown => ?_
  have hdefined {s' : Site} (hkept : s.Kept s') {elem : TypeId}
      (hofElem : s'.builder.package.HasType elem) :
      Safe (define (.lookup x index false) elem) s' Package.HasValue := by
    refine define_safe (hkept.ready hready) hofElem
      (.of_operands ?_ fun _ => rfl)
    simpa [Operation.operands] using ⟨hkept.within.hasValue hhas,
      hkept.within.hasValue hofIndex⟩
  split
  · next elem =>
      refine .bind (.pure hready.inOrder ?_) fun _ _ hkept => hdefined hkept
      exact hknown elem (by simp [Ty.referenced])
  · exact .bind (.lift (Build.basic_safe hready.inOrder .invalid))
      fun _ _ hkept => hdefined hkept

theorem extract_safe {tuple : ValueId} (hhas : s.builder.package.HasValue tuple)
    (index : Nat) : Safe (extract tuple index) s Package.HasValue := by
  have hnumbered := hready.inOrder.numbered
  have hofTuple :
      Faultless (do s.builder.package.typeAt (← s.builder.package.typeOf
          tuple) : Access Ty)
      fun type => ∀ id ∈ type.referenced, s.builder.package.HasType id :=
    (hnumbered.typeOf hhas).bind fun _ hknown => hnumbered.typeAt hknown
  refine .askBody hofTuple fun type hknown => ?_
  have hdefined {s' : Site} (hkept : s.Kept s') {elem : TypeId}
      (hofElem : s'.builder.package.HasType elem) :
      Safe (define (.extract tuple index) elem) s' Package.HasValue :=
    define_safe (hkept.ready hready) hofElem
      (.of_operands
        (by simpa [Operation.operands] using hkept.within.hasValue hhas)
        fun _ => rfl)
  split
  · next elems =>
      refine .bind (typeOrInvalid_safe hready fun type hfound => ?_)
        fun _ _ hkept => hdefined hkept
      exact hknown type (List.mem_of_getElem? hfound)
  · exact .bind (.lift (Build.basic_safe hready.inOrder .invalid))
      fun _ _ hkept => hdefined hkept

theorem boxAny_safe {x : ValueId} (hhas : s.builder.package.HasValue x) :
    Safe (boxAny x) s Package.HasValue :=
  .bind (.lift (Build.intern_hasType hready.inOrder nofun))
      fun _ _ hkept hknown =>
    define_safe (hkept.ready hready) hknown
      (.of_operands
        (by simpa [Operation.operands] using hkept.within.hasValue hhas)
        fun _ => rfl)

/-! ### Calls -/

theorem callTo_safe {target : ValueId} (method : Option String)
    {args : List ValueId} {results : List TypeId}
    (hofTarget : s.builder.package.HasValue target)
    (hofArgs : ∀ arg ∈ args, s.builder.package.HasValue arg)
    (hofResults : ∀ type ∈ results, s.builder.package.HasType type) :
    Safe (do define (.call ⟨target, method, args⟩) (← resultType results) :
      Body ValueId) s Package.HasValue := by
  refine .bind (resultType_safe hready hofResults)
    fun type s' hkept hknown => ?_
  refine define_safe (hkept.ready hready) hknown (.of_operands ?_ fun _ => rfl)
  intro id hmember
  rcases List.mem_cons.1 hmember with rfl | hinArgs
  · exact hkept.within.hasValue hofTarget
  · exact hkept.within.hasValue (hofArgs id hinArgs)

theorem call_safe {callee : FuncId} {args : List ValueId}
    (hhas : s.builder.package.HasFunc callee)
    (hofArgs : ∀ arg ∈ args, s.builder.package.HasValue arg) :
    Safe (call callee args) s Package.HasValue := by
  refine .askBody (hready.inOrder.numbered.results hhas)
    fun results hofResults => ?_
  refine .bind (resultType_safe hready hofResults)
    fun type s' hkept hknown => ?_
  refine .bind
    (.lift (Build.funcRef_safe hkept.inOrder (hkept.within.hasFunc hhas)))
    fun target s'' hkept' hofTarget => ?_
  have hall := hkept.trans hkept'
  refine define_safe (hall.ready hready) (hkept'.within.hasType hknown)
    (.of_operands ?_ fun _ => rfl)
  intro id hmember
  rcases List.mem_cons.1 hmember with rfl | hinArgs
  · exact hofTarget
  · exact hall.within.hasValue (hofArgs id hinArgs)

theorem makeClosure_safe {func : FuncId} {bindings : List ValueId}
    (hhas : s.builder.package.HasFunc func)
    (hofBindings : ∀ id ∈ bindings, s.builder.package.HasValue id) :
    Safe (makeClosure func bindings) s Package.HasValue := by
  refine .askBody (hready.inOrder.numbered.funcAt hhas) fun f hholds => ?_
  refine .bind (.lift (Build.funcRef_safe hready.inOrder hhas))
    fun target s' hkept hofTarget => ?_
  refine define_safe (hkept.ready hready)
    (hkept.within.hasType hholds.hasSignature) (.of_operands ?_ fun _ => rfl)
  intro id hmember
  rcases List.mem_cons.1 hmember with rfl | hinBindings
  · exact hofTarget
  · exact hkept.within.hasValue (hofBindings id hinBindings)

theorem statement_safe {statement : Call → Pos → Instruction}
    (hreads :
      ∀ call pos, Package.definedValue (statement call pos) ++
          (statement call pos).operands = call.operands)
    {callee : FuncId} {args : List ValueId}
    (hhas : s.builder.package.HasFunc callee)
    (hofArgs : ∀ arg ∈ args, s.builder.package.HasValue arg) :
    Safe (do push (statement ⟨← Build.funcRef callee, none, args⟩ (← get).pos) :
      Body Unit) s
      fun _ _ => True := by
  refine .bind (.lift (Build.funcRef_safe hready.inOrder hhas))
    fun target s' hkept hofTarget => ?_
  refine .getCursor (push_safe (hkept.ready hready) ?_)
  intro id hused
  rw [hreads] at hused
  rcases List.mem_cons.1 hused with rfl | hinArgs
  · exact hofTarget
  · exact hkept.within.hasValue (hofArgs id hinArgs)

end Body

end SchemaLint
