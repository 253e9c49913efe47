import SchemaLint.Lint.Rule
import SchemaLint.Proofs.Build.Functions
import SchemaLint.Proofs.Build.Values

/-!
# Values of set calls

What the rules on set calls find out about a value of each shape: the basic type
behind one pointer and names, and whether it was read through a pointer.
-/

namespace SchemaLint

namespace ValueShape

def kind? : ValueShape → Option BasicKind
  | bool => some .bool
  | int => some .int
  | int64 => some .int64
  | uint => some .uint
  | float32 => some .float32
  | float64 => some .float64
  | pointerPointer | map => none
  | _ => some .string

def isReadThroughPointer : ValueShape → Bool
  | deref | fieldPointerDeref | sliceElemDeref | mapElemDeref
  | callPointerDeref =>
    true
  | _ => false

end ValueShape

/-! ## Types -/

namespace Package

variable {p : Package}

/-- The type behind one pointer and names is this basic one, or is not a basic
one. -/
def IsBehind (p : Package) (type : TypeId) (kind? : Option BasicKind) : Prop :=
  ∃ elem behind, p.derefType type = .ok elem ∧ p.structureOf elem = .ok behind ∧
    ∀ kind, behind = .basic kind ↔ kind? = some kind

theorem isBehind_basic {type : TypeId} {kind : BasicKind}
    (hknown : p.typeAt type = .ok (.basic kind)) :
    p.IsBehind type (some kind) := by
  have hfound := structureOf_of_not_named hknown rfl
  exact ⟨type, .basic kind, by simp [derefType, hfound], hfound, by simp⟩

private theorem isBehind_named {type underlying : TypeId}
    {package : Option String} {name : String} {kind : BasicKind}
    (hknown : p.typeAt type = .ok (.named package name underlying))
    (hinside : p.typeAt underlying = .ok (.basic kind)) :
    p.IsBehind type (some kind) := by
  have hfound := structureOf_named hknown hinside rfl
  exact ⟨type, .basic kind, by simp [derefType, hfound], hfound, by simp⟩

private theorem isBehind_pointer {type elem : TypeId} {behind : Ty}
    (hknown : p.typeAt type = .ok (.pointer elem))
    (hinside : p.typeAt elem = .ok behind) (hplain : behind.isNamed = false)
    {kind? : Option BasicKind}
    (hbasic : ∀ kind, behind = .basic kind ↔ kind? = some kind) :
    p.IsBehind type kind? :=
  ⟨elem, behind, by simp [derefType, structureOf_of_not_named hknown rfl],
    structureOf_of_not_named hinside hplain, hbasic⟩

private theorem isBehind_map {type key elem : TypeId}
    (hknown : p.typeAt type = .ok (.map key elem)) : p.IsBehind type none := by
  have hfound := structureOf_of_not_named hknown rfl
  exact ⟨type, .map key elem, by simp [derefType, hfound], hfound, by simp⟩

/-! ## Reading through pointers -/

/-- The first value that is neither boxing nor a type change is read through a
pointer, or is not. -/
def IsRead (p : Package) (value : ValueId) (through : Bool) : Prop :=
  ∃ outer, (value = outer ∨ p.operationAt value = .ok (.changeType outer)) ∧
    p.isBare outer = .ok true ∧
    ∀ sdk, RuleContext.isDereference ⟨p, sdk⟩ outer = .ok through

theorem isRead_plain {value outer : ValueId} {operation : Operation}
    (hsame : value = outer ∨ p.operationAt value = .ok (.changeType outer))
    (hknown : p.operationAt outer = .ok operation)
    (hbare : operation.transparent? = none)
    (hother : ∀ x, operation ≠ .unary .deref x) : p.IsRead value false := by
  refine ⟨outer, hsame, by simp [isBare, hknown, hbare], fun sdk => ?_⟩
  simp only [RuleContext.isDereference, hknown, Access.ok_bind, Access.pure_eq]

private theorem isRead_element {value x : ValueId}
    (hknown : p.operationAt value = .ok (.unary .deref x))
    (helement : p.isElementAddr x = .ok true) : p.IsRead value false := by
  refine ⟨value, .inl rfl, by simp [isBare, hknown, Operation.transparent?],
    fun sdk => ?_⟩
  simp [RuleContext.isDereference, hknown, helement]

private theorem pointerDepth_pointer {type elem : TypeId} {kind : BasicKind}
    (hknown : p.typeAt type = .ok (.pointer elem))
    (hinside : p.typeAt elem = .ok (.basic kind)) :
    p.pointerDepth type = .ok 1 := by
  have houter := structureOf_of_not_named hknown rfl
  have hinner := structureOf_of_not_named hinside rfl
  have hzero (steps : Nat) : p.pointerDepthWithin steps elem = .ok 0 := by
    rw [pointerDepthWithin, hinner]
    rfl
  rw [pointerDepth, pointerDepthWithin, houter, Access.ok_bind]
  cases p.types.size with
  | zero => rfl
  | succ steps => simp only [hzero, Access.ok_bind, Access.pure_eq]

private theorem isRead_through {value x : ValueId} {elem : TypeId}
    {kind : BasicKind} (hknown : p.operationAt value = .ok (.unary .deref x))
    (hother : p.isElementAddr x = .ok false)
    (htyped : p.TypedAs x (.pointer elem))
    (hinside : p.typeAt elem = .ok (.basic kind)) : p.IsRead value true := by
  obtain ⟨type, hofType, hpoints⟩ := htyped
  refine ⟨value, .inl rfl, by simp [isBare, hknown, Operation.transparent?],
    fun sdk => ?_⟩
  simp [RuleContext.isDereference, hknown, hother, hofType,
    pointerDepth_pointer hpoints hinside]

end Package

structure ValueShape.Shown (p : Package) (shape : ValueShape)
    (value : ValueId) : Prop where
  plain : ∃ operation, p.operationAt value = .ok operation ∧
      ∀ x, operation ≠ .makeInterface x
  type : ∃ type, p.typeOf value = .ok type ∧ p.IsBehind type shape.kind?
  read : p.IsRead value shape.isReadThroughPointer

namespace ValueShape.Shown

variable {p : Package} {shape : ValueShape} {value : ValueId}
  {operation : Operation} {type : TypeId}

theorem of_plain (hknown : p.operationAt value = .ok operation)
    (htyped : p.typeOf value = .ok type) (hbehind : p.IsBehind type shape.kind?)
    (hbare : operation.transparent? = none)
    (hother : ∀ x, operation ≠ .unary .deref x)
    (hdirect : shape.isReadThroughPointer = false) : shape.Shown p value where
  plain := ⟨operation, hknown, by rintro x rfl; cases hbare⟩
  type := ⟨type, htyped, hbehind⟩
  read := by
    rw [hdirect]
    exact Package.isRead_plain (.inl rfl) hknown hbare hother

variable {x : ValueId} (hstring : p.typeAt type = .ok (.basic .string))
  (htext : shape.kind? = some .string)

include hstring htext

theorem of_element (hhas : p.Has value (.unary .deref x) type)
    (helement : p.isElementAddr x = .ok true)
    (hdirect : shape.isReadThroughPointer = false) : shape.Shown p value where
  plain := ⟨_, hhas.operation, nofun⟩
  type := ⟨type, hhas.type, htext ▸ Package.isBehind_basic hstring⟩
  read := by
    rw [hdirect]
    exact Package.isRead_element hhas.operation helement

theorem of_read (hhas : p.Has value (.unary .deref x) type)
    (hother : p.isElementAddr x = .ok false)
    (htyped : p.TypedAs x (.pointer type))
    (hthrough : shape.isReadThroughPointer = true) : shape.Shown p value where
  plain := ⟨_, hhas.operation, nofun⟩
  type := ⟨type, hhas.type, htext ▸ Package.isBehind_basic hstring⟩
  read := by
    rw [hthrough]
    exact Package.isRead_through hhas.operation hother htyped hstring

end ValueShape.Shown

/-! ## Sample functions -/

theorem Package.IsOwn.not_isSetter {p : Package} {func : FuncId} {name : String}
    {doc : Option String} {results : List TypeId} {body : List Instruction}
    (hown : p.IsOwn func name doc results body) (hunlike : UnlikeSet name) :
    ¬p.IsSetter func := by
  obtain ⟨f, hfound, rfl, -⟩ := hown
  exact Package.not_isSetter hfound hunlike

namespace ValueShape

variable {e : Builder} (hsound : e.Sound) {k : Nat} {pre : Prop}

include hsound

/-- A function that only makes a value is one from which no setter is
reached. -/
theorem sampleFunction_emits {name : String} (hunlike : UnlikeSet name)
    (result : TypeId) {make : Body ValueId}
    (hinner : ∀ k, Emits e k True make fun _ => True) :
    Emits e k pre (sampleFunction name result make) fun func =>
      e.package.Aside func ∧ e.package.results func = .ok [result] := by
  have hreturned (func : FuncId) (k : Nat) :
      Emits e k True (do Body.ret [← make]; return func) (· = func) :=
    .bind (hinner k) fun value =>
      .bind (Body.ret_emits [value]) fun _ => .pure fun _ => rfl
  intro s func s' hran
  have hworks : s.Works (fun _ => True) s' :=
    Build.function_works trivial
      (fun func _ _ _ hran => (hreturned func 0 hran).1) hran
  refine ⟨hworks, fun hinside hahead _ => ?_⟩
  obtain ⟨new, s₁, hdeclared, hworked⟩ := runs_bind.1 hran
  obtain ⟨f, cursor, -, hran₁, hsame⟩ := runs_body hworked
  have hprepared := Build.declare_prepared hdeclared
  obtain ⟨hnumber, hfound⟩ := Build.declare_found hdeclared
  have hbelow : new.index < s₁.builder.package.functions.size := by
    obtain ⟨f, hfound, -⟩ := hfound
    exact Package.funcAt_bound hfound
  have hroom : k ≤ s₁.builder.package.functions.size := by
    have := hinside.room
    omega
  -- Its own body is worked on with its number as the last one that may change.
  obtain ⟨⟨seg, hput, hmade⟩, rfl⟩ :=
    (hreturned new s₁.builder.package.functions.size hran₁).2
      ⟨hbelow, Nat.le_refl _⟩ (hahead.mono hroom) trivial
  have hown :=
    hprepared.own hput hahead.before
      (fun f hfound => hahead.funcAt hfound (hnumber ▸ hinside.room)) hsound
  have haside : e.package.Aside func :=
    .of_calls (hown.not_isSetter hunlike) hown.instructions hmade
  have hresults : e.package.results func = .ok [result] := by
    obtain ⟨_, -, -, -, -, -, -, hresults⟩ := hown
    exact hresults
  -- The function that is worked on has a smaller number, and stays as it is.
  have hapart : s.cursor.func ≠ func := by
    rintro rfl
    have := hinside.func
    have := hinside.room
    omega
  have hgrown : s.Grows (fun _ => True) (· = func) s' := by
    refine (Build.declare_grows trivial _ _ _ hdeclared).trans ?_
      fun _ _ _ => id
    exact Build.body_grows (fun _ _ _ hran => (hreturned func 0 hran).1) hworked
  exact ⟨⟨[], .of_untouched hgrown hworks hapart, .nil⟩, haside, hresults⟩

/-! ## Shapes -/

theorem samplePointer_emits (string : TypeId) (heap : Bool) :
    Emits e k pre (samplePointer string heap) fun value =>
      e.package.operationAt value = .ok (.alloc heap) ∧
        e.package.TypedAs value (.pointer string) := by
  refine .bind (Body.alloc_emits hsound heap string) fun value => ?_
  refine .bind
    (.frame (.lift (Build.constOf_emits hsound .string (.string sampleText))))
    fun text => ?_
  exact .bind (Body.store_emits _ _) fun _ => .pure fun hknown => hknown.1

private theorem sampleStruct_emits (string stringPtr : TypeId) :
    Emits e k pre (sampleStruct string stringPtr) fun value =>
      pre ∧ e.package.HasFieldAt value 0 string ∧
        e.package.HasFieldAt value 1 stringPtr := by
  refine .bind (.frame (.lift (Build.intern_emits hsound rfl))) fun struct => ?_
  refine .imp (.frame (Body.alloc_emits hsound false struct)) ?_
  rintro value ⟨⟨hgiven, hknown⟩, -, htyped⟩
  exact ⟨hgiven, ⟨struct, _, htyped, hknown, _, rfl, rfl⟩,
    ⟨struct, _, htyped, hknown, _, rfl, rfl⟩⟩

private theorem sampleElement_emits (elem : TypeId) :
    Emits e k pre (sampleElement elem) fun value =>
      pre ∧ ∃ addr, e.package.Has value (.unary .deref addr) elem ∧
          e.package.isElementAddr addr = .ok true := by
  refine .bind (.frame (.lift (Build.intern_emits hsound rfl))) fun type => ?_
  refine .bind (.frame (.lift (Build.constOf_emits hsound .int (.int 1))))
    fun length => ?_
  refine .bind (Body.define_emits nofun) fun slice => ?_
  refine .given
      (?_ : Emits e k (pre ∧ e.package.TypedAs slice (.slice elem)) _ _)
      fun hknown =>
    ⟨hknown.1.1.1, hknown.2.typedAs hknown.1.1.2⟩
  refine .bind (.frame (.lift (Build.constOf_emits hsound .int (.int 0))))
    fun index => ?_
  refine .bind
    (.frame (.given (Body.indexAddr_emits hsound) fun hknown => hknown.1.2))
    fun addr => ?_
  refine .imp
    (.frame (.given (Body.deref_emits hsound) fun hknown => hknown.2.2)) ?_
  rintro value ⟨⟨⟨⟨hgiven, -⟩, -⟩, haddressed, -⟩, hhas⟩
  exact ⟨hgiven, addr, hhas, by simp [Package.isElementAddr, haddressed]⟩

private theorem sampleEntry_emits (int elem : TypeId) :
    Emits e k pre (sampleEntry int elem) fun value => pre ∧ ∃ map index,
      e.package.Has value (.lookup map index false) elem := by
  refine .bind (.frame (.lift (Build.intern_emits hsound rfl))) fun type => ?_
  refine .bind (Body.define_emits nofun) fun map => ?_
  refine .given
      (?_ : Emits e k (pre ∧ e.package.TypedAs map (.map int elem)) _ _)
      fun hknown =>
    ⟨hknown.1.1, hknown.2.typedAs hknown.1.2⟩
  refine .bind (.frame (.lift (Build.constOf_emits hsound .int (.int 1))))
    fun index => ?_
  refine .imp
    (.frame (.given (Body.lookup_emits hsound) fun hknown => hknown.1.2)) ?_
  rintro value ⟨⟨⟨hgiven, -⟩, -⟩, hhas⟩
  exact ⟨hgiven, map, index, hhas⟩

private theorem sampleCall_emits (string stringPtr : TypeId) :
    Emits e k pre (sampleCall string stringPtr) fun value =>
      pre ∧ ∃ call, e.package.Has value (.call call) stringPtr := by
  have hnamed : UnlikeSet "lookupStringPointer" := by decide
  refine .bind
    (.frame (.lift (sampleFunction_emits hsound hnamed stringPtr fun k => ?_)))
    fun func => ?_
  · exact .imp (samplePointer_emits hsound string true) fun _ _ => trivial
  refine .imp
    (.frame (.given (Body.call_emits hsound func []) fun hknown => hknown.2.1))
    ?_
  rintro value ⟨⟨hgiven, -, hresults⟩, call, hoperation, htyped⟩
  exact ⟨hgiven, call, hoperation, htyped stringPtr hresults⟩

private theorem const_emits {shape : ValueShape} {kind : BasicKind}
    (constant : Constant) (hkindly : shape.kind? = some kind)
    (hdirect : shape.isReadThroughPointer = false) :
    Emits e k pre (Build.constOf kind constant) (shape.Shown e.package) := by
  refine .imp (Build.constOf_emits hsound kind constant) ?_
  rintro value ⟨hknown, type, htyped, hbasic⟩
  exact .of_plain hknown htyped (hkindly ▸ Package.isBehind_basic hbasic) rfl
    nofun hdirect

section

variable (hstring : e.package.typeAt textType = .ok (.basic .string))
  {stringPtr : TypeId}

include hstring

/-- Reading a text through a pointer that was made some other way than as the
address of an element. -/
theorem deref_emits {shape : ValueShape} {make : Body ValueId}
    (htext : shape.kind? = some .string)
    (hthrough : shape.isReadThroughPointer = true)
    (hmade :
      Emits e k pre make fun x => e.package.isElementAddr x = .ok false ∧
        e.package.TypedAs x (.pointer textType)) :
    Emits e k pre (make >>= Body.deref) (shape.Shown e.package) := by
  refine .bind hmade fun x =>
    .imp (.frame (.given (Body.deref_emits hsound) And.right)) ?_
  rintro value ⟨⟨hother, htyped⟩, hhas⟩
  exact .of_read hstring htext hhas hother htyped hthrough

theorem make_emits (plugin : Plugin) (shape : ValueShape) :
    Emits e k (e.package.typeAt stringPtr = .ok (.pointer textType))
      (shape.make plugin textType stringPtr) (shape.Shown e.package) := by
  have htext {shape : ValueShape} (htext : shape.kind? = some .string) :
      e.package.IsBehind textType shape.kind? :=
    htext ▸ Package.isBehind_basic hstring
  have hpointed {type : TypeId}
      (hpoints : e.package.typeAt type = .ok (.pointer textType)) :
      e.package.IsBehind type (some .string) :=
        Package.isBehind_pointer hpoints hstring rfl (by simp)
  cases shape with
  | bool | int | int64 | uint | float32 | float64 | string =>
      exact .lift (const_emits hsound _ rfl rfl)
  | namedString =>
      refine .bind (Body.ask_emits _) fun path =>
        .bind (.lift (Build.named_emits path hsound)) fun type => ?_
      refine .bind (.frame
        (.lift (Build.constOf_emits hsound .string (.string sampleText))))
        fun const => ?_
      refine .imp (Body.define_emits nofun) ?_
      rintro value ⟨⟨hnamed, hknown, -⟩, hhas⟩
      exact ⟨⟨_, hhas.operation, nofun⟩,
        ⟨type, hhas.type, Package.isBehind_named hnamed hstring⟩,
        Package.isRead_plain (.inr hhas.operation) hknown rfl nofun⟩
  | pointer =>
      refine .imp (.frame (samplePointer_emits hsound textType false)) ?_
      rintro value ⟨hpoints, hknown, type, htyped, hpointer⟩
      exact .of_plain hknown htyped (hpointed hpointer) rfl nofun rfl
  | pointerPointer =>
      refine .bind (.frame (Body.alloc_emits hsound false stringPtr))
        fun outer => ?_
      refine .bind (.frame (Body.alloc_emits hsound false textType))
        fun inner => ?_
      refine .bind (Body.store_emits _ _) fun _ => .pure ?_
      rintro ⟨⟨hpoints, hknown, type, htyped, hpointer⟩, -⟩
      exact .of_plain hknown htyped
        (Package.isBehind_pointer hpointer hpoints rfl (by simp [kind?])) rfl
        nofun rfl
  | deref =>
      refine deref_emits hsound hstring rfl rfl
        (.imp (samplePointer_emits hsound textType true) ?_)
      rintro x ⟨hknown, htyped⟩
      exact ⟨by simp [Package.isElementAddr, hknown], htyped⟩
  | field =>
      refine .bind (sampleStruct_emits hsound textType stringPtr)
        fun struct => ?_
      refine .bind
        (.given (Body.fieldAddr_emits hsound) fun hknown => hknown.2.1)
        fun addr => ?_
      refine .imp (.frame (.given (Body.deref_emits hsound) And.right)) ?_
      rintro value ⟨⟨haddressed, -⟩, hhas⟩
      exact .of_element hstring rfl hhas
        (by simp [Package.isElementAddr, haddressed]) rfl
  | fieldPointerDeref =>
      refine .bind (sampleStruct_emits hsound textType stringPtr)
        fun struct => ?_
      refine .bind
        (.frame (.given (Body.fieldAddr_emits hsound) fun hknown => hknown.2.2))
        fun addr => ?_
      refine deref_emits hsound hstring rfl rfl
        (.imp
          (.frame (.given (Body.deref_emits hsound) fun hknown => hknown.2.2))
          ?_)
      rintro x ⟨⟨⟨hpoints, -⟩, -⟩, hhas⟩
      exact ⟨by simp [Package.isElementAddr, hhas.operation],
        hhas.typedAs hpoints⟩
  | sliceElem =>
      refine .imp (sampleElement_emits hsound textType) ?_
      rintro value ⟨-, addr, hhas, helement⟩
      exact .of_element hstring rfl hhas helement rfl
  | sliceElemDeref =>
      refine deref_emits hsound hstring rfl rfl
        (.imp (sampleElement_emits hsound stringPtr) ?_)
      rintro x ⟨hpoints, addr, hhas, -⟩
      exact ⟨by simp [Package.isElementAddr, hhas.operation],
        hhas.typedAs hpoints⟩
  | mapElem =>
      refine .imp (sampleEntry_emits hsound plugin.int textType) ?_
      rintro value ⟨-, map, index, hhas⟩
      exact .of_plain hhas.operation hhas.type (htext rfl) rfl nofun rfl
  | mapElemDeref =>
      refine deref_emits hsound hstring rfl rfl
        (.imp (sampleEntry_emits hsound plugin.int stringPtr) ?_)
      rintro x ⟨hpoints, map, index, hhas⟩
      exact ⟨by simp [Package.isElementAddr, hhas.operation],
        hhas.typedAs hpoints⟩
  | callString =>
      have hnamed : UnlikeSet "lookupString" := by decide
      refine .bind
        (.lift (sampleFunction_emits hsound hnamed textType fun k => ?_))
        fun func => ?_
      · exact .imp
          (.lift (Build.constOf_emits hsound .string (.string sampleText)))
          fun _ _ => trivial
      refine .imp (.frame (.given (Body.call_emits hsound func []) And.left)) ?_
      rintro value ⟨⟨-, hresults⟩, call, hknown, htyped⟩
      exact .of_plain hknown (htyped textType hresults) (htext rfl) rfl nofun
        rfl
  | callPointer =>
      refine .imp (sampleCall_emits hsound textType stringPtr) ?_
      rintro value ⟨hpoints, call, hhas⟩
      exact .of_plain hhas.operation hhas.type (hpointed hpoints) rfl nofun rfl
  | callPointerDeref =>
      refine deref_emits hsound hstring rfl rfl
        (.imp (sampleCall_emits hsound textType stringPtr) ?_)
      rintro x ⟨hpoints, call, hhas⟩
      exact ⟨by simp [Package.isElementAddr, hhas.operation],
        hhas.typedAs hpoints⟩
  | map =>
      refine .bind (.lift (Build.intern_emits hsound rfl)) fun type =>
        .imp (Body.define_emits nofun) ?_
      rintro value ⟨hknown, hhas⟩
      exact .of_plain hhas.operation hhas.type (Package.isBehind_map hknown) rfl
        nofun rfl

end

end ValueShape

end SchemaLint
