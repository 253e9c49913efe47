import Mathlib.Data.List.Forall2
import SchemaLint.Program.Listing
import SchemaLint.Proofs.Faultless
import SchemaLint.Provider.FieldStore

/-!
# Packages that look alike

Analyses know types and functions by their names and shapes, values by what
defines them, and bodies by what is defined, called, stored into fields and
returned in them. Two packages look alike when they agree in all this: paths
that do not show in a name may differ, and so may the instructions that stand
aside.
-/

namespace SchemaLint

inductive AlikeType : Ty → Ty → Prop
  | same (type : Ty) : AlikeType type type
  | named {package package' name underlying} :
    qualified package' name = qualified package name →
      AlikeType (.named package name underlying)
        (.named package' name underlying)

namespace Package

def isFieldAddr (p : Package) (value : ValueId) : Bool :=
  match p.operationAt value with
  | .ok (.fieldAddr ..) => true
  | _ => false

def isAside (p : Package) : Instruction → Bool
  | .define _ | .ret .. | .go .. | .defer .. => false
  | .store addr _ _ => !p.isFieldAddr addr
  | .mapUpdate .. | .jump _ | .branch .. | .panic .. | .runDefers => true

def gist (p : Package) (instructions : List Instruction) : List Instruction :=
  instructions.filter fun instruction => !p.isAside instruction

structure AlikeFunc (p : Package) (f f' : Func) : Prop where
  shape : f' = { f with package := f'.package, blocks := f'.blocks }
  named : qualified f'.package f.name = qualified f.package f.name
  own : f'.package = some p.path ↔ f.package = some p.path
  external : f'.isExternal = f.isExternal
  gist : p.gist f'.instructions = p.gist f.instructions

structure Alike (p p' : Package) : Prop where
  path : p'.path = p.path
  values : p'.values = p.values
  positions : p'.positions = p.positions
  types : List.Forall₂ AlikeType p.types.toList p'.types.toList
  functions : List.Forall₂ p.AlikeFunc p.functions.toList p'.functions.toList

private theorem lastReturn?_gist (p : Package)
    (instructions : List Instruction) :
    lastReturn? (p.gist instructions) = lastReturn? instructions := by
  unfold lastReturn? gist
  rw [← List.filter_reverse]
  induction instructions.reverse with
  | nil => rfl
  | cons instruction rest ih =>
      cases haside : p.isAside instruction with
      | false => simp [haside, List.findSome?_cons, ih]
      | true =>
          rw [List.filter_cons_of_neg (by simp [haside]), List.findSome?_cons,
            ih]
          cases instruction <;> simp_all [isAside]

/-! ## Functions at the same places -/

section

variable {p p' : Package}

theorem funcAt_forall₂ {R : Func → Func → Prop}
    (hrelated : List.Forall₂ R p.functions.toList p'.functions.toList)
    (id : FuncId) :
    (∃ f f', p.funcAt id = .ok f ∧ p'.funcAt id = .ok f' ∧ R f f') ∨
      ∃ fault, p.funcAt id = .error fault ∧ p'.funcAt id = .error fault := by
  have hsize : p'.functions.size = p.functions.size := by
    simpa using hrelated.length_eq.symm
  by_cases hbound : id.index < p.functions.size
  · have hbound' : id.index < p'.functions.size := by rwa [hsize]
    refine .inl ⟨p.functions[id.index], p'.functions[id.index], ?_, ?_, ?_⟩
    · simp [Package.funcAt, hbound]
    · simp [Package.funcAt, hbound']
    · exact hrelated.get hbound hbound'
  · have hbound' : ¬id.index < p'.functions.size := by rwa [hsize]
    exact .inr ⟨.function id, by simp [Package.funcAt, hbound],
      by simp [Package.funcAt, hbound']⟩

variable {Q : List Instruction → List Instruction → Prop}
  (hrelated :
    List.Forall₂ (fun f f' => Q f.instructions f'.instructions)
      p.functions.toList p'.functions.toList)
include hrelated

theorem instructions_forall₂ (id : FuncId) :
    (∃ body body', p.instructions id = .ok body ∧
        p'.instructions id = .ok body' ∧ Q body body') ∨
      ∃ fault, p.instructions id = .error fault ∧
        p'.instructions id = .error fault := by
  unfold Package.instructions
  rcases funcAt_forall₂ hrelated id with
    ⟨f, f', hfound, hfound', hbodies⟩ | ⟨fault, hfound, hfound'⟩
  · exact .inl ⟨f.instructions, f'.instructions, by simp [hfound],
      by simp [hfound'], hbodies⟩
  · exact .inr ⟨fault, by simp [hfound], by simp [hfound']⟩

theorem siblings_forall₂ (hvalues : p'.values = p.values) (hempty : Q [] [])
    (value : ValueId) :
    (∃ body body', p.siblings value = .ok body ∧ p'.siblings value = .ok body' ∧
        Q body body') ∨ ∃ fault, p.siblings value = .error fault ∧
        p'.siblings value = .error fault := by
  have hentry : p'.valueAt value = p.valueAt value := by
    rw [Package.valueAt, Package.valueAt, hvalues]
  simp only [Package.siblings, hentry]
  cases p.valueAt value with
  | error fault => exact .inr ⟨fault, rfl, rfl⟩
  | ok entry =>
      simp only [Access.ok_bind]
      cases entry.parent with
      | none => exact .inl ⟨[], [], rfl, rfl, hempty⟩
      | some parent => exact instructions_forall₂ hrelated parent

end

def entriesOn (map : ValueId) (instructions : List Instruction) :
    List MapEntry :=
  instructions.filterMap fun
    | .mapUpdate updated key value pos =>
      if updated == map then some ⟨key, value, pos⟩ else none
    | _ => none

theorem mapEntries_eq_of_bodies {p p' : Package}
    (hvalues : p'.values = p.values)
    (hsame :
      List.Forall₂ (fun f f' =>
        ∀ map, entriesOn map f'.instructions = entriesOn map f.instructions)
        p.functions.toList p'.functions.toList)
    (map : ValueId) :
    p'.mapEntries map = p.mapEntries map := by
  have hbodies :=
    @siblings_forall₂ p p'
      (fun body body' => ∀ map, entriesOn map body' = entriesOn map body) hsame
      hvalues (fun _ => rfl) map
  unfold Package.mapEntries
  rcases hbodies with
    ⟨body, body', hfound, hfound', hentries⟩ | ⟨fault, hfound, hfound'⟩
  · rw [hfound, hfound']
    exact congrArg Except.ok (hentries map)
  · rw [hfound, hfound']

namespace Alike

variable {p p' : Package} (ha : p.Alike p')
include ha

/-! ## Types -/

theorem types_size : p'.types.size = p.types.size := by
  simpa using ha.types.length_eq.symm

theorem typeAt (id : TypeId) :
    (∃ type type', p.typeAt id = .ok type ∧ p'.typeAt id = .ok type' ∧
        AlikeType type type') ∨
      ∃ fault, p.typeAt id = .error fault ∧ p'.typeAt id = .error fault := by
  by_cases hbound : id.index < p.types.size
  · have hbound' : id.index < p'.types.size := by rwa [ha.types_size]
    refine .inl ⟨p.types[id.index], p'.types[id.index], ?_, ?_, ?_⟩
    · simp [Package.typeAt, hbound]
    · simp [Package.typeAt, hbound']
    · exact ha.types.get hbound hbound'
  · have hbound' : ¬id.index < p'.types.size := by rwa [ha.types_size]
    exact .inr ⟨.type id, by simp [Package.typeAt, hbound],
      by simp [Package.typeAt, hbound']⟩

theorem underlyingWithin (steps : Nat) (id : TypeId) :
    p'.underlyingWithin steps id = p.underlyingWithin steps id := by
  induction steps generalizing id with
  | zero => rfl
  | succ steps ih =>
      unfold Package.underlyingWithin
      rcases ha.typeAt id with
        ⟨type, type', hfound, hfound', hrelated⟩ | ⟨fault, hfound, hfound'⟩
      · rw [hfound, hfound']
        cases hrelated with
        | same => cases type <;> simp [ih]
        | named => simp [ih]
      · rw [hfound, hfound']
        rfl

theorem underlying (id : TypeId) : p'.underlying id = p.underlying id := by
  rw [Package.underlying, Package.underlying, ha.types_size,
    ha.underlyingWithin]

theorem structureOf (id : TypeId) :
    (∃ type type', p.structureOf id = .ok type ∧ p'.structureOf id = .ok type' ∧
        AlikeType type type') ∨ ∃ fault, p.structureOf id = .error fault ∧
        p'.structureOf id = .error fault := by
  unfold Package.structureOf
  rw [ha.underlying]
  cases p.underlying id with
  | error fault => exact .inr ⟨fault, rfl, rfl⟩
  | ok inner => exact ha.typeAt inner

/-- What looks at the structure behind a type, and not at the path of a named
one, finds the same. -/
theorem structureOf_bind {next : Ty → Access α}
    (hblind :
      ∀ package package' name underlying, next
          (.named package name underlying) =
        next (.named package' name underlying))
    (id : TypeId) :
    p'.structureOf id >>= next = p.structureOf id >>= next := by
  rcases ha.structureOf id with
    ⟨type, type', hfound, hfound', hrelated⟩ | ⟨fault, hfound, hfound'⟩
  · rw [hfound, hfound']
    cases hrelated with
    | same => rfl
    | named => exact hblind _ _ _ _
  · rw [hfound, hfound']

theorem derefType (id : TypeId) : p'.derefType id = p.derefType id :=
  ha.structureOf_bind (fun _ _ _ _ => rfl) id

theorem pointerDepthWithin (steps : Nat) (id : TypeId) :
    p'.pointerDepthWithin steps id = p.pointerDepthWithin steps id := by
  induction steps generalizing id with
  | zero =>
      unfold Package.pointerDepthWithin
      exact ha.structureOf_bind (fun _ _ _ _ => rfl) id
  | succ steps ih =>
      unfold Package.pointerDepthWithin
      simp only [ih]
      exact ha.structureOf_bind (fun _ _ _ _ => rfl) id

theorem pointerDepth (id : TypeId) :
    p'.pointerDepth id = p.pointerDepth id := by
  rw [Package.pointerDepth, Package.pointerDepth, ha.types_size,
    ha.pointerDepthWithin]

theorem fields (id : TypeId) : p'.fields id = p.fields id := by
  unfold Package.fields
  rw [ha.derefType]
  congr 1
  funext inner
  exact ha.structureOf_bind (fun _ _ _ _ => rfl) inner

theorem field? (id : TypeId) (index : Nat) :
    p'.field? id index = p.field? id index := by
  rw [Package.field?, Package.field?, ha.fields]

theorem typeNameWithin (depth : Nat) (id : TypeId) :
    p'.typeNameWithin depth id = p.typeNameWithin depth id := by
  induction depth generalizing id with
  | zero => rfl
  | succ depth ih =>
      have hnames : p'.typeNameWithin depth = p.typeNameWithin depth :=
        funext ih
      unfold Package.typeNameWithin
      rw [hnames]
      rcases ha.typeAt id with
        ⟨type, type', hfound, hfound', hrelated⟩ | ⟨fault, hfound, hfound'⟩
      · rw [hfound, hfound']
        cases hrelated with
        | same => rfl
        | named hsame => simp [hsame]
      · rw [hfound, hfound']

theorem typeName (id : TypeId) : p'.typeName id = p.typeName id := by
  rw [Package.typeName, Package.typeName, ha.types_size, ha.typeNameWithin]

theorem isType (id : TypeId) (name : String) :
    p'.isType id name = p.isType id name := by
  simp only [Package.isType, ha.derefType, ha.typeName]

/-! ## Functions -/

theorem funcAt (id : FuncId) :
    (∃ f f', p.funcAt id = .ok f ∧ p'.funcAt id = .ok f' ∧ p.AlikeFunc f f') ∨
      ∃ fault, p.funcAt id = .error fault ∧ p'.funcAt id = .error fault :=
  funcAt_forall₂ ha.functions id

/-- What looks at a function, and at neither the path of its package nor what
stands aside in it, finds the same. -/
theorem funcAt_bind {next next' : Func → Access α}
    (hblind : ∀ f f', p.AlikeFunc f f' → next' f' = next f) (id : FuncId) :
    p'.funcAt id >>= next' = p.funcAt id >>= next := by
  rcases ha.funcAt id with
    ⟨f, f', hfound, hfound', hrelated⟩ | ⟨fault, hfound, hfound'⟩
  · rw [hfound, hfound']
    exact hblind f f' hrelated
  · rw [hfound, hfound']
    rfl

theorem bodies :
    List.Forall₂ (fun f f' => p.gist f'.instructions = p.gist f.instructions)
      p.functions.toList p'.functions.toList :=
  ha.functions.imp fun _ _ hrelated => hrelated.gist

theorem instructions (id : FuncId) :
    (∃ body body', p.instructions id = .ok body ∧
        p'.instructions id = .ok body' ∧ p.gist body' = p.gist body) ∨
      ∃ fault, p.instructions id = .error fault ∧
        p'.instructions id = .error fault :=
  @instructions_forall₂ p p' (fun body body' => p.gist body' = p.gist body)
    ha.bodies id

theorem results (id : FuncId) : p'.results id = p.results id := by
  refine ha.funcAt_bind (fun f f' hrelated => ?_) id
  rw [hrelated.shape]
  rcases ha.typeAt f.signature with
    ⟨type, type', hfound, hfound', hofType⟩ | ⟨fault, hfound, hfound'⟩
  · simp only [hfound, hfound', Access.ok_bind]
    cases hofType <;> rfl
  · simp only [hfound, hfound']

theorem returnValue? (id : FuncId) (index : Nat) :
    p'.returnValue? id index = p.returnValue? id index := by
  simp only [Package.returnValue?, ha.results]
  congr 1
  funext results
  split
  · rfl
  · rcases ha.instructions id with
      ⟨body, body', hfound, hfound', hsame⟩ | ⟨fault, hfound, hfound'⟩
    · rw [hfound, hfound', Access.ok_bind, Access.ok_bind,
        ← lastReturn?_gist p body', hsame, lastReturn?_gist]
    · rw [hfound, hfound']

theorem funcName (id : FuncId) : p'.funcName id = p.funcName id := by
  refine ha.funcAt_bind (fun f f' hrelated => ?_) id
  have hnamed := hrelated.named
  rw [hrelated.shape]
  simp only [ha.typeName, hnamed]

theorem owns {f f' : Func} (hrelated : p.AlikeFunc f f') :
    p'.owns f' = p.owns f := by
  have hpackage : (f'.package == some p.path) = (f.package == some p.path) := by
    rw [Bool.eq_iff_iff, beq_iff_eq, beq_iff_eq, hrelated.own]
  rw [Package.owns, Package.owns, ha.path, hpackage, hrelated.external]

/-! ## Values -/

theorem valueAt (id : ValueId) : p'.valueAt id = p.valueAt id := by
  rw [Package.valueAt, Package.valueAt, ha.values]

theorem operationAt (id : ValueId) : p'.operationAt id = p.operationAt id := by
  rw [Package.operationAt, Package.operationAt, ha.valueAt]

theorem typeOf (id : ValueId) : p'.typeOf id = p.typeOf id := by
  rw [Package.typeOf, Package.typeOf, ha.valueAt]

theorem callSite? (instruction : Instruction) :
    p'.callSite? instruction = p.callSite? instruction := by
  cases instruction <;> simp only [Package.callSite?, ha.valueAt]

theorem staticCallee? (call : Call) :
    p'.staticCallee? call = p.staticCallee? call := by
  simp only [Package.staticCallee?, ha.operationAt]

theorem callee? (instruction : Instruction) :
    p'.callee? instruction = p.callee? instruction := by
  simp only [Package.callee?, ha.callSite?, ha.staticCallee?]

theorem constString? (value : ValueId) :
    p'.constString? value = p.constString? value := by
  simp only [Package.constString?, ha.operationAt]

theorem operandText (id : ValueId) : p'.operandText id = p.operandText id := by
  simp only [Package.operandText, ha.valueAt, ha.typeName, ha.funcName]

theorem operandTexts (ids : List ValueId) :
    p'.operandTexts ids = p.operandTexts ids := by
  simp only [Package.operandTexts, funext ha.operandText]

theorem callText (call : Call) : p'.callText call = p.callText call := by
  simp only [Package.callText, ha.operandTexts, ha.operandText]

theorem fieldText (base : ValueId) (index : Nat) :
    p'.fieldText base index = p.fieldText base index := by
  simp only [Package.fieldText, ha.typeOf, ha.field?]

theorem valueText (id : ValueId) : p'.valueText id = p.valueText id := by
  simp only [Package.valueText, ha.valueAt, funext ha.operandText, ha.typeName,
    ha.derefType, ha.operandTexts, ha.fieldText, ha.callText]

end Alike

end Package

end SchemaLint
