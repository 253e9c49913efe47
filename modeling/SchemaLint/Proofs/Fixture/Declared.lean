import SchemaLint.Fixture.Lowering
import SchemaLint.Proofs.Sorting
import SchemaLint.Provider.Extraction

/-!
# What fixtures declare

The attributes and components that a fixture stands for, read off the fixture
itself: no package is built and no instruction looked at. Positions are left
out, and functions are given by their names.
-/

namespace SchemaLint

/-! ## Attributes -/

def AttributeType.isCollection : AttributeType → Bool
  | list | set | map => true
  | _ => false

theorem sortByName_nil : sortByName [] = [] := rfl

namespace Attribute

mutual

def unplaced : Attribute → Attribute
  | ⟨name, description, required, optional, computed, type, children, minItems,
      maxItems, isPartial, _⟩ =>
    { name, description, required, optional, computed, type, minItems, maxItems,
      isPartial
      children := unplacedAll children }

def unplacedAll : List Attribute → List Attribute
  | [] => []
  | attr :: rest => unplaced attr :: unplacedAll rest

end

theorem unplacedAll_eq_map (attributes : List Attribute) :
    unplacedAll attributes = attributes.map unplaced := by
  induction attributes with
  | nil => rfl
  | cons attr rest ih => rw [unplacedAll, ih, List.map_cons]

@[simp] theorem unplaced_name (attr : Attribute) :
    attr.unplaced.name = attr.name := by
  obtain ⟨⟩ := attr
  rfl

@[simp] theorem unplaced_isPartial (attr : Attribute) :
    attr.unplaced.isPartial = attr.isPartial := by
  obtain ⟨⟩ := attr
  rfl

def inOrder (attributes : List Attribute) : List Attribute :=
  attributes.mergeSort (·.name ≤ ·.name)

theorem map_unplaced_sortByName (attributes : List Attribute) :
    (sortByName attributes).map unplaced =
      inOrder (attributes.map unplaced) := by
  rw [sortByName, sortBy_eq_mergeSort, inOrder, List.map_mergeSort]
  simp

theorem any_isPartial_map_unplaced (attributes : List Attribute) :
    (attributes.map unplaced).any (·.isPartial) =
      attributes.any (·.isPartial) := by
  simp [List.any_map, Function.comp_def]

end Attribute

namespace AttributeFixture

def type? (attr : AttributeFixture) : Option AttributeType :=
  match attr.typeConst with
  | some code => AttributeType.ofCode? code
  | none => attr.type.bind AttributeType.ofName?

def hasDynamicElem : Option (ElemOf AttributeFixture) → Bool
  | some ⟨some inner, _⟩ => inner.isDynamic
  | _ => false

private theorem isSome_ofCode? {code : Int} (hgiven : 1 ≤ code ∧ code ≤ 7) :
    (AttributeType.ofCode? code).isSome = true := by
  obtain ⟨hlow, hhigh⟩ := hgiven
  have hcases : code = 1 ∨ code = 2 ∨ code = 3 ∨ code = 4 ∨ code = 5 ∨
      code = 6 ∨ code = 7 := by omega
  rcases hcases with rfl | rfl | rfl | rfl | rfl | rfl | rfl <;> rfl

/-- The constant that is written for the name of a type is that of the type. -/
theorem ofName?_of_typeCode {name : String} {code : Int}
    (hcoded : typeCode name = .ok code) :
    AttributeType.ofName? name = AttributeType.ofCode? code ∧
      (AttributeType.ofCode? code).isSome = true := by
  unfold typeCode at hcoded
  split at hcoded
  · next type hfound =>
      cases hcoded
      have hnamed : type.name = name := by simpa using List.find?_some hfound
      subst hnamed
      cases type with
      | invalid => exact absurd (List.mem_of_find?_eq_some hfound) (by decide)
      | _ => exact ⟨rfl, rfl⟩
  · cases hcoded

/-- A constant is written for a type just when one is declared, and is that of
the type. -/
theorem type?_of_code? {attr : AttributeFixture} {code : Option Int}
    (hcoded : attr.code? = .ok code)
    (hgiven : ∀ code ∈ attr.typeConst, 1 ≤ code ∧ code ≤ 7) :
    attr.type? = code.bind AttributeType.ofCode? ∧
      attr.type?.isSome = code.isSome := by
  unfold code? at hcoded
  unfold type?
  cases hconstant : attr.typeConst with
  | some n =>
      rw [hconstant] at hcoded
      cases hcoded
      exact ⟨rfl, isSome_ofCode? (hgiven n hconstant)⟩
  | none =>
      cases hdeclared : attr.type with
      | none =>
          rw [hconstant, hdeclared] at hcoded
          cases hcoded
          exact ⟨rfl, rfl⟩
      | some name =>
          rw [hconstant, hdeclared] at hcoded
          cases hwritten : typeCode name with
          | error error => simp [hwritten, Except.map] at hcoded
          | ok n =>
              simp only [hwritten, Except.map, Except.ok.injEq] at hcoded
              subst hcoded
              obtain ⟨hsame, hsome⟩ := ofName?_of_typeCode hwritten
              simp only [Option.bind_some, hsame, hsome, Option.isSome_some,
                and_self]

mutual

def declared (name : String) : AttributeFixture → Attribute
  | attr@⟨_, _, required, optional, computed, _, description, minItems,
      maxItems, elem, isDynamic⟩ =>
    if isDynamic then { name, isPartial := true }
    else
      let type := attr.type?.getD .invalid
      let children :=
        if type.isCollection then Attribute.inOrder (declaredElem elem) else []
      { name, required, optional, computed, minItems, maxItems, type, children
        description := Text.trim (description.getD "")
        isPartial :=
          attr.type?.isNone || (type.isCollection && hasDynamicElem elem) ||
            children.any (·.isPartial) }

def declaredElem : Option (ElemOf AttributeFixture) → List Attribute
  | some ⟨_, some attributes⟩ => declaredAll attributes
  | _ => []

def declaredAll : AttributeFixtures → List Attribute
  | [] => []
  | (name, attr) :: rest => declared name attr :: declaredAll rest

end

theorem declared_dynamic {attr : AttributeFixture}
    (hdynamic : attr.isDynamic = true) (name : String) :
    attr.declared name = { name, isPartial := true } := by
  obtain ⟨⟩ := attr
  rw [declared, if_pos hdynamic]

theorem declared_static {attr : AttributeFixture}
    (hstatic : attr.isDynamic = false) (name : String)
    {children : List Attribute}
    (hsame :
      (if (attr.type?.getD .invalid).isCollection then
          Attribute.inOrder (declaredElem attr.elem)
        else [])
      = children) :
    attr.declared name =
      { name, children
        required := attr.required
        optional := attr.optional
        computed := attr.computed
        minItems := attr.minItems
        maxItems := attr.maxItems
        type := attr.type?.getD .invalid
        description := Text.trim (attr.description.getD "")
        isPartial :=
          attr.type?.isNone ||
            ((attr.type?.getD .invalid).isCollection &&
              hasDynamicElem attr.elem) ||
          children.any (·.isPartial) } := by
  subst hsame
  obtain ⟨⟩ := attr
  rw [declared, if_neg (by simpa using hstatic)]

mutual

def nesting : AttributeFixture → Nat
  | ⟨_, _, _, _, _, _, _, _, _, elem, _⟩ => nestingElem elem

def nestingElem : Option (ElemOf AttributeFixture) → Nat
  | none => 0
  | some ⟨none, none⟩ => 0
  | some ⟨some inner, none⟩ => nesting inner
  | some ⟨none, some attributes⟩ => nestingAll attributes + 1
  | some ⟨some inner, some attributes⟩ =>
    max (nesting inner) (nestingAll attributes + 1)

def nestingAll : AttributeFixtures → Nat
  | [] => 0
  | (_, attr) :: rest => max (nesting attr) (nestingAll rest)

end

theorem nesting_eq (attr : AttributeFixture) :
    attr.nesting = nestingElem attr.elem := by
  obtain ⟨⟩ := attr
  rw [nesting]

mutual

def HasKnownCodes : AttributeFixture → Prop
  | ⟨_, typeConst, _, _, _, _, _, _, _, elem, _⟩ =>
    (∀ code ∈ typeConst, 1 ≤ code ∧ code ≤ 7) ∧ ElemHasKnownCodes elem

def ElemHasKnownCodes : Option (ElemOf AttributeFixture) → Prop
  | none => True
  | some ⟨none, none⟩ => True
  | some ⟨some inner, none⟩ => HasKnownCodes inner
  | some ⟨none, some attributes⟩ => HaveKnownCodes attributes
  | some ⟨some inner, some attributes⟩ =>
    HasKnownCodes inner ∧ HaveKnownCodes attributes

def HaveKnownCodes : AttributeFixtures → Prop
  | [] => True
  | (_, attr) :: rest => HasKnownCodes attr ∧ HaveKnownCodes rest

end

theorem hasKnownCodes_iff {attr : AttributeFixture} :
    attr.HasKnownCodes ↔
      (∀ code ∈ attr.typeConst, 1 ≤ code ∧ code ≤ 7) ∧
        ElemHasKnownCodes attr.elem := by
  obtain ⟨⟩ := attr
  rw [HasKnownCodes]

end AttributeFixture

/-! ## Components -/

structure ComponentOutline where
  name : String
  nameSuffix : String
  description : String
  builder : String
  functions : List (LifecycleSlot × String)
  attributes : List Attribute
  isPartial : Bool

def Component.outline (p : Package) (component : Component) :
    Access ComponentOutline := do
  let functions ←
    component.declared.mapM fun (slot, func) =>
      do return (slot, ← p.funcName func)
  return {
    name := component.name
    nameSuffix := component.nameSuffix
    description := component.description
    builder := ← p.funcName component.builder
    functions
    attributes := component.attributes.map Attribute.unplaced
    isPartial := component.isPartial }

/-- The name without the provider's name and the underscore after it, for a
provider that has a name. -/
def suffixOf (provider name : String) : String :=
  if provider = "" then name
  else
    match (provider ++ "_").toList.isPrefixOf? name.toList with
    | some rest => String.ofList rest
    | none => name

def FunctionFixture.declaredName (path stem : String) (slot : LifecycleSlot)
    (fixture : FunctionFixture) : String :=
  match fixture.sdk with
  | some _ => Sdk.usual.removeFromState
  | none => qualified path (stem ++ slot.fieldName)

/-- The component that a fixture declares, in the package of this path. -/
def ComponentFixture.declared (path kind : String) :
    String × ComponentFixture → ComponentOutline
  | (name, fixture) =>
    let stem := camel (kind ++ "_" ++ name)
    let attributes :=
      Attribute.inOrder (AttributeFixture.declaredAll (fixture.schema.getD []))
    { name
      nameSuffix := suffixOf ((providerName? path).getD "") name
      -- The first line of the comment is left out.
      description :=
        Text.trim ("\n".intercalate ((Text.lines (fixture.doc.getD "")).drop 1))
      builder := qualified path stem
      functions :=
        fixture.bodies.map fun (slot, body) =>
          (slot, body.declaredName path stem slot)
      attributes
      isPartial := fixture.schema.isNone || attributes.any (·.isPartial) }

/-- Every constant that is given for a type is one that there is, and resources
are not nested too deep. -/
def ComponentFixture.IsReadable (fixture : ComponentFixture) : Prop :=
  AttributeFixture.HaveKnownCodes (fixture.schema.getD []) ∧
    AttributeFixture.nestingAll (fixture.schema.getD []) ≤ 32

/-! ## Providers -/

structure ProviderOutline where
  name : String
  dataSources : List ComponentOutline
  resources : List ComponentOutline

def Provider.outline (provider : Provider) : Access ProviderOutline := do
  return {
    name := provider.name
    dataSources :=
      ← provider.dataSources.mapM (Component.outline provider.package)
    resources :=
      ← provider.resources.mapM (Component.outline provider.package) }

def ProviderFixture.declared (fixture : ProviderFixture) : ProviderOutline where
  name := (providerName? fixture.path).getD ""
  dataSources :=
    fixture.dataSources.map
      (ComponentFixture.declared fixture.path "data_source")
  resources :=
    fixture.resources.map (ComponentFixture.declared fixture.path "resource")

end SchemaLint
