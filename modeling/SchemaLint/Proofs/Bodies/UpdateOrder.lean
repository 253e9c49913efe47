import SchemaLint.Proofs.Bodies.Neutral
import SchemaLint.Proofs.Extraction.Complete
import SchemaLint.Proofs.Rearranged
import SchemaLint.Provider.SchemaTree

/-!
# The order of map updates

Neighbouring updates may change places when they update different maps, or when
their keys are not known to be the same text. The attributes of a schema are
sorted by name, so they stay the same at every depth; the components of a
provider change places with the updates that name them, and the schema tree,
where they are sorted, stays the same.
-/

namespace SchemaLint

namespace Report

def Entails (x x' : Report ε α) : Prop := ∀ a, x.Yields a → x'.Yields a

theorem Entails.refl (x : Report ε α) : x.Entails x := fun _ => id

theorem Entails.bind {x : Report ε α} {f f' : α → Report ε β}
    (heach : ∀ a, (f a).Entails (f' a)) : (x >>= f).Entails (x >>= f') := by
  intro b hyields
  obtain ⟨a, hfirst, hsecond⟩ := bind_yields.1 hyields
  exact bind_yields.2 ⟨a, hfirst, heach a b hsecond⟩

theorem Entails.bind_left {x x' : Report ε α} (hfirst : x.Entails x')
    (f : α → Report ε β) : (x >>= f).Entails (x' >>= f) := by
  intro b hyields
  obtain ⟨a, hyields, hsecond⟩ := bind_yields.1 hyields
  exact bind_yields.2 ⟨a, hfirst a hyields, hsecond⟩

theorem Entails.within {x x' : Analysis ε α} (hinner : x.Entails x')
    (wrap : ε → δ) :
    Entails (Analysis.within wrap x) (Analysis.within wrap x') := by
  intro a hyields
  exact Analysis.within_yields.2 (hinner a (Analysis.within_yields.1 hyields))

end Report

/-! ## Independent updates -/

namespace Package

def IsText (p : Package) (value : ValueId) (text : String) : Prop :=
  ∃ root, p.root value = .ok root ∧ p.constString? root = .ok (some text)

theorem IsText.unique {p : Package} {value : ValueId} {text text' : String}
    (hone : p.IsText value text) (hother : p.IsText value text') :
    text = text' := by
  obtain ⟨root, htraced, hconstant⟩ := hone
  obtain ⟨root', htraced', hconstant'⟩ := hother
  cases htraced.symm.trans htraced'
  cases hconstant.symm.trans hconstant'
  rfl

/-- The keys are not known to be the same text. -/
def KeysApart (p : Package) (entry entry' : MapEntry) : Prop :=
  ∀ text, p.IsText entry.key text → ¬p.IsText entry'.key text

inductive Independent (p : Package) : Instruction → Instruction → Prop
  | maps {map map' : ValueId} (entry entry' : MapEntry) : map ≠ map' →
    Independent p (.mapUpdate map entry.key entry.value entry.pos)
      (.mapUpdate map' entry'.key entry'.value entry'.pos)
  | keys {map map' : ValueId} (entry entry' : MapEntry) :
    p.KeysApart entry entry' →
    Independent p (.mapUpdate map entry.key entry.value entry.pos)
      (.mapUpdate map' entry'.key entry'.value entry'.pos)

/-- The second package is the first one with independent updates exchanged in
the blocks of its functions. -/
def Reordered (p p' : Package) : Prop :=
  p.Rebodied (Rearranged p.Independent) p'

variable {p p' : Package}

theorem Reordered.alike (hmoved : p.Reordered p') : p.Alike p' := by
  refine Rebodied.alike hmoved fun {block block'} hrelated => ?_
  refine Rearranged.filter_eq hrelated fun hfree _ => ?_
  cases hfree <;> rfl

theorem Reordered.mapEntries (hmoved : p.Reordered p') {map : ValueId}
    {entries : List MapEntry} (hfound : p.mapEntries map = .ok entries) :
    ∃ entries', p'.mapEntries map = .ok entries' ∧
      Rearranged p.KeysApart entries entries' := by
  have hbodies :=
    @Rebodied.bodies _ p p' hmoved (Rearranged p.Independent) (.refl [])
      Rearranged.append
  unfold Package.mapEntries at hfound ⊢
  rcases siblings_forall₂ hbodies hmoved.values (.refl []) map with
    ⟨body, body', hknown, hknown', hrelated⟩ | ⟨fault, hknown, hknown'⟩
  · rw [hknown] at hfound
    rw [hknown']
    cases hfound
    refine ⟨_, rfl, hrelated.filterMap fun {a b x y} hfree hfirst hsecond => ?_⟩
    cases hfree with
    | maps entry entry' hapart =>
        simp only [Option.ite_none_right_eq_some, beq_iff_eq] at hfirst hsecond
        exact absurd (hfirst.1.trans hsecond.1.symm) hapart
    | keys entry entry' hapart =>
        simp only [Option.ite_none_right_eq_some,
          Option.some.injEq] at hfirst hsecond
        obtain ⟨-, rfl⟩ := hfirst
        obtain ⟨-, rfl⟩ := hsecond
        exact hapart
  · rw [hknown] at hfound
    cases hfound

end Package

/-! ## Attributes -/

namespace Subject

variable {s : Subject}

section

variable {nested nested' : ValueId → Extract AttributeList}
  (hbelow : ∀ value, (nested value).Entails (nested' value))
include hbelow

private theorem element_entails (value : ValueId) :
    (s.element nested value).Entails (s.element nested' value) := by
  unfold element
  refine .bind fun elem => .bind fun isResource => ?_
  split
  · refine .bind fun stores => ?_
    split
    · exact hbelow _
    · exact .refl _
  · exact .refl _

private theorem elementStore_entails (stores : List FieldStore) : Report.Entails
    (match firstStore? stores "Elem" with
      | some store => s.element nested store.value
      | none => return .complete)
    (match firstStore? stores "Elem" with
      | some store => s.element nested' store.value
      | none => return .complete) := by
  split
  · exact element_entails hbelow _
  · exact .refl _

private theorem children_entails (type : AttributeType)
    (stores : List FieldStore) :
    (s.children nested type stores).Entails
      (s.children nested' type stores) := by
  have hfromElement := elementStore_entails (s := s) hbelow stores
  cases type with
  | list => exact hfromElement
  | set => exact hfromElement
  | map =>
      unfold children
      cases firstStore? stores "Schema" with
      | none => exact hfromElement
      | some store => exact hbelow store.value
  | _ => exact .refl _

private theorem entryAttribute?_entails (entry : MapEntry) :
    (s.entryAttribute? nested entry).Entails
      (s.entryAttribute? nested' entry) := by
  have hdescribed (name : String) (stores : List FieldStore) :
      (s.describedAttribute nested name entry.pos stores).Entails
        (s.describedAttribute nested' name entry.pos stores) := by
    unfold describedAttribute
    iterate 7 refine .bind fun _ => ?_
    exact (children_entails hbelow _ _).bind_left _
  have hentered (name : String) : (s.attributeOf nested name entry).Entails
      (s.attributeOf nested' name entry) := by
    unfold attributeOf
    refine .bind fun schema => .bind fun isSchema => ?_
    split
    · exact .bind fun stores => hdescribed name stores
    · exact .refl _
  unfold entryAttribute?
  refine .bind fun name => ?_
  split
  · exact .refl _
  · refine .within ?_ _
    rw [← bind_pure_comp, ← bind_pure_comp]
    exact (hentered _).bind_left _

end

private theorem entryAttribute?_name {nested : ValueId → Extract AttributeList}
    {entry : MapEntry} {attr : Attribute}
    (hyields : (s.entryAttribute? nested entry).Yields (some attr)) :
    s.package.IsText entry.key attr.name := by
  obtain ⟨⟨key, htraced, hconstant⟩, -⟩ := entryAttribute?_cases hyields
  exact ⟨key, htraced, Package.constString?_eq_some_iff.2 hconstant⟩

variable {p' : Package} (hmoved : s.package.Reordered p')
include hmoved

private theorem schemaMap_entails
    {nested nested' : ValueId → Extract AttributeList}
    (hbelow : ∀ value, (nested value).Entails (nested' value))
    (value : ValueId) :
    (s.schemaMap nested value).Entails ((s.on p').schemaMap nested' value) := by
  have halike := hmoved.alike
  simp only [schemaMap, on_package, halike.root, halike.isMap, halike.valueText,
    funext (entryAttribute?_on halike nested')]
  refine .bind fun map => .bind fun isMap => ?_
  split
  · intro list
    simp only [Report.bind_yields, Analysis.monadLift_yields,
      Report.mapM_yields, Report.pure_yields]
    rintro ⟨entries, hknown, found, heach, rfl⟩
    obtain ⟨entries', hknown', hapart⟩ := hmoved.mapEntries hknown
    -- An entry without a name gives no attribute, so exchanged entries never
    -- give attributes of one name.
    have hnamed {entry entry' one other}
        (hfree : s.package.KeysApart entry entry')
        (hfirst : (s.entryAttribute? nested entry).Yields one)
        (hsecond : (s.entryAttribute? nested entry').Yields other) :
        ∀ a b, one = some a → other = some b → a.name ≠ b.name := by
      rintro a b rfl rfl hnames
      refine hfree a.name (entryAttribute?_name hfirst) ?_
      rw [hnames]
      exact entryAttribute?_name hsecond
    obtain ⟨found', heach', hrearranged⟩ := hapart.forall₂ heach hnamed
    refine ⟨entries', hknown', found',
      heach'.imp fun entry attr => entryAttribute?_entails hbelow entry attr,
      ?_⟩
    have hsorted : sortBy Attribute.name (found'.filterMap id) =
        sortBy Attribute.name (found.filterMap id) :=
      Rearranged.sortBy_eq _ (hrearranged.filterMap fun hfree hfirst hsecond =>
        hfree _ _ hfirst hsecond)
    rw [hrearranged.perm.any_eq]
    exact congrArg (AttributeList.mk · _) hsorted.symm
  · exact .refl _

private theorem attributesWithin_entails (depth : Nat) (value : ValueId) :
    (s.attributesWithin depth value).Entails
      ((s.on p').attributesWithin depth value) := by
  induction depth generalizing value with
  | zero => exact schemaMap_entails hmoved (fun _ => .refl _) value
  | succ depth ih => exact schemaMap_entails hmoved ih value

/-! ## Components -/

private theorem component_entails (name : String) (builder : FuncId)
    (pos : Pos) :
    (s.component name builder pos).Entails
      ((s.on p').component name builder pos) := by
  have halike := hmoved.alike
  have hattributes (stores : List FieldStore) :
      (s.componentAttributes name stores).Entails
        ((s.on p').componentAttributes name stores) := by
    unfold componentAttributes
    split
    · exact .refl _
    · exact .within (attributesWithin_entails hmoved _ _) _
  simp only [Subject.component, resourceStores_on halike,
    lifecycleFunction?_on halike, on_package]
  refine .bind fun stores => ?_
  rcases halike.funcAt builder with
    ⟨f, f', hfound, hfound', hrelated⟩ | ⟨fault, hfound, hfound'⟩
  · rw [hfound, hfound', Analysis.lift_ok_bind, Analysis.lift_ok_bind,
      hrelated.shape]
    exact .bind fun functions => (hattributes stores).bind_left _
  · rw [hfound, hfound', Analysis.lift_error_bind, Analysis.lift_error_bind]
    exact .refl _

private theorem mapComponent_entails (field : String) (entry : MapEntry) :
    (s.mapComponent field entry).Entails
      ((s.on p').mapComponent field entry) := by
  have halike := hmoved.alike
  simp only [mapComponent, on_package, halike.constText?,
    componentBuilder?_on halike]
  refine .bind fun name => ?_
  split
  · exact .refl _
  · refine .bind fun builder => ?_
    split
    · exact .refl _
    · exact .within (component_entails hmoved _ _ _) _

omit hmoved in
private theorem mapComponent_name {field : String} {entry : MapEntry}
    {component : Component}
    (hyields : (s.mapComponent field entry).Yields component) :
    s.package.IsText entry.key component.name :=
  (mapComponent_cases hyields).1

private theorem components_rearranged {stores : List FieldStore}
    {field : String} {list : List Component}
    (hyields : (s.components stores field).Yields list) :
    ∃ list', ((s.on p').components stores field).Yields list' ∧
      Rearranged (fun one other => one.name ≠ other.name) list list' := by
  have halike := hmoved.alike
  unfold Subject.components at hyields ⊢
  cases hstored : firstStore? stores field with
  | none =>
      simp only [hstored] at hyields
      exact ⟨list, hyields, .refl _⟩
  | some store =>
      simp only [hstored, on_package, halike.root, halike.isMap,
        Report.bind_yields, Analysis.monadLift_yields] at hyields ⊢
      obtain ⟨map, htraced, isMap, hknown, hyields⟩ := hyields
      cases isMap with
      | false => simp at hyields
      | true =>
          simp only [↓reduceIte, Report.bind_yields, Analysis.monadLift_yields,
            Report.mapM_yields] at hyields
          obtain ⟨entries, hfound, heach⟩ := hyields
          obtain ⟨entries', hfound', hapart⟩ := hmoved.mapEntries hfound
          have hnamed {entry entry' one other}
              (hfree : s.package.KeysApart entry entry')
              (hfirst : (s.mapComponent field entry).Yields one)
                (hsecond : (s.mapComponent field entry').Yields other) :
              one.name ≠ other.name := by
            intro hnames
            refine hfree one.name (mapComponent_name hfirst) ?_
            rw [hnames]
            exact mapComponent_name hsecond
          obtain ⟨list', heach', hrearranged⟩ := hapart.forall₂ heach hnamed
          refine ⟨list', ⟨map, htraced, true, hknown, ?_⟩, hrearranged⟩
          simp only [↓reduceIte, Report.bind_yields, Analysis.monadLift_yields,
            Report.mapM_yields]
          exact ⟨entries', hfound',
            heach'.imp fun entry component =>
              mapComponent_entails hmoved field entry component⟩

private theorem extract_rearranged {extraction : Extraction}
    (hyields : s.extract.Yields extraction) :
    ∃ extraction', (s.on p').extract.Yields extraction' ∧
      Rearranged (fun one other => one.name ≠ other.name) extraction.dataSources
        extraction'.dataSources ∧
      Rearranged (fun one other => one.name ≠ other.name) extraction.resources
        extraction'.resources := by
  simp only [extract, Report.bind_yields, Report.pure_yields] at hyields
  obtain ⟨stores, hknown, dataSources, hfirst, resources, hsecond, rfl⟩ :=
    hyields
  obtain ⟨dataSources', hfirst', hmoved₁⟩ := components_rearranged hmoved hfirst
  obtain ⟨resources', hsecond', hmoved₂⟩ := components_rearranged hmoved hsecond
  refine ⟨⟨dataSources', resources'⟩, ?_, hmoved₁, hmoved₂⟩
  simp only [extract, providerStores_on hmoved.alike, Report.bind_yields,
    Report.pure_yields]
  exact ⟨stores, hknown, dataSources', hfirst', resources', hsecond', rfl⟩

end Subject

private theorem Provider.titled_rearranged
    {components components' : List Component}
    (hmoved :
      Rearranged (fun one other => one.name ≠ other.name) components
        components')
    (title : String) :
    titled title components' = titled title components := by
  have hsorted : sortBy Component.name components' =
      sortBy Component.name components := hmoved.sortBy_eq Component.name
  have hempty : components'.isEmpty = components.isEmpty :=
    hmoved.perm.isEmpty_eq
  simp only [titled, hempty, hsorted]

/-- Where independent map updates are exchanged the same components are found,
with the same attributes, flags, positions and lifecycle functions, though
perhaps in another order, and the schema tree is the same text. -/
theorem independent_updates_commute {p p' : Package} (hmoved : p.Reordered p')
    {sdk : Sdk} {provider : Provider}
    (hfound : (Provider.ofPackage p sdk).Yields provider) :
    ∃ provider', (Provider.ofPackage p' sdk).Yields provider' ∧
      provider'.name = provider.name ∧ provider'.package = p' ∧
      provider'.dataSources.Perm provider.dataSources ∧
      provider'.resources.Perm provider.resources ∧
      provider'.tree = provider.tree := by
  simp only [Provider.ofPackage, Report.bind_yields,
    Report.pure_yields] at hfound
  obtain ⟨extraction, hyields, rfl⟩ := hfound
  obtain ⟨extraction', hyields', hdataSources, hresources⟩ :=
    Subject.extract_rearranged hmoved hyields
  refine ⟨⟨(providerName? p.path).getD "", p', extraction'.dataSources,
      extraction'.resources⟩, ?_, rfl, rfl, hdataSources.perm, hresources.perm,
    ?_⟩
  · simp only [Provider.ofPackage, hmoved.path, Report.bind_yields,
      Report.pure_yields]
    exact ⟨extraction', hyields', rfl⟩
  · simp only [Provider.tree, Provider.titled_rearranged hdataSources,
      Provider.titled_rearranged hresources]

def espalier (components attributes : List Instruction) : Package where
  path := Subject.trellis.path
  types := Subject.trellis.types
  values := Subject.trellis.values
  functions := #[
    { name := "Provider"
      package := some "example.com/p"
      receiver := none
      signature := ⟨15⟩
      params := []
      blocks :=
        some [⟨[.define ⟨2⟩, .define ⟨3⟩, .define ⟨5⟩] ++ components ++
          [.define ⟨6⟩, .store ⟨6⟩ ⟨3⟩ .unknown, .ret [⟨2⟩] .unknown]⟩]
      pos := .unknown, doc := none },
    { name := "resourceA"
      package := some "example.com/p"
      receiver := none
      signature := ⟨16⟩
      params := []
      blocks :=
        some [⟨[.define ⟨7⟩, .define ⟨8⟩, .define ⟨9⟩, .define ⟨11⟩,
            .store ⟨11⟩ ⟨10⟩ .unknown, .define ⟨12⟩, .define ⟨13⟩, .define ⟨14⟩,
            .define ⟨16⟩, .store ⟨16⟩ ⟨15⟩ .unknown, .define ⟨18⟩,
            .store ⟨18⟩ ⟨13⟩ .unknown, .define ⟨19⟩, .define ⟨20⟩,
            .store ⟨20⟩ ⟨19⟩ .unknown] ++ attributes ++
          [.define ⟨22⟩, .store ⟨22⟩ ⟨8⟩ .unknown, .ret [⟨7⟩] .unknown]⟩]
      pos := .unknown, doc := none }]

/-- A resource of two names, with an attribute and one that has another
inside. -/
def espalierBefore : Package :=
  espalier [.mapUpdate ⟨3⟩ ⟨4⟩ ⟨5⟩ ⟨1⟩, .mapUpdate ⟨3⟩ ⟨17⟩ ⟨5⟩ ⟨2⟩]
    [.mapUpdate ⟨13⟩ ⟨17⟩ ⟨14⟩ ⟨3⟩, .mapUpdate ⟨8⟩ ⟨21⟩ ⟨9⟩ ⟨4⟩,
      .mapUpdate ⟨8⟩ ⟨17⟩ ⟨14⟩ ⟨5⟩]

def espalierAfter : Package :=
  espalier [.mapUpdate ⟨3⟩ ⟨17⟩ ⟨5⟩ ⟨2⟩, .mapUpdate ⟨3⟩ ⟨4⟩ ⟨5⟩ ⟨1⟩]
    [.mapUpdate ⟨8⟩ ⟨17⟩ ⟨14⟩ ⟨5⟩, .mapUpdate ⟨8⟩ ⟨21⟩ ⟨9⟩ ⟨4⟩,
      .mapUpdate ⟨13⟩ ⟨17⟩ ⟨14⟩ ⟨3⟩]

private theorem espalier_reordered :
    espalierBefore.Reordered espalierAfter where
  path := rfl
  types := rfl
  values := rfl
  positions := rfl
  functions := by
    have htext {value : ValueId} {text : String}
        (htraced : espalierBefore.root value = .ok value)
        (hconstant : espalierBefore.constString? value = .ok (some text)) :
            espalierBefore.IsText value text :=
      ⟨value, htraced, hconstant⟩
    have ha : espalierBefore.IsText ⟨4⟩ "a" :=
      htext (by decide +kernel) (by decide)
    have hname : espalierBefore.IsText ⟨17⟩ "name" :=
      htext (by decide +kernel) (by decide)
    have hrules : espalierBefore.IsText ⟨21⟩ "rules" :=
      htext (by decide +kernel) (by decide)
    refine .cons ⟨rfl, .some (.cons ?_ .nil)⟩
      (.cons ⟨rfl, .some (.cons ?_ .nil)⟩ .nil)
    · refine ((Rearranged.refl _).append (.swap [] ?_)).append (.refl _)
      exact .keys ⟨⟨4⟩, ⟨5⟩, ⟨1⟩⟩ ⟨⟨17⟩, ⟨5⟩, ⟨2⟩⟩ fun _ hone hother =>
        absurd ((ha.unique hone).trans (hother.unique hname)) (by decide)
    · refine ((Rearranged.refl _).append (.trans (.swap _ ?_)
        (.trans (.cons _ (.swap [] ?_)) (.swap _ ?_)))).append
        (.refl _)
      · exact .maps ⟨⟨17⟩, ⟨14⟩, ⟨3⟩⟩ ⟨⟨21⟩, ⟨9⟩, ⟨4⟩⟩ (by decide)
      · exact .maps ⟨⟨17⟩, ⟨14⟩, ⟨3⟩⟩ ⟨⟨17⟩, ⟨14⟩, ⟨5⟩⟩ (by decide)
      · exact .keys ⟨⟨21⟩, ⟨9⟩, ⟨4⟩⟩ ⟨⟨17⟩, ⟨14⟩, ⟨5⟩⟩ fun _ hone hother =>
          absurd ((hrules.unique hone).trans (hother.unique hname)) (by decide)

theorem espalier_updates_commute :
    espalierBefore.validate = .ok () ∧ espalierAfter.validate = .ok () ∧
      ∃ provider : Provider, (Provider.ofPackage espalierBefore
          Subject.trellisSubject.sdk).Yields provider ∧
        provider.resources.map Component.name = ["a", "name"] ∧
        ∃ provider', (Provider.ofPackage espalierAfter
            Subject.trellisSubject.sdk).Yields provider' ∧
          provider'.name = provider.name ∧ provider'.package = espalierAfter ∧
          provider'.dataSources.Perm provider.dataSources ∧
          provider'.resources.Perm provider.resources ∧
          provider'.tree = provider.tree := by
  have hfound :
      ((Provider.ofPackage espalierBefore
        Subject.trellisSubject.sdk).outcome.toOption.map
        fun provider =>
      provider.resources.map Component.name) = some ["a", "name"] := by
        decide +kernel
  obtain ⟨provider, hresult, hshown⟩ := Option.map_eq_some_iff.1 hfound
  have hyields := Report.yields_of_toOption hresult
  exact ⟨by decide, by decide, provider, hyields, hshown,
    independent_updates_commute espalier_reordered hyields⟩

end SchemaLint
