import SchemaLint.Proofs.Extraction.Complete
import SchemaLint.Proofs.Rearranged
import SchemaLint.Proofs.Text.ByteOrder

/-!
# The shape of attribute trees

Whatever the schema maps of a package look like, also when a map contains
itself, the attribute trees read from them are sorted on every level, have
children only where a type has an inside, carry the mark of a partial attribute
up to the component, and stop after a fixed number of levels, where what is cut
off leaves a mark.
-/

namespace SchemaLint

def Attribute.generation : Nat → List Attribute → List Attribute
  | 0, attributes => attributes
  | count + 1, attributes =>
    generation count (attributes.flatMap Attribute.children)

def SortedByBytes (attributes : List Attribute) : Prop :=
  attributes.Pairwise fun a b => Text.bytes a.name ≤ Text.bytes b.name

theorem sortByName_sorted (attributes : List Attribute) :
    SortedByBytes (sortByName attributes) :=
  (sortBy_sorted Attribute.name attributes).imp Text.bytes_le_of_le

structure Attribute.Regular (attr : Attribute) : Prop where
  sorted : SortedByBytes attr.children
  inside : attr.children ≠ [] → attr.type.HasInside
  marked :
    ∀ child ∈ attr.children, child.isPartial = true → attr.isPartial = true

namespace Attribute

private theorem generation_flatMap (count : Nat) {list : List α}
    {f : α → List Attribute} :
    generation count (list.flatMap f) =
      list.flatMap fun a => generation count (f a) := by
  induction count generalizing f with
  | zero => rfl
  | succ count ih => simp only [generation, List.flatMap_assoc, ih]

@[simp] theorem generation_nil (count : Nat) : generation count [] = [] := by
  induction count with
  | zero => rfl
  | succ count ih => exact ih

theorem not_inTree_nil {attr : Attribute} : ¬InTree [] attr := by
  intro hinTree
  induction hinTree with
  | top hmember => simp at hmember
  | child _ _ ih => exact ih

theorem InTree.trans {attributes : List Attribute} {parent attr : Attribute}
    (hinTree : InTree attributes parent)
    (hunder : InTree parent.children attr) : InTree attributes attr := by
  induction hunder with
  | top hmember => exact .child hinTree hmember
  | child _ hmember ih => exact .child ih hmember

private theorem marked_upward {attributes : List Attribute}
    (hregular : ∀ attr, InTree attributes attr → attr.Regular)
    {parent attr : Attribute} (hinTree : InTree attributes parent)
    (hunder : InTree parent.children attr)
    (hisPartial : attr.isPartial = true) : parent.isPartial = true := by
  induction hunder with
  | top hmember => exact (hregular parent hinTree).marked _ hmember hisPartial
  | child hbetween hmember ih =>
      exact ih
        ((hregular _ (hinTree.trans hbetween)).marked _ hmember hisPartial)

end Attribute

/-- A list of attributes that is regular all the way down, with at most so many
levels. -/
structure Bounded (levels : Nat) (attributes : List Attribute) : Prop where
  sorted : SortedByBytes attributes
  regular : ∀ attr, Attribute.InTree attributes attr → attr.Regular
  levels : ∀ count, levels ≤ count → Attribute.generation count attributes = []

theorem Bounded.nil {levels : Nat} : Bounded levels [] where
  sorted := .nil
  regular _ hinTree := absurd hinTree Attribute.not_inTree_nil
  levels count _ := Attribute.generation_nil count

private theorem Bounded.of_children {levels : Nat} {attributes : List Attribute}
    (hsorted : SortedByBytes attributes)
    (heach : ∀ attr ∈ attributes, attr.Regular ∧ Bounded levels attr.children) :
    Bounded (levels + 1) attributes where
  sorted := hsorted
  regular attr hinTree := by
    rcases hinTree.cases_top with hmember | ⟨parent, hmember, hunder⟩
    · exact (heach attr hmember).1
    · exact (heach parent hmember).2.regular attr hunder
  levels count hbound := by
    cases count with
    | zero => omega
    | succ count =>
        rw [Attribute.generation, Attribute.generation_flatMap,
          List.flatMap_eq_nil_iff]
        exact fun attr hmember => (heach attr hmember).2.levels count (by omega)

theorem AttributeList.anyPartial_of_mem {list : AttributeList}
    {attr : Attribute} (hmember : attr ∈ list.attributes)
    (hisPartial : attr.isPartial = true) : list.anyPartial = true := by
  simp only [anyPartial, Bool.or_eq_true, List.any_eq_true]
  exact .inr ⟨attr, hmember, hisPartial⟩

namespace Subject

variable {s : Subject}

/-! ## Where the attributes come from -/

/-- What becomes of an entry of a schema map: an attribute with its name, or
none when the name is not a constant. Of a schema nested in the attribute,
`Inner` holds. -/
def EntryUnfolds (s : Subject) (Inner : Attribute → ValueId → Prop)
    (entry : MapEntry) : Option Attribute → Prop
  | none =>
    ∃ key, s.package.root entry.key = .ok key ∧
      s.package.constString? key = .ok none
  | some attr =>
    (∃ key, s.package.root entry.key = .ok key ∧
      s.package.operationAt key = .ok (.const (.string attr.name))) ∧
      attr.pos = entry.pos ∧
      ∀ stores inner, s.EntryStores entry stores →
      s.NestsSchema stores attr.type inner → Inner attr inner

/-- The attributes are those of the updates of the map that the value traces to,
or none if it traces to no map. -/
def MapUnfolds (s : Subject) (Inner : Attribute → ValueId → Prop)
    (value : ValueId) (attributes : List Attribute) :
    Prop :=
  ∃ map, s.package.root value = .ok map ∧
    (s.package.isMap map = .ok false ∧ attributes = [] ∨
      ∃ entries found, s.package.isMap map = .ok true ∧
      s.package.mapEntries map = .ok entries ∧
        List.Forall₂ (s.EntryUnfolds Inner) entries found ∧
        attributes.Perm (found.filterMap id))

/-- The attributes are the schema that the value traces to, unfolded with
`depth` levels below the first. On the last level an attribute that nests a
schema has the mark in place of children. -/
def Unfolds (s : Subject) : Nat → ValueId → List Attribute → Prop
  | 0 => s.MapUnfolds fun attr _ => attr.isPartial = true ∧ attr.children = []
  | depth + 1 =>
    s.MapUnfolds fun attr inner => s.Unfolds depth inner attr.children

/-! ## Reading -/

section

variable {nested : ValueId → Extract AttributeList}

/-- The children of an attribute are what was read from the schema nested in it,
with the marks in that. -/
theorem entryAttribute?_children {entry : MapEntry} {attr : Attribute}
    (hyields : (s.entryAttribute? nested entry).Yields (some attr)) :
    (∃ stores inner list, s.EntryStores entry stores ∧
        s.NestsSchema stores attr.type inner ∧ (nested inner).Yields list ∧
        attr.children = list.attributes ∧
        (list.anyPartial = true → attr.isPartial = true)) ∨
      attr.children = [] ∧ ∀ stores inner, s.EntryStores entry stores →
          ¬s.NestsSchema stores attr.type inner := by
  obtain ⟨-, -, ⟨stores, hofEntry, hdescribed⟩ | ⟨hnoStores, -, hleaf⟩⟩ :=
    entryAttribute?_cases hyields
  · obtain ⟨-, -, type, list, -, -, hinner, hchildren, hclean⟩ :=
      describedAttribute_cases hdescribed
    have hmarked : list.anyPartial = true → attr.isPartial = true := by
      intro hlossy
      cases hflag : attr.isPartial with
      | true => rfl
      | false => simp [(hclean hflag).2] at hlossy
    have hbare (hnoSchema : ∀ inner, ¬s.NestsSchema stores attr.type inner) :
        ∀ stores inner, s.EntryStores entry stores →
        ¬s.NestsSchema stores attr.type inner := by
      intro stores' inner hofEntry'
      cases hofEntry.unique hofEntry'
      exact hnoSchema inner
    rcases children_cases hinner with
      ⟨inner, hnests, hofNested⟩ | ⟨hleaf, rfl⟩ | ⟨hnoSchema, rfl⟩
    · exact .inl
        ⟨stores, inner, list, hofEntry, hnests, hofNested, hchildren, hmarked⟩
    · exact .inr ⟨hchildren, hbare hleaf.noSchema⟩
    · exact .inr ⟨hchildren, hbare hnoSchema⟩
  · exact .inr
      ⟨hleaf, fun stores _ hofEntry => absurd hofEntry (hnoStores stores)⟩

private theorem schemaMap_bounded {levels : Nat}
    (hbounded :
      ∀ value list, (nested value).Yields list → Bounded levels list.attributes)
    {value : ValueId} {list : AttributeList}
    (hyields : (s.schemaMap nested value).Yields list) :
    Bounded (levels + 1) list.attributes := by
  obtain ⟨map, -, ⟨-, rfl⟩ | ⟨entries, found, -, -, hrelated, rfl⟩⟩ :=
    schemaMap_cases hyields
  · exact .nil
  · refine .of_children (sortByName_sorted _) fun attr hmember => ?_
    have hmember : some attr ∈ found := by
      simpa using (sortBy_perm _).mem_iff.1 hmember
    obtain ⟨entry, hpaired⟩ := exists_mem_zip hrelated hmember
    rcases entryAttribute?_children (List.forall₂_zip hrelated hpaired) with
      ⟨stores, inner, list, -, hnests, hofNested, hchildren, hmarked⟩ |
        ⟨hchildren, -⟩
    · have hbelow := hbounded inner list hofNested
      rw [← hchildren] at hbelow
      refine ⟨⟨hbelow.sorted, fun _ => hnests.hasInside,
          fun child hisChild hisPartial => ?_⟩, hbelow⟩
      exact hmarked
        (AttributeList.anyPartial_of_mem (hchildren ▸ hisChild) hisPartial)
    · rw [hchildren]
      exact ⟨⟨by simp [hchildren, SortedByBytes], by simp [hchildren],
          by simp [hchildren]⟩, .nil⟩

private theorem schemaMap_unfolds {Inner : Attribute → ValueId → Prop}
    (hunfolds : ∀ inner list attr, (nested inner).Yields list →
        attr.children = list.attributes →
        (list.anyPartial = true → attr.isPartial = true) → Inner attr inner)
    {value : ValueId} {list : AttributeList}
    (hyields : (s.schemaMap nested value).Yields list) :
    s.MapUnfolds Inner value list.attributes := by
  obtain ⟨map, htraced,
      ⟨hnoMap, rfl⟩ | ⟨entries, found, hisMap, hofMap, hrelated, rfl⟩⟩ :=
    schemaMap_cases hyields
  · exact ⟨map, htraced, .inl ⟨hnoMap, rfl⟩⟩
  · refine ⟨map, htraced, .inr ⟨entries, found, hisMap, hofMap,
        hrelated.imp fun entry attr? hread => ?_, ?_⟩⟩
    · cases attr? with
      | none =>
          simp only [entryAttribute?, Report.bind_yields,
            Analysis.constString?_yields] at hread
          obtain ⟨constant, ⟨key, hkeyTraced, hisConstant⟩, hread⟩ := hread
          cases constant with
          | none => exact ⟨key, hkeyTraced, hisConstant⟩
          | some name => simp at hread
      | some attr =>
          obtain ⟨hkey, hpos, -⟩ := entryAttribute?_cases hread
          refine ⟨hkey, hpos, fun stores inner hofEntry hnests => ?_⟩
          rcases entryAttribute?_children hread with
            ⟨stores', inner', list, hofEntry', hnests', hofNested, hrest⟩ |
              ⟨-, hbare⟩
          · cases hofEntry.unique hofEntry'
            cases hnests.unique hnests'
            exact hunfolds inner list attr hofNested hrest.1 hrest.2
          · exact absurd hnests (hbare stores inner hofEntry)
    · exact sortBy_perm _

end

private theorem attributesWithin_bounded {depth : Nat} {value : ValueId}
    {list : AttributeList}
    (hyields : (s.attributesWithin depth value).Yields list) :
    Bounded (depth + 1) list.attributes := by
  induction depth generalizing value list with
  | zero =>
      refine schemaMap_bounded (fun value list hcut => ?_) hyields
      simp only [Report.bind_yields, Report.pure_yields] at hcut
      obtain ⟨_, -, rfl⟩ := hcut
      exact .nil
  | succ depth ih => exact schemaMap_bounded (fun _ _ => ih) hyields

private theorem attributesWithin_unfolds {depth : Nat} {value : ValueId}
    {list : AttributeList}
    (hyields : (s.attributesWithin depth value).Yields list) :
    s.Unfolds depth value list.attributes := by
  induction depth generalizing value list with
  | zero =>
      refine schemaMap_unfolds
        (fun inner list attr hcut hchildren hmarked => ?_) hyields
      simp only [Report.bind_yields, Report.pure_yields] at hcut
      obtain ⟨_, -, rfl⟩ := hcut
      exact ⟨hmarked rfl, hchildren⟩
  | succ depth ih =>
      refine schemaMap_unfolds (fun inner list attr hofNested hchildren _ => ?_)
        hyields
      rw [hchildren]
      exact ih hofNested

/-! ## Components -/

/-- The shape of the attributes of a component. -/
structure TreeShape (s : Subject) (component : Component) : Prop where
  levels :
    ∀ count, 33 ≤ count → Attribute.generation count component.attributes = []
  sorted : SortedByBytes component.attributes
  sortedBelow : ∀ attr, Attribute.InTree component.attributes attr →
      SortedByBytes attr.children
  inside :
    ∀ attr, Attribute.InTree component.attributes attr → attr.children ≠ [] →
    attr.type = .list ∨ attr.type = .set ∨ attr.type = .map
  /-- A partial attribute marks everything above it. -/
  marked :
    ∀ attr, Attribute.InTree component.attributes attr → attr.isPartial = true →
    component.isPartial = true ∧
    ∀ ancestor, Attribute.InTree component.attributes ancestor →
      Attribute.InTree ancestor.children attr → ancestor.isPartial = true
  /-- The attributes unfold the schema stored for the component, with the mark
  where the last level cuts it off. -/
  unfolded : ∃ stores, (s.resourceStores component.builder).Yields stores ∧
    (firstStore? stores "Schema" = none ∧ component.attributes = [] ∧
        component.isPartial = true ∨
      ∃ store, firstStore? stores "Schema" = some store ∧
        s.Unfolds 32 store.value component.attributes)

theorem component_treeShape {name : String} {builder : FuncId} {pos : Pos}
    {component : Component}
    (hyields : (s.component name builder pos).Yields component) :
    s.TreeShape component := by
  obtain ⟨stores, list, hofBuilder, hattributes, hisPartial, hschema⟩ :=
    component_cases hyields
  have hbounded : Bounded 33 component.attributes := by
    rw [hattributes]
    rcases hschema with ⟨-, rfl⟩ | ⟨store, -, hofSchema⟩
    · exact .nil
    · exact attributesWithin_bounded hofSchema
  refine ⟨hbounded.levels, hbounded.sorted,
    fun attr hinTree => (hbounded.regular attr hinTree).sorted,
    fun attr hinTree => (hbounded.regular attr hinTree).inside,
    fun attr hinTree hflagged => ⟨?_, ?_⟩, stores, hofBuilder, ?_⟩
  · rw [hisPartial]
    rcases hinTree.cases_top with hmember | ⟨ancestor, hmember, hunder⟩
    · exact AttributeList.anyPartial_of_mem (hattributes ▸ hmember) hflagged
    · have habove :=
        Attribute.marked_upward hbounded.regular (.top hmember) hunder hflagged
      exact AttributeList.anyPartial_of_mem (hattributes ▸ hmember) habove
  · intro ancestor habove hunder
    exact Attribute.marked_upward hbounded.regular habove hunder hflagged
  · rcases hschema with ⟨habsent, rfl⟩ | ⟨store, hfound, hofSchema⟩
    · exact .inl ⟨habsent, hattributes, hisPartial⟩
    · exact .inr
        ⟨store, hfound, hattributes ▸ attributesWithin_unfolds hofSchema⟩

/-- Every attribute tree that is extracted has the shape. -/
theorem extracted_component_treeShape {extraction : Extraction}
    (hextracted : s.extract.Yields extraction) {component : Component}
    (hmember : component ∈ extraction.dataSources ++ extraction.resources) :
    s.TreeShape component := by
  simp only [extract, Report.bind_yields, Report.pure_yields] at hextracted
  obtain ⟨stores, -, dataSources, hofSources, resources, hofResources, rfl⟩ :=
    hextracted
  rcases List.mem_append.1 hmember with hinSources | hinResources
  · obtain ⟨name, builder, pos, hyields⟩ :=
      components_cases hofSources hinSources
    exact component_treeShape hyields
  · obtain ⟨name, builder, pos, hyields⟩ :=
      components_cases hofResources hinResources
    exact component_treeShape hyields

def vine : Package where
  path := "example.com/p"
  types := trellis.types
  values := #[
    ⟨.function ⟨0⟩, ⟨15⟩, .unknown, none, none⟩,
    ⟨.function ⟨1⟩, ⟨16⟩, .unknown, none, none⟩,
    ⟨.alloc true, ⟨3⟩, .unknown, some ⟨0⟩, none⟩,
    ⟨.makeMap none, ⟨4⟩, .unknown, some ⟨0⟩, none⟩,
    ⟨.const (.string "a"), ⟨0⟩, .unknown, none, none⟩,
    ⟨.call ⟨⟨1⟩, none, []⟩, ⟨7⟩, .unknown, some ⟨0⟩, none⟩,
    ⟨.fieldAddr ⟨2⟩ 0, ⟨17⟩, .unknown, some ⟨0⟩, none⟩,
    ⟨.alloc true, ⟨7⟩, .unknown, some ⟨1⟩, none⟩,
    ⟨.makeMap none, ⟨10⟩, .unknown, some ⟨1⟩, none⟩,
    ⟨.alloc true, ⟨11⟩, .unknown, some ⟨1⟩, none⟩,
    ⟨.const (.int 5), ⟨12⟩, .unknown, none, none⟩,
    ⟨.fieldAddr ⟨9⟩ 0, ⟨17⟩, .unknown, some ⟨1⟩, none⟩,
    ⟨.makeInterface ⟨7⟩, ⟨13⟩, .unknown, some ⟨1⟩, none⟩,
    ⟨.fieldAddr ⟨9⟩ 1, ⟨17⟩, .unknown, some ⟨1⟩, none⟩,
    ⟨.const (.string "shoot"), ⟨0⟩, .unknown, none, none⟩,
    ⟨.fieldAddr ⟨7⟩ 0, ⟨17⟩, .unknown, some ⟨1⟩, none⟩,
    ⟨.alloc true, ⟨11⟩, .unknown, some ⟨1⟩, none⟩,
    ⟨.const (.int 4), ⟨12⟩, .unknown, none, none⟩,
    ⟨.fieldAddr ⟨16⟩ 0, ⟨17⟩, .unknown, some ⟨1⟩, none⟩,
    ⟨.const (.string "leaf"), ⟨0⟩, .unknown, none, none⟩,
    ⟨.const (.string "bud"), ⟨0⟩, .unknown, none, none⟩,
    ⟨.const (.string "tendril"), ⟨0⟩, .unknown, none, none⟩]
  functions := #[
    { name := "Provider", package := some "example.com/p", receiver := none
      signature := ⟨15⟩, params := []
      blocks := some [⟨[
        .define ⟨2⟩, .define ⟨3⟩, .define ⟨5⟩,
        .mapUpdate ⟨3⟩ ⟨4⟩ ⟨5⟩ .unknown,
        .define ⟨6⟩, .store ⟨6⟩ ⟨3⟩ .unknown, .ret [⟨2⟩] .unknown]⟩]
      pos := .unknown, doc := none },
    { name := "resourceA", package := some "example.com/p", receiver := none
      signature := ⟨16⟩, params := []
      blocks := some [⟨[
        .define ⟨7⟩, .define ⟨8⟩,
        .define ⟨9⟩, .define ⟨11⟩, .store ⟨11⟩ ⟨10⟩ .unknown,
        .define ⟨12⟩, .define ⟨13⟩, .store ⟨13⟩ ⟨12⟩ .unknown,
        .define ⟨16⟩, .define ⟨18⟩, .store ⟨18⟩ ⟨17⟩ .unknown,
        .mapUpdate ⟨8⟩ ⟨14⟩ ⟨9⟩ ⟨1⟩, .mapUpdate ⟨8⟩ ⟨19⟩ ⟨16⟩ ⟨2⟩,
        .mapUpdate ⟨8⟩ ⟨20⟩ ⟨16⟩ ⟨3⟩, .mapUpdate ⟨8⟩ ⟨21⟩ ⟨16⟩ ⟨4⟩,
        .define ⟨15⟩, .store ⟨15⟩ ⟨8⟩ .unknown, .ret [⟨7⟩] .unknown]⟩]
      pos := .unknown, doc := none }]

def vineSubject : Subject := { trellisSubject with package := vine }

/-- The names on the last level that is read, each with its mark and whether it
has no children. -/
def lastLevel (component : Component) : List (String × Bool × Bool) :=
  (Attribute.generation 32 component.attributes).map fun attr =>
    (attr.name, attr.isPartial, attr.children.isEmpty)

theorem vine_treeShape : ∃ extraction component,
    vineSubject.extract.Yields extraction ∧
      component ∈ extraction.dataSources ++ extraction.resources ∧
      lastLevel component =
        [("bud", false, true), ("leaf", false, true), ("shoot", true, true),
          ("tendril", false, true)] ∧
      vineSubject.TreeShape component := by
  have hfound : (vineSubject.extract.outcome.toOption.map fun extraction =>
      extraction.resources.map lastLevel) =
      some [[("bud", false, true), ("leaf", false, true),
        ("shoot", true, true), ("tendril", false, true)]] := by
    decide +kernel
  obtain ⟨extraction, hresult, hresources⟩ := Option.map_eq_some_iff.1 hfound
  obtain ⟨component, hsingle, hlast⟩ := List.map_eq_singleton_iff.1 hresources
  have hextracted := Report.yields_of_toOption hresult
  have hmem : component ∈ extraction.dataSources ++ extraction.resources := by
    simp [hsingle]
  exact ⟨extraction, component, hextracted, hmem, hlast,
    extracted_component_treeShape hextracted hmem⟩

end Subject

end SchemaLint
