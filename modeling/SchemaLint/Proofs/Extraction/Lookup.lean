import SchemaLint.Lint.Rule
import SchemaLint.Proofs.Extraction.Search

/-!
# Lookups in extracted components

The attribute lists of an extracted component are sorted on every level. So
whichever way a lookup halves them, it finds an attribute of a name exactly
where there is one, and the rule on attributes that do not exist reports the set
calls of all other names.
-/

namespace SchemaLint

/-- A list of attributes on some level of a component. -/
inductive Component.Level (component : Component) : List Attribute → Prop
  | top : Level component component.attributes
  | nested {attr} :
    Attribute.InTree component.attributes attr → Level component attr.children

namespace Subject

variable {s : Subject} {component : Component}

private theorem TreeShape.sorted_level (hshape : s.TreeShape component)
    {attributes : List Attribute} (hlevel : component.Level attributes) :
    SortedByBytes attributes := by
  cases hlevel with
  | top => exact hshape.sorted
  | nested hinTree => exact hshape.sortedBelow _ hinTree

theorem TreeShape.checkExists (hshape : s.TreeShape component)
    (call : SetCall) :
    checkExists component call =
      if ∀ attr ∈ component.attributes, attr.name ≠ call.name then
          some (.new call.pos ("attribute " ++ Text.quoted call.name ++
            " was not read from the schema"))
        else none := by
  have hanswers :=
    (Attribute.search?_narrows component.attributes call.name).answers
      hshape.sorted
  unfold SchemaLint.checkExists Component.attribute?
  cases hfound : Attribute.search? component.attributes call.name with
  | some attr =>
      rw [hfound] at hanswers
      obtain ⟨hmember, hnamed⟩ := hanswers
      rw [if_neg fun habsent => habsent attr hmember hnamed]
  | none =>
      have habsent : ∀ attr ∈ component.attributes, attr.name ≠ call.name := by
        rwa [hfound] at hanswers
      rw [if_pos habsent]

/-- A lookup of a name on any level of an extracted component gives an attribute
of the list with that name, and none only where there is none; so does every
other search that narrows the list by comparing names. The rule on attributes
that do not exist reports the set calls whose names no attribute on the top
level has, and no others. -/
theorem extracted_lookups_exact {extraction : Extraction}
    (hextracted : s.extract.Yields extraction)
    (hmember : component ∈ extraction.dataSources ++ extraction.resources) :
    (∀ name, Attribute.Answers component.attributes name
        (component.attribute? name)) ∧
      (∀ attr, Attribute.InTree component.attributes attr →
        ∀ name, Attribute.Answers attr.children name (attr.child? name)) ∧
      (∀ attributes, component.Level attributes →
        ∀ name result, Attribute.Narrows attributes name 0 attributes.length
            result → Attribute.Answers attributes name result) ∧
      ∀ (ctx : RuleContext) (readOnly : Bool) (calls : List SetCall),
        (ctx.setCalls component).Yields calls →
        (Rule.attributeExists.check ctx readOnly component).Yields
          ((calls.filter fun call =>
            ∀ attr ∈ component.attributes, attr.name ≠ call.name).map
            fun call => .new call.pos ("attribute " ++ Text.quoted call.name ++
              " was not read from the schema")) := by
  obtain ⟨name, builder, pos, hyields⟩ := extracted_cases hextracted hmember
  have hshape := component_treeShape hyields
  have hnarrowed (attributes : List Attribute)
      (hlevel : component.Level attributes) (name : String)
      (result : Option Attribute) (hnarrows :
        Attribute.Narrows attributes name 0 attributes.length result) :
      Attribute.Answers attributes name result :=
        hnarrows.answers (hshape.sorted_level hlevel)
  refine ⟨fun name => ?_, fun attr hinTree name => ?_, hnarrowed,
    fun ctx readOnly calls hcalled => ?_⟩
  · exact hnarrowed _ .top name _ (Attribute.search?_narrows _ name)
  · exact hnarrowed _ (.nested hinTree) name _
      (Attribute.search?_narrows _ name)
  · refine Report.bind_yields.2 ⟨calls, hcalled, Report.pure_yields.2 ?_⟩
    rw [← List.filterMap_eq_map, List.filterMap_filter]
    refine List.filterMap_congr fun call _ => ?_
    simp [hshape.checkExists call]

/-- The positions at which three lookups in a component end. -/
def lookedUp (component : Component) : List (Option Pos) :=
  [component.attribute? "leaf", component.attribute? "root",
    (component.attribute? "shoot").bind (Attribute.child? · "tendril")].map
      (Option.map Attribute.pos)

theorem vine_lookups_exact : ∃ extraction component,
    vineSubject.extract.Yields extraction ∧
    component ∈ extraction.dataSources ++ extraction.resources ∧
    component.attributes.map Attribute.name =
      ["bud", "leaf", "shoot", "tendril"] ∧
    lookedUp component = [some ⟨2⟩, none, some ⟨4⟩] ∧
    (∀ name, Attribute.Answers component.attributes name
      (component.attribute? name)) ∧
    (∀ attr, Attribute.InTree component.attributes attr →
      ∀ name, Attribute.Answers attr.children name (attr.child? name)) ∧
    (∀ attributes, component.Level attributes → ∀ name result,
      Attribute.Narrows attributes name 0 attributes.length result →
      Attribute.Answers attributes name result) ∧
    ∀ (ctx : RuleContext) (readOnly : Bool) (calls : List SetCall),
      (ctx.setCalls component).Yields calls →
      (Rule.attributeExists.check ctx readOnly component).Yields
        ((calls.filter fun call =>
          ∀ attr ∈ component.attributes, attr.name ≠ call.name).map fun call =>
          .new call.pos ("attribute " ++ Text.quoted call.name ++
            " was not read from the schema")) := by
  have hfound : (vineSubject.extract.outcome.toOption.map fun extraction =>
      extraction.resources.map fun component =>
        (component.attributes.map Attribute.name, lookedUp component)) =
      some [(["bud", "leaf", "shoot", "tendril"],
        [some ⟨2⟩, none, some ⟨4⟩])] := by
    decide +kernel
  obtain ⟨extraction, hresult, hresources⟩ := Option.map_eq_some_iff.1 hfound
  obtain ⟨component, hsingle, hshown⟩ := List.map_eq_singleton_iff.1 hresources
  obtain ⟨hnames, hlookedUp⟩ := Prod.mk.inj hshown
  have hextracted := Report.yields_of_toOption hresult
  have hmem : component ∈ extraction.dataSources ++ extraction.resources := by
    simp [hsingle]
  exact ⟨extraction, component, hextracted, hmem, hnames, hlookedUp,
    extracted_lookups_exact hextracted hmem⟩

end Subject

end SchemaLint
