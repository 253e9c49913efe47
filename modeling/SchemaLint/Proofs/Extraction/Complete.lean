import SchemaLint.Proofs.Extraction.Reading

/-!
# Components that are not partial

What cannot be made out of a schema marks the attribute it stands in, the
attributes around that one and the component. So a component without the mark
has the updates of its schema map for its attributes, one for one, and the
same holds for every schema map nested in it. The updates are those in the
body of the function that owns the map. A map without an owner has none of
them, wherever it is updated, and leaves no mark.
-/

namespace SchemaLint

/-! ## Updates of a map -/

inductive Updates (map : ValueId) : List Instruction → List MapEntry → Prop
  | nil : Updates map [] []
  | update {key value pos rest entries} : Updates map rest entries →
      Updates map (.mapUpdate map key value pos :: rest)
        (⟨key, value, pos⟩ :: entries)
  | other {i rest entries} :
      (∀ key value pos, i ≠ .mapUpdate map key value pos) →
      Updates map rest entries → Updates map (i :: rest) entries

namespace Updates

variable {map : ValueId} {body : List Instruction} {entries : List MapEntry}

theorem mem (hupdates : Updates map body entries) {key value : ValueId}
    {pos : Pos} (hmem : .mapUpdate map key value pos ∈ body) :
    ⟨key, value, pos⟩ ∈ entries := by
  induction hupdates with
  | nil => cases hmem
  | update _ ih =>
      rcases List.mem_cons.1 hmem with hhere | hlater
      · cases hhere
        exact List.mem_cons_self
      · exact List.mem_cons_of_mem _ (ih hlater)
  | other hother _ ih =>
      rcases List.mem_cons.1 hmem with hhere | hlater
      · exact absurd hhere.symm (hother _ _ _)
      · exact ih hlater

theorem filterMap {f : Instruction → Option MapEntry}
    (hupdate : ∀ key value pos,
      f (.mapUpdate map key value pos) = some ⟨key, value, pos⟩)
    (hother : ∀ i, (∀ key value pos, i ≠ .mapUpdate map key value pos) →
      f i = none)
    (body : List Instruction) :
    Updates map body (body.filterMap f) := by
  induction body with
  | nil => exact .nil
  | cons i rest ih =>
      by_cases hi : ∃ key value pos, i = .mapUpdate map key value pos
      · obtain ⟨key, value, pos, rfl⟩ := hi
        rw [List.filterMap_cons_some (hupdate key value pos)]
        exact .update ih
      · push Not at hi
        rw [List.filterMap_cons_none (hother i hi)]
        exact .other hi ih

end Updates

namespace Package

variable {p : Package}

/-- The updates of a map in the body of the function that owns it. A map
without an owner has none. -/
inductive OwnerUpdates (p : Package) (map : ValueId) : List MapEntry → Prop
  | owned {value func f entries} : p.values[map.index]? = some value →
      value.parent = some func → p.functions[func.index]? = some f →
      Updates map ((f.blocks.getD []).flatMap Block.instructions) entries →
      OwnerUpdates p map entries
  | ownerless {value} : p.values[map.index]? = some value →
      value.parent = none → OwnerUpdates p map []

/-- The updates of a map in a body that defines it. -/
def DefinerUpdates (p : Package) (map : ValueId) (entries : List MapEntry) :
    Prop :=
  ∃ f ∈ p.functions,
    .define map ∈ (f.blocks.getD []).flatMap Block.instructions ∧
      Updates map ((f.blocks.getD []).flatMap Block.instructions) entries

/-- Every construction of a map has an owner, whose body defines it. -/
def MapsOwned (p : Package) : Prop :=
  ∀ map reserve, p.operationAt map = .ok (.makeMap reserve) →
    ∃ value func f, p.values[map.index]? = some value ∧
      value.parent = some func ∧ p.functions[func.index]? = some f ∧
      .define map ∈ (f.blocks.getD []).flatMap Block.instructions

private theorem siblings_eq_ok {value : ValueId} {body : List Instruction}
    (hbody : p.siblings value = .ok body) :
    ∃ entry, p.values[value.index]? = some entry ∧
      (entry.parent = none ∧ body = [] ∨
        ∃ func f, entry.parent = some func ∧
          p.functions[func.index]? = some f ∧
          body = (f.blocks.getD []).flatMap Block.instructions) := by
  obtain ⟨entry, hentry, hbody⟩ := Access.bind_eq_ok_iff.1 hbody
  refine ⟨entry, valueAt_eq_ok_iff.1 hentry, ?_⟩
  cases hparent : entry.parent with
  | none =>
      rw [hparent] at hbody
      cases hbody
      exact .inl ⟨rfl, rfl⟩
  | some func =>
      rw [hparent] at hbody
      obtain ⟨f, hf, hbody⟩ := Access.bind_eq_ok_iff.1 hbody
      cases hbody
      exact .inr ⟨func, f, rfl, funcAt_eq_ok_iff.1 hf, rfl⟩

private theorem mapEntries_ownerUpdates {map : ValueId}
    {entries : List MapEntry} (hentries : p.mapEntries map = .ok entries) :
    p.OwnerUpdates map entries := by
  obtain ⟨body, hbody, hentries⟩ := Access.bind_eq_ok_iff.1 hentries
  cases hentries
  obtain ⟨value, hvalue, hcase⟩ := siblings_eq_ok hbody
  rcases hcase with ⟨hparent, rfl⟩ | ⟨func, f, hparent, hf, rfl⟩
  · exact .ownerless hvalue hparent
  · refine .owned hvalue hparent hf (.filterMap (by simp) ?_ _)
    intro i hother
    cases i with
    | mapUpdate updated key value pos =>
        have hne : updated ≠ map := by
          rintro rfl
          exact hother key value pos rfl
        simp [hne]
    | _ => rfl

private theorem isMap_eq_true {value : ValueId}
    (hmap : p.isMap value = .ok true) :
    ∃ reserve, p.operationAt value = .ok (.makeMap reserve) := by
  cases hoperation : p.operationAt value with
  | error => simp [isMap, hoperation] at hmap
  | ok operation =>
      cases operation with
      | makeMap reserve => exact ⟨reserve, rfl⟩
      | _ => simp [isMap, hoperation] at hmap

theorem OwnerUpdates.definer (howned : p.MapsOwned) {map : ValueId}
    {reserve : Option ValueId}
    (hmap : p.operationAt map = .ok (.makeMap reserve))
    {entries : List MapEntry} (hupdates : p.OwnerUpdates map entries) :
    p.DefinerUpdates map entries := by
  obtain ⟨value, func, f, hvalue, hparent, hf, hdefines⟩ := howned map _ hmap
  cases hupdates with
  | owned hvalue' hparent' hf' hupdates =>
      cases hvalue.symm.trans hvalue'
      cases hparent.symm.trans hparent'
      cases hf.symm.trans hf'
      exact ⟨f, Array.mem_of_getElem? hf, hdefines, hupdates⟩
  | ownerless hvalue' hnone =>
      cases hvalue.symm.trans hvalue'
      rw [hnone] at hparent
      cases hparent

end Package

/-- The attribute is one of the list or stands somewhere below one. -/
inductive Attribute.InTree (attributes : List Attribute) : Attribute → Prop
  | top {attr} : attr ∈ attributes → InTree attributes attr
  | child {parent attr} :
    InTree attributes parent → attr ∈ parent.children → InTree attributes attr

theorem Attribute.InTree.cases_top {attributes : List Attribute}
    {attr : Attribute} (hinTree : InTree attributes attr) :
    attr ∈ attributes ∨ ∃ parent ∈ attributes, InTree parent.children attr := by
  induction hinTree with
  | top hmember => exact .inl hmember
  | child _ hmember ih =>
      rcases ih with htop | ⟨ancestor, htop, hbelow⟩
      · exact .inr ⟨_, htop, .top hmember⟩
      · exact .inr ⟨ancestor, htop, .child hbelow hmember⟩

namespace AttributeList

theorem anyPartial_eq_false_iff {list : AttributeList} :
    list.anyPartial = false ↔
      list.isPartial = false ∧
        ∀ attr ∈ list.attributes, attr.isPartial = false := by
  simp [anyPartial]

@[simp] theorem anyPartial_lost : lost.anyPartial = true := rfl

end AttributeList

namespace Subject

variable {s : Subject}

/-! ## Schemas without losses -/

/-- The attribute is what the entry of a schema map says. Its key is a
constant, its type is known and nothing below it is left out: it has a nested
schema, or it is a leaf. -/
structure EntryRead (s : Subject) (entry : MapEntry) (attr : Attribute) :
    Prop where
  key : ∃ key, s.package.root entry.key = .ok key ∧
    s.package.operationAt key = .ok (.const (.string attr.name))
  pos : attr.pos = entry.pos
  known : attr.type ≠ .invalid
  whole : attr.isPartial = false
  inner : ∃ stores, s.EntryStores entry stores ∧
    ((∃ value, s.NestsSchema stores attr.type value) ∨
      attr.children = [] ∧ s.Leaf stores attr.type)

/-- `Complete s updates value attributes`: the value traces to the construction
of a map, the attributes are one for one its updates, and the children of each
are complete for the schema nested in it. -/
inductive Complete (s : Subject) (updates : ValueId → List MapEntry → Prop) :
    ValueId → List Attribute → Prop
  | intro {value map reserve entries attributes read} :
      s.package.root value = .ok map →
      s.package.operationAt map = .ok (.makeMap reserve) →
      updates map entries → attributes.Perm read →
      List.Forall₂ s.EntryRead entries read →
      (∀ entry attr, (entry, attr) ∈ entries.zip read →
        ∀ stores value, s.EntryStores entry stores →
          s.NestsSchema stores attr.type value →
          Complete s updates value attr.children) →
      Complete s updates value attributes

section

variable {updates updates' : ValueId → List MapEntry → Prop} {value : ValueId}
  {attributes : List Attribute}

theorem Complete.clean (hcomplete : s.Complete updates value attributes)
    {attr : Attribute} (hattr : Attribute.InTree attributes attr) :
    attr.type ≠ .invalid ∧ attr.isPartial = false := by
  induction hcomplete with
  | @intro value map reserve entries attributes read _ _ _ hperm hread _ ih =>
      have htop : ∀ parent ∈ attributes,
          ∃ entry, (entry, parent) ∈ entries.zip read :=
        fun parent hmem => exists_mem_zip hread (hperm.mem_iff.1 hmem)
      rcases hattr.cases_top with hmem | ⟨parent, hmem, hbelow⟩
      · obtain ⟨entry, hpair⟩ := htop attr hmem
        have hentry := List.forall₂_zip hread hpair
        exact ⟨hentry.known, hentry.whole⟩
      · obtain ⟨entry, hpair⟩ := htop parent hmem
        obtain ⟨stores, hstores, ⟨inner, hinner⟩ | ⟨hleaf, -⟩⟩ :=
          (List.forall₂_zip hread hpair).inner
        · exact ih entry parent hpair stores inner hstores hinner hbelow
        · rw [hleaf] at hbelow
          rcases hbelow.cases_top with hnone | ⟨_, hnone, _⟩ <;>
            simp at hnone

theorem Complete.imp
    (himp : ∀ {map reserve entries},
      s.package.operationAt map = .ok (.makeMap reserve) →
      updates map entries → updates' map entries)
    (hcomplete : s.Complete updates value attributes) :
    s.Complete updates' value attributes := by
  induction hcomplete with
  | intro hroot hmap hupdates hperm hread _ ih =>
      exact .intro hroot hmap (himp hmap hupdates) hperm hread ih

end

/-! ## Reading without losses -/

section

variable {nested : ValueId → Extract AttributeList} {stores : List FieldStore}
  {list : AttributeList}

def Honest (s : Subject) (nested : ValueId → Extract AttributeList) : Prop :=
  ∀ value list, (nested value).Yields list → list.anyPartial = false →
    s.Complete s.package.OwnerUpdates value list.attributes

private theorem children_whole {type : AttributeType}
    (hyields : (s.children nested type stores).Yields list)
    (hwhole : list.anyPartial = false) :
    (∃ inner, s.NestsSchema stores type inner ∧
      (nested inner).Yields list) ∨
      list = .complete ∧ s.Leaf stores type := by
  rcases children_cases hyields with hnests | ⟨hleaf, hcomplete⟩ | ⟨-, hlost⟩
  · exact .inl hnests
  · exact .inr ⟨hcomplete, hleaf⟩
  · simp [hlost] at hwhole

private theorem ofCode?_ne_invalid {code : Int} {type : AttributeType}
    (hfound : AttributeType.ofCode? code = some type) : type ≠ .invalid := by
  have hmem := List.mem_of_find?_eq_some hfound
  rintro rfl
  simp [AttributeType.all] at hmem

private theorem storedType_whole {name : String} {type : Reading AttributeType}
    (hyields : (s.storedType name stores).Yields type)
    (hwhole : type.isUnresolved = false) :
    type.value?.getD .invalid ≠ .invalid := by
  unfold storedType at hyields
  cases hstore : firstStore? stores "Type" with
  | none =>
      simp only [hstore, Report.bind_yields, Report.pure_yields] at hyields
      obtain ⟨_, -, rfl⟩ := hyields
      simp [Reading.isUnresolved] at hwhole
  | some store =>
      simp only [hstore, Report.bind_yields] at hyields
      obtain ⟨answer, hanswer, hyields⟩ := hyields
      cases answer with
      | none => simp at hyields
      | some known =>
          simp only [Report.pure_yields] at hyields
          subst hyields
          simp only [attributeType?, Report.bind_yields, Analysis.root_yields,
            Analysis.monadLift_yields] at hanswer
          obtain ⟨root, -, value, -, hanswer⟩ := hanswer
          split at hanswer
          · simp only [Report.bind_yields,
              Analysis.monadLift_yields] at hanswer
            obtain ⟨typeName, -, hanswer⟩ := hanswer
            split at hanswer
            · exact ofCode?_ne_invalid (Report.pure_yields.1 hanswer).symm
            · simp at hanswer
          · simp at hanswer

private theorem entryAttribute?_whole {entry : MapEntry} {attr : Attribute}
    (hhonest : s.Honest nested)
    (hyields : (s.entryAttribute? nested entry).Yields (some attr))
    (hwhole : attr.isPartial = false) :
    s.EntryRead entry attr ∧
      ∀ stores inner, s.EntryStores entry stores →
        s.NestsSchema stores attr.type inner →
        s.Complete s.package.OwnerUpdates inner attr.children := by
  obtain ⟨hkey, hpos, hcase⟩ := entryAttribute?_cases hyields
  rcases hcase with ⟨stores, hstores, hdescribed⟩ | ⟨-, hpartial, -⟩
  · obtain ⟨-, -, type, list, htype, htypeEq, hinner, hchildren, hclean⟩ :=
      describedAttribute_cases hdescribed
    obtain ⟨hresolved, hlist⟩ := hclean hwhole
    have hknown : attr.type ≠ .invalid :=
      htypeEq ▸ storedType_whole htype hresolved
    rcases children_whole hinner hlist with
      ⟨value, hnests, hnested⟩ | ⟨rfl, hleaf⟩
    · refine ⟨⟨hkey, hpos, hknown, hwhole, stores, hstores,
        .inl ⟨value, hnests⟩⟩, ?_⟩
      intro stores' value' hstores' hnests'
      cases hstores.unique hstores'
      cases hnests.unique hnests'
      rw [hchildren]
      exact hhonest value list hnested hlist
    · refine ⟨⟨hkey, hpos, hknown, hwhole, stores, hstores,
        .inr ⟨hchildren, hleaf⟩⟩, ?_⟩
      intro stores' value' hstores' hnests'
      cases hstores.unique hstores'
      exact absurd hnests' (hleaf.noSchema value')
  · simp [hpartial] at hwhole

private theorem schemaMap_honest (hhonest : s.Honest nested) :
    s.Honest (s.schemaMap nested) := by
  intro value list hyields hwhole
  obtain ⟨map, hroot,
      ⟨-, rfl⟩ | ⟨entries, found, hmap, hentries, hfound, rfl⟩⟩ :=
    schemaMap_cases hyields
  · simp at hwhole
  · obtain ⟨hnone, hpartial⟩ :=
      AttributeList.anyPartial_eq_false_iff.1 hwhole
    have hnamed : ∀ attr ∈ found, attr ≠ none := by simpa using hnone
    have hperm : (sortByName (found.filterMap id)).Perm
        (found.filterMap id) := sortBy_perm _
    have heach : List.Forall₂
        (fun entry attr => s.EntryRead entry attr ∧
          ∀ stores inner, s.EntryStores entry stores →
            s.NestsSchema stores attr.type inner →
            s.Complete s.package.OwnerUpdates inner attr.children)
        entries (found.filterMap id) := by
      have hread := forall₂_filterMap_id_of_ne_none hfound hnamed
      rw [List.forall₂_iff_zip] at hread ⊢
      refine ⟨hread.1, fun {entry attr} hpair => ?_⟩
      have hmem : attr ∈ found.filterMap id := (List.of_mem_zip hpair).2
      exact entryAttribute?_whole hhonest (hread.2 hpair)
        (hpartial attr (hperm.mem_iff.2 hmem))
    obtain ⟨reserve, hmap⟩ := Package.isMap_eq_true hmap
    refine .intro hroot hmap (Package.mapEntries_ownerUpdates hentries) hperm
      (heach.imp fun _ _ hboth => hboth.1) ?_
    exact fun entry attr hpair => (List.forall₂_zip heach hpair).2

end

private theorem attributesWithin_honest (depth : Nat) :
    s.Honest (s.attributesWithin depth) := by
  induction depth with
  | zero =>
      refine schemaMap_honest fun value list hyields hwhole => ?_
      simp only [Report.bind_yields, Report.pure_yields] at hyields
      obtain ⟨_, -, rfl⟩ := hyields
      simp at hwhole
  | succ depth ih => exact schemaMap_honest ih

/-! ## Components -/

/-- The schema that is stored for a component is completely in its
attributes. -/
def LostNothing (s : Subject) (updates : ValueId → List MapEntry → Prop)
    (component : Component) : Prop :=
  ∃ stores store, (s.resourceStores component.builder).Yields stores ∧
    firstStore? stores "Schema" = some store ∧
    s.Complete updates store.value component.attributes

private theorem component_whole {name : String} {builder : FuncId} {pos : Pos}
    {component : Component}
    (hyields : (s.component name builder pos).Yields component)
    (hwhole : component.isPartial = false) :
    s.LostNothing s.package.OwnerUpdates component := by
  obtain ⟨stores, list, hstores, hattributes, hpartial, hschema⟩ :=
    component_cases hyields
  rcases hschema with ⟨-, rfl⟩ | ⟨store, hstore, hlist⟩
  · simp [hpartial] at hwhole
  · refine ⟨stores, store, hstores, hstore, ?_⟩
    rw [hattributes]
    exact attributesWithin_honest nestingLimit store.value list hlist
      (hpartial ▸ hwhole)

/-- A component that is not partial has exactly the updates that the owners of
its schema maps make, at every level, and no attribute in it is partial or of
an unknown type. If every map is owned by the function that defines it, these
are the updates of the defining functions. -/
theorem whole_component_keeps_owner_updates {extraction : Extraction}
    (hextracted : s.extract.Yields extraction) {component : Component}
    (hmem : component ∈ extraction.dataSources ++ extraction.resources)
    (hwhole : component.isPartial = false) :
    s.LostNothing s.package.OwnerUpdates component ∧
      (∀ attr, Attribute.InTree component.attributes attr →
        attr.type ≠ .invalid ∧ attr.isPartial = false) ∧
      (s.package.MapsOwned →
        s.LostNothing s.package.DefinerUpdates component) := by
  obtain ⟨name, builder, pos, hyields⟩ := extracted_cases hextracted hmem
  obtain ⟨stores, store, hstores, hstore, hcomplete⟩ :=
    component_whole hyields hwhole
  refine ⟨⟨stores, store, hstores, hstore, hcomplete⟩,
    fun attr hattr => hcomplete.clean hattr, fun howned => ?_⟩
  exact ⟨stores, store, hstores, hstore,
    hcomplete.imp fun hmap hupdates => hupdates.definer howned hmap⟩

/-- A provider with one resource. Its schema has a list of resources with a
schema of their own, a map with a schema of its own and a string. -/
def trellis : Package where
  path := "example.com/p"
  types := #[
    .basic .string, .named (some "sdk") "Provider" ⟨2⟩,
    .struct [⟨"ResourcesMap", ⟨4⟩, false⟩], .pointer ⟨1⟩, .map ⟨0⟩ ⟨7⟩,
    .named (some "sdk") "Resource" ⟨6⟩, .struct [⟨"Schema", ⟨10⟩, false⟩],
    .pointer ⟨5⟩, .named (some "sdk") "Schema" ⟨9⟩,
    .struct [⟨"Type", ⟨12⟩, false⟩, ⟨"Elem", ⟨13⟩, false⟩,
      ⟨"Schema", ⟨10⟩, false⟩],
    .map ⟨0⟩ ⟨11⟩, .pointer ⟨8⟩, .named (some "sdk") "ValueType" ⟨14⟩,
    .interface [], .basic .int, .signature [] [⟨3⟩] false,
    .signature [] [⟨7⟩] false, .pointer ⟨13⟩]
  values := #[
    ⟨.function ⟨0⟩, ⟨15⟩, .unknown, none, none⟩,
    ⟨.function ⟨1⟩, ⟨16⟩, .unknown, none, none⟩,
    ⟨.alloc true, ⟨3⟩, .unknown, some ⟨0⟩, none⟩,
    ⟨.makeMap none, ⟨4⟩, .unknown, some ⟨0⟩, none⟩,
    ⟨.const (.string "a"), ⟨0⟩, .unknown, none, none⟩,
    ⟨.call ⟨⟨1⟩, none, []⟩, ⟨7⟩, .unknown, some ⟨0⟩, none⟩,
    ⟨.fieldAddr ⟨2⟩ 0, ⟨17⟩, .unknown, some ⟨0⟩, none⟩,
    ⟨.alloc true, ⟨7⟩, .unknown, some ⟨1⟩, none⟩,
    ⟨.makeMap none, ⟨10⟩, .unknown, some ⟨1⟩, none⟩,
    ⟨.alloc true, ⟨11⟩, .unknown, some ⟨1⟩, none⟩,
    ⟨.const (.int 5), ⟨12⟩, .unknown, none, none⟩,
    ⟨.fieldAddr ⟨9⟩ 0, ⟨17⟩, .unknown, some ⟨1⟩, none⟩,
    ⟨.alloc true, ⟨7⟩, .unknown, some ⟨1⟩, none⟩,
    ⟨.makeMap none, ⟨10⟩, .unknown, some ⟨1⟩, none⟩,
    ⟨.alloc true, ⟨11⟩, .unknown, some ⟨1⟩, none⟩,
    ⟨.const (.int 4), ⟨12⟩, .unknown, none, none⟩,
    ⟨.fieldAddr ⟨14⟩ 0, ⟨17⟩, .unknown, some ⟨1⟩, none⟩,
    ⟨.const (.string "name"), ⟨0⟩, .unknown, none, none⟩,
    ⟨.fieldAddr ⟨12⟩ 0, ⟨17⟩, .unknown, some ⟨1⟩, none⟩,
    ⟨.makeInterface ⟨12⟩, ⟨13⟩, .unknown, some ⟨1⟩, none⟩,
    ⟨.fieldAddr ⟨9⟩ 1, ⟨17⟩, .unknown, some ⟨1⟩, none⟩,
    ⟨.const (.string "rules"), ⟨0⟩, .unknown, none, none⟩,
    ⟨.fieldAddr ⟨7⟩ 0, ⟨17⟩, .unknown, some ⟨1⟩, none⟩,
    ⟨.const (.string "zone"), ⟨0⟩, .unknown, none, none⟩,
    ⟨.const (.string "labels"), ⟨0⟩, .unknown, none, none⟩,
    ⟨.alloc true, ⟨11⟩, .unknown, some ⟨1⟩, none⟩,
    ⟨.const (.int 6), ⟨12⟩, .unknown, none, none⟩,
    ⟨.fieldAddr ⟨25⟩ 0, ⟨17⟩, .unknown, some ⟨1⟩, none⟩,
    ⟨.makeMap none, ⟨10⟩, .unknown, some ⟨1⟩, none⟩,
    ⟨.fieldAddr ⟨25⟩ 2, ⟨17⟩, .unknown, some ⟨1⟩, none⟩]
  functions := #[
    { name := "Provider", package := some "example.com/p", receiver := none
      signature := ⟨15⟩, params := []
      blocks := some [⟨[
        .define ⟨2⟩, .define ⟨3⟩, .define ⟨5⟩,
        .mapUpdate ⟨3⟩ ⟨4⟩ ⟨5⟩ .unknown,
        .define ⟨6⟩, .store ⟨6⟩ ⟨3⟩ .unknown, .ret [⟨2⟩] .unknown]⟩]
      pos := .unknown, doc := none },
    { name := "resourceA", package := some "example.com/p", receiver := none
      signature := ⟨16⟩, params := []
      blocks := some [⟨[
        .define ⟨7⟩, .define ⟨8⟩,
        .define ⟨9⟩, .define ⟨11⟩, .store ⟨11⟩ ⟨10⟩ .unknown,
        .define ⟨12⟩, .define ⟨13⟩,
        .define ⟨14⟩, .define ⟨16⟩, .store ⟨16⟩ ⟨15⟩ .unknown,
        .mapUpdate ⟨13⟩ ⟨17⟩ ⟨14⟩ ⟨1⟩,
        .define ⟨18⟩, .store ⟨18⟩ ⟨13⟩ .unknown,
        .define ⟨19⟩, .define ⟨20⟩, .store ⟨20⟩ ⟨19⟩ .unknown,
        .mapUpdate ⟨8⟩ ⟨21⟩ ⟨9⟩ ⟨2⟩, .mapUpdate ⟨13⟩ ⟨24⟩ ⟨14⟩ ⟨3⟩,
        .mapUpdate ⟨8⟩ ⟨23⟩ ⟨14⟩ ⟨4⟩,
        .define ⟨25⟩, .define ⟨27⟩, .store ⟨27⟩ ⟨26⟩ .unknown,
        .define ⟨28⟩, .define ⟨29⟩, .store ⟨29⟩ ⟨28⟩ .unknown,
        .mapUpdate ⟨28⟩ ⟨23⟩ ⟨14⟩ ⟨5⟩, .mapUpdate ⟨8⟩ ⟨24⟩ ⟨25⟩ ⟨6⟩,
        .mapUpdate ⟨28⟩ ⟨17⟩ ⟨14⟩ ⟨7⟩,
        .define ⟨22⟩, .store ⟨22⟩ ⟨8⟩ .unknown, .ret [⟨7⟩] .unknown]⟩]
      pos := .unknown, doc := none }]

/-- The package with the names under which it knows the plugin library. -/
def trellisSubject : Subject where
  package := trellis
  sdk := { Sdk.usual with
    rootTypes := ["*sdk.Provider"], providerType := "sdk.Provider"
    resourceType := "sdk.Resource", schemaType := "sdk.Schema"
    valueType := "sdk.ValueType" }
  providerName := ""

/-- Where an attribute stands in a component, and what it is. -/
structure Place where
  path : List String
  type : AttributeType
  pos : Pos
deriving DecidableEq

/-- The places of the attributes of a component and of their children. -/
def outline (component : Component) : List Place :=
  component.attributes.flatMap fun attr =>
    ⟨[attr.name], attr.type, attr.pos⟩ :: attr.children.map fun child =>
      ⟨[attr.name, child.name], child.type, child.pos⟩

def trellisOutline : List Place := [
  ⟨["labels"], .map, ⟨6⟩⟩, ⟨["labels", "name"], .string, ⟨7⟩⟩,
  ⟨["labels", "zone"], .string, ⟨5⟩⟩, ⟨["rules"], .list, ⟨2⟩⟩,
  ⟨["rules", "labels"], .string, ⟨3⟩⟩, ⟨["rules", "name"], .string, ⟨1⟩⟩,
  ⟨["zone"], .string, ⟨4⟩⟩]

private theorem trellis_extract : ∃ extraction component,
    trellisSubject.extract.Yields extraction ∧
      component ∈ extraction.resources ∧ component.isPartial = false ∧
      outline component = trellisOutline := by
  have hfound : (trellisSubject.extract.outcome.toOption.map fun extraction =>
      extraction.resources.map fun component =>
        (component.isPartial, outline component)) =
      some [(false, trellisOutline)] := by decide +kernel
  obtain ⟨extraction, hresult, hresources⟩ := Option.map_eq_some_iff.1 hfound
  obtain ⟨component, hsingle, hshown⟩ := List.map_eq_singleton_iff.1 hresources
  obtain ⟨hwhole, houtline⟩ := Prod.mk.inj hshown
  exact ⟨extraction, component, Report.yields_of_toOption hresult,
    by simp [hsingle], hwhole, houtline⟩

private theorem trellis_mapsOwned : trellis.MapsOwned := by
  intro map reserve hmap
  have hmaps : ∀ i < 30, trellis.isMap ⟨i⟩ = .ok true →
      i = 3 ∨ i = 8 ∨ i = 13 ∨ i = 28 := by decide
  obtain ⟨value, hvalue, -⟩ := Access.bind_eq_ok_iff.1 hmap
  obtain ⟨hbound, -⟩ :=
    Array.getElem?_eq_some_iff.1 (Package.valueAt_eq_ok_iff.1 hvalue)
  rcases hmaps map.index hbound (by simp [Package.isMap, hmap]) with
    hindex | hindex | hindex | hindex
  all_goals
    cases map
    subst hindex
    exact ⟨_, _, _, rfl, rfl, rfl, by decide⟩

theorem trellis_component_keeps_owner_updates : trellis.validate = .ok () ∧
    ∃ extraction component, trellisSubject.extract.Yields extraction ∧
      component ∈ extraction.dataSources ++ extraction.resources ∧
      component.isPartial = false ∧
      outline component = trellisOutline ∧
      trellisSubject.LostNothing trellis.OwnerUpdates component ∧
      (∀ attr, Attribute.InTree component.attributes attr →
        attr.type ≠ .invalid ∧ attr.isPartial = false) ∧
      trellis.MapsOwned ∧
      trellisSubject.LostNothing trellis.DefinerUpdates component := by
  obtain ⟨extraction, component, hextracted, hmem, hwhole, hshown⟩ :=
    trellis_extract
  have hlisted : component ∈ extraction.dataSources ++ extraction.resources :=
    List.mem_append_right _ hmem
  obtain ⟨howner, hclean, hdefiner⟩ :=
    whole_component_keeps_owner_updates hextracted hlisted hwhole
  exact ⟨by decide +kernel, extraction, component, hextracted, hlisted, hwhole,
    hshown, howner, hclean, trellis_mapsOwned, hdefiner trellis_mapsOwned⟩

/-- The trellis with no owner for the map of its top schema, which the body of
the resource defines and updates all the same. -/
def windfall : Package :=
  { trellis with
    values := trellis.values.setIfInBounds 8
      ⟨.makeMap none, ⟨10⟩, .unknown, none, none⟩ }

def windfallSubject : Subject := { trellisSubject with package := windfall }

private theorem windfall_schemaMap {stores : List FieldStore}
    {store : FieldStore} {map : ValueId}
    (hstores : (windfallSubject.resourceStores ⟨1⟩).Yields stores)
    (hstore : firstStore? stores "Schema" = some store)
    (hroot : windfall.root store.value = .ok map) : map = ⟨8⟩ := by
  have hvalue : ((windfallSubject.resourceStores ⟨1⟩).outcome.toOption.bind
      (firstStore? · "Schema")).map FieldStore.value = some ⟨8⟩ := by
    decide +kernel
  have hoption : (windfallSubject.resourceStores ⟨1⟩).outcome.toOption =
      some stores := congrArg Except.toOption hstores
  rw [hoption, Option.bind_some, hstore, Option.map_some] at hvalue
  have hself : windfall.root ⟨8⟩ = .ok ⟨8⟩ := by decide +kernel
  rw [Option.some.inj hvalue, hself] at hroot
  exact (Except.ok.inj hroot).symm

private theorem windfall_updates {entries : List MapEntry}
    (hupdates : windfall.DefinerUpdates ⟨8⟩ entries) :
    ⟨⟨21⟩, ⟨9⟩, ⟨2⟩⟩ ∈ entries := by
  obtain ⟨f, hf, hdefines, hupdates⟩ := hupdates
  have hbody : ∀ f ∈ windfall.functions,
      .define ⟨8⟩ ∈ (f.blocks.getD []).flatMap Block.instructions →
      .mapUpdate ⟨8⟩ ⟨21⟩ ⟨9⟩ ⟨2⟩ ∈
        (f.blocks.getD []).flatMap Block.instructions := by decide
  exact hupdates.mem (hbody f hf hdefines)

/-- The package is valid, and its resource is not partial though none of the
updates of its schema map is an attribute. -/
theorem windfall_component_loses_updates : windfall.validate = .ok () ∧
    ∃ extraction component, windfallSubject.extract.Yields extraction ∧
      component ∈ extraction.dataSources ++ extraction.resources ∧
      component.isPartial = false ∧ component.attributes = [] ∧
      ¬windfallSubject.LostNothing windfall.DefinerUpdates component := by
  have hfound : (windfallSubject.extract.outcome.toOption.map fun extraction =>
      extraction.resources.map fun component =>
        (component.builder, component.isPartial,
          component.attributes.isEmpty)) = some [(⟨1⟩, false, true)] := by
    decide +kernel
  obtain ⟨extraction, hresult, hresources⟩ := Option.map_eq_some_iff.1 hfound
  obtain ⟨component, hsingle, hshown⟩ := List.map_eq_singleton_iff.1 hresources
  simp only [Prod.mk.injEq, List.isEmpty_iff] at hshown
  obtain ⟨hbuilder, hwhole, hempty⟩ := hshown
  refine ⟨by decide +kernel, extraction, component,
    Report.yields_of_toOption hresult, by simp [hsingle], hwhole, hempty, ?_⟩
  rintro ⟨stores, store, hstores, hstore, hcomplete⟩
  rw [hbuilder] at hstores
  rw [hempty] at hcomplete
  cases hcomplete with
  | intro hroot _ hupdates hperm hread _ =>
      cases hperm.nil_eq
      cases hread
      cases windfall_schemaMap hstores hstore hroot
      exact List.not_mem_nil (windfall_updates hupdates)

end Subject

end SchemaLint
