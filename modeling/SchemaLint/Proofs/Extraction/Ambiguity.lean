import SchemaLint.Proofs.Extraction.Errors
import SchemaLint.Proofs.Lint.SetSearch

/-!
# Ambiguous providers

Extraction refuses a package whose component maps are stored through addresses
that trace to several values, and counts these values whatever they are. The
count is one of provider structs exactly when each of the values is an
allocation: a helper that stores a map through its parameter adds the parameter
to the struct that its caller allocates.
-/

namespace SchemaLint

namespace Package

variable {p : Package}

def AddressesField (p : Package) (typeName : String) (address struct : ValueId)
    (field : String) : Prop :=
  ∃ index type entry, p.operationAt address = .ok (.fieldAddr struct index) ∧
    p.typeOf struct = .ok type ∧
    p.isType type typeName = .ok true ∧ p.field? type index = .ok (some entry) ∧
    entry.name = field

theorem fieldAddress?_eq_some_iff {typeName : String}
    {instruction : Instruction} {found : FieldAddress} :
    p.fieldAddress? typeName instruction = .ok (some found) ↔
      instruction = .define found.addr ∧
        p.AddressesField typeName found.addr found.struct found.field := by
  constructor
  · intro hdefined
    cases instruction with
    | define id =>
        obtain ⟨operation, hatId, hdefined⟩ := Access.bind_eq_ok_iff.1 hdefined
        split at hdefined
        · next struct index =>
            obtain ⟨type, hofStruct, hdefined⟩ :=
              Access.bind_eq_ok_iff.1 hdefined
            obtain ⟨isNamed, hnamed, hdefined⟩ :=
              Access.bind_eq_ok_iff.1 hdefined
            cases isNamed with
            | false => simp at hdefined
            | true =>
                simp only [Bool.not_true, Bool.false_eq_true, ↓reduceIte,
                  Access.bind_eq_ok_iff] at hdefined
                obtain ⟨_ | entry, hatIndex, hsame⟩ := hdefined
                · cases hsame
                · cases hsame
                  exact ⟨rfl, index, type, entry, hatId, hofStruct, hnamed,
                    hatIndex, rfl⟩
        · cases hdefined
    | _ => cases hdefined
  · rintro ⟨rfl, index, type, entry, hatId, hofStruct, hnamed, hatIndex,
      hofField⟩
    simp [fieldAddress?, hatId, hofStruct, hnamed, hatIndex, hofField]

theorem AddressesField.unique {typeName : String} {one other : FieldAddress}
    (hsame : one.addr = other.addr)
    (hfirst : p.AddressesField typeName one.addr one.struct one.field)
    (hsecond : p.AddressesField typeName other.addr other.struct other.field) :
    one = other := by
  have hofOne := fieldAddress?_eq_some_iff.2 ⟨rfl, hfirst⟩
  have hofOther := fieldAddress?_eq_some_iff.2 ⟨rfl, hsecond⟩
  rw [hsame, hofOther] at hofOne
  cases hofOne
  rfl

theorem mem_fieldStores_iff {instructions : List Instruction}
    {typeName : String} {stores : List FieldStore}
    (hyields :
      (p.fieldStores instructions typeName :
        Analysis ε (List FieldStore)).Yields stores)
    {store : FieldStore} :
    store ∈ stores ↔ ∃ address struct, .define address ∈ instructions ∧
        .store address store.value store.pos ∈ instructions ∧
        p.AddressesField typeName address struct store.field ∧
        p.root struct = .ok store.base := by
  simp only [fieldStores, Report.bind_yields,
    Analysis.ofAccess_yields] at hyields
  obtain ⟨addresses, hdefined, hyields⟩ := hyields
  rw [Report.mem_filterMapM_yields hyields]
  have hknown (found : FieldAddress) : found ∈ addresses ↔
      .define found.addr ∈ instructions ∧
      p.AddressesField typeName found.addr found.struct found.field := by
    simp [Access.mem_filterMapM_iff hdefined, fieldAddress?_eq_some_iff]
  constructor
  · rintro ⟨instruction, hmember, hstored⟩
    split at hstored
    · next address value pos =>
        cases hfound : addresses.find? (·.addr == address) with
        | none => simp [hfound] at hstored
        | some entry =>
            have hsame : entry.addr = address := by
              simpa using List.find?_some hfound
            obtain ⟨hinBody, haddresses⟩ :=
              (hknown entry).1 (List.mem_of_find?_eq_some hfound)
            simp only [hfound, Report.bind_yields, Analysis.root_yields,
              Report.pure_yields, Option.some.injEq] at hstored
            obtain ⟨root, htraced, rfl⟩ := hstored
            subst hsame
            exact ⟨entry.addr, entry.struct, hinBody, hmember, haddresses,
              htraced⟩
    · simp at hstored
  · rintro ⟨address, struct, hinBody, hmember, haddressed, htraced⟩
    refine ⟨_, hmember, ?_⟩
    have hlisted : ⟨address, struct, store.field⟩ ∈ addresses :=
      (hknown _).2 ⟨hinBody, haddressed⟩
    cases hfound : addresses.find? (·.addr == address) with
    | none => simpa using List.find?_eq_none.1 hfound _ hlisted
    | some entry =>
        have hsame : entry.addr = address := by
          simpa using List.find?_some hfound
        have hother := (hknown entry).1 (List.mem_of_find?_eq_some hfound)
        have honly : entry = ⟨address, struct, store.field⟩ :=
          AddressesField.unique hsame hother.2 haddressed
        simp [hfound, honly, htraced]

theorem WellFormed.mem_reachedStores_iff (hwf : p.WellFormed) {func : FuncId}
    {typeName : String} {stores : List FieldStore} (hhas : p.HasFunc func)
    (hyields :
      (p.reachedStores func typeName : Analysis ε (List FieldStore)).Yields
        stores)
    {store : FieldStore} :
    store ∈ stores ↔
      ∃ address struct, p.ReachesInstruction func (.define address) ∧
        p.ReachesInstruction func (.store address store.value store.pos) ∧
        p.AddressesField typeName address struct store.field ∧
        p.root struct = .ok store.base := by
  obtain ⟨start, hbody, hinRange⟩ := hwf.instructions hhas
  obtain ⟨visited, entered, hwalked⟩ :=
    hwf.walked (fun _ => false) [] [start] (by simpa using hinRange)
  have hreached := hwalked.covers.mem_iff_reachesInstruction hbody
  simp only [Package.reachedStores, Report.bind_yields,
    Analysis.ofAccess_yields, hbody, Access.ok_bind, hwalked.walk_eq,
    Except.ok.injEq, exists_eq_left'] at hyields
  simp only [mem_fieldStores_iff hyields, hreached]

end Package

namespace Subject

variable {s : Subject}

/-- Code that is reached from an entry point stores a component map through the
address of a provider that traces to the value. -/
def StoresMapInto (s : Subject) (base : ValueId) : Prop :=
  ∃ points entry address struct field value pos, s.entryPoints = .ok points ∧
    entry ∈ points ∧
    s.package.ReachesInstruction entry (.define address) ∧
    s.package.ReachesInstruction entry (.store address value pos) ∧
    s.package.AddressesField s.sdk.providerType address struct field ∧
    isComponentMap field = true ∧
    s.package.root struct = .ok base

/-- The value is the allocation of a provider whose component maps are
stored. -/
def IsProviderStruct (s : Subject) (value : ValueId) : Prop :=
  s.package.isAllocOf value s.sdk.providerType = .ok true ∧
    s.StoresMapInto value

private theorem nodup_eraseDups : ∀ list : List ValueId, list.eraseDups.Nodup
  | [] => by simp
  | first :: rest => by
      rw [List.eraseDups_cons, List.nodup_cons]
      exact ⟨by simp, nodup_eraseDups _⟩
termination_by list => list.length
decreasing_by exact Nat.lt_succ_of_le (List.length_filter_le _ _)

theorem mem_mapBases_iff (hwf : s.package.WellFormed) {points : List FuncId}
    {lists : List (List FieldStore)} (hfound : s.entryPoints = .ok points)
    (hyields :
      (points.mapM fun id =>
        s.package.reachedStores id s.sdk.providerType : Extract _).Yields lists)
    (base : ValueId) :
    base ∈ mapBases lists.flatten ↔ s.StoresMapInto base := by
  have hinTable : ∀ id ∈ points, s.package.HasFunc id :=
    (s.entryPoints_faultless hwf).of_ok hfound
  have hrelated := Report.mapM_yields.1 hyields
  have hstored (store : FieldStore) :
      store ∈ lists.flatten ↔ ∃ entry ∈ points, ∃ address struct,
      s.package.ReachesInstruction entry (.define address) ∧
      s.package.ReachesInstruction entry
        (.store address store.value store.pos) ∧
      s.package.AddressesField s.sdk.providerType address struct store.field ∧
      s.package.root struct = .ok store.base := by
    clear hfound hyields
    induction hrelated with
    | nil => simp
    | @cons entry list points lists hfirst _ ih =>
        have htail :=
          ih fun id hmember => hinTable id (List.mem_cons_of_mem _ hmember)
        rw [List.flatten_cons, List.mem_append, htail,
          hwf.mem_reachedStores_iff (hinTable entry List.mem_cons_self) hfirst,
          List.exists_mem_cons_iff]
  simp only [mapBases, List.mem_eraseDups, List.mem_map, List.mem_filter,
    hstored]
  constructor
  · rintro ⟨store, ⟨⟨entry, hmember, address, struct, hdefined, hreached,
          haddressed, htraced⟩, hisMap⟩, rfl⟩
    exact ⟨points, entry, address, struct, store.field, store.value, store.pos,
      hfound, hmember, hdefined, hreached, haddressed, hisMap, htraced⟩
  · rintro ⟨_, entry, address, struct, field, value, pos, hknown, hmember,
      hdefined, hreached, haddressed, hisMap, htraced⟩
    cases hfound.symm.trans hknown
    exact ⟨⟨base, field, value, pos⟩, ⟨⟨entry, hmember, address, struct,
          hdefined, hreached, haddressed, htraced⟩, hisMap⟩, rfl⟩

theorem providerStores_refuses_of_extract {count : Nat} {pos : Pos}
    (hrefused : s.extract.Refuses (.ambiguousEntryPoint count pos)) :
    s.providerStores.Refuses (.ambiguousEntryPoint count pos) := by
  have hnever {stores : List FieldStore} {field : String} :
      ¬(s.components stores field).Refuses
        (.ambiguousEntryPoint count pos) := by
    intro hrefused
    rcases components_refuses hrefused with ⟨_, _, hsame⟩ |
      ⟨_, _, _, _, _, -, -, -, -, hsame⟩ <;>
      cases hsame
  simpa [extract, hnever] using hrefused

private theorem exists_bases_of_ambiguous (hwf : s.package.WellFormed)
    {count : Nat} {pos : Pos}
    (hrefused : s.providerStores.Refuses (.ambiguousEntryPoint count pos)) :
    2 ≤ count ∧ ∃ bases : List ValueId, bases.Nodup ∧ bases.length = count ∧
        ∀ base, base ∈ bases ↔ s.StoresMapInto base := by
  simp only [providerStores, Analysis.bind_refuses, Analysis.monadLift_refuses,
    Analysis.monadLift_yields, false_or] at hrefused
  obtain ⟨points, hfound, hrefused⟩ := hrefused
  cases points with
  | nil => simp at hrefused
  | cons entry others =>
      simp only [Analysis.bind_refuses, Analysis.monadLift_refuses,
        false_or] at hrefused
      obtain ⟨func, -, hreached | ⟨lists, hyields, hrefused⟩⟩ := hrefused
      · obtain ⟨_, -, hreached⟩ := Analysis.mapM_refuses hreached
        simp at hreached
      · split at hrefused
        · simp at hrefused
        · simp at hrefused
        · next hnotNone hnotOne =>
            simp only [Analysis.refuse_refuses,
              ExtractError.ambiguousEntryPoint.injEq] at hrefused
            refine ⟨?_, mapBases lists.flatten, nodup_eraseDups _,
              hrefused.1.symm, mem_mapBases_iff hwf hfound hyields⟩
            rw [hrefused.1]
            rcases hbases : mapBases lists.flatten with
              _ | ⟨base, _ | ⟨other, rest⟩⟩
            · exact absurd hbases hnotNone
            · exact absurd hbases (hnotOne base)
            · simp

/-- An ambiguous provider counts the values that component maps are stored into.
There are as many provider structs exactly when each of these values is an
allocation of a provider. -/
theorem ambiguous_count_is_of_structs_iff (hvalid : s.package.validate = .ok ())
    {count : Nat} {pos : Pos}
    (hrefused : s.extract.Refuses (.ambiguousEntryPoint count pos)) :
    2 ≤ count ∧ ∃ bases : List ValueId, bases.Nodup ∧ bases.length = count ∧
        (∀ base, base ∈ bases ↔ s.StoresMapInto base) ∧
        ((∃ structs : List ValueId, structs.Nodup ∧ count ≤ structs.length ∧
            ∀ value ∈ structs, s.IsProviderStruct value) ↔
          ∀ base, s.StoresMapInto base →
            s.package.isAllocOf base s.sdk.providerType = .ok true) := by
  have hwf := Package.validate_eq_ok_iff.1 hvalid
  obtain ⟨hseveral, bases, hdistinct, rfl, hstored⟩ :=
    exists_bases_of_ambiguous hwf (providerStores_refuses_of_extract hrefused)
  refine ⟨hseveral, bases, hdistinct, rfl, hstored, ?_, fun hallocated => ?_⟩
  · rintro ⟨structs, hnodup, henough, hareStructs⟩ base hinto
    -- As many distinct structs as there are bases leave no base over.
    have hamong : structs ⊆ bases :=
      fun value hmember => (hstored value).2 (hareStructs value hmember).2
    have hsame : structs.Perm bases :=
      (List.subperm_of_subset hnodup hamong).perm_of_length_le henough
    exact (hareStructs base (hsame.mem_iff.2 ((hstored base).2 hinto))).1
  · exact ⟨bases, hdistinct, le_rfl, fun base hmember =>
      have hinto := (hstored base).1 hmember
      ⟨hallocated base hinto, hinto⟩⟩

/-- A provider that is allocated and given its data sources by the entry point,
and its resources by a helper that the provider is passed to. -/
def relayed : Package where
  path := "example.com/p"
  types := #[
    .basic .string, .named (some "sdk") "Provider" ⟨2⟩,
    .struct [⟨"ResourcesMap", ⟨4⟩, false⟩, ⟨"DataSourcesMap", ⟨4⟩, false⟩],
    .pointer ⟨1⟩, .map ⟨0⟩ ⟨0⟩,
    .pointer ⟨4⟩, .signature [] [⟨3⟩] false, .signature [⟨3⟩] [] false,
    .tuple []]
  values := #[
    ⟨.function ⟨1⟩, ⟨7⟩, .unknown, none, none⟩,
    ⟨.alloc true, ⟨3⟩, .unknown, some ⟨0⟩, none⟩,
    ⟨.makeMap none, ⟨4⟩, .unknown, some ⟨0⟩, none⟩,
    ⟨.fieldAddr ⟨1⟩ 1, ⟨5⟩, .unknown, some ⟨0⟩, none⟩,
    ⟨.call ⟨⟨0⟩, none, [⟨1⟩]⟩, ⟨8⟩, .unknown, some ⟨0⟩, none⟩,
    ⟨.parameter 0, ⟨3⟩, .unknown, some ⟨1⟩, some "p"⟩,
    ⟨.makeMap none, ⟨4⟩, .unknown, some ⟨1⟩, none⟩,
    ⟨.fieldAddr ⟨5⟩ 0, ⟨5⟩, .unknown, some ⟨1⟩, none⟩]
  functions := #[
    { name := "Provider"
      package := some "example.com/p"
      receiver := none
      signature := ⟨6⟩
      params := []
      blocks :=
        some [⟨[.define ⟨1⟩, .define ⟨2⟩, .define ⟨3⟩, .store ⟨3⟩ ⟨2⟩ .unknown,
          .define ⟨4⟩, .ret [⟨1⟩] .unknown]⟩]
      pos := .unknown, doc := none },
    { name := "addResources"
      package := some "example.com/p"
      receiver := none
      signature := ⟨7⟩
      params := [⟨5⟩]
      blocks :=
        some [⟨[.define ⟨6⟩, .define ⟨7⟩, .store ⟨7⟩ ⟨6⟩ .unknown,
          .ret [] .unknown]⟩]
      pos := .unknown, doc := none }]

def relayedSubject : Subject where
  package := relayed
  sdk :=
    { Sdk.usual with
      rootTypes := ["*sdk.Provider"]
      providerType := "sdk.Provider" }
  providerName := ""

theorem relayed_valid : relayedSubject.package.validate = .ok () := by
  decide +kernel

theorem relayed_refused :
    relayedSubject.extract.Refuses (.ambiguousEntryPoint 2 .unknown) := by
  have hshown : relayedSubject.extract.outcome.map (fun _ => ()) =
      .error (.cause (.ambiguousEntryPoint 2 .unknown)) := by decide +kernel
  unfold Analysis.Refuses
  cases houtcome : relayedSubject.extract.outcome with
  | ok extraction => simp [houtcome, Except.map] at hshown
  | error failure => simpa [houtcome, Except.map] using hshown

theorem relayed_ambiguous_count_is_of_structs_iff :
    relayedSubject.package.validate = .ok () ∧
      relayedSubject.extract.Refuses (.ambiguousEntryPoint 2 .unknown) ∧ 2 ≤ 2 ∧
      ∃ bases : List ValueId, bases.Nodup ∧ bases.length = 2 ∧
        (∀ base, base ∈ bases ↔ relayedSubject.StoresMapInto base) ∧
        ((∃ structs : List ValueId, structs.Nodup ∧ 2 ≤ structs.length ∧
            ∀ value ∈ structs, relayedSubject.IsProviderStruct value) ↔
          ∀ base, relayedSubject.StoresMapInto base →
            relayedSubject.package.isAllocOf base
                relayedSubject.sdk.providerType = .ok true) :=
  ⟨relayed_valid, relayed_refused,
    ambiguous_count_is_of_structs_iff relayed_valid relayed_refused⟩

theorem relayed_alloc_unique {value : ValueId}
    (hallocated :
      relayedSubject.package.isAllocOf value relayedSubject.sdk.providerType =
        .ok true) : value = ⟨1⟩ := by
  have heach :
      ∀ index : Fin 8, relayedSubject.package.isAllocOf ⟨index⟩
          relayedSubject.sdk.providerType = .ok true →
      index = 1 := by decide +kernel
  obtain ⟨index⟩ := value
  by_cases hinTable : index < 8
  · have hsame := heach ⟨index, hinTable⟩ hallocated
    exact congrArg ValueId.mk (congrArg Fin.val hsame)
  · have houtside : relayed.values[index]? = none :=
      Array.getElem?_eq_none (by simpa [relayed] using hinTable)
    simp [Package.isAllocOf, Package.valueAt, relayedSubject,
      houtside] at hallocated

theorem relayed_two_counted_for_one_struct :
    relayedSubject.package.validate = .ok () ∧
        relayedSubject.extract.Refuses (.ambiguousEntryPoint 2 .unknown) ∧
        ¬∃ structs :
      List ValueId, structs.Nodup ∧ 2 ≤ structs.length ∧
        ∀ value ∈ structs, relayedSubject.IsProviderStruct value := by
  refine ⟨relayed_valid, relayed_refused, ?_⟩
  rintro ⟨structs, hdistinct, hseveral, hareStructs⟩
  have hamong : structs ⊆ [⟨1⟩] := by
    intro value hmember
    simp [relayed_alloc_unique (hareStructs value hmember).1]
  have hfew := (List.subperm_of_subset hdistinct hamong).length_le
  simp only [List.length_singleton] at hfew
  omega

end Subject

end SchemaLint
