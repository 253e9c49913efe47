import Mathlib.Data.List.TakeWhile
import SchemaLint.Lint.Registry
import SchemaLint.Proofs.Lists

/-!
# Registering and selecting

Rules are registered one after the other, and some of the calls fail. What is
registered in the end are the ids that are not blank, in the order in which they
were first given, each with the rule it was first given with. A selection takes
the order from the registry, and the id that it complains about from the list of
included ones.
-/

namespace SchemaLint

theorem Text.trim_eq_empty_iff {text : String} :
    trim text = "" ↔ text.toList.all isBlank = true := by
  have hnone : trim text = "" ↔ trimChars text.toList = [] := by
    rw [trim, ← String.toList_inj]
    simp
  rw [hnone, trimChars, List.reverse_eq_nil_iff, List.dropWhile_eq_nil_iff,
    List.all_eq_true]
  constructor
  · intro hrest c hmember
    by_contra hother
    have hfirst : (text.toList.dropWhile isBlank) ≠ [] := by
      intro hblank
      exact hother (List.dropWhile_eq_nil_iff.1 hblank c hmember)
    have hhead := List.head_dropWhile_not isBlank hfirst
    have hblank := hrest _ (List.mem_reverse.2 (List.head_mem hfirst))
    simp [hblank] at hhead
  · intro hall c hmember
    exact hall c ((List.dropWhile_sublist _).mem (List.mem_reverse.1 hmember))

/-- A call that registers a rule under an id. -/
abbrev Registration := String × (Sdk → Rule)

namespace RuleRegistry

def after (registry : RuleRegistry) (call : Registration) : RuleRegistry :=
  ((enter call.1 call.2).run registry).2

def afterAll (start : RuleRegistry) (calls : List Registration) :
    RuleRegistry := calls.foldl after start

variable {registry start : RuleRegistry} {id : String} {make : Sdk → Rule}

/-! ## One call -/

theorem enter_run : (enter id make).run registry =
    match validateId id with
    | .error error => (.error error, registry)
    | .ok () =>
      if registry.contains id then (.error (.alreadyExists id), registry)
      else (.ok (), ⟨registry.entries ++ [(id, make)]⟩) := by
  unfold enter
  cases validateId id with
  | error error => rfl
  | ok =>
      change (ite (registry.contains id = true) _ _ :
          ExceptT RegistryError (StateM RuleRegistry) Unit) registry = _
      cases registry.contains id <;> rfl

private theorem enter_of_blank (hblank : Text.trim id = "") :
    (enter id make).run registry = (.error (.invalidId id), registry) := by
  simp [enter_run, validateId, Text.trim_eq_empty_iff.1 hblank]

private theorem enter_of_known (hfilled : Text.trim id ≠ "")
    (hknown : id ∈ registry.ids) :
    (enter id make).run registry = (.error (.alreadyExists id), registry) := by
  simp [enter_run, validateId, mt Text.trim_eq_empty_iff.2 hfilled, contains,
    hknown]

theorem enter_of_new (hfilled : Text.trim id ≠ "") (hnew : id ∉ registry.ids) :
    (enter id make).run registry =
      (.ok (), ⟨registry.entries ++ [(id, make)]⟩) := by
  simp [enter_run, validateId, mt Text.trim_eq_empty_iff.2 hfilled, contains,
    hnew]

/-- A call fails for a blank id or for one that is there, and otherwise adds its
rule at the end. -/
theorem enter_cases (registry : RuleRegistry) (id : String)
    (make : Sdk → Rule) :
    Text.trim id = "" ∧
        (enter id make).run registry = (.error (.invalidId id), registry) ∨
      Text.trim id ≠ "" ∧ id ∈ registry.ids ∧
        (enter id make).run registry = (.error (.alreadyExists id), registry) ∨
      Text.trim id ≠ "" ∧ id ∉ registry.ids ∧
        (enter id make).run registry =
          (.ok (), ⟨registry.entries ++ [(id, make)]⟩) := by
  by_cases hblank : Text.trim id = ""
  · exact .inl ⟨hblank, enter_of_blank hblank⟩
  · by_cases hknown : id ∈ registry.ids
    · exact .inr (.inl ⟨hblank, hknown, enter_of_known hblank hknown⟩)
    · exact .inr (.inr ⟨hblank, hknown, enter_of_new hblank hknown⟩)

theorem enter_error_iff {error : RegistryError} :
    ((enter id make).run registry).1 = .error error ↔
      Text.trim id = "" ∧ error = .invalidId id ∨
        Text.trim id ≠ "" ∧ id ∈ registry.ids ∧ error = .alreadyExists id := by
  obtain ⟨hblank, hran⟩ | ⟨hfilled, hknown, hran⟩ | ⟨hfilled, hnew, hran⟩ :=
    registry.enter_cases id make
  · simp [hran, hblank, eq_comm]
  · simp [hran, hfilled, hknown, eq_comm]
  · simp [hran, hfilled, hnew]

private theorem enter_unchanged {error : RegistryError}
    (hrefused : ((enter id make).run registry).1 = .error error) :
    ((enter id make).run registry).2 = registry := by
  obtain ⟨-, hran⟩ | ⟨-, -, hran⟩ | ⟨-, -, hran⟩ := registry.enter_cases id make
  · rw [hran]
  · rw [hran]
  · rw [hran] at hrefused
    cases hrefused

theorem after_cases (registry : RuleRegistry) (call : Registration) :
    Text.trim call.1 ≠ "" ∧ call.1 ∉ registry.ids ∧
        registry.after call = ⟨registry.entries ++ [call]⟩ ∨
      (Text.trim call.1 = "" ∨ call.1 ∈ registry.ids) ∧
        registry.after call = registry := by
  obtain ⟨hblank, hran⟩ | ⟨-, hknown, hran⟩ | ⟨hfilled, hnew, hran⟩ :=
    registry.enter_cases call.1 call.2
  · exact .inr ⟨.inl hblank, congrArg Prod.snd hran⟩
  · exact .inr ⟨.inr hknown, congrArg Prod.snd hran⟩
  · exact .inl ⟨hfilled, hnew, congrArg Prod.snd hran⟩

structure Orderly (registry : RuleRegistry) : Prop where
  distinct : registry.ids.Nodup
  filled : ∀ id ∈ registry.ids, Text.trim id ≠ ""

theorem Orderly.after (horderly : registry.Orderly) (call : Registration) :
    (registry.after call).Orderly := by
  obtain ⟨hfilled, hnew, hadded⟩ | ⟨-, hsame⟩ := registry.after_cases call
  · rw [hadded]
    have hlonger : RuleRegistry.ids ⟨registry.entries ++ [call]⟩ =
        registry.ids ++ [call.1] := List.map_append
    constructor
    · rw [hlonger]
      simpa using horderly.distinct.concat hnew
    · rw [hlonger, List.forall_mem_append]
      exact ⟨horderly.filled, by simpa using hfilled⟩
  · rw [hsame]
    exact horderly

/-! ## Many calls -/

theorem afterAll_concat (start : RuleRegistry) (calls : List Registration)
    (call : Registration) :
    start.afterAll (calls ++ [call]) = (start.afterAll calls).after call := by
  rw [afterAll, List.foldl_append]
  rfl

theorem Orderly.afterAll (horderly : start.Orderly)
    (calls : List Registration) : (start.afterAll calls).Orderly := by
  induction calls using List.reverseRecOn with
  | nil => exact horderly
  | append_singleton calls call ih =>
      rw [afterAll_concat]
      exact ih.after call

/-- The ids that were there, and the others that are not blank, each where it
was first given. -/
theorem ids_afterAll (hdistinct : start.ids.eraseDups = start.ids)
    (calls : List Registration) :
    (start.afterAll calls).ids =
      (start.ids ++
        (calls.map Prod.fst).filter (Text.trim · ≠ "")).eraseDups := by
  induction calls using List.reverseRecOn with
  | nil => simp [afterAll, hdistinct]
  | append_singleton calls call ih =>
      have hknown : call.1 ∈ (start.afterAll calls).ids ↔
          call.1 ∈
            start.ids ++ (calls.map Prod.fst).filter (Text.trim · ≠ "") := by
        rw [ih, List.mem_eraseDups]
      rw [afterAll_concat, List.map_append, List.filter_append,
        List.map_singleton]
      obtain ⟨hfilled, hnew, hadded⟩ | ⟨hcause, hsame⟩ :=
        (start.afterAll calls).after_cases call
      · rw [List.filter_cons_of_pos (by simpa using hfilled), List.filter_nil,
          ← List.append_assoc, eraseDups_concat, if_neg (mt hknown.2 hnew),
          ← ih, hadded]
        simp [ids]
      · rw [hsame]
        by_cases hblank : Text.trim call.1 = ""
        · simpa [hblank] using ih
        · rw [List.filter_cons_of_pos (by simpa using hblank), List.filter_nil,
            ← List.append_assoc, eraseDups_concat,
            if_pos (hknown.1 (hcause.resolve_left hblank)), ih]

theorem mem_ids_iff :
    id ∈ registry.ids ↔ (registry.entries.lookup id).isSome := by
  rw [← not_iff_not, Option.not_isSome_iff_eq_none, List.lookup_eq_none_iff,
    ids, List.mem_map]
  constructor
  · rintro habsent entry hmember
    exact bne_iff_ne.2 fun hsame => habsent ⟨entry, hmember, hsame.symm⟩
  · rintro hapart ⟨entry, hmember, rfl⟩
    exact bne_iff_ne.1 (hapart entry hmember) rfl

theorem lookup_afterAll (hfilled : Text.trim id ≠ "")
    (calls : List Registration) :
    (start.afterAll calls).entries.lookup id =
      (start.entries ++ calls).lookup id := by
  induction calls using List.reverseRecOn with
  | nil => simp [afterAll]
  | append_singleton calls call ih =>
      rw [afterAll_concat, ← List.append_assoc, List.lookup_append, ← ih]
      obtain ⟨-, -, hadded⟩ | ⟨hcause, hsame⟩ :=
        (start.afterAll calls).after_cases call
      · rw [hadded, List.lookup_append]
      · rw [hsame]
        by_cases this : id = call.1
        · have hknown := mem_ids_iff.1 (hcause.resolve_left (this ▸ hfilled))
          rw [this, Option.or_of_isSome hknown]
        · have hother : (id == call.1) = false := by simpa using this
          rw [List.lookup_cons, hother]
          simp

/-! ## Selecting -/

variable {included excluded : List String} {sdk : Sdk}

theorem select_eq_error_iff {error : RegistryError} :
    registry.select included excluded sdk = .error error ↔
      ∃ before id rest, included = before ++ id :: rest ∧
        (∀ other ∈ before, other ∈ registry.ids) ∧ id ∉ registry.ids ∧
        error = .unknown id := by
  have hfound (unknown : String) :
      included.find? (fun id => !registry.contains id) = some unknown ↔
      ∃ before rest, included = before ++ unknown :: rest ∧
      (∀ id ∈ before, id ∈ registry.ids) ∧
        unknown ∉ registry.ids := by
    rw [List.find?_eq_some_iff_append]
    simp only [contains, Bool.not_eq_true', List.contains_eq_mem,
      decide_eq_false_iff_not, Bool.not_not, decide_eq_true_eq]
    constructor
    · rintro ⟨habsent, before, rest, hsplit, hknown⟩
      exact ⟨before, rest, hsplit, hknown, habsent⟩
    · rintro ⟨before, rest, hsplit, hknown, habsent⟩
      exact ⟨habsent, before, rest, hsplit, hknown⟩
  unfold select
  split
  · next unknown hfirst =>
      obtain ⟨before, rest, hsplit, hknown, habsent⟩ :=
        (hfound unknown).1 hfirst
      constructor
      · rintro ⟨⟩
        exact ⟨before, unknown, rest, hsplit, hknown, habsent, rfl⟩
      · rintro ⟨before', unknown', rest', hsplit', hknown', habsent', rfl⟩
        have hother :=
          (hfound unknown').2 ⟨before', rest', hsplit', hknown', habsent'⟩
        rw [Option.some.inj (hfirst.symm.trans hother)]
  · next hnone =>
      refine ⟨nofun, ?_⟩
      rintro ⟨before, unknown, rest, hsplit, hknown, habsent, rfl⟩
      cases hnone.symm.trans
        ((hfound unknown).2 ⟨before, rest, hsplit, hknown, habsent⟩)

private theorem select_eq_ok (hknown : ∀ id ∈ included, id ∈ registry.ids) :
    registry.select included excluded sdk =
      .ok ((registry.entries.filter fun (id, _) =>
        (included.isEmpty || included.contains id) && !excluded.contains id).map
        fun (id, make) => (id, make sdk)) := by
  have hnone : included.find? (fun id => !registry.contains id) = none := by
    rw [List.find?_eq_none]
    intro id hmember
    simpa [contains] using hknown id hmember
  rw [select, hnone]

/-- The rules have the chosen ids of the registry, in its order and each once,
and are made by what is registered. -/
structure Selects (registry : RuleRegistry) (included excluded : List String)
    (sdk : Sdk) (rules : List (String × Rule)) : Prop where
  inOrder : (rules.map Prod.fst).Sublist registry.ids
  once : (rules.map Prod.fst).Nodup
  chosen : ∀ id, id ∈ rules.map Prod.fst ↔
      id ∈ registry.ids ∧ (included = [] ∨ id ∈ included) ∧ id ∉ excluded
  made : ∀ entry ∈ rules, ∃ make, (entry.1, make) ∈ registry.entries ∧
      entry.2 = make sdk

private theorem select_exact (horderly : registry.Orderly)
    (hknown : ∀ id ∈ included, id ∈ registry.ids) :
    ∃ rules, registry.select included excluded sdk = .ok rules ∧
      registry.Selects included excluded sdk rules := by
  refine ⟨_, select_eq_ok hknown, ?_⟩
  have hkept : (registry.entries.filter fun (id, _) =>
      (included.isEmpty || included.contains id) &&
          !excluded.contains id).Sublist registry.entries :=
    List.filter_sublist
  have hsublist := hkept.map Prod.fst
  constructor
  · rw [List.map_map]
    exact hsublist
  · rw [List.map_map]
    exact horderly.distinct.sublist hsublist
  · simp [ids, and_assoc]
  · simp only [List.mem_map, Prod.exists]
    rintro _ ⟨id, make, hmember, rfl⟩
    exact ⟨make, (List.mem_filter.1 hmember).1, rfl⟩

/-! ## Histories -/

/-- What holds of a registry after some calls on `start`, and of the next call
and every selection. -/
structure Recorded (start : RuleRegistry) (calls : List Registration)
    (registry : RuleRegistry) : Prop where
  distinct : registry.ids.Nodup
  filled : ∀ id ∈ registry.ids, Text.trim id ≠ ""
  /-- Ids stand in the order in which they were first registered. -/
  inOrder :
    registry.ids =
      (start.ids ++ (calls.map Prod.fst).filter (Text.trim · ≠ "")).eraseDups
  /-- An id stands for the rule that it was first registered with. -/
  first : ∀ id, Text.trim id ≠ "" →
      registry.entries.lookup id = (start.entries ++ calls).lookup id
  refused : ∀ id make error, ((enter id make).run registry).1 = .error error ↔
    Text.trim id = "" ∧ error = .invalidId id ∨
    Text.trim id ≠ "" ∧ id ∈ registry.ids ∧ error = .alreadyExists id
  unchanged : ∀ id make error, ((enter id make).run registry).1 = .error error →
    ((enter id make).run registry).2 = registry
  accepted : ∀ id make, Text.trim id ≠ "" → id ∉ registry.ids →
    (enter id make).run registry = (.ok (), ⟨registry.entries ++ [(id, make)]⟩)
  /-- A selection fails for the first included id that is not registered. -/
  unknown :
    ∀ included excluded sdk error, registry.select included excluded sdk =
      .error error ↔
    ∃ before id rest, included = before ++ id :: rest ∧
    (∀ other ∈ before, other ∈ registry.ids) ∧
      id ∉ registry.ids ∧ error = .unknown id
  selected : ∀ included excluded sdk, (∀ id ∈ included, id ∈ registry.ids) →
    ∃ rules, registry.select included excluded sdk = .ok rules ∧
    registry.Selects included excluded sdk rules

/-- A registry that starts empty or with the rules that are always there goes on
that way, whatever calls are made. -/
theorem history_recorded (hfresh : start = empty ∨ start = builtins)
    (calls : List Registration) :
    Recorded start calls (start.afterAll calls) := by
  have hdistinct : start.ids.eraseDups = start.ids := by
    rcases hfresh with rfl | rfl <;> decide
  have horderly : start.Orderly := by
    rcases hfresh with rfl | rfl
    · exact ⟨.nil, nofun⟩
    · exact ⟨by decide, by decide⟩
  have hlater := horderly.afterAll calls
  constructor
  case distinct => exact hlater.distinct
  case filled => exact hlater.filled
  case inOrder => exact ids_afterAll hdistinct calls
  case first => exact fun id hfilled => lookup_afterAll hfilled calls
  case refused => exact fun id make error => enter_error_iff
  case unchanged => exact fun id make error => enter_unchanged
  case accepted => exact fun id make => enter_of_new
  case unknown => exact fun included excluded sdk error => select_eq_error_iff
  case selected => exact fun included excluded sdk => select_exact hlater

/-- Two rules are registered, one of them twice; one call gives a blank id, and
one the id of a rule that is always there. -/
def enrolment : List Registration :=
  [("b", fun _ => .attributeExists), (" \n", fun _ => .noDereference),
    ("a", fun _ => .attributeTypes), ("b", fun _ => .reservedNames),
    ("tfprovlint005", fun _ => .attributeExists)]

theorem enrolment_history_recorded :
    (builtins.afterAll enrolment).ids = builtins.ids ++ ["b", "a"] ∧
      Recorded builtins enrolment (builtins.afterAll enrolment) :=
  ⟨by decide, history_recorded (.inr rfl) enrolment⟩

end RuleRegistry

end SchemaLint
