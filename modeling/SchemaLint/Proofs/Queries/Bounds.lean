import Mathlib.Data.Finset.Card
import Mathlib.Logic.Relation
import Mathlib.Tactic.Choose
import SchemaLint.Proofs.Queries.Types
import SchemaLint.Proofs.Yields

/-!
# Bounds on types

Three questions about a type go along chains in the type table: through names,
through pointers, and into the parts that a name is made of. Each stops at a
bound, which is there for chains that never end. A chain with an end comes to no
type twice, so it is shorter than the table, and no bound cuts it.
-/

namespace SchemaLint

open Relation

/-! ## Chains -/

/-- `Leads r id steps last`: from `id` it takes `steps` steps to `last`, where
there is no further one. -/
inductive Leads (r : TypeId → TypeId → Prop) : TypeId → Nat → TypeId → Prop
  | here {id} : (∀ next, ¬r id next) → Leads r id 0 id
  | step {id next steps last} :
    r id next → Leads r next steps last → Leads r id (steps + 1) last

section

variable {r : TypeId → TypeId → Prop}

theorem Leads.unique (hsingle : Relator.RightUnique r) {id last last' : TypeId}
    {steps steps' : Nat} (hone : Leads r id steps last)
    (hother : Leads r id steps' last') : last = last' := by
  induction hone generalizing steps' with
  | here hstop =>
      cases hother with
      | here => rfl
      | step hstep => exact absurd hstep (hstop _)
  | step hstep _ ih =>
      cases hother with
      | here hstop => exact absurd hstep (hstop _)
      | step hstep' hrest =>
          obtain rfl := hsingle hstep hstep'
          exact ih hrest

/-- Where each type has one next type at most, a chain that comes back has no
end. -/
theorem Leads.acyclic (hsingle : Relator.RightUnique r) {id last : TypeId}
    {steps : Nat} (hleads : Leads r id steps last) : ¬TransGen r id id := by
  induction hleads with
  | here hstop =>
      intro hcycle
      obtain ⟨next, hstep, -⟩ := TransGen.head'_iff.1 hcycle
      exact hstop next hstep
  | step hstep _ ih =>
      intro hcycle
      obtain ⟨other, hstep', hback⟩ := TransGen.head'_iff.1 hcycle
      obtain rfl := hsingle hstep hstep'
      exact ih (.tail' hback hstep)

namespace Package

variable {p : Package}

open Classical in
noncomputable def below (p : Package) (r : TypeId → TypeId → Prop)
    (id : TypeId) : Finset Nat :=
  (Finset.range p.types.size).filter fun index => TransGen r id ⟨index⟩

theorem card_below_le (r : TypeId → TypeId → Prop) (id : TypeId) :
    (p.below r id).card ≤ p.types.size := by
  classical
  exact (Finset.card_filter_le _ _).trans_eq (Finset.card_range _)

theorem card_below_lt {id next : TypeId} (hhas : p.HasType next)
    (hstep : r id next) (hacyclic : ¬TransGen r next next) :
    (p.below r next).card < (p.below r id).card := by
  classical
  refine Finset.card_lt_card
    (Finset.ssubset_iff_of_subset ?_ |>.2 ⟨next.index, ?_, ?_⟩)
  · exact Finset.monotone_filter_right _ fun _ _ honward => .head hstep honward
  · exact Finset.mem_filter.2 ⟨Finset.mem_range.2 hhas, .single hstep⟩
  · exact fun hagain => hacyclic (Finset.mem_filter.1 hagain).2

theorem steps_le_size (hsingle : Relator.RightUnique r)
    (hinside : ∀ id next, r id next → p.HasType next) {id last : TypeId}
    {steps : Nat} (hleads : Leads r id steps last) : steps ≤ p.types.size := by
  suffices hwithin :
      steps ≤ (p.below r id).card from hwithin.trans (card_below_le r id)
  induction hleads with
  | here => exact Nat.zero_le _
  | step hstep hrest ih =>
      exact Nat.lt_of_le_of_lt ih
        (card_below_lt (hinside _ _ hstep) hstep (hrest.acyclic hsingle))

end Package

end

namespace Package

variable {p : Package}

theorem WellFormed.hasType_of_mem_referenced (hwf : p.WellFormed)
    {id part : TypeId} {type : Ty} (hfound : p.typeAt id = .ok type)
    (hmember : part ∈ type.referenced) : p.HasType part :=
  (hwf.typeAt (typeAt_bound hfound)).of_ok hfound part hmember

/-! ## Through names -/

/-- The first type is a name of the second. -/
def Names (p : Package) (id underlying : TypeId) : Prop :=
  ∃ package name, p.typeAt id = .ok (.named package name underlying)

theorem names_rightUnique : Relator.RightUnique p.Names := by
  rintro id one other ⟨package, name, hfound⟩ ⟨package', name', hfound'⟩
  cases hfound.symm.trans hfound'
  rfl

theorem WellFormed.hasType_of_names (hwf : p.WellFormed)
    {id underlying : TypeId} (hnames : p.Names id underlying) :
    p.HasType underlying := by
  obtain ⟨package, name, hfound⟩ := hnames
  exact hwf.hasType_of_mem_referenced hfound (by simp [Ty.referenced])

theorem not_names_of_isNamed_eq_false {id : TypeId} {type : Ty}
    (hfound : p.typeAt id = .ok type) (hplain : type.isNamed = false)
    (next : TypeId) : ¬p.Names id next := by
  rintro ⟨package, name, hother⟩
  cases hfound.symm.trans hother
  cases hplain

private theorem isNamed_eq_false {id : TypeId} {type : Ty}
    (hfound : p.typeAt id = .ok type) (hstop : ∀ next, ¬p.Names id next) :
    type.isNamed = false := by
  cases type with
  | named package name underlying =>
      exact absurd ⟨package, name, hfound⟩ (hstop underlying)
  | _ => rfl

private theorem WellFormed.underlyingWithin_of_leads (hwf : p.WellFormed)
    {id last : TypeId} {steps bound : Nat}
    (hleads : Leads p.Names id steps last) (hhas : p.HasType id)
    (henough : steps ≤ bound) : p.underlyingWithin bound id = .ok last := by
  induction hleads generalizing bound with
  | here hstop =>
      obtain ⟨type, hfound, -⟩ := hwf.typeAt hhas
      exact underlyingWithin_of_not_named hfound (isNamed_eq_false hfound hstop)
        bound
  | step hnames _ ih =>
      have hinside := hwf.hasType_of_names hnames
      obtain ⟨package, name, hfound⟩ := hnames
      cases bound with
      | zero => exact absurd henough (Nat.not_succ_le_zero _)
      | succ bound =>
          rw [Package.underlyingWithin, hfound]
          exact ih hinside (Nat.le_of_succ_le_succ henough)

theorem WellFormed.underlying_of_leads (hwf : p.WellFormed) {id last : TypeId}
    {steps : Nat} (hhas : p.HasType id) (hleads : Leads p.Names id steps last) :
    p.underlying id = .ok last := by
  have hshort :=
    steps_le_size names_rightUnique (fun _ _ => hwf.hasType_of_names) hleads
  exact hwf.underlyingWithin_of_leads hleads hhas hshort

/-- What is found lies on the chain, and where the chain ends it is found. -/
theorem leads_of_underlyingWithin {id shape : TypeId} {bound : Nat}
    (hfound : p.underlyingWithin bound id = .ok shape)
    (hstop : ∀ next, ¬p.Names shape next) :
    ∃ steps, Leads p.Names id steps shape := by
  induction bound generalizing id with
  | zero =>
      cases hfound
      exact ⟨0, .here hstop⟩
  | succ bound ih =>
      rw [underlyingWithin] at hfound
      obtain ⟨type, hknown, hfound⟩ := Access.bind_eq_ok_iff.1 hfound
      cases type with
      | named package name underlying =>
          obtain ⟨steps, hleads⟩ := ih hfound
          exact ⟨steps + 1, .step ⟨package, name, hknown⟩ hleads⟩
      | _ =>
          cases hfound
          exact ⟨0, .here hstop⟩

/-! ## Through pointers -/

/-- Behind the names of the first type is a pointer to the second. -/
def PointsTo (p : Package) (id elem : TypeId) : Prop :=
  ∃ steps shape, Leads p.Names id steps shape ∧
    p.typeAt shape = .ok (.pointer elem)

theorem WellFormed.structureOf_eq_pointer_iff (hwf : p.WellFormed)
    {id elem : TypeId} (hhas : p.HasType id) :
    p.structureOf id = .ok (.pointer elem) ↔ p.PointsTo id elem := by
  constructor
  · intro hfound
    obtain ⟨shape, hunderlying, hknown⟩ := Access.bind_eq_ok_iff.1 hfound
    obtain ⟨steps, hleads⟩ :=
      leads_of_underlyingWithin hunderlying
        (not_names_of_isNamed_eq_false hknown rfl)
    exact ⟨steps, shape, hleads, hknown⟩
  · rintro ⟨steps, shape, hleads, hknown⟩
    rw [Package.structureOf, hwf.underlying_of_leads hhas hleads,
      Access.ok_bind, hknown]

theorem WellFormed.hasType_of_pointsTo (hwf : p.WellFormed) {id elem : TypeId}
    (hpoints : p.PointsTo id elem) : p.HasType elem := by
  obtain ⟨steps, shape, -, hknown⟩ := hpoints
  exact hwf.hasType_of_mem_referenced hknown (by simp [Ty.referenced])

private theorem pointsTo_rightUnique : Relator.RightUnique p.PointsTo := by
  rintro id one other ⟨steps, shape, hleads, hknown⟩
    ⟨steps', shape', hleads', hknown'⟩
  obtain rfl := hleads.unique names_rightUnique hleads'
  cases hknown.symm.trans hknown'
  rfl

private theorem WellFormed.pointerDepthWithin_of_leads (hwf : p.WellFormed)
    {id last : TypeId} {count bound : Nat}
    (hleads : Leads p.PointsTo id count last) (hhas : p.HasType id)
    (henough : count ≤ bound) : p.pointerDepthWithin bound id = .ok count := by
  induction hleads generalizing bound with
  | here hstop =>
      obtain ⟨type, hfound, -⟩ := hwf.structureOf hhas
      cases type with
      | pointer elem =>
          exact absurd ((hwf.structureOf_eq_pointer_iff hhas).1 hfound)
            (hstop elem)
      | _ => rw [Package.pointerDepthWithin, hfound]; rfl
  | step hpoints _ ih =>
      cases bound with
      | zero => exact absurd henough (Nat.not_succ_le_zero _)
      | succ bound =>
          have hrest :=
            ih (hwf.hasType_of_pointsTo hpoints)
              (Nat.le_of_succ_le_succ henough)
          rw [Package.pointerDepthWithin,
            (hwf.structureOf_eq_pointer_iff hhas).2 hpoints]
          simp only [Access.ok_bind, hrest, Access.pure_eq]

private theorem WellFormed.pointerDepth_of_leads (hwf : p.WellFormed)
    {id last : TypeId} {count : Nat} (hhas : p.HasType id)
    (hleads : Leads p.PointsTo id count last) :
    p.pointerDepth id = .ok count := by
  have hshort :=
    steps_le_size pointsTo_rightUnique (fun _ _ => hwf.hasType_of_pointsTo)
      hleads
  exact hwf.pointerDepthWithin_of_leads hleads hhas hshort

/-! ## Into parts -/

end Package

/-- The types whose names the name of a type is made of; a declared name stands
for itself. -/
def Ty.parts : Ty → List TypeId
  | .named .. => []
  | type => type.referenced

def Ty.spelled (name : TypeId → String) : Ty → String
  | .basic kind => kind.name
  | .named package declared _ => qualified package declared
  | .pointer elem => "*" ++ name elem
  | .slice elem => "[]" ++ name elem
  | .array elem length => "[" ++ toString length ++ "]" ++ name elem
  | .map key elem => "map[" ++ name key ++ "]" ++ name elem
  | .chan elem => "chan " ++ name elem
  | .struct fields =>
    "struct\x7b" ++ "; ".intercalate (fields.map fun field =>
      (if field.embedded then "" else field.name ++ " ") ++ name field.type) ++
        "\x7d"
  | .interface methods => "interface\x7b" ++ "; ".intercalate methods ++ "\x7d"
  | .signature params [] _ =>
    "func(" ++ ", ".intercalate (params.map name) ++ ")"
  | .signature params [result] _ =>
    "func(" ++ ", ".intercalate (params.map name) ++ ") " ++ name result
  | .signature params results _ =>
    "func(" ++ ", ".intercalate (params.map name) ++ ") (" ++
      ", ".intercalate (results.map name) ++ ")"
  | .tuple elems => "(" ++ ", ".intercalate (elems.map name) ++ ")"

private theorem Ty.parts_subset_referenced (type : Ty) :
    type.parts ⊆ type.referenced := by
  cases type with
  | named => exact List.nil_subset _
  | _ => exact List.Subset.refl _

private theorem Ty.spelled_congr {type : Ty} {name other : TypeId → String}
    (hsame : ∀ part ∈ type.parts, name part = other part) :
    type.spelled name = type.spelled other := by
  cases type with
  | basic | named | interface => rfl
  | pointer elem | slice elem | array elem length | chan elem =>
      simp [spelled, hsame elem (by simp [parts, referenced])]
  | map key elem =>
      simp [spelled, hsame key (by simp [parts, referenced]),
        hsame elem (by simp [parts, referenced])]
  | struct fields =>
      have htexts :
          fields.map (fun field => (if field.embedded then ""
              else field.name ++ " ") ++ name field.type) =
          fields.map fun field => (if field.embedded then ""
              else field.name ++ " ") ++ other field.type :=
        List.map_congr_left fun field hmember => by
          rw [hsame field.type (List.mem_map_of_mem hmember)]
      simp only [spelled, htexts]
  | signature params results variadic =>
      have hofParams : params.map name = params.map other :=
        List.map_congr_left fun part hmember =>
          hsame part (List.mem_append_left _ hmember)
      have hofResults : results.map name = results.map other :=
        List.map_congr_left fun part hmember =>
          hsame part (List.mem_append_right _ hmember)
      rcases results with _ | ⟨result, _ | ⟨second, rest⟩⟩
      · simp only [spelled, hofParams]
      · simp only [spelled, hofParams, List.cons.inj hofResults]
      · simp only [spelled, hofParams, hofResults]
  | tuple elems =>
      have hofElems : elems.map name = elems.map other :=
        List.map_congr_left hsame
      simp only [spelled, hofElems]

namespace Package

variable {p : Package}

def Spells (p : Package) (id part : TypeId) : Prop :=
  ∃ type, p.typeAt id = .ok type ∧ part ∈ type.parts

/-- However far the parts of the type are followed, none of them is a part of
itself. -/
def SpellsFinitely (p : Package) (id : TypeId) : Prop :=
  ∀ inner, ReflTransGen p.Spells id inner → ¬TransGen p.Spells inner inner

/-- The name of a type with nothing left out. -/
inductive Spelled (p : Package) : TypeId → String → Prop
  | of_parts {id type} (name : TypeId → String) : p.typeAt id = .ok type →
    (∀ part ∈ type.parts, Spelled p part (name part)) →
    Spelled p id (type.spelled name)

theorem Spelled.unique {id : TypeId} {text other : String}
    (hone : p.Spelled id text) (htwo : p.Spelled id other) : text = other := by
  induction hone generalizing other with
  | of_parts name hfound _ ih =>
      cases htwo with
      | of_parts name' hfound' hspelled =>
          cases hfound.symm.trans hfound'
          exact Ty.spelled_congr fun part hmember =>
            ih part hmember (hspelled part hmember)

private theorem mapM_typeNameWithin {depth : Nat} {name : TypeId → String}
    {ids : List TypeId}
    (hnamed : ∀ id ∈ ids, p.typeNameWithin depth id = .ok (name id)) :
    ids.mapM (p.typeNameWithin depth) = .ok (ids.map name) :=
  Access.mapM_eq_ok (List.forall₂_map_right_iff.2 (List.forall₂_same.2 hnamed))

private theorem typeNameWithin_succ {depth : Nat} {id : TypeId} {type : Ty}
    {name : TypeId → String} (hfound : p.typeAt id = .ok type)
    (hnamed :
      ∀ part ∈ type.parts, p.typeNameWithin depth part = .ok (name part)) :
    p.typeNameWithin (depth + 1) id = .ok (type.spelled name) := by
  unfold Package.typeNameWithin
  simp only [hfound, Access.ok_bind]
  cases type with
  | basic | named | interface => rfl
  | pointer elem | slice elem | array elem length | chan elem =>
      simp [Ty.spelled, hnamed elem (by simp [Ty.parts, Ty.referenced])]
  | map key elem =>
      simp [Ty.spelled, hnamed key (by simp [Ty.parts, Ty.referenced]),
        hnamed elem (by simp [Ty.parts, Ty.referenced])]
  | struct fields =>
      have htexts : fields.mapM (fun field => do
            return (if field.embedded then "" else field.name ++ " ") ++
              (← p.typeNameWithin depth field.type)) =
          .ok (fields.map fun field =>
              (if field.embedded then "" else field.name ++ " ") ++
                name field.type) := by
        refine Access.mapM_eq_ok (List.forall₂_map_right_iff.2
          (List.forall₂_same.2 fun field hmember => ?_))
        rw [hnamed field.type (List.mem_map_of_mem hmember)]
        rfl
      simp only [htexts, Access.ok_bind]
      rfl
  | signature params results variadic =>
      have hofParams :=
        mapM_typeNameWithin fun part hmember =>
          hnamed part (List.mem_append_left _ hmember)
      have hofResults :=
        mapM_typeNameWithin fun part hmember =>
          hnamed part (List.mem_append_right _ hmember)
      rcases results with _ | ⟨result, _ | ⟨second, rest⟩⟩
      · simp [Ty.spelled, hofParams]
      · simp [Ty.spelled, hofParams,
          hnamed result (by simp [Ty.parts, Ty.referenced])]
      · simp [Ty.spelled, hofParams, hofResults]
  | tuple elems =>
      have hofElems : elems.mapM (p.typeNameWithin depth) =
          .ok (elems.map name) := mapM_typeNameWithin hnamed
      simp [Ty.spelled, hofElems]

private theorem WellFormed.typeNameWithin_of_finite (hwf : p.WellFormed)
    {depth : Nat} {id : TypeId} (hhas : p.HasType id)
    (hfinite : p.SpellsFinitely id)
    (henough : (p.below p.Spells id).card < depth) :
    ∃ text, p.typeNameWithin depth id = .ok text ∧ p.Spelled id text := by
  induction depth generalizing id with
  | zero => exact absurd henough (Nat.not_lt_zero _)
  | succ depth ih =>
      obtain ⟨type, hfound, hknown⟩ := hwf.typeAt hhas
      have hparts : ∀ part ∈ type.parts,
          ∃ text, p.typeNameWithin depth part = .ok text ∧
            p.Spelled part text := by
        intro part hmember
        have hinside : p.HasType part :=
          hknown part (type.parts_subset_referenced hmember)
        have hspells : p.Spells id part := ⟨type, hfound, hmember⟩
        have hfewer :=
          card_below_lt hinside hspells (hfinite part (.single hspells))
        exact ih hinside
          (fun inner hchain => hfinite inner (.head hspells hchain)) (by omega)
      choose! name hnamed hspelled using hparts
      exact ⟨type.spelled name, typeNameWithin_succ hfound hnamed,
        .of_parts name hfound hspelled⟩

private theorem WellFormed.typeName_of_finite (hwf : p.WellFormed) {id : TypeId}
    (hhas : p.HasType id) (hfinite : p.SpellsFinitely id) :
    ∃ text, p.typeName id = .ok text ∧ p.Spelled id text :=
  hwf.typeNameWithin_of_finite hhas hfinite
    (Nat.lt_succ_of_le (card_below_le _ _))

/-- Every type has a type behind its names, a number of pointers and a name.
Where the chain of names ends, the first is its end; where the chain of pointers
ends, the second is its length; and where no part of the type is a part of
itself, the third is the name with nothing left out. -/
theorem bounds_cut_no_finite_chain (hvalid : p.validate = .ok ()) (id : TypeId)
    (hinRange : id.index < p.types.size) :
    (∃ shape, p.underlying id = .ok shape ∧
        ∀ steps last, Leads p.Names id steps last → shape = last) ∧
      (∃ depth, p.pointerDepth id = .ok depth ∧
        ∀ count last, Leads p.PointsTo id count last → depth = count) ∧
      ∃ text, p.typeName id = .ok text ∧
        (p.SpellsFinitely id → ∀ other, p.Spelled id other ↔ other = text) := by
  have hwf := validate_eq_ok_iff.1 hvalid
  refine ⟨?_, ?_, ?_⟩
  · obtain ⟨shape, hfound, -⟩ := hwf.underlying hinRange
    refine ⟨shape, hfound, fun steps last hleads => ?_⟩
    exact Except.ok.inj
      (hfound.symm.trans (hwf.underlying_of_leads hinRange hleads))
  · obtain ⟨depth, hfound, -⟩ := hwf.pointerDepth hinRange
    refine ⟨depth, hfound, fun count last hleads => ?_⟩
    exact Except.ok.inj
      (hfound.symm.trans (hwf.pointerDepth_of_leads hinRange hleads))
  · obtain ⟨text, hfound, -⟩ := hwf.typeName hinRange
    refine ⟨text, hfound, fun hfinite other => ?_⟩
    obtain ⟨whole, hfound', hspelled⟩ := hwf.typeName_of_finite hinRange hfinite
    cases hfound.symm.trans hfound'
    constructor
    · exact fun halso => halso.unique hspelled
    · rintro rfl
      exact hspelled

/-- The names of this package go round in a circle, with two pointers on the
way. -/
def carousel : Package where
  path := "example.com/p"
  types := #[
    .named (some "example.com/p") "Gate" ⟨1⟩, .pointer ⟨2⟩,
    .named (some "example.com/p") "Horse" ⟨3⟩, .pointer ⟨4⟩,
    .map ⟨5⟩ ⟨6⟩, .basic .string, .slice ⟨7⟩,
    .named (some "example.com/p") "Ride" ⟨0⟩]

theorem carousel_names : Leads carousel.Names ⟨7⟩ 2 ⟨1⟩ :=
  .step ⟨_, _, rfl⟩
    (.step ⟨_, _, rfl⟩ (.here (not_names_of_isNamed_eq_false rfl rfl)))

private theorem carousel_points : Leads carousel.PointsTo ⟨7⟩ 2 ⟨4⟩ := by
  have hgate : carousel.PointsTo ⟨7⟩ ⟨2⟩ := ⟨2, ⟨1⟩, carousel_names, rfl⟩
  have hhorse : carousel.PointsTo ⟨2⟩ ⟨4⟩ :=
    ⟨1, ⟨3⟩, .step ⟨_, _, rfl⟩ (.here (not_names_of_isNamed_eq_false rfl rfl)),
      rfl⟩
  refine .step hgate (.step hhorse (.here fun next hpoints => ?_))
  obtain ⟨steps, shape, hleads, hknown⟩ := hpoints
  obtain rfl :=
    hleads.unique names_rightUnique
      (.here (not_names_of_isNamed_eq_false rfl rfl))
  cases hknown

theorem carousel_index_lt {whole part : TypeId}
    (hspells : carousel.Spells whole part) : whole.index < part.index := by
  have hrising : ∀ entry ∈ carousel.types.toList.zipIdx,
      ∀ part ∈ entry.1.parts, entry.2 < part.index := by decide
  obtain ⟨type, hfound, hmember⟩ := hspells
  refine hrising (type, whole.index) ?_ part hmember
  simpa [List.mk_mem_zipIdx_iff_getElem?] using typeAt_eq_ok_iff.1 hfound

private theorem carousel_spellsFinitely (id : TypeId) :
    carousel.SpellsFinitely id := by
  intro inner _ hcycle
  have hrises {first last : TypeId}
      (hchain : TransGen carousel.Spells first last) :
      first.index < last.index := by
    induction hchain with
    | single hspells => exact carousel_index_lt hspells
    | tail _ hspells ih => exact Nat.lt_trans ih (carousel_index_lt hspells)
  exact Nat.lt_irrefl _ (hrises hcycle)

theorem carousel_bounds_cut_no_finite_chain :
    carousel.validate = .ok () ∧ carousel.underlying ⟨7⟩ = .ok ⟨1⟩ ∧
      carousel.pointerDepth ⟨7⟩ = .ok 2 ∧
      ∃ text, carousel.typeName ⟨3⟩ = .ok text ∧
        ∀ other, carousel.Spelled ⟨3⟩ other ↔ other = text := by
  have hvalid : carousel.validate = .ok () := by decide
  obtain ⟨⟨shape, hunderlying, hends⟩, ⟨depth, hpointers, hcounts⟩, -⟩ :=
    bounds_cut_no_finite_chain hvalid ⟨7⟩ (by decide)
  obtain ⟨-, -, text, hnamed, hwhole⟩ :=
    bounds_cut_no_finite_chain hvalid ⟨3⟩ (by decide)
  rw [hends _ _ carousel_names] at hunderlying
  rw [hcounts _ _ carousel_points] at hpointers
  exact ⟨hvalid, hunderlying, hpointers, text, hnamed,
    hwhole (carousel_spellsFinitely _)⟩

end Package

end SchemaLint
