import SchemaLint.Proofs.Build.Moves

/-!
# Interned types

A builder keeps a table of the types that were asked for, next to the types
themselves. For types that are not named the two say the same in every session,
so that such a type is there once at most. A named type can be asked for and
then be given another underlying type: the table goes on to answer with a number
under which that other type stands.
-/

namespace SchemaLint

namespace Ty

@[simp] theorem withUnderlying_withUnderlying (type : Ty) (one other : TypeId) :
    (type.withUnderlying one).withUnderlying other =
      type.withUnderlying other := by
  cases type <;> rfl

@[simp] theorem isNamed_withUnderlying (type : Ty) (underlying : TypeId) :
    (type.withUnderlying underlying).isNamed = type.isNamed := by
  cases type <;> rfl

theorem exists_eq_withUnderlying (type : Ty) :
    ∃ underlying, type = type.withUnderlying underlying := by
  cases type with
  | named package name underlying => exact ⟨underlying, rfl⟩
  | _ => exact ⟨⟨0⟩, rfl⟩

end Ty

namespace Builder

variable {may : TypeId → TypeId → Prop} {b e : Builder} {type : Ty}
  {id : TypeId}

/-! ## Entries after a change -/

private theorem hasType_of_typeAt {p : Package}
    (hfound : p.typeAt id = .ok type) : p.HasType id :=
  (Array.getElem?_eq_some_iff.1 (Package.typeAt_eq_ok_iff.1 hfound)).1

theorem typeAt_push_iff {p : Package} {new : Ty} :
    { p with types := p.types.push new }.typeAt id = .ok type ↔
      p.typeAt id = .ok type ∨ id = ⟨p.types.size⟩ ∧ type = new := by
  obtain ⟨index⟩ := id
  rw [Package.typeAt_eq_ok_iff, Package.typeAt_eq_ok_iff, Array.getElem?_push]
  split
  · next hlast =>
      subst hlast
      simp [eq_comm]
  · next hother => simp [hother]

theorem typeAt_redefining {named underlying : TypeId} :
    (b.redefining named underlying).package.typeAt id = .ok type ↔
      ∃ old, b.package.typeAt id = .ok old ∧
        type = if id = named then old.withUnderlying underlying else old := by
  rw [Package.typeAt_eq_ok_iff, redefining, Array.getElem?_modify]
  by_cases hsame : id = named
  · subst hsame
    simp only [if_pos, Option.map_eq_some_iff, Package.typeAt_eq_ok_iff]
    exact exists_congr fun old => and_congr_right fun _ => eq_comm
  · have hother : named.index ≠ id.index := by
      intro hequal
      cases named
      cases id
      exact hsame (congrArg TypeId.mk hequal.symm)
    simp [hother, hsame, Package.typeAt_eq_ok_iff]

theorem lookup_interning {new : Ty} :
    (b.interning new).interned.lookup type = some id ↔
      type = new ∧ id = ⟨b.package.types.size⟩ ∨
        type ≠ new ∧ b.interned.lookup type = some id :=
  lookup_cons_eq_some_iff

/-! ## The table and the types -/

/-- The table answers with numbers of the types that were asked for, up to their
underlying types, and has all types that are not named. The types that were
declared by name have numbers of their own. -/
structure Consed (b : Builder) : Prop where
  entry : ∀ type id, b.interned.lookup type = some id →
    ∃ underlying, b.package.typeAt id = .ok (type.withUnderlying underlying)
  plain : ∀ type id, b.package.typeAt id = .ok type → type.isNamed = false →
      b.interned.lookup type = some id
  declared : ∀ key id, (key, id) ∈ b.declared →
      b.package.HasType id ∧ ∀ type, b.interned.lookup type ≠ some id

namespace Consed

theorem new (path : String) : (Builder.new path).Consed := by
  refine ⟨nofun, fun type id hfound => ?_, nofun⟩
  simp [Builder.new, Package.typeAt_eq_ok_iff] at hfound

theorem hasType (hconsed : b.Consed)
    (hknown : b.interned.lookup type = some id) : b.package.HasType id := by
  obtain ⟨underlying, hfound⟩ := hconsed.entry type id hknown
  exact hasType_of_typeAt hfound

/-- For a type that is not named the table has exactly the number of its
entry. -/
theorem lookup_iff (hconsed : b.Consed) (hplain : type.isNamed = false) :
    b.interned.lookup type = some id ↔ b.package.typeAt id = .ok type := by
  refine ⟨fun hknown => ?_, fun hfound => hconsed.plain type id hfound hplain⟩
  obtain ⟨underlying, hfound⟩ := hconsed.entry type id hknown
  rwa [withUnderlying_of_not_named hplain] at hfound

private theorem of_same (hconsed : b.Consed)
    (htypes : e.package.types = b.package.types)
    (hinterned : e.interned = b.interned)
    (hdeclared : e.declared = b.declared) : e.Consed := by
  have hsame (id : TypeId) : e.package.typeAt id = b.package.typeAt id := by
    simp [Package.typeAt, htypes]
  refine ⟨fun type id hknown => ?_, fun type id hfound hplain => ?_,
    fun key id hlisted => ?_⟩
  · rw [hsame]
    exact hconsed.entry type id (hinterned ▸ hknown)
  · rw [hinterned]
    exact hconsed.plain type id (hsame id ▸ hfound) hplain
  · rw [hinterned, Package.HasType, htypes]
    exact hconsed.declared key id (hdeclared ▸ hlisted)

theorem interning (hconsed : b.Consed) {new : Ty}
    (hunknown : b.interned.lookup new = none) : (b.interning new).Consed := by
  refine ⟨fun type id hknown => ?_, fun type id hfound hplain => ?_,
    fun key id hlisted => ?_⟩
  · obtain ⟨rfl, rfl⟩ | ⟨-, hold⟩ := lookup_interning.1 hknown
    · obtain ⟨underlying, hsame⟩ := type.exists_eq_withUnderlying
      exact ⟨underlying, hsame ▸ typeAt_push_iff.2 (.inr ⟨rfl, rfl⟩)⟩
    · obtain ⟨underlying, hfound⟩ := hconsed.entry type id hold
      exact ⟨underlying, typeAt_push_iff.2 (.inl hfound)⟩
  · rw [lookup_interning]
    obtain hold | hlast := typeAt_push_iff.1 hfound
    · have hknown := hconsed.plain type id hold hplain
      refine .inr ⟨?_, hknown⟩
      rintro rfl
      cases hunknown.symm.trans hknown
    · exact .inl hlast.symm
  · obtain ⟨hhas, hapart⟩ := hconsed.declared key id hlisted
    refine ⟨(within_pushType _ new).hasType hhas, fun type hknown => ?_⟩
    obtain ⟨-, rfl⟩ | ⟨-, hold⟩ := lookup_interning.1 hknown
    · exact absurd hhas (Nat.lt_irrefl _)
    · exact hapart type hold

theorem declaring (hconsed : b.Consed) (package : Option String) (name : String)
    (underlying : TypeId) : (b.declaring package name underlying).Consed := by
  refine ⟨fun type id hknown => ?_, fun type id hfound hplain => ?_,
    fun key id hlisted => ?_⟩
  · obtain ⟨underlying, hfound⟩ := hconsed.entry type id hknown
    exact ⟨underlying, typeAt_push_iff.2 (.inl hfound)⟩
  · obtain hold | ⟨-, rfl⟩ := typeAt_push_iff.1 hfound
    · exact hconsed.plain type id hold hplain
    · cases hplain
  · rcases List.mem_cons.1 hlisted with hsame | hold
    · cases hsame
      refine ⟨by simp [Package.HasType, Builder.declaring],
        fun type hknown => ?_⟩
      exact absurd (hconsed.hasType hknown) (Nat.lt_irrefl _)
    · obtain ⟨hhas, hapart⟩ := hconsed.declared key id hold
      exact ⟨(within_pushType _ _).hasType hhas, hapart⟩

theorem redefining (hconsed : b.Consed) (named underlying : TypeId) :
    (b.redefining named underlying).Consed := by
  refine ⟨fun type id hknown => ?_, fun type id hfound hplain => ?_,
    fun key id hlisted => ?_⟩
  · obtain ⟨before, hfound⟩ := hconsed.entry type id hknown
    by_cases hsame : id = named
    · exact ⟨underlying, typeAt_redefining.2 ⟨_, hfound, by simp [hsame]⟩⟩
    · exact ⟨before, typeAt_redefining.2 ⟨_, hfound, by simp [hsame]⟩⟩
  · obtain ⟨old, hbefore, rfl⟩ := typeAt_redefining.1 hfound
    have hkept : old.isNamed = false := by
      split at hplain
      · simpa using hplain
      · exact hplain
    rw [withUnderlying_of_not_named hkept, ite_self]
    exact hconsed.plain old id hbefore hkept
  · obtain ⟨hhas, hapart⟩ := hconsed.declared key id hlisted
    exact ⟨(within_setUnderlying _ named underlying).hasType hhas, hapart⟩

theorem move (hconsed : b.Consed) (hmove : b.Move may e) : e.Consed := by
  cases hmove with
  | intern hunknown => exact hconsed.interning hunknown
  | declare => exact hconsed.declaring _ _ _
  | redefine => exact hconsed.redefining _ _
  | locate | push | name | refer | add | change =>
      exact hconsed.of_same rfl rfl rfl

end Consed

end Builder

theorem Session.run_consed {path : String} {steps : List Step} {final : Session}
    (hran : (Session.new path).run steps = .ok final) : final.builder.Consed :=
  run_inv hran (.new path) .move

/-! ## Asking for a type -/

namespace Build

variable {b : Builder} {type : Ty} {id : TypeId}

theorem intern_apply (type : Ty) (b : Builder) :
    intern type b = .ok (match b.interned.lookup type with
      | some id => (id, b)
      | none => (⟨b.package.types.size⟩, b.interning type)) := by
  simp only [intern, bind, StateT.bind, Except.bind, get, getThe,
    MonadStateOf.get, StateT.get, pure, Except.pure]
  cases b.interned.lookup type <;> rfl

theorem intern_of_known (hknown : b.interned.lookup type = some id) :
    intern type b = .ok (id, b) := by
  rw [intern_apply, hknown]

theorem intern_of_unknown (hunknown : b.interned.lookup type = none) :
    intern type b = .ok (⟨b.package.types.size⟩, b.interning type) := by
  rw [intern_apply, hunknown]

theorem intern_eq_self_iff :
    intern type b = .ok (id, b) ↔ b.interned.lookup type = some id := by
  refine ⟨fun hsame => ?_, intern_of_known⟩
  cases hknown : b.interned.lookup type with
  | some old =>
      rw [intern_of_known hknown] at hsame
      cases hsame
      rfl
  | none =>
      rw [intern_of_unknown hknown, Except.ok.injEq, Prod.mk.injEq] at hsame
      have hlonger := congrArg (fun e : Builder => e.interned.length) hsame.2
      simp [Builder.interning] at hlonger

end Build

/-- After any session no two numbers stand for one type that is not named. Such
a type, when it is asked for, has the number that stands for it, and if there is
none it gets the next one and nothing else in the package changes. -/
theorem plain_types_are_hash_consed (path : String) (steps : List Step)
    {final : Session} (hran : (Session.new path).run steps = .ok final) :
    (∀ one other type, final.builder.package.typeAt one = .ok type →
        final.builder.package.typeAt other = .ok type → type.isNamed = false →
        one = other) ∧ ∀ type : Ty, type.isNamed = false →
        (∀ id, final.builder.package.typeAt id = .ok type →
            Build.intern type final.builder = .ok (id, final.builder)) ∧
          ((∀ id, final.builder.package.typeAt id ≠ .ok type) →
            ∃ later, Build.intern type final.builder =
                .ok (⟨final.builder.package.types.size⟩, later) ∧
              later.package =
                { final.builder.package with
                  types := final.builder.package.types.push type }) := by
  have hconsed := Session.run_consed hran
  refine ⟨fun one other type hfirst hsecond hplain => ?_,
    fun type hplain => ⟨fun id hfound => ?_, fun habsent => ?_⟩⟩
  · have hknown := hconsed.plain type one hfirst hplain
    exact Option.some.inj
      (hknown.symm.trans (hconsed.plain type other hsecond hplain))
  · exact Build.intern_of_known (hconsed.plain type id hfound hplain)
  · have hunknown : final.builder.interned.lookup type = none := by
      refine Option.eq_none_iff_forall_not_mem.2 fun id hknown => ?_
      exact habsent id ((hconsed.lookup_iff hplain).1 hknown)
    exact ⟨_, Build.intern_of_unknown hunknown, rfl⟩

theorem errand_plain_types_are_hash_consed :
    ∃ final, (Session.new "example.com/p").run errand = .ok final ∧
      (∀ one other type, final.builder.package.typeAt one = .ok type →
        final.builder.package.typeAt other = .ok type → type.isNamed = false →
        one = other) ∧ ∀ type : Ty, type.isNamed = false →
        (∀ id, final.builder.package.typeAt id = .ok type →
            Build.intern type final.builder = .ok (id, final.builder)) ∧
          ((∀ id, final.builder.package.typeAt id ≠ .ok type) →
            ∃ later, Build.intern type final.builder =
                .ok (⟨final.builder.package.types.size⟩, later) ∧
              later.package =
                { final.builder.package with
                  types := final.builder.package.types.push type }) := by
  have hallowed : (Session.new "example.com/p").Allows errand := by
    decide +kernel
  obtain ⟨final, hran, -⟩ := (Session.inOrder_new "example.com/p").run hallowed
  exact ⟨final, hran, plain_types_are_hash_consed _ _ hran⟩

/-! ## Named types -/

namespace Builder

variable {may : TypeId → TypeId → Prop} {b e : Builder} {type : Ty}
  {id : TypeId}

theorem Move.lookup (hmove : b.Move may e)
    (hknown : b.interned.lookup type = some id) :
    e.interned.lookup type = some id := by
  cases hmove with
  | @intern new hunknown =>
      refine lookup_interning.2 (.inr ⟨?_, hknown⟩)
      rintro rfl
      cases hunknown.symm.trans hknown
  | declare | redefine | locate | push | name | refer | add | change =>
      exact hknown

theorem Moves.lookup (hmoves : b.Moves may e)
    (hknown : b.interned.lookup type = some id) :
    e.interned.lookup type = some id :=
  hmoves.inv hknown fun hholds hmove => hmove.lookup hholds

/-- A move leaves the entry of a type that was asked for alone, unless it is
allowed to set its underlying type. -/
theorem Move.typeAt_eq (hmove : b.Move may e) (hconsed : b.Consed)
    (hknown : b.interned.lookup type = some id)
    (huntouched : ∀ underlying, ¬may id underlying) :
    e.package.typeAt id = b.package.typeAt id := by
  obtain ⟨underlying, hfound⟩ := hconsed.entry type id hknown
  rw [hfound]
  cases hmove with
  | intern | declare => exact typeAt_push_iff.2 (.inl hfound)
  | @redefine named other hallowed =>
      have hapart : id ≠ named := by
        rintro rfl
        rcases hallowed with hallowed | ⟨key, hlisted⟩
        · exact huntouched other hallowed
        -- A type declared by name is not in the table.
        · exact (hconsed.declared key id hlisted).2 type hknown
      exact typeAt_redefining.2 ⟨_, hfound, by simp [hapart]⟩
  | locate | push | name | refer | add | change => exact hfound

theorem Move.typeAt_of_new (hmove : b.Move may e)
    (hunknown : b.interned.lookup type = none)
    (hknown : e.interned.lookup type = some id) :
    e.package.typeAt id = .ok type := by
  cases hmove with
  | intern =>
      obtain ⟨rfl, rfl⟩ | ⟨-, hold⟩ := lookup_interning.1 hknown
      · exact typeAt_push_iff.2 (.inr ⟨rfl, rfl⟩)
      · cases hunknown.symm.trans hold
  | declare | redefine | locate | push | name | refer | add | change =>
      cases hunknown.symm.trans hknown

/-- Where a type stands in the end it stood before, unless it is new, and then
it is as it was asked for. -/
theorem Moves.typeAt_cases (hmoves : b.Moves may e) (hconsed : b.Consed)
    (huntouched : ∀ underlying, ¬may id underlying)
    (hknown : e.interned.lookup type = some id) :
    b.interned.lookup type = some id ∧
        e.package.typeAt id = b.package.typeAt id ∨
      b.interned.lookup type = none ∧ e.package.typeAt id = .ok type := by
  induction hmoves with
  | refl => exact .inl ⟨hknown, rfl⟩
  | @tail c e hfirst hmove ih =>
      have hbetween : c.Consed := Moves.inv hfirst hconsed .move
      cases hearlier : c.interned.lookup type with
      | some old =>
          cases (hmove.lookup hearlier).symm.trans hknown
          rw [hmove.typeAt_eq hbetween hearlier huntouched]
          exact ih hearlier
      | none =>
          refine .inr ⟨?_, hmove.typeAt_of_new hearlier hknown⟩
          cases hstart : b.interned.lookup type with
          | none => rfl
          | some old => cases hearlier.symm.trans (Moves.lookup hfirst hstart)

end Builder

namespace Session

variable {s : Session} {steps : List Step} {final : Session} {type : Ty}
  {id : TypeId}

theorem run_append {more : List Step} :
    s.run (steps ++ more) = .ok final ↔
      ∃ mid, s.run steps = .ok mid ∧ mid.run more = .ok final := by
  rw [Session.run, List.foldlM_append, Access.bind_eq_ok_iff]
  rfl

theorem run_concat {step : Step} :
    s.run (steps ++ [step]) = .ok final ↔
      ∃ mid, s.run steps = .ok mid ∧ mid.step step = .ok final := by
  rw [run_append]
  refine exists_congr fun mid => and_congr_right fun _ => ?_
  rw [run_cons]
  exact ⟨fun ⟨_, hstepped, hsame⟩ => Except.ok.inj hsame ▸ hstepped,
    fun hstepped => ⟨final, hstepped, rfl⟩⟩

private theorem run_lookup (hran : s.run steps = .ok final)
    (hknown : s.builder.interned.lookup type = some id) :
    final.builder.interned.lookup type = some id :=
  run_inv hran hknown fun hholds hmove => hmove.lookup hholds

/-- The type had the number when the underlying type of the number was set for
the last time, and to one that the type does not have. -/
def Outdated (path : String) (steps : List Step) (type : Ty) (id : TypeId) :
    Prop :=
  ∃ before underlying after mid, steps =
    before ++ .build (.setUnderlying id underlying) :: after ∧
    (∀ other, .build (.setUnderlying id other) ∉ after) ∧
    (Session.new path).run before = .ok mid ∧
    Build.intern type mid.builder = .ok (id, mid.builder) ∧
    type.withUnderlying underlying ≠ type

variable {path : String}

theorem Outdated.lookup (houtdated : Outdated path steps type id)
    (hran : (Session.new path).run steps = .ok final) :
    final.builder.interned.lookup type = some id := by
  obtain ⟨before, underlying, after, mid, rfl, -, hfirst, hknown, -⟩ :=
    houtdated
  obtain ⟨other, hagain, hlater⟩ := run_append.1 hran
  cases hfirst.symm.trans hagain
  exact run_lookup hlater (Build.intern_eq_self_iff.1 hknown)

theorem outdated_set_iff {mid : Session} {underlying : TypeId}
    (hran : (Session.new path).run steps = .ok mid)
    (hknown : mid.builder.interned.lookup type = some id) :
    Outdated path (steps ++ [.build (.setUnderlying id underlying)]) type id ↔
      type.withUnderlying underlying ≠ type := by
  constructor
  · rintro ⟨before, last, after, mid, hsplit, hfree, -, -, hdiffers⟩
    obtain ⟨-, -, hsame⟩ | ⟨init, rfl, -⟩ := place_of_concat hsplit
    · cases hsame
      exact hdiffers
    · exact absurd (by simp) (hfree underlying)
  · intro hdiffers
    exact ⟨steps, underlying, [], mid, rfl, by simp, hran,
      Build.intern_eq_self_iff.2 hknown, hdiffers⟩

theorem outdated_other_iff {step : Step}
    (hother : ∀ underlying, step ≠ .build (.setUnderlying id underlying)) :
    Outdated path (steps ++ [step]) type id ↔ Outdated path steps type id := by
  constructor
  · rintro ⟨before, underlying, after, mid, hsplit, hfree, hran, hknown,
      hdiffers⟩
    obtain ⟨-, -, hsame⟩ | ⟨init, rfl, rfl⟩ := place_of_concat hsplit
    · exact absurd hsame (hother underlying)
    · exact ⟨before, underlying, init, mid, rfl,
        fun other hmember => hfree other (by simp [hmember]), hran, hknown,
        hdiffers⟩
  · rintro ⟨before, underlying, after, mid, rfl, hfree, hran, hknown, hdiffers⟩
    refine ⟨before, underlying, after ++ [step], mid, by simp,
      fun set hmember => ?_, hran, hknown, hdiffers⟩
    rcases List.mem_append.1 hmember with hold | hlast
    · exact hfree set hold
    · exact hother set (List.mem_singleton.1 hlast).symm

/-- The entry of a type that was asked for is the type, up to its underlying
type, and the type itself unless it is outdated. -/
theorem run_typeAt (hran : (Session.new path).run steps = .ok final)
    (hknown : final.builder.interned.lookup type = some id) :
    final.builder.package.typeAt id = .ok type ↔
      ¬Outdated path steps type id := by
  -- From the end: only a last step that sets the underlying type of the number
  -- decides anew.
  induction steps using List.reverseRecOn generalizing final with
  | nil =>
      cases hran
      cases hknown
  | append_singleton steps step ih =>
      obtain ⟨mid, hfirst, hstepped⟩ := run_concat.1 hran
      have hconsed := run_consed hfirst
      by_cases hsets :
        ∃ underlying, step = .build (.setUnderlying id underlying)
      · obtain ⟨underlying, rfl⟩ := hsets
        cases hstepped
        obtain ⟨before, hfound⟩ := hconsed.entry type id hknown
        have hentry : (mid.builder.redefining id underlying).package.typeAt id =
            .ok (type.withUnderlying underlying) :=
          Builder.typeAt_redefining.2 ⟨_, hfound, by simp⟩
        rw [outdated_set_iff hfirst hknown, not_not]
        change (mid.builder.redefining id underlying).package.typeAt id =
            .ok type ↔ _
        rw [hentry, Except.ok.injEq]
      · have hother (underlying : TypeId) :
            step ≠ .build (.setUnderlying id underlying) :=
          fun hsame => hsets ⟨_, hsame⟩
        rw [outdated_other_iff hother]
        obtain ⟨hearlier, hsame⟩ | ⟨hunknown, hfound⟩ :=
          (step_moves hstepped).typeAt_cases hconsed hother hknown
        · rw [hsame]
          exact ih hfirst hearlier
        · refine iff_of_true hfound fun houtdated => ?_
          cases hunknown.symm.trans (houtdated.lookup hfirst)

end Session

/-- A type that is asked for after any session gets a number under which the
type stands, up to its underlying type. It is the very type unless it has the
number from before and the number was given another underlying type since. -/
theorem interned_type_stands_unless_outdated (path : String) (steps : List Step)
    {final : Session} (hran : (Session.new path).run steps = .ok final)
    (type : Ty) :
    ∃ id later, Build.intern type final.builder = .ok (id, later) ∧
      (∃ underlying, later.package.typeAt id =
        .ok (type.withUnderlying underlying)) ∧
      (later.package.typeAt id = .ok type ↔
        ¬Session.Outdated path steps type id) := by
  have hconsed := Session.run_consed hran
  cases hknown : final.builder.interned.lookup type with
  | some id =>
      exact ⟨id, _, Build.intern_of_known hknown, hconsed.entry type id hknown,
        Session.run_typeAt hran hknown⟩
  | none =>
      have hentry : (final.builder.interning type).package.typeAt
            ⟨final.builder.package.types.size⟩ = .ok type :=
        Builder.typeAt_push_iff.2 (.inr ⟨rfl, rfl⟩)
      obtain ⟨underlying, hsame⟩ := type.exists_eq_withUnderlying
      refine ⟨_, _, Build.intern_of_unknown hknown,
        ⟨underlying, hsame ▸ hentry⟩, iff_of_true hentry fun houtdated => ?_⟩
      cases hknown.symm.trans (houtdated.lookup hran)

/-- A named type is asked for and then given another underlying type. -/
def restyled : List Step := [
  .build (.basic .string),
  .build (.basic .bool),
  .build (.intern (.named (some "example.com/p") "Name" ⟨0⟩)),
  .build (.setUnderlying ⟨2⟩ ⟨1⟩)]

theorem restyled_type_stands_unless_outdated :
    ∃ final, (Session.new "example.com/p").run restyled = .ok final ∧
      ∃ id later, Build.intern (.named (some "example.com/p") "Name" ⟨0⟩)
            final.builder = .ok (id, later) ∧
        (∃ underlying, later.package.typeAt id =
          .ok (.named (some "example.com/p") "Name" underlying)) ∧
        (later.package.typeAt id =
            .ok (.named (some "example.com/p") "Name" ⟨0⟩) ↔
          ¬Session.Outdated "example.com/p" restyled
            (.named (some "example.com/p") "Name" ⟨0⟩) id) :=
  ⟨_, rfl, interned_type_stands_unless_outdated _ restyled rfl _⟩

/-- The type that is asked for again has the number of one that is not identical
to it. -/
theorem restyled_intern_gives_other_type :
    ∃ final, (Session.new "example.com/p").run restyled = .ok final ∧
      ∃ id later, Build.intern (.named (some "example.com/p") "Name" ⟨0⟩)
            final.builder = .ok (id, later) ∧
        later.package.typeAt id ≠
          .ok (.named (some "example.com/p") "Name" ⟨0⟩) :=
  ⟨_, rfl, _, _, rfl, by decide⟩

end SchemaLint
