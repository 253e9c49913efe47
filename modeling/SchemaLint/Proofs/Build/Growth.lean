import SchemaLint.Program.Walk
import SchemaLint.Proofs.Build.Runs
import SchemaLint.Proofs.Lists
import SchemaLint.Proofs.Queries.Calls

/-!
# Growth of builders

Building only adds: values, types and functions keep their numbers, and what was
asked for once is found again. Two things may change. The functions that are
worked on get longer bodies, and the named type that fixtures make up,
`MyString`, is given its underlying type each time it is asked for.
-/

namespace SchemaLint

namespace Package

theorem typeAt_push {p : Package} {id : TypeId} {type : Ty}
    (hfound : p.typeAt id = .ok type) (new : Ty) :
    { p with types := p.types.push new }.typeAt id = .ok type := by
  rw [typeAt_eq_ok_iff] at hfound ⊢
  have := (Array.getElem?_eq_some_iff.1 hfound).1
  rw [Array.getElem?_push, if_neg (by omega), hfound]

theorem valueAt_push {p : Package} {id : ValueId} {value : Value}
    (hfound : p.valueAt id = .ok value) (new : Value) :
    { p with values := p.values.push new }.valueAt id = .ok value := by
  rw [valueAt_eq_ok_iff] at hfound ⊢
  have := (Array.getElem?_eq_some_iff.1 hfound).1
  rw [Array.getElem?_push, if_neg (by omega), hfound]

theorem operationAt_eq_ok_iff {p : Package} {id : ValueId}
    {operation : Operation} :
    p.operationAt id = .ok operation ↔
      ∃ value, p.valueAt id = .ok value ∧ value.operation = operation := by
  unfold operationAt
  cases p.valueAt id <;> simp [bind, Except.bind, pure, Except.pure]

end Package

def Func.SameHeader (f f' : Func) : Prop :=
  f' = { f with blocks := f'.blocks, pos := f'.pos, doc := f'.doc }

def textType : TypeId := ⟨0⟩

structure Builder.Sound (b : Builder) : Prop where
  interned : ∀ type id, (type, id) ∈ b.interned → type.isNamed = false →
      b.package.typeAt id = .ok type
  declared : ∀ package name id, ((package, name), id) ∈ b.declared →
    ∃ underlying, b.package.typeAt id = .ok (.named package name underlying)
  madeUp : ∀ package id, ((package, "MyString"), id) ∈ b.declared →
    b.package.typeAt id = .ok (.named package "MyString" textType)
  funcRefs : ∀ func id, (func, id) ∈ b.funcRefs →
      b.package.operationAt id = .ok (.function func)

/-- The second builder comes from the first by adding to it. New functions have
some of the names, and no functions but some of the numbers change. -/
structure Builder.Grows (names : String → Prop) (may : FuncId → Prop)
    (b e : Builder) : Prop where
  path : e.package.path = b.package.path
  typeCount : b.package.types.size ≤ e.package.types.size
  valueCount : b.package.values.size ≤ e.package.values.size
  funcCount : b.package.functions.size ≤ e.package.functions.size
  posCount : b.package.positions.entries.size ≤ e.package.positions.entries.size
  types : ∀ id type, b.package.typeAt id = .ok type →
      (∀ package, ((package, "MyString"), id) ∉ e.declared) →
    e.package.typeAt id = .ok type
  values : ∀ id value, b.package.valueAt id = .ok value →
      e.package.valueAt id = .ok value
  interned : b.interned ⊆ e.interned
  declared : b.declared ⊆ e.declared
  funcRefs : b.funcRefs ⊆ e.funcRefs
  fresh : ∀ key id, (key, id) ∈ e.declared →
      (key, id) ∈ b.declared ∨ b.package.types.size ≤ id.index
  headers : ∀ id f, b.package.funcAt id = .ok f →
      ∃ f', e.package.funcAt id = .ok f' ∧ f.SameHeader f'
  untouched :
    ∀ id f, b.package.funcAt id = .ok f → ¬may id → e.package.funcAt id = .ok f
  added : ∀ id f', e.package.funcAt id = .ok f' →
      (∃ f, b.package.funcAt id = .ok f) ∨ names f'.name
  sound : b.Sound → e.Sound

namespace Builder.Grows

variable {names : String → Prop} {may may' : FuncId → Prop} {b c e : Builder}

theorem refl (b : Builder) : b.Grows names may b where
  path := rfl
  typeCount := Nat.le_refl _
  valueCount := Nat.le_refl _
  funcCount := Nat.le_refl _
  posCount := Nat.le_refl _
  types _ _ hfound _ := hfound
  values _ _ hfound := hfound
  interned := List.Subset.refl _
  declared := List.Subset.refl _
  funcRefs := List.Subset.refl _
  fresh _ _ hfound := .inl hfound
  headers _ f hfound := ⟨f, hfound, rfl⟩
  untouched _ _ hfound _ := hfound
  added _ f hfound := .inl ⟨f, hfound⟩
  sound := id

theorem trans (hfirst : b.Grows names may c) (hsecond : c.Grows names may' e)
    (hold : ∀ id f, b.package.funcAt id = .ok f → may' id → may id) :
    b.Grows names may e where
  path := hsecond.path.trans hfirst.path
  typeCount := Nat.le_trans hfirst.typeCount hsecond.typeCount
  valueCount := Nat.le_trans hfirst.valueCount hsecond.valueCount
  funcCount := Nat.le_trans hfirst.funcCount hsecond.funcCount
  posCount := Nat.le_trans hfirst.posCount hsecond.posCount
  types id type hfound hsettled := by
    refine hsecond.types id type (hfirst.types id type hfound ?_) hsettled
    intro package hnamed
    exact hsettled package (hsecond.declared hnamed)
  values id value hfound :=
    hsecond.values id value (hfirst.values id value hfound)
  interned := List.Subset.trans hfirst.interned hsecond.interned
  declared := List.Subset.trans hfirst.declared hsecond.declared
  funcRefs := List.Subset.trans hfirst.funcRefs hsecond.funcRefs
  fresh key id hfound := by
    rcases hsecond.fresh key id hfound with hfound | hnew
    · exact hfirst.fresh key id hfound
    · exact .inr (Nat.le_trans hfirst.typeCount hnew)
  headers id f hfound := by
    obtain ⟨f', hfound', hsame⟩ := hfirst.headers id f hfound
    obtain ⟨f'', hfound'', hsame'⟩ := hsecond.headers id f' hfound'
    refine ⟨f'', hfound'', ?_⟩
    rw [Func.SameHeader, hsame', hsame]
  untouched id f hfound hfree := by
    refine hsecond.untouched id f (hfirst.untouched id f hfound hfree) ?_
    intro htouched
    exact hfree (hold id f hfound htouched)
  added id f'' hfound := by
    rcases hsecond.added id f'' hfound with ⟨f', hfound'⟩ | hnamed
    · rcases hfirst.added id f' hfound' with hknown | hnamed
      · exact .inl hknown
      · obtain ⟨g, hfound'', hsame⟩ := hsecond.headers id f' hfound'
        rw [hfound] at hfound''
        cases hfound''
        rw [hsame]
        exact .inr hnamed
    · exact .inr hnamed
  sound := hsecond.sound ∘ hfirst.sound

theorem anyName (hgrows : b.Grows names may e) :
    b.Grows (fun _ => True) may e :=
  { hgrows with added := fun _ _ _ => .inr trivial }

theorem weaken (hgrows : b.Grows names may e)
    (hmore : ∀ func, may func → may' func) : b.Grows names may' e :=
  { hgrows with
    untouched := fun id f hfound hfree =>
        hgrows.untouched id f hfound fun htouched => hfree (hmore id htouched) }

theorem allNames (hgrows : b.Grows names may e)
    (hall : ∀ id f, b.package.funcAt id = .ok f → names f.name) :
    ∀ id f, e.package.funcAt id = .ok f → names f.name := by
  intro id f hfound
  rcases hgrows.added id f hfound with ⟨f₀, hold⟩ | hnew
  · obtain ⟨f', hfound', hsame⟩ := hgrows.headers id f₀ hold
    cases hfound.symm.trans hfound'
    rw [Func.SameHeader] at hsame
    rw [hsame]
    exact hall id f₀ hold
  · exact hnew

end Builder.Grows

def Builder.Before (b e : Builder) : Prop :=
  b.Grows (fun _ => True) (fun _ => True) e

namespace Builder

variable {names : String → Prop} {may : FuncId → Prop} {b c e : Builder}

theorem Grows.before (hgrows : b.Grows names may e) : b.Before e :=
  { hgrows with
    untouched := fun _ _ _ hfree => (hfree trivial).elim
    added := fun _ _ _ => .inr trivial }

theorem Before.trans (hfirst : b.Before c) (hsecond : c.Before e) :
    b.Before e :=
  Grows.trans hfirst hsecond fun _ _ _ => id

def Settled (b e : Builder) : Prop :=
  b.Grows (fun _ => True) (b.package.functions.size ≤ ·.index) e

theorem Settled.before (hsettled : b.Settled e) : b.Before e :=
  Grows.before hsettled

theorem Settled.funcAt (hsettled : b.Settled e) {func : FuncId} {f : Func}
    (hfound : b.package.funcAt func = .ok f) : e.package.funcAt func = .ok f :=
  hsettled.untouched func f hfound (Nat.not_le.2 (Package.funcAt_bound hfound))

theorem Grows.settled
    (hgrows : b.Grows names (b.package.functions.size ≤ ·.index) c)
    (hsettled : c.Settled e) : b.Settled e := by
  refine hgrows.anyName.trans hsettled fun id f hfound htouched => ?_
  exact Nat.le_trans hgrows.funcCount htouched

/-- A type that was looked up is the type that is there in the end, unless that
is the made-up one. -/
theorem Before.typeAt_eq (hbefore : b.Before e) (hsound : e.Sound) {id : TypeId}
    {type last : Ty} (hfound : b.package.typeAt id = .ok type)
    (hlater : e.package.typeAt id = .ok last)
    (hsettled :
      ∀ package underlying, last ≠ .named package "MyString" underlying) :
    type = last := by
  have hkept : e.package.typeAt id = .ok type := by
    refine hbefore.types id type hfound ?_
    intro package hdeclared
    obtain ⟨underlying, hnamed⟩ :=
      hsound.declared package "MyString" id hdeclared
    exact hsettled package underlying (Except.ok.inj (hlater.symm.trans hnamed))
  exact Except.ok.inj (hkept.symm.trans hlater)

end Builder

/-! ## Changes of tables -/

namespace Builder

variable {names : String → Prop} {may : FuncId → Prop}

def interning (b : Builder) (type : Ty) : Builder :=
  { b with
    package := { b.package with types := b.package.types.push type }
    interned := (type, ⟨b.package.types.size⟩) :: b.interned }

theorem grows_interning (b : Builder) (type : Ty) :
    b.Grows names may (b.interning type) :=
  { Grows.refl b with
    typeCount := by simp [interning]
    types := fun _ _ hfound _ => Package.typeAt_push hfound type
    interned := List.subset_cons_self ..
    sound := fun hsound =>
      { hsound with
        interned := by
          intro other id hmember hplain
          rcases List.mem_cons.1 hmember with hsame | hold
          · cases hsame
            simp [interning, Package.typeAt_eq_ok_iff]
          · exact Package.typeAt_push (hsound.interned other id hold hplain)
              type
        declared := by
          intro package name id hmember
          obtain ⟨underlying, hfound⟩ := hsound.declared package name id hmember
          exact ⟨underlying, Package.typeAt_push hfound type⟩
        madeUp :=
          fun package id hmember =>
            Package.typeAt_push (hsound.madeUp package id hmember) type } }

def declaring (b : Builder) (package : Option String) (name : String)
    (underlying : TypeId) : Builder :=
  { b with
    package :=
      { b.package with
        types := b.package.types.push (.named package name underlying) }
    declared := ((package, name), ⟨b.package.types.size⟩) :: b.declared }

theorem grows_declaring (b : Builder) (package : Option String) {name : String}
    {underlying : TypeId} (htexts : name = "MyString" → underlying = textType) :
    b.Grows names may (b.declaring package name underlying) :=
  { Grows.refl b with
    typeCount := by simp [declaring]
    types := fun _ _ hfound _ => Package.typeAt_push hfound _
    declared := List.subset_cons_self ..
    fresh := by
      intro key' id hmember
      rcases List.mem_cons.1 hmember with hsame | hold
      · cases hsame
        exact .inr (Nat.le_refl _)
      · exact .inl hold
    sound := fun hsound =>
      { hsound with
        interned :=
          fun other id hold hplain =>
            Package.typeAt_push (hsound.interned other id hold hplain) _
        declared := by
          intro package' name' id hmember
          rcases List.mem_cons.1 hmember with hsame | hold
          · cases hsame
            exact ⟨underlying, by simp [declaring, Package.typeAt_eq_ok_iff]⟩
          · obtain ⟨underlying', hfound⟩ :=
              hsound.declared package' name' id hold
            exact ⟨underlying', Package.typeAt_push hfound _⟩
        madeUp := by
          intro package' id hmember
          rcases List.mem_cons.1 hmember with hsame | hold
          · cases hsame
            simp [declaring, Package.typeAt_eq_ok_iff, htexts rfl]
          · exact Package.typeAt_push (hsound.madeUp package' id hold) _ } }

theorem withUnderlying_of_not_named {type : Ty} (hplain : type.isNamed = false)
    (underlying : TypeId) : type.withUnderlying underlying = type := by
  cases type <;> first | rfl | cases hplain

theorem grows_setUnderlying (b : Builder) {package : Option String}
    {named : TypeId} (hknown : ((package, "MyString"), named) ∈ b.declared) :
    b.Grows names may { b with
      package := { b.package with
          types := b.package.types.modify named.index
              (Ty.withUnderlying textType) } } :=
  { Grows.refl b with
    typeCount := by simp
    types := by
      intro id type hfound hsettled
      have hother : named.index ≠ id.index := by
        intro hsame
        have : named = id := by
          cases named
          cases id
          exact congrArg TypeId.mk hsame
        exact hsettled package (this ▸ hknown)
      rw [Package.typeAt_eq_ok_iff] at hfound ⊢
      rw [Array.getElem?_modify, if_neg hother, hfound]
    sound := fun hsound =>
      { hsound with
        interned := by
          intro type id hmember hplain
          have hfound := hsound.interned type id hmember hplain
          rw [Package.typeAt_eq_ok_iff] at hfound ⊢
          rw [Array.getElem?_modify, hfound]
          split
          · rw [Option.map_some, withUnderlying_of_not_named hplain]
          · rfl
        declared := by
          intro package name id hmember
          obtain ⟨underlying', hfound⟩ :=
            hsound.declared package name id hmember
          rw [Package.typeAt_eq_ok_iff] at hfound
          simp only [Package.typeAt_eq_ok_iff, Array.getElem?_modify, hfound]
          split
          · exact ⟨textType, rfl⟩
          · exact ⟨underlying', rfl⟩
        madeUp := by
          intro package id hmember
          have hfound := hsound.madeUp package id hmember
          rw [Package.typeAt_eq_ok_iff] at hfound ⊢
          rw [Array.getElem?_modify, hfound]
          split <;> rfl } }

def pushing (b : Builder) (value : Value) : Builder :=
  { b with package := { b.package with values := b.package.values.push value } }

theorem operationAt_pushing {b : Builder} {id : ValueId} {operation : Operation}
    (hfound : b.package.operationAt id = .ok operation) (value : Value) :
    (b.pushing value).package.operationAt id = .ok operation := by
  obtain ⟨old, hknown, rfl⟩ := Package.operationAt_eq_ok_iff.1 hfound
  exact Package.operationAt_eq_ok_iff.2
    ⟨old, Package.valueAt_push hknown value, rfl⟩

theorem grows_pushing (b : Builder) (value : Value) :
    b.Grows names may (b.pushing value) :=
  { Grows.refl b with
    valueCount := by simp [pushing]
    values := fun _ _ hfound => Package.valueAt_push hfound value
    sound := fun hsound =>
      { hsound with
        funcRefs := fun func id hmember =>
            operationAt_pushing (hsound.funcRefs func id hmember) value } }

def referring (b : Builder) (func : FuncId) (signature : TypeId) : Builder :=
  { b.pushing ⟨.function func, signature, .unknown, none, none⟩ with
    funcRefs := (func, ⟨b.package.values.size⟩) :: b.funcRefs }

theorem grows_referring (b : Builder) (func : FuncId) (signature : TypeId) :
    b.Grows names may (b.referring func signature) :=
  { grows_pushing b _ with
    funcRefs := List.subset_cons_self ..
    sound := fun hsound =>
      { hsound with
        funcRefs := by
          intro other id hmember
          rcases List.mem_cons.1 hmember with hsame | hold
          · cases hsame
            simp [referring, pushing, Package.operationAt_eq_ok_iff,
              Package.valueAt_eq_ok_iff]
          · exact operationAt_pushing (hsound.funcRefs other id hold) _ } }

def adding (b : Builder) (f : Func) : Builder :=
  { b with
    package := { b.package with functions := b.package.functions.push f } }

theorem funcAt_adding {b : Builder} {id : FuncId} {f g : Func} :
    (b.adding f).package.funcAt id = .ok g ↔
      b.package.funcAt id = .ok g ∨
        id.index = b.package.functions.size ∧ g = f := by
  rw [Package.funcAt_eq_ok_iff, Package.funcAt_eq_ok_iff, adding,
    Array.getElem?_push]
  split
  · next hsame =>
      rw [hsame]
      simp [eq_comm]
  · next hother => simp [hother]

theorem grows_adding (b : Builder) {f : Func} (hnamed : names f.name) :
    b.Grows names may (b.adding f) :=
  { @Grows.refl names may b with
    funcCount := by simp [adding]
    headers := fun _ g hfound => ⟨g, funcAt_adding.2 (.inl hfound), rfl⟩
    untouched := fun _ _ hfound _ => funcAt_adding.2 (.inl hfound)
    added := by
      intro id g hfound
      rcases funcAt_adding.1 hfound with hold | ⟨-, rfl⟩
      · exact .inl ⟨g, hold⟩
      · exact .inr hnamed
    sound := fun hsound => { hsound with } }

def changing (b : Builder) (func : FuncId) (change : Func → Func) : Builder :=
  { b with
    package := { b.package with
        functions := b.package.functions.modify func.index change } }

theorem funcAt_changing {b : Builder} {func id : FuncId} {change : Func → Func}
    {g : Func} :
    (b.changing func change).package.funcAt id = .ok g ↔
      ∃ f, b.package.funcAt id = .ok f ∧
        g = if id = func then change f else f := by
  rw [Package.funcAt_eq_ok_iff, changing, Array.getElem?_modify]
  by_cases hsame : id = func
  · subst hsame
    simp only [if_pos, Option.map_eq_some_iff, Package.funcAt_eq_ok_iff]
    exact exists_congr fun f => and_congr_right fun _ => eq_comm
  · have hother : func.index ≠ id.index := by
      intro hequal
      cases func
      cases id
      exact hsame (congrArg FuncId.mk hequal.symm)
    simp [hother, hsame, Package.funcAt_eq_ok_iff]

theorem grows_changing (b : Builder) (func : FuncId) {change : Func → Func}
    (hsame : ∀ f : Func, f.SameHeader (change f)) :
    b.Grows names (· = func) (b.changing func change) :=
  { @Grows.refl names (· = func) b with
    funcCount := by simp [changing]
    headers := by
      intro id f hfound
      refine ⟨_, funcAt_changing.2 ⟨f, hfound, rfl⟩, ?_⟩
      split
      · exact hsame f
      · exact rfl
    untouched :=
      fun id f hfound hother =>
        funcAt_changing.2 ⟨f, hfound, by rw [if_neg hother]⟩
    added := by
      intro id g hfound
      obtain ⟨f, hold, -⟩ := funcAt_changing.1 hfound
      exact .inl ⟨f, hold⟩
    sound := fun hsound => { hsound with } }

end Builder

end SchemaLint
