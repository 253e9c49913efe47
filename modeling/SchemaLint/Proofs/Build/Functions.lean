import SchemaLint.Program.Naming
import SchemaLint.Proofs.Build.Operations
import SchemaLint.Proofs.Faultless

/-!
# Functions of built packages

A function of the package itself is declared with an empty body, is given its
position and comment, and is filled in. Nothing changes it after that.
-/

namespace SchemaLint

def Package.IsOwn (p : Package) (func : FuncId) (name : String)
    (doc : Option String) (results : List TypeId) (body : List Instruction) :
    Prop :=
  ∃ f, p.funcAt func = .ok f ∧ f.name = name ∧ f.package = some p.path ∧
    f.receiver = none ∧ f.doc = doc ∧
    f.blocks = some [⟨body⟩] ∧ p.results func = .ok results

namespace Package.IsOwn

variable {p : Package} {func : FuncId} {name : String} {doc : Option String}
  {results : List TypeId} {body : List Instruction}

theorem instructions (hown : p.IsOwn func name doc results body) :
    p.instructions func = .ok body := by
  obtain ⟨f, hfound, -, -, -, -, hblocks, -⟩ := hown
  simp [Package.instructions, hfound, Func.instructions, Func.body, hblocks]

theorem returnValue? {value : ValueId} {pos : Pos}
    (hown : p.IsOwn func name doc results (body ++ [.ret [value] pos]))
    (hfilled : results ≠ []) : p.returnValue? func 0 = .ok (some value) := by
  have htyped : p.results func = .ok results := by
    obtain ⟨f, -, -, -, -, -, -, htyped⟩ := hown
    exact htyped
  simp [Package.returnValue?, htyped, hfilled, hown.instructions, lastReturn?]

theorem funcName (hown : p.IsOwn func name doc results body) :
    p.funcName func = .ok (qualified p.path name) := by
  obtain ⟨f, hfound, rfl, hpackage, hreceiver, -⟩ := hown
  simp [Package.funcName, hfound, hreceiver, hpackage]

end Package.IsOwn

def Site.Prepared (s : Site) (func : FuncId) (name : String)
    (doc : Option String) (results : List TypeId) : Prop :=
  ∃ f, s.builder.package.funcAt func = .ok f ∧ f.name = name ∧
    f.package = some s.builder.package.path ∧
    f.receiver = none ∧ f.doc = doc ∧ f.blocks = some [{}] ∧
    ∃ params, (.signature params results false, f.signature) ∈
      s.builder.interned

section

variable {s s' : Site} {func : FuncId} {name : String} {doc : Option String}
  {results : List TypeId}

theorem Build.declare_prepared {params : List (String × TypeId)}
    (hran : Runs (Build.declare name params results) s func s') :
    s'.Prepared func name none results := by
  obtain ⟨-, f, hfound, hnamed, hpackage, hreceiver, hblocks, hdoc, hsigned⟩ :=
    Build.declare_found hran
  exact ⟨f, hfound, hnamed, hpackage, hreceiver, hdoc, hblocks, _, hsigned⟩

namespace Site.Prepared

theorem grow {names : String → Prop} {may : FuncId → Prop}
    (hprepared : s.Prepared func name doc results)
    (hgrows : s.Grows names may s') (hfree : ¬may func) :
    s'.Prepared func name doc results := by
  obtain ⟨f, hfound, hnamed, hpackage, hreceiver, htold, hblocks, params,
      hsigned⟩ := hprepared
  refine ⟨f, hgrows.builder.untouched _ f hfound hfree, hnamed, ?_, hreceiver,
    htold, hblocks, params, hgrows.builder.interned hsigned⟩
  rw [hgrows.builder.path, hpackage]

theorem adds (hprepared : s.Prepared func name doc results)
    (hadds : s.Adds s') : s'.Prepared func name doc results :=
  hprepared.grow (hadds.grows (fun _ => True) fun _ => False) id

theorem setFuncPos {pos : Pos} {u : Unit}
    (hprepared : s.Prepared func name doc results)
    (hran : Runs (Build.setFuncPos func pos) s u s') :
    s'.Prepared func name doc results := by
  obtain ⟨f, hfound, hfields⟩ := hprepared
  rw [Build.runs_modifyFunc hran]
  exact ⟨_, Builder.funcAt_changing.2 ⟨f, hfound, (if_pos rfl).symm⟩, hfields⟩

theorem setDoc {text : String} {u : Unit}
    (hprepared : s.Prepared func name doc results)
    (hran : Runs (Build.setDoc func text) s u s') :
    s'.Prepared func name (some text) results := by
  obtain ⟨f, hfound, hnamed, hpackage, hreceiver, -, hrest⟩ := hprepared
  rw [Build.runs_modifyFunc hran]
  exact ⟨_, Builder.funcAt_changing.2 ⟨f, hfound, (if_pos rfl).symm⟩, hnamed,
    hpackage, hreceiver, rfl, hrest⟩

/-- What was written is the body of the function, if it does not change any
more. -/
theorem own {pos : Pos} {body : List Instruction} {e : Builder}
    (hprepared : s.Prepared func name doc results)
    (hput : (s.enter func pos).Put body s') (hbefore : s'.builder.Before e)
    (hkept : ∀ f, s'.builder.package.funcAt func = .ok f →
        e.package.funcAt func = .ok f)
    (hsound : e.Sound) :
    e.package.IsOwn func name doc results body := by
  obtain ⟨f, hfound, hnamed, hpackage, hreceiver, htold, hblocks, params,
      hsigned⟩ := hprepared
  have hgrown := hput.grown.builder
  have hwritten := hkept _ (hput.body f hfound (by simp [Func.body, hblocks]))
  rw [Func.extended_empty hblocks] at hwritten
  have htyped : e.package.typeAt f.signature =
      .ok (.signature params results false) :=
    hsound.interned _ _ (hbefore.interned (hgrown.interned hsigned)) rfl
  have hpath : e.package.path = s.builder.package.path :=
    hbefore.path.trans hgrown.path
  refine ⟨_, hwritten, hnamed, ?_, hreceiver, htold, rfl, ?_⟩
  · rw [hpath, hpackage]
  · simp [Package.results, show e.package.funcAt func = .ok _ from hwritten,
      htyped]

theorem lowerBody {work : Lower α} {a : α}
    (hprepared : s.Prepared func name doc results)
    (hran : Runs (lowerBody func work) s a s') :
    ∃ pos cursor, Runs work (s.enter func pos) a { s' with cursor } ∧
      ∀ body e, (s.enter func pos).Wrote body { s' with cursor } →
        s'.builder.Settled e → e.Sound →
        e.package.IsOwn func name doc results body := by
  obtain ⟨f, cursor, hfound, hworked, -⟩ := runs_lowerBody hran
  refine ⟨f.pos, cursor, hworked, fun body e hwrote hsettled hsound => ?_⟩
  exact hprepared.own hwrote.toPut hsettled.before (fun _ => hsettled.funcAt)
    hsound

end Site.Prepared

end

end SchemaLint
