import SchemaLint.Proofs.Alike.Analyses
import SchemaLint.Proofs.Queries.Safety

/-!
# Neutral instructions

Jumps, branches, panics, the running of deferred calls and stores that go to no
field say nothing about a provider. A package in which such instructions are put
anywhere into the bodies looks like the package itself, and its maps have the
same entries.
-/

namespace SchemaLint

/-! ## Other bodies -/

/-- The function with another body, whose blocks are related to the old ones
place by place. -/
structure Func.Rebodied (R : List Instruction → List Instruction → Prop)
    (f f' : Func) : Prop where
  shape : f' = { f with blocks := f'.blocks }
  blocks :
    Option.Rel (List.Forall₂ fun block block' =>
      R block.instructions block'.instructions) f.blocks f'.blocks

/-- The second package is the first one with other bodies. -/
structure Package.Rebodied (R : List Instruction → List Instruction → Prop)
    (p p' : Package) : Prop where
  path : p'.path = p.path
  types : p'.types = p.types
  values : p'.values = p.values
  positions : p'.positions = p.positions
  functions :
    List.Forall₂ (Func.Rebodied R) p.functions.toList p'.functions.toList

section

variable {R : List Instruction → List Instruction → Prop}

theorem Func.Rebodied.instructions {f f' : Func}
    (hrebodied : Func.Rebodied R f f')
    {Q : List Instruction → List Instruction → Prop} (hempty : Q [] [])
    (hjoin : ∀ {block block' rest rest'}, R block block' → Q rest rest' →
        Q (block ++ rest) (block' ++ rest')) :
    Q f.instructions f'.instructions := by
  have hjoined {blocks blocks' : List Block}
      (hrelated :
        List.Forall₂
          (fun block block' => R block.instructions block'.instructions) blocks
          blocks') :
      Q (blocks.flatMap Block.instructions)
        (blocks'.flatMap Block.instructions) := by
    induction hrelated with
    | nil => exact hempty
    | cons hfirst _ ih =>
        rw [List.flatMap_cons, List.flatMap_cons]
        exact hjoin hfirst ih
  unfold Func.instructions Func.body
  generalize f.blocks = blocks, f'.blocks = blocks', hrebodied.blocks = hrelated
  cases hrelated with
  | none => exact hempty
  | some hrelated => exact hjoined hrelated

theorem Package.Rebodied.bodies {p p' : Package} (hrebodied : p.Rebodied R p')
    {Q : List Instruction → List Instruction → Prop} (hempty : Q [] [])
    (hjoin : ∀ {block block' rest rest'}, R block block' → Q rest rest' →
        Q (block ++ rest) (block' ++ rest')) :
    List.Forall₂ (fun f f' => Q f.instructions f'.instructions)
      p.functions.toList p'.functions.toList :=
  hrebodied.functions.imp fun _ _ hrelated => hrelated.instructions hempty hjoin

theorem Package.Rebodied.alike {p p' : Package} (hrebodied : p.Rebodied R p')
    (hgist : ∀ {block block'}, R block block' → p.gist block' = p.gist block) :
    p.Alike p' where
  path := hrebodied.path
  values := hrebodied.values
  positions := hrebodied.positions
  types := by
    rw [hrebodied.types]
    exact List.forall₂_same.2 fun type _ => .same type
  functions := hrebodied.functions.imp fun f f' hrelated => by
    have hexternal : f'.isExternal = f.isExternal := by
      unfold Func.isExternal
      generalize f.blocks = blocks, f'.blocks = blocks', hrelated.blocks = hsame
      cases hsame <;> rfl
    have hpackage : f'.package = f.package := by rw [hrelated.shape]
    have hsame : p.gist f'.instructions = p.gist f.instructions := by
      refine @Func.Rebodied.instructions R f f' hrelated
        (fun body body' => p.gist body' = p.gist body) rfl ?_
      intro block block' rest rest' hfirst htail
      rw [Package.gist, Package.gist, List.filter_append, List.filter_append]
      exact congrArg₂ (· ++ ·) (hgist hfirst) htail
    refine ⟨?_, by rw [hpackage], by rw [hpackage], hexternal, hsame⟩
    rw [hpackage]
    exact hrelated.shape

end

/-! ## Padding -/

namespace Package

inductive Neutral (p : Package) : Instruction → Prop
  | jump (target : Nat) : Neutral p (.jump target)
  | branch (cond : ValueId) (thenBlock elseBlock : Nat) :
    Neutral p (.branch cond thenBlock elseBlock)
  | panic (x : ValueId) (pos : Pos) : Neutral p (.panic x pos)
  | runDefers : Neutral p .runDefers
  | store {addr : ValueId} (val : ValueId) (pos : Pos) :
    (∀ x field, p.operationAt addr ≠ .ok (.fieldAddr x field)) →
    Neutral p (.store addr val pos)

/-- The second list is the first one with neutral instructions put into it at
any places. -/
inductive Padding (p : Package) : List Instruction → List Instruction → Prop
  | nil : Padding p [] []
  | keep (instruction : Instruction) {block block'} :
    Padding p block block' →
    Padding p (instruction :: block) (instruction :: block')
  | insert {instruction block block'} :
    p.Neutral instruction → Padding p block block' →
    Padding p block (instruction :: block')

variable {p p' : Package}

theorem Neutral.isAside {instruction : Instruction}
    (hneutral : p.Neutral instruction) : p.isAside instruction = true := by
  cases hneutral with
  | @store addr val pos hother =>
      have hplain : p.isFieldAddr addr = false := by
        unfold isFieldAddr
        split
        · next x field hknown => exact absurd hknown (hother x field)
        · rfl
      rw [Package.isAside, hplain]
      rfl
  | _ => rfl

theorem Padding.refl (block : List Instruction) : p.Padding block block := by
  induction block with
  | nil => exact .nil
  | cons instruction _ ih => exact .keep instruction ih

theorem Padding.gist {block block' : List Instruction}
    (hpadding : p.Padding block block') : p.gist block' = p.gist block := by
  induction hpadding with
  | nil => rfl
  | keep instruction _ ih =>
      simp only [Package.gist, List.filter_cons] at ih ⊢; rw [ih]
  | insert hneutral _ ih =>
      simpa [Package.gist, List.filter_cons, hneutral.isAside] using ih

theorem Padding.entriesOn {block block' : List Instruction}
    (hpadding : p.Padding block block') (map : ValueId) :
    entriesOn map block' = entriesOn map block := by
  induction hpadding with
  | nil => rfl
  | keep instruction _ ih =>
      simp only [Package.entriesOn, List.filterMap_cons] at ih ⊢; rw [ih]
  | insert hneutral _ ih => cases hneutral <;> exact ih

private theorem Rebodied.mapEntries_of_padding
    (hpadded : p.Rebodied p.Padding p') (map : ValueId) :
    p'.mapEntries map = p.mapEntries map := by
  refine mapEntries_eq_of_bodies hpadded.values ?_ map
  refine @Rebodied.bodies _ p p' hpadded
    (fun body body' =>
      ∀ map, Package.entriesOn map body' = Package.entriesOn map body)
      (fun _ => rfl) ?_
  intro block block' rest rest' hpadding htail map
  have hjoined (first second : List Instruction) :
      Package.entriesOn map (first ++ second) =
        Package.entriesOn map first ++ Package.entriesOn map second :=
    List.filterMap_append
  rw [hjoined, hjoined, hpadding.entriesOn, htail]

end Package

/-- Neutral instructions change neither the model of a provider, nor the setter
calls and the issues found on any component, nor any error. -/
theorem neutral_instructions_are_invisible {p p' : Package}
    (hpadded : p.Rebodied p.Padding p') (sdk : Sdk) :
    Provider.ofPackage p' sdk =
        (fun provider => provider.on p') <$> Provider.ofPackage p sdk ∧
      (∀ component, RuleContext.setCalls ⟨p', sdk⟩ component =
        RuleContext.setCalls ⟨p, sdk⟩ component) ∧
      (∀ (rule : Rule) readOnly component, rule.check ⟨p', sdk⟩ readOnly
          component = rule.check ⟨p, sdk⟩ readOnly component) ∧
      ∀ provider : Provider, provider.package = p →
        ∀ rules filter, Linter.run ⟨provider.on p', sdk, rules, filter⟩ =
          Linter.run ⟨provider, sdk, rules, filter⟩ := by
  have halike : p.Alike p' := hpadded.alike Package.Padding.gist
  refine ⟨Provider.ofPackage_on halike hpadded.mapEntries_of_padding sdk, ?_,
    ?_, ?_⟩
  · exact @RuleContext.setCalls_on ⟨p, sdk⟩ p' halike
  · exact @Rule.check_on ⟨p, sdk⟩ p' halike
  · rintro provider rfl rules filter
    exact @Linter.run_on ⟨provider, sdk, rules, filter⟩ p' halike

/-- The beacon with a second way through its entry point and a store into the
map it makes. -/
def paddedBeacon : Package where
  path := Package.beacon.path
  types := Package.beacon.types
  values := Package.beacon.values
  functions := (Package.beacon.functions.modify 0 fun f => { f with
    blocks := some [⟨[
      .jump 0, .define ⟨3⟩, .define ⟨4⟩, .runDefers, .define ⟨6⟩,
      .mapUpdate ⟨4⟩ ⟨5⟩ ⟨6⟩ .unknown, .define ⟨7⟩, .panic ⟨5⟩ .unknown,
      .store ⟨3⟩ ⟨3⟩ .unknown, .store ⟨7⟩ ⟨4⟩ .unknown, .ret [⟨3⟩] .unknown,
      .branch ⟨5⟩ 0 0]⟩] }).modify 2 fun f => { f with
    blocks := some [⟨[.store ⟨0⟩ ⟨0⟩ .unknown, .ret [] .unknown]⟩] }

private theorem beacon_padded :
    Package.beacon.Rebodied Package.beacon.Padding paddedBeacon where
  path := rfl
  types := rfl
  values := rfl
  positions := rfl
  functions := by
    have hunchanged {blocks : List Block} : List.Forall₂
        (fun block block' : Block =>
            Package.beacon.Padding block.instructions block'.instructions)
            blocks blocks :=
      List.forall₂_same.2 fun block _ => .refl block.instructions
    refine .cons ⟨rfl, .some (.cons ?_ .nil)⟩
      (.cons ⟨rfl, .some hunchanged⟩ (.cons ⟨rfl, .some (.cons ?_ .nil)⟩ .nil))
    · refine .insert (.jump 0) <| .keep _ <| .keep _ <| .insert .runDefers <|
        .keep _ <| .keep _ <| .keep _ ?_
      refine .insert (.panic ⟨5⟩ .unknown) <|
        .insert (.store ⟨3⟩ .unknown nofun) <| .keep _ <| .keep _ ?_
      exact .insert (.branch ⟨5⟩ 0 0) .nil
    · exact .insert (.store ⟨0⟩ .unknown nofun) (.refl _)

theorem beacon_neutral_instructions_are_invisible :
    Package.beacon.validate = .ok () ∧ paddedBeacon.validate = .ok () ∧
      Provider.ofPackage paddedBeacon Package.beaconSdk =
        (fun provider => provider.on paddedBeacon) <$>
          Provider.ofPackage Package.beacon Package.beaconSdk ∧
      (∀ component, RuleContext.setCalls ⟨paddedBeacon, Package.beaconSdk⟩
          component =
        RuleContext.setCalls ⟨Package.beacon, Package.beaconSdk⟩ component) ∧
      (∀ (rule : Rule) readOnly component, rule.check
          ⟨paddedBeacon, Package.beaconSdk⟩ readOnly component =
        rule.check ⟨Package.beacon, Package.beaconSdk⟩ readOnly component) ∧
      ∀ provider : Provider, provider.package = Package.beacon →
        ∀ rules filter, Linter.run
            ⟨provider.on paddedBeacon, Package.beaconSdk, rules, filter⟩ =
          Linter.run ⟨provider, Package.beaconSdk, rules, filter⟩ :=
  ⟨by decide, by decide,
    neutral_instructions_are_invisible beacon_padded Package.beaconSdk⟩

end SchemaLint
