import SchemaLint.Proofs.Alike.Analyses
import SchemaLint.Proofs.Queries.Safety
import SchemaLint.Proofs.Vendoring.Names

/-!
# Analyses of vendored copies

A package with vendored copies in it looks like the package itself, and its maps
have the same entries.
-/

namespace SchemaLint

namespace Package.Vendored

variable {p p' : Package} (hv : p.Vendored p')
include hv

theorem alike : p.Alike p' where
  path := hv.path
  values := hv.values
  positions := hv.positions
  types := hv.types.imp fun type type' hvendored => by
    cases hvendored with
    | same => exact .same _
    | copy root hplain =>
        exact .named
          (by simp [qualified, normalizePath_vendoredPath root hplain])
  functions := hv.functions.imp fun f f' hvendored => by
    have hnamed := hvendored.qualified_eq
    have hown := hvendored.package_eq_iff
    rw [hvendored.eq_with_package] at hnamed ⊢
    exact ⟨rfl, hnamed, hown, rfl, rfl⟩

theorem mapEntries (map : ValueId) : p'.mapEntries map = p.mapEntries map := by
  refine mapEntries_eq_of_bodies hv.values
    (hv.functions.imp fun f f' hvendored _ => ?_) map
  rw [hvendored.eq_with_package]
  rfl

end Package.Vendored

/-- Copies in place of packages change neither the model of a provider, nor the
issues found in it, nor any error. -/
theorem vendoring_is_invisible {p p' : Package} (hv : p.Vendored p')
    (sdk : Sdk) :
    Provider.ofPackage p' sdk =
        (fun provider => provider.on p') <$> Provider.ofPackage p sdk ∧
      ∀ provider : Provider, provider.package = p →
        ∀ rules filter, Linter.run ⟨provider.on p', sdk, rules, filter⟩ =
          Linter.run ⟨provider, sdk, rules, filter⟩ := by
  refine ⟨Provider.ofPackage_on hv.alike hv.mapEntries sdk, ?_⟩
  rintro provider rfl rules filter
  exact @Linter.run_on ⟨provider, sdk, rules, filter⟩ p' hv.alike

/-- The beacon, read by a function of the plugin library. -/
def harbor : Package where
  path := Package.beacon.path
  types := Package.beacon.types
  values := Package.beacon.values
  functions :=
    Package.beacon.functions.modify 2 fun f =>
      { f with package := some "sdk", blocks := none }

/-- The harbor with copies of the library, one of which is in a copy itself. -/
def vendoredHarbor : Package where
  path := harbor.path
  types :=
    (harbor.types.set! 0 (.named (some "a/vendor/sdk") "Provider" ⟨1⟩)).set! 5
      (.named (some "b/vendor/c/vendor/sdk") "Resource" ⟨6⟩)
  values := harbor.values
  functions :=
    harbor.functions.modify 2 fun f => { f with package := some "/vendor/sdk" }

private theorem harbor_vendored : harbor.Vendored vendoredHarbor where
  path := rfl
  values := rfl
  positions := rfl
  types := by
    refine .cons (.copy "a" (by decide)) ?_
    refine .cons (.same _) <| .cons (.same _) <| .cons (.same _) <|
      .cons (.same _) ?_
    exact .cons (.copy "b/vendor/c" (by decide))
      (List.forall₂_same.2 fun _ _ => .same _)
  functions := by
    refine .cons (.same _) <| .cons (.same _) <| .cons ?_ .nil
    exact @VendoredFunc.copy "example.com/p" _ "sdk" "" rfl (by decide)
      (by decide) (by decide)

theorem harbor_vendoring_is_invisible :
    harbor.validate = .ok () ∧
      Provider.ofPackage vendoredHarbor Package.beaconSdk =
        (fun provider => provider.on vendoredHarbor) <$>
          Provider.ofPackage harbor Package.beaconSdk ∧
      ∀ provider : Provider, provider.package = harbor →
        ∀ rules filter, Linter.run
            ⟨provider.on vendoredHarbor, Package.beaconSdk, rules, filter⟩ =
          Linter.run ⟨provider, Package.beaconSdk, rules, filter⟩ :=
  ⟨by decide, vendoring_is_invisible harbor_vendored Package.beaconSdk⟩

end SchemaLint
