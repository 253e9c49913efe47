import Mathlib.Data.List.Forall2
import SchemaLint.Program.Naming

/-!
# Vendored copies of packages

A package that other packages are copied into refers to them by longer paths.
Names are made of what follows the last vendor directory of a path, so no name
changes, and neither does anything that is asked of types, values and functions
through their names and shapes.
-/

namespace SchemaLint

/-! ## Paths -/

def vendoredPath (root path : String) : String := root ++ "/vendor/" ++ path

def StartsVendored (path : String) : Prop := "vendor/".toList <+: path.toList

instance : DecidablePred StartsVendored :=
  fun _ => inferInstanceAs (Decidable (_ <+: _))

theorem afterVendor?_append {path rest : List Char}
    (hfound : afterVendor? path = some rest) (root : List Char) :
    afterVendor? (root ++ path) = some rest := by
  induction root with
  | nil => exact hfound
  | cons c root ih => rw [List.cons_append, afterVendor?, ih]

/-- A mark is the last one of a path when no mark follows it and none begins at
its last slash. -/
theorem afterVendor?_vendorMark {path : List Char}
    (hplain : ¬"vendor/".toList <+: path) :
    afterVendor? (vendorMark ++ path) =
      some ((afterVendor? path).getD path) := by
  cases hfound : afterVendor? path with
  | some rest => exact afterVendor?_append hfound vendorMark
  | none =>
      have hoverlap : vendorMark.isPrefixOf ('/' :: path) = false := by
        rw [Bool.eq_false_iff, ne_eq, List.isPrefixOf_iff_prefix]
        intro hstarts
        exact hplain (List.cons_prefix_cons.1 hstarts).2
      have hmark : vendorMark = ['/', 'v', 'e', 'n', 'd', 'o', 'r', '/'] := rfl
      rw [hmark] at hoverlap ⊢
      simp [afterVendor?, hfound, hmark, hoverlap]

theorem toList_vendoredPath (root path : String) :
    (vendoredPath root path).toList =
      root.toList ++ (vendorMark ++ path.toList) := by
  unfold vendoredPath vendorMark
  rw [String.toList_append, String.toList_append, List.append_assoc]

theorem normalizePath_vendoredPath (root : String) {path : String}
    (hplain : ¬StartsVendored path) :
    normalizePath (vendoredPath root path) = normalizePath path := by
  have hfound :=
    afterVendor?_append (afterVendor?_vendorMark hplain) root.toList
  unfold normalizePath
  rw [toList_vendoredPath, hfound]
  cases afterVendor? path.toList with
  | none => simp
  | some rest => simp

/-! ## Packages -/

inductive VendoredType : Ty → Ty → Prop
  | same (type : Ty) : VendoredType type type
  | copy {path name underlying} (root : String) :
    ¬StartsVendored path →
      VendoredType (.named (some path) name underlying)
        (.named (some (vendoredPath root path)) name underlying)

/-- A function of another package than `own` may be that of a copy, unless that
makes it one of `own`. -/
inductive VendoredFunc (own : String) : Func → Func → Prop
  | same (f : Func) : VendoredFunc own f f
  | copy {f path} (root : String) :
    f.package = some path → path ≠ own → ¬StartsVendored path →
    vendoredPath root path ≠ own →
      VendoredFunc own f { f with package := some (vendoredPath root path) }

/-- The second package is the first one with copies in place of some of the
packages it uses. -/
structure Package.Vendored (p p' : Package) : Prop where
  path : p'.path = p.path
  values : p'.values = p.values
  positions : p'.positions = p.positions
  types : List.Forall₂ VendoredType p.types.toList p'.types.toList
  functions :
    List.Forall₂ (VendoredFunc p.path) p.functions.toList p'.functions.toList

theorem VendoredFunc.qualified_eq {own : String} {f f' : Func}
    (hvendored : VendoredFunc own f f') :
    qualified f'.package f'.name = qualified f.package f.name := by
  cases hvendored with
  | same => rfl
  | copy root hknown _ hplain _ =>
      simp [qualified, hknown, normalizePath_vendoredPath root hplain]

theorem VendoredFunc.eq_with_package {own : String} {f f' : Func}
    (hvendored : VendoredFunc own f f') :
    f' = { f with package := f'.package } := by
  cases hvendored <;> rfl

theorem VendoredFunc.package_eq_iff {own : String} {f f' : Func}
    (hvendored : VendoredFunc own f f') :
    f'.package = some own ↔ f.package = some own := by
  cases hvendored with
  | same => rfl
  | copy root hknown hother _ hstill => simp [hknown, hother, hstill]

end SchemaLint
