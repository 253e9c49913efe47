import Mathlib.Data.List.Forall2
import SchemaLint.Proofs.Sorting

/-!
# Exchanging neighbours

A list is rearranged when neighbours that may be exchanged are exchanged, any
number of times. Selecting by a property that no two exchanged entries share
gives the same list, and so does sorting by a key in which exchanged entries
differ: sorting is stable, and a sorted list is determined by the entries of
each key in their order.
-/

namespace SchemaLint

/-- The second list comes from the first one by exchanging neighbours that
`Free` allows to be exchanged. -/
inductive Rearranged (Free : α → α → Prop) : List α → List α → Prop
  | refl (list : List α) : Rearranged Free list list
  | cons (a : α) {rest rest' : List α} :
    Rearranged Free rest rest' → Rearranged Free (a :: rest) (a :: rest')
  | swap {a b : α} (rest : List α) :
    Free a b → Rearranged Free (a :: b :: rest) (b :: a :: rest)
  | trans {list middle list' : List α} :
    Rearranged Free list middle → Rearranged Free middle list' →
    Rearranged Free list list'

namespace Rearranged

variable {Free : α → α → Prop} {list list' : List α}

theorem perm (hmoved : Rearranged Free list list') : list'.Perm list := by
  induction hmoved with
  | refl => exact .refl _
  | cons a _ ih => exact ih.cons a
  | swap rest => exact .swap _ _ rest
  | trans _ _ hfirst hsecond => exact hsecond.trans hfirst

theorem append {rest rest' : List α} (hmoved : Rearranged Free list list')
    (htail : Rearranged Free rest rest') :
    Rearranged Free (list ++ rest) (list' ++ rest') := by
  have hbehind : Rearranged Free (list ++ rest) (list' ++ rest) := by
    clear htail
    induction hmoved with
    | refl => exact .refl _
    | cons a _ ih => exact .cons a ih
    | swap between hfree => exact .swap _ hfree
    | trans _ _ hfirst hsecond => exact .trans hfirst hsecond
  have hbefore (start : List α) :
      Rearranged Free (start ++ rest) (start ++ rest') := by
    induction start with
    | nil => exact htail
    | cons a _ ih => exact .cons a ih
  exact .trans hbehind (hbefore list')

theorem filterMap {Free' : β → β → Prop} {f : α → Option β}
    (hmoved : Rearranged Free list list')
    (hfree : ∀ {a b x y}, Free a b → f a = some x → f b = some y → Free' x y) :
    Rearranged Free' (list.filterMap f) (list'.filterMap f) := by
  induction hmoved with
  | refl => exact .refl _
  | cons a _ ih =>
      cases hfound : f a with
      | none => simpa [List.filterMap_cons, hfound] using ih
      | some x => simpa [List.filterMap_cons, hfound] using .cons x ih
  | @swap a b rest hapart =>
      cases hfirst : f a <;>
        cases hsecond : f b <;> simp only [List.filterMap_cons, hfirst, hsecond]
      case some.some x y => exact .swap _ (hfree hapart hfirst hsecond)
      all_goals exact .refl _
  | trans _ _ hfirst hsecond => exact .trans hfirst hsecond

theorem forall₂ {Free' : β → β → Prop} {R : α → β → Prop}
    (hmoved : Rearranged Free list list') {results : List β}
    (heach : List.Forall₂ R list results)
    (hfree : ∀ {a b x y}, Free a b → R a x → R b y → Free' x y) :
    ∃ results', List.Forall₂ R list' results' ∧
      Rearranged Free' results results' := by
  induction hmoved generalizing results with
  | refl => exact ⟨results, heach, .refl _⟩
  | cons a _ ih =>
      cases heach with
      | @cons _ x _ _ hfirst hrest =>
          obtain ⟨results', heach', hmoved'⟩ := ih hrest
          exact ⟨x :: results', .cons hfirst heach', .cons x hmoved'⟩
  | swap rest hapart =>
      cases heach with
      | cons hfirst heach =>
          cases heach with
          | cons hsecond heach =>
              exact ⟨_, .cons hsecond (.cons hfirst heach),
                .swap _ (hfree hapart hfirst hsecond)⟩
  | trans _ _ ih ih' =>
      obtain ⟨middle, heach, hmoved⟩ := ih heach
      obtain ⟨results', heach', hmoved'⟩ := ih' heach
      exact ⟨results', heach', .trans hmoved hmoved'⟩

theorem filter_eq {keep : α → Bool} (hmoved : Rearranged Free list list')
    (hapart : ∀ {a b}, Free a b → keep a = true → keep b = false) :
    list'.filter keep = list.filter keep := by
  induction hmoved with
  | refl => rfl
  | cons a _ ih => rw [List.filter_cons, List.filter_cons, ih]
  | @swap a b rest hfree =>
      have hone := hapart hfree
      cases hfirst : keep a <;> cases hsecond : keep b <;> simp_all
  | trans _ _ hfirst hsecond => exact hsecond.trans hfirst

end Rearranged

/-! ## Stable sorting -/

theorem Rearranged.sortBy_eq (key : α → String) {list list' : List α}
    (hmoved : Rearranged (fun a b => key a ≠ key b) list list') :
    sortBy key list' = sortBy key list := by
  refine eq_of_sorted (sortBy_sorted key list) (sortBy_sorted key list')
    fun name => ?_
  rw [filter_sortBy, filter_sortBy]
  refine hmoved.filter_eq fun {a b} hapart hselected => ?_
  rw [← beq_iff_eq.1 hselected, beq_eq_false_iff_ne]
  exact hapart.symm

end SchemaLint
