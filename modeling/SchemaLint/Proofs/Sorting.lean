import Mathlib.Data.List.Perm.Basic
import SchemaLint.Sorting

/-!
# Stable sorting

Sorting is a permutation, gives a sorted list and keeps the members of each
name in their order. A sorted list is determined by its members of each name,
so the sort agrees with any other that has these three properties.
-/

namespace SchemaLint

variable {key : α → String}

/-! ## What sorting keeps -/

theorem insertBy_perm (a : α) (list : List α) :
    (insertBy key a list).Perm (a :: list) := by
  induction list with
  | nil => exact .refl _
  | cons b rest ih =>
      rw [insertBy]
      split
      · exact .refl _
      · exact (ih.cons b).trans (.swap a b rest)

private theorem insertBy_sorted (a : α) {list : List α}
    (hsorted : list.Pairwise fun a b => key a ≤ key b) :
    (insertBy key a list).Pairwise fun a b => key a ≤ key b := by
  induction list with
  | nil => simp [insertBy]
  | cons b rest ih =>
      obtain ⟨hleast, hrest⟩ := List.pairwise_cons.1 hsorted
      rw [insertBy]
      split
      · next hle =>
          refine List.pairwise_cons.2 ⟨fun c hmem => ?_, hsorted⟩
          rcases List.mem_cons.1 hmem with rfl | hmem
          · exact hle
          · exact String.le_trans hle (hleast c hmem)
      · next hlt =>
          refine List.pairwise_cons.2 ⟨fun c hmem => ?_, ih hrest⟩
          rcases List.mem_cons.1 ((insertBy_perm a rest).mem_iff.1 hmem) with
            rfl | hmem
          · exact (String.le_total (key b) (key c)).resolve_right hlt
          · exact hleast c hmem

private theorem filter_insertBy (a : α) (list : List α) (name : String) :
    (insertBy key a list).filter (key · == name) =
      (a :: list).filter (key · == name) := by
  induction list with
  | nil => rfl
  | cons b rest ih =>
      rw [insertBy]
      split
      · rfl
      · next hlt =>
          have hne : ¬(key a = name ∧ key b = name) := by
            rintro ⟨rfl, hb⟩
            exact hlt (hb ▸ String.le_refl _)
          by_cases hb : key b = name
          · have ha : key a ≠ name := fun ha => hne ⟨ha, hb⟩
            simpa [List.filter_cons, ha, hb] using ih
          · simpa [List.filter_cons, hb] using ih

theorem sortBy_perm (list : List α) : (sortBy key list).Perm list := by
  induction list with
  | nil => exact .refl _
  | cons a rest ih => exact (insertBy_perm a _).trans (ih.cons a)

theorem sortBy_sorted (key : α → String) (list : List α) :
    (sortBy key list).Pairwise fun a b => key a ≤ key b := by
  induction list with
  | nil => exact .nil
  | cons a rest ih => exact insertBy_sorted a ih

theorem filter_sortBy (list : List α) (name : String) :
    (sortBy key list).filter (key · == name) =
      list.filter (key · == name) := by
  induction list with
  | nil => rfl
  | cons a rest ih =>
      refine (filter_insertBy a _ name).trans ?_
      rw [List.filter_cons, List.filter_cons]
      exact if_congr Iff.rfl (congrArg (a :: ·) ih) ih

/-! ## Sorted lists -/

section

variable {list list' : List α}

theorem mem_iff_of_filter_eq
    (hsame : ∀ name,
      list'.filter (key · == name) = list.filter (key · == name))
    {a : α} :
    a ∈ list' ↔ a ∈ list := by
  have hselected : a ∈ list'.filter (key · == key a) ↔
      a ∈ list.filter (key · == key a) := by rw [hsame]
  simpa using hselected

/-- Sorted lists with the same members of each name begin with the same
member: neither name is less than the other. -/
private theorem head_eq_of_sorted {a b : α}
    (hsorted : (a :: list).Pairwise fun a b => key a ≤ key b)
    (hsorted' : (b :: list').Pairwise fun a b => key a ≤ key b)
    (hsame : ∀ name, (b :: list').filter (key · == name) =
      (a :: list).filter (key · == name)) : b = a := by
  have hleast {a b : α} {rest : List α}
      (hsorted : (a :: rest).Pairwise fun a b => key a ≤ key b)
      (hmem : b ∈ a :: rest) : key a ≤ key b := by
    rcases List.mem_cons.1 hmem with rfl | hlater
    · exact String.le_refl _
    · exact List.rel_of_pairwise_cons hsorted hlater
  have habove : key a ≤ key b :=
    hleast hsorted ((mem_iff_of_filter_eq hsame).1 List.mem_cons_self)
  have hbelow : key b ≤ key a :=
    hleast hsorted' ((mem_iff_of_filter_eq hsame).2 List.mem_cons_self)
  have hheads := hsame (key a)
  rw [List.filter_cons_of_pos
      (by simpa using String.le_antisymm hbelow habove),
    List.filter_cons_of_pos (by simp)] at hheads
  exact (List.cons.inj hheads).1

theorem eq_of_sorted (hsorted : list.Pairwise fun a b => key a ≤ key b)
    (hsorted' : list'.Pairwise fun a b => key a ≤ key b)
    (hsame : ∀ name,
      list'.filter (key · == name) = list.filter (key · == name)) :
    list' = list := by
  induction list generalizing list' with
  | nil =>
      refine List.eq_nil_iff_forall_not_mem.2 fun a hmem => ?_
      exact List.not_mem_nil ((mem_iff_of_filter_eq hsame).1 hmem)
  | cons a rest ih =>
      cases list' with
      | nil =>
          exact absurd ((mem_iff_of_filter_eq hsame).2 List.mem_cons_self)
            List.not_mem_nil
      | cons b rest' =>
          obtain rfl : b = a := head_eq_of_sorted hsorted hsorted' hsame
          congr 1
          refine ih (List.pairwise_cons.1 hsorted).2
            (List.pairwise_cons.1 hsorted').2 fun name => ?_
          have hwhole := hsame name
          rw [List.filter_cons, List.filter_cons] at hwhole
          split at hwhole
          · exact (List.cons.inj hwhole).2
          · exact hwhole

end

/-! ## The sort of the library -/

section

variable (key)

private theorem key_trans (a b c : α) (hfirst : decide (key a ≤ key b) = true)
    (hsecond : decide (key b ≤ key c) = true) :
    decide (key a ≤ key c) = true :=
  decide_eq_true (String.le_trans (of_decide_eq_true hfirst)
    (of_decide_eq_true hsecond))

private theorem key_total (a b : α) :
    (decide (key a ≤ key b) || decide (key b ≤ key a)) = true := by
  simpa using String.le_total (key a) (key b)

private theorem filter_mergeSort (list : List α) (name : String) :
    (list.mergeSort fun a b => decide (key a ≤ key b)).filter
        (key · == name) = list.filter (key · == name) := by
  have hequal : (list.filter (key · == name)).Pairwise
      fun a b => decide (key a ≤ key b) = true := by
    refine List.pairwise_of_forall_mem_list ?_
    intro a ha b hb
    have hnames : key a = key b := by
      rw [beq_iff_eq.1 (List.mem_filter.1 ha).2,
        beq_iff_eq.1 (List.mem_filter.1 hb).2]
    simp [hnames]
  have hkept := List.sublist_mergeSort (key_trans key) (key_total key) hequal
    List.filter_sublist
  have hselected := hkept.filter (key · == name)
  rw [List.filter_filter] at hselected
  simp only [Bool.and_self] at hselected
  have hsize := ((List.mergeSort_perm list
    fun a b => decide (key a ≤ key b)).filter (key · == name)).length_eq
  exact (hselected.eq_of_length hsize.symm).symm

theorem sortBy_eq_mergeSort (list : List α) :
    sortBy key list = list.mergeSort fun a b => decide (key a ≤ key b) := by
  refine eq_of_sorted ?_ (sortBy_sorted key list) fun name => ?_
  · exact (List.pairwise_mergeSort (key_trans key) (key_total key) list).imp
      of_decide_eq_true
  · rw [filter_sortBy, filter_mergeSort]

end

end SchemaLint
