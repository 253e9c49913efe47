import SchemaLint.Proofs.Extraction.Shape

/-!
# Looking attributes up

In a list that is sorted by name, halving finds an attribute of a name whenever
the list has one.
-/

namespace SchemaLint

variable {attributes : List Attribute} {name : String}

private theorem SortedByBytes.name_le (hsorted : SortedByBytes attributes)
    {i j : Nat} {a b : Attribute} (hfirst : attributes[i]? = some a)
    (hsecond : attributes[j]? = some b) (hordered : i ≤ j) :
    a.name ≤ b.name := by
  obtain ⟨hboundI, rfl⟩ := List.getElem?_eq_some_iff.1 hfirst
  obtain ⟨hboundJ, rfl⟩ := List.getElem?_eq_some_iff.1 hsecond
  rcases Nat.lt_or_eq_of_le hordered with hbelow | rfl
  · exact Text.le_of_bytes_le
      (List.pairwise_iff_getElem.1 hsorted i j hboundI hboundJ hbelow)
  · exact String.le_refl _

namespace Attribute

/-- `Narrows attributes name low high result`: a search for the name at the
places from `low` and below `high` ends with `result`. It looks at any place of
the range, and unless it takes what is there, it goes on in a smaller range,
from which nothing is left out but what stands on the side where the name is
not, or behind or before an attribute of the name. -/
inductive Narrows (attributes : List Attribute) (name : String) :
    Nat → Nat → Option Attribute → Prop
  | gone {low high} : high ≤ low → Narrows attributes name low high none
  | found {low high place attr} :
    low ≤ place → place < high → attributes[place]? = some attr →
    attr.name = name →
      Narrows attributes name low high (some attr)
  | left {low high place attr upTo result} :
    low ≤ place → place < high → attributes[place]? = some attr → upTo ≤ high →
      (name < attr.name ∧ place ≤ upTo ∨ name = attr.name ∧ place < upTo) →
      Narrows attributes name low upTo result →
      Narrows attributes name low high result
  | right {low high place attr start result} :
    low ≤ place → place < high → attributes[place]? = some attr → low ≤ start →
      (attr.name < name ∧ start ≤ place + 1 ∨
        attr.name = name ∧ start ≤ place) →
      Narrows attributes name start high result →
      Narrows attributes name low high result

/-- The result is an attribute of the name, or there is no such attribute. -/
def Answers (attributes : List Attribute) (name : String) :
    Option Attribute → Prop
  | some attr => attr ∈ attributes ∧ attr.name = name
  | none => ∀ attr ∈ attributes, attr.name ≠ name

def AbsentFrom (attributes : List Attribute) (name : String) (low high : Nat) :
    Prop :=
  ∀ place attr, attributes[place]? = some attr → low ≤ place → place < high →
    attr.name ≠ name

theorem Narrows.mem {low high : Nat} {result : Option Attribute}
    (hnarrows : Narrows attributes name low high result) {attr : Attribute}
    (htaken : result = some attr) : attr ∈ attributes ∧ attr.name = name := by
  induction hnarrows with
  | gone => cases htaken
  | found _ _ hthere hnamed =>
      cases htaken
      exact ⟨List.mem_of_getElem? hthere, hnamed⟩
  | left _ _ _ _ _ _ ih | right _ _ _ _ _ _ ih => exact ih htaken

/-- What is left out of a range of sorted attributes does not have the name, or
what is kept has it as well. -/
theorem Narrows.absent (hsorted : SortedByBytes attributes) {low high : Nat}
    {result : Option Attribute}
    (hnarrows : Narrows attributes name low high result)
    (hnothing : result = none) : AbsentFrom attributes name low high := by
  induction hnarrows with
  | gone hnone =>
      intro place attr _ habove hbelow
      omega
  | found => cases hnothing
  | @left low high place attr upTo result habove hbelow hthere hfits hside _
      ih =>
      intro other candidate hstands habove' hbelow' hnamed
      rcases Nat.lt_or_ge other upTo with hkept | hdropped
      · exact ih hnothing other candidate hstands habove' hkept hnamed
      · rcases hside with ⟨hlarger, hbefore⟩ | ⟨hsame, hbefore⟩
        · have hordered :=
            hsorted.name_le hthere hstands (Nat.le_trans hbefore hdropped)
          exact String.not_lt.2 (hnamed ▸ hordered) hlarger
        · exact ih hnothing place attr hthere habove hbefore hsame.symm
  | @right low high place attr start result habove hbelow hthere hfits hside _
      ih =>
      intro other candidate hstands habove' hbelow' hnamed
      rcases Nat.lt_or_ge other start with hdropped | hkept
      · rcases hside with ⟨hsmaller, hbehind⟩ | ⟨hsame, hbehind⟩
        · have hordered := hsorted.name_le hstands hthere (by omega)
          exact String.not_lt.2 (hnamed ▸ hordered) hsmaller
        · exact ih hnothing place attr hthere hbehind hbelow hsame
      · exact ih hnothing other candidate hstands hkept hbelow' hnamed

/-- Every search by narrowing finds the name in sorted attributes exactly when
it is there. -/
theorem Narrows.answers (hsorted : SortedByBytes attributes)
    {result : Option Attribute}
    (hnarrows : Narrows attributes name 0 attributes.length result) :
    Answers attributes name result := by
  cases result with
  | some attr => exact hnarrows.mem rfl
  | none =>
      intro attr hmember
      obtain ⟨place, hthere⟩ := List.mem_iff_getElem?.1 hmember
      exact hnarrows.absent hsorted rfl place attr hthere (Nat.zero_le _)
        (List.getElem?_eq_some_iff.1 hthere).1

theorem searchFrom_narrows {base size : Nat}
    (hfits : base + size ≤ attributes.length) (hfilled : 0 < size) :
    Narrows attributes name base (base + size) (attributes[searchFrom attributes
      name base size]?.filter (·.name == name)) := by
  fun_induction searchFrom attributes name base size with
  | case1 base size hlarge half middle hfound hsmaller ih =>
      have hrest := ih (by omega) (by omega)
      exact .left (by omega) (by omega) hfound (by omega)
        (.inl ⟨hsmaller, by omega⟩) hrest
  | case2 base size hlarge half middle hfound hlarger ih =>
      have hrest := ih (by omega) (by omega)
      rw [show base + half + (size - half) = base + size by omega] at hrest
      refine .right (by omega) (by omega) hfound (by omega) ?_ hrest
      by_cases hless : middle.name < name
      · exact .inl ⟨hless, by omega⟩
      · exact .inr ⟨String.le_antisymm (String.not_lt.1 hlarger)
            (String.not_lt.1 hless), Nat.le_refl _⟩
  | case3 base size hlarge half hmissing =>
      have houtside := List.getElem?_eq_none_iff.1 hmissing
      omega
  | case4 base size hsmall =>
      obtain rfl : size = 1 := by omega
      obtain ⟨attr, hthere⟩ : ∃ attr, attributes[base]? = some attr :=
        ⟨_, List.getElem?_eq_getElem (by omega)⟩
      rw [hthere, Option.filter_some]
      split
      · next hnamed =>
          exact .found (Nat.le_refl _) (by omega) hthere (by simpa using hnamed)
      · next hother =>
          have hdiffers : attr.name ≠ name := by simpa using hother
          by_cases hlarger : name < attr.name
          · exact .left (Nat.le_refl _) (by omega) hthere (by omega)
              (.inl ⟨hlarger, Nat.le_refl _⟩) (.gone (Nat.le_refl _))
          · have hless : attr.name < name := by
              by_contra hnotLess
              exact hdiffers (String.le_antisymm (String.not_lt.1 hlarger)
                (String.not_lt.1 hnotLess))
            exact .right (Nat.le_refl _) (by omega) hthere (by omega)
              (.inl ⟨hless, Nat.le_refl _⟩) (.gone (Nat.le_refl _))

theorem search?_narrows (attributes : List Attribute) (name : String) :
    Narrows attributes name 0 attributes.length (search? attributes name) := by
  rcases Nat.eq_zero_or_pos attributes.length with hnone | hfilled
  · rw [List.length_eq_zero_iff.1 hnone]
    exact .gone (Nat.le_refl _)
  · have hnarrows : Narrows attributes name 0 (0 + attributes.length)
        (search? attributes name) :=
      searchFrom_narrows (Nat.le_of_eq (Nat.zero_add _)) hfilled
    rwa [Nat.zero_add] at hnarrows

theorem mem_of_search? {attr : Attribute}
    (hfound : search? attributes name = some attr) :
    attr ∈ attributes ∧ attr.name = name :=
  (search?_narrows attributes name).mem hfound

theorem search?_isSome_iff (hsorted : SortedByBytes attributes) :
    (search? attributes name).isSome ↔
      ∃ attr ∈ attributes, attr.name = name := by
  have hanswers := (search?_narrows attributes name).answers hsorted
  cases hfound : search? attributes name with
  | some attr =>
      rw [hfound] at hanswers
      exact iff_of_true rfl ⟨attr, hanswers⟩
  | none =>
      rw [hfound] at hanswers
      exact iff_of_false nofun fun ⟨attr, hmember, hnamed⟩ =>
        hanswers attr hmember hnamed

end Attribute

end SchemaLint
