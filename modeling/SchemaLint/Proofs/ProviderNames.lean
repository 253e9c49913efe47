import Mathlib.Computability.RegularExpressions
import SchemaLint.Provider.Name

/-!
# Names of providers in paths

A path names the provider of the last of its segments that follow the naming
convention. The convention is said in words, by what a name is made of and what
stands at its ends, and by a pattern with one alternative for names of one
character and one for longer names. The two admit the same segments.
-/

namespace SchemaLint

/-! ## The convention in words -/

def IsLetterOrDigit (c : Char) : Prop := 'a' ≤ c ∧ c ≤ 'z' ∨ '0' ≤ c ∧ c ≤ '9'

instance : DecidablePred IsLetterOrDigit :=
  fun _ => inferInstanceAs (Decidable (_ ∨ _))

structure IsShortName (name : List Char) : Prop where
  chars : ∀ c ∈ name, IsLetterOrDigit c ∨ c = '-' ∨ c = '_' ∨ c = '.'
  starts : ∃ first rest, name = first :: rest ∧ IsLetterOrDigit first
  ends : ∃ front last, name = front ++ [last] ∧ IsLetterOrDigit last

def FollowsConvention (segment : List Char) : Prop :=
  ∃ name, segment = "terraform-provider-".toList ++ name ∧ IsShortName name

theorem isNameEnd_iff {c : Char} : isNameEnd c = true ↔ IsLetterOrDigit c := by
  have hlower : c.isLower = (decide (c ≥ 'a') && decide (c ≤ 'z')) := rfl
  have hdigit : c.isDigit = (decide (c ≥ '0') && decide (c ≤ '9')) := rfl
  simp [isNameEnd, IsLetterOrDigit, hlower, hdigit, Char.le_def]

theorem isNameChar_iff {c : Char} :
    isNameChar c = true ↔ IsLetterOrDigit c ∨ c = '-' ∨ c = '_' ∨ c = '.' := by
  simp [isNameChar, isNameEnd_iff, or_assoc]

theorem isProviderName_iff {name : List Char} :
    isProviderName name = true ↔ IsShortName name := by
  have hstarts : name.head?.any isNameEnd = true ↔
      ∃ first rest, name = first :: rest ∧ IsLetterOrDigit first := by
    simp only [Option.any_eq_true, List.head?_eq_some_iff, isNameEnd_iff]
    grind
  have hends : name.getLast?.any isNameEnd = true ↔
      ∃ front last, name = front ++ [last] ∧ IsLetterOrDigit last := by
    simp only [Option.any_eq_true, List.getLast?_eq_some_iff, isNameEnd_iff]
    grind
  simp only [isProviderName, Bool.and_eq_true, List.all_eq_true, isNameChar_iff,
    hstarts, hends]
  constructor
  · rintro ⟨⟨hchars, hstarts⟩, hends⟩
    exact ⟨hchars, hstarts, hends⟩
  · rintro ⟨hchars, hstarts, hends⟩
    exact ⟨⟨hchars, hstarts⟩, hends⟩

theorem segmentProviderName?_eq_some_iff {segment name : List Char} :
    segmentProviderName? segment = some name ↔
      segment = "terraform-provider-".toList ++ name ∧ IsShortName name := by
  unfold segmentProviderName?
  rw [← isProviderName_iff]
  constructor
  · intro hfound
    split at hfound
    · next hholds =>
        obtain ⟨hstarts, hnamed⟩ := Bool.and_eq_true_iff.1 hholds
        cases hfound
        refine ⟨(List.prefix_iff_eq_append.1
            (List.isPrefixOf_iff_prefix.1 hstarts)).symm, hnamed⟩
    · cases hfound
  · rintro ⟨rfl, hnamed⟩
    have hrest : ("terraform-provider-".toList ++ name).drop
          providerMark.length = name := List.drop_left
    rw [hrest, if_pos]
    exact Bool.and_eq_true_iff.2
      ⟨List.isPrefixOf_iff_prefix.2 (List.prefix_append _ _), hnamed⟩

theorem segmentProviderName?_eq_none_iff {segment : List Char} :
    segmentProviderName? segment = none ↔ ¬FollowsConvention segment := by
  rw [Option.eq_none_iff_forall_ne_some, FollowsConvention, not_exists]
  exact forall_congr' fun name => not_congr segmentProviderName?_eq_some_iff

/-! ## The convention as a pattern -/

open RegularExpression

def oneOf (chars : List Char) : RegularExpression Char := (chars.map char).sum

def literally (text : List Char) : RegularExpression Char :=
  (text.map char).prod

def lettersAndDigits : List Char :=
  "abcdefghijklmnopqrstuvwxyz0123456789".toList

def shortNamePattern : RegularExpression Char :=
  oneOf lettersAndDigits +
    oneOf lettersAndDigits * (oneOf ("-_.".toList ++ lettersAndDigits)).star *
    oneOf lettersAndDigits

def segmentPattern : RegularExpression Char :=
  literally "terraform-provider-".toList * shortNamePattern

theorem mem_oneOf_iff {chars word : List Char} :
    word ∈ (oneOf chars).matches' ↔ ∃ c ∈ chars, word = [c] := by
  induction chars with
  | nil => simp [oneOf]
  | cons c chars ih =>
      rw [oneOf, List.map_cons, List.sum_cons, matches'_add, Language.mem_add,
        matches'_char, ← oneOf, ih]
      simp only [List.mem_cons, exists_eq_or_imp]
      rfl

theorem mem_literally_iff {text word : List Char} :
    word ∈ (literally text).matches' ↔ word = text := by
  induction text generalizing word with
  | nil => simp [literally]
  | cons c text ih =>
      rw [literally, List.map_cons, List.prod_cons, matches'_mul,
        Language.mem_mul, matches'_char, ← literally]
      constructor
      · rintro ⟨_, rfl, rest, hmatched, rfl⟩
        rw [ih.1 hmatched, List.singleton_append]
      · rintro rfl
        exact ⟨[c], rfl, text, ih.2 rfl, rfl⟩

theorem mem_star_oneOf_iff {chars word : List Char} :
    word ∈ (oneOf chars).star.matches' ↔ ∀ c ∈ word, c ∈ chars := by
  rw [matches'_star, Language.mem_kstar]
  constructor
  · rintro ⟨parts, rfl, hsingle⟩ c hmember
    obtain ⟨part, hinParts, hinside⟩ := List.mem_flatten.1 hmember
    obtain ⟨d, hlisted, rfl⟩ := mem_oneOf_iff.1 (hsingle part hinParts)
    rwa [List.mem_singleton.1 hinside]
  · intro hlisted
    refine ⟨word.map fun c => [c], (List.flatMap_singleton' word).symm,
      fun part hmember => ?_⟩
    obtain ⟨c, hinWord, rfl⟩ := List.mem_map.1 hmember
    exact mem_oneOf_iff.2 ⟨c, hlisted c hinWord, rfl⟩

theorem mem_lettersAndDigits_iff {c : Char} :
    c ∈ lettersAndDigits ↔ IsLetterOrDigit c := by
  constructor
  · intro hlisted
    have hall : lettersAndDigits.all (fun c => decide (IsLetterOrDigit c)) =
        true := by decide
    exact of_decide_eq_true (List.all_eq_true.1 hall c hlisted)
  · intro hholds
    have hall : ∀ code ≤ 122, (97 ≤ code ∨ 48 ≤ code ∧ code ≤ 57) →
        Char.ofNat code ∈ lettersAndDigits := by decide
    rw [← Char.ofNat_toNat c]
    rcases hholds with ⟨hlow, hhigh⟩ | ⟨hlow, hhigh⟩
    · exact hall c.toNat hhigh (.inl hlow)
    · exact hall c.toNat (Nat.le_trans hhigh (by decide)) (.inr ⟨hlow, hhigh⟩)

theorem mem_shortNamePattern_iff {name : List Char} :
    name ∈ shortNamePattern.matches' ↔ IsShortName name := by
  have hinner {c : Char} : c ∈ "-_.".toList ++ lettersAndDigits ↔
      IsLetterOrDigit c ∨ c = '-' ∨ c = '_' ∨ c = '.' := by
    simp [mem_lettersAndDigits_iff]
    tauto
  simp only [shortNamePattern, matches'_add, matches'_mul, Language.mem_add,
    Language.mem_mul, mem_oneOf_iff, mem_star_oneOf_iff, hinner,
    mem_lettersAndDigits_iff]
  constructor
  · rintro (⟨c, hholds, rfl⟩ | ⟨_,
      ⟨_, ⟨first, hstarts, rfl⟩, middle, hchars, rfl⟩, _, ⟨last, hends, rfl⟩,
      rfl⟩)
    · exact ⟨by simp [hholds], ⟨c, [], rfl, hholds⟩, ⟨[], c, rfl, hholds⟩⟩
    · refine ⟨fun c hmember => ?_, ⟨first, middle ++ [last], rfl, hstarts⟩,
        ⟨first :: middle, last, rfl, hends⟩⟩
      rcases List.mem_append.1 hmember with hmember | hmember
      · rcases List.mem_cons.1 hmember with rfl | hmember
        · exact .inl hstarts
        · exact hchars c hmember
      · exact .inl (List.mem_singleton.1 hmember ▸ hends)
  · rintro ⟨hchars, ⟨first, rest, rfl, hstarts⟩, front, last, hsplit, hends⟩
    rcases front with _ | ⟨_, middle⟩
    · obtain ⟨rfl, rfl⟩ := List.cons.inj hsplit
      exact .inl ⟨first, hstarts, rfl⟩
    · obtain ⟨rfl, rfl⟩ := List.cons.inj hsplit
      refine .inr ⟨first :: middle,
        ⟨[first], ⟨first, hstarts, rfl⟩, middle, fun c hmember => ?_, rfl⟩,
        [last], ⟨last, hends, rfl⟩, rfl⟩
      exact hchars c (by simp [hmember])

theorem mem_segmentPattern_iff {segment : List Char} :
    segment ∈ segmentPattern.matches' ↔ FollowsConvention segment := by
  simp only [segmentPattern, matches'_mul, Language.mem_mul, mem_literally_iff,
    mem_shortNamePattern_iff, FollowsConvention, exists_eq_left, eq_comm,
    and_comm]

/-! ## Paths -/

private theorem pathSegments_eq_splitOnP (path : List Char) :
    pathSegments path = path.splitOnP fun c => c == '/' || c == '\\' := by
  induction path with
  | nil => rfl
  | cons c rest ih =>
      rw [pathSegments, List.splitOnP_cons_eq_if_modifyHead, ih]
      cases hsegments : rest.splitOnP fun c => c == '/' || c == '\\' with
      | nil => exact absurd hsegments (List.splitOnP_ne_nil _ _)
      | cons segment segments => rfl

/-- The last segment of a path that follows the convention gives the name, and a
path without such a segment gives none. The pattern matches the segments that
give a name. -/
theorem providerName?_eq_some_iff_last_conventional (path name : String) :
    (providerName? path = some name ↔
        ∃ before after, (path.toList.splitOnP fun c => c == '/' || c == '\\') =
            before ++ ("terraform-provider-".toList ++ name.toList) :: after ∧
          IsShortName name.toList ∧
          ∀ segment ∈ after, ¬FollowsConvention segment) ∧
      ∀ segment, (segmentProviderName? segment).isSome ↔
        segment ∈ segmentPattern.matches' := by
  constructor
  · have hchars : providerName? path = some name ↔
        (pathSegments path.toList).reverse.findSome? segmentProviderName? =
          some name.toList := by
      unfold providerName?
      rw [Option.map_eq_some_iff]
      constructor
      · rintro ⟨found, hfirst, rfl⟩
        rw [hfirst, String.toList_ofList]
      · intro hfound
        exact ⟨name.toList, hfound, String.ofList_toList⟩
    rw [hchars, List.findSome?_eq_some_iff, ← pathSegments_eq_splitOnP]
    constructor
    · rintro ⟨after, segment, before, hreversed, hnamed, hnone⟩
      obtain ⟨rfl, hshort⟩ := segmentProviderName?_eq_some_iff.1 hnamed
      refine ⟨before.reverse, after.reverse, ?_, hshort,
        fun segment hmember => ?_⟩
      · simpa using congrArg List.reverse hreversed
      · exact segmentProviderName?_eq_none_iff.1
          (hnone segment (List.mem_reverse.1 hmember))
    · rintro ⟨before, after, hsegments, hshort, hnone⟩
      refine ⟨after.reverse, _, before.reverse, by simp [hsegments],
        segmentProviderName?_eq_some_iff.2 ⟨rfl, hshort⟩, ?_⟩
      exact fun segment hmember => segmentProviderName?_eq_none_iff.2
        (hnone segment (List.mem_reverse.1 hmember))
  · intro segment
    rw [mem_segmentPattern_iff, ← not_iff_not,
      ← segmentProviderName?_eq_none_iff]
    simp

end SchemaLint
