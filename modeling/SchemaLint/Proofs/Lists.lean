import Mathlib.Data.List.Forall2
import Mathlib.Data.List.Induction
import Mathlib.Data.List.Nodup

/-!
# Lists, look-ups and arrays

Facts about lists in correspondence, association lists and arrays that say
nothing about packages and that more than one part of the theory needs.
-/

namespace SchemaLint

/-! ## Lists in correspondence -/

section

variable {R : α → β → Prop} {as : List α} {bs : List β}

theorem exists_mem_zip (hrelated : List.Forall₂ R as bs) {b : β}
    (hmem : b ∈ bs) : ∃ a, (a, b) ∈ as.zip bs := by
  rw [← List.map_snd_zip (Nat.le_of_eq hrelated.length_eq.symm)] at hmem
  obtain ⟨⟨a, b'⟩, hpair, rfl⟩ := List.mem_map.1 hmem
  exact ⟨a, hpair⟩

theorem exists_getElem?_right (hrelated : List.Forall₂ R as bs) {i : Nat}
    {a : α} (hfound : as[i]? = some a) : ∃ b, bs[i]? = some b ∧ R a b := by
  induction hrelated generalizing i with
  | nil => cases hfound
  | cons hfirst _ ih =>
      cases i with
      | zero =>
          cases hfound
          exact ⟨_, rfl, hfirst⟩
      | succ i => exact ih hfound

theorem filterMap_eq_of_forall₂ {f : α → Option γ} {g : β → Option γ}
    (hrelated : List.Forall₂ R as bs) (hsame : ∀ {a b}, R a b → f a = g b) :
    as.filterMap f = bs.filterMap g := by
  induction hrelated with
  | nil => rfl
  | cons hfirst _ ih =>
      rw [List.filterMap_cons, List.filterMap_cons, hsame hfirst, ih]

theorem pairwise_iff_of_forall₂ {S : α → α → Prop} {T : β → β → Prop}
    (hrelated : List.Forall₂ R as bs)
    (hagree : ∀ {a b a' b'}, R a b → R a' b' → (S a a' ↔ T b b')) :
    as.Pairwise S ↔ bs.Pairwise T := by
  induction hrelated with
  | nil => simp
  | @cons a b as bs hfirst hrest ih =>
      have hheads : (∀ a' ∈ as, S a a') ↔ ∀ b' ∈ bs, T b b' := by
        clear ih
        induction hrest with
        | nil => simp
        | cons hsecond _ ih =>
            rw [List.forall_mem_cons, List.forall_mem_cons,
              hagree hfirst hsecond, ih]
      rw [List.pairwise_cons, List.pairwise_cons, hheads, ih]

end

/-- Where a partial answer is given exactly for the kept members, the answers
correspond to these. -/
theorem forall₂_filter_filterMap_id {R : α → Option β → Prop}
    {S : α → β → Prop} {keep : α → Bool} {as : List α}
    {found : List (Option β)} (hrelated : List.Forall₂ R as found)
    (heach : ∀ a ∈ as, ∀ o, R a o →
      if keep a then ∃ b, o = some b ∧ S a b else o = none) :
    List.Forall₂ S (as.filter keep) (found.filterMap id) := by
  induction hrelated with
  | nil => exact .nil
  | @cons a o as found hfirst _ ih =>
      obtain ⟨hhere, hthere⟩ := List.forall_mem_cons.1 heach
      have hown := hhere o hfirst
      cases hkept : keep a with
      | true =>
          rw [hkept, if_pos rfl] at hown
          obtain ⟨b, rfl, hheld⟩ := hown
          rw [List.filter_cons_of_pos hkept]
          exact .cons hheld (ih hthere)
      | false =>
          rw [hkept, if_neg (by decide)] at hown
          rw [hown, List.filter_cons_of_neg (by simp [hkept])]
          exact ih hthere

theorem forall₂_filterMap_id_of_ne_none {R : α → Option β → Prop}
    {as : List α} {found : List (Option β)}
    (hrelated : List.Forall₂ R as found) (hall : ∀ o ∈ found, o ≠ none) :
    List.Forall₂ (fun a b => R a (some b)) as (found.filterMap id) := by
  induction hrelated with
  | nil => exact .nil
  | @cons a o as found hfirst _ ih =>
      obtain ⟨hhere, hthere⟩ := List.forall_mem_cons.1 hall
      obtain ⟨b, rfl⟩ := Option.ne_none_iff_exists'.1 hhere
      exact .cons hfirst (ih hthere)

/-! ## Places in a list -/

theorem place_of_concat {list before after : List α} {last a : α}
    (hsplit : list ++ [last] = before ++ a :: after) :
    after = [] ∧ list = before ∧ last = a ∨
      ∃ init, after = init ++ [last] ∧ list = before ++ a :: init := by
  induction after using List.reverseRecOn with
  | nil => exact .inl ⟨rfl, List.append_singleton_inj.1 hsplit⟩
  | append_singleton init final =>
      rw [← List.cons_append, ← List.append_assoc,
        List.append_singleton_inj] at hsplit
      obtain ⟨rfl, rfl⟩ := hsplit
      exact .inr ⟨init, rfl, rfl⟩

theorem eq_of_flatMap_nodup {l : List α} {f : α → List β}
    (hdistinct : (l.flatMap f).Nodup) {i j : Nat} {a b : α} {x : β}
    (hfirst : l[i]? = some a) (hsecond : l[j]? = some b) (ha : x ∈ f a)
    (hb : x ∈ f b) : i = j := by
  have hapart :=
    List.pairwise_iff_getElem.1 (List.nodup_flatMap.1 hdistinct).2
  obtain ⟨hi, rfl⟩ := List.getElem?_eq_some_iff.1 hfirst
  obtain ⟨hj, rfl⟩ := List.getElem?_eq_some_iff.1 hsecond
  rcases Nat.lt_trichotomy i j with hbelow | hsame | habove
  · exact (hapart i j hi hj hbelow ha hb).elim
  · exact hsame
  · exact (hapart j i hj hi habove hb ha).elim

theorem eraseDups_concat [BEq α] [LawfulBEq α] (list : List α) (a : α)
    [Decidable (a ∈ list)] :
    (list ++ [a]).eraseDups =
      if a ∈ list then list.eraseDups else list.eraseDups ++ [a] := by
  rw [List.eraseDups_append]
  split <;> simp_all [List.removeAll, List.eraseDups_cons]

theorem filterMapM_filter {m : Type → Type} [Monad m] [LawfulMonad m]
    {f : α → m (Option β)} {keep : α → Bool} {list : List α}
    (hdropped : ∀ a ∈ list, (!keep a) = true → f a = pure none) :
    (list.filter keep).filterMapM f = list.filterMapM f := by
  induction list with
  | nil => rfl
  | cons a rest ih =>
      obtain ⟨hhere, hthere⟩ := List.forall_mem_cons.1 hdropped
      cases hkept : keep a with
      | true =>
          simp only [List.filter_cons, hkept, ↓reduceIte,
            List.filterMapM_cons, ih hthere]
      | false =>
          simp only [List.filter_cons, hkept, Bool.false_eq_true, ↓reduceIte,
            ih hthere, List.filterMapM_cons, hhere (by simp [hkept]),
            pure_bind]

/-! ## Look-ups -/

section

variable [BEq α] [LawfulBEq α]

theorem mem_of_lookup {list : List (α × β)} {a : α} {b : β}
    (hfound : list.lookup a = some b) : (a, b) ∈ list := by
  obtain ⟨before, after, hsplit, -⟩ := List.lookup_eq_some_iff.1 hfound
  simp [hsplit]

theorem lookup_cons_eq_some_iff {key new : α} {value entry : β}
    {table : List (α × β)} :
    ((new, entry) :: table).lookup key = some value ↔
      key = new ∧ value = entry ∨
        key ≠ new ∧ table.lookup key = some value := by
  by_cases hsame : key = new
  · subst hsame
    simp [eq_comm]
  · have hother : (key == new) = false := by simpa using hsame
    simp [List.lookup_cons, hother, hsame]

theorem filterMap_lookup {order : List α} {entries : List (α × β)}
    (hdistinct : order.Nodup)
    (hsub : (entries.map Prod.fst).Sublist order) :
    order.filterMap (fun key => (entries.lookup key).map (key, ·)) =
      entries := by
  generalize hkeys : entries.map Prod.fst = keys at hsub
  induction hsub generalizing entries with
  | slnil =>
      rw [List.map_eq_nil_iff.1 hkeys]
      rfl
  | @cons keys order key hinside ih =>
      obtain ⟨hfresh, hrest⟩ := List.nodup_cons.1 hdistinct
      have habsent : entries.lookup key = none := by
        rw [List.lookup_eq_none_iff]
        intro entry hmem
        have hother := hinside.subset (hkeys ▸ List.mem_map_of_mem hmem)
        rw [bne_iff_ne]
        rintro rfl
        exact hfresh hother
      rw [List.filterMap_cons, habsent]
      exact ih hrest hkeys
  | @cons_cons keys order key hinside ih =>
      obtain ⟨hfresh, hrest⟩ := List.nodup_cons.1 hdistinct
      obtain ⟨⟨first, value⟩, rest, rfl, rfl, htail⟩ :=
        List.map_eq_cons_iff.1 hkeys
      rw [List.filterMap_cons, List.lookup_cons_self]
      have hothers :
          order.filterMap (fun other =>
            (((first, value) :: rest).lookup other).map (other, ·)) =
          order.filterMap fun other => (rest.lookup other).map (other, ·) := by
        refine List.filterMap_congr fun other hmem => ?_
        have hapart : other ≠ first := by
          rintro rfl
          exact hfresh hmem
        rw [List.lookup_cons, beq_eq_false_iff_ne.2 hapart]
      simp only [Option.map_some, List.cons.injEq, true_and]
      exact hothers.trans (ih hrest htail)

end

theorem lookup_toList_map (option : Option α) (name field : String)
    (f : α → β) :
    (option.toList.map fun a => (name, f a)).lookup field =
      if field = name then option.map f else none := by
  cases option with
  | none => simp
  | some a =>
      by_cases hsame : field = name <;>
        simp [List.lookup_cons, hsame, beq_eq_false_iff_ne.2]

/-! ## Arrays -/

theorem mem_of_mem_modify {table : Array α} {index : Nat} {change : α → α}
    {a : α} (hmem : a ∈ table.modify index change) :
    a ∈ table ∨ ∃ old ∈ table, a = change old := by
  obtain ⟨i, hbound, rfl⟩ := Array.mem_iff_getElem.1 hmem
  have hinside : i < table.size := by simpa using hbound
  rw [Array.getElem_modify]
  split
  · exact .inr ⟨table[i], Array.getElem_mem hinside, rfl⟩
  · exact .inl (Array.getElem_mem hinside)

theorem modify_push (list : Array α) (a : α) (change : α → α) :
    (list.push a).modify list.size change = list.push (change a) := by
  apply Array.ext
  · simp
  · intro index hfirst hsecond
    rw [Array.getElem_modify]
    grind

end SchemaLint
