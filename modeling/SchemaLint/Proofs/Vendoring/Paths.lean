import SchemaLint.Proofs.Vendoring.Names

/-!
# Paths without vendor directories

What a name shows of a path is the part behind the last vendor directory. That
part has no vendor directory of its own, so taking it again changes nothing, and
it does not depend on where the path was copied to.
-/

namespace SchemaLint

theorem afterVendor?_eq_none_iff {path : List Char} :
    afterVendor? path = none ↔ ¬vendorMark <:+: path := by
  induction path with
  | nil =>
      rw [List.infix_nil]
      exact ⟨fun _ => by decide, fun _ => rfl⟩
  | cons c rest ih =>
      rw [afterVendor?, List.infix_cons_iff, ← List.isPrefixOf_iff_prefix]
      cases hfound : afterVendor? rest with
      | some path =>
          have hinside : vendorMark <:+: rest := by
            by_contra habsent
            cases hfound.symm.trans (ih.2 habsent)
          simp [hinside]
      | none =>
          have habsent := ih.1 hfound
          cases vendorMark.isPrefixOf (c :: rest) <;> simp [habsent]

theorem afterVendor?_eq_some {path rest : List Char}
    (hfound : afterVendor? path = some rest) :
    (∃ root, path = root ++ (vendorMark ++ rest)) ∧
      afterVendor? rest = none := by
  induction path with
  | nil => cases hfound
  | cons c tail ih =>
      rw [afterVendor?] at hfound
      cases hlater : afterVendor? tail with
      | some last =>
          simp only [hlater] at hfound
          cases hfound
          obtain ⟨⟨root, rfl⟩, hnone⟩ := ih hlater
          exact ⟨⟨c :: root, rfl⟩, hnone⟩
      | none =>
          simp only [hlater] at hfound
          split at hfound
          · next hstarts =>
              cases hfound
              have hwhole :=
                List.prefix_iff_eq_append.1
                  (List.isPrefixOf_iff_prefix.1 hstarts)
              -- The mark takes the first character and more, so what is behind
              -- it is behind `c`.
              have hbehind : (c :: tail).drop vendorMark.length <:+ tail :=
                List.drop_suffix 7 tail
              refine ⟨⟨[], hwhole.symm⟩,
                afterVendor?_eq_none_iff.2 fun hinside => ?_⟩
              exact afterVendor?_eq_none_iff.1 hlater
                (hinside.trans hbehind.isInfix)
          · cases hfound

private theorem normalizePath_of_not_infix {path : String}
    (hplain : ¬vendorMark <:+: path.toList) : normalizePath path = path := by
  rw [normalizePath, afterVendor?_eq_none_iff.2 hplain]

private theorem not_vendorMark_infix_normalizePath (path : String) :
    ¬vendorMark <:+: (normalizePath path).toList := by
  unfold normalizePath
  split
  · next rest hfound =>
      rw [String.toList_ofList]
      exact afterVendor?_eq_none_iff.1 (afterVendor?_eq_some hfound).2
  · next hnone => exact afterVendor?_eq_none_iff.1 hnone

/-- Either nothing is taken off, or all up to the end of a vendor directory. -/
theorem normalizePath_eq_or_vendored (path : String) :
    normalizePath path = path ∨
      ∃ root, path = vendoredPath root (normalizePath path) := by
  cases hfound : afterVendor? path.toList with
  | none => exact .inl (by rw [normalizePath, hfound])
  | some rest =>
      obtain ⟨⟨root, hwhole⟩, -⟩ := afterVendor?_eq_some hfound
      have hbehind : normalizePath path = String.ofList rest := by
        rw [normalizePath, hfound]
      refine .inr ⟨String.ofList root, String.toList_inj.1 ?_⟩
      rw [toList_vendoredPath, hbehind, String.toList_ofList,
        String.toList_ofList, hwhole]

private theorem normalizePath_suffix (path : String) :
    (normalizePath path).toList <:+ path.toList := by
  rcases normalizePath_eq_or_vendored path with hsame | ⟨root, hcopied⟩
  · exact ⟨[], by rw [List.nil_append, hsame]⟩
  · have hwhole := toList_vendoredPath root (normalizePath path)
    rw [← hcopied, ← List.append_assoc] at hwhole
    exact ⟨_, hwhole.symm⟩

/-- The part behind the last vendor directory has no vendor directory, is its
own such part, ends the path and stands there alone or behind a vendor
directory. Copying a path, unless it starts in a vendor directory, does not
change it. -/
theorem normalizePath_projects (path : String) :
    ¬"/vendor/".toList <:+: (normalizePath path).toList ∧
      normalizePath (normalizePath path) = normalizePath path ∧
      (normalizePath path).toList <:+ path.toList ∧
      (normalizePath path = path ∨
        ∃ root, path = root ++ "/vendor/" ++ normalizePath path) ∧
      ∀ root, ¬"vendor/".toList <+: path.toList →
        normalizePath (root ++ "/vendor/" ++ path) = normalizePath path := by
  have hplain := not_vendorMark_infix_normalizePath path
  exact ⟨hplain, normalizePath_of_not_infix hplain, normalizePath_suffix path,
    normalizePath_eq_or_vendored path,
    fun root hunvendored => normalizePath_vendoredPath root hunvendored⟩

theorem normalizePath_projects_twice_vendored :
    ¬"vendor/".toList <+: "b/vendor/vendor/c".toList ∧
      normalizePath ("a" ++ "/vendor/" ++ "b/vendor/vendor/c") =
        normalizePath "b/vendor/vendor/c" ∧
      normalizePath (normalizePath "b/vendor/vendor/c") =
        normalizePath "b/vendor/vendor/c" := by
  have hplain : ¬"vendor/".toList <+: "b/vendor/vendor/c".toList := by decide
  obtain ⟨-, hagain, -, -, hcopied⟩ :=
    normalizePath_projects "b/vendor/vendor/c"
  exact ⟨hplain, hcopied "a" hplain, hagain⟩

/-- A path that starts in a vendor directory makes a second mark with the slash
before it. -/
example : normalizePath ("a" ++ "/vendor/" ++ "vendor/c") = "c" ∧
    normalizePath "vendor/c" = "vendor/c" := by decide

end SchemaLint
