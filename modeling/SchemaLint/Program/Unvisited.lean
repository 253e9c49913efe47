/-!
# Counting what is unvisited

A search that marks numbers below a bound, each at most once, ends because the
count of unmarked numbers falls with every mark.
-/

namespace SchemaLint

def unvisited (bound : Nat) (seen : List Nat) : Nat :=
  ((List.range bound).filter fun n => !seen.contains n).length

theorem unvisited_cons_lt {bound : Nat} {seen : List Nat} {n : Nat}
    (hbelow : n < bound) (hfresh : seen.contains n = false) :
    unvisited bound (n :: seen) < unvisited bound seen := by
  have hsplit : ((List.range bound).filter fun m => !(n :: seen).contains m) =
      ((List.range bound).filter fun m => !seen.contains m).filter
      fun m => m ≠ n := by
    rw [List.filter_filter]
    congr 1
    funext m
    by_cases hsame : m = n <;> simp [hsame]
  rw [unvisited, hsplit, unvisited]
  refine List.length_filter_lt_length_iff_exists.2 ⟨n, ?_, by simp⟩
  simp_all

end SchemaLint
