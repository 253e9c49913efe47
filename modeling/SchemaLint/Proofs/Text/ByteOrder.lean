import Mathlib.Data.List.Basic

/-!
# Texts in the order of their bytes

Texts are compared character by character. Their UTF-8 bytes compare the same
way: of two different characters the smaller one has the smaller byte at the
first place where their encodings differ.
-/

namespace SchemaLint.Text

def bytes (text : String) : List UInt8 := text.toUTF8.data.toList

theorem bytes_eq_flatMap (text : String) :
    bytes text = text.toList.flatMap String.utf8EncodeChar := by
  simp [bytes, ← String.utf8Encode_toList, List.utf8Encode]

/-- The digits of a smaller number are smaller at the first place where they
differ. -/
theorem digits_lt {v w : Nat} (hsmaller : v < w) (hbound : w < 0x110000) :
    v / 262144 % 8 < w / 262144 % 8 ∨
      v / 262144 % 8 = w / 262144 % 8 ∧
        (v / 4096 % 64 < w / 4096 % 64 ∨
          v / 4096 % 64 = w / 4096 % 64 ∧
            (v / 64 % 64 < w / 64 % 64 ∨
              v / 64 % 64 = w / 64 % 64 ∧ v % 64 < w % 64)) := by
  have hplace : ∀ u < 0x110000,
      u =
        262144 * (u / 262144 % 8) + 4096 * (u / 4096 % 64) + 64 *
          (u / 64 % 64) + u % 64 := by
    omega
  have hofV := hplace v (by omega)
  have hofW := hplace w hbound
  have hdigit : ∀ u : Nat, u % 64 < 64 := fun u => Nat.mod_lt u (by decide)
  have hv₁ := hdigit (v / 4096)
  have hv₂ := hdigit (v / 64)
  have hw₁ := hdigit (w / 4096)
  have hw₂ := hdigit (w / 64)
  have hv₃ := hdigit v
  have hw₃ := hdigit w
  generalize v / 262144 % 8 = a, v / 4096 % 64 = b, v / 64 % 64 = c,
  v % 64 = d at *
  generalize w / 262144 % 8 = a', w / 4096 % 64 = b', w / 64 % 64 = c',
  w % 64 = d' at *
  omega

private theorem encode_append_lt {c d : Char} (hsmaller : c < d)
    (rest rest' : List UInt8) :
    String.utf8EncodeChar c ++ rest < String.utf8EncodeChar d ++ rest' := by
  have hbelow : c.val.toNat < d.val.toNat := hsmaller
  have hbound : d.val.toNat < 0x110000 := by
    have hvalid := d.valid
    simp only [UInt32.isValidChar, Nat.isValidChar] at hvalid
    omega
  have hdigits := digits_lt hbelow hbound
  unfold String.utf8EncodeChar
  generalize c.val.toNat = v at *
  generalize d.val.toNat = w at *
  dsimp only
  split_ifs <;>
    simp (disch := omega) only [List.cons_append, List.nil_append,
      List.cons_lt_cons_iff, UInt8.lt_iff_toNat_lt, ← UInt8.toNat_inj,
      UInt8.toNat_ofNat', Nat.mod_eq_of_lt] <;>
    omega

theorem flatMap_encode_lt {first second : List Char}
    (hsmaller : first < second) :
    first.flatMap String.utf8EncodeChar <
      second.flatMap String.utf8EncodeChar := by
  induction hsmaller with
  | @nil c rest =>
      have hnonempty : String.utf8EncodeChar c ≠ [] := by
        unfold String.utf8EncodeChar
        dsimp only
        split_ifs <;> simp
      rw [List.flatMap_cons]
      obtain ⟨first, others, hencoded⟩ := List.exists_cons_of_ne_nil hnonempty
      rw [hencoded]
      exact List.nil_lt_cons first _
  | rel hsmaller => exact encode_append_lt hsmaller _ _
  | cons _ ih => exact List.append_left_lt ih

theorem bytes_le_of_le {first second : String} (hordered : first ≤ second) :
    bytes first ≤ bytes second := by
  by_cases hsame : first = second
  · rw [hsame]
    exact List.le_refl _
  · have hsmaller : first < second := by
      by_contra hnotSmaller
      exact hsame (String.le_antisymm hordered (String.not_lt.1 hnotSmaller))
    rw [bytes_eq_flatMap, bytes_eq_flatMap]
    exact List.le_of_lt (flatMap_encode_lt (String.lt_iff.1 hsmaller))

theorem le_of_bytes_le {first second : String}
    (hordered : bytes first ≤ bytes second) : first ≤ second := by
  refine String.not_lt.1 fun hlarger => ?_
  rw [bytes_eq_flatMap, bytes_eq_flatMap] at hordered
  exact List.not_lt.2 hordered (flatMap_encode_lt (String.lt_iff.1 hlarger))

end SchemaLint.Text
