import AffectedTests.Text.Digit
import Mathlib.Algebra.Group.Nat.Defs
/-!
# Decimal forms

The decimal form of a number consists of digits, denotes the number and is as short as its size allows.
-/

namespace AffectedTests

namespace Text

theorem ofNat_eq (n : Nat) : ofNat n = (Nat.toDigits 10 n).map CodePoint.ofChar := by
  unfold ofNat ofString
  rw [Nat.toString_eq_ofList_toDigits, String.toList_ofList]

theorem digit?_digitChar {d : Nat} (h : d < 10) :
    (CodePoint.ofChar d.digitChar).digit? = some d := by
  have hall : ∀ d < 10, (CodePoint.ofChar (Nat.digitChar d)).digit? = some d := by decide
  exact hall d h

/-- The decimal form of a number with more than one digit. -/
theorem ofNat_of_le {n : Nat} (h : 10 ≤ n) :
    ofNat n = ofNat (n / 10) ++ [CodePoint.ofChar (n % 10).digitChar] := by
  rw [ofNat_eq, ofNat_eq, Nat.toDigits_of_base_le (by decide) h, List.map_append]
  rfl

theorem ofNat_of_lt {n : Nat} (h : n < 10) : ofNat n = [CodePoint.ofChar n.digitChar] := by
  rw [ofNat_eq, Nat.toDigits_of_lt_base h]
  rfl

theorem ofNat_ne_nil (n : Nat) : ofNat n ≠ [] := by
  rw [ofNat_eq]
  simp

theorem isDigit_of_mem_ofNat {n : Nat} {c : CodePoint} (h : c ∈ ofNat n) : c.isDigit = true := by
  induction n using Nat.strongRecOn with
  | ind n ih =>
    rcases Nat.lt_or_ge n 10 with hn | hn
    · rw [ofNat_of_lt hn] at h
      rw [List.mem_singleton.1 h, CodePoint.isDigit, digit?_digitChar hn]
      rfl
    · rw [ofNat_of_le hn] at h
      rcases List.mem_append.1 h with h | h
      · exact ih (n / 10) (by omega) h
      · rw [List.mem_singleton.1 h, CodePoint.isDigit, digit?_digitChar (Nat.mod_lt n (by decide))]
        rfl

/-- A decimal form denotes its number. -/
theorem digitsValue_ofNat (n : Nat) : (ofNat n).digitsValue = n := by
  -- The last digit is split off, so the induction goes from a number to its tenth.
  induction n using Nat.strongRecOn with
  | ind n ih =>
    rcases Nat.lt_or_ge n 10 with hn | hn
    · rw [ofNat_of_lt hn]
      simp [digitsValue, digit?_digitChar hn]
    · have hfront := ih (n / 10) (by omega)
      unfold digitsValue at hfront ⊢
      rw [ofNat_of_le hn, List.filterMap_append, List.foldl_append, hfront]
      simp only [List.filterMap_cons, digit?_digitChar (Nat.mod_lt n (by decide : 0 < 10)),
        List.filterMap_nil, List.foldl_cons, List.foldl_nil]
      omega

theorem length_ofNat_le_iff {n k : Nat} (hk : 0 < k) : (ofNat n).length ≤ k ↔ n < 10 ^ k := by
  rw [ofNat_eq, List.length_map, Nat.length_toDigits_le_iff (by decide) hk]

end Text

end AffectedTests
