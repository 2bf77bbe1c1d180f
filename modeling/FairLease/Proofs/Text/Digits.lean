import FairLease.Text.Digits

/-!
# Numbers read back

The decimal digits of a number are read as the number, and hexadecimal digits
as the values they were written for.
-/

namespace FairLease.Text

/-!
# Decimal digits
-/

theorem digitsValue_toDigits (n : Nat) : digitsValue (Nat.toDigits 10 n) = n :=
  Nat.ofDigitChars_ten_toDigits

theorem all_isDigit_toDigits (n : Nat) :
    (Nat.toDigits 10 n).all Char.isDigit = true := by
  rw [List.all_eq_true]
  intro c hc
  exact Nat.isDigit_of_mem_toDigits (by decide) (by decide) hc

theorem head?_toDigits {n : Nat} (h : 0 < n) :
    (Nat.toDigits 10 n).head? ≠ some '0' := by
  induction n using Nat.strongRecOn with
  | ind n ih =>
      by_cases hn : n < 10
      · rw [Nat.toDigits_of_lt_base hn, List.head?_cons, ne_eq, Option.some_inj,
          Nat.digitChar_eq_zero]
        exact Nat.ne_of_gt h
      · rw [Nat.toDigits_of_base_le (by decide) (Nat.le_of_not_lt hn),
          List.head?_append, List.head?_eq_some_head Nat.toDigits_ne_nil,
          Option.some_or, ← List.head?_eq_some_head]
        exact ih (n / 10) (by omega) (by omega)

theorem unsignedChars?_toDigits {bits n : Nat} (h : n < wordSize bits) :
    unsignedChars? bits (Nat.toDigits 10 n) = some n := by
  have hempty : (Nat.toDigits 10 n).isEmpty = false := by
    rw [List.isEmpty_eq_false_iff]
    exact Nat.toDigits_ne_nil
  rw [unsignedChars?, hempty, all_isDigit_toDigits,
    digitsValue_toDigits, if_pos h]
  rfl

theorem unsigned?_toString {bits n : Nat} (h : n < wordSize bits) :
    unsigned? bits (toString n) = some n := by
  have hdigits : (toString n).toList = Nat.toDigits 10 n := by
    rw [Nat.toString_eq_repr, Nat.toList_repr]
  unfold unsigned?
  rw [hdigits]
  split
  · rename_i digits hplus
    have hdigit := List.all_eq_true.mp (all_isDigit_toDigits n) '+'
    rw [hplus] at hdigit
    exact absurd (hdigit List.mem_cons_self) (by decide)
  · exact unsignedChars?_toDigits h

end FairLease.Text
