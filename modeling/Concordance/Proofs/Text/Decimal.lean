/-
Decimal digits: they are digits, there is at least one, and reading them back gives the number.
-/
import Concordance.Text.Decimal
import Mathlib.Tactic

namespace Concordance.Text

theorem isDigit_digitChar {d : Nat} (h : d < 10) : (digitChar d).isDigit = true := by
  interval_cases d <;> decide

theorem digitValue_digitChar {d : Nat} (h : d < 10) : digitValue (digitChar d) = d := by
  interval_cases d <;> decide

theorem decimal_ne_nil (n : Nat) : decimal n ≠ [] := by
  rw [decimal]
  split
  · exact List.cons_ne_nil _ _
  · exact List.append_ne_nil_of_right_ne_nil _ (List.cons_ne_nil _ _)

theorem isDigit_of_mem_decimal {c : Char} {n : Nat} (h : c ∈ decimal n) : c.isDigit = true := by
  induction n using decimal.induct with
  | case1 n hn =>
    rw [decimal, if_pos hn, List.mem_singleton] at h
    rw [h]
    exact isDigit_digitChar hn
  | case2 n hn ih =>
    rw [decimal, if_neg hn, List.mem_append, List.mem_singleton] at h
    rcases h with h | h
    · exact ih h
    · rw [h]
      exact isDigit_digitChar (Nat.mod_lt _ (by decide))

/-- Only zero is written with a zero in front. -/
theorem head?_decimal_ne {n : Nat} (h : 0 < n) : (decimal n).head? ≠ some '0' := by
  induction n using decimal.induct with
  | case1 n hn =>
    rw [decimal, if_pos hn]
    interval_cases n <;> decide
  | case2 n hn ih =>
    rw [decimal, if_neg hn, List.head?_append_of_ne_nil _ (decimal_ne_nil _)]
    exact ih (by omega)

theorem decimalValue_decimal (n : Nat) : decimalValue (decimal n) = n := by
  induction n using decimal.induct with
  | case1 n hn =>
    rw [decimal, if_pos hn]
    simp [decimalValue, digitValue_digitChar hn]
  | case2 n hn ih =>
    have last : digitValue (digitChar (n % 10)) = n % 10 := digitValue_digitChar (Nat.mod_lt _ (by decide))
    rw [decimal, if_neg hn]
    unfold decimalValue at ih ⊢
    rw [List.foldl_append, ih, List.foldl_cons, List.foldl_nil, last]
    omega

theorem decimal_injective : Function.Injective decimal := Function.LeftInverse.injective decimalValue_decimal

/-- The decimal digits of a number are read back as the number. -/
theorem readDecimal?_decimal (n : Nat) : readDecimal? (decimal n) = some n := by
  have digits : (decimal n).all Char.isDigit = true := List.all_eq_true.2 fun c hc => isDigit_of_mem_decimal hc
  have some : (decimal n).isEmpty = false := by simpa using decimal_ne_nil n
  rw [readDecimal?, some, digits, decimalValue_decimal]
  rfl

end Concordance.Text
