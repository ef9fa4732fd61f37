import Mathlib.Algebra.Field.Rat
import Mathlib.Algebra.BigOperators.Group.List.Basic
import ChainIndexer.Amount.Basic

/-
  The number that an amount stands for, and what some amounts come to in a currency.
-/

namespace ChainIndexer.Amount

/-- The number `numeric * 10 ^ -exp`. -/
def value (a : Amount) : ℚ :=
  a.numeric * (10 : ℚ) ^ (-a.exp)

/-- What some amounts come to in a currency. -/
def total (currency : String) (amounts : List Amount) : ℚ :=
  ((amounts.filter (·.currency = currency)).map value).sum

theorem value_of_isZero {a : Amount} (h : a.isZero = true) : a.value = 0 := by
  have hn : a.numeric = 0 := by simpa [isZero] using h
  unfold value
  rw [hn, Int.cast_zero, zero_mul]

theorem total_cons (currency : String) (a : Amount) (amounts : List Amount) :
    total currency (a :: amounts) =
      (if a.currency = currency then a.value else 0) + total currency amounts := by
  unfold total
  rw [List.filter_cons]
  by_cases h : a.currency = currency
  · rw [if_pos h, if_pos (by simpa using h), List.map_cons, List.sum_cons]
  · rw [if_neg h, if_neg (by simpa using h), zero_add]

/-- What is zero adds nothing. -/
theorem total_filter_not_isZero (currency : String) (amounts : List Amount) :
    total currency (amounts.filter fun a => !a.isZero) = total currency amounts := by
  induction amounts with
  | nil => rfl
  | cons a amounts ih =>
    rw [List.filter_cons, total_cons]
    cases hz : a.isZero with
    | true =>
      rw [if_neg (by simp), ih, value_of_isZero hz]
      split
      · rw [zero_add]
      · rw [zero_add]
    | false => rw [if_pos (by simp), total_cons, ih]

end ChainIndexer.Amount
