import ChainIndexer.Proofs.Text.Numeral
import ChainIndexer.Proofs.Amount.Numeral

/-
  Numerals with a given number of places.

  An integer that counts units of `10 ^ -places` is written with a point before its last `places`
  digits (`Decimal.placed`): the quotient by `10 ^ places` in front of the point, without a zero
  before another digit, and the remainder in `places` digits behind it. What is written so denotes
  the integer divided by `10 ^ places` (`value_placed`).
-/

namespace ChainIndexer.Amount

open Text

/-! ## The last digits of a number -/

/-- So many last digits of a number, with zeros where it has no more. -/
def lastDigits : Nat → Nat → List Char
  | 0, _ => []
  | places + 1, n => lastDigits places (n / 10) ++ [Nat.digitChar (n % 10)]

theorem length_lastDigits (places n : Nat) : (lastDigits places n).length = places := by
  induction places generalizing n with
  | zero => rfl
  | succ places ih => rw [lastDigits, List.length_append, ih, List.length_singleton]

theorem isDigit_digitChar : ∀ d < 10, (Nat.digitChar d).isDigit = true := by
  decide

theorem isDigit_of_mem_lastDigits {places n : Nat} {c : Char} (h : c ∈ lastDigits places n) :
    c.isDigit = true := by
  induction places generalizing n with
  | zero => exact absurd h List.not_mem_nil
  | succ places ih =>
    rcases List.mem_append.1 h with h | h
    · exact ih h
    · rw [List.mem_singleton.1 h]
      exact isDigit_digitChar _ (Nat.mod_lt n (by decide))

/-- The last digits of a number are its remainder. -/
theorem ofDigitChars_lastDigits (places n : Nat) :
    Nat.ofDigitChars 10 (lastDigits places n) 0 = n % 10 ^ places := by
  induction places generalizing n with
  | zero => rw [Nat.pow_zero, Nat.mod_one]; rfl
  | succ places ih =>
    rw [lastDigits, Nat.ofDigitChars_append, ih,
      Nat.ofDigitChars_cons_digitChar_of_lt_ten (Nat.mod_lt n (by decide)), Nat.ofDigitChars_nil,
      Nat.pow_succ', Nat.mod_mul]
    omega

/-- The digits of a number are those of its quotient and its last ones. -/
theorem toDigits_eq_append {places n : Nat} (h : 10 ^ places ≤ n) :
    Nat.toDigits 10 n = Nat.toDigits 10 (n / 10 ^ places) ++ lastDigits places n := by
  induction places generalizing n with
  | zero => rw [Nat.pow_zero, Nat.div_one, lastDigits, List.append_nil]
  | succ places ih =>
    have hp : 0 < 10 ^ places := Nat.pow_pos (by decide)
    rw [Nat.pow_succ] at h
    have hn : 10 ^ places ≤ n / 10 := by omega
    rw [Nat.toDigits_of_base_le (by decide) (by omega), ih hn, Nat.div_div_eq_div_mul,
      ← Nat.pow_succ', lastDigits, List.append_assoc]

theorem lastDigits_zero (places : Nat) : lastDigits places 0 = List.replicate places '0' := by
  induction places with
  | zero => rfl
  | succ places ih =>
    rw [lastDigits, Nat.zero_div, ih, List.replicate_succ']
    rfl

/-- A number with no more digits has zeros before them. -/
theorem lastDigits_of_lt {places n : Nat} (pos : 0 < places) (h : n < 10 ^ places) :
    lastDigits places n =
      List.replicate (places - (Nat.toDigits 10 n).length) '0' ++ Nat.toDigits 10 n := by
  induction places generalizing n with
  | zero => exact absurd pos (Nat.lt_irrefl 0)
  | succ places ih =>
    by_cases hn : n < 10
    · rw [lastDigits, Nat.div_eq_of_lt hn, lastDigits_zero, Nat.mod_eq_of_lt hn,
        Nat.toDigits_of_lt_base hn, List.length_singleton, Nat.add_sub_cancel]
    · rw [Nat.pow_succ] at h
      have hp : 0 < places := by
        rcases Nat.eq_zero_or_pos places with rfl | hp
        · exact absurd h hn
        · exact hp
      have hd : Nat.toDigits 10 n = Nat.toDigits 10 (n / 10) ++ [Nat.digitChar (n % 10)] :=
        Nat.toDigits_of_base_le (by decide) (by omega)
      rw [lastDigits, ih hp (by omega), hd, List.length_append, List.length_singleton,
        Nat.add_sub_add_right, List.append_assoc]

/-! ## Digits behind a point -/

/-- A point with digits behind it, if there are any. -/
def pointTail (digits : List Char) : Option (Mark × List Char) :=
  if digits = [] then none else some (.point, digits)

theorem fractionOf_pointTail (digits : List Char) : fractionOf (pointTail digits) = digits := by
  unfold pointTail
  split
  · rename_i h
    exact h.symm
  · rfl

/-- The sign of an integer as it is written. -/
def signOf (n : Int) : Sign :=
  if n < 0 then .minus else .unsigned

theorem signOf_ne_plus (n : Int) : signOf n ≠ .plus := by
  unfold signOf
  split
  · decide
  · decide

theorem factor_signOf_mul_natAbs (n : Int) : (signOf n).factor * n.natAbs = n := by
  unfold signOf
  split
  · rw [Sign.factor]
    omega
  · rw [Sign.factor]
    omega

theorem chars_signOf_append (n : Int) (cs : List Char) :
    (signOf n).chars ++ cs = if n < 0 then '-' :: cs else cs := by
  unfold signOf
  split
  · rfl
  · rfl

namespace Decimal

/-- The text of a numeral. -/
def text (d : Decimal) : String :=
  String.ofList d.chars

theorem toList_text (d : Decimal) : d.text.toList = d.chars :=
  String.toList_ofList

/-- The digits of an integer on both sides of a point. -/
structure Divided (n : Int) (whole fraction : List Char) : Prop where
  digit : ∀ c ∈ whole ++ fraction, c.isDigit = true
  nonempty : whole ++ fraction ≠ []
  digits : Nat.ofDigitChars 10 (whole ++ fraction) 0 = n.natAbs

section Divided

variable {n : Int} {whole fraction : List Char} (h : Divided n whole fraction)

/-- The numeral of an integer with a point between its digits. -/
def ofDivided (n : Int) (whole fraction : List Char) (h : Divided n whole fraction) : Decimal where
  sign := signOf n
  whole := whole
  tail := pointTail fraction
  digit := by
    rw [fractionOf_pointTail]
    exact h.digit
  nonempty := by
    rw [fractionOf_pointTail]
    exact h.nonempty

theorem fraction_ofDivided : (ofDivided n whole fraction h).fraction = fraction :=
  fractionOf_pointTail fraction

theorem numeric_ofDivided : (ofDivided n whole fraction h).numeric = n := by
  unfold numeric
  rw [fraction_ofDivided, ofDivided, h.digits]
  exact factor_signOf_mul_natAbs n

theorem value_ofDivided :
    (ofDivided n whole fraction h).value = (n : ℚ) / (10 : ℚ) ^ fraction.length := by
  rw [← numeric_mul_zpow, numeric_ofDivided, fraction_ofDivided, zpow_neg, zpow_natCast,
    div_eq_mul_inv]

theorem chars_ofDivided : (ofDivided n whole fraction h).chars =
    (signOf n).chars ++ (whole ++ tailChars (pointTail fraction)) := by
  unfold ofDivided chars
  rw [List.append_assoc]

end Divided

/-! ## Integers by their places -/

theorem divided_placed (n : Int) (places : Nat) :
    Divided n (Nat.toDigits 10 (n.natAbs / 10 ^ places)) (lastDigits places n.natAbs) where
  digit c hc := by
    rcases List.mem_append.1 hc with hc | hc
    · exact isDigit_of_mem_toDigits hc
    · exact isDigit_of_mem_lastDigits hc
  nonempty := by simp [Nat.toDigits_ne_nil]
  digits := by
    rw [Nat.ofDigitChars_append, Nat.ofDigitChars_ten_toDigits,
      Nat.ofDigitChars_eq_ofDigitChars_zero, length_lastDigits, ofDigitChars_lastDigits]
    exact Nat.div_add_mod _ _

/-- An integer that counts units of `10 ^ -places`, as it is written: the quotient without a zero
before another digit, a point and the remainder in so many digits. A minus sign stands in front if
the integer is negative. -/
def placed (n : Int) (places : Nat) : Decimal :=
  ofDivided n (Nat.toDigits 10 (n.natAbs / 10 ^ places)) (lastDigits places n.natAbs)
    (divided_placed n places)

variable (n : Int) (places : Nat)

theorem length_fraction_placed : (placed n places).fraction.length = places := by
  unfold placed
  rw [fraction_ofDivided, length_lastDigits]

/-- All digits of it are the integer again. -/
theorem numeric_placed : (placed n places).numeric = n :=
  numeric_ofDivided _

/-- It denotes the integer divided by `10 ^ places`. -/
theorem value_placed : (placed n places).value = (n : ℚ) / (10 : ℚ) ^ places := by
  unfold placed
  rw [value_ofDivided, length_lastDigits]

/-- Without places it is the integer as it is written. -/
theorem text_placed_zero : (placed n 0).text = integerText n := by
  rw [← String.toList_inj, toList_text, placed, chars_ofDivided, chars_signOf_append,
    toList_integerText, Nat.pow_zero, Nat.div_one, lastDigits]
  exact if_congr Iff.rfl (congrArg _ (List.append_nil _)) (List.append_nil _)

theorem pointTail_lastDigits {places : Nat} (pos : 0 < places) (m : Nat) :
    pointTail (lastDigits places m) = some (.point, lastDigits places m) := by
  have hl : lastDigits places m ≠ [] :=
    List.ne_nil_of_length_pos (by rwa [length_lastDigits])
  exact if_neg hl

/-- With places it has a point. -/
theorem point_mem_placed {places : Nat} (pos : 0 < places) :
    '.' ∈ (placed n places).text.toList := by
  rw [toList_text, placed, chars_ofDivided, pointTail_lastDigits pos]
  exact List.mem_append_right _ (List.mem_append_right _ List.mem_cons_self)

end Decimal

end ChainIndexer.Amount
