import Mathlib.Algebra.Order.Field.Basic
import Mathlib.Algebra.Order.Field.Rat
import Mathlib.Tactic.NormNum
import ChainIndexer.Amount.Display
import ChainIndexer.Proofs.Amount.Currency
import ChainIndexer.Proofs.Amount.Places

/-
  The displayed text of an amount, read again.

  A positional value is the numeral of its integer with a point before its places, so it is read as
  the same integer with the same places. A value with an exponent is a numeral, too, up to its `E`,
  which is a letter: what is read there is the beginning of a currency. The exponent is written for
  the values below `10 ^ -6` and for no others (`tiny_iff`). So the text of an amount is always
  read, and gives its currency and its value back unless that is so small (`display_read_back`).
-/

namespace ChainIndexer.Amount

open Text Outcome Decimal

/-! ## Amounts that are read -/

/-- What holds of an amount that was read: its exponent counts places, and its currency, if there is
one, begins with a letter. -/
structure Readable (a : Amount) : Prop where
  nonneg : 0 ≤ a.exp
  fits : a.exp ≤ maxSigned32
  letter : ∀ c ∈ a.currency.toList.head?, c.isAlpha = true

/-- A numeral without a plus sign, with a currency behind it, is read as these. -/
theorem ofText_text_append {d : Decimal} {currency : String} (sign : d.sign ≠ .plus)
    (letter : ∀ c ∈ currency.toList.head?, c.isAlpha = true)
    (fits : d.fraction.length ≤ maxSigned32) :
    ofText (d.text ++ currency) =
      .ok ⟨d.text ++ currency, d.numeric, d.fraction.length, currency⟩ := by
  have hw : (d.text ++ currency).toList = [] ++ d.chars ++ [] ++ currency.toList := by
    rw [String.toList_append, d.toList_text, List.nil_append, List.append_nil]
  exact ofText_numeral hw sign (List.forall_mem_nil _) (List.forall_mem_nil _) letter fits

theorem ofText_placed_append (n : Int) {places : Nat} {currency : String}
    (letter : ∀ c ∈ currency.toList.head?, c.isAlpha = true) (fits : places ≤ maxSigned32) :
    ofText ((placed n places).text ++ currency) =
      .ok ⟨(placed n places).text ++ currency, n, places, currency⟩ := by
  have h := ofText_text_append (d := placed n places) (signOf_ne_plus n) letter
  rw [numeric_placed, length_fraction_placed] at h
  exact h fits

/-- These are the amounts that are read from some text. -/
theorem readable_iff {a : Amount} :
    Readable a ↔ ∃ raw, ofText raw = .ok { a with text := raw } := by
  obtain ⟨text, n, exp, currency⟩ := a
  constructor
  · rintro ⟨nonneg, fits, letter⟩
    obtain ⟨places, rfl⟩ := Int.eq_ofNat_of_zero_le nonneg
    exact ⟨_, ofText_placed_append n letter (Int.ofNat_le.1 fits)⟩
  · rintro ⟨raw, h⟩
    cases hs : splitCurrency raw.toList with
    | mk value rest =>
      rw [ofText_of_splitCurrency hs] at h
      obtain ⟨⟨n', e'⟩, hr, hn⟩ := map_eq_ok.1 h
      obtain ⟨places, -, hle, rfl⟩ := readNumeric_eq_ok_iff.1 hr
      obtain ⟨-, -, rfl, rfl⟩ := Amount.mk.inj hn
      refine ⟨Int.natCast_nonneg places, Int.ofNat_le.2 hle, ?_⟩
      rw [String.toList_ofList]
      exact letter_of_splitCurrency hs

/-! ## Positional values -/

/-- A point before the last digits of a number divides it into its quotient and its remainder. -/
theorem placePoint_toDigits {n places : Nat} (pos : 0 < places) :
    placePoint (Nat.toDigits 10 n) places =
      Nat.toDigits 10 (n / 10 ^ places) ++ '.' :: lastDigits places n := by
  have hl := Nat.length_toDigits_le_iff (n := n) (b := 10) (by decide) pos
  unfold placePoint
  by_cases hn : 10 ^ places ≤ n
  · have hd := toDigits_eq_append hn
    have hk : (Nat.toDigits 10 n).length - places =
        (Nat.toDigits 10 (n / 10 ^ places)).length := by
      rw [hd, List.length_append, length_lastDigits, Nat.add_sub_cancel]
    rw [if_pos (by omega), hk, hd, List.take_left, List.drop_left]
  · rw [if_neg (by omega), Nat.div_eq_of_lt (by omega), lastDigits_of_lt pos (by omega)]
    rfl

/-- A magnitude without an exponent. -/
theorem magnitudeChars_of_le {n places : Nat}
    (h : places ≤ (Nat.toDigits 10 n).length + 5) :
    magnitudeChars n places = Nat.toDigits 10 (n / 10 ^ places) ++
      tailChars (pointTail (lastDigits places n)) := by
  unfold magnitudeChars leadingZeros
  dsimp only
  rw [if_neg (by omega)]
  rcases Nat.eq_zero_or_pos places with rfl | pos
  · rw [if_pos (by omega), Nat.pow_zero, Nat.div_one]
    rfl
  · rw [if_neg (by omega), Int.toNat_natCast, placePoint_toDigits pos, pointTail_lastDigits pos]
    rfl

theorem toList_valueText (a : Amount) : a.valueText.toList =
    (signOf a.numeric).chars ++
      magnitudeChars a.numeric.natAbs (if a.numeric = 0 then 0 else a.exp) := by
  unfold valueText
  dsimp only
  rw [String.toList_ofList, chars_signOf_append]

/-! ## Values with an exponent -/

theorem Decimal.divided_scientific (n : Int) : Divided n ((Nat.toDigits 10 n.natAbs).take 1)
    ((Nat.toDigits 10 n.natAbs).drop 1) where
  digit c hc := by
    rw [List.take_append_drop] at hc
    exact isDigit_of_mem_toDigits hc
  nonempty := by
    rw [List.take_append_drop]
    exact Nat.toDigits_ne_nil
  digits := by rw [List.take_append_drop, Nat.ofDigitChars_ten_toDigits]

/-- An integer with a point behind its first digit. -/
def Decimal.scientific (n : Int) : Decimal :=
  ofDivided n ((Nat.toDigits 10 n.natAbs).take 1) ((Nat.toDigits 10 n.natAbs).drop 1)
    (divided_scientific n)

theorem withExponent_eq (digits : List Char) (exponent : Int) : withExponent digits exponent =
    digits.take 1 ++ tailChars (pointTail (digits.drop 1)) ++
      'E' :: (integerText exponent).toList := by
  match digits with
  | [] => rfl
  | [d] => rfl
  | d :: e :: ds => rfl

/-- How many digits an integer has. -/
def digitCount (n : Int) : Nat :=
  (Nat.toDigits 10 n.natAbs).length

theorem Decimal.length_fraction_scientific (n : Int) :
    (scientific n).fraction.length = digitCount n - 1 := by
  unfold scientific digitCount
  rw [fraction_ofDivided, List.length_drop]

/-- The exponent of a value whose point is behind its first digit. -/
def scientificExponent (a : Amount) : Int :=
  digitCount a.numeric - a.exp - 1

theorem valueText_scientific {a : Amount} (hn : a.numeric ≠ 0)
    (h : (digitCount a.numeric : Int) + 5 < a.exp) :
    a.valueText = (scientific a.numeric).text ++ ("E" ++ integerText a.scientificExponent) := by
  unfold digitCount at h
  rw [← String.toList_inj, toList_valueText, if_neg hn]
  unfold magnitudeChars leadingZeros scientificExponent
  dsimp only
  rw [if_pos (by omega), withExponent_eq, String.toList_append, String.toList_append,
    Decimal.toList_text, scientific, chars_ofDivided]
  simp only [List.append_assoc]
  rfl

/-- With an exponent, the digits before it are read as a value and the rest as a currency. -/
theorem ofText_display_scientific {a : Amount} (h : Readable a) (hn : a.numeric ≠ 0)
    (hd : (digitCount a.numeric : Int) + 5 < a.exp) :
    ofText a.display = .ok ⟨a.display, a.numeric, (digitCount a.numeric - 1 : Nat),
      "E" ++ integerText a.scientificExponent ++ a.currency⟩ := by
  have ht : a.display =
      (scientific a.numeric).text ++ ("E" ++ integerText a.scientificExponent ++ a.currency) := by
    unfold display
    rw [valueText_scientific hn hd, String.append_assoc]
  have hl : ∀ c ∈ ("E" ++ integerText a.scientificExponent ++ a.currency).toList.head?,
      c.isAlpha = true := by
    rw [String.append_assoc, String.toList_append]
    rintro c ⟨⟩
    rfl
  have hfits : (scientific a.numeric).fraction.length ≤ maxSigned32 := by
    have he := h.fits
    rw [length_fraction_scientific]
    omega
  have hr := ofText_text_append (d := scientific a.numeric) (signOf_ne_plus a.numeric) hl hfits
  rw [← ht, length_fraction_scientific] at hr
  rw [hr, scientific, numeric_ofDivided]

/-! ## When an exponent is written -/

/-- A value so small that it is displayed with an exponent. -/
def Tiny (a : Amount) : Prop :=
  a.value ≠ 0 ∧ |a.value| < 1 / 10 ^ 6

/-- More than five zeros stand before the digits of a number exactly if it is below `10 ^ -6`. -/
theorem length_toDigits_add_lt_iff {n places : Nat} (pos : 0 < n) :
    (Nat.toDigits 10 n).length + 5 < places ↔ n * 10 ^ 6 < 10 ^ places := by
  rcases Nat.lt_or_ge 6 places with hp | hp
  · obtain ⟨k, rfl⟩ : ∃ k, places = k + 6 := ⟨places - 6, by omega⟩
    have hl := Nat.length_toDigits_le_iff (n := n) (b := 10) (k := k) (by decide) (by omega)
    rw [Nat.pow_add]
    omega
  · -- Neither holds: a digit and five zeros take six places, and a positive number is one at least.
    have hl : 0 < (Nat.toDigits 10 n).length := Nat.length_toDigits_pos
    have hle : 10 ^ places ≤ 10 ^ 6 := Nat.pow_le_pow_right (by decide) hp
    omega

theorem abs_div_lt_iff (n : Int) (places : Nat) :
    |(n : ℚ) / 10 ^ places| < 1 / 10 ^ 6 ↔ n.natAbs * 10 ^ 6 < 10 ^ places := by
  have hp : (0 : ℚ) < 10 ^ places := pow_pos (by decide) places
  have h6 : (0 : ℚ) < 10 ^ 6 := pow_pos (by decide) 6
  rw [abs_div, abs_of_pos hp, div_lt_div_iff₀ hp h6, one_mul, ← Int.cast_abs, Int.abs_eq_natAbs]
  norm_cast

theorem tiny_iff {a : Amount} (nonneg : 0 ≤ a.exp) :
    Tiny a ↔ a.numeric ≠ 0 ∧ (digitCount a.numeric : Int) + 5 < a.exp := by
  obtain ⟨text, n, exp, currency⟩ := a
  obtain ⟨places, rfl⟩ := Int.eq_ofNat_of_zero_le nonneg
  have hp : (10 : ℚ) ^ places ≠ 0 := pow_ne_zero places (by decide)
  have hv : value ⟨text, n, places, currency⟩ = (n : ℚ) / 10 ^ places := by
    unfold value
    rw [zpow_neg, zpow_natCast, div_eq_mul_inv]
  unfold Tiny
  rw [hv, abs_div_lt_iff, div_ne_zero_iff, Int.cast_ne_zero]
  simp only [hp, ne_eq, not_false_eq_true, and_true]
  refine and_congr_right fun hn => ?_
  rw [← length_toDigits_add_lt_iff (by omega)]
  unfold digitCount
  omega

/-! ## The displayed text -/

/-- Without an exponent, the text is read as the amount. Nothing has no places. -/
theorem ofText_display_placed {a : Amount} (h : Readable a) (hd : ¬Tiny a) :
    ofText a.display =
      .ok ⟨a.display, a.numeric, if a.numeric = 0 then 0 else a.exp, a.currency⟩ := by
  rw [tiny_iff h.nonneg] at hd
  -- The places that are shown, which the test on the notation has bounded by the digits.
  obtain ⟨places, hp⟩ : ∃ places : Nat, (if a.numeric = 0 then 0 else a.exp) = places := by
    split
    · exact ⟨0, rfl⟩
    · exact Int.eq_ofNat_of_zero_le h.nonneg
  have hle : places ≤ digitCount a.numeric + 5 ∧ places ≤ maxSigned32 := by
    have hf := h.fits
    split at hp
    · omega
    · omega
  have ht : a.display = (placed a.numeric places).text ++ a.currency := by
    unfold display
    rw [← String.toList_inj, String.toList_append, String.toList_append, toList_valueText, hp,
      magnitudeChars_of_le hle.1, Decimal.toList_text, placed, chars_ofDivided]
  rw [hp, ht]
  exact ofText_placed_append a.numeric h.letter hle.2

/-- The text of an amount is always read. Its currency and its value are given back exactly if the
value is not tiny. Of a tiny value the digits are given back, and its exponent is taken for the
beginning of the currency. -/
theorem display_read_back {a : Amount} (h : Readable a) :
    ∃ b, ofText a.display = .ok b ∧
      (b.currency = a.currency ∧ b.value = a.value ↔ ¬Tiny a) ∧
      (Tiny a → b.numeric = a.numeric ∧
        ∃ e : Int, b.currency = "E" ++ integerText e ++ a.currency ∧ e < -6 ∧
          a.value = b.value * 10 ^ e) := by
  by_cases ht : Tiny a
  · have hd := (tiny_iff h.nonneg).1 ht
    refine ⟨_, ofText_display_scientific h hd.1 hd.2, iff_of_false ?_ (not_not_intro ht),
      fun _ => ⟨rfl, a.scientificExponent, rfl, ?_, ?_⟩⟩
    · -- The currency that is read is longer by the exponent.
      rintro ⟨hc, -⟩
      have hl := congrArg String.length hc
      simp only [String.length_append] at hl
      have he : "E".length = 1 := rfl
      omega
    · unfold scientificExponent
      omega
    · have hc : 0 < digitCount a.numeric := Nat.length_toDigits_pos
      unfold value scientificExponent
      dsimp only
      rw [mul_assoc, ← zpow_add₀ (by decide)]
      congr 2
      omega
  · refine ⟨_, ofText_display_placed h ht, iff_of_true ⟨rfl, ?_⟩ ht, fun hc => absurd hc ht⟩
    unfold value
    dsimp only
    split
    · rename_i hn
      rw [hn, Int.cast_zero, zero_mul, zero_mul]
    · rfl

theorem display_read_back_edge :
    Readable ⟨"0,0000010x", 10, 7, "x"⟩ ∧ ¬Tiny ⟨"0,0000010x", 10, 7, "x"⟩ ∧
    display ⟨"0,0000010x", 10, 7, "x"⟩ = "0.0000010x" ∧
    (∃ b, ofText "0.0000010x" = .ok b ∧ b.currency = "x" ∧
      b.value = value ⟨"0,0000010x", 10, 7, "x"⟩) ∧
    Readable ⟨"-.00000012", -12, 8, ""⟩ ∧ Tiny ⟨"-.00000012", -12, 8, ""⟩ ∧
    display ⟨"-.00000012", -12, 8, ""⟩ = "-1.2E-7" ∧
    ∃ b, ofText "-1.2E-7" = .ok b ∧ b.numeric = -12 ∧
      ¬(b.currency = "" ∧ b.value = value ⟨"-.00000012", -12, 8, ""⟩) := by
  have hr : Readable ⟨"0,0000010x", 10, 7, "x"⟩ := readable_iff.2 ⟨"0,0000010x", rfl⟩
  have ht : ¬Tiny ⟨"0,0000010x", 10, 7, "x"⟩ := by
    rw [tiny_iff (by decide)]
    decide
  have hs : display ⟨"0,0000010x", 10, 7, "x"⟩ = "0.0000010x" := by rfl
  have hr' : Readable ⟨"-.00000012", -12, 8, ""⟩ := readable_iff.2 ⟨"-.00000012", rfl⟩
  have ht' : Tiny ⟨"-.00000012", -12, 8, ""⟩ := by
    rw [tiny_iff (by decide)]
    decide
  have hs' : display ⟨"-.00000012", -12, 8, ""⟩ = "-1.2E-7" := by rfl
  obtain ⟨b, hb, hback, -⟩ := display_read_back hr
  obtain ⟨b', hb', hback', hdigits⟩ := display_read_back hr'
  exact ⟨hr, ht, hs, ⟨b, hs ▸ hb, hback.2 ht⟩, hr', ht', hs', b', hs' ▸ hb', (hdigits ht').1,
    fun hc => hback'.1 hc ht'⟩

theorem display_read_amiss :
    ofText "0.0000001uatom" = .ok ⟨"0.0000001uatom", 1, 7, "uatom"⟩ ∧
    display ⟨"0.0000001uatom", 1, 7, "uatom"⟩ = "1E-7uatom" ∧
    ofText "1E-7uatom" = .ok ⟨"1E-7uatom", 1, 0, "E-7uatom"⟩ ∧
    "E-7uatom" ≠ "uatom" ∧
    value ⟨"1E-7uatom", 1, 0, "E-7uatom"⟩ ≠ value ⟨"0.0000001uatom", 1, 7, "uatom"⟩ := by
  refine ⟨rfl, rfl, rfl, by decide, ?_⟩
  unfold value
  norm_num

end ChainIndexer.Amount
