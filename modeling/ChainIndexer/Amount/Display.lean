import ChainIndexer.Amount.Basic

/-
  The text of an amount for a reader.

  The value is written positionally, with as many places as the exponent says. A value below
  `10 ^ -6` with more than five zeros before its first digit is written with an exponent. The
  currency follows without a blank.
-/

namespace ChainIndexer.Amount

open Text

/-- How many zeros may stand before the first digit. -/
def leadingZeros : Int := 5

/-- Digits with the point before the last `places` of them. -/
def placePoint (digits : List Char) (places : Nat) : List Char :=
  if places < digits.length then
    digits.take (digits.length - places) ++ '.' :: digits.drop (digits.length - places)
  else '0' :: '.' :: (List.replicate (places - digits.length) '0' ++ digits)

/-- One digit, the point and the other digits, and the exponent. -/
def withExponent (digits : List Char) (exponent : Int) : List Char :=
  (match digits with
   | [] => []
   | [d] => [d]
   | d :: ds => d :: '.' :: ds) ++ 'E' :: (integerText exponent).toList

/-- The magnitude `n * 10 ^ -scale`. -/
def magnitudeChars (n : Nat) (scale : Int) : List Char :=
  let digits := Nat.toDigits 10 n
  if scale - digits.length > leadingZeros then withExponent digits (digits.length - scale - 1)
  else if scale ≤ 0 then digits ++ List.replicate scale.natAbs '0'
  else placePoint digits scale.toNat

/-- The value of an amount. Nothing has no places. -/
def valueText (a : Amount) : String :=
  let chars := magnitudeChars a.numeric.natAbs (if a.numeric = 0 then 0 else a.exp)
  String.ofList (if a.numeric < 0 then '-' :: chars else chars)

/-- The value and the currency. -/
def display (a : Amount) : String :=
  a.valueText ++ a.currency

example : display ⟨"", 15, 7, "x"⟩ = "0.0000015x" := by cbv
example : display ⟨"", 1, 7, "x"⟩ = "1E-7x" := by cbv
example : display ⟨"", -1205, 2, ""⟩ = "-12.05" := by cbv

end ChainIndexer.Amount
