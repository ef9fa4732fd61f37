import ChainIndexer.Number.Binary64
import ChainIndexer.Text.Numeral

/-
  The shortest decimal of a binary number.

  Among the decimals with the fewest digits that round to a number, `shortest` takes the nearest. It
  tries one digit, two digits and so on; on each grid only the two neighbours of the number can come
  into question. The digits are written positionally, always with a fraction, or with an exponent
  where the number is very large or very small.
-/

namespace ChainIndexer.Number.Binary64

/-! ## Digits -/

/-- The decimal exponent of the leading digit of a positive magnitude. -/
def leadingTen (x : Binary64) : Int :=
  let n := x.numerator
  let d := x.denominator
  let guess : Int := ((Nat.toDigits 10 n).length : Int) - ((Nat.toDigits 10 d).length : Int)
  if d * Nat.pow 10 guess.toNat ≤ n * Nat.pow 10 (-guess).toNat then guess else guess - 1

/-- Whether `digits * 10 ^ exponent` rounds to the magnitude of the number. -/
def roundsTo (x : Binary64) (digits : Nat) (exponent : Int) : Bool :=
  roundRatio x.negative (digits * Nat.pow 10 exponent.toNat) (Nat.pow 10 (-exponent).toNat) ==
    some x

/-- The neighbour of the number on the grid of `10 ^ exponent` that rounds to it; of two the nearer,
and of two that are as near the even one. -/
def onGrid? (x : Binary64) (exponent : Int) : Option Nat :=
  let n := x.numerator * Nat.pow 10 (-exponent).toNat
  let d := x.denominator * Nat.pow 10 exponent.toNat
  let low := n / d
  let near := roundDiv n d
  if x.roundsTo near exponent then some near
  else if x.roundsTo low exponent then some low
  else if x.roundsTo (low + 1) exponent then some (low + 1)
  else none

/-- The first grid with a hit, from `count` digits on, among `fuel` many. -/
def searchGrid (x : Binary64) (lead : Int) : Nat → Nat → Nat × Int
  | 0, _ => (x.numerator * Nat.pow 10 1074 / x.denominator, -1074)
  | fuel + 1, count =>
    let exponent := lead - count
    match x.onGrid? exponent with
    | some digits => (digits, exponent)
    | none => searchGrid x lead fuel (count + 1)

/-- The digits and the exponent of the shortest decimal. -/
def shortest (x : Binary64) : Nat × Int :=
  if x.mantissa = 0 then (0, 0) else searchGrid x x.leadingTen 17 0

/-- Digits without zeros at the end, and their exponent. -/
def stripZeros : List Char → Int → List Char × Int
  | cs, e =>
    let kept := (cs.reverse.dropWhile (· == '0')).reverse
    (kept, e + (cs.length - kept.length : Nat))

/-- The digits of the shortest decimal without zeros at the end, and their exponent. -/
def shortestDigits (x : Binary64) : List Char × Int :=
  let (digits, exponent) := x.shortest
  if digits = 0 then (['0'], 0) else stripZeros (Nat.toDigits 10 digits) exponent

/-! ## Texts -/

/-- The digits with the point in its place, and at least one digit on each side of it. -/
def pointedDigits (digits : List Char) (exponent : Int) : List Char :=
  let place : Int := digits.length + exponent
  if 0 ≤ exponent then digits ++ List.replicate exponent.toNat '0' ++ ['.', '0']
  else if 0 < place then digits.take place.toNat ++ '.' :: digits.drop place.toNat
  else '0' :: '.' :: (List.replicate (-place).toNat '0' ++ digits)

/-- A minus sign in front of a negative number. -/
def signed (x : Binary64) (cs : List Char) : String :=
  String.ofList (if x.negative then '-' :: cs else cs)

/-- The number with an exponent: one digit, and the others behind a point. -/
def scientificChars (digits : List Char) (exponent : Int) : List Char :=
  let mantissa := match digits with
    | [] => []
    | [d] => [d]
    | d :: ds => d :: '.' :: ds
  mantissa ++ 'e' :: (Text.integerText (digits.length + exponent - 1)).toList

/-- The number in a document: positional from `10 ^ -5` up to below `10 ^ 16`, else with an
exponent. -/
def text (x : Binary64) : String :=
  let (digits, exponent) := x.shortestDigits
  let place : Int := digits.length + exponent
  if -5 < place ∧ place ≤ 16 then x.signed (pointedDigits digits exponent)
  else x.signed (scientificChars digits exponent)

example : (ofScaled false 15 (-1)).map text = some "1.5" := by decide +kernel
example : (ofScaled false 1 2).map text = some "100.0" := by decide +kernel
example : (ofScaled true 5 (-324)).map text = some "-5e-324" := by decide +kernel

end ChainIndexer.Number.Binary64
