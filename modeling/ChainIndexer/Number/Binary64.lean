/-
  Binary floating-point numbers of 64 bits, as exact data.

  A finite number is a sign and `mantissa * 2 ^ exponent` in its canonical form. `roundRatio` takes
  a quotient of natural numbers to the nearest of them, a tie to the even mantissa, and refuses what
  lies beyond the largest. Products and quotients are rounded once from their exact value.
-/

namespace ChainIndexer.Number

/-- The canonical form of a magnitude: 53 bits, and fewer only at the least exponent. -/
def Canonical (mantissa : Nat) (exponent : Int) : Prop :=
  mantissa < 0x20000000000000 ∧ -1074 ≤ exponent ∧ exponent ≤ 971
    ∧ (0x10000000000000 ≤ mantissa ∨ exponent = -1074)

instance (m : Nat) (e : Int) : Decidable (Canonical m e) := by
  unfold Canonical; infer_instance

/-- A finite number of 64 bits. -/
structure Binary64 where
  negative : Bool
  mantissa : Nat
  exponent : Int
  canonical : Canonical mantissa exponent

instance : DecidableEq Binary64 := fun a b =>
  if h : a.negative = b.negative ∧ a.mantissa = b.mantissa ∧ a.exponent = b.exponent then
    .isTrue (by cases a; cases b; simp_all)
  else .isFalse (by rintro rfl; exact h ⟨rfl, rfl, rfl⟩)

namespace Binary64

/-- Zero with a sign. -/
def zero (negative : Bool) : Binary64 :=
  ⟨negative, 0, -1074, by decide⟩

/-- The number of the given parts, if they are canonical. -/
def ofParts? (negative : Bool) (mantissa : Nat) (exponent : Int) : Option Binary64 :=
  if h : Canonical mantissa exponent then some ⟨negative, mantissa, exponent, h⟩ else none

/-- The numerator of the magnitude. -/
def numerator (x : Binary64) : Nat :=
  x.mantissa * Nat.pow 2 x.exponent.toNat

/-- The denominator of the magnitude. -/
def denominator (x : Binary64) : Nat :=
  Nat.pow 2 (-x.exponent).toNat

/-! ## Rounding -/

/-- The quotient rounded to the nearest integer, a half to the even one. -/
def roundDiv (n d : Nat) : Nat :=
  let q := n / d
  let r := n % d
  if 2 * r < d then q else if d < 2 * r then q + 1 else if q % 2 = 0 then q else q + 1

/-- The place of the leading bit of the quotient of two positive numbers. -/
def leadingBit (n d : Nat) : Int :=
  let k : Int := (n.log2 : Int) - (d.log2 : Int)
  if d * Nat.pow 2 k.toNat ≤ n * Nat.pow 2 (-k).toNat then k else k - 1

/-- The number nearest to a quotient, or none beyond the largest. -/
def roundRatio (negative : Bool) (n d : Nat) : Option Binary64 :=
  if n = 0 then some (zero negative)
  else
    let e := max (leadingBit n d - 52) (-1074)
    let m := roundDiv (n * Nat.pow 2 (-e).toNat) (d * Nat.pow 2 e.toNat)
    if m < 0x20000000000000 then ofParts? negative m e else ofParts? negative (m / 2) (e + 1)

/-- The product, or none if it is too large. -/
def mul (x y : Binary64) : Option Binary64 :=
  roundRatio (x.negative != y.negative) (x.numerator * y.numerator) (x.denominator * y.denominator)

/-- The quotient by a number other than zero, or none if it is too large. -/
def div (x y : Binary64) : Option Binary64 :=
  roundRatio (x.negative != y.negative) (x.numerator * y.denominator) (x.denominator * y.numerator)

/-! ## Scaling by powers of ten -/

/-- The largest power of ten that is used in one step. -/
def powerLimit : Nat := 308

/-- The number nearest to a power of ten. -/
def powerOfTen (k : Nat) : Binary64 :=
  (roundRatio false (Nat.pow 10 k) 1).getD (zero false)

/-- Divides `steps` times by the largest power, and stops at zero. -/
def shrink : Nat → Binary64 → Binary64
  | 0, x => x
  | steps + 1, x =>
    if x.mantissa = 0 then x
    else shrink steps ((x.div (powerOfTen powerLimit)).getD x)

/-- The number `significand * 10 ^ exponent`: the significand is rounded, then scaled by a rounded
power of ten and rounded again. A negative exponent beyond the limit takes several steps. -/
def ofScaled (negative : Bool) (significand : Nat) (exponent : Int) : Option Binary64 := do
  let x ← roundRatio negative significand 1
  if significand = 0 then return x
  else if exponent ≥ 0 then
    if exponent.toNat ≤ powerLimit then x.mul (powerOfTen exponent.toNat) else none
  else
    let k := exponent.natAbs
    let steps := (k - 1) / powerLimit
    (shrink steps x).div (powerOfTen (k - powerLimit * steps))

example : (ofScaled false 15 (-1)).map (fun x => (x.mantissa, x.exponent))
    = some (0x18000000000000, -52) := by decide +kernel

end Binary64

end ChainIndexer.Number
