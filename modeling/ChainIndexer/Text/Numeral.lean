/-
  Integers written in decimal.

  `readInteger` reads an integer of any size: at most one sign in front, then digits, with
  underscores allowed between and after them but not first. `readWord` reads a number of a fixed
  width: an optional plus sign and digits, refused at the first digit that leads past the limit.
  `Int.text` and `Nat.repr` write them back.
-/

namespace ChainIndexer.Text

/-- Why a text is no number of the wanted kind. -/
inductive NumeralFault where
  | empty
  | invalidDigit
  | tooLarge
  | tooSmall
  deriving DecidableEq

/-- The wording of a fault. -/
def NumeralFault.message : NumeralFault → String
  | empty => "cannot parse integer from empty string"
  | invalidDigit => "invalid digit found in string"
  | tooLarge => "number too large to fit in target type"
  | tooSmall => "number too small to fit in target type"

/-! ## Integers of any size -/

/-- The value of a text of digits and underscores; underscores are skipped. -/
def readDigits (cs : List Char) : Except NumeralFault Nat :=
  let digits := cs.filter (· != '_')
  if digits.all Char.isDigit then .ok (Nat.ofDigitChars 10 digits 0) else .error .invalidDigit

/-- A magnitude: not empty, and its first character is a digit. -/
def readMagnitude : List Char → Except NumeralFault Nat
  | [] => .error .empty
  | c :: cs => if c = '_' then .error .invalidDigit else readDigits (c :: cs)

/-- An integer with at most one sign in front. -/
def readInteger : List Char → Except NumeralFault Int
  | '-' :: cs => (readMagnitude cs).map fun n => -(n : Int)
  | '+' :: cs => (readMagnitude cs).map Int.ofNat
  | cs => (readMagnitude cs).map Int.ofNat

/-- The decimal text of an integer. -/
def integerText (z : Int) : String :=
  if z < 0 then "-" ++ z.natAbs.repr else z.natAbs.repr

/-! ## Numbers of a fixed width -/

/-- Reads further digits after `acc`, which is at most `limit`. -/
def readWordDigits (limit : Nat) : List Char → Nat → Except NumeralFault Nat
  | [], acc => .ok acc
  | c :: cs, acc =>
    if c.isDigit then
      let next := acc * 10 + (c.toNat - '0'.toNat)
      if next ≤ limit then readWordDigits limit cs next else .error .tooLarge
    else .error .invalidDigit

/-- A number from 0 to `limit`, with an optional plus sign. -/
def readWord (limit : Nat) : List Char → Except NumeralFault Nat
  | [] => .error .empty
  | ['+'] => .error .invalidDigit
  | '+' :: cs => readWordDigits limit cs 0
  | cs => readWordDigits limit cs 0

/-- The largest number of 16 bits. -/
def maxWord16 : Nat := 0xFFFF

/-- The largest number of 32 bits. -/
def maxWord32 : Nat := 0xFFFFFFFF

/-- The largest number of 64 bits. -/
def maxWord64 : Nat := 0xFFFFFFFFFFFFFFFF

/-- The largest signed number of 32 bits. -/
def maxSigned32 : Nat := 0x7FFFFFFF

/-- The largest signed number of 64 bits. -/
def maxSigned64 : Nat := 0x7FFFFFFFFFFFFFFF

/-! ## Narrowing -/

/-- A signed number as a number without sign. -/
def toUnsigned (z : Int) : Except NumeralFault Nat :=
  if z < 0 then .error .tooSmall else .ok z.toNat

/-- A number that has to fit under a limit. -/
def narrow (limit n : Nat) : Except NumeralFault Nat :=
  if n ≤ limit then .ok n else .error .tooLarge

example : readInteger "-1_0_".toList = .ok (-10) := by cbv
example : readInteger "+-1".toList = .error .invalidDigit := by cbv
example : readInteger "-".toList = .error .empty := by cbv

end ChainIndexer.Text
