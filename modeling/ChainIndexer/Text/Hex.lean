/-
  Hexadecimal text of bytes.

  Each byte is two digits, the high half first. Reading takes digits of either case and refuses
  an odd number of them.
-/

namespace ChainIndexer.Text

/-- Byte strings, as lists. -/
abbrev Bytes := List UInt8

/-- The digits of a half byte in the given alphabet. -/
def hexDigits (upper : Bool) : List Char :=
  if upper then "0123456789ABCDEF".toList else "0123456789abcdef".toList

/-- The two digits of a byte. -/
def hexByte (upper : Bool) (b : UInt8) : List Char :=
  [(hexDigits upper).getD (b.toNat / 16) '0', (hexDigits upper).getD (b.toNat % 16) '0']

/-- Bytes in lower case. -/
def hexLower (bs : Bytes) : String :=
  String.ofList (bs.flatMap (hexByte false))

/-- Bytes in upper case. -/
def hexUpper (bs : Bytes) : String :=
  String.ofList (bs.flatMap (hexByte true))

/-- The value of a hexadecimal digit. -/
def hexValue? (c : Char) : Option Nat :=
  if '0' ≤ c ∧ c ≤ '9' then some (c.toNat - '0'.toNat)
  else if 'a' ≤ c ∧ c ≤ 'f' then some (c.toNat - 'a'.toNat + 10)
  else if 'A' ≤ c ∧ c ≤ 'F' then some (c.toNat - 'A'.toNat + 10)
  else none

/-- The bytes that a text of hexadecimal digits writes. -/
def readHex? : List Char → Option Bytes
  | [] => some []
  | [_] => none
  | h :: l :: cs => do
    let hi ← hexValue? h
    let lo ← hexValue? l
    let rest ← readHex? cs
    return UInt8.ofNat (hi * 16 + lo) :: rest

example : hexUpper [10, 255, 16] = "0AFF10" := by decide +kernel

end ChainIndexer.Text
