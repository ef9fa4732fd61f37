import ChainIndexer.Text.Hex

/-
  Base64 with the standard alphabet and padding.

  Three bytes are four digits. One or two bytes at the end are two or three digits and fill up
  with `=`. Reading is strict: the padding is required, nothing may follow it, and the bits that
  the last digit has to spare are zero, so that each text which reads is the one that is written.
-/

namespace ChainIndexer.Text

/-! ## Digits -/

/-- The digits, by value. -/
def base64Digits : List Char :=
  "ABCDEFGHIJKLMNOPQRSTUVWXYZabcdefghijklmnopqrstuvwxyz0123456789+/".toList

/-- The digit of a value below 64. -/
def base64Digit (n : Nat) : Char :=
  base64Digits.getD n 'A'

/-- The value of a digit. -/
def base64Value? (c : Char) : Option Nat :=
  if 'A' ≤ c ∧ c ≤ 'Z' then some (c.toNat - 'A'.toNat)
  else if 'a' ≤ c ∧ c ≤ 'z' then some (c.toNat - 'a'.toNat + 26)
  else if '0' ≤ c ∧ c ≤ '9' then some (c.toNat - '0'.toNat + 52)
  else if c = '+' then some 62
  else if c = '/' then some 63
  else none

/-! ## Writing -/

/-- The digits of a byte string, with padding. -/
def base64Chars : Bytes → List Char
  | [] => []
  | [a] =>
    let n := a.toNat * 16
    [base64Digit (n / 64), base64Digit (n % 64), '=', '=']
  | [a, b] =>
    let n := (a.toNat * 256 + b.toNat) * 4
    [base64Digit (n / 4096), base64Digit (n / 64 % 64), base64Digit (n % 64), '=']
  | a :: b :: c :: rest =>
    let n := (a.toNat * 256 + b.toNat) * 256 + c.toNat
    base64Digit (n / 262144) :: base64Digit (n / 4096 % 64) :: base64Digit (n / 64 % 64)
      :: base64Digit (n % 64) :: base64Chars rest

/-- The text of a byte string. -/
def base64 (bs : Bytes) : String :=
  String.ofList (base64Chars bs)

/-! ## Reading -/

/-- The byte of two last digits. -/
def readBase64One? (a b : Char) : Option Bytes := do
  let x ← base64Value? a
  let y ← base64Value? b
  if y % 16 = 0 then return [UInt8.ofNat (x * 4 + y / 16)] else none

/-- The bytes of three last digits. -/
def readBase64Two? (a b c : Char) : Option Bytes := do
  let x ← base64Value? a
  let y ← base64Value? b
  let z ← base64Value? c
  let n := (x * 64 + y) * 64 + z
  if z % 4 = 0 then return [UInt8.ofNat (n / 1024), UInt8.ofNat (n / 4 % 256)] else none

/-- The bytes of four digits. -/
def readBase64Three? (a b c d : Char) : Option Bytes := do
  let x ← base64Value? a
  let y ← base64Value? b
  let z ← base64Value? c
  let w ← base64Value? d
  let n := ((x * 64 + y) * 64 + z) * 64 + w
  return [UInt8.ofNat (n / 65536), UInt8.ofNat (n / 256 % 256), UInt8.ofNat (n % 256)]

/-- The bytes that a text writes. -/
def readBase64Chars? : List Char → Option Bytes
  | [] => some []
  | [a, b, '=', '='] => readBase64One? a b
  | [a, b, c, '='] => readBase64Two? a b c
  | a :: b :: c :: d :: rest => do
    let bytes ← readBase64Three? a b c d
    let more ← readBase64Chars? rest
    return bytes ++ more
  | _ => none

/-- The byte string of a text. -/
def readBase64? (s : String) : Option Bytes :=
  readBase64Chars? s.toList

example : base64 [1, 2, 3, 4] = "AQIDBA==" := by decide +kernel
example : readBase64? "AQJ=" = none := by decide +kernel

end ChainIndexer.Text
