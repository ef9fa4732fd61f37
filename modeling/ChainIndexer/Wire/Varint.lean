import ChainIndexer.Text.Hex

/-
  Varints and keys of the wire format.

  A varint holds a number below `2 ^ 64` in groups of seven bits, the lowest first; the high bit of
  a byte says that another group follows. A key is a varint that holds the tag of a field and the
  form of its value. Readers give the rest of their input.
-/

namespace ChainIndexer.Wire

open Text

/-! ## Faults -/

/-- The form of a value. -/
inductive WireType where
  | varint
  | sixtyFourBit
  | lengthDelimited
  | startGroup
  | endGroup
  | thirtyTwoBit
  deriving DecidableEq

/-- The name of a form. -/
def WireType.name : WireType → String
  | varint => "Varint"
  | sixtyFourBit => "SixtyFourBit"
  | lengthDelimited => "LengthDelimited"
  | startGroup => "StartGroup"
  | endGroup => "EndGroup"
  | thirtyTwoBit => "ThirtyTwoBit"

/-- The form of a number from 0 to 5. -/
def WireType.ofNat? : Nat → Option WireType
  | 0 => some varint
  | 1 => some sixtyFourBit
  | 2 => some lengthDelimited
  | 3 => some startGroup
  | 4 => some endGroup
  | 5 => some thirtyTwoBit
  | _ => none

/-- What can be wrong with the bytes of a message. -/
inductive Cause where
  | varint
  | key (key : Nat)
  | wireTypeValue (value : Nat)
  | zeroTag
  | wireType (found expected : WireType)
  | underflow
  | notUtf8
  | recursion
  | lengthExceeded
  | endGroup
  deriving DecidableEq

/-- The wording of a cause. -/
def Cause.message : Cause → String
  | varint => "invalid varint"
  | key k => "invalid key value: " ++ k.repr
  | wireTypeValue v => "invalid wire type value: " ++ v.repr
  | zeroTag => "invalid tag value: 0"
  | wireType found expected =>
    "invalid wire type: " ++ found.name ++ " (expected " ++ expected.name ++ ")"
  | underflow => "buffer underflow"
  | notUtf8 => "invalid string value: data is not UTF-8 encoded"
  | recursion => "recursion limit reached"
  | lengthExceeded => "delimited length exceeded"
  | endGroup => "unexpected end group tag"

/-- A cause with the fields that enclose it, the innermost first. -/
structure Fault where
  path : List String
  cause : Cause
  deriving DecidableEq

/-- The wording of a fault. -/
def Fault.message (f : Fault) : String :=
  "failed to decode Protobuf message: " ++ String.join (f.path.map (· ++ ": ")) ++ f.cause.message

/-! ## Varints -/

/-- The bytes of a number, in the fewest groups. -/
def writeVarint (n : Nat) : Bytes :=
  if n < 128 then [UInt8.ofNat n] else UInt8.ofNat (n % 128 + 128) :: writeVarint (n / 128)

/-- A varint of which `place` bytes have been read. The tenth byte may only hold one bit. -/
def readVarintAt : Nat → Bytes → Except Cause (Nat × Bytes)
  | _, [] => .error .varint
  | place, b :: rest =>
    if place = 9 then if b.toNat < 2 then .ok (b.toNat, rest) else .error .varint
    else if b.toNat < 128 then .ok (b.toNat, rest)
    else do
      let (n, rest) ← readVarintAt (place + 1) rest
      return (b.toNat - 128 + 128 * n, rest)

/-- A varint. -/
def readVarint (bs : Bytes) : Except Cause (Nat × Bytes) :=
  readVarintAt 0 bs

/-! ## Keys -/

/-- The number of a form. -/
def WireType.toNat : WireType → Nat
  | varint => 0
  | sixtyFourBit => 1
  | lengthDelimited => 2
  | startGroup => 3
  | endGroup => 4
  | thirtyTwoBit => 5

/-- The key of a field. -/
def writeKey (tag : Nat) (form : WireType) : Bytes :=
  writeVarint (tag * 8 + form.toNat)

/-- The tag and the form of a key. -/
def readKey (bs : Bytes) : Except Cause ((Nat × WireType) × Bytes) := do
  let (key, rest) ← readVarint bs
  if 0x100000000 ≤ key then throw (.key key)
  match WireType.ofNat? (key % 8) with
  | none => throw (.wireTypeValue (key % 8))
  | some form =>
    if key / 8 = 0 then throw .zeroTag
    return ((key / 8, form), rest)

/-! ## Delimited bytes -/

/-- The length of the bytes and the bytes. -/
def writeDelimited (bs : Bytes) : Bytes :=
  writeVarint bs.length ++ bs

/-- A length that the input can hold. -/
def readLength (bs : Bytes) : Except Cause (Nat × Bytes) := do
  let (n, rest) ← readVarint bs
  if rest.length < n then throw .underflow
  return (n, rest)

/-- The first `n` bytes, which the input has to hold. -/
def readExact (n : Nat) (bs : Bytes) : Except Cause (Bytes × Bytes) :=
  if bs.length < n then .error .underflow else .ok (bs.take n, bs.drop n)

/-! ## Skipping -/

mutual

/-- The input behind a value that nobody reads. -/
def skipValue : Nat → Nat → WireType → Nat → Bytes → Except Cause Bytes
  | 0, _, _, _, _ => .error .underflow
  | fuel + 1, depth, form, tag, bs =>
    if depth = 0 then .error .recursion
    else match form with
      | .varint => (readVarint bs).map (·.2)
      | .thirtyTwoBit => (readExact 4 bs).map (·.2)
      | .sixtyFourBit => (readExact 8 bs).map (·.2)
      | .lengthDelimited => do
        let (n, rest) ← readLength bs
        return rest.drop n
      | .startGroup => skipGroup fuel depth tag bs
      | .endGroup => .error .endGroup

/-- The input behind the end of a group. -/
def skipGroup : Nat → Nat → Nat → Bytes → Except Cause Bytes
  | 0, _, _, _ => .error .underflow
  | fuel + 1, depth, tag, bs => do
    let ((inner, form), rest) ← readKey bs
    if form = .endGroup then
      if inner = tag then return rest else throw .endGroup
    else
      let rest ← skipValue fuel (depth - 1) form inner rest
      skipGroup fuel depth tag rest

end

example : writeVarint 300 = [172, 2] := by decide +kernel
example : readVarint [172, 2, 7] = .ok (300, [7]) := rfl

end ChainIndexer.Wire
