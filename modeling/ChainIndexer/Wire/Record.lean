import ChainIndexer.Wire.Varint
import ChainIndexer.Wire.Schema

/-
  Messages as the fields that stand in them.

  A record lists the present fields of a message in ascending order of their tags. A number that is
  zero, a flag that is false and an empty text or byte string stand in no record, except under a
  tag that may stand several times; a part that is present stands even when it holds nothing.
  `encode` writes a record. `decode` reads one: a later value replaces an earlier one, a later part
  is merged into an earlier one, unknown fields are passed over.
-/

namespace ChainIndexer.Wire

open Text

/-- A field that stands in a message. Numbers are words of 64 bits. -/
inductive Field where
  | word (tag : Nat) (value : Nat)
  | text (tag : Nat) (value : String)
  | bytes (tag : Nat) (value : Bytes)
  | message (tag : Nat) (fields : List Field)

/-- The fields of a message. -/
abbrev Record := List Field

namespace Field

/-- The tag of a field. -/
def tag : Field → Nat
  | word tag _ => tag
  | text tag _ => tag
  | bytes tag _ => tag
  | message tag _ => tag

/-- Whether the value is the one that an absent field has. -/
def isDefault : Field → Bool
  | word _ value => value == 0
  | text _ value => value == ""
  | bytes _ value => value == []
  | message _ _ => false

end Field

/-! ## Writing -/

mutual

/-- The bytes of a field. -/
def encodeField : Field → Bytes
  | .word tag value => writeKey tag .varint ++ writeVarint value
  | .text tag value => writeKey tag .lengthDelimited ++ writeDelimited value.toUTF8.toList
  | .bytes tag value => writeKey tag .lengthDelimited ++ writeDelimited value
  | .message tag fields => writeKey tag .lengthDelimited ++ writeDelimited (encode fields)

/-- The bytes of a record. -/
def encode : List Field → Bytes
  | [] => []
  | f :: fs => encodeField f ++ encode fs

end

/-! ## Building records -/

/-- Adds a field behind those with a tag that is not larger. -/
def insertField (f : Field) : Record → Record
  | [] => [f]
  | g :: rest => if g.tag ≤ f.tag then g :: insertField f rest else f :: g :: rest

/-- Adds a value that was read. -/
def storeField (rule : FieldRule) (f : Field) (record : Record) : Record :=
  match rule.label with
  | .repeated => insertField f record
  | .single =>
    let others := record.filter fun g => g.tag ≠ rule.tag
    if f.isDefault then others else insertField f others
  | .choice _ tags => insertField f (record.filter fun g => !tags.contains g.tag)

/-- The part into which a part of the same tag is merged. -/
def partBefore (rule : FieldRule) (record : Record) : Record :=
  match rule.label with
  | .repeated => []
  | _ => (record.findSome? fun
      | .message tag fields => if tag = rule.tag then some fields else none
      | _ => none).getD []

/-! ## Reading -/

/-- A word as its field keeps it. -/
def narrowWord : Content → Nat → Nat
  | .word32, n => n % 0x100000000
  | .signed32, n =>
    let low := n % 0x100000000
    if low < 0x80000000 then low else low + 0xFFFFFFFF00000000
  | .flag, n => if n = 0 then 0 else 1
  | _, n => n

/-- The form in which a content is written. -/
def Content.wireType : Content → WireType
  | .text | .bytes | .message _ => .lengthDelimited
  | _ => .varint

/-- The text of bytes in UTF-8. -/
def textOfBytes? (bs : Bytes) : Option String :=
  String.fromUTF8? ⟨bs.toArray⟩

/-- How deep messages and groups may be nested. -/
def depthLimit : Nat := 100

/-- Names the field in which a fault arose. -/
def within (place : String) : Except Fault α → Except Fault α :=
  Except.mapError fun f => ⟨f.path ++ [place], f.cause⟩

/-- A cause outside of any field. -/
def bare : Except Cause α → Except Fault α :=
  Except.mapError fun c => ⟨[], c⟩

/-- Reads a value that is no message. -/
def readPlain (rule : FieldRule) (form : WireType) (bs : Bytes) : Except Cause (Field × Bytes) := do
  if form ≠ rule.content.wireType then throw (.wireType form rule.content.wireType)
  match rule.content with
  | .text =>
    let (n, rest) ← readLength bs
    match textOfBytes? (rest.take n) with
    | some s => return (.text rule.tag s, rest.drop n)
    | none => throw .notUtf8
  | .bytes =>
    let (n, rest) ← readLength bs
    return (.bytes rule.tag (rest.take n), rest.drop n)
  | content =>
    let (n, rest) ← readVarint bs
    return (.word rule.tag (narrowWord content n), rest)

/-- Checks the form and the depth of a message, and reads its length. -/
def readPartLength (depth : Nat) (form : WireType) (bs : Bytes) : Except Cause (Nat × Bytes) := do
  if form ≠ .lengthDelimited then throw (.wireType form .lengthDelimited)
  if depth = 0 then throw .recursion
  readLength bs

/-- Reads fields into `record` until no more than `stop` bytes are left, which then have to be
exactly as many. -/
def readFields : Nat → MessageType → Nat → Nat → Record → Bytes → Except Fault (Record × Bytes)
  | 0, _, _, _, _, _ => .error ⟨[], .underflow⟩
  | fuel + 1, type, depth, stop, record, bs =>
    if bs.length ≤ stop then
      if bs.length = stop then .ok (record, bs) else .error ⟨[], .lengthExceeded⟩
    else do
      let ((tag, form), rest) ← bare (readKey bs)
      match type.rule? tag with
      | none =>
        let rest ← bare (skipValue (2 * rest.length + 2) depth form tag rest)
        readFields fuel type depth stop record rest
      | some rule =>
        match rule.content with
        | .message part =>
          let (fields, rest) ← within (type.place rule) do
            let (n, rest) ← bare (readPartLength depth form rest)
            readFields fuel part (depth - 1) (rest.length - n) (partBefore rule record) rest
          readFields fuel type depth stop (storeField rule (.message tag fields) record) rest
        | _ =>
          let (f, rest) ← within (type.place rule) (bare (readPlain rule form rest))
          readFields fuel type depth stop (storeField rule f record) rest

/-- The record of a message. -/
def decode (type : MessageType) (bs : Bytes) : Except Fault Record :=
  (readFields (bs.length + 1) type depthLimit 0 [] bs).map (·.1)

/-! ## Views -/

/-- The number under a tag. -/
def Record.word (record : Record) (tag : Nat) : Nat :=
  (record.findSome? fun
    | .word t n => if t = tag then some n else none
    | _ => none).getD 0

/-- A word as a signed number. -/
def signedWord (n : Nat) : Int :=
  if n < 0x8000000000000000 then n else (n : Int) - 0x10000000000000000

/-- The word of a signed number. -/
def wordOfSigned (z : Int) : Nat :=
  if 0 ≤ z then z.toNat else (z + 0x10000000000000000).toNat

/-- The signed number under a tag. -/
def Record.signed (record : Record) (tag : Nat) : Int :=
  signedWord (record.word tag)

/-- The text under a tag. -/
def Record.text (record : Record) (tag : Nat) : String :=
  (record.findSome? fun
    | .text t s => if t = tag then some s else none
    | _ => none).getD ""

/-- The bytes under a tag. -/
def Record.bytes (record : Record) (tag : Nat) : Bytes :=
  (record.findSome? fun
    | .bytes t b => if t = tag then some b else none
    | _ => none).getD []

/-- The part under a tag. -/
def Record.part? (record : Record) (tag : Nat) : Option Record :=
  record.findSome? fun
    | .message t fields => if t = tag then some fields else none
    | _ => none

/-- The parts under a tag, in order. -/
def Record.parts (record : Record) (tag : Nat) : List Record :=
  record.filterMap fun
    | .message t fields => if t = tag then some fields else none
    | _ => none

/-! ## Present fields -/

/-- A number, unless it is zero. -/
def wordField (tag n : Nat) : Record :=
  if n = 0 then [] else [.word tag n]

/-- A signed number, unless it is zero. -/
def signedField (tag : Nat) (z : Int) : Record :=
  wordField tag (wordOfSigned z)

/-- A flag, unless it is false. -/
def flagField (tag : Nat) (b : Bool) : Record :=
  if b then [.word tag 1] else []

/-- A text, unless it is empty. -/
def textField (tag : Nat) (s : String) : Record :=
  if s = "" then [] else [.text tag s]

/-- Bytes, unless there are none. -/
def bytesField (tag : Nat) (b : Bytes) : Record :=
  if b = [] then [] else [.bytes tag b]

/-- A part, if there is one. -/
def partField (tag : Nat) : Option Record → Record
  | none => []
  | some fields => [.message tag fields]

/-- Parts in order. -/
def partFields (tag : Nat) (parts : List Record) : Record :=
  parts.map (.message tag)

end ChainIndexer.Wire
