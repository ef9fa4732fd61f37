import ChainIndexer.Json.Reader
import ChainIndexer.Text.Hidden
import ChainIndexer.Keyed

/-
  Typed reading of JSON values.

  A record is read from an object by the names of its fields, or from an array by their places.
  The fields of an object that the record does not know are passed over; a known field that stands
  twice is refused. Of several faults the one that stands first in the document is reported, and a
  missing field counts as standing behind all others.
-/

namespace ChainIndexer.Json

open Number

/-! ## Faults -/

/-- Why a value is not what was expected. -/
inductive Fault where
  | wrongType (found expected : String)
  | wrongValue (found expected : String)
  | missing (field : String)
  | repeated (field : String)
  | wrongLength (found : Nat) (expected : String)
  | refused (reason : String)
  deriving DecidableEq

/-- The wording of a fault. -/
def Fault.message : Fault → String
  | wrongType found expected => "invalid type: " ++ found ++ ", expected " ++ expected
  | wrongValue found expected => "invalid value: " ++ found ++ ", expected " ++ expected
  | missing field => "missing field `" ++ field ++ "`"
  | repeated field => "duplicate field `" ++ field ++ "`"
  | wrongLength found expected => "invalid length " ++ found.repr ++ ", expected " ++ expected
  | refused reason => reason

/-! ## Describing what was found -/

/-- A character as a reader of a report sees it. -/
def shownChar (c : Char) : List Char :=
  if c = '"' then ['\\', '"']
  else if c = '\\' then ['\\', '\\']
  else if c = '\n' then ['\\', 'n']
  else if c = '\r' then ['\\', 'r']
  else if c = '\t' then ['\\', 't']
  else if c.toNat = 0 then ['\\', '0']
  else if Text.isHidden c then '\\' :: 'u' :: '\x7b' :: (Nat.toDigits 16 c.toNat ++ ['\x7d'])
  else [c]

/-- A text as a reader of a report sees it. -/
def shownText (s : String) : String :=
  String.ofList ('"' :: (s.toList.flatMap shownChar ++ ['"']))

/-- A value in the words of a report. -/
def describe : Json → String
  | .null => "null"
  | .bool true => "boolean `true`"
  | .bool false => "boolean `false`"
  | .number (.whole z) => "integer `" ++ Text.integerText z ++ "`"
  | .number (.binary x) => "floating point `" ++ x.text ++ "`"
  | .text s => "string " ++ shownText s
  | .array _ => "sequence"
  | .object _ => "map"
  | .unreadable => "null"

/-! ## Simple values -/

/-- A whole number from 0 to `limit`. -/
def readNat (limit : Nat) (expected : String) : Json → Except Fault Nat
  | .number (.whole z) =>
    if 0 ≤ z ∧ z ≤ limit then .ok z.toNat
    else .error (.wrongValue (describe (.number (.whole z))) expected)
  | v => .error (.wrongType (describe v) expected)

/-- A number of 64 bits. -/
def readNat64 : Json → Except Fault Nat :=
  readNat Text.maxWord64 "u64"

/-- A number of 32 bits. -/
def readNat32 : Json → Except Fault Nat :=
  readNat Text.maxWord32 "u32"

/-- A whole number between two limits. -/
def readInt (low high : Int) (expected : String) : Json → Except Fault Int
  | .number (.whole z) =>
    if low ≤ z ∧ z ≤ high then .ok z
    else .error (.wrongValue (describe (.number (.whole z))) expected)
  | v => .error (.wrongType (describe v) expected)

/-- A signed number of 32 bits. -/
def readInt32 : Json → Except Fault Int :=
  readInt (-Text.maxSigned32 - 1) Text.maxSigned32 "i32"

/-- A signed number of 64 bits. -/
def readInt64 : Json → Except Fault Int :=
  readInt (-Text.maxSigned64 - 1) Text.maxSigned64 "i64"

/-- A text. -/
def readText : Json → Except Fault String
  | .text s => .ok s
  | v => .error (.wrongType (describe v) "a string")

/-- A truth value. -/
def readBool : Json → Except Fault Bool
  | .bool b => .ok b
  | v => .error (.wrongType (describe v) "a boolean")

/-- A list, each item read in turn. -/
def readList (read : Json → Except Fault α) : Json → Except Fault (List α)
  | .array items => items.mapM read
  | v => .error (.wrongType (describe v) "a sequence")

/-- Values under keys; of a repeated key the last value stays. -/
def readKeyed (read : Json → Except Fault α) : Json → Except Fault (Keyed α)
  | .object fields => do
    let entries ← fields.mapM fun (k, v) => (read v).map (k, ·)
    return Keyed.ofEntries entries
  | v => .error (.wrongType (describe v) "a map")

/-- A value or null. -/
def readOption (read : Json → Except Fault α) : Json → Except Fault (Option α)
  | .null => .ok none
  | v => (read v).map some

/-! ## Records -/

/-- A value read from the parts of a record, or the first of its faults with its place. -/
structure Gathered (α : Type) where
  result : Except (Nat × Fault) α

namespace Gathered

/-- Both parts, or the fault that stands first. -/
def both (f : Gathered (α → β)) (x : Gathered α) : Gathered β :=
  match f.result, x.result with
  | .ok g, .ok a => ⟨.ok (g a)⟩
  | .ok _, .error e => ⟨.error e⟩
  | .error e, .ok _ => ⟨.error e⟩
  | .error e, .error e' => ⟨.error (if e'.1 < e.1 then e' else e)⟩

instance : Functor Gathered where
  map f x := ⟨x.result.map f⟩

instance : Applicative Gathered where
  pure a := ⟨.ok a⟩
  seq f x := both f (x ())

end Gathered

/-- The parts of a record as they were written: under names, or in their places. -/
inductive Parts where
  | named (fields : List (String × Json))
  | listed (items : List Json)

namespace Parts

/-- The places at which a field stands, and its values. -/
def found (parts : Parts) (index : Nat) (name : String) : List (Nat × Json) :=
  match parts with
  | .named fields => (fields.zipIdx.filter fun (e, _) => e.1 = name).map fun (e, i) => (i, e.2)
  | .listed items => match items[index]? with
    | some v => [(index, v)]
    | none => []

/-- The place behind all that was written. -/
def endPlace : Parts → Nat
  | .named fields => fields.length
  | .listed items => items.length

/-- Reads a field where it stands, and refuses it where it stands again. -/
def readAt (name : String) (read : Json → Except Fault α) (absent : Except (Nat × Fault) α) :
    List (Nat × Json) → Gathered α
  | [] => ⟨absent⟩
  | [(i, v)] => ⟨(read v).mapError (i, ·)⟩
  | (i, v) :: (j, _) :: _ => match read v with
    | .ok _ => ⟨.error (j, .repeated name)⟩
    | .error e => ⟨.error (i, e)⟩

/-- A field that has to be there. `index` is its place, and `record` says what an array lacks. -/
def required (parts : Parts) (record : String) (index : Nat) (name : String)
    (read : Json → Except Fault α) : Gathered α :=
  readAt name read
    (.error (parts.endPlace, match parts with
      | .named _ => .missing name
      | .listed _ => .wrongLength index record))
    (parts.found index name)

/-- A field with a value for its absence. -/
def defaulted (parts : Parts) (index : Nat) (name : String) (default : α)
    (read : Json → Except Fault α) : Gathered α :=
  readAt name read (.ok default) (parts.found index name)

/-- A field that may be absent or null; an array has to hold it. -/
def optional (parts : Parts) (record : String) (index : Nat) (name : String)
    (read : Json → Except Fault α) : Gathered (Option α) :=
  readAt name (readOption read)
    (match parts with
      | .named _ => .ok none
      | .listed items => .error (items.length, .wrongLength index record))
    (parts.found index name)

end Parts

/-- The words for a record of several fields. -/
def recordOf (name : String) (count : Nat) : String :=
  "struct " ++ name ++ " with " ++ count.repr ++ (if count = 1 then " element" else " elements")

/-- A record from an object, or from an array that holds no more than its fields. -/
def readRecord (name : String) (count : Nat) (body : Parts → Gathered α) (v : Json) :
    Except Fault α :=
  match v with
  | .object fields => (body (.named fields)).result.mapError (·.2)
  | .array items => match (body (.listed items)).result with
    | .ok a =>
      if items.length ≤ count then .ok a
      else .error (.wrongLength items.length "fewer elements in array")
    | .error e => .error e.2
  | v => .error (.wrongType (describe v) ("struct " ++ name))

/-! ## Values without a fixed form -/

/-- Puts a field in its place among ascending names; of a repeated name the last value stays. -/
def settleFields (fields : List (String × Json)) : List (String × Json) :=
  fields.foldl (fun es e => putEntry e.1 e.2 es) []

mutual

/-- A value with the fields of each object in ascending order and each name once, nested no deeper
than `depth`. -/
def settle (depth : Nat) : Json → Option Json
  | .null => some .null
  | .bool b => some (.bool b)
  | .number n => some (.number n)
  | .text s => some (.text s)
  | .array items => match depth with
    | 0 => none
    | depth + 1 => (settleItems depth items).map .array
  | .object fields => match depth with
    | 0 => none
    | depth + 1 => (settleEntries depth fields).map fun es => .object (settleFields es)
  | .unreadable => none

/-- Each item in turn. -/
def settleItems (depth : Nat) : List Json → Option (List Json)
  | [] => some []
  | v :: rest => do
    let v ← settle depth v
    let rest ← settleItems depth rest
    return v :: rest

/-- The value of each field in turn. -/
def settleEntries (depth : Nat) : List (String × Json) → Option (List (String × Json))
  | [] => some []
  | (k, v) :: rest => do
    let v ← settle depth v
    let rest ← settleEntries depth rest
    return (k, v) :: rest

end

/-- How deep a value inside a record may be nested. -/
def nestingLimit : Nat := 126

/-- A value of any form. -/
def readAny (v : Json) : Except Fault Json :=
  match settle nestingLimit v with
  | some v => .ok v
  | none => .error (.refused "unreadable value")

end ChainIndexer.Json
