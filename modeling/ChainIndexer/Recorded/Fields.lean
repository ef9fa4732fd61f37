import ChainIndexer.Json.Value
import ChainIndexer.Text.Hex

/-
  Lenient access to recorded documents.

  A recording leaves out what is empty, so that a field that is missing or of another form counts as
  empty. Of a repeated field the last value counts.
-/

namespace ChainIndexer.Json

open Text

/-- The value of a field. -/
def get? (v : Json) (name : String) : Option Json :=
  match v with
  | .object fields => (fields.filter (·.1 == name)).getLast?.map (·.2)
  | _ => none

/-- The value of a field, or null. -/
def get (v : Json) (name : String) : Json :=
  (v.get? name).getD .null

/-- The value of a field that is there and not null. -/
def present? (v : Json) (name : String) : Option Json :=
  match v.get? name with
  | some .null => none
  | found => found

/-- A text, or the empty one. -/
def asText : Json → String
  | .text s => s
  | _ => ""

/-- A whole number, or 0. -/
def asInt : Json → Int
  | .number (.whole z) => z
  | _ => 0

/-- A number that is not negative, or 0. -/
def asNat (v : Json) : Nat :=
  v.asInt.toNat

/-- A truth value, or false. -/
def asBool : Json → Bool
  | .bool b => b
  | _ => false

/-- A list, or the empty one. -/
def asList : Json → List Json
  | .array items => items
  | _ => []

/-- The fields of an object, or none. -/
def asFields : Json → List (String × Json)
  | .object fields => fields
  | _ => []

/-- Bytes that are written in hexadecimal, or none. -/
def asBytes (v : Json) : Bytes :=
  (readHex? v.asText.toList).getD []

/-- The text of a field. -/
def textAt (v : Json) (name : String) : String := (v.get name).asText

/-- The whole number of a field. -/
def intAt (v : Json) (name : String) : Int := (v.get name).asInt

/-- The number of a field. -/
def natAt (v : Json) (name : String) : Nat := (v.get name).asNat

/-- The list of a field. -/
def listAt (v : Json) (name : String) : List Json := (v.get name).asList

/-- The truth value of a field. -/
def boolAt (v : Json) (name : String) : Bool := (v.get name).asBool

/-- The bytes of a field. -/
def bytesAt (v : Json) (name : String) : Bytes := (v.get name).asBytes

/-- The number of a field, or the given one if there is none. -/
def natOr (v : Json) (name : String) (default : Nat) : Nat :=
  match v.get? name with
  | some n => n.asNat
  | none => default

/-- Values under heights, which are written in decimal. -/
def byHeight (read : Json → α) (v : Json) : List (Nat × α) :=
  v.asFields.map fun (k, v) => (k.toNat?.getD 0, read v)

end ChainIndexer.Json
