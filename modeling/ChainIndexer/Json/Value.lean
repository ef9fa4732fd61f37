import ChainIndexer.Number.Shortest
import ChainIndexer.Text.Hex

/-
  JSON values and their text.

  A value is what a document says: the fields of an object stand in the order in which they were
  written, and a repeated name stands twice. `unreadable` is a token of the right form that denotes
  nothing, such as a number beyond the largest of 64 bits or an escape that names half of a pair;
  it may stand where nothing reads it. `Json.text` writes a value without blanks.
-/

namespace ChainIndexer

open Number

/-- A number of a document: whole if its text is and it fits 64 bits, else binary. -/
inductive JsonNumber where
  | whole (z : Int)
  | binary (x : Binary64)
  deriving DecidableEq

/-- A value of a document. -/
inductive Json where
  | null
  | bool (b : Bool)
  | number (n : JsonNumber)
  | text (s : String)
  | array (items : List Json)
  | object (fields : List (String × Json))
  | unreadable

namespace Json

instance : Inhabited Json := ⟨null⟩

/-- A whole number without sign. -/
def nat (n : Nat) : Json :=
  .number (.whole n)

/-- A whole number. -/
def int (z : Int) : Json :=
  .number (.whole z)

/-! ## Writing -/

/-- The four digits of an escape. -/
def escapeDigits (n : Nat) : List Char :=
  [4096, 256, 16, 1].map fun unit => (Text.hexDigits false).getD (n / unit % 16) '0'

/-- A character inside a quoted text: quotes, backslashes and control characters are escaped. -/
def escapeChar (c : Char) : List Char :=
  if c = '"' then ['\\', '"']
  else if c = '\\' then ['\\', '\\']
  else if c = '\n' then ['\\', 'n']
  else if c = '\r' then ['\\', 'r']
  else if c = '\t' then ['\\', 't']
  else if c.toNat = 8 then ['\\', 'b']
  else if c.toNat = 12 then ['\\', 'f']
  else if c.toNat < 32 then '\\' :: 'u' :: escapeDigits c.toNat
  else [c]

/-- A text in quotes. -/
def quote (s : String) : List Char :=
  '"' :: (s.toList.flatMap escapeChar ++ ['"'])

/-- A number. -/
def numberChars : JsonNumber → List Char
  | .whole z => (Text.integerText z).toList
  | .binary x => x.text.toList

mutual

/-- A value without blanks. -/
def chars : Json → List Char
  | .null => ['n', 'u', 'l', 'l']
  | .bool true => ['t', 'r', 'u', 'e']
  | .bool false => ['f', 'a', 'l', 's', 'e']
  | .number n => numberChars n
  | .text s => quote s
  | .array items => '[' :: (itemChars items ++ [']'])
  | .object fields => '\x7b' :: (fieldChars fields ++ ['\x7d'])
  | .unreadable => ['n', 'u', 'l', 'l']

/-- Items with commas between them. -/
def itemChars : List Json → List Char
  | [] => []
  | [v] => chars v
  | v :: w :: rest => chars v ++ ',' :: itemChars (w :: rest)

/-- Fields with commas between them. -/
def fieldChars : List (String × Json) → List Char
  | [] => []
  | [(k, v)] => quote k ++ ':' :: chars v
  | (k, v) :: e :: rest => quote k ++ ':' :: (chars v ++ ',' :: fieldChars (e :: rest))

end

/-- The text of a value. -/
def toText (v : Json) : String :=
  String.ofList v.chars

/-! ## Objects with absent fields -/

/-- A field that is always written. -/
def field (name : String) (value : Json) : List (String × Json) :=
  [(name, value)]

/-- A text field that is left out when empty. -/
def textField (name value : String) : List (String × Json) :=
  if value = "" then [] else [(name, .text value)]

/-- A list field that is left out when empty. -/
def listField (name : String) (items : List Json) : List (String × Json) :=
  if items.isEmpty then [] else [(name, .array items)]

/-- A field of names that is left out when empty. -/
def namesField (name : String) (fields : List (String × Json)) : List (String × Json) :=
  if fields.isEmpty then [] else [(name, .object fields)]

/-- A field that is left out when there is no value. -/
def optionField (name : String) : Option Json → List (String × Json)
  | none => []
  | some v => [(name, v)]

/-- An optional value as null or the value. -/
def orNull : Option Json → Json
  | none => .null
  | some v => v

/-- A list of texts. -/
def texts (ss : List String) : Json :=
  .array (ss.map .text)

end Json

end ChainIndexer
