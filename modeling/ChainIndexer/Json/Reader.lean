import ChainIndexer.Json.Value

/-
  Reading a JSON document.

  `Json.read?` takes a whole text: one value with blanks around it and nothing else. Every reader
  gives the rest of its input. Nesting is bounded by the length of the input, which serves as fuel.
-/

namespace ChainIndexer.Json

open Number

/-! ## Blanks -/

/-- Whether a character may stand between tokens. -/
def isSpace (c : Char) : Bool :=
  c == ' ' || c == '\n' || c == '\r' || c == '\t'

/-- The input without blanks in front. -/
def skipSpace (cs : List Char) : List Char :=
  cs.dropWhile isSpace

/-! ## Texts -/

/-- The number of four hexadecimal digits. -/
def hexNumber? (a b c d : Char) : Option Nat := do
  let a ← Text.hexValue? a
  let b ← Text.hexValue? b
  let c ← Text.hexValue? c
  let d ← Text.hexValue? d
  return ((a * 16 + b) * 16 + c) * 16 + d

/-- What a one-letter escape stands for. -/
def shortEscape? (c : Char) : Option Nat :=
  if c = '"' ∨ c = '\\' ∨ c = '/' then some c.toNat
  else if c = 'b' then some 8
  else if c = 'f' then some 12
  else if c = 'n' then some 10
  else if c = 'r' then some 13
  else if c = 't' then some 9
  else none

/-- The numbers of the characters up to the closing quote. Half a pair keeps its own number. -/
def readUnits : List Char → Option (List Nat × List Char)
  | [] => none
  | '"' :: rest => some ([], rest)
  | '\\' :: 'u' :: a :: b :: c :: d :: rest => do
    let n ← hexNumber? a b c d
    let (ns, rest) ← readUnits rest
    return (n :: ns, rest)
  | '\\' :: c :: rest => do
    let n ← shortEscape? c
    let (ns, rest) ← readUnits rest
    return (n :: ns, rest)
  | c :: rest =>
    if c.toNat < 32 then none
    else do
      let (ns, rest) ← readUnits rest
      return (c.toNat :: ns, rest)

/-- Whether a number is the first half of a pair. -/
def isHighHalf (n : Nat) : Bool :=
  0xD800 ≤ n && n < 0xDC00

/-- Whether a number is the second half of a pair. -/
def isLowHalf (n : Nat) : Bool :=
  0xDC00 ≤ n && n < 0xE000

/-- The characters of numbers in which the halves come in pairs. -/
def joinHalves? : List Nat → Option (List Char)
  | [] => some []
  | [n] => if isHighHalf n || isLowHalf n then none else some [Char.ofNat n]
  | n :: m :: rest =>
    if isHighHalf n then
      if isLowHalf m then
        (joinHalves? rest).map (Char.ofNat (0x10000 + (n - 0xD800) * 1024 + (m - 0xDC00)) :: ·)
      else none
    else if isLowHalf n then none
    else (joinHalves? (m :: rest)).map (Char.ofNat n :: ·)

/-- A text behind its opening quote; none if it names half of a pair. -/
def readQuoted (cs : List Char) : Option (Option String × List Char) := do
  let (ns, rest) ← readUnits cs
  return ((joinHalves? ns).map String.ofList, rest)

/-! ## Numbers -/

/-- The longest beginning of digits that fits 64 bits after `acc`, and the digits beyond. -/
def foldDigits : List Char → Nat → Nat × List Char
  | [], acc => (acc, [])
  | c :: cs, acc =>
    let next := acc * 10 + (c.toNat - '0'.toNat)
    if next ≤ Text.maxWord64 then foldDigits cs next else (acc, c :: cs)

/-- The number of an integer text without fraction and exponent. -/
def wholeNumber? (negative : Bool) (digits : List Char) : Option JsonNumber :=
  let (n, beyond) := foldDigits digits 0
  if beyond ≠ [] then (Binary64.ofScaled negative n beyond.length).map .binary
  else if !negative then some (.whole n)
  else if 0 < n ∧ n ≤ Text.maxSigned64 + 1 then some (.whole (-(n : Int)))
  else (Binary64.ofScaled true n 0).map .binary

/-- The number of a text with a fraction or an exponent. -/
def binaryNumber? (negative : Bool) (digits fraction : List Char) (exponent : Int) :
    Option JsonNumber :=
  let (n, beyond) := foldDigits digits 0
  let (m, dropped) := foldDigits fraction n
  let scale : Int := exponent + beyond.length - (fraction.length - dropped.length : Nat)
  (Binary64.ofScaled negative m scale).map .binary

/-- The digits in front, at least one, and the rest. -/
def readDigitRun (cs : List Char) : Option (List Char × List Char) :=
  let digits := cs.takeWhile Char.isDigit
  if digits = [] then none else some (digits, cs.dropWhile Char.isDigit)

/-- The digits of an integer: a zero stands alone. -/
def readIntegerRun : List Char → Option (List Char × List Char)
  | '0' :: rest =>
    match rest with
    | c :: _ => if c.isDigit then none else some (['0'], rest)
    | [] => some (['0'], [])
  | cs => readDigitRun cs

/-- An exponent behind its letter. -/
def readExponent : List Char → Option (Int × List Char)
  | '+' :: cs => (readDigitRun cs).map fun (ds, rest) => ((Nat.ofDigitChars 10 ds 0 : Int), rest)
  | '-' :: cs => (readDigitRun cs).map fun (ds, rest) => (-(Nat.ofDigitChars 10 ds 0 : Int), rest)
  | cs => (readDigitRun cs).map fun (ds, rest) => ((Nat.ofDigitChars 10 ds 0 : Int), rest)

/-- What stands behind the integer part and the fraction. -/
def readScale (cs : List Char) : Option (Option Int × List Char) :=
  match cs with
  | 'e' :: rest => (readExponent rest).map fun (e, rest) => (some e, rest)
  | 'E' :: rest => (readExponent rest).map fun (e, rest) => (some e, rest)
  | _ => some (none, cs)

/-- A number without its sign. -/
def readMagnitude (negative : Bool) (cs : List Char) : Option (Json × List Char) := do
  let (digits, rest) ← readIntegerRun cs
  match rest with
  | '.' :: rest =>
    let (fraction, rest) ← readDigitRun rest
    let (scale, rest) ← readScale rest
    return (((binaryNumber? negative digits fraction (scale.getD 0)).map number).getD unreadable,
      rest)
  | _ =>
    let (scale, rest) ← readScale rest
    let n := match scale with
      | some e => binaryNumber? negative digits [] e
      | none => wholeNumber? negative digits
    return ((n.map number).getD unreadable, rest)

/-- A number. -/
def readNumber : List Char → Option (Json × List Char)
  | '-' :: cs => readMagnitude true cs
  | cs => readMagnitude false cs

/-! ## Values -/

/-- The fields of an object whose names could all be read. -/
def objectOf (fields : List (Option String × Json)) : Json :=
  match fields.mapM fun (k, v) => k.map (·, v) with
  | some fields => object fields
  | none => unreadable

mutual

/-- A value, with blanks in front of it. -/
def readValue : Nat → List Char → Option (Json × List Char)
  | 0, _ => none
  | fuel + 1, cs =>
    match skipSpace cs with
    | '"' :: rest => do
      let (s, rest) ← readQuoted rest
      return ((s.map text).getD unreadable, rest)
    | '[' :: rest =>
      match skipSpace rest with
      | ']' :: rest => some (array [], rest)
      | rest => do
        let (items, rest) ← readItems fuel rest
        return (array items, rest)
    | '\x7b' :: rest =>
      match skipSpace rest with
      | '\x7d' :: rest => some (object [], rest)
      | rest => do
        let (fields, rest) ← readFields fuel rest
        return (objectOf fields, rest)
    | 'n' :: 'u' :: 'l' :: 'l' :: rest => some (null, rest)
    | 't' :: 'r' :: 'u' :: 'e' :: rest => some (bool true, rest)
    | 'f' :: 'a' :: 'l' :: 's' :: 'e' :: rest => some (bool false, rest)
    | rest => readNumber rest

/-- The items up to the closing bracket. -/
def readItems : Nat → List Char → Option (List Json × List Char)
  | 0, _ => none
  | fuel + 1, cs => do
    let (v, rest) ← readValue fuel cs
    match skipSpace rest with
    | ',' :: rest =>
      let (vs, rest) ← readItems fuel rest
      return (v :: vs, rest)
    | ']' :: rest => return ([v], rest)
    | _ => none

/-- The fields up to the closing brace. -/
def readFields : Nat → List Char → Option (List (Option String × Json) × List Char)
  | 0, _ => none
  | fuel + 1, cs =>
    match skipSpace cs with
    | '"' :: rest => do
      let (k, rest) ← readQuoted rest
      match skipSpace rest with
      | ':' :: rest =>
        let (v, rest) ← readValue fuel rest
        match skipSpace rest with
        | ',' :: rest =>
          let (es, rest) ← readFields fuel rest
          return ((k, v) :: es, rest)
        | '\x7d' :: rest => return ([(k, v)], rest)
        | _ => none
      | _ => none
    | _ => none

end

/-- The value of a document. -/
def readChars? (cs : List Char) : Option Json :=
  match readValue (2 * cs.length + 2) cs with
  | some (v, rest) => if skipSpace rest = [] then some v else none
  | none => none

/-- The value of a text. -/
def read? (s : String) : Option Json :=
  readChars? s.toList

end ChainIndexer.Json
