import ChainIndexer.Text.Numeral
import ChainIndexer.Text.Blank

/-
  Amounts on the chain, and how they are read.

  An amount is the number `numeric * 10 ^ -exp` of a currency, together with the text it was read
  from. It is read in three ways: from a coin, whose value and denomination come apart; from a
  decimal of the chain, whose integer form is scaled by `10 ^ 18`; and from one text that holds a
  value and a denomination. A coin list is a comma-separated text of the third kind.
-/

namespace ChainIndexer

open Text

/-- The quantity `numeric * 10 ^ -exp` of `currency`. -/
structure Amount where
  text : String
  numeric : Int
  exp : Int
  currency : String
  deriving DecidableEq

namespace Amount

/-- Why a text is no amount. -/
inductive Fault where
  | empty
  | manyPoints (value : String)
  | notInteger (value : String) (cause : NumeralFault)
  | fractionTooLong
  deriving DecidableEq

/-- The wording of a fault. -/
def Fault.message : Fault → String
  | empty => "empty value"
  | manyPoints value => "more than one decimal point in " ++ value
  | notInteger value cause => value ++ ": " ++ cause.message
  | fractionTooLong => NumeralFault.tooLarge.message

/-- Whether the amount is nothing. -/
def isZero (a : Amount) : Bool :=
  a.numeric == 0

/-! ## Values -/

/-- The number of bytes of a text in UTF-8. -/
def byteLength (cs : List Char) : Nat :=
  cs.foldl (fun count c => count + c.utf8Size) 0

/-- A decimal comma is a decimal point. -/
def pointed (cs : List Char) : List Char :=
  cs.map fun c => if c = ',' then '.' else c

/-- The integer of the digits, with the exponent that the length of the fraction gives. -/
def readScaled (value digits : List Char) (exp : Nat) : Except Fault (Int × Int) :=
  match readInteger digits with
  | .error cause => .error (.notInteger (String.ofList value) cause)
  | .ok n => if exp ≤ maxSigned32 then .ok (n, exp) else .error .fractionTooLong

/-- The numeric and the exponent of a value: blanks around it are dropped, and at most one decimal
point divides it. -/
def readNumeric (cs : List Char) : Except Fault (Int × Int) :=
  let value := pointed (trim cs)
  if value = [] then .error .empty
  else match value.splitOn '.' with
    | [integer] => readScaled value integer 0
    | [integer, fraction] => readScaled value (integer ++ fraction) (byteLength fraction)
    | _ => .error (.manyPoints (String.ofList value))

/-! ## The three readings -/

/-- A coin: its value, and its denomination as it stands. -/
def ofCoin (value denom : String) : Except Fault Amount :=
  (readNumeric value.toList).map fun (n, e) => ⟨value, n, e, denom⟩

/-- The places of a decimal of the chain. -/
def decimalPlaces : Int := 18

/-- A decimal of the chain: with a point it is read as it stands, and an integer counts units of
`10 ^ -18`. -/
def ofDecimal (value denom : String) : Except Fault Amount :=
  if '.' ∈ value.toList then ofCoin value denom
  else (readNumeric value.toList).map fun (n, _) => ⟨value, n, decimalPlaces, denom⟩

/-- The characters that a value may hold. -/
def isValueChar (c : Char) : Bool :=
  c.isDigit || c == '.' || c == ',' || c == '-' || isBlank c

/-- A text as a value and its currency. The currency begins at the first character that no value
holds, if that is a letter and something stands before it; else there is none. -/
def splitCurrency (cs : List Char) : List Char × List Char :=
  match cs.takeWhile isValueChar, cs.dropWhile isValueChar with
  | _ :: _, c :: _ =>
    if c.isAlpha then (cs.takeWhile isValueChar, cs.dropWhile isValueChar) else (cs, [])
  | _, _ => (cs, [])

/-- An amount in one text. -/
def ofText (raw : String) : Except Fault Amount :=
  let (value, currency) := splitCurrency raw.toList
  (readNumeric value).map fun (n, e) => ⟨raw, n, e, String.ofList currency⟩

/-- A list of coins, divided by commas. Without any letter the text is one amount, whose comma is
a decimal comma. Empty places between commas are left out. -/
def readCoins (raw : String) : Except Fault (List Amount) :=
  if raw.toList.any Char.isAlpha then
    (((raw.toList.splitOn ',').map trim).filter (· ≠ [])).mapM fun coin =>
      ofText (String.ofList coin)
  else (ofText raw).map fun a => [a]

end Amount

end ChainIndexer
