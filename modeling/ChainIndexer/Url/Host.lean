import ChainIndexer.Url.Basic

/-
  The hosts of URLs.

  A host is an address of the fourth or sixth version of the internet protocol, or a name. Names are
  in lower case; labels with characters beyond ASCII are written in Punycode. Under other schemes
  than the special ones a host is any text without delimiters.
-/

namespace ChainIndexer.Url

open Text

/-! ## Numbers -/

/-- The number of digits in a base. -/
def readBase? (base : Nat) (cs : List Char) : Option Nat :=
  cs.foldlM (fun acc c => do
    let d ← hexValue? c
    if d < base then return acc * base + d else none) 0

/-- A part of an address of four bytes: decimal, octal behind a zero, hexadecimal behind `0x`. -/
def readPart? : List Char → Option Nat
  | [] => none
  | '0' :: 'x' :: cs => readBase? 16 cs
  | '0' :: 'X' :: cs => readBase? 16 cs
  | '0' :: c :: cs => readBase? 8 (c :: cs)
  | cs => readBase? 10 cs

/-! ## Addresses of four bytes -/

/-- The parts of a name, without an empty one at the end. -/
def nameParts (cs : List Char) : List (List Char) :=
  let parts := cs.splitOn '.'
  if parts.length > 1 ∧ parts.getLastD [] = [] then parts.dropLast else parts

/-- Whether the last part is a number, so that the name has to be an address. -/
def endsInNumber (cs : List Char) : Bool :=
  let last := (nameParts cs).getLastD []
  (last ≠ [] && last.all Char.isDigit)
    || match last with
      | '0' :: 'x' :: _ | '0' :: 'X' :: _ => (readPart? last).isSome
      | _ => false

/-- The number of an address: all parts but the last are bytes, and the last fills up. -/
def joinParts? (parts : List Nat) : Option Nat :=
  let front := parts.dropLast
  let last := parts.getLastD 0
  if front.all (· < 256) ∧ last < 1 <<< (8 * (4 - front.length)) then
    some (front.zipIdx.foldl (fun acc (n, i) => acc + n <<< (8 * (3 - i))) last)
  else none

/-- The bytes of an address with points between them. -/
def ipv4Text (n : Nat) : String :=
  String.intercalate "." ([n / 0x1000000, n / 0x10000 % 256, n / 0x100 % 256, n % 256].map Nat.repr)

/-- An address of four bytes. -/
def readIpv4 (cs : List Char) : Except UrlFault String :=
  let parts := nameParts cs
  if parts.length > 4 then .error .ipv4
  else match (parts.mapM readPart?).bind joinParts? with
    | some n => .ok (ipv4Text n)
    | none => .error .ipv4

/-! ## Addresses of eight words -/

/-- A word of up to four hexadecimal digits. -/
def readWord? (cs : List Char) : Option Nat :=
  if cs = [] ∨ cs.length > 4 then none else readBase? 16 cs

/-- A decimal byte without zeros in front. -/
def readByte? (cs : List Char) : Option Nat :=
  match cs with
  | [] => none
  | '0' :: _ :: _ => none
  | cs => if cs.all Char.isDigit ∧ cs.length ≤ 3
    then (readBase? 10 cs).filter (· < 256) else none

/-- The two words of an address of four bytes. -/
def readTail? (cs : List Char) : Option (List Nat) :=
  match (cs.splitOn '.').map readByte? with
  | [some a, some b, some c, some d] => some [a * 256 + b, c * 256 + d]
  | _ => none

/-- Words with colons between them; the last may be an address of four bytes where `tail` says
so. -/
def readWords? (tail : Bool) (cs : List Char) : Option (List Nat) :=
  if cs = [] then some []
  else
    let parts := cs.splitOn ':'
    let last := parts.getLastD []
    if tail ∧ last.contains '.' then do
      let front ← parts.dropLast.mapM readWord?
      let back ← readTail? last
      return front ++ back
    else parts.mapM readWord?

/-- The text before and behind the first double colon. -/
def splitGap : List Char → Option (List Char × List Char)
  | [] => none
  | ':' :: ':' :: rest => some ([], rest)
  | c :: rest => (splitGap rest).map fun (a, b) => (c :: a, b)

/-- The eight words of an address; a double colon stands for zeros. -/
def readIpv6Words? (cs : List Char) : Option (List Nat) := do
  let words ← match splitGap cs with
    | some (front, back) => do
      let front ← readWords? false front
      let back ← readWords? true back
      if front.length + back.length < 8 then
        some (front ++ List.replicate (8 - front.length - back.length) 0 ++ back)
      else none
    | none => if cs = [] then none else readWords? true cs
  if words.length = 8 then some words else none

/-- The longest run of zeros, the first of those that are as long: where it begins and its
length. -/
def longestZeros : List Nat → Nat → Nat → Nat × Nat → Nat × Nat
  | [], _, _, best => best
  | w :: rest, index, run, best =>
    if w = 0 then
      let run := run + 1
      longestZeros rest (index + 1) run
        (if best.2 < run then (index + 1 - run, run) else best)
    else longestZeros rest (index + 1) 0 best

/-- Words in hexadecimal with colons between them. -/
def wordsText (ws : List Nat) : String :=
  String.intercalate ":" (ws.map fun w => String.ofList (Nat.toDigits 16 w))

/-- The text of an address: the longest run of two zeros or more is left out. -/
def ipv6Text (ws : List Nat) : String :=
  let (start, length) := longestZeros ws 0 0 (0, 0)
  if length < 2 then "[" ++ wordsText ws ++ "]"
  else "[" ++ wordsText (ws.take start) ++ "::" ++ wordsText (ws.drop (start + length)) ++ "]"

/-- An address of eight words. -/
def readIpv6 (cs : List Char) : Except UrlFault String :=
  match readIpv6Words? cs with
  | some ws => .ok (ipv6Text ws)
  | none => .error .ipv6

/-! ## Punycode -/

/-- A digit from 0 to 35. -/
def punyDigit (n : Nat) : Char :=
  if n < 26 then Char.ofNat ('a'.toNat + n) else Char.ofNat ('0'.toNat + n - 26)

/-- How far the bias moves. -/
def adaptLoop (delta k : Nat) : Nat :=
  if 455 < delta then adaptLoop (delta / 35) (k + 36) else k + 36 * delta / (delta + 38)
  termination_by delta

/-- The bias after a delta. -/
def adapt (delta count : Nat) (first : Bool) : Nat :=
  let delta := if first then delta / 700 else delta / 2
  adaptLoop (delta + delta / count) 0

/-- The digits of a delta, from the place `k` on. -/
def punyDigits (bias : Nat) (q k : Nat) : Nat → List Char
  | 0 => []
  | fuel + 1 =>
    let t := if k ≤ bias then 1 else if bias + 26 ≤ k then 26 else k - bias
    if q < t then [punyDigit q]
    else punyDigit (t + (q - t) % (36 - t)) :: punyDigits bias ((q - t) / (36 - t)) (k + 36) fuel

/-- What is known while the characters of one number are written. -/
structure PunyState where
  delta : Nat
  bias : Nat
  done : Nat
  out : List Char

/-- Passes one character while those with the number `n` are written. -/
def punyStep (basic n : Nat) (s : PunyState) (c : Nat) : PunyState :=
  if c < n then { s with delta := s.delta + 1 }
  else if c = n then
    { delta := 0
      bias := adapt s.delta (s.done + 1) (s.done = basic)
      done := s.done + 1
      out := s.out ++ punyDigits s.bias s.delta 36 64 }
  else s

/-- Writes the characters of each number in ascending order. -/
def punyNumbers (cs : List Nat) (basic : Nat) : List Nat → Nat → PunyState → PunyState
  | [], _, s => s
  | n :: rest, last, s =>
    let s := { s with delta := s.delta + (n - last) * (s.done + 1) }
    let s := cs.foldl (punyStep basic n) s
    punyNumbers cs basic rest (n + 1) { s with delta := s.delta + 1 }

/-- The numbers beyond ASCII, ascending and each once. -/
def higherNumbers (cs : List Nat) : List Nat :=
  ((cs.filter (128 ≤ ·)).eraseDups).mergeSort (· ≤ ·)

/-- A label in Punycode. -/
def punycode (label : List Char) : List Char :=
  let cs := label.map Char.toNat
  let basic := label.filter (·.toNat < 128)
  let s := punyNumbers cs basic.length (higherNumbers cs) 128 ⟨0, 72, basic.length, []⟩
  if basic = [] then s.out else basic ++ '-' :: s.out

/-! ## Names -/

/-- A character as it stands in a name: lower case, and none for what is passed over. -/
def foldChar (c : Char) : List Char :=
  let n := c.toNat
  if c.isUpper then [c.toLower]
  else if n = 0xAD ∨ n = 0x200B ∨ n = 0x2060 ∨ n = 0xFEFF then []
  else if n = 0x3002 ∨ n = 0xFF0E ∨ n = 0xFF61 then ['.']
  else if 0xFF01 ≤ n ∧ n ≤ 0xFF5E then [(Char.ofNat (n - 0xFEE0)).toLower]
  else if (0xC0 ≤ n ∧ n ≤ 0xDE ∧ n ≠ 0xD7) ∨ (0x391 ≤ n ∧ n ≤ 0x3A9) ∨ (0x410 ≤ n ∧ n ≤ 0x42F) then
    [Char.ofNat (n + 32)]
  else if 0x400 ≤ n ∧ n ≤ 0x40F then [Char.ofNat (n + 80)]
  else if 0x100 ≤ n ∧ n ≤ 0x137 ∧ n % 2 = 0 ∧ n ≠ 0x130 then [Char.ofNat (n + 1)]
  else [c]

/-- A label with only ASCII characters. -/
def asciiLabel (label : List Char) : List Char :=
  if label.all (·.toNat < 128) then label else ['x', 'n', '-', '-'] ++ punycode label

/-- What no name may hold. -/
def isForbidden (c : Char) : Bool :=
  c.toNat ≤ 0x20 || c.toNat = 0x7F
    || ['%', '#', '/', ':', '<', '>', '?', '@', '[', '\\', ']', '^', '|'].contains c

/-- A name with only ASCII characters, in lower case. -/
def asciiName (cs : List Char) : Except UrlFault (List Char) :=
  let labels := (cs.flatMap foldChar).splitOn '.'
  let name := List.intercalate ['.'] (labels.map asciiLabel)
  if name.any isForbidden then .error .internationalName else .ok name

/-- The host of a special URL. -/
def readHost (cs : List Char) : Except UrlFault String :=
  match cs with
  | '[' :: rest =>
    if rest.getLastD ' ' = ']' then readIpv6 rest.dropLast else .error .ipv6
  | cs =>
    match String.fromUTF8? ⟨(percentDecode cs).toArray⟩ with
    | none => .error .internationalName
    | some decoded => do
      let name ← asciiName decoded.toList
      if name = [] then .error .emptyHost
      else if endsInNumber name then readIpv4 name
      else .ok (String.ofList name)

/-- What no host of another scheme may hold. -/
def isHostDelimiter (c : Char) : Bool :=
  [' ', '#', '/', ':', '<', '>', '?', '@', '[', '\\', ']', '^', '|', '\x00', '\t', '\n',
    '\r'].contains c

/-- The host of a URL of another scheme. -/
def readOpaqueHost (cs : List Char) : Except UrlFault String :=
  match cs with
  | '[' :: rest =>
    if rest.getLastD ' ' = ']' then readIpv6 rest.dropLast else .error .ipv6
  | cs =>
    if cs.any isHostDelimiter then .error .hostCharacter else .ok (encode isControl cs)

example : readHost "H.Example".toList = .ok "h.example" := by cbv
example : readHost "127.1".toList = .ok "127.0.0.1" := by cbv
example : readHost "[::1]".toList = .ok "[::1]" := by cbv

end ChainIndexer.Url
