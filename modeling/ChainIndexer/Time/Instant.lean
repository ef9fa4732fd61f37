import ChainIndexer.Time.Calendar
import ChainIndexer.Text.Blank
import ChainIndexer.Text.Numeral

/-
  Points in time and their text.

  An instant counts seconds since 1970 and nanoseconds within the second. A leap second is a second
  59 of a minute with nanoseconds from one thousand million on. The text is that of RFC 3339 in
  UTC. Reading is more generous: any offset from UTC, a blank in place of the `T`, and blanks before
  the numbers.
-/

namespace ChainIndexer

open Time Text

/-- Nanoseconds of a second. -/
def nanosPerSecond : Nat := 1000000000

/-- Whether an instant has these parts: the year is from -262143 to 262142, and only the last second
of a minute may be a leap second. -/
def InstantParts (seconds : Int) (nanos : Nat) : Prop :=
  -8334601228800 ≤ seconds ∧ seconds ≤ 8210266876799 ∧ nanos < 2 * nanosPerSecond ∧
    (nanos < nanosPerSecond ∨ seconds % 60 = 59)

instance (s : Int) (n : Nat) : Decidable (InstantParts s n) := by
  unfold InstantParts; infer_instance

/-- A point in time. -/
structure Instant where
  seconds : Int
  nanos : Nat
  parts : InstantParts seconds nanos

instance : DecidableEq Instant := fun a b =>
  if h : a.seconds = b.seconds ∧ a.nanos = b.nanos then
    .isTrue (by cases a; cases b; simp_all)
  else .isFalse (by rintro rfl; exact h ⟨rfl, rfl⟩)

namespace Instant

/-- The first instant of 1970. -/
def epoch : Instant :=
  ⟨0, 0, by decide⟩

instance : Inhabited Instant := ⟨epoch⟩

/-- The instant of the given parts, if there is one. -/
def ofParts? (seconds : Int) (nanos : Nat) : Option Instant :=
  if h : InstantParts seconds nanos then some ⟨seconds, nanos, h⟩ else none

/-- The instant of signed parts; negative nanoseconds are none. -/
def ofSigned? (seconds nanos : Int) : Option Instant :=
  if nanos < 0 then none else ofParts? seconds nanos.toNat

/-! ## Writing -/

/-- A number in at least `width` digits. -/
def padded (width n : Nat) : List Char :=
  let digits := Nat.toDigits 10 n
  List.replicate (width - digits.length) '0' ++ digits

/-- A year: four digits, and a sign outside of 0 to 9999. -/
def yearChars (year : Int) : List Char :=
  if 0 ≤ year ∧ year ≤ 9999 then padded 4 year.toNat
  else (if year < 0 then '-' else '+') :: padded 4 year.natAbs

/-- The fraction of a second in the fewest of 0, 3, 6 or 9 digits that are exact. -/
def fractionChars (nanos : Nat) : List Char :=
  if nanos = 0 then []
  else if nanos % 1000000 = 0 then '.' :: padded 3 (nanos / 1000000)
  else if nanos % 1000 = 0 then '.' :: padded 6 (nanos / 1000)
  else '.' :: padded 9 nanos

/-- The characters of an instant. -/
def chars (t : Instant) : List Char :=
  let date := dateOfDay (t.seconds / 86400)
  let clock := (t.seconds % 86400).toNat
  let leap := nanosPerSecond ≤ t.nanos
  let second := if leap then clock % 60 + 1 else clock % 60
  let nanos := if leap then t.nanos - nanosPerSecond else t.nanos
  yearChars date.year ++ '-' :: padded 2 date.month ++ '-' :: padded 2 date.day
    ++ 'T' :: padded 2 (clock / 3600) ++ ':' :: padded 2 (clock / 60 % 60)
    ++ ':' :: padded 2 second ++ fractionChars nanos ++ ['Z']

/-- The text of an instant. -/
def text (t : Instant) : String :=
  String.ofList t.chars

/-! ## Reading -/

/-- Up to `width` digits, at least one, behind any blanks. -/
def readNumber (width : Nat) (cs : List Char) : Option (Nat × List Char) :=
  let cs := trimStart cs
  let digits := (cs.take width).takeWhile Char.isDigit
  if digits = [] then none else some (Nat.ofDigitChars 10 digits 0, cs.drop digits.length)

/-- A number from `low` to `high` of at most two digits. -/
def readPart (low high : Nat) (cs : List Char) : Option (Nat × List Char) := do
  let (n, rest) ← readNumber 2 cs
  if low ≤ n ∧ n ≤ high then return (n, rest) else none

/-- A year: four digits at most, or any number of them behind a sign. -/
def readYear (cs : List Char) : Option (Int × List Char) :=
  match trimStart cs with
  | '-' :: rest => do
    let digits := rest.takeWhile Char.isDigit
    if digits = [] then none
    else return (-(Nat.ofDigitChars 10 digits 0 : Int), rest.dropWhile Char.isDigit)
  | '+' :: rest => do
    let digits := rest.takeWhile Char.isDigit
    if digits = [] then none
    else return ((Nat.ofDigitChars 10 digits 0 : Int), rest.dropWhile Char.isDigit)
  | rest => (readNumber 4 rest).map fun (n, rest) => ((n : Int), rest)

/-- A mark, behind any blanks. -/
def readMark (mark : Char) (cs : List Char) : Option (List Char) :=
  match trimStart cs with
  | c :: rest => if c = mark then some rest else none
  | [] => none

/-- The nanoseconds of a fraction; digits after the ninth are passed over. -/
def readFraction : List Char → Option (Nat × List Char)
  | '.' :: cs =>
    let digits := cs.takeWhile Char.isDigit
    if digits = [] then none
    else
      let kept := digits.take 9
      some (Nat.ofDigitChars 10 kept 0 * Nat.pow 10 (9 - kept.length), cs.dropWhile Char.isDigit)
  | cs => some (0, cs)

/-- Two digits. -/
def readPair : List Char → Option (Nat × List Char)
  | a :: b :: rest =>
    if a.isDigit ∧ b.isDigit then some (Nat.ofDigitChars 10 [a, b] 0, rest) else none
  | _ => none

/-- Hours and minutes behind the sign of an offset, in seconds. -/
def readOffsetParts (cs : List Char) : Option (Nat × List Char) := do
  let (hours, rest) ← readPair cs
  let (minutes, rest) ← readPair (rest.dropWhile fun c => c == ':' || isBlank c)
  if minutes < 60 ∧ hours < 24 then return (hours * 3600 + minutes * 60, rest) else none

/-- The seconds by which a local time is ahead of UTC. -/
def readOffset : List Char → Option (Int × List Char)
  | c :: rest =>
    if c = 'Z' ∨ c = 'z' then some (0, rest)
    else if c = '+' then (readOffsetParts rest).map fun (n, rest) => ((n : Int), rest)
    else if c = '-' ∨ c = '−' then (readOffsetParts rest).map fun (n, rest) => (-(n : Int), rest)
    else match c.toLower, rest with
      | 'u', t :: d :: rest =>
        if t.toLower = 't' ∧ d.toLower = 'c' then some (0, rest) else none
      | _, _ => none
  | [] => none

/-- Whether a year is one that instants have. -/
def isKnownYear (year : Int) : Bool :=
  -262143 ≤ year && year ≤ 262142

/-- A date. -/
def readDate (cs : List Char) : Option (Date × List Char) := do
  let (year, cs) ← readYear cs
  let cs ← readMark '-' cs
  let (month, cs) ← readPart 1 12 cs
  let cs ← readMark '-' cs
  let (day, cs) ← readPart 1 31 cs
  let date : Date := ⟨year, month, day⟩
  if date.IsValid ∧ isKnownYear year then return (date, cs) else none

/-- The seconds since midnight and the nanoseconds; second 60 is a leap second. -/
def readClock (cs : List Char) : Option ((Nat × Nat) × List Char) := do
  let (hour, cs) ← readPart 0 23 cs
  let cs ← readMark ':' cs
  let (minute, cs) ← readPart 0 59 cs
  let cs ← readMark ':' cs
  let (second, cs) ← readPart 0 60 cs
  let (nanos, cs) ← readFraction cs
  let start := hour * 3600 + minute * 60
  if second = 60 then return ((start + 59, nanos + nanosPerSecond), cs)
  else return ((start + second, nanos), cs)

/-- The instant of a text. -/
def readChars? (cs : List Char) : Option Instant := do
  let (date, cs) ← readDate cs
  let cs ← match cs with
    | 'T' :: cs => some cs
    | 't' :: cs => some cs
    | ' ' :: cs => some cs
    | _ => none
  let ((clock, nanos), cs) ← readClock cs
  let (offset, cs) ← readOffset (trimStart cs)
  if trimStart cs = [] then ofParts? (dayOfDate date * 86400 + clock - offset) nanos else none

/-- The instant of a text. -/
def read? (s : String) : Option Instant :=
  readChars? s.toList

example : (read? "2021-03-01T12:00:00.123456789+05:30").map text
    = some "2021-03-01T06:30:00.123456789Z" := by decide +kernel
example : (read? "2016-12-31T23:59:60Z").map text = some "2016-12-31T23:59:60Z" := by decide +kernel
example : (ofParts? (-8334601228800) 0).map text = some "-262143-01-01T00:00:00Z" := by
  decide +kernel

end Instant

end ChainIndexer
