import BuildPool.Text.Blank
import BuildPool.Number.Decimal
import BuildPool.Time.Instant

/-!
# RFC 3339 instants

Instants are written in UTC. They are read with any offset, in one of two ways: strictly, or with
blanks between the parts, shorter numbers and an optional colon in the offset.
-/

namespace BuildPool.Time

open BuildPool.Text BuildPool.Number

/-! ## Writing -/

/-- Decimal digits, filled up with zeros in front. -/
def padded (width n : Nat) : String :=
  let digits := digitsOf n
  String.ofList (List.replicate (width - digits.length) '0' ++ digits)

/-- Four digits, or a sign and at least four digits outside the years 0 to 9999. -/
def yearText (year : Int) : String :=
  if 0 ≤ year && year ≤ 9999 then padded 4 year.toNat
  else (if year < 0 then "-" else "+") ++ padded 4 year.natAbs

/-- The fraction of a second with 0, 3, 6 or 9 digits, the fewest that lose nothing. -/
def fractionText (nano : Nat) : String :=
  if nano == 0 then ""
  else if nano % 1000000 == 0 then "." ++ padded 3 (nano / 1000000)
  else if nano % 1000 == 0 then "." ++ padded 6 (nano / 1000)
  else "." ++ padded 9 nano

namespace Instant

def dateText (t : Instant) : String :=
  let date := Date.ofDays t.dayNumber
  yearText date.year ++ "-" ++ padded 2 date.month ++ "-" ++ padded 2 date.day

/-- Hours, minutes and seconds; a leap second is the sixtieth. -/
def clockText (t : Instant) : String :=
  let s := t.secondOfDay
  padded 2 (s / 3600) ++ ":" ++ padded 2 (s / 60 % 60) ++ ":" ++
    padded 2 (s % 60 + t.nano / nanosPerSecond)

/-- An instant in UTC, before the mark for the offset. -/
def localText (t : Instant) : String :=
  t.dateText ++ "T" ++ t.clockText ++ fractionText (t.nano % nanosPerSecond)

def toText (t : Instant) : String := t.localText ++ "Z"

/-- The same with a numeric offset. -/
def toOffsetText (t : Instant) : String := t.localText ++ "+00:00"

/-- Date and time for a reader at a terminal, to the second. -/
def toDisplay (t : Instant) : String := t.dateText ++ " " ++ t.clockText

end Instant

/-! ## Reading numbers and marks -/

/-- At least `min` and at most `max` digits, and what follows. -/
def readNumber (min max : Nat) (chars : List Char) : Option (Nat × List Char) :=
  let digits := (chars.take max).takeWhile Char.isDigit
  if digits.length < min then none else some (ofDigits digits, chars.drop digits.length)

def readMark (mark : Char) : List Char → Option (List Char)
  | [] => none
  | c :: rest => if c == mark then some rest else none

/-- The mark between date and time. -/
def readSeparator : List Char → Option (List Char)
  | [] => none
  | c :: rest => if c == 'T' || c == 't' || c == ' ' then some rest else none

/-- A fraction of any length, cut after nine digits. -/
def readFraction : List Char → Option (Nat × List Char)
  | '.' :: rest =>
    let digits := rest.takeWhile Char.isDigit
    if digits.isEmpty then none
    else
      let kept := digits.take 9
      some (ofDigits kept * Nat.pow 10 (9 - kept.length), rest.drop digits.length)
  | chars => some (0, chars)

def readSign : List Char → Option (Bool × List Char)
  | '+' :: rest => some (false, rest)
  | '-' :: rest => some (true, rest)
  | '−' :: rest => some (true, rest)
  | _ => none

/-- An offset from UTC in seconds; `colon` reads what stands between hours and minutes. -/
def readOffset (colon : List Char → Option (List Char)) (chars : List Char) :
    Option (Int × List Char) :=
  match chars with
  | 'Z' :: rest => some (0, rest)
  | 'z' :: rest => some (0, rest)
  | _ => do
    let (negative, chars) ← readSign chars
    let (hours, chars) ← readNumber 2 2 chars
    let chars ← colon chars
    let (minutes, chars) ← readNumber 2 2 chars
    if 59 < minutes then none
    else
      let seconds : Int := hours * 3600 + minutes * 60
      some (if negative then -seconds else seconds, chars)

/-! ## From parts to an instant -/

structure Written where
  date : Date
  hour : Nat
  minute : Nat
  second : Nat
  nano : Nat
  offset : Int

/-- The instant with these parts, if there is such a date, time of day and offset. A sixtieth second
is a leap second. -/
def Written.toInstant? (w : Written) : Option Instant :=
  if w.date.isValid && w.hour ≤ 23 && w.minute ≤ 59 && w.second ≤ 60 &&
      w.offset.natAbs < 86400 then
    let leap := w.second == 60
    let clock : Int := w.hour * 3600 + w.minute * 60 + (if leap then 59 else w.second)
    let second := w.date.toDays * secondsPerDay + clock - w.offset
    if yearInRange (Date.ofDays (second.fdiv secondsPerDay)).year then
      some ⟨second, w.nano + if leap then nanosPerSecond else 0⟩
    else none
  else none

/-! ## Strict reading -/

def readStrict (chars : List Char) : Option Written := do
  let (year, chars) ← readNumber 4 4 chars
  let chars ← readMark '-' chars
  let (month, chars) ← readNumber 2 2 chars
  let chars ← readMark '-' chars
  let (day, chars) ← readNumber 2 2 chars
  let chars ← readSeparator chars
  let (hour, chars) ← readNumber 2 2 chars
  let chars ← readMark ':' chars
  let (minute, chars) ← readNumber 2 2 chars
  let chars ← readMark ':' chars
  let (second, chars) ← readNumber 2 2 chars
  let (nano, chars) ← readFraction chars
  let (offset, chars) ← readOffset (readMark ':') chars
  if chars.isEmpty then some ⟨⟨year, month, day⟩, hour, minute, second, nano, offset⟩ else none

/-- The instant that a text writes in the form of RFC 3339. -/
def Instant.ofStrict? (text : String) : Option Instant :=
  (readStrict text.toList).bind Written.toInstant?

/-! ## Lenient reading -/

/-- A year of up to four digits, or of any length after a sign. -/
def readYear (chars : List Char) : Option (Int × List Char) :=
  match chars with
  | '-' :: rest => (readNumber 1 rest.length rest).map fun (n, rest) => (-(n : Int), rest)
  | '+' :: rest => (readNumber 1 rest.length rest).map fun (n, rest) => ((n : Int), rest)
  | _ => (readNumber 1 4 chars).map fun (n, rest) => ((n : Int), rest)

/-- Up to two digits, after blanks. -/
def readPair (chars : List Char) : Option (Nat × List Char) := readNumber 1 2 (trimStart chars)

def readLooseMark (mark : Char) (chars : List Char) : Option (List Char) :=
  readMark mark (trimStart chars)

/-- Colons and blanks between the hours and minutes of an offset, or nothing. -/
def dropColons (chars : List Char) : Option (List Char) :=
  some (chars.dropWhile fun c => c == ':' || isBlankChar c)

/-- The letters `UTC`, in any case, or an offset. -/
def readZone (chars : List Char) : Option (Int × List Char) :=
  if (chars.take 3).map Char.toUpper == ['U', 'T', 'C'] then some (0, chars.drop 3)
  else readOffset dropColons chars

def readLenient (chars : List Char) : Option Written := do
  let (year, chars) ← readYear (trimStart chars)
  let chars ← readLooseMark '-' chars
  let (month, chars) ← readPair chars
  let chars ← readLooseMark '-' chars
  let (day, chars) ← readPair chars
  let chars ← readSeparator chars
  let (hour, chars) ← readPair chars
  let chars ← readLooseMark ':' chars
  let (minute, chars) ← readPair chars
  let chars ← readLooseMark ':' chars
  let (second, chars) ← readPair chars
  let (nano, chars) ← readFraction chars
  let (offset, chars) ← readZone (trimStart chars)
  if (trimStart chars).isEmpty then
    some ⟨⟨year, month, day⟩, hour, minute, second, nano, offset⟩
  else none

/-- The instant that a text writes, with blanks and short numbers allowed. -/
def Instant.ofText? (text : String) : Option Instant :=
  (readLenient text.toList).bind Written.toInstant?

end BuildPool.Time
