/-!
# Decimal numerals

A numeral with a fraction or an exponent, kept digit by digit, and the binary number it is read as.
Reading keeps as many digits as fit 64 bits and scales once by a power of ten; both steps round to
the nearest binary number.
-/

namespace BuildPool.Number

/-- A numeral such as `-12.50e3`: whole part, digits after the point, power of ten. -/
structure Decimal where
  negative : Bool
  whole : Nat
  fraction : List Char
  exponent : Option Int
deriving DecidableEq, Repr

def digitValue (c : Char) : Nat := c.toNat - '0'.toNat

def digitsOf (n : Nat) : List Char := Nat.toDigits 10 n

def ofDigits (digits : List Char) : Nat :=
  digits.foldl (fun n c => 10 * n + digitValue c) 0

/-! ## The significand -/

def significandLimit : Nat := UInt64.size - 1

/-- Takes digits into a significand as long as it fits, and gives back the digits that are left. -/
def takeDigits : Nat → List Char → Nat × List Char
  | s, [] => (s, [])
  | s, c :: rest =>
    let next := 10 * s + digitValue c
    if next ≤ significandLimit then takeDigits next rest else (s, c :: rest)

/-- A significand never outgrows 64 bits. -/
theorem takeDigits_le {s : Nat} (h : s ≤ significandLimit) (digits : List Char) :
    (takeDigits s digits).1 ≤ significandLimit := by
  induction digits generalizing s with
  | nil => exact h
  | cons c rest ih =>
    simp only [takeDigits]
    split
    · next hnext => exact ih hnext
    · exact h

/-! ## Scaling -/

def largestPower : Nat := 308

def powerOfTen (n : Nat) : Float := Float.ofScientific 1 false n

/--
Multiplies by a power of ten, `none` if the result is too large. A power that is too small for one
division is applied in steps, of which two leave nothing of a 64-bit significand.
-/
def scale : Nat → Float → Int → Option Float
  | steps, f, e =>
    if e.natAbs ≤ largestPower then
      if 0 ≤ e then
        let product := f * powerOfTen e.natAbs
        if product.isInf then none else some product
      else some (f / powerOfTen e.natAbs)
    else if f == 0 then some f
    else if 0 ≤ e then none
    else match steps with
      | 0 => some 0
      | steps + 1 => scale steps (f / powerOfTen largestPower) (e + largestPower)

/-! ## Reading -/

/-- Reads digits around a point; `none` if the number is too large. -/
def readDigits (negative : Bool) (whole fraction : List Char) (exponent : Int) : Option Float :=
  let (s, dropped) := takeDigits 0 whole
  let (s, unread) := takeDigits s fraction
  let read := fraction.length - unread.length
  let magnitude := scale 3 s.toUInt64.toFloat (exponent + dropped.length - read)
  magnitude.map fun f => if negative then -f else f

/-- The binary number that a numeral is read as; `none` if it is too large. -/
def Decimal.toFloat? (d : Decimal) : Option Float :=
  readDigits d.negative (digitsOf d.whole) d.fraction (d.exponent.getD 0)

/-- The binary number that a whole number is read as; `none` if it is too large. -/
def floatOfInt? (n : Int) : Option Float :=
  readDigits (n < 0) (digitsOf n.natAbs) [] 0

end BuildPool.Number
