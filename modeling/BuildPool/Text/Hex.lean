/-!
# Hexadecimal digits

Numbers and bytes in lower-case hexadecimal.
-/

namespace BuildPool.Text

/-- Lower-case digits, filled up with zeros in front. -/
def hexPadded (width n : Nat) : List Char :=
  let digits := Nat.toDigits 16 n
  List.replicate (width - digits.length) '0' ++ digits

/-- Two digits for a byte. -/
def hexByte (b : UInt8) : List Char := hexPadded 2 b.toNat

def hexOfBytes (bytes : List UInt8) : String := String.ofList (bytes.flatMap hexByte)

/-- The value of a hexadecimal digit in either case. -/
def hexValue? (c : Char) : Option Nat :=
  if '0' ≤ c && c ≤ '9' then some (c.toNat - '0'.toNat)
  else if 'a' ≤ c && c ≤ 'f' then some (c.toNat - 'a'.toNat + 10)
  else if 'A' ≤ c && c ≤ 'F' then some (c.toNat - 'A'.toNat + 10)
  else none

theorem hexPadded_length_of_lt {width n : Nat} (h : (Nat.toDigits 16 n).length ≤ width) :
    (hexPadded width n).length = width := by
  simp [hexPadded]; omega

end BuildPool.Text
