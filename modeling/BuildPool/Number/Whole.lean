/-!
# Whole numbers in texts

Decimal numbers with an optional sign, read digit by digit up to a bound. A text is refused at the
first character that is no digit or makes the number too large.
-/

namespace BuildPool.Number

inductive WholeFault
  | empty
  | invalidDigit
  | tooLarge
  | tooSmall
deriving DecidableEq, Repr

def WholeFault.message : WholeFault → String
  | empty => "cannot parse integer from empty string"
  | invalidDigit => "invalid digit found in string"
  | tooLarge => "number too large to fit in target type"
  | tooSmall => "number too small to fit in target type"

/-- Digits behind a number that is read already, up to a bound. -/
def digitsUpTo (bound : Nat) (overflow : WholeFault) : Nat → List Char → Except WholeFault Nat
  | n, [] => .ok n
  | n, c :: rest =>
    if c.isDigit then
      let m := 10 * n + (c.toNat - '0'.toNat)
      if m ≤ bound then digitsUpTo bound overflow m rest else .error overflow
    else .error .invalidDigit

def someDigitsUpTo (bound : Nat) (overflow : WholeFault) (digits : List Char) :
    Except WholeFault Nat :=
  if digits.isEmpty then .error .invalidDigit else digitsUpTo bound overflow 0 digits

/-- A number from 0 to a bound, perhaps after a plus sign. -/
def readUnsigned (bound : Nat) (text : String) : Except WholeFault Nat :=
  match text.toList with
  | [] => .error .empty
  | '+' :: digits => someDigitsUpTo bound .tooLarge digits
  | digits => digitsUpTo bound .tooLarge 0 digits

/-- A number from `-bound - 1` to `bound`. -/
def readSigned (bound : Nat) (text : String) : Except WholeFault Int :=
  match text.toList with
  | '-' :: digits => (someDigitsUpTo (bound + 1) .tooSmall digits).map fun n => -(n : Int)
  | _ => (readUnsigned bound text).map Int.ofNat

/-- A number between two bounds, which are within a signed word of 64 bits. One outside them is read
first, so that the message can show it. -/
def readBetween (low high : Int) (text : String) : Except String Int :=
  match readSigned (Nat.pow 2 63 - 1) text with
  | .error fault => .error fault.message
  | .ok n =>
    if low ≤ n && n ≤ high then .ok n
    else .error (toString n ++ " is not in " ++ toString low ++ "..=" ++ toString high)

def readWord (text : String) : Except String Nat :=
  (readUnsigned (UInt64.size - 1) text).mapError WholeFault.message

theorem digitsUpTo_le {bound n m : Nat} {overflow : WholeFault} {chars : List Char}
    (hn : n ≤ bound) (h : digitsUpTo bound overflow n chars = .ok m) : m ≤ bound := by
  induction chars generalizing n with
  | nil => simp only [digitsUpTo, Except.ok.injEq] at h; omega
  | cons c rest ih =>
    simp only [digitsUpTo] at h
    split at h
    · split at h
      · next hle => exact ih hle h
      · cases h
    · cases h

end BuildPool.Number
