/-!
# Socket addresses

Which texts are the address of a socket: an address of the fourth version, or one of the sixth in
brackets, with a port behind a colon. Names of hosts are none.
-/

namespace BuildPool.Startup

/-- What follows a part of an address that is well formed. -/
abbrev Rest := Option (List Char)

/-- The value of a digit, if it is one in the base. -/
def digitIn? (base : Nat) (c : Char) : Option Nat :=
  let n := if '0' ≤ c && c ≤ '9' then c.toNat - '0'.toNat
    else if 'a' ≤ c && c ≤ 'f' then c.toNat - 'a'.toNat + 10
    else if 'A' ≤ c && c ≤ 'F' then c.toNat - 'A'.toNat + 10
    else base
  if n < base then some n else none

def isDigitIn (base : Nat) (c : Char) : Bool := (digitIn? base c).isSome

def valueIn (base : Nat) (digits : List Char) : Nat :=
  digits.foldl (fun n c => base * n + (digitIn? base c).getD 0) 0

/-- A number below a bound, with at least one digit. -/
def afterNumber (base bound : Nat) (chars : List Char) : Rest :=
  let digits := chars.takeWhile (isDigitIn base)
  if digits.isEmpty || bound ≤ valueIn base digits then none else some (chars.drop digits.length)

def afterChar (c : Char) : List Char → Rest
  | [] => none
  | d :: rest => if d == c then some rest else none

/-! ## The fourth version -/

/-- A number of up to three digits below 256, without a zero in front. -/
def afterByte (chars : List Char) : Rest :=
  let digits := chars.takeWhile Char.isDigit
  if 3 < digits.length || (1 < digits.length && digits.head? == some '0') then none
  else afterNumber 10 256 chars

/-- Four numbers between dots. -/
def afterFour (chars : List Char) : Rest := do
  let rest ← afterByte chars
  let rest ← afterByte (← afterChar '.' rest)
  let rest ← afterByte (← afterChar '.' rest)
  afterByte (← afterChar '.' rest)

/-! ## The sixth version -/

/-- A group of up to four hexadecimal digits. -/
def afterGroup (chars : List Char) : Rest :=
  if 4 < (chars.takeWhile (isDigitIn 16)).length then none else afterNumber 16 65536 chars

/-- What stands in front of a group: nothing before the first one, else a colon. -/
def afterColon (isFirst : Bool) (chars : List Char) : Rest :=
  if isFirst then some chars else afterChar ':' chars

/-- Up to `room` groups. Where two of them could stand, an address of the fourth version may stand
at the end instead. The answer is how many were read, whether the end was such an address, and what
follows. -/
def readGroups : Nat → Bool → List Char → Nat × Bool × List Char
  | 0, _, chars => (0, false, chars)
  | room + 1, isFirst, chars =>
    match if 0 < room then (afterColon isFirst chars).bind afterFour else none with
    | some rest => (2, true, rest)
    | none =>
      match (afterColon isFirst chars).bind afterGroup with
      | none => (0, false, chars)
      | some rest =>
        let (count, four, rest) := readGroups room false rest
        (count + 1, four, rest)

/-- Eight groups, or fewer with two colons for those that are left out. -/
def afterSix (chars : List Char) : Rest := do
  let (count, four, rest) := readGroups 8 true chars
  if count == 8 then some rest
  else if four then none
  else
    let rest ← afterChar ':' (← afterChar ':' rest)
    let (_, _, rest) := readGroups (7 - count) true rest
    some rest

/-- The zone of an address, if there is one. -/
def afterZone : List Char → Rest
  | '%' :: rest => afterNumber 10 UInt32.size rest
  | chars => some chars

/-! ## Sockets -/

def afterPort (chars : List Char) : Rest := do afterNumber 10 65536 (← afterChar ':' chars)

def afterSocketFour (chars : List Char) : Rest := do afterPort (← afterFour chars)

def afterSocketSix (chars : List Char) : Rest := do
  let rest ← afterSix (← afterChar '[' chars)
  afterPort (← afterChar ']' (← afterZone rest))

def isSocketAddress (text : String) : Bool :=
  afterSocketFour text.toList == some [] || afterSocketSix text.toList == some []

end BuildPool.Startup
