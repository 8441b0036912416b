import BuildPool.Number.Decimal

/-!
# Shortest decimals

A finite binary number is written with the fewest digits that lie nearer to it than to any other
binary number. It is `m * 2 ^ q` for whole `m` and `q`, so all comparisons are between natural
numbers.
-/

namespace BuildPool.Number

/-! ## The parts of a binary number -/

/-- Sign, significand and binary exponent of a finite number, and whether it is a power of two whose
lower neighbour is only half as far away as the upper one. -/
structure Parts where
  negative : Bool
  significand : Nat
  exponent : Int
  narrowBelow : Bool
deriving DecidableEq, Repr

def parts (f : Float) : Parts :=
  let bits := f.toBits.toNat
  let field : Nat := bits / Nat.pow 2 52 % Nat.pow 2 11
  let rest : Nat := bits % Nat.pow 2 52
  let negative := bits / Nat.pow 2 63 == 1
  if field == 0 then ⟨negative, rest, -1074, false⟩
  else ⟨negative, Nat.pow 2 52 + rest, (field : Int) - 1075, rest == 0 && 1 < field⟩

/-! ## The grid of a decimal exponent -/

/-- A multiple `c * 10 ^ k` of a power of ten, against quarters of `2 ^ q`: both sides times the
same number, so that they are whole. -/
def onGrid (q k : Int) (c : Nat) : Nat := 4 * c * Nat.pow 10 k.toNat * Nat.pow 2 (-q).toNat

def quarters (q k : Int) (x : Nat) : Nat := x * Nat.pow 10 (-k).toNat * Nat.pow 2 q.toNat

/-- Whether `c * 10 ^ k` is read as the number with these parts. The ends of the interval are read
as the number with the even significand. -/
def readsAs (p : Parts) (k : Int) (c : Nat) : Bool :=
  let point := onGrid p.exponent k c
  let low := quarters p.exponent k (4 * p.significand - if p.narrowBelow then 1 else 2)
  let high := quarters p.exponent k (4 * p.significand + 2)
  if p.significand % 2 == 0 then low ≤ point && point ≤ high
  else low < point && point < high

/-- The neighbours of the number on the grid `10 ^ k`, if one of them reads back; of two the nearer,
of two as near the even one. -/
def onGrid? (p : Parts) (k : Int) : Option Nat :=
  let value := quarters p.exponent k (4 * p.significand)
  let below := value / onGrid p.exponent k 1
  let above := below + 1
  match readsAs p k below, readsAs p k above with
  | true, false => some below
  | false, true => some above
  | false, false => none
  | true, true =>
    let toBelow := value - onGrid p.exponent k below
    let toAbove := onGrid p.exponent k above - value
    if toBelow < toAbove || (toBelow == toAbove && below % 2 == 0) then some below else some above

/-! ## The search -/

/-- The decimal exponent of the leading digit of a number below one. -/
def leadingExponent : Nat → Parts → Nat → Int
  | 0, _, j => -(j : Int)
  | fuel + 1, p, j =>
    if 1 ≤ p.significand * Nat.pow 10 j * Nat.pow 2 p.exponent.toNat /
        Nat.pow 2 (-p.exponent).toNat then -(j : Int)
    else leadingExponent fuel p (j + 1)

/-- The `e` with `10 ^ e ≤ value < 10 ^ (e + 1)`. -/
def decimalExponent (p : Parts) : Int :=
  let floor := p.significand * Nat.pow 2 p.exponent.toNat / Nat.pow 2 (-p.exponent).toNat
  if floor == 0 then leadingExponent 330 p 1 else (digitsOf floor).length - 1

/-- Tries one digit, then two, up to the seventeen that always suffice. -/
def search (p : Parts) (e : Int) : Nat → Nat → Nat × Int
  | 0, _ => (p.significand, 0)
  | fuel + 1, digits =>
    let k := e - digits
    match onGrid? p k with
    | some c => (c, k)
    | none => search p e fuel (digits + 1)

def stripZeros : Nat → Nat × Int → Nat × Int
  | 0, r => r
  | fuel + 1, (c, k) => if c % 10 == 0 then stripZeros fuel (c / 10, k + 1) else (c, k)

/-- The shortest `c` and `k` such that `c * 10 ^ k` reads as the number; `c` does not end in
zero. -/
def shortest (p : Parts) : Nat × Int :=
  if p.significand == 0 then (0, 0) else stripZeros 18 (search p (decimalExponent p) 18 0)

/-! ## The written form -/

/-- Where positional notation ends: the point stands at most this far behind the first digit, and
fewer than this many zeros follow it. -/
structure PositionalRange where
  behind : Int
  zeros : Int

/-- Numbers from `0.00001` up to below `10 ^ 16` are written positionally. -/
def positional : PositionalRange := ⟨16, 5⟩

/-- Writes a finite number: a point with a digit on each side, or a digit, perhaps a point with
digits, and a power of ten. -/
def decimalOf (f : Float) : Decimal :=
  let p := parts f
  let (c, k) := shortest p
  let digits := digitsOf c
  let point : Int := digits.length + k
  if 0 ≤ k && point ≤ positional.behind then ⟨p.negative, c * Nat.pow 10 k.toNat, ['0'], none⟩
  else if 0 < point && point ≤ positional.behind then
    ⟨p.negative, ofDigits (digits.take point.toNat), digits.drop point.toNat, none⟩
  else if -positional.zeros < point && point ≤ 0 then
    ⟨p.negative, 0, List.replicate (-point).toNat '0' ++ digits, none⟩
  else ⟨p.negative, ofDigits (digits.take 1), digits.drop 1, some (point - 1)⟩

end BuildPool.Number
