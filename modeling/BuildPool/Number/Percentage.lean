import BuildPool.Number.Shortest
import BuildPool.Number.UnitRange

/-!
# Whole percentages

A fraction is shown as a whole number of percent. The product with one hundred is rounded once as a
binary number, and its exact value once more to a whole number, where a half goes to the even
neighbour.
-/

namespace BuildPool.Number

/-- Rounds a quotient to the nearest whole number, a half to the even one. -/
def roundHalfEven (n d : Nat) : Nat :=
  let q := n / d
  let twice := 2 * (n % d)
  if twice < d || (twice == d && q % 2 == 0) then q else q + 1

/-- The result is within half a unit of the quotient. -/
theorem roundHalfEven_near (n d : Nat) (h : 0 < d) :
    2 * (roundHalfEven n d * d) ≤ 2 * n + d ∧ 2 * n ≤ 2 * (roundHalfEven n d * d) + d := by
  have hdiv := Nat.div_add_mod n d
  have hmod := Nat.mod_lt n h
  have hcomm := Nat.mul_comm d (n / d)
  simp only [roundHalfEven]
  split
  · next hc =>
    simp only [Bool.or_eq_true, decide_eq_true_eq, Bool.and_eq_true, beq_iff_eq] at hc
    omega
  · next hc =>
    simp only [Bool.or_eq_true, decide_eq_true_eq, Bool.and_eq_true, beq_iff_eq] at hc
    have hmul : (n / d + 1) * d = n / d * d + d := Nat.succ_mul _ _
    omega

def percentage (f : Float) : String :=
  let p := parts (clampUnit f * 100.0)
  let whole := roundHalfEven (p.significand * Nat.pow 2 p.exponent.toNat)
    (Nat.pow 2 (-p.exponent).toNat)
  (if p.negative then "-" else "") ++ toString whole ++ "%"

end BuildPool.Number
