import BuildPool.Number.Whole
import BuildPool.Proofs.Json.Numerals

/-!
# Whole numbers, written and read

A whole number within the bound is read from the digits that are written for it, with its sign.
-/

namespace BuildPool.Number

open BuildPool.Json

theorem le_foldl_digits (s : Nat) (digits : List Char) :
    s ≤ digits.foldl (fun n c => 10 * n + digitValue c) s := by
  induction digits generalizing s with
  | nil => exact le_rfl
  | cons c rest ih => exact le_trans (by omega) (ih (10 * s + digitValue c))

theorem digitsUpTo_digits {bound s : Nat} {digits : List Char} (overflow : WholeFault)
    (hdigits : ∀ c ∈ digits, c.isDigit = true)
    (hbound : digits.foldl (fun n c => 10 * n + digitValue c) s ≤ bound) :
    digitsUpTo bound overflow s digits =
      .ok (digits.foldl (fun n c => 10 * n + digitValue c) s) := by
  induction digits generalizing s with
  | nil => rfl
  | cons c rest ih =>
    obtain ⟨hc, hrest⟩ := List.forall_mem_cons.1 hdigits
    have hnext : 10 * s + digitValue c ≤ bound := (le_foldl_digits _ rest).trans hbound
    rw [digitsUpTo, if_pos hc]
    exact (if_pos hnext).trans (ih hrest hbound)

theorem digitsUpTo_digitsOf {bound n : Nat} (h : n ≤ bound) (overflow : WholeFault) :
    digitsUpTo bound overflow 0 (digitsOf n) = .ok n := by
  have hvalue : (digitsOf n).foldl (fun n c => 10 * n + digitValue c) 0 = n := ofDigits_digitsOf n
  have hread := digitsUpTo_digits (s := 0) overflow (fun c => isDigit_of_mem_digitsOf)
    (hvalue.trans_le h)
  rwa [hvalue] at hread

theorem readUnsigned_digits {bound n : Nat} {text : String} (htext : text.toList = digitsOf n)
    (h : n ≤ bound) : readUnsigned bound text = .ok n := by
  obtain ⟨c, rest, hdigits, hc⟩ := digitsOf_eq_cons n
  have hread := digitsUpTo_digitsOf h .tooLarge
  unfold readUnsigned
  rw [htext]
  rw [hdigits] at hread ⊢
  split
  · rename_i heq
    cases heq
  · rename_i heq
    obtain ⟨rfl, -⟩ := List.cons.inj heq
    cases hc
  · exact hread

theorem readSigned_toString {bound : Nat} {z : Int} (hlow : -(bound : Int) - 1 ≤ z)
    (hhigh : z ≤ bound) : readSigned bound (toString z) = .ok z := by
  have htext := toList_toString_int z
  unfold intChars at htext
  by_cases hnegative : z < 0
  · rw [if_pos hnegative] at htext
    obtain ⟨c, rest, hdigits, -⟩ := digitsOf_eq_cons z.natAbs
    have hread : someDigitsUpTo (bound + 1) .tooSmall (digitsOf z.natAbs) = .ok z.natAbs := by
      have hsome : ¬ (digitsOf z.natAbs).isEmpty = true := by simp [hdigits]
      exact (if_neg hsome).trans (digitsUpTo_digitsOf (by omega) _)
    have hvalue : -(z.natAbs : Int) = z := by omega
    unfold readSigned
    simp only [htext, hread]
    exact congrArg Except.ok hvalue
  · rw [if_neg hnegative] at htext
    obtain ⟨c, rest, hdigits, hc⟩ := digitsOf_eq_cons z.natAbs
    have hread : readUnsigned bound (toString z) = .ok z.natAbs :=
      readUnsigned_digits htext (by omega)
    have hvalue : (z.natAbs : Int) = z := by omega
    unfold readSigned
    split
    · rename_i heq
      rw [htext, hdigits] at heq
      obtain ⟨rfl, -⟩ := List.cons.inj heq
      cases hc
    · rw [hread]
      exact congrArg Except.ok hvalue

/-- A number of a narrower range is read from what is written for it. -/
theorem readBetween_toString {low high z : Int} (hlow : low ≤ z) (hhigh : z ≤ high)
    (hword : -(Nat.pow 2 63 : Int) ≤ z ∧ z < Nat.pow 2 63) :
    readBetween low high (toString z) = .ok z := by
  have hread : readSigned (Nat.pow 2 63 - 1) (toString z) = .ok z :=
    readSigned_toString (by omega) (by omega)
  unfold readBetween
  rw [hread]
  exact if_pos (by simp [hlow, hhigh])

end BuildPool.Number
