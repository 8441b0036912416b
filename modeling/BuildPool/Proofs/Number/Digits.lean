import Mathlib.Tactic
import BuildPool.Json.Reader
import BuildPool.Time.Rfc3339

/-!
# Digits

The digits of a number are read as the number again, with zeros in front or not, and a reader that
takes digits off a text takes just these, if no digit follows.
-/

namespace BuildPool.Number

theorem ofDigits_eq (digits : List Char) : ofDigits digits = Nat.ofDigitChars 10 digits 0 :=
  Nat.ofDigitChars_eq_foldl.symm

theorem ofDigits_digitsOf (n : Nat) : ofDigits (digitsOf n) = n := by
  rw [ofDigits_eq, digitsOf, Nat.ofDigitChars_ten_toDigits]

theorem isDigit_of_mem_digitsOf {n : Nat} {c : Char} (h : c ∈ digitsOf n) : c.isDigit = true :=
  Nat.isDigit_of_mem_toDigits (by decide) (by decide) h

theorem digitsOf_ne_nil (n : Nat) : digitsOf n ≠ [] := Nat.toDigits_ne_nil

theorem digitsOf_length_le {n width : Nat} (hwidth : 0 < width) (h : n < 10 ^ width) :
    (digitsOf n).length ≤ width :=
  (Nat.length_toDigits_le_iff (by decide) hwidth).2 h

/-- Only the number zero is written with a zero in front. -/
theorem digitsOf_eq_zero_cons {n : Nat} {rest : List Char} (h : digitsOf n = '0' :: rest) :
    n = 0 ∧ rest = [] := by
  induction n using Nat.strongRecOn generalizing rest with
  | ind n ih =>
    rw [digitsOf, Nat.toDigits_eq_if (by decide)] at h
    split at h
    · obtain ⟨hhead, hrest⟩ := List.cons.inj h
      exact ⟨Nat.digitChar_eq_zero.1 hhead, hrest.symm⟩
    · rename_i hlarge
      -- The first digit is that of a tenth of the number, which is smaller and not zero.
      cases hdigits : Nat.toDigits 10 (n / 10) with
      | nil => exact absurd hdigits Nat.toDigits_ne_nil
      | cons c tail =>
        rw [hdigits] at h
        obtain ⟨rfl, -⟩ := List.cons.inj h
        have hzero := (ih (n / 10) (by omega) hdigits).1
        omega

/-! ## Zeros in front -/

theorem ofDigits_replicate_append (count : Nat) (digits : List Char) :
    ofDigits (List.replicate count '0' ++ digits) = ofDigits digits := by
  rw [ofDigits_eq, ofDigits_eq, Nat.ofDigitChars_append, Nat.ofDigitChars_replicate_zero,
    Nat.mul_zero]

end BuildPool.Number

namespace BuildPool.Json

open BuildPool.Number

/-! ## Digits in front of a text -/

/-- No digit stands in front. -/
def NoDigit (chars : List Char) : Prop := ∀ c ∈ chars.head?, c.isDigit = false

theorem noDigit_cons {c : Char} {rest : List Char} (h : c.isDigit = false) : NoDigit (c :: rest) := by
  intro x hx
  cases hx
  exact h

theorem noDigit_nil : NoDigit [] := by
  intro x hx
  cases hx

theorem noDigit_take {chars : List Char} (h : NoDigit chars) (count : Nat) :
    NoDigit (chars.take count) := by
  cases count with
  | zero => exact noDigit_nil
  | succ count =>
    cases chars with
    | nil => exact noDigit_nil
    | cons c rest => exact noDigit_cons (h c rfl)

theorem takeWhile_digits {digits rest : List Char} (hdigits : ∀ c ∈ digits, c.isDigit = true)
    (hrest : NoDigit rest) : (digits ++ rest).takeWhile Char.isDigit = digits := by
  rw [List.takeWhile_append_of_pos hdigits]
  cases rest with
  | nil => rw [List.takeWhile_nil, List.append_nil]
  | cons c tail => rw [List.takeWhile_cons_of_neg (by simp [hrest c rfl]), List.append_nil]

theorem spanDigits_append {digits rest : List Char} (hdigits : ∀ c ∈ digits, c.isDigit = true)
    (hrest : NoDigit rest) : spanDigits (digits ++ rest) = (digits, rest) := by
  have htake := takeWhile_digits hdigits hrest
  rw [spanDigits, List.span_eq_takeWhile_dropWhile, htake]
  have hsplit := List.takeWhile_append_dropWhile (p := Char.isDigit) (l := digits ++ rest)
  rw [htake] at hsplit
  rw [List.append_cancel_left hsplit]

/-- The digits of a number, with another text behind them. -/
theorem readWhole_digitsOf (n : Nat) {rest : List Char} (hrest : NoDigit rest) :
    readWhole (digitsOf n ++ rest) = some (digitsOf n, rest) := by
  rw [readWhole, spanDigits_append (fun c hc => isDigit_of_mem_digitsOf hc) hrest]
  split
  · rename_i hnil
    exact absurd (Prod.mk.inj hnil).1 (digitsOf_ne_nil n)
  · rename_i c tail _ hzero
    obtain ⟨-, htail⟩ := digitsOf_eq_zero_cons (Prod.mk.inj hzero).1
    cases htail
  · rename_i heq
    obtain ⟨rfl, rfl⟩ := Prod.mk.inj heq
    rfl

end BuildPool.Json

namespace BuildPool.Time

open BuildPool.Number BuildPool.Json

/-! ## Numbers of a fixed width -/

theorem padded_toList (width n : Nat) :
    (padded width n).toList = List.replicate (width - (digitsOf n).length) '0' ++ digitsOf n := by
  rw [padded, String.toList_ofList]

theorem isDigit_of_mem_padded {width n : Nat} {c : Char} (h : c ∈ (padded width n).toList) :
    c.isDigit = true := by
  rw [padded_toList] at h
  rcases List.mem_append.1 h with h | h
  · rw [List.eq_of_mem_replicate h]
    rfl
  · exact isDigit_of_mem_digitsOf h

theorem ofDigits_padded (width n : Nat) : ofDigits (padded width n).toList = n := by
  rw [padded_toList, ofDigits_replicate_append, ofDigits_digitsOf]

theorem length_padded (width n : Nat) :
    (padded width n).toList.length = max width (digitsOf n).length := by
  rw [padded_toList, List.length_append, List.length_replicate]
  omega

theorem length_padded_of_lt (width n : Nat) (hwidth : 0 < width) (h : n < 10 ^ width) :
    (padded width n).toList.length = width := by
  have hle := digitsOf_length_le hwidth h
  rw [length_padded]
  omega

theorem padded_eq_cons (width n : Nat) :
    ∃ c rest, (padded width n).toList = c :: rest ∧ c.isDigit = true := by
  cases hpadded : (padded width n).toList with
  | nil =>
    have hlength := length_padded width n
    have hpos := List.length_pos_iff.2 (digitsOf_ne_nil n)
    rw [hpadded, List.length_nil] at hlength
    omega
  | cons c rest =>
    have hmem : c ∈ (padded width n).toList := by
      rw [hpadded]
      exact List.mem_cons_self
    exact ⟨c, rest, rfl, isDigit_of_mem_padded hmem⟩

/-- A number is read back if its digits are as many as are asked for, and the text is cut there or
no digit follows. -/
theorem readNumber_padded {least most width n : Nat} {rest : List Char}
    (hleast : least ≤ (padded width n).toList.length)
    (hmost : (padded width n).toList.length ≤ most)
    (hrest : (padded width n).toList.length = most ∨ NoDigit rest) :
    readNumber least most ((padded width n).toList ++ rest) = some (n, rest) := by
  have hdigits : ∀ c ∈ (padded width n).toList, c.isDigit = true :=
    fun c hc => isDigit_of_mem_padded hc
  have htaken : (((padded width n).toList ++ rest).take most).takeWhile Char.isDigit =
      (padded width n).toList := by
    rw [List.take_append, List.take_of_length_le hmost]
    apply takeWhile_digits hdigits
    rcases hrest with hlength | hrest
    · rw [hlength, Nat.sub_self, List.take_zero]
      exact noDigit_nil
    · exact noDigit_take hrest _
  rw [readNumber, htaken, if_neg (by omega), ofDigits_padded, List.drop_left]

end BuildPool.Time
