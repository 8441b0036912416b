import BuildPool.Json.Writer
import BuildPool.Proofs.Number.Digits

/-!
# Numerals are read as they are written

Whole numbers and decimals are read back with the text behind them, if this does not go on with the
numeral.
-/

namespace BuildPool.Number

/-- A decimal that shows that it is one: by a fraction of digits, or by an exponent. -/
structure Decimal.Plain (d : Decimal) : Prop where
  digits : ∀ c ∈ d.fraction, c.isDigit = true
  shown : d.fraction ≠ [] ∨ d.exponent ≠ none

/-- A finite number is written with a point or with an exponent. -/
theorem plain_decimalOf (f : Float) : (decimalOf f).Plain := by
  unfold decimalOf
  simp only
  split
  · refine ⟨fun x hx => ?_, .inl (List.cons_ne_nil _ _)⟩
    rw [List.mem_singleton.1 hx]
    rfl
  · rename_i hwhole
    simp only [Bool.and_eq_true, decide_eq_true_eq] at hwhole
    split
    · rename_i hpoint
      simp only [Bool.and_eq_true, decide_eq_true_eq] at hpoint
      refine ⟨fun x hx => isDigit_of_mem_digitsOf (List.mem_of_mem_drop hx), .inl ?_⟩
      rw [Ne, List.drop_eq_nil_iff]
      omega
    · split
      · refine ⟨fun x hx => ?_, .inl ?_⟩
        · rcases List.mem_append.1 hx with hx | hx
          · rw [List.eq_of_mem_replicate hx]
            rfl
          · exact isDigit_of_mem_digitsOf hx
        · exact List.append_ne_nil_of_right_ne_nil _ (digitsOf_ne_nil _)
      · exact ⟨fun x hx => isDigit_of_mem_digitsOf (List.mem_of_mem_drop hx), .inr (by simp)⟩

end BuildPool.Number

namespace BuildPool.Json

open BuildPool.Number

/-- What stands in front does not go on with a numeral. -/
def EndsNumeral (chars : List Char) : Prop :=
  ∀ c ∈ chars.head?, c.isDigit = false ∧ c ≠ '.' ∧ c ≠ 'e' ∧ c ≠ 'E'

theorem EndsNumeral.noDigit {chars : List Char} (h : EndsNumeral chars) : NoDigit chars :=
  fun c hc => (h c hc).1

theorem endsNumeral_cons {c : Char} (h : c.isDigit = false ∧ c ≠ '.' ∧ c ≠ 'e' ∧ c ≠ 'E')
    (rest : List Char) : EndsNumeral (c :: rest) := by
  intro x hx
  cases hx
  exact h

/-! ## The parts of a numeral -/

def fractionChars (fraction : List Char) : List Char :=
  if fraction.isEmpty then [] else '.' :: fraction

def intChars (n : Int) : List Char :=
  if n < 0 then '-' :: digitsOf n.natAbs else digitsOf n.natAbs

def exponentChars : Option Int → List Char
  | none => []
  | some e => 'e' :: intChars e

theorem toList_toString_nat (n : Nat) : (toString n).toList = digitsOf n := by
  rw [Nat.toString_eq_ofList_toDigits, String.toList_ofList, digitsOf]

theorem toList_toString_int (n : Int) : (toString n).toList = intChars n := by
  cases n with
  | ofNat n => exact toList_toString_nat n
  | negSucc n =>
    rw [intChars, if_pos (Int.negSucc_lt_zero n), Int.natAbs_negSucc]
    change ("-" ++ toString (n + 1)).toList = '-' :: digitsOf (n + 1)
    rw [String.toList_append, toList_toString_nat]
    rfl

theorem decimalText_toList (d : Decimal) : (decimalText d).toList =
    (if d.negative then ['-'] else []) ++ (digitsOf d.whole ++
      (fractionChars d.fraction ++ exponentChars d.exponent)) := by
  obtain ⟨negative, whole, fraction, exponent⟩ := d
  have hsign : (if negative = true then "-" else "").toList =
      if negative = true then ['-'] else [] := by
    cases negative <;> rfl
  have hfraction : (if fraction.isEmpty = true then "" else "." ++ String.ofList fraction).toList =
      fractionChars fraction := by
    cases fraction with
    | nil => rfl
    | cons c rest =>
      change ("." ++ String.ofList (c :: rest)).toList = '.' :: c :: rest
      simp only [String.toList_append, String.toList_ofList]
      rfl
  have hexponent : (match exponent with | none => "" | some e => "e" ++ toString e).toList =
      exponentChars exponent := by
    cases exponent with
    | none => rfl
    | some e =>
      change ("e" ++ toString e).toList = 'e' :: intChars e
      rw [String.toList_append, toList_toString_int]
      rfl
  rw [decimalText, String.toList_append, String.toList_append, String.toList_append, hsign,
    hfraction, toList_toString_nat, List.append_assoc, List.append_assoc]
  exact congrArg _ (congrArg _ (congrArg _ hexponent))

theorem digitsOf_eq_cons (n : Nat) : ∃ c rest, digitsOf n = c :: rest ∧ c.isDigit = true := by
  obtain ⟨c, rest, heq⟩ := List.exists_cons_of_ne_nil (digitsOf_ne_nil n)
  refine ⟨c, rest, heq, isDigit_of_mem_digitsOf (n := n) ?_⟩
  rw [heq]
  exact List.mem_cons_self

theorem readFraction_fractionChars {fraction rest : List Char}
    (hdigits : ∀ c ∈ fraction, c.isDigit = true) (hrest : NoDigit rest)
    (hpoint : ∀ c ∈ rest.head?, c ≠ '.') :
    readFraction (fractionChars fraction ++ rest) =
      some (if fraction.isEmpty then none else some fraction, rest) := by
  cases fraction with
  | nil =>
    change readFraction rest = some (none, rest)
    unfold readFraction
    split
    · exact absurd rfl (hpoint '.' rfl)
    · rfl
  | cons c tail =>
    change readFraction ('.' :: ((c :: tail) ++ rest)) = some (some (c :: tail), rest)
    rw [readFraction, spanDigits_append hdigits hrest]

theorem ne_of_isDigit {c d : Char} (hc : c.isDigit = true) (hd : d.isDigit = false) : c ≠ d := by
  rintro rfl
  rw [hc] at hd
  cases hd

/-- A numeral behind an `e`, with or without a minus sign. -/
theorem readExponent_cons (e : Int) {rest : List Char} (hrest : NoDigit rest) :
    readExponent ('e' :: (intChars e ++ rest)) = some (some e, rest) := by
  have hspan := spanDigits_append (fun c hc => isDigit_of_mem_digitsOf (n := e.natAbs) hc) hrest
  obtain ⟨c, tail, hdigits, hdigit⟩ := digitsOf_eq_cons e.natAbs
  have hvalue := ofDigits_digitsOf e.natAbs
  rw [hdigits] at hspan hvalue
  unfold intChars
  split
  · rename_i hneg
    rw [hdigits]
    simp only [readExponent, List.cons_append, beq_self_eq_true, Bool.true_or, if_true]
    rw [← List.cons_append, hspan]
    simp only [hvalue]
    rw [show -(e.natAbs : Int) = e by omega]
  · have hminus : c ≠ '-' := ne_of_isDigit hdigit (by decide)
    have hplus : c ≠ '+' := ne_of_isDigit hdigit (by decide)
    rw [hdigits]
    simp only [readExponent, List.cons_append, beq_self_eq_true, Bool.true_or, if_true,
      List.cons.injEq, hminus, hplus, false_and, imp_self, implies_true]
    rw [← List.cons_append, hspan]
    simp only [hvalue, Bool.false_eq_true, if_false]
    rw [show (e.natAbs : Int) = e by omega]

theorem readExponent_exponentChars (exponent : Option Int) {rest : List Char}
    (hrest : EndsNumeral rest) :
    readExponent (exponentChars exponent ++ rest) = some (exponent, rest) := by
  cases exponent with
  | some e => exact readExponent_cons e hrest.noDigit
  | none =>
    change readExponent rest = some (none, rest)
    cases rest with
    | nil => rfl
    | cons c tail =>
      obtain ⟨-, -, hlower, hupper⟩ := hrest c rfl
      simp [readExponent, hlower, hupper]

/-! ## Numerals -/

/-- A numeral behind its sign, read part by part. -/
theorem readNumber_parts (negative : Bool) (whole : Nat) {fraction : List Char}
    (exponent : Option Int) (hdigits : ∀ c ∈ fraction, c.isDigit = true) {rest : List Char}
    (hrest : EndsNumeral rest) :
    readNumber ((if negative then ['-'] else []) ++ (digitsOf whole ++
      (fractionChars fraction ++ (exponentChars exponent ++ rest)))) =
      some (numeral negative whole (if fraction.isEmpty then none else some fraction) exponent,
        rest) := by
  have hexponent := readExponent_exponentChars exponent hrest
  have hbehind : ∀ c ∈ (exponentChars exponent ++ rest).head?, c.isDigit = false ∧ c ≠ '.' := by
    cases exponent with
    | none => exact fun c hc => ⟨(hrest c hc).1, (hrest c hc).2.1⟩
    | some e =>
      intro c hc
      cases hc
      decide
  have hfraction := readFraction_fractionChars hdigits (fun c hc => (hbehind c hc).1)
    (fun c hc => (hbehind c hc).2)
  have hdigit : NoDigit (fractionChars fraction ++ (exponentChars exponent ++ rest)) := by
    cases fraction with
    | nil => exact fun c hc => (hbehind c hc).1
    | cons c tail => exact noDigit_cons (by decide)
  have hwhole := readWhole_digitsOf whole hdigit
  have hvalue := ofDigits_digitsOf whole
  obtain ⟨c, tail, hcons, hdigit⟩ := digitsOf_eq_cons whole
  rw [hcons, List.cons_append] at hwhole
  rw [hcons] at hvalue
  cases negative with
  | true =>
    rw [if_pos rfl, hcons]
    simp only [readNumber, List.cons_append, List.nil_append, hwhole, hfraction, hexponent,
      Option.bind_eq_bind, Option.bind_some, hvalue]
  | false =>
    have hminus : c ≠ '-' := ne_of_isDigit hdigit (by decide)
    rw [if_neg (by decide), hcons]
    simp only [readNumber, List.cons_append, List.nil_append, List.cons.injEq, hminus, false_and,
      imp_self, implies_true, hwhole, hfraction, hexponent, Option.bind_eq_bind, Option.bind_some,
      hvalue]

theorem readNumber_intChars (n : Int) {rest : List Char} (hrest : EndsNumeral rest) :
    readNumber (intChars n ++ rest) = some (.int n, rest) := by
  have hread := readNumber_parts (decide (n < 0)) n.natAbs none (List.forall_mem_nil _) hrest
  have hchars : intChars n = (if decide (n < 0) then ['-'] else []) ++ digitsOf n.natAbs := by
    unfold intChars
    by_cases hneg : n < 0
    · simp [hneg]
    · simp [hneg]
  have hnumeral : numeral (decide (n < 0)) n.natAbs none none = .int n := by
    unfold numeral
    simp only [decide_eq_true_eq, beq_iff_eq]
    split
    · rw [if_neg (by omega), show -(n.natAbs : Int) = n by omega]
    · rw [show (n.natAbs : Int) = n by omega]
  rw [hchars, List.append_assoc]
  exact hread.trans (by rw [← hnumeral]; rfl)

theorem readNumber_decimalText {d : Decimal} (h : d.Plain) {rest : List Char}
    (hrest : EndsNumeral rest) :
    readNumber ((decimalText d).toList ++ rest) = some (.decimal d, rest) := by
  have hread := readNumber_parts d.negative d.whole d.exponent h.digits hrest
  have hnumeral : numeral d.negative d.whole (if d.fraction.isEmpty then none else some d.fraction)
      d.exponent = .decimal d := by
    obtain ⟨negative, whole, fraction, exponent⟩ := d
    have hshown := h.shown
    cases fraction with
    | nil =>
      cases exponent with
      | none => simp at hshown
      | some e => rfl
    | cons c tail => rfl
  rw [decimalText_toList, List.append_assoc, List.append_assoc, List.append_assoc, hread, hnumeral]

end BuildPool.Json
