import Mathlib.Tactic
import BuildPool.Number.UnitRange
import BuildPool.Proofs.Json.Numerals

/-!
# Numbers in the unit range

The decimal of a number from 0 to 1 is always read as a number again, if perhaps as a neighbour: it
has few digits before the point, and digits behind it or a negative power of ten, so nothing is
multiplied and nothing gets too large.
-/

namespace BuildPool.Number

/-! ## Reading -/

/-- Nothing is too large that is only divided. -/
theorem isSome_scale (steps : Nat) (f : Float) {e : Int} (he : e < 0) :
    (scale steps f e).isSome = true := by
  have hpower : largestPower = 308 := rfl
  induction steps generalizing f e with
  | zero =>
    unfold scale
    split
    · rw [if_neg (by omega)]
      rfl
    · split
      · rfl
      · rw [if_neg (by omega)]
        rfl
  | succ steps ih =>
    unfold scale
    split
    · rw [if_neg (by omega)]
      rfl
    · split
      · rfl
      · rw [if_neg (by omega)]
        exact ih _ (by omega)

theorem digitValue_lt {c : Char} (h : c.isDigit = true) : digitValue c < 10 := by
  have hbounds : 48 ≤ c.toNat ∧ c.toNat ≤ 57 := Char.isDigit_iff_toNat.1 h
  change c.toNat - 48 < 10
  omega

theorem append_digit_lt {s width : Nat} {c : Char} (hs : s < 10 ^ width) (hc : c.isDigit = true) :
    10 * s + digitValue c < 10 ^ (width + 1) := by
  have hdigit := digitValue_lt hc
  rw [Nat.pow_succ]
  omega

theorem foldl_digits_lt (width : Nat) {s : Nat} {digits : List Char} (hs : s < 10 ^ width)
    (h : ∀ c ∈ digits, c.isDigit = true) :
    digits.foldl (fun n c => 10 * n + digitValue c) s < 10 ^ (width + digits.length) := by
  induction digits generalizing s width with
  | nil => exact hs
  | cons c rest ih =>
    obtain ⟨hc, hrest⟩ := List.forall_mem_cons.1 h
    have hlt := ih (width + 1) (append_digit_lt hs hc) hrest
    rwa [Nat.add_assoc, Nat.add_comm 1] at hlt

theorem ofDigits_lt {digits : List Char} (h : ∀ c ∈ digits, c.isDigit = true) :
    ofDigits digits < 10 ^ digits.length := by
  have hlt := foldl_digits_lt 0 Nat.one_pos h
  rwa [Nat.zero_add] at hlt

/-- Nineteen digits fit 64 bits. -/
theorem takeDigits_of_short (width : Nat) {s : Nat} {digits : List Char} (hs : s < 10 ^ width)
    (h : ∀ c ∈ digits, c.isDigit = true) (hshort : width + digits.length ≤ 19) :
    takeDigits s digits = (digits.foldl (fun n c => 10 * n + digitValue c) s, []) := by
  induction digits generalizing s width with
  | nil => rfl
  | cons c rest ih =>
    obtain ⟨hc, hrest⟩ := List.forall_mem_cons.1 h
    have hnext := append_digit_lt hs hc
    have hpow : 10 ^ (width + 1) ≤ 10 ^ 19 :=
      Nat.pow_le_pow_right (by decide) (by simp only [List.length_cons] at hshort; omega)
    have hlimit : significandLimit = 18446744073709551615 := rfl
    rw [takeDigits, if_pos (by omega), List.foldl_cons]
    exact ih (width + 1) hnext hrest (by simp only [List.length_cons] at hshort; omega)

theorem length_takeDigits_le (s : Nat) (digits : List Char) :
    (takeDigits s digits).2.length ≤ digits.length := by
  induction digits generalizing s with
  | nil => exact le_rfl
  | cons c rest ih =>
    simp only [takeDigits]
    split
    · exact (ih _).trans (Nat.le_succ _)
    · exact le_rfl

/-- A decimal with few digits before the point and something behind it: digits, or a negative power
of ten. -/
structure Decimal.Small (d : Decimal) : Prop where
  whole : d.whole < 10 ^ 16
  exponent : d.exponent.getD 0 ≤ 0
  behind : d.fraction ≠ [] ∨ d.exponent.getD 0 < 0

theorem Decimal.Small.isSome_toFloat? {d : Decimal} (h : d.Small) (hplain : d.Plain) :
    d.toFloat?.isSome = true := by
  have hdigits : ∀ c ∈ digitsOf d.whole, c.isDigit = true := fun c => isDigit_of_mem_digitsOf
  have hlength : (digitsOf d.whole).length ≤ 16 := digitsOf_length_le (by decide) h.whole
  have htaken := takeDigits_of_short 0 Nat.one_pos hdigits (by omega)
  have hvalue : (digitsOf d.whole).foldl (fun n c => 10 * n + digitValue c) 0 = d.whole :=
    ofDigits_digitsOf d.whole
  rw [hvalue] at htaken
  unfold Decimal.toFloat? readDigits
  simp only [htaken, List.length_nil, Option.isSome_map]
  refine isSome_scale _ _ ?_
  have hle := length_takeDigits_le d.whole d.fraction
  have hexponent := h.exponent
  rcases h.behind with hne | hneg
  · have hread : (takeDigits d.whole d.fraction).2.length < d.fraction.length := by
      have hwhole := h.whole
      have hfraction := hplain.digits
      have hlimit : significandLimit = 18446744073709551615 := rfl
      obtain ⟨c, rest, heq⟩ := List.exists_cons_of_ne_nil hne
      rw [heq] at hfraction ⊢
      have hdigit := digitValue_lt (hfraction c List.mem_cons_self)
      rw [takeDigits, if_pos (by omega)]
      exact Nat.lt_succ_of_le (length_takeDigits_le _ rest)
    omega
  · omega

/-! ## The shortest decimal -/

/-- The number `m * 2 ^ q` is at most one. -/
structure Parts.AtMostOne (p : Parts) : Prop where
  exponent : p.exponent ≤ 0
  word : p.significand < 2 ^ 53
  value : p.significand ≤ 2 ^ (-p.exponent).toNat

section Shortest

variable {p : Parts} {c : Nat} {k : Int}

theorem leadingExponent_le (fuel : Nat) (p : Parts) (j : Nat) : leadingExponent fuel p j ≤ 0 := by
  induction fuel generalizing j with
  | zero => simp only [leadingExponent]; omega
  | succ fuel ih =>
    simp only [leadingExponent]
    split
    · omega
    · exact ih (j + 1)

theorem Parts.AtMostOne.decimalExponent_le (h : p.AtMostOne) : decimalExponent p ≤ 0 := by
  have hq : p.exponent.toNat = 0 := Int.toNat_of_nonpos h.exponent
  have hfloor :
      p.significand * Nat.pow 2 p.exponent.toNat / Nat.pow 2 (-p.exponent).toNat ≤ 1 := by
    rw [hq]
    refine Nat.div_le_of_le_mul ?_
    change p.significand * 1 ≤ 2 ^ _ * 1
    rw [Nat.mul_one, Nat.mul_one]
    exact h.value
  unfold decimalExponent
  dsimp only
  split
  · exact leadingExponent_le 330 p 1
  · have hdigit : _ < 10 ^ 1 := Nat.lt_of_le_of_lt hfloor (by decide)
    have hlength := digitsOf_length_le (by decide) hdigit
    omega

theorem readsAs_zero (h : p.significand ≠ 0) (k : Int) : readsAs p k 0 = false := by
  have hpoint : onGrid p.exponent k 0 = 0 := by simp [onGrid]
  have hlow : 0 < quarters p.exponent k (4 * p.significand - if p.narrowBelow then 1 else 2) := by
    refine Nat.mul_pos (Nat.mul_pos ?_ (Nat.pow_pos (by decide))) (Nat.pow_pos (by decide))
    split <;> omega
  unfold readsAs
  simp only [hpoint]
  split
  · simp only [Bool.and_eq_false_imp, decide_eq_true_eq, decide_eq_false_iff_not]
    omega
  · simp only [Bool.and_eq_false_imp, decide_eq_true_eq, decide_eq_false_iff_not]
    omega

theorem onGrid?_eq_some (h : onGrid? p k = some c) : readsAs p k c = true ∧
    c ≤ quarters p.exponent k (4 * p.significand) / onGrid p.exponent k 1 + 1 := by
  unfold onGrid? at h
  dsimp only at h
  split at h
  · rename_i hreads _
    cases h
    exact ⟨hreads, Nat.le_succ _⟩
  · rename_i _ hreads
    cases h
    exact ⟨hreads, le_rfl⟩
  · cases h
  · rename_i hbelow habove
    split at h
    · cases h
      exact ⟨hbelow, Nat.le_succ _⟩
    · cases h
      exact ⟨habove, le_rfl⟩

/-- Where the point stands in `c * 10 ^ k`, counted from the front of the digits. -/
def pointOf (c : Nat) (k : Int) : Int := (digitsOf c).length + k

theorem Parts.AtMostOne.onGrid?_bounds (h : p.AtMostOne) (hne : p.significand ≠ 0) (hk : k ≤ 0)
    (hc : onGrid? p k = some c) : c ≠ 0 ∧ pointOf c k ≤ 1 := by
  obtain ⟨hreads, hle⟩ := onGrid?_eq_some hc
  constructor
  · rintro rfl
    rw [readsAs_zero hne] at hreads
    cases hreads
  · have hq : p.exponent.toNat = 0 := Int.toNat_of_nonpos h.exponent
    have hkzero : k.toNat = 0 := Int.toNat_of_nonpos hk
    have hbelow : quarters p.exponent k (4 * p.significand) / onGrid p.exponent k 1 ≤
        10 ^ (-k).toNat := by
      refine Nat.div_le_of_le_mul ?_
      unfold quarters onGrid
      rw [hq, hkzero]
      change 4 * p.significand * 10 ^ (-k).toNat * 1 ≤ 4 * 1 * 1 * 2 ^ _ * _
      nlinarith [h.value, Nat.mul_le_mul_right (10 ^ (-k).toNat) h.value]
    have hlt : c < 10 ^ ((-k).toNat + 1) := by
      rw [Nat.pow_succ]
      have hpos : 0 < 10 ^ (-k).toNat := Nat.pow_pos (by decide)
      omega
    have hlength := digitsOf_length_le (Nat.succ_pos _) hlt
    unfold pointOf
    omega

theorem Parts.AtMostOne.search_bounds (h : p.AtMostOne) (hne : p.significand ≠ 0) {e : Int}
    (he : e ≤ 0) (fuel digits : Nat) :
    (search p e fuel digits).1 ≠ 0 ∧
      pointOf (search p e fuel digits).1 (search p e fuel digits).2 ≤ 16 := by
  induction fuel generalizing digits with
  | zero =>
    have hsmall : p.significand < 10 ^ 16 := h.word.trans (by decide)
    have hlength := digitsOf_length_le (by decide) hsmall
    refine ⟨hne, ?_⟩
    change ((digitsOf p.significand).length : Int) + 0 ≤ 16
    omega
  | succ fuel ih =>
    simp only [search]
    split
    · rename_i c hc
      obtain ⟨hzero, hpoint⟩ := h.onGrid?_bounds hne (by omega) hc
      exact ⟨hzero, hpoint.trans (by decide)⟩
    · exact ih (digits + 1)

/-- A zero at the end does not move the point. -/
theorem pointOf_stripZeros (fuel : Nat) (hc : c ≠ 0) :
    pointOf (stripZeros fuel (c, k)).1 (stripZeros fuel (c, k)).2 = pointOf c k := by
  induction fuel generalizing c k with
  | zero => rfl
  | succ fuel ih =>
    simp only [stripZeros]
    split
    · rename_i hzero
      have hten : c % 10 = 0 := beq_iff_eq.1 hzero
      rw [ih (by omega)]
      have hdigits : digitsOf c = digitsOf (c / 10) ++ [Nat.digitChar (c % 10)] :=
        Nat.toDigits_of_base_le (by decide) (by omega)
      unfold pointOf
      rw [hdigits, List.length_append, List.length_singleton]
      omega
    · rfl

theorem Parts.AtMostOne.pointOf_shortest_le (h : p.AtMostOne) :
    pointOf (shortest p).1 (shortest p).2 ≤ 16 := by
  unfold shortest
  split
  · decide
  · rename_i hsignificand
    have hne : p.significand ≠ 0 := fun heq => hsignificand (beq_iff_eq.2 heq)
    obtain ⟨hc, hpoint⟩ := h.search_bounds hne h.decimalExponent_le 18 0
    rw [← Prod.mk.eta (p := search p (decimalExponent p) 18 0), pointOf_stripZeros 18 hc]
    exact hpoint

end Shortest

/-! ## The parts of a number -/

section Parts

open Float.Model Float.Model.UnpackedFloat

variable {f g : Float}

theorem toNat_unpackExponent (b : BitVec Format.binary64.numBits) :
    (unpackExponent b).toNat = b.toNat / Nat.pow 2 52 % Nat.pow 2 11 := by
  simp [unpackExponent, BitVec.extractLsb, BitVec.extractLsb', Nat.shiftRight_eq_div_pow]

theorem toNat_unpackMantissa (b : BitVec Format.binary64.numBits) :
    (unpackMantissa b).toNat = b.toNat % Nat.pow 2 52 := by
  simp [unpackMantissa, BitVec.extractLsb, BitVec.extractLsb']

theorem toNat_one_append (m : BitVec 52) : (1#1 ++ m).toNat = 2 ^ 52 + m.toNat := by
  rw [BitVec.toNat_append, ← Nat.shiftLeft_add_eq_or_of_lt m.isLt]
  rfl

theorem lt_iff : f < g ↔ f.toModel.unpack.compare g.toModel.unpack = some .lt := by
  change decide ((f.toModel.unpack.compare g.toModel.unpack == some .lt) = true) = true ↔ _
  simp only [decide_eq_true_eq, beq_iff_eq]

/-- Of positive numbers the exponents are compared first. -/
theorem compare_positive {m n : Nat} {q r : Int} (hm : 0 < m) (hn : 0 < n) :
    (UnpackedFloat.finite .positive m q hm).compare (.finite .positive n r hn) =
      some ((compare q r).then (compare m n)) := rfl

theorem finite_eq_finite {s : Sign} {m n : Nat} {q : Int} {hm : 0 < m} {hn : 0 < n} (h : m = n) :
    UnpackedFloat.finite s m q hm = .finite s n q hn := by
  subst h
  rfl

/-- Infinities and what is no number have the largest exponent. -/
theorem isFinite_unpack_of_largest {b : BitVec Format.binary64.numBits}
    (h : unpackExponent b = -1#_) : (UnpackedFloat.unpack Format.binary64 b).isFinite = false := by
  have hunpack : UnpackedFloat.unpack Format.binary64 b =
      if unpackMantissa b = 0#_ then .infinity (Sign.ofBitVec (unpackSign b)) else .notANumber :=
    if_pos h
  rw [hunpack]
  split <;> rfl

theorem unpack_of_normal {b : BitVec Format.binary64.numBits}
    (hfinite : (UnpackedFloat.unpack Format.binary64 b).isFinite = true)
    (hnormal : (unpackExponent b).toNat ≠ 0) :
    UnpackedFloat.unpack Format.binary64 b = .finite (Sign.ofBitVec (unpackSign b))
      (2 ^ 52 + (unpackMantissa b).toNat) ((unpackExponent b).toNat - 1075) (by omega) := by
  have hlargest : ¬ unpackExponent b = -1#_ := by
    intro heq
    rw [isFinite_unpack_of_largest heq] at hfinite
    cases hfinite
  have hzero : ¬ unpackExponent b = 0#_ := fun heq => hnormal (by rw [heq]; rfl)
  exact ((if_neg hlargest).trans (if_neg hzero)).trans (finite_eq_finite (toNat_one_append _))

/-- A finite number is smaller than all normal numbers, or it has the sign, the significand and the
exponent that are in its bits. -/
theorem parts_cases (h : f.isFinite = true) :
    ((parts f).exponent = -1074 ∧ (parts f).significand < 2 ^ 52) ∨
      ((parts f).significand < 2 ^ 53 ∧ ∃ s m q hpos, f.toModel.unpack = .finite s m q hpos ∧
        (parts f).significand = m ∧ (parts f).exponent = q) := by
  have hexponent := toNat_unpackExponent f.toBits.toBitVec
  have hmantissa := toNat_unpackMantissa f.toBits.toBitVec
  have hrest : f.toBits.toNat % Nat.pow 2 52 < 2 ^ 52 := Nat.mod_lt _ (by decide)
  by_cases hzero : f.toBits.toNat / Nat.pow 2 52 % Nat.pow 2 11 = 0
  · have hparts : parts f = ⟨f.toBits.toNat / Nat.pow 2 63 == 1, f.toBits.toNat % Nat.pow 2 52,
        -1074, false⟩ := if_pos (beq_iff_eq.2 hzero)
    rw [hparts]
    exact .inl ⟨rfl, hrest⟩
  · have hparts : parts f = ⟨f.toBits.toNat / Nat.pow 2 63 == 1,
        Nat.pow 2 52 + f.toBits.toNat % Nat.pow 2 52,
        (f.toBits.toNat / Nat.pow 2 52 % Nat.pow 2 11 : Nat) - 1075, _⟩ :=
      if_neg (mt beq_iff_eq.1 hzero)
    have hunpack := unpack_of_normal h (ne_of_eq_of_ne hexponent hzero)
    rw [hparts]
    refine .inr ⟨?_, _, _, _, _, hunpack, ?_, ?_⟩
    · change 2 ^ 52 + _ < _
      omega
    · exact congrArg (2 ^ 52 + ·) hmantissa.symm
    · exact congrArg (fun n : Nat => (n : Int) - 1075) hexponent.symm

theorem unpack_one :
    (1.0 : Float).toModel.unpack = .finite .positive (2 ^ 52) (-52) (by decide) := rfl

theorem unpack_zero : (0.0 : Float).toModel.unpack = .zero .positive := rfl

theorem atMostOne_parts (hfinite : f.isFinite = true) (hneg : ¬ f < 0.0) (hone : ¬ 1.0 < f) :
    (parts f).AtMostOne := by
  have hpow : ∀ {m n : Nat}, m ≤ n → 2 ^ m ≤ 2 ^ n := Nat.pow_le_pow_right (by decide)
  rcases parts_cases hfinite with ⟨hexponent, hsmall⟩ | ⟨hbound, s, m, q, hpos, hunpack, hm, hq⟩
  · exact ⟨by omega, hsmall.trans (by decide), hsmall.le.trans (hpow (by omega))⟩
  · rw [lt_iff, unpack_zero, hunpack] at hneg
    rw [lt_iff, unpack_one, hunpack] at hone
    cases s with
    | negative => exact absurd rfl hneg
    | positive =>
      rw [compare_positive] at hone
      simp only [Option.some.injEq, Ordering.then_eq_lt, compare_lt_iff_lt, compare_eq_iff_eq,
        not_or, not_and] at hone
      obtain ⟨hexponent, hlast⟩ := hone
      rw [← hq] at hexponent hlast
      rw [← hm] at hlast
      refine ⟨by omega, hbound, ?_⟩
      by_cases hfifty : (parts f).exponent = -52
      · have hmost := hlast hfifty.symm
        rw [hfifty]
        exact not_lt.1 hmost
      · exact hbound.le.trans (hpow (by omega))

theorem clampUnit_cases (f : Float) : clampUnit f = 0 ∨ clampUnit f = 1 ∨
    clampUnit f = f ∧ ¬ f < 0.0 ∧ ¬ 1.0 < f := by
  have hzero : ¬ (1.0 : Float) < 0.0 := by decide +kernel
  unfold clampUnit
  dsimp only
  by_cases hneg : f < 0.0
  · rw [if_pos hneg, if_neg hzero]
    exact .inl rfl
  · rw [if_neg hneg]
    split
    · exact .inr (.inl rfl)
    · rename_i hmost
      exact .inr (.inr ⟨rfl, hneg, hmost⟩)

/-- A number from 0 to 1. Minus zero is one of them. -/
structure InUnit (f : Float) : Prop where
  finite : f.isFinite = true
  parts : (parts f).AtMostOne

theorem inUnit_of_range (hfinite : f.isFinite = true) (hneg : ¬ f < 0.0) (hone : ¬ 1.0 < f) :
    InUnit f := ⟨hfinite, atMostOne_parts hfinite hneg hone⟩

theorem inUnit_zero : InUnit 0 :=
  inUnit_of_range (by decide +kernel) (by decide +kernel) (by decide +kernel)

theorem inUnit_one : InUnit 1 :=
  inUnit_of_range (by decide +kernel) (by decide +kernel) (by decide +kernel)

theorem inUnit_clampUnit (h : f.isFinite = true) : InUnit (clampUnit f) := by
  rcases clampUnit_cases f with heq | heq | ⟨heq, hneg, hmost⟩
  · rw [heq]
    exact inUnit_zero
  · rw [heq]
    exact inUnit_one
  · rw [heq]
    exact inUnit_of_range h hneg hmost

end Parts

/-! ## Written and read -/

theorem ofDigits_take_lt (c : Nat) {count width : Nat} (h : count ≤ width) :
    ofDigits ((digitsOf c).take count) < 10 ^ width := by
  have hlt := ofDigits_lt fun x hx =>
    isDigit_of_mem_digitsOf (List.mem_of_mem_take (i := count) (l := digitsOf c) hx)
  have hlength : ((digitsOf c).take count).length ≤ width := (List.length_take_le count _).trans h
  exact hlt.trans_le (Nat.pow_le_pow_right (by decide) hlength)

theorem mul_pow_lt {c zeros width : Nat} (h : (digitsOf c).length + zeros ≤ width) :
    c * 10 ^ zeros < 10 ^ width := by
  have hc : c < 10 ^ (digitsOf c).length := by
    have hlt := ofDigits_lt fun x hx => isDigit_of_mem_digitsOf (n := c) hx
    rwa [ofDigits_digitsOf] at hlt
  calc c * 10 ^ zeros < 10 ^ (digitsOf c).length * 10 ^ zeros :=
        Nat.mul_lt_mul_of_pos_right hc (Nat.pow_pos (by decide))
    _ = 10 ^ ((digitsOf c).length + zeros) := (Nat.pow_add ..).symm
    _ ≤ 10 ^ width := Nat.pow_le_pow_right (by decide) h

theorem small_decimalOf {f : Float} (h : (parts f).AtMostOne) : (decimalOf f).Small := by
  have hpoint := h.pointOf_shortest_le
  unfold pointOf at hpoint
  have hbehind : positional.behind = 16 := rfl
  have hzeros : positional.zeros = 5 := rfl
  unfold decimalOf
  simp only
  split
  · rename_i hform
    simp only [Bool.and_eq_true, decide_eq_true_eq] at hform
    exact ⟨mul_pow_lt (by omega), le_rfl, .inl (List.cons_ne_nil _ _)⟩
  · rename_i hnotWhole
    simp only [Bool.and_eq_true, decide_eq_true_eq, not_and] at hnotWhole
    split
    · rename_i hform
      simp only [Bool.and_eq_true, decide_eq_true_eq] at hform
      refine ⟨ofDigits_take_lt _ (by omega), le_rfl, .inl ?_⟩
      rw [Ne, List.drop_eq_nil_iff]
      omega
    · rename_i hnotMixed
      split
      · exact ⟨Nat.pow_pos (by decide), le_rfl,
          .inl (List.append_ne_nil_of_right_ne_nil _ (digitsOf_ne_nil _))⟩
      · rename_i hnotLow
        simp only [Bool.and_eq_true, decide_eq_true_eq, not_and] at hnotMixed hnotLow
        -- The point does not stand behind the digits, so it stands far in front of them.
        have hexponent : ((digitsOf (shortest (parts f)).1).length : Int) +
            (shortest (parts f)).2 - 1 < 0 := by omega
        exact ⟨ofDigits_take_lt _ (by decide), hexponent.le, .inr hexponent⟩

/-- The number that the decimal of a number is read as. -/
def readBack (f : Float) : Float := (decimalOf f).toFloat?.getD f

/-- A number from 0 to 1 is read from what is written for it. -/
theorem InUnit.toFloat?_decimalOf {f : Float} (h : InUnit f) :
    (decimalOf f).toFloat? = some (readBack f) := by
  obtain ⟨g, hg⟩ := Option.isSome_iff_exists.1
    ((small_decimalOf h.parts).isSome_toFloat? (plain_decimalOf f))
  rw [readBack, hg]
  rfl

end BuildPool.Number
