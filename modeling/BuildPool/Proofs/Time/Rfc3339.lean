import BuildPool.Proofs.Number.Digits
import BuildPool.Proofs.Time.Calendar

/-!
# Instants are read as they are written

The written form of an instant is read back as the instant, to the nanosecond, for every year that
instants are kept for.
-/

namespace BuildPool.Time

open BuildPool.Text BuildPool.Number BuildPool.Json

/-- An instant that the clock can show: its year is one that dates are kept for, and its seconds
last longer than a second only at the end of a minute. -/
structure Instant.Valid (t : Instant) : Prop where
  year : yearInRange (Date.ofDays t.dayNumber).year = true
  nano : t.nano < 2 * nanosPerSecond
  leap : nanosPerSecond ≤ t.nano → t.secondOfDay % 60 = 59

instance (t : Instant) : Decidable t.Valid :=
  decidable_of_iff (yearInRange (Date.ofDays t.dayNumber).year = true ∧
      t.nano < 2 * nanosPerSecond ∧ (nanosPerSecond ≤ t.nano → t.secondOfDay % 60 = 59))
    ⟨fun ⟨year, nano, leap⟩ => ⟨year, nano, leap⟩, fun ⟨year, nano, leap⟩ => ⟨year, nano, leap⟩⟩

/-! ## Numbers and marks -/

theorem isBlankChar_of_isDigit {c : Char} (h : c.isDigit = true) : isBlankChar c = false := by
  simp only [Char.isDigit, Bool.and_eq_true, decide_eq_true_eq, UInt32.le_iff_toNat_le] at h
  simp only [isBlankChar, Char.toNat]
  have hlow : 48 ≤ c.val.toNat := h.1
  have hhigh : c.val.toNat ≤ 57 := h.2
  simp only [Bool.or_eq_false_iff, Bool.and_eq_false_iff, decide_eq_false_iff_not, beq_eq_false_iff_ne]
  omega

theorem trimStart_cons {c : Char} (h : isBlankChar c = false) (rest : List Char) :
    trimStart (c :: rest) = c :: rest := by
  rw [trimStart, List.dropWhile_cons_of_neg (by simp [h])]

theorem trimStart_padded (width n : Nat) (rest : List Char) :
    trimStart ((padded width n).toList ++ rest) = (padded width n).toList ++ rest := by
  obtain ⟨c, tail, hpadded, hdigit⟩ := padded_eq_cons width n
  rw [hpadded]
  exact trimStart_cons (isBlankChar_of_isDigit hdigit) _

theorem readPair_padded {n : Nat} (h : n < 100) (rest : List Char) :
    readPair ((padded 2 n).toList ++ rest) = some (n, rest) := by
  have hlength := length_padded_of_lt 2 n (by decide) h
  rw [readPair, trimStart_padded]
  exact readNumber_padded (by omega) (by omega) (.inl hlength)

theorem readLooseMark_cons {mark : Char} (h : isBlankChar mark = false) (rest : List Char) :
    readLooseMark mark (mark :: rest) = some rest := by
  rw [readLooseMark, trimStart_cons h, readMark, if_pos (beq_self_eq_true mark)]

/-! ## Years and fractions -/

theorem readYear_of_isDigit {c : Char} (h : c.isDigit = true) (chars : List Char) :
    readYear (c :: chars) = (readNumber 1 4 (c :: chars)).map fun (n, rest) => ((n : Int), rest) := by
  unfold readYear
  split
  · rename_i heq
    cases (List.cons.inj heq).1
    cases h
  · rename_i heq
    cases (List.cons.inj heq).1
    cases h
  · rfl

/-- A number of at least one digit, taken off a text in which a mark follows. -/
theorem readNumber_padded_mark (width n : Nat) (mark : Char) (hmark : mark.isDigit = false)
    (rest : List Char) :
    readNumber 1 ((padded width n).toList ++ mark :: rest).length
      ((padded width n).toList ++ mark :: rest) = some (n, mark :: rest) := by
  have hlength := length_padded width n
  have hpos := List.length_pos_iff.2 (digitsOf_ne_nil n)
  refine readNumber_padded (by omega) ?_ (.inr (noDigit_cons hmark))
  rw [List.length_append]
  omega

theorem readYear_yearText (year : Int) (rest : List Char) :
    readYear (trimStart ((yearText year).toList ++ '-' :: rest)) = some (year, '-' :: rest) := by
  unfold yearText
  split
  · rename_i hrange
    simp only [Bool.and_eq_true, decide_eq_true_eq] at hrange
    have hyear : (year.toNat : Int) = year := by omega
    have hlength := length_padded_of_lt 4 year.toNat (by decide) (by omega)
    have hread : readNumber 1 4 ((padded 4 year.toNat).toList ++ '-' :: rest) =
        some (year.toNat, '-' :: rest) :=
      readNumber_padded (by omega) (by omega) (.inl hlength)
    obtain ⟨c, tail, hpadded, hdigit⟩ := padded_eq_cons 4 year.toNat
    rw [trimStart_padded]
    rw [hpadded] at hread ⊢
    rw [List.cons_append, readYear_of_isDigit hdigit, ← List.cons_append, hread, Option.map_some]
    simp only [hyear]
  · rename_i hrange
    simp only [Bool.and_eq_true, decide_eq_true_eq] at hrange
    have hread := readNumber_padded_mark 4 year.natAbs '-' (by decide) rest
    rw [String.toList_append, List.append_assoc]
    split
    · have hyear : -(year.natAbs : Int) = year := by omega
      simp only [String.reduceToList, List.cons_append, List.nil_append]
      rw [trimStart_cons (by decide), readYear, hread, Option.map_some]
      simp only [hyear]
    · have hyear : (year.natAbs : Int) = year := by omega
      simp only [String.reduceToList, List.cons_append, List.nil_append]
      rw [trimStart_cons (by decide), readYear, hread, Option.map_some]
      simp only [hyear]

/-- Digits behind a point that are no more than nine. -/
theorem readFraction_padded (width n : Nat) (hwidth : 0 < width) (hnine : width ≤ 9)
    (hn : n < 10 ^ width) (rest : List Char) :
    readFraction ('.' :: ((padded width n).toList ++ 'Z' :: rest)) =
      some (n * Nat.pow 10 (9 - width), 'Z' :: rest) := by
  have hlength := length_padded_of_lt width n hwidth hn
  have htaken : ((padded width n).toList ++ 'Z' :: rest).takeWhile Char.isDigit =
      (padded width n).toList :=
    takeWhile_digits (fun c hc => isDigit_of_mem_padded hc) (noDigit_cons (by decide))
  have hsome : (padded width n).toList.isEmpty = false := by
    rw [List.isEmpty_eq_false_iff, ← List.length_pos_iff]
    omega
  have hkept : (padded width n).toList.take 9 = (padded width n).toList :=
    List.take_of_length_le (by omega)
  have hrest : ((padded width n).toList ++ 'Z' :: rest).drop width = 'Z' :: rest :=
    List.drop_left' hlength
  simp only [readFraction, htaken, hsome, Bool.false_eq_true, if_false, hkept, ofDigits_padded,
    hlength, hrest]

theorem readFraction_fractionText {nano : Nat} (h : nano < nanosPerSecond) (rest : List Char) :
    readFraction ((fractionText nano).toList ++ 'Z' :: rest) = some (nano, 'Z' :: rest) := by
  unfold nanosPerSecond at h
  unfold fractionText
  split
  · rename_i hzero
    rw [beq_iff_eq.1 hzero]
    rfl
  · split
    · rename_i hmilli
      rw [beq_iff_eq] at hmilli
      have hscaled : nano / 1000000 * Nat.pow 10 (9 - 3) = nano := by
        change nano / 1000000 * 1000000 = nano
        omega
      have hread := readFraction_padded 3 (nano / 1000000) (by decide) (by decide) (by omega) rest
      rw [hscaled] at hread
      rwa [String.toList_append]
    · split
      · rename_i hmicro
        rw [beq_iff_eq] at hmicro
        have hscaled : nano / 1000 * Nat.pow 10 (9 - 6) = nano := by
          change nano / 1000 * 1000 = nano
          omega
        have hread := readFraction_padded 6 (nano / 1000) (by decide) (by decide) (by omega) rest
        rw [hscaled] at hread
        rwa [String.toList_append]
      · have hscaled : nano * Nat.pow 10 (9 - 9) = nano := Nat.mul_one nano
        have hread := readFraction_padded 9 nano (by decide) (by decide) (by omega) rest
        rw [hscaled] at hread
        rwa [String.toList_append]

/-! ## Instants -/

theorem secondOfDay_lt (t : Instant) : t.secondOfDay < 86400 := by
  rw [Instant.secondOfDay, Int.fmod_eq_emod_of_nonneg _ (by decide)]
  unfold secondsPerDay
  omega

theorem readLenient_toText {t : Instant} (h : t.Valid) : readLenient t.toText.toList = some
    ⟨Date.ofDays t.dayNumber, t.secondOfDay / 3600, t.secondOfDay / 60 % 60,
      t.secondOfDay % 60 + t.nano / nanosPerSecond, t.nano % nanosPerSecond, 0⟩ := by
  have hnano := h.nano
  have hday := secondOfDay_lt t
  have hvalid := isValid_ofDays h.year
  simp only [Instant.toText, Instant.localText, Instant.dateText, Instant.clockText]
  generalize Date.ofDays t.dayNumber = date at hvalid ⊢
  simp only [Date.isValid, Bool.and_eq_true, decide_eq_true_eq] at hvalid
  have hmonthLength : daysInMonth date.year date.month ≤ 31 := by
    unfold daysInMonth
    repeat' split
    all_goals omega
  have hfraction : t.nano % nanosPerSecond < nanosPerSecond := Nat.mod_lt _ (by decide)
  have hleap : t.nano / nanosPerSecond < 2 := Nat.div_lt_of_lt_mul (by omega)
  have hmonth := readPair_padded (n := date.month) (by omega)
  have hdayOfMonth := readPair_padded (n := date.day) (by omega)
  have hhour := readPair_padded (n := t.secondOfDay / 3600) (by omega)
  have hminute := readPair_padded (n := t.secondOfDay / 60 % 60) (by omega)
  have hsecond := readPair_padded (n := t.secondOfDay % 60 + t.nano / nanosPerSecond) (by omega)
  have hdash : ∀ rest, readLooseMark '-' ('-' :: rest) = some rest :=
    readLooseMark_cons (by decide)
  have hcolon : ∀ rest, readLooseMark ':' (':' :: rest) = some rest :=
    readLooseMark_cons (by decide)
  have hseparator : ∀ rest, readSeparator ('T' :: rest) = some rest := fun _ => rfl
  have hzone : readZone (trimStart ['Z']) = some (0, []) := by decide
  have hend : (trimStart ([] : List Char)).isEmpty = true := rfl
  simp only [String.toList_append, List.append_assoc, String.reduceToList, List.cons_append,
    List.nil_append]
  -- part after part, in the order in which they are read
  refine Option.bind_eq_some_iff.2 ⟨_, readYear_yearText _ _, ?_⟩
  refine Option.bind_eq_some_iff.2 ⟨_, hdash _, ?_⟩
  refine Option.bind_eq_some_iff.2 ⟨_, hmonth _, ?_⟩
  refine Option.bind_eq_some_iff.2 ⟨_, hdash _, ?_⟩
  refine Option.bind_eq_some_iff.2 ⟨_, hdayOfMonth _, ?_⟩
  refine Option.bind_eq_some_iff.2 ⟨_, hseparator _, ?_⟩
  refine Option.bind_eq_some_iff.2 ⟨_, hhour _, ?_⟩
  refine Option.bind_eq_some_iff.2 ⟨_, hcolon _, ?_⟩
  refine Option.bind_eq_some_iff.2 ⟨_, hminute _, ?_⟩
  refine Option.bind_eq_some_iff.2 ⟨_, hcolon _, ?_⟩
  refine Option.bind_eq_some_iff.2 ⟨_, hsecond _, ?_⟩
  refine Option.bind_eq_some_iff.2 ⟨_, readFraction_fractionText hfraction _, ?_⟩
  refine Option.bind_eq_some_iff.2 ⟨_, hzone, ?_⟩
  exact if_pos hend

theorem toInstant?_written {t : Instant} (h : t.Valid) : Written.toInstant?
    ⟨Date.ofDays t.dayNumber, t.secondOfDay / 3600, t.secondOfDay / 60 % 60,
      t.secondOfDay % 60 + t.nano / nanosPerSecond, t.nano % nanosPerSecond, 0⟩ = some t := by
  have hday := secondOfDay_lt t
  have hleap := h.leap
  have hnano := h.nano
  have hsplit : t.dayNumber * secondsPerDay + t.secondOfDay = t.second := by
    unfold Instant.dayNumber Instant.secondOfDay secondsPerDay
    rw [Int.fdiv_eq_ediv_of_nonneg _ (by decide), Int.fmod_eq_emod_of_nonneg _ (by decide)]
    omega
  have hhour : t.secondOfDay / 3600 ≤ 23 := by omega
  have hminute : t.secondOfDay / 60 % 60 ≤ 59 := by omega
  have hsecond : t.secondOfDay % 60 + t.nano / nanosPerSecond ≤ 60 := by
    unfold nanosPerSecond at *
    omega
  have hsixty : (t.secondOfDay % 60 + t.nano / nanosPerSecond == 60) =
      decide (nanosPerSecond ≤ t.nano) := by
    unfold nanosPerSecond at *
    rw [Bool.eq_iff_iff, beq_iff_eq, decide_eq_true_eq]
    omega
  have hclock : ((t.secondOfDay / 3600 : Nat) : Int) * 3600 +
      ((t.secondOfDay / 60 % 60 : Nat) : Int) * 60 +
      ((if decide (nanosPerSecond ≤ t.nano) = true then 59
        else t.secondOfDay % 60 + t.nano / nanosPerSecond : Nat) : Int) = t.secondOfDay := by
    unfold nanosPerSecond at *
    split
    · rename_i hlong
      have hlast := hleap (of_decide_eq_true hlong)
      omega
    · rename_i hshort
      have hless := of_decide_eq_false (Bool.eq_false_iff.2 hshort)
      omega
  have hfraction : (t.nano % nanosPerSecond +
      if decide (nanosPerSecond ≤ t.nano) = true then nanosPerSecond else 0) = t.nano := by
    unfold nanosPerSecond at *
    split
    · rename_i hlong
      have hmore := of_decide_eq_true hlong
      omega
    · rename_i hshort
      have hless := of_decide_eq_false (Bool.eq_false_iff.2 hshort)
      omega
  have hback : Date.ofDays (t.second.fdiv secondsPerDay) = Date.ofDays t.dayNumber := rfl
  have hoffset : (0 : Int).natAbs < 86400 := by decide
  simp only [Written.toInstant?, isValid_ofDays h.year, hhour, hminute, hsecond, hoffset,
    decide_true, Bool.and_true, if_true, hsixty, toDays_ofDays, hclock, hsplit, Int.sub_zero,
    hback, h.year, hfraction]

/-- What is written of an instant is read as the instant. -/
theorem ofText?_toText {t : Instant} (h : t.Valid) : Instant.ofText? t.toText = some t := by
  rw [Instant.ofText?, readLenient_toText h, Option.bind_some, toInstant?_written h]

end BuildPool.Time
