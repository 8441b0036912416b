import Mathlib.Tactic
import BuildPool.Time.Calendar

/-!
# Dates and their numbers

Each number of a day gives a date that exists, and this date has the number. An era of 400 years
falls into centuries, cycles of four years and years; the last of these may be a day longer or
shorter than the others.
-/

namespace BuildPool.Time

/-! ## A day in an era -/

/-- The day of an era by century, cycle, year of the cycle and day of the year, all from zero. -/
structure EraDay (dayOfEra century cycle year day : Int) : Prop where
  centuryOfEra : 0 ≤ century ∧ century ≤ 3
  cycleOfCentury : 0 ≤ cycle ∧ cycle ≤ 24
  yearOfCycle : 0 ≤ year ∧ year ≤ 3
  dayOfYear : 0 ≤ day ∧ day ≤ 365
  /-- A leap day ends a cycle, and ends a century only if the era ends with it. -/
  leapDay : day = 365 → year = 3 ∧ (cycle = 24 → century = 3)
  sum : dayOfEra = 36524 * century + 1461 * cycle + 365 * year + day

theorem exists_eraDay {dayOfEra : Int} (hlow : 0 ≤ dayOfEra) (hhigh : dayOfEra < daysPerEra) :
    ∃ century cycle year day, EraDay dayOfEra century cycle year day := by
  unfold daysPerEra at hhigh
  have hcentury : 0 ≤ dayOfEra / 36524 - dayOfEra / 146096 ∧
      dayOfEra / 36524 - dayOfEra / 146096 ≤ 3 := by omega
  generalize hc : dayOfEra / 36524 - dayOfEra / 146096 = century at hcentury
  have hrest : 0 ≤ dayOfEra - 36524 * century ∧ dayOfEra - 36524 * century ≤ 36524 ∧
      (dayOfEra - 36524 * century = 36524 → century = 3) := by omega
  generalize hr : dayOfEra - 36524 * century = rest at hrest
  refine ⟨century, rest / 1461, min (rest % 1461 / 365) 3,
    rest % 1461 - 365 * min (rest % 1461 / 365) 3, hcentury, ?_, ?_, ?_, ?_, ?_⟩
  all_goals omega

namespace EraDay

variable {dayOfEra century cycle year day : Int}

theorem yearOfEra_eq (h : EraDay dayOfEra century cycle year day) :
    (dayOfEra - dayOfEra / 1460 + dayOfEra / 36524 - dayOfEra / 146096) / 365 =
      100 * century + 4 * cycle + year := by
  obtain ⟨hcentury, hcycle, hyear, hday, hleap, rfl⟩ := h
  have hcentury : (36524 * century + 1461 * cycle + 365 * year + day) / 36524 -
      (36524 * century + 1461 * cycle + 365 * year + day) / 146096 = century := by
    rcases (by omega : 1461 * cycle + 365 * year + day ≤ 36523 ∨
      (1461 * cycle + 365 * year + day = 36524 ∧ century = 3)) with hrest | ⟨hrest, rfl⟩
    · have hquotient :
          (36524 * century + 1461 * cycle + 365 * year + day) / 36524 = century := by omega
      have hzero : (36524 * century + 1461 * cycle + 365 * year + day) / 146096 = 0 := by omega
      omega
    · omega
  have hb : (36524 * century + 1461 * cycle + 365 * year + day) / 1460 =
      25 * century + cycle + (24 * century + cycle + 365 * year + day) / 1460 := by omega
  omega

theorem daysBefore_eq (h : EraDay dayOfEra century cycle year day) :
    365 * (100 * century + 4 * cycle + year) + (100 * century + 4 * cycle + year) / 4 -
      (100 * century + 4 * cycle + year) / 100 = 36524 * century + 1461 * cycle + 365 * year := by
  obtain ⟨hcentury, hcycle, hyear, -⟩ := h
  omega

end EraDay

/-! ## A day in a year from March -/

/-- The date of a day of a year, both counted from March. -/
def marchDate (year day : Int) : Date :=
  let month := (5 * day + 2) / 153
  let dayOfMonth := day - (153 * month + 2) / 5 + 1
  let monthOfYear := if month < 10 then month + 3 else month - 9
  ⟨if monthOfYear ≤ 2 then year + 1 else year, monthOfYear.toNat, dayOfMonth.toNat⟩

variable {era year day : Int}

theorem marchDate_day_le (hlow : 0 ≤ day) (hhigh : day ≤ 365)
    (hleap : day = 365 → isLeapYear (year + 1) = true) :
    (marchDate year day).day ≤
      daysInMonth (marchDate year day).year (marchDate year day).month := by
  simp only [marchDate]
  obtain ⟨month, hmonth⟩ : ∃ month, (5 * day + 2) / 153 = month := ⟨_, rfl⟩
  have hbounds : 0 ≤ month ∧ month ≤ 11 := by omega
  have hday : 153 * month ≤ 5 * day + 2 ∧ 5 * day + 2 < 153 * month + 153 := by omega
  rw [hmonth]
  clear hmonth
  obtain ⟨hlowMonth, hhighMonth⟩ := hbounds
  cases hyear : isLeapYear (year + 1) with
  | true => interval_cases month <;> simp [daysInMonth, hyear] <;> omega
  | false =>
    have hcommon : day ≠ 365 := fun heq => by simp [hleap heq] at hyear
    interval_cases month <;> simp [daysInMonth, hyear] <;> omega

theorem marchDate_isValid (hlow : 0 ≤ day) (hhigh : day ≤ 365)
    (hleap : day = 365 → isLeapYear (year + 1) = true)
    (hrange : yearInRange (marchDate year day).year = true) :
    (marchDate year day).isValid = true := by
  have hmonth : 1 ≤ (marchDate year day).month ∧ (marchDate year day).month ≤ 12 := by
    simp only [marchDate]
    omega
  have hday : 1 ≤ (marchDate year day).day := by
    simp only [marchDate]
    omega
  simp only [Date.isValid, hrange, hmonth, hday, marchDate_day_le hlow hhigh hleap, decide_true,
    Bool.and_true]

theorem toDays_marchDate (hera : 0 ≤ year ∧ year ≤ 399) (hlow : 0 ≤ day) (hhigh : day ≤ 365) :
    (marchDate (era * 400 + year) day).toDays =
      era * daysPerEra + (year * 365 + year / 4 - year / 100 + day) - epochShift := by
  obtain ⟨d, hd⟩ : ∃ d, marchDate (era * 400 + year) day = d := ⟨_, rfl⟩
  have hyear : (if d.month ≤ 2 then d.year - 1 else d.year) = era * 400 + year := by
    rw [← hd, marchDate]
    simp only
    omega
  have hmonth : ((d.month : Int) + 9) % 12 = (5 * day + 2) / 153 := by
    rw [← hd, marchDate]
    simp only
    omega
  have hday : (153 * ((5 * day + 2) / 153) + 2) / 5 + (d.day : Int) - 1 = day := by
    rw [← hd, marchDate]
    simp only
    omega
  have hfour : (era * 400 + year) / 400 = era := by omega
  rw [hd, Date.toDays]
  simp (disch := decide) only [Int.fdiv_eq_ediv_of_nonneg, hyear, hmonth, hday, hfour]
  rw [show era * 400 + year - era * 400 = year by omega]

/-! ## Numbers to dates and back -/

/-- Each day is a day of a year from March. -/
theorem ofDays_eq (days : Int) : ∃ era century cycle year day,
    EraDay (days + epochShift - era * daysPerEra) century cycle year day ∧
      Date.ofDays days = marchDate (era * 400 + (100 * century + 4 * cycle + year)) day := by
  obtain ⟨era, hera⟩ : ∃ era, (days + epochShift) / daysPerEra = era := ⟨_, rfl⟩
  obtain ⟨dayOfEra, hdayOfEra⟩ : ∃ d, days + epochShift - era * daysPerEra = d := ⟨_, rfl⟩
  have hbounds : 0 ≤ dayOfEra ∧ dayOfEra < daysPerEra := by
    unfold daysPerEra at *
    omega
  obtain ⟨century, cycle, year, day, h⟩ := exists_eraDay hbounds.1 hbounds.2
  refine ⟨era, century, cycle, year, day, by rw [hdayOfEra]; exact h, ?_⟩
  have hday : dayOfEra - (365 * (100 * century + 4 * cycle + year) +
      (100 * century + 4 * cycle + year) / 4 - (100 * century + 4 * cycle + year) / 100) = day := by
    rw [h.daysBefore_eq, h.sum]
    omega
  simp (disch := decide) only [Date.ofDays, Int.fdiv_eq_ediv_of_nonneg,
    hera, hdayOfEra, h.yearOfEra_eq, hday, marchDate]
  rw [Int.add_comm (100 * century + 4 * cycle + year)]

theorem toDays_ofDays (days : Int) : (Date.ofDays days).toDays = days := by
  obtain ⟨era, century, cycle, year, day, h, heq⟩ := ofDays_eq days
  obtain ⟨hcentury, hcycle, hyear, hday, -, hsum⟩ := h
  rw [heq, toDays_marchDate (by omega) hday.1 hday.2]
  omega

theorem isValid_ofDays {days : Int} (hrange : yearInRange (Date.ofDays days).year = true) :
    (Date.ofDays days).isValid = true := by
  obtain ⟨era, century, cycle, year, day, h, heq⟩ := ofDays_eq days
  rw [heq] at hrange ⊢
  refine marchDate_isValid h.dayOfYear.1 h.dayOfYear.2 (fun hlast => ?_) hrange
  obtain ⟨hyear, hera⟩ := h.leapDay hlast
  have hcycle := h.cycleOfCentury
  simp only [isLeapYear, Bool.and_eq_true, Bool.or_eq_true, beq_iff_eq, bne_iff_ne]
  omega

end BuildPool.Time
