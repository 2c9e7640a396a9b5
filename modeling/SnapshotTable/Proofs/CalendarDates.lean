import SnapshotTable.Time.Calendar

/-! The calendar and the numbers of its days. An era of 400 years has 146097 days, and the year of a day of an
era is found by a formula that grows with the day and is right on the first and on the last day of every year.
So every number of a day has a date, which the calendar has and which has that number. -/

namespace SnapshotTable.Time

def eraStart (year : Int) : Int := 365 * year + year / 4 - year / 100

def yearOfEra (day : Int) : Int := (day - day / 1460 + day / 36524 - day / 146096) / 365

def dayOfYear (day : Int) : Int := day - eraStart (yearOfEra day)

private theorem yearOfEra_mono {day later : Int} (h : day ≤ later) :
    yearOfEra day ≤ yearOfEra later := by
  -- Four centuries are 146096 days long but for the last day, so their corrections come in one step.
  have hfour (d : Int) : d / 146096 = d / 36524 / 4 :=
    (Int.ediv_ediv_of_nonneg (x := d) (y := 36524) (z := 4) (by decide)).symm
  have hcentury : day / 36524 ≤ later / 36524 := Int.ediv_le_ediv (by decide) h
  rw [yearOfEra, yearOfEra, hfour, hfour]
  apply Int.ediv_le_ediv (by decide)
  generalize day / 36524 = a at *
  generalize later / 36524 = b at *
  omega

private theorem yearOfEra_first_last : ∀ year : Fin 400,
    yearOfEra (eraStart year) = year ∧ yearOfEra (eraStart (year + 1) - 1) = year := by
  decide +kernel

private theorem yearOfEra_eraStart (year : Int) (h : 0 ≤ year ∧ year < 400) :
    yearOfEra (eraStart year) = year ∧ yearOfEra (eraStart (year + 1) - 1) = year := by
  have hyear := yearOfEra_first_last ⟨year.toNat, by omega⟩
  rwa [Int.toNat_of_nonneg h.1] at hyear

private theorem leap_of_longer (year : Int)
    (hlonger : 1 ≤ (year + 1) / 4 - year / 4 - ((year + 1) / 100 - year / 100)) :
    (year + 1) % 4 = 0 ∧ (year + 1) % 100 ≠ 0 := by
  have hcenturies : year / 100 ≤ (year + 1) / 100 := Int.ediv_le_ediv (by decide) (by omega)
  have hfour : year / 4 < (year + 1) / 4 := by omega
  have hnext : (year + 1) / 4 ≤ year / 4 + 1 := by omega
  have hcentury : (year + 1) % 100 = 0 → (year + 1) / 100 = year / 100 + 1 := by
    clear hlonger hfour hnext
    omega
  constructor
  · clear hlonger hcenturies hcentury
    omega
  · intro hzero
    have hmore := hcentury hzero
    omega

section Era
variable {day : Int} (h : 0 ≤ day ∧ day < 146097)
include h

private theorem yearOfEra_range : 0 ≤ yearOfEra day ∧ yearOfEra day < 400 := by
  rw [yearOfEra]
  omega

private theorem eraStart_le : eraStart (yearOfEra day) ≤ day := by
  have hrange := yearOfEra_range h
  apply Int.not_lt.mp
  intro hearly
  -- Then the day is no later than the last one of the year before, where the formula is right.
  have hzero : yearOfEra day ≠ 0 := by
    intro hyear
    rw [hyear] at hearly
    exact Int.not_lt.mpr h.1 hearly
  have hlast := (yearOfEra_eraStart (yearOfEra day - 1) (by omega)).2
  rw [Int.sub_add_cancel] at hlast
  have hmono := yearOfEra_mono (Int.le_sub_one_of_lt hearly)
  omega

private theorem lt_eraStart (hyear : yearOfEra day ≠ 399) : day < eraStart (yearOfEra day + 1) := by
  have hrange := yearOfEra_range h
  apply Int.not_le.mp
  intro hlate
  have hfirst := (yearOfEra_eraStart (yearOfEra day + 1) (by omega)).1
  have hmono := yearOfEra_mono hlate
  omega

private theorem dayOfYear_range : 0 ≤ dayOfYear day ∧ dayOfYear day ≤ 365 := by
  have hrange := yearOfEra_range h
  have hle := eraStart_le h
  rw [dayOfYear]
  refine ⟨by omega, ?_⟩
  by_cases hyear : yearOfEra day = 399
  · rw [hyear]
    have hstart : eraStart 399 = 145731 := by decide
    omega
  · have hlt := lt_eraStart h hyear
    simp only [eraStart] at hlt ⊢
    omega

private theorem isLeapYear_of_dayOfYear (hlast : dayOfYear day = 365) (era : Int) :
    isLeapYear (era * 400 + yearOfEra day + 1) = true := by
  simp only [isLeapYear, Bool.and_eq_true, Bool.or_eq_true, beq_iff_eq, bne_iff_ne]
  by_cases hyear : yearOfEra day = 399
  · omega
  · have hlt := lt_eraStart h hyear
    simp only [dayOfYear, eraStart] at hlast hlt
    have hlonger := leap_of_longer (yearOfEra day) (by omega)
    generalize yearOfEra day = year at *
    omega

end Era

namespace Date

/-- Months and days of the calendar have two digits. -/
theorem range_of_valid {date : Date} (h : date.valid = true) : date.month ≤ 12 ∧ date.day ≤ 31 := by
  rw [valid, Bool.and_eq_true, decide_eq_true_eq, decide_eq_true_eq] at h
  obtain ⟨hfirst, hlast⟩ := h
  rw [monthLength.eq_def] at hlast
  split at hlast
  · split at hlast <;> omega
  all_goals omega

private theorem ofDayNumber_eq (number : Int) :
    let day := (number + 719468) % 146097
    let month := (5 * dayOfYear day + 2) / 153
    ofDayNumber number =
      { year := (number + 719468) / 146097 * 400 + yearOfEra day + if 10 ≤ month then 1 else 0
        month := (if 10 ≤ month then month - 9 else month + 3).toNat
        day := (dayOfYear day - (153 * month + 2) / 5 + 1).toNat } := rfl

/-- A day has a date of the calendar. -/
theorem valid_ofDayNumber (number : Int) : (ofDayNumber number).valid = true := by
  have hday : 0 ≤ (number + 719468) % 146097 ∧ (number + 719468) % 146097 < 146097 := by omega
  have hyear := dayOfYear_range hday
  have hleap := fun hlast => isLeapYear_of_dayOfYear hday hlast ((number + 719468) / 146097)
  rw [ofDayNumber_eq]
  generalize (number + 719468) / 146097 * 400 + yearOfEra ((number + 719468) % 146097) = year at *
  generalize dayOfYear ((number + 719468) % 146097) = doy at *
  obtain ⟨m, hm⟩ : ∃ m, (5 * doy + 2) / 153 = m := ⟨_, rfl⟩
  rw [hm]
  by_cases hfebruary : m = 11
  · subst hfebruary
    have hlength : doy - 337 + 1 ≤ monthLength (year + 1) 2 := by
      rw [monthLength]
      split
      · omega
      · have hshort : doy ≠ 365 := fun hlast => absurd (hleap hlast) (by assumption)
        omega
    simp [valid]
    omega
  · have hcases : m = 0 ∨ m = 1 ∨ m = 2 ∨ m = 3 ∨ m = 4 ∨ m = 5 ∨ m = 6 ∨ m = 7 ∨ m = 8 ∨ m = 9 ∨ m = 10 := by
      omega
    rcases hcases with rfl | rfl | rfl | rfl | rfl | rfl | rfl | rfl | rfl | rfl | rfl
    all_goals
      simp [valid, monthLength]
      omega

private theorem dayNumber_eq {date : Date} (era year month : Int) (hrange : 0 ≤ year ∧ year < 400)
    (hyear : (if date.month ≤ 2 then date.year - 1 else date.year) = era * 400 + year)
    (hmonth : ((date.month : Int) + 9) % 12 = month) :
    date.dayNumber = era * 146097 + eraStart year + ((153 * month + 2) / 5 + date.day - 1) - 719468 := by
  have hera : (era * 400 + year) / 400 = era := by omega
  have hrest : (era * 400 + year) % 400 = year := by omega
  rw [dayNumber]
  simp only [hyear, hmonth, hera, hrest, eraStart]
  omega

/-- It is the day with that number. -/
theorem dayNumber_ofDayNumber (number : Int) : (ofDayNumber number).dayNumber = number := by
  have hday : 0 ≤ (number + 719468) % 146097 ∧ (number + 719468) % 146097 < 146097 := by omega
  have hyears := yearOfEra_range hday
  have hdays := dayOfYear_range hday
  have hstart : (number + 719468) % 146097 = eraStart (yearOfEra ((number + 719468) % 146097)) +
      dayOfYear ((number + 719468) % 146097) := by
    rw [dayOfYear]
    omega
  have hsplit := Int.mul_ediv_add_emod (number + 719468) 146097
  rw [ofDayNumber_eq]
  generalize yearOfEra ((number + 719468) % 146097) = year at *
  generalize dayOfYear ((number + 719468) % 146097) = doy at *
  obtain ⟨m, hm⟩ : ∃ m, (5 * doy + 2) / 153 = m := ⟨_, rfl⟩
  rw [hm]
  have hmonths : 0 ≤ m ∧ m ≤ 11 ∧ 153 * m ≤ 5 * doy + 2 := by omega
  rw [dayNumber_eq ((number + 719468) / 146097) year m hyears]
  · dsimp only
    generalize eraStart year = start at *
    omega
  · -- January and February lie behind the end of the year.
    dsimp only
    split <;> split <;> omega
  · dsimp only
    split <;> omega

end Date
end SnapshotTable.Time
