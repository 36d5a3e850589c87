import Chargeback.Time.Instant

/-!
# The calendar

Every day since the beginning of time has a date, the date exists, and it is the date of no other day.

Years begin with March here, so that the twenty-ninth of February is the last day of its year. An era of
four hundred years is divided into centuries, these into groups of four years, and these into years,
of which the last of all has a day more where the year is a leap year.
-/

namespace Chargeback.Date

/-! ## Days of an era -/

/-- The day of an era in its year, of which the last is the twenty-ninth of February. -/
theorem exists_year {d : Nat} (h : d < 146097) : ∃ c q a t, c ≤ 3 ∧ q ≤ 24 ∧ a ≤ 3 ∧ t ≤ 365 ∧
    (t = 365 → a = 3 ∧ (q < 24 ∨ c = 3)) ∧ d = 36524 * c + 1461 * q + 365 * a + t := by
  obtain ⟨c, hc, hcentury⟩ : ∃ c, c ≤ 3 ∧ 36524 * c ≤ d ∧
      d ≤ 36524 * c + 36524 ∧ (c < 3 → d < 36524 * c + 36524) :=
    ⟨min (d / 36524) 3, by omega⟩
  obtain ⟨q, hq, hgroup⟩ : ∃ q, q ≤ 24 ∧ 1461 * q ≤ d - 36524 * c ∧
      d - 36524 * c < 1461 * q + 1461 := ⟨(d - 36524 * c) / 1461, by omega⟩
  obtain ⟨a, ha, hyear⟩ : ∃ a, a ≤ 3 ∧ 365 * a ≤ d - 36524 * c - 1461 * q ∧
      d - 36524 * c - 1461 * q ≤ 365 * a + 365 ∧
      (a < 3 → d - 36524 * c - 1461 * q < 365 * a + 365) :=
    ⟨min ((d - 36524 * c - 1461 * q) / 365) 3, by omega⟩
  exact ⟨c, q, a, d - 36524 * c - 1461 * q - 365 * a, hc, hq, ha, by omega, by omega, by omega⟩

/-- The year of an era that the calendar finds for a day. -/
def yearOfEra (d : Nat) : Nat := (d - d / 1460 + d / 36524 - d / 146096) / 365

theorem yearOfEra_eq {c q a t : Nat} (hc : c ≤ 3) (hq : q ≤ 24) (ha : a ≤ 3) (ht : t ≤ 365)
    (hlast : t = 365 → a = 3 ∧ (q < 24 ∨ c = 3)) :
    yearOfEra (36524 * c + 1461 * q + 365 * a + t) = 100 * c + 4 * q + a := by
  generalize hd : 36524 * c + 1461 * q + 365 * a + t = d
  -- Four years are a day longer than four plain years; the first division makes up for that.
  obtain ⟨δ, hδ, hgroups⟩ : ∃ δ, d / 1460 = 25 * c + q + δ ∧ (δ = 0 ∧ t < 365 ∨ δ = 1 ∧ 0 < t) := by
    exact ⟨d / 1460 - (25 * c + q), by omega, by omega⟩
  -- The last day of an era seems to begin a fifth century; the last division makes up for that.
  have hcenturies : d / 36524 = c + d / 146096 := by
    by_cases hend : d = 146096
    · have hthird : c = 3 := by omega
      rw [hend, hthird]
    · have hnone : d / 146096 = 0 := Nat.div_eq_of_lt (by omega)
      have hcentury : d / 36524 = c := Nat.div_eq_of_lt_le (by omega) (by omega)
      rw [hnone, hcentury, Nat.add_zero]
  unfold yearOfEra
  omega

/-- What the calendar finds for a day of an era: its year, of which there are four hundred, and its
day in the year, of which there is a last one in leap years only. -/
theorem yearOfEra_spec {d : Nat} (h : d < 146097) : ∃ y t, yearOfEra d = y ∧ y < 400 ∧ t ≤ 365 ∧
    (t = 365 → (y + 1) % 4 = 0 ∧ ((y + 1) % 100 ≠ 0 ∨ (y + 1) % 400 = 0)) ∧
    d = 365 * y + y / 4 - y / 100 + t ∧ d - (365 * y + y / 4 - y / 100) = t := by
  obtain ⟨c, q, a, t, hc, hq, ha, ht, hlast, rfl⟩ := exists_year h
  have hfours : (100 * c + 4 * q + a) / 4 = 25 * c + q := by omega
  have hhundreds : (100 * c + 4 * q + a) / 100 = c := by omega
  refine ⟨100 * c + 4 * q + a, t, yearOfEra_eq hc hq ha ht hlast, by omega, ht, ?_, ?_, ?_⟩
  · intro htime
    obtain ⟨rfl, hq' | rfl⟩ := hlast htime <;> omega
  · rw [hfours, hhundreds]
    omega
  · rw [hfours, hhundreds]
    omega

/-! ## Days of a year -/

/-- The month, counted from March, of a day of a year. -/
def monthFromMarch (t : Nat) : Nat := (5 * t + 2) / 153

/-- The month of a day of a year. -/
def monthOf (t : Nat) : Nat :=
  if monthFromMarch t < 10 then monthFromMarch t + 3 else monthFromMarch t - 9

/-- The day of the month of a day of a year. -/
def dayOf (t : Nat) : Nat := t - (153 * monthFromMarch t + 2) / 5 + 1

/-- The days of a month of a year in which February has so many. -/
def lengthOfMonth (february m : Nat) : Nat :=
  if m = 2 then february else if [4, 6, 9, 11].contains m then 30
  else if 1 ≤ m && m ≤ 12 then 31 else 0

theorem dayOf_spec {t : Nat} (h : t ≤ 365) :
    (monthOf t + 9) % 12 = monthFromMarch t ∧
      (153 * monthFromMarch t + 2) / 5 + dayOf t = t + 1 ∧ 1 ≤ dayOf t ∧
      dayOf t ≤ lengthOfMonth (if t = 365 then 29 else 28) (monthOf t) ∧
      (t = 365 → monthOf t = 2) := by
  have hall : ∀ t : Fin 366, (monthOf t + 9) % 12 = monthFromMarch t ∧
      (153 * monthFromMarch t + 2) / 5 + dayOf t = t.val + 1 ∧ 1 ≤ dayOf t ∧
      dayOf t ≤ lengthOfMonth (if t.val = 365 then 29 else 28) (monthOf t) ∧
      (t.val = 365 → monthOf t = 2) := by decide +kernel
  exact hall ⟨t, by omega⟩

/-! ## Dates -/

/-- The date of a day by its era, its year of the era and its day of the year. -/
theorem ofDays_eq (n : Int) : ∃ (era : Int) (y t : Nat), y < 400 ∧ t ≤ 365 ∧
    (t = 365 → (y + 1) % 4 = 0 ∧ ((y + 1) % 100 ≠ 0 ∨ (y + 1) % 400 = 0)) ∧
    n + 719468 = era * 146097 + ((365 * y + y / 4 - y / 100 + t : Nat) : Int) ∧
    ofDays n = ⟨era * 400 + y + (if monthOf t ≤ 2 then 1 else 0), monthOf t, dayOf t⟩ := by
  obtain ⟨d, hd⟩ : ∃ d : Nat, n + 719468 - (n + 719468) / 146097 * 146097 = d :=
    ⟨(n + 719468 - (n + 719468) / 146097 * 146097).toNat, by omega⟩
  obtain ⟨y, t, hy, hyear, ht, hleap, hday, hrest⟩ := yearOfEra_spec (d := d) (by omega)
  refine ⟨(n + 719468) / 146097, y, t, hyear, ht, hleap, by omega, ?_⟩
  have hof : ofDays n = ⟨(n + 719468) / 146097 * 400 + (yearOfEra d : Int) +
      (if monthOf (d - (365 * yearOfEra d + yearOfEra d / 4 - yearOfEra d / 100)) ≤ 2 then 1 else 0),
      monthOf (d - (365 * yearOfEra d + yearOfEra d / 4 - yearOfEra d / 100)),
      dayOf (d - (365 * yearOfEra d + yearOfEra d / 4 - yearOfEra d / 100))⟩ := by
    simp only [ofDays, hd, Int.toNat_natCast]
    rfl
  rw [hof, hy, hrest]

/-- **Every day has its own date.** -/
theorem toDays_ofDays (n : Int) : (ofDays n).toDays = n := by
  obtain ⟨era, y, t, hyear, ht, -, hn, hof⟩ := ofDays_eq n
  obtain ⟨hmonth, hday, hpos, -, -⟩ := dayOf_spec ht
  have hy : (if monthOf t ≤ 2 then era * 400 + y + (if monthOf t ≤ 2 then 1 else 0) - 1
      else era * 400 + y + (if monthOf t ≤ 2 then (1 : Int) else 0)) = era * 400 + y := by
    split <;> omega
  have hera : (era * 400 + y) / 400 = era := by omega
  rw [hof]
  simp only [toDays, hy, hera, hmonth]
  omega

theorem isLeapYear_iff (y : Int) :
    isLeapYear y = true ↔ y % 4 = 0 ∧ (y % 100 ≠ 0 ∨ y % 400 = 0) := by
  simp [isLeapYear]

/-- **The date of a day exists**, if it is in the range of dates at all. -/
theorem isValid_ofDays {n : Int} (h : yearInRange (ofDays n).year = true) :
    (ofDays n).isValid = true := by
  obtain ⟨era, y, t, hyear, ht, hleap, -, hof⟩ := ofDays_eq n
  obtain ⟨-, -, hpos, hlength, hlast⟩ := dayOf_spec ht
  have hdays : dayOf t ≤ daysInMonth (ofDays n).year (monthOf t) := by
    refine Nat.le_trans hlength ?_
    simp only [hof, daysInMonth, lengthOfMonth]
    split
    · next hfebruary =>
        split
        · next htime =>
            obtain ⟨hfour, hcentury⟩ := hleap htime
            have hisLeap : isLeapYear (era * 400 + y + (if monthOf t ≤ 2 then 1 else 0)) = true := by
              rw [isLeapYear_iff, if_pos (by omega)]
              omega
            rw [hisLeap]
            exact Nat.le_refl _
        · generalize isLeapYear _ = leap
          cases leap <;> decide
    · exact Nat.le_refl _
  rw [isValid, h, Bool.true_and, Bool.and_eq_true, decide_eq_true_eq, decide_eq_true_eq]
  rw [hof] at hdays ⊢
  exact ⟨hpos, hdays⟩

/-- Months and days have two digits. -/
theorem lt_of_isValid {d : Date} (h : d.isValid = true) : d.month < 100 ∧ d.day < 100 := by
  obtain ⟨⟨-, hpos⟩, hday⟩ : (yearInRange d.year = true ∧ 1 ≤ d.day) ∧
      d.day ≤ daysInMonth d.year d.month := by
    simpa [isValid] using h
  have hmonth : daysInMonth d.year d.month ≤ 31 ∧ (12 < d.month → daysInMonth d.year d.month = 0) := by
    unfold daysInMonth
    split
    · next hfebruary =>
        generalize isLeapYear d.year = leap
        rw [hfebruary]
        cases leap <;> decide
    split
    · next hthirty =>
        simp at hthirty
        omega
    split
    · next hother =>
        simp at hother
        omega
    · simp
  by_cases hlarge : 12 < d.month
  · have hnone := hmonth.2 hlarge
    omega
  · omega

end Chargeback.Date
