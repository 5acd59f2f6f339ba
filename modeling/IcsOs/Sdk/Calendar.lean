/- GID: IcsOs/Sdk/Calendar
   generality: I
   source: kernel/stdlib/time.c
   digest: The kernel's clock against the Gregorian calendar. -/

import Mathlib.Tactic.IntervalCases

set_option autoImplicit false

namespace IcsOs.Sdk.Calendar

structure Date where
  year : Int
  month : Int
  day : Int

/-- `dex32_datetime`. -/
structure DateTime extends Date where
  hour : Int
  min : Int
  sec : Int

def timeMonthdays : List Int := [0, 31, 59, 90, 120, 151, 181, 212, 243, 273, 304, 334, 365]

/-- `time`, before the result is cut to an `int`. -/
def total (t : DateTime) : Int :=
  let totaldays := (t.year - 1970) * 365
  let totaldays := if t.year % 4 ≠ 0 ∨ t.month > 2 then totaldays + t.year / 4
    else totaldays + (t.year / 4 - 1)
  let totaldays := if t.month > 2 ∧ t.year % 4 = 0 then totaldays + 1 else totaldays
  let totaldays := totaldays + timeMonthdays.getD (t.month - 1).toNat 0 + t.day
  ((totaldays * 24 + t.hour) * 60 + t.min) * 60 + t.sec

def time (t : DateTime) : Int := (total t + 2 ^ 31) % 2 ^ 32 - 2 ^ 31

/-- The Gregorian rule. -/
def IsLeap (y : Int) : Prop := y % 4 = 0 ∧ y % 100 ≠ 0 ∨ y % 400 = 0

instance (y : Int) : Decidable (IsLeap y) := inferInstanceAs (Decidable (_ ∨ _))

def monthLength (y m : Int) : Int :=
  if m = 2 then if IsLeap y then 29 else 28
  else if m = 4 ∨ m = 6 ∨ m = 9 ∨ m = 11 then 30 else 31

structure Date.Valid (t : Date) : Prop where
  month : 1 ≤ t.month ∧ t.month ≤ 12
  day : 1 ≤ t.day ∧ t.day ≤ monthLength t.year t.month

def Date.next (t : Date) : Date :=
  if t.day < monthLength t.year t.month then { t with day := t.day + 1 }
  else if t.month < 12 then ⟨t.year, t.month + 1, 1⟩ else ⟨t.year + 1, 1, 1⟩

def Date.dayOfYear (t : Date) : Int :=
  ((List.range (t.month - 1).toNat).map fun m : Nat => monthLength t.year (m + 1)).sum + t.day - 1

/-- Days before the first of January of `y`, counted from that of the year 1. -/
def yearDays (y : Int) : Int := 365 * (y - 1) + (y - 1) / 4 - (y - 1) / 100 + (y - 1) / 400

/-- A reading of the clock in the years 1970 to 2037. -/
structure DateTime.Valid (t : DateTime) : Prop extends t.toDate.Valid where
  year : 1970 ≤ t.year ∧ t.year ≤ 2037
  hour : 0 ≤ t.hour ∧ t.hour < 24
  min : 0 ≤ t.min ∧ t.min < 60
  sec : 0 ≤ t.sec ∧ t.sec < 60

/-- The seconds since 1970-01-01 00:00:00. -/
def DateTime.seconds (t : DateTime) : Int :=
  (((t.dayOfYear + yearDays t.year - yearDays 1970) * 24 + t.hour) * 60 + t.min) * 60 + t.sec

/-- The clock one day later shows 86400 seconds more. -/
def Advances (t : DateTime) : Prop := time { t with toDate := t.next } = time t + 86400

/-- From March on `time` counts the leap day of the year twice. -/
def ahead (t : Date) : Int := if IsLeap t.year ∧ t.month > 2 then 494 else 493

theorem total_eq {t : DateTime} (valid : t.toDate.Valid) (first : 1970 ≤ t.year)
    (last : t.year < 2100) : total t = t.seconds + 86400 * ahead t.toDate := by
  obtain ⟨⟨year, month, day⟩, hour, min, sec⟩ := t
  obtain ⟨⟨least, most⟩, -⟩ := valid
  dsimp only at least most first last
  have leap : IsLeap year ↔ year % 4 = 0 := by unfold IsLeap; omega
  simp only [total, DateTime.seconds, ahead, leap, timeMonthdays, yearDays]
  interval_cases month <;>
    simp [Date.dayOfYear, List.range_succ, monthLength, leap] <;> split_ifs <;> omega

theorem next_valid {t : Date} (valid : t.Valid) : t.next.Valid ∧ t.year ≤ t.next.year ∧
    t.next.year ≤ t.year + 1 := by
  obtain ⟨⟨least, most⟩, low, high⟩ := valid
  have long (y m : Int) : 1 ≤ monthLength y m := by
    unfold monthLength
    split_ifs <;> decide
  unfold Date.next
  split_ifs with more inside
  · exact ⟨⟨⟨least, most⟩, by dsimp only; omega, more⟩, by simp, by simp⟩
  · exact ⟨⟨by dsimp only; omega, Int.le_refl 1, long _ _⟩, by simp, by simp⟩
  · exact ⟨⟨by simp, Int.le_refl 1, long _ _⟩, by simp, by simp⟩

theorem seconds_next {t : DateTime} (valid : t.toDate.Valid) :
    DateTime.seconds { t with toDate := t.next } = t.seconds + 86400 := by
  obtain ⟨⟨year, month, day⟩, hour, min, sec⟩ := t
  obtain ⟨⟨least, most⟩, ⟨low, high⟩⟩ := valid
  dsimp only at least most low high
  have leap : yearDays (year + 1) = yearDays year + if IsLeap year then 366 else 365 := by
    unfold yearDays IsLeap
    split_ifs <;> omega
  simp only [DateTime.seconds, Date.next]
  split_ifs with more more
  · simp only [Date.dayOfYear]
    omega
  · interval_cases month <;> simp [Date.dayOfYear, List.range_succ, monthLength] at * <;> omega
  · interval_cases month
    simp [Date.dayOfYear, List.range_succ, monthLength, leap] at *
    split_ifs <;> omega

/-- The leap day ends here, or its year does. -/
def Switches (t : Date) : Prop :=
  IsLeap t.year ∧ (t.month = 2 ∧ t.day = 29 ∨ t.month = 12 ∧ t.day = 31)

theorem ahead_next {t : Date} (valid : t.Valid) : ahead t.next = ahead t ↔ ¬Switches t := by
  obtain ⟨year, month, day⟩ := t
  obtain ⟨⟨least, most⟩, ⟨low, high⟩⟩ := valid
  dsimp only at least most low high
  by_cases leap : IsLeap year
  · simp only [Date.next, Switches, leap, true_and]
    unfold monthLength at *
    grind [ahead]
  · simp only [Date.next, Switches, leap, false_and, not_false_iff, iff_true]
    grind [ahead]

theorem wrap_add (a k : Int) (small : k = 0 ∨ k = 86400 ∨ k = 2 * 86400) :
    (a + k + 2 ^ 31) % 2 ^ 32 - 2 ^ 31 = (a + 2 ^ 31) % 2 ^ 32 - 2 ^ 31 + 86400 ↔
      k = 86400 ∧ (a + 2 ^ 31) % 2 ^ 32 - 2 ^ 31 + 86400 < 2 ^ 31 := by
  omega

/-- Less than a day before 2036-09-12 03:14:08. -/
def Ending (t : DateTime) : Prop :=
  let second := (t.hour * 60 + t.min) * 60 + t.sec
  t.year = 2036 ∧ t.month = 9 ∧ (t.day = 11 ∧ 11648 ≤ second ∨ t.day = 12 ∧ second < 11648)

theorem total_bounds {t : DateTime} (valid : t.Valid) : 0 ≤ total t ∧ total t < 2 ^ 32 ∧
    (2 ^ 31 ≤ total t + 86400 ∧ total t < 2 ^ 31 → t.year = 2036) := by
  obtain ⟨⟨year, month, day⟩, hour, min, sec⟩ := t
  obtain ⟨⟨⟨least, most⟩, low, high⟩, years, hours, minutes, seconds⟩ := valid
  dsimp only [total] at *
  have long : day ≤ 31 := by
    unfold monthLength at high
    split_ifs at high <;> omega
  have before : 0 ≤ timeMonthdays.getD (month - 1).toNat 0 ∧
      timeMonthdays.getD (month - 1).toNat 0 ≤ 334 := by
    interval_cases month <;> decide
  split_ifs <;> omega

theorem ending_iff {t : DateTime} (valid : t.Valid) : Ending t ↔ 2 ^ 31 ≤ time t + 86400 := by
  obtain ⟨least, most, only⟩ := total_bounds valid
  have wraps : 2 ^ 31 ≤ time t + 86400 ↔ 2 ^ 31 ≤ total t + 86400 ∧ total t < 2 ^ 31 := by
    unfold time
    omega
  rw [wraps]
  by_cases there : t.year = 2036
  · obtain ⟨⟨year, month, day⟩, hour, min, sec⟩ := t
    obtain ⟨⟨months, low, high⟩, -, hours, minutes, seconds⟩ := valid
    obtain rfl : year = 2036 := there
    obtain ⟨first, last⟩ : 1 ≤ month ∧ month ≤ 12 := months
    clear least most only wraps
    interval_cases month <;> simp [Ending, total, timeMonthdays, monthLength, IsLeap] at * <;> omega
  · exact ⟨fun ending => absurd ending.1 there, fun late => absurd (only late) there⟩

/-- The value is always days ahead, and it moves on by a day except over the end of the leap
day, over the end of a leap year and where the `int` wraps. -/
theorem clock_ahead {t : DateTime} (valid : t.Valid) : time t ≠ t.seconds ∧
    (Advances t ↔ ¬Switches t.toDate ∧ ¬Ending t) := by
  obtain ⟨first, last⟩ := valid.year
  obtain ⟨next, least, most⟩ := next_valid valid.toValid
  have here := total_eq valid.toValid first (by omega)
  have there := total_eq (t := { t with toDate := t.next }) next (by dsimp only; omega)
    (by dsimp only; omega)
  rw [seconds_next valid.toValid] at there
  have some (t : Date) : ahead t = 494 ∨ ahead t = 493 := by
    unfold ahead
    split_ifs <;> simp
  have one := some t.toDate
  have other := some t.next
  rw [← ahead_next valid.toValid, ending_iff valid, Int.not_le]
  unfold Advances time
  dsimp only at *
  constructor
  · omega
  · rw [show total _ = total t + (86400 + 86400 * (ahead t.next - ahead t.toDate)) by omega,
      wrap_add _ _ (by omega)]
    omega

/-- In March 2000 it moves on. -/
theorem clock_ahead_march : ∃ t : DateTime, t.Valid ∧ time t ≠ t.seconds ∧ Advances t := by
  have valid : DateTime.Valid ⟨⟨2000, 3, 1⟩, 0, 0, 0⟩ :=
    ⟨⟨by decide, by decide⟩, by decide, by decide, by decide, by decide⟩
  have holds := clock_ahead valid
  exact ⟨_, valid, holds.1, holds.2.mpr (by unfold Switches Ending; decide)⟩

/-- At the epoch the value is 493 days. -/
theorem epoch_ahead : ∃ t : DateTime, t.Valid ∧ t.seconds = 0 ∧ time t = 493 * 86400 :=
  ⟨⟨⟨1970, 1, 1⟩, 0, 0, 0⟩, ⟨⟨by decide, by decide⟩, by decide, by decide, by decide, by decide⟩,
    by decide, by decide⟩

end IcsOs.Sdk.Calendar
