import Mathlib.Data.Int.SuccPred
import Mathlib.Tactic.Linarith
import Mathlib.Tactic.Ring

/-!
# The Gregorian calendar in UTC

Days are counted from 1 January 1970, and times are milliseconds. The month `12 * y + m` is month
`m` of year `y`, counted from zero, so the first day of a month is a strictly increasing function of
one number (`dayFromMonth`), and the month of a day its lower adjoint (`le_monthFromDay_iff`). `utc`
carries parts past their range over, as `Date.UTC` does.
-/

namespace Fino.Lib.Calendar

/-! ## Years and months -/

variable (y : ℤ)

def dayFromYear : ℤ :=
  365 * (y - 1970) + (y - 1969) / 4 - (y - 1901) / 100 + (y - 1601) / 400

/-- The year has a 29th of February. -/
def IsLeap : Prop := y % 4 = 0 ∧ (y % 100 ≠ 0 ∨ y % 400 = 0)

instance (y : ℤ) : Decidable (IsLeap y) := inferInstanceAs (Decidable (_ ∧ _))

/-- The year of a day. The mean length of a year gives it up to one. -/
def yearFromDay (d : ℤ) : ℤ :=
  let y := 1970 + 400 * d / 146097
  if dayFromYear (y + 1) ≤ d then y + 1 else if d < dayFromYear y then y - 1 else y

lemma dayFromYear_succ : dayFromYear (y + 1) = dayFromYear y + if IsLeap y then 366 else 365 := by
  unfold dayFromYear IsLeap
  split_ifs <;> omega

lemma yearFromDay_spec (d : ℤ) :
    dayFromYear (yearFromDay d) ≤ d ∧ d < dayFromYear (yearFromDay d + 1) := by
  unfold yearFromDay
  simp only
  split_ifs with hlate hearly
  · refine ⟨hlate, ?_⟩
    unfold dayFromYear
    omega
  · refine ⟨?_, by simpa using hearly⟩
    unfold dayFromYear
    omega
  · exact ⟨by omega, by omega⟩

/-- The days that January and February have less than the months' mean would give them. -/
def shortfall : ℤ := if IsLeap y then 1 else 2

/-- The number of days in a year before its month `m`, counted from zero. -/
def daysBefore (y m : ℤ) : ℤ := (367 * m + 5) / 12 - if m < 2 then 0 else shortfall y

def dayFromMonth (M : ℤ) : ℤ := dayFromYear (M / 12) + daysBefore (M / 12) (M % 12)

def monthFromDay (d : ℤ) : ℤ :=
  let y := yearFromDay d
  let r := d - dayFromYear y
  let r' := if r < 61 - shortfall y then r else r + shortfall y
  12 * y + (12 * r' + 6) / 367

example : (List.range 12).map (fun m => daysBefore 2023 (m : ℕ)) =
    [0, 31, 59, 90, 120, 151, 181, 212, 243, 273, 304, 334] := by decide

lemma shortfall_cases :
    shortfall y = 1 ∧ dayFromYear (y + 1) = dayFromYear y + 366 ∨
      shortfall y = 2 ∧ dayFromYear (y + 1) = dayFromYear y + 365 := by
  rw [dayFromYear_succ]
  unfold shortfall
  split_ifs <;> simp

lemma dayFromMonth_succ (M : ℤ) :
    dayFromMonth M + 28 ≤ dayFromMonth (M + 1) ∧ dayFromMonth (M + 1) ≤ dayFromMonth M + 31 := by
  have hleap := shortfall_cases (M / 12)
  unfold dayFromMonth daysBefore
  -- December is followed by January of the next year, and every other month by one of the same.
  by_cases hdec : M % 12 = 11
  · have hnext : (M + 1) / 12 = M / 12 + 1 := by omega
    have hjan : (M + 1) % 12 = 0 := by omega
    rw [hnext, hjan, hdec]
    omega
  · have hnext : (M + 1) / 12 = M / 12 := by omega
    have hmonth : (M + 1) % 12 = M % 12 + 1 := by omega
    rw [hnext, hmonth]
    split_ifs <;> omega

lemma dayFromMonth_lt_iff {M N : ℤ} : dayFromMonth M < dayFromMonth N ↔ M < N := by
  have hmono : StrictMono dayFromMonth := by
    apply strictMono_int_of_lt_succ
    intro M
    have h := (dayFromMonth_succ M).1
    omega
  exact hmono.lt_iff_lt

lemma monthFromDay_spec (d : ℤ) :
    dayFromMonth (monthFromDay d) ≤ d ∧ d < dayFromMonth (monthFromDay d + 1) := by
  obtain ⟨hfrom, hto⟩ := yearFromDay_spec d
  have hleap := shortfall_cases (yearFromDay d)
  unfold monthFromDay
  simp only
  generalize yearFromDay d = y at *
  generalize hr : (if d - dayFromYear y < 61 - shortfall y then d - dayFromYear y
    else d - dayFromYear y + shortfall y) = r
  -- The month lies in the year of the day, since the day does.
  generalize hm : (12 * r + 6) / 367 = m at *
  have hyear : (12 * y + m) / 12 = y := by omega
  have hmod : (12 * y + m) % 12 = m := by omega
  have hfirst : dayFromMonth (12 * y + m) ≤ d := by
    unfold dayFromMonth daysBefore
    rw [hyear, hmod]
    split_ifs at hr ⊢ <;> omega
  refine ⟨hfirst, ?_⟩
  unfold dayFromMonth daysBefore
  by_cases hdec : m = 11
  · have hnext : (12 * y + m + 1) / 12 = y + 1 := by omega
    have hjan : (12 * y + m + 1) % 12 = 0 := by omega
    rw [hnext, hjan]
    norm_num
    exact hto
  · have hnext : (12 * y + m + 1) / 12 = y := by omega
    have hmonth' : (12 * y + m + 1) % 12 = m + 1 := by omega
    rw [hnext, hmonth']
    split_ifs at hr ⊢ <;> omega

lemma le_monthFromDay_iff (M d : ℤ) : M ≤ monthFromDay d ↔ dayFromMonth M ≤ d := by
  obtain ⟨hfrom, hto⟩ := monthFromDay_spec d
  constructor
  · intro h
    have hle : dayFromMonth M ≤ dayFromMonth (monthFromDay d) := by
      rw [← not_lt, dayFromMonth_lt_iff, not_lt]
      exact h
    exact hle.trans hfrom
  · intro h
    have hlt : dayFromMonth M < dayFromMonth (monthFromDay d + 1) := h.trans_lt hto
    have := dayFromMonth_lt_iff.mp hlt
    omega

def msPerMinute : ℤ := 60000

def msPerHour : ℤ := 3600000

def msPerDay : ℤ := 86400000

variable (t : ℤ)

def day : ℤ := t / msPerDay

def getUTCFullYear : ℤ := monthFromDay (day t) / 12

/-- `getUTCMonth`, counted from zero. -/
def getUTCMonth : ℤ := monthFromDay (day t) % 12

/-- `getUTCDate`, counted from one. -/
def getUTCDate : ℤ := day t - dayFromMonth (monthFromDay (day t)) + 1

/-- `getUTCDay`, counted from Sunday; the first day of 1970 was a Thursday. -/
def getUTCDay : ℤ := (day t + 4) % 7

def getUTCHours : ℤ := t / msPerHour % 24

def getUTCMinutes : ℤ := t / msPerMinute % 60

/-- The year that a year of at most two digits stands for in `Date.UTC`. -/
def fullYear : ℤ := if 0 ≤ y ∧ y ≤ 99 then 1900 + y else y

/-- `Date.UTC`. -/
def utc (year month date hours minutes : ℤ) : ℤ :=
  (dayFromMonth (12 * fullYear year + month) + date - 1) * msPerDay + hours * msPerHour +
    minutes * msPerMinute

lemma year_ge {t : ℤ} (ht : 0 ≤ t) : 1970 ≤ getUTCFullYear t := by
  have hday : dayFromMonth (12 * 1970) ≤ day t := by
    have h0 : dayFromMonth (12 * 1970) = 0 := by decide
    unfold day msPerDay
    omega
  have hmonth := (le_monthFromDay_iff _ _).mpr hday
  unfold getUTCFullYear
  omega

lemma utc_month {y : ℤ} (hy : 1970 ≤ y) (m : ℤ) :
    utc y m 1 0 0 = dayFromMonth (12 * y + m) * msPerDay := by
  unfold utc fullYear
  rw [if_neg (by omega)]
  ring

lemma utc_day {t : ℤ} (ht : 0 ≤ t) (k hours minutes : ℤ) :
    utc (getUTCFullYear t) (getUTCMonth t) (getUTCDate t + k) hours minutes =
      (day t + k) * msPerDay + hours * msPerHour + minutes * msPerMinute := by
  have hyear := year_ge ht
  have hmonth : 12 * getUTCFullYear t + getUTCMonth t = monthFromDay (day t) := by
    unfold getUTCFullYear getUTCMonth
    omega
  unfold utc fullYear
  rw [if_neg (by omega), hmonth, getUTCDate]
  ring

lemma monthFromDay_le {s t : ℤ} (h : t ≤ s) : monthFromDay (day t) ≤ monthFromDay (day s) := by
  rw [le_monthFromDay_iff]
  have hfirst := (monthFromDay_spec (day t)).1
  have hday : day t ≤ day s := Int.ediv_le_ediv (by decide) h
  exact hfirst.trans hday

lemma lt_dayFromMonth_iff (M s : ℤ) :
    s < dayFromMonth M * msPerDay ↔ monthFromDay (day s) < M := by
  rw [← not_le, ← not_le, not_iff_not, le_monthFromDay_iff, day]
  exact (Int.le_ediv_iff_mul_le (by decide)).symm

end Fino.Lib.Calendar
