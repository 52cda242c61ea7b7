import Mathlib.Data.List.Sort
import Mathlib.Data.Rat.Floor
import Fino.Lib.Calendar
import Fino.Workflow.Types

/-!
# Occurrences of a schedule

`CronSpec`, `IntervalSpec` and `nextOccurrence` of `js/internal/jobs/cron.ts`. A cron specification
`Occurs` at the whole minutes whose parts are allowed, an interval specification at the multiples of
its interval. `nextOccurrence` skips months, days and hours without a match (`turn_spec`), up to
five years ahead, and finds the first occurrence after a time (`nextOccurrence_isNext`).
-/

namespace Fino.Jobs

open Lib.Calendar List
open Workflow (Time)

/-- The allowed values of a field: at least one, in increasing order and within the field's
range. -/
structure FieldValues (min max : ℕ) where
  values : List ℕ
  sorted : values.Pairwise (· < ·)
  ne_nil : values ≠ []
  bounded : ∀ v ∈ values, min ≤ v ∧ v ≤ max
deriving DecidableEq

structure CronSpec where
  minutes : FieldValues 0 59
  hours : FieldValues 0 23
  daysOfMonth : FieldValues 1 31
  months : FieldValues 1 12
  daysOfWeek : FieldValues 0 6
  domRestricted : Bool
  dowRestricted : Bool
deriving DecidableEq

structure IntervalSpec where
  intervalMs : ℚ
  pos : 0 < intervalMs
deriving DecidableEq

inductive ScheduleSpec
  | cron (spec : CronSpec)
  | every (spec : IntervalSpec)
deriving DecidableEq

def FieldValues.includes {min max : ℕ} (f : FieldValues min max) (n : ℤ) : Bool :=
  f.values.any fun v => decide ((v : ℤ) = n)

/-- `nextAllowed`: the first value that is not below `n`. -/
def FieldValues.nextAllowed {min max : ℕ} (f : FieldValues min max) (n : ℤ) : Option ℕ :=
  f.values.find? fun v => decide (n ≤ (v : ℤ))

def FieldValues.first {min max : ℕ} (f : FieldValues min max) : ℕ := f.values.head f.ne_nil

variable (spec : CronSpec)

def CronSpec.dayMatches (t : ℤ) : Bool :=
  let domOk := spec.daysOfMonth.includes (getUTCDate t)
  let dowOk := spec.daysOfWeek.includes (getUTCDay t)
  if spec.domRestricted && spec.dowRestricted then domOk || dowOk
  else if spec.domRestricted then domOk
  else if spec.dowRestricted then dowOk
  else true

/-- The time is a whole minute that the specification allows. -/
structure CronSpec.Matches (spec : CronSpec) (t : ℤ) : Prop where
  whole : msPerMinute ∣ t
  month : spec.months.includes (getUTCMonth t + 1) = true
  day : spec.dayMatches t = true
  hour : spec.hours.includes (getUTCHours t) = true
  minute : spec.minutes.includes (getUTCMinutes t) = true

/-- The time is an occurrence of the schedule. -/
def ScheduleSpec.Occurs : ScheduleSpec → Time → Prop
  | .cron spec, t => ∃ n : ℤ, t = n ∧ spec.Matches n
  | .every spec, t => ∃ n : ℤ, t = n * spec.intervalMs

/-- The first occurrence after a time. -/
structure ScheduleSpec.IsNext (spec : ScheduleSpec) (after t : Time) : Prop where
  occurs : spec.Occurs t
  after_lt : after < t
  least : ∀ u, spec.Occurs u → after < u → t ≤ u

/-- The time and the interval are whole numbers of milliseconds, and their sum is at most `2 ^ 53`.
Then the product in `nextOccurrence` is a double, and the quotient, rounded to a double, has the
floor that it has itself. -/
def ScheduleSpec.Exact (now : Time) : ScheduleSpec → Prop
  | .cron _ => now.den = 1
  | .every spec => now.den = 1 ∧ spec.intervalMs.den = 1 ∧ now + spec.intervalMs ≤ 2 ^ 53

instance (now : Time) (spec : ScheduleSpec) : Decidable (spec.Exact now) := by
  cases spec <;> unfold ScheduleSpec.Exact <;> infer_instance

/-- What one turn of the loop comes to: it returns a time, or goes on from one. -/
inductive Turn
  | found (t : ℤ)
  | again (t : ℤ)

/-- One turn of the loop of `nextOccurrence`. -/
def CronSpec.turn (t : ℤ) : Turn :=
  if spec.months.includes (getUTCMonth t + 1) = false then
    match spec.months.nextAllowed (getUTCMonth t + 2) with
    | none => .again (utc (getUTCFullYear t + 1) (spec.months.first - 1) 1 0 0)
    | some nextMonth => .again (utc (getUTCFullYear t) (nextMonth - 1) 1 0 0)
  else if spec.dayMatches t = false then
    .again (utc (getUTCFullYear t) (getUTCMonth t) (getUTCDate t + 1) 0 0)
  else
    match spec.hours.nextAllowed (getUTCHours t) with
    | none => .again (utc (getUTCFullYear t) (getUTCMonth t) (getUTCDate t + 1) 0 0)
    | some hour =>
      let t :=
        if (hour : ℤ) ≠ getUTCHours t then
          utc (getUTCFullYear t) (getUTCMonth t) (getUTCDate t) hour 0
        else t
      match spec.minutes.nextAllowed (getUTCMinutes t) with
      | none =>
        .again (utc (getUTCFullYear t) (getUTCMonth t) (getUTCDate t) (getUTCHours t + 1) 0)
      | some minute =>
        if (minute : ℤ) ≠ getUTCMinutes t then
          .found (utc (getUTCFullYear t) (getUTCMonth t) (getUTCDate t) (getUTCHours t) minute)
        else .found t

/-- The last time that a `Date` can have. -/
def maxDate : ℤ := 8640000000000000

def fiveYearsMs : ℤ := 5 * 366 * msPerDay

/-- The loop, for at most `fuel` turns. Past the last time of a `Date` the comparison with `bail` is
one with `NaN`, and false. -/
def CronSpec.search (spec : CronSpec) (bail : Time) : ℕ → ℤ → Option ℤ
  | 0, _ => none
  | fuel + 1, t =>
    if (t : ℚ) ≤ bail ∧ t ≤ maxDate then
      match spec.turn t with
      | .found u => some u
      | .again u => spec.search bail fuel u
    else none

/-- The hours in five years, and some: enough turns for the loop to come to its end, since each ends
in a later hour. -/
def searchFuel : ℕ := 5 * 366 * 24 + 2

/-- The next whole minute after a time, where the search starts. -/
def nextMinute (after : Time) : ℤ := ⌊after / msPerMinute⌋ * msPerMinute + msPerMinute

/-- `nextOccurrence`, with the default anchor; `none` means that it throws. The quotient and the
product are those of rational numbers; `ScheduleSpec.Exact` says when doubles give the same. -/
def nextOccurrence : ScheduleSpec → Time → Option Time
  | .every spec, afterMs => some ((⌊afterMs / spec.intervalMs⌋ + 1) * spec.intervalMs)
  | .cron spec, afterMs =>
    Option.map (fun t : ℤ => (t : Time))
      (spec.search (afterMs + fiveYearsMs) searchFuel (nextMinute afterMs))

namespace FieldValues

variable {min max : ℕ} (f : FieldValues min max) {f : FieldValues min max}

lemma nextAllowed_eq_some {n : ℤ} {v : ℕ} (h : f.nextAllowed n = some v) :
    f.includes v ∧ n ≤ v ∧ ∀ k : ℤ, n ≤ k → k < v → f.includes k = false := by
  have hmem : v ∈ f.values := mem_of_find?_eq_some h
  have hle := List.find?_some h
  refine ⟨?_, of_decide_eq_true hle, fun k hnk hkv => ?_⟩
  · rw [includes, any_eq_true]
    exact ⟨v, hmem, by simp⟩
  · rw [includes, any_eq_false]
    intro w hw hwk
    have hwk : (w : ℤ) = k := of_decide_eq_true hwk
    -- `w` would come before `v`, and be found first.
    obtain ⟨-, as, bs, hsplit, hbefore⟩ := List.find?_eq_some_iff_append.mp h
    have hwas : w ∈ as := by
      rw [hsplit, mem_append, mem_cons] at hw
      rcases hw with hw | rfl | hw
      · exact hw
      · omega
      · have hsorted := f.sorted
        rw [hsplit, pairwise_append, pairwise_cons] at hsorted
        have := hsorted.2.1.1 w hw
        omega
    have := hbefore w hwas
    simp only [Bool.not_eq_true', decide_eq_false_iff_not] at this
    omega

lemma nextAllowed_eq_none {n : ℤ} (h : f.nextAllowed n = none) :
    ∀ k, n ≤ k → f.includes k = false := by
  intro k hk
  rw [includes, any_eq_false]
  intro w hw hwk
  have := List.find?_eq_none.mp h w hw
  simp only [decide_eq_true_eq] at this hwk
  omega

lemma includes_of_lt_first {k : ℤ} (h : k < f.first) : f.includes k = false := by
  rw [includes, any_eq_false]
  intro w hw hwk
  have hwk : (w : ℤ) = k := of_decide_eq_true hwk
  have hsorted := f.sorted
  have hcons := cons_head_tail f.ne_nil
  rw [← hcons, pairwise_cons] at hsorted
  rw [← hcons, mem_cons] at hw
  have hfirst : (f.values.head f.ne_nil : ℤ) = f.first := rfl
  rcases hw with hw | hw
  · omega
  · have := hsorted.1 w hw
    omega

lemma bounds_of_includes {k : ℤ} (h : f.includes k) : (min : ℤ) ≤ k ∧ k ≤ max := by
  rw [includes, any_eq_true] at h
  obtain ⟨v, hv, hvk⟩ := h
  have hvk : (v : ℤ) = k := of_decide_eq_true hvk
  have := f.bounded v hv
  omega

lemma first_bounds : min ≤ f.first ∧ f.first ≤ max := f.bounded _ (head_mem f.ne_nil)

end FieldValues

/-! ## One turn -/

/-- No time from `t` on and before `u` matches. -/
def CronSpec.Clear (t u : ℤ) : Prop := ∀ s, t ≤ s → s < u → ¬ spec.Matches s

variable {t : ℤ} {bail : Time} {fuel : ℕ}

lemma CronSpec.Clear.trans {spec : CronSpec} {u v : ℤ} (h : spec.Clear t u)
    (h' : spec.Clear u v) : spec.Clear t v := by
  intro s hts hsv
  rcases lt_or_ge s u with hsu | hus
  · exact h s hts hsu
  · exact h' s hus hsv

variable (spec : CronSpec)

lemma CronSpec.dayMatches_congr {s : ℤ} (h : day s = day t) :
    spec.dayMatches s = spec.dayMatches t := by
  unfold dayMatches getUTCDate getUTCDay
  rw [h]

lemma getUTCMonth_congr {s : ℤ} (h : day s = day t) : getUTCMonth s = getUTCMonth t := by
  unfold getUTCMonth
  rw [h]

lemma CronSpec.clear_month {M : ℤ}
    (h : ∀ N, monthFromDay (day t) ≤ N → N < M → spec.months.includes (N % 12 + 1) = false) :
    spec.Clear t (dayFromMonth M * msPerDay) := by
  intro s hts hsM hmatch
  have hmonth := hmatch.month
  have hno := h _ (monthFromDay_le hts) ((lt_dayFromMonth_iff M s).mp hsM)
  rw [getUTCMonth, hno] at hmonth
  cases hmonth

lemma later_hour_of_month {M : ℤ} (h : monthFromDay (day t) < M) :
    msPerMinute ∣ dayFromMonth M * msPerDay ∧
      t / msPerHour < dayFromMonth M * msPerDay / msPerHour := by
  have hlt := (lt_dayFromMonth_iff M t).mpr h
  unfold msPerMinute msPerHour msPerDay at *
  omega

lemma CronSpec.turn_month (ht : 0 ≤ t)
    (hmonth : spec.months.includes (getUTCMonth t + 1) = false) :
    ∃ u, spec.turn t = .again u ∧ msPerMinute ∣ u ∧ t / msPerHour < u / msPerHour ∧
      spec.Clear t u := by
  have hyear := year_ge ht
  have hM : monthFromDay (day t) = 12 * getUTCFullYear t + getUTCMonth t ∧
      0 ≤ getUTCMonth t ∧ getUTCMonth t < 12 := by
    unfold getUTCFullYear getUTCMonth
    omega
  unfold turn
  rw [if_pos hmonth]
  cases hnext : spec.months.nextAllowed (getUTCMonth t + 2) with
  | some v =>
    obtain ⟨hv, hle, hskip⟩ := FieldValues.nextAllowed_eq_some hnext
    have hv12 := (spec.months.bounds_of_includes hv).2
    refine ⟨_, rfl, ?_⟩
    rw [utc_month hyear]
    obtain ⟨hdvd, hlater⟩ := later_hour_of_month (t := t)
      (M := 12 * getUTCFullYear t + (v - 1)) (by omega)
    refine ⟨hdvd, hlater, spec.clear_month fun N hN hNM => ?_⟩
    -- The months up to the one that is found are this one, and ones that were passed over.
    have hmod : N % 12 = N - 12 * getUTCFullYear t := by omega
    rcases eq_or_lt_of_le hN with hN | hN
    · rw [hmod, ← hN, hM.1, add_sub_cancel_left]
      exact hmonth
    · exact hskip _ (by omega) (by omega)
  | none =>
    have hskip := FieldValues.nextAllowed_eq_none hnext
    obtain ⟨hfirst1, hfirst12⟩ := spec.months.first_bounds
    refine ⟨_, rfl, ?_⟩
    rw [utc_month (by omega)]
    obtain ⟨hdvd, hlater⟩ := later_hour_of_month (t := t)
      (M := 12 * (getUTCFullYear t + 1) + (spec.months.first - 1)) (by omega)
    refine ⟨hdvd, hlater, spec.clear_month fun N hN hNM => ?_⟩
    -- The rest of this year, and the months of the next before the first that is allowed.
    rcases lt_or_ge N (12 * (getUTCFullYear t + 1)) with hyearN | hyearN
    · have hmod : N % 12 = N - 12 * getUTCFullYear t := by omega
      rcases eq_or_lt_of_le hN with hN | hN
      · rw [hmod, ← hN, hM.1, add_sub_cancel_left]
        exact hmonth
      · exact hskip _ (by omega)
    · exact spec.months.includes_of_lt_first (by omega)

lemma CronSpec.next_day (ht : 0 ≤ t) (h : ∀ s, t ≤ s → day s = day t → ¬ spec.Matches s) :
    ∃ u, utc (getUTCFullYear t) (getUTCMonth t) (getUTCDate t + 1) 0 0 = u ∧ msPerMinute ∣ u ∧
      t / msPerHour < u / msPerHour ∧ spec.Clear t u := by
  refine ⟨_, utc_day ht 1 0 0, ?_, ?_, fun s hts hsu => h s hts ?_⟩
  all_goals
    unfold day msPerDay msPerHour msPerMinute at *
    omega

lemma le_of_hour_lt {u : ℤ} (h : t / msPerHour < u / msPerHour) : t ≤ u := by
  unfold msPerHour at h
  omega

/-- The turn within the day goes to an hour that is allowed, and stays on the day. -/
structure CronSpec.AtHour (spec : CronSpec) (t : ℤ) (hour : ℕ) (u : ℤ) : Prop where
  whole : msPerMinute ∣ u
  le : t ≤ u
  day_eq : day u = day t
  hour_eq : getUTCHours u = hour
  clear : spec.Clear t u

section

variable (ht : 0 ≤ t)

include ht

lemma CronSpec.atHour (hwhole : msPerMinute ∣ t) {hour : ℕ}
    (h : spec.hours.nextAllowed (getUTCHours t) = some hour) :
    spec.AtHour t hour (if (hour : ℤ) ≠ getUTCHours t then
      utc (getUTCFullYear t) (getUTCMonth t) (getUTCDate t) hour 0 else t) := by
  obtain ⟨hmem, hle, hskip⟩ := FieldValues.nextAllowed_eq_some h
  have h23 := (spec.hours.bounds_of_includes hmem).2
  have hu : utc (getUTCFullYear t) (getUTCMonth t) (getUTCDate t) hour 0 =
      day t * msPerDay + hour * msPerHour := by
    have := utc_day ht 0 hour 0
    simpa using this
  split_ifs with hne
  · have hlt : getUTCHours t < hour := lt_of_le_of_ne hle fun h => hne h.symm
    refine ⟨?_, ?_, ?_, ?_, fun s hts hsu hmatch => ?_⟩
    case refine_5 =>
      have hhour : getUTCHours t ≤ getUTCHours s ∧ getUTCHours s < hour := by
        unfold getUTCHours day msPerDay msPerHour at *
        omega
      have hno := hskip _ hhour.1 hhour.2
      rw [hmatch.hour] at hno
      cases hno
    all_goals
      unfold getUTCHours day msPerDay msPerHour msPerMinute at *
      omega
  · have heq : (hour : ℤ) = getUTCHours t := by simpa using hne
    exact ⟨hwhole, le_rfl, rfl, heq.symm, fun s hts hst => absurd hts (not_le.mpr hst)⟩

lemma CronSpec.next_hour (h : spec.minutes.nextAllowed (getUTCMinutes t) = none) :
    ∃ u, utc (getUTCFullYear t) (getUTCMonth t) (getUTCDate t) (getUTCHours t + 1) 0 = u ∧
      msPerMinute ∣ u ∧ t / msPerHour < u / msPerHour ∧ spec.Clear t u := by
  have hskip := FieldValues.nextAllowed_eq_none h
  have hu : utc (getUTCFullYear t) (getUTCMonth t) (getUTCDate t) (getUTCHours t + 1) 0 =
      day t * msPerDay + (getUTCHours t + 1) * msPerHour := by
    have := utc_day ht 0 (getUTCHours t + 1) 0
    simpa using this
  refine ⟨_, hu, ?_, ?_, fun s hts hsu hmatch => ?_⟩
  case refine_3 =>
    have hminute : getUTCMinutes t ≤ getUTCMinutes s := by
      unfold getUTCMinutes getUTCHours day msPerDay msPerHour msPerMinute at *
      omega
    have hno := hskip _ hminute
    rw [hmatch.minute] at hno
    cases hno
  · unfold day msPerDay msPerHour msPerMinute
    omega
  · unfold getUTCHours day msPerDay msPerHour
    omega

variable (hwhole : msPerMinute ∣ t)

include hwhole

lemma CronSpec.atMinute {minute : ℕ}
    (h : spec.minutes.nextAllowed (getUTCMinutes t) = some minute) :
    ∃ u, (if (minute : ℤ) ≠ getUTCMinutes t then
        Turn.found (utc (getUTCFullYear t) (getUTCMonth t) (getUTCDate t) (getUTCHours t) minute)
      else Turn.found t) = .found u ∧ msPerMinute ∣ u ∧ t ≤ u ∧ day u = day t ∧
      getUTCHours u = getUTCHours t ∧ getUTCMinutes u = minute ∧ spec.Clear t u := by
  obtain ⟨hmem, hle, hskip⟩ := FieldValues.nextAllowed_eq_some h
  have h59 := (spec.minutes.bounds_of_includes hmem).2
  have hu : utc (getUTCFullYear t) (getUTCMonth t) (getUTCDate t) (getUTCHours t) minute =
      day t * msPerDay + getUTCHours t * msPerHour + minute * msPerMinute := by
    have := utc_day ht 0 (getUTCHours t) minute
    simpa using this
  split_ifs with hne
  · have hlt : getUTCMinutes t < minute := lt_of_le_of_ne hle fun h => hne h.symm
    refine ⟨_, rfl, ?_, ?_, ?_, ?_, ?_, fun s hts hsu hmatch => ?_⟩
    case refine_6 =>
      have hminute : getUTCMinutes t ≤ getUTCMinutes s ∧ getUTCMinutes s < minute := by
        unfold getUTCMinutes getUTCHours day msPerDay msPerHour msPerMinute at *
        omega
      have hno := hskip _ hminute.1 hminute.2
      rw [hmatch.minute] at hno
      cases hno
    all_goals
      unfold getUTCMinutes getUTCHours day msPerDay msPerHour msPerMinute at *
      omega
  · have heq : (minute : ℤ) = getUTCMinutes t := by simpa using hne
    exact ⟨t, rfl, hwhole, le_rfl, rfl, rfl, heq.symm, fun s hts hst => absurd hts (not_le.mpr hst)⟩

/-- One turn of the loop finds the first match from `t` on, or goes on in a later hour, with no
match in between. -/
lemma CronSpec.turn_spec :
    (∃ u, spec.turn t = .found u ∧ spec.Matches u ∧ t ≤ u ∧ spec.Clear t u) ∨
      ∃ u, spec.turn t = .again u ∧ msPerMinute ∣ u ∧ t / msPerHour < u / msPerHour ∧
        spec.Clear t u := by
  by_cases hmonth : spec.months.includes (getUTCMonth t + 1) = false
  · exact .inr (spec.turn_month ht hmonth)
  unfold turn
  rw [if_neg hmonth]
  by_cases hday : spec.dayMatches t = false
  · rw [if_pos hday]
    obtain ⟨u, hu, hrest⟩ := spec.next_day ht fun s _ hs hmatch => by
      have := hmatch.day
      rw [spec.dayMatches_congr hs, hday] at this
      cases this
    exact .inr ⟨u, by rw [hu], hrest⟩
  rw [if_neg hday]
  cases hhour : spec.hours.nextAllowed (getUTCHours t) with
  | none =>
    obtain ⟨u, hu, hrest⟩ := spec.next_day ht fun s hts hs hmatch => by
      have hle : getUTCHours t ≤ getUTCHours s := by
        unfold getUTCHours day msPerDay msPerHour at *
        omega
      have hno := FieldValues.nextAllowed_eq_none hhour _ hle
      rw [hmatch.hour] at hno
      cases hno
    exact .inr ⟨u, congrArg Turn.again hu, hrest⟩
  | some hour =>
    have hat := spec.atHour ht hwhole hhour
    simp only
    generalize (if (hour : ℤ) ≠ getUTCHours t then
      utc (getUTCFullYear t) (getUTCMonth t) (getUTCDate t) hour 0 else t) = t₁ at hat ⊢
    have ht₁ : 0 ≤ t₁ := ht.trans hat.le
    cases hminute : spec.minutes.nextAllowed (getUTCMinutes t₁) with
    | none =>
      obtain ⟨u, hu, hdvd, hlater, hclear⟩ := spec.next_hour ht₁ hminute
      have hle : t / msPerHour ≤ t₁ / msPerHour := Int.ediv_le_ediv (by decide) hat.le
      exact .inr ⟨u, congrArg Turn.again hu, hdvd, hle.trans_lt hlater, hat.clear.trans hclear⟩
    | some minute =>
      obtain ⟨u, hu, hdvd, hle, hdayu, hhouru, hminuteu, hclear⟩ :=
        spec.atMinute ht₁ hat.whole hminute
      refine .inl ⟨u, hu, ⟨hdvd, ?_, ?_, ?_, ?_⟩, hat.le.trans hle, hat.clear.trans hclear⟩
      · rw [getUTCMonth_congr (hdayu.trans hat.day_eq)]
        simpa using hmonth
      · rw [spec.dayMatches_congr (hdayu.trans hat.day_eq)]
        simpa using hday
      · rw [hhouru, hat.hour_eq]
        exact (FieldValues.nextAllowed_eq_some hhour).1
      · rw [hminuteu]
        exact (FieldValues.nextAllowed_eq_some hminute).1

/-! ## The loop -/

/-- The loop comes to its end, with the time that it returns or without one. -/
inductive CronSpec.Loops (bail : Time) : ℤ → Option ℤ → Prop
  | leave {t : ℤ} (h : ¬ ((t : ℚ) ≤ bail ∧ t ≤ maxDate)) : Loops bail t none
  | found {t u : ℤ} (h : (t : ℚ) ≤ bail ∧ t ≤ maxDate) (hturn : spec.turn t = .found u) :
      Loops bail t (some u)
  | again {t u : ℤ} {r : Option ℤ} (h : (t : ℚ) ≤ bail ∧ t ≤ maxDate)
      (hturn : spec.turn t = .again u) (hrest : Loops bail u r) : Loops bail t r

/-- Each turn ends in a later hour, so the loop ends if there are turns for the hours up to
`bail`. -/
lemma CronSpec.search_loops (hfuel : bail < ((t / msPerHour + fuel) * msPerHour : ℤ)) :
    spec.Loops bail t (spec.search bail fuel t) := by
  induction fuel generalizing t with
  | zero =>
    have hhour : (t / msPerHour + (0 : ℕ)) * msPerHour ≤ t := by
      unfold msPerHour
      omega
    have hhour : (((t / msPerHour + (0 : ℕ)) * msPerHour : ℤ) : ℚ) ≤ t := by exact_mod_cast hhour
    exact .leave fun hin => absurd hin.1 (not_le.mpr (hfuel.trans_le hhour))
  | succ fuel ih =>
    unfold search
    split_ifs with hin
    · rcases spec.turn_spec ht hwhole with ⟨u, hu, -⟩ | ⟨u, hu, hdvd, hlater, -⟩
      · rw [hu]
        exact .found hin hu
      · rw [hu]
        have hhours : (t / msPerHour + (fuel + 1 : ℕ)) * msPerHour ≤
            (u / msPerHour + fuel) * msPerHour := by
          unfold msPerHour at *
          omega
        exact .again hin hu (ih (ht.trans (le_of_hour_lt hlater)) hdvd
          (hfuel.trans_le (by exact_mod_cast hhours)))
    · exact .leave hin

/-- The loop returns the first match, or finds out that there is none up to `bail`. -/
lemma CronSpec.Loops.first {r : Option ℤ} (h : spec.Loops bail t r) :
    (∀ u, r = some u → spec.Matches u ∧ t ≤ u ∧ spec.Clear t u) ∧
      (r = none → bail ≤ maxDate → ∀ s : ℤ, t ≤ s → (s : ℚ) ≤ bail → ¬ spec.Matches s) := by
  induction h with
  | @leave t h =>
    refine ⟨fun u hu => absurd hu (by simp), fun _ hbail s hts hs => absurd ?_ h⟩
    have hle : (t : ℚ) ≤ bail := le_trans (by exact_mod_cast hts) hs
    exact ⟨hle, by exact_mod_cast hle.trans hbail⟩
  | found h hturn =>
    rcases spec.turn_spec ht hwhole with ⟨v, hv, hrest⟩ | ⟨v, hv, -⟩
    · rw [hturn, Turn.found.injEq] at hv
      subst hv
      exact ⟨fun u hu => Option.some.inj hu ▸ hrest, fun hnone => absurd hnone (by simp)⟩
    · rw [hturn] at hv
      cases hv
  | again h hturn _ ih =>
    rcases spec.turn_spec ht hwhole with ⟨v, hv, -⟩ | ⟨v, hv, hdvd, hlater, hclear⟩
    · rw [hturn] at hv
      cases hv
    · rw [hturn, Turn.again.injEq] at hv
      subst hv
      have hle := le_of_hour_lt hlater
      obtain ⟨hsome, hnone⟩ := ih (ht.trans hle) hdvd
      refine ⟨fun u hu => ?_, fun hr hbail s hts hs => ?_⟩
      · obtain ⟨hmatch, hvu, hclear'⟩ := hsome u hu
        exact ⟨hmatch, hle.trans hvu, hclear.trans hclear'⟩
      · rcases lt_or_ge s _ with hsv | hvs
        · exact hclear s hts hsv
        · exact hnone hr hbail s hvs hs

end

/-! ## The next occurrence -/

lemma nextMinute_spec (after : Time) :
    msPerMinute ∣ nextMinute after ∧ after < nextMinute after ∧
      (nextMinute after : ℚ) ≤ after + msPerMinute ∧
      ∀ n : ℤ, msPerMinute ∣ n → after < n → nextMinute after ≤ n := by
  have hpos : (0 : ℚ) < (msPerMinute : ℚ) := by norm_num [msPerMinute]
  have hdvd : msPerMinute ∣ nextMinute after :=
    ⟨⌊after / msPerMinute⌋ + 1, by unfold nextMinute; ring⟩
  refine ⟨hdvd, ?_, ?_, ?_⟩
  · have h := Int.lt_floor_add_one (after / msPerMinute)
    rw [div_lt_iff₀ hpos] at h
    unfold nextMinute
    push_cast
    linarith
  · have h := Int.floor_le (after / msPerMinute)
    rw [le_div_iff₀ hpos] at h
    unfold nextMinute
    push_cast
    linarith
  · rintro n ⟨k, rfl⟩ hn
    have hk : ⌊after / msPerMinute⌋ < k := by
      rw [Int.floor_lt, div_lt_iff₀ hpos]
      push_cast at hn
      linarith
    have hle : (⌊after / msPerMinute⌋ + 1) * msPerMinute ≤ k * msPerMinute :=
      mul_le_mul_of_nonneg_right hk (by decide)
    unfold nextMinute
    linarith

variable {after : Time}

lemma nextMinute_nonneg (h : 0 ≤ after) : 0 ≤ nextMinute after := by
  have hlt : (0 : ℚ) < nextMinute after := h.trans_lt (nextMinute_spec after).2.1
  exact_mod_cast hlt.le

/-- There are turns for the hours up to five years ahead. -/
lemma nextOccurrence_loops (spec : CronSpec) (hafter : 0 ≤ after) :
    spec.Loops (after + fiveYearsMs) (nextMinute after)
      (spec.search (after + fiveYearsMs) searchFuel (nextMinute after)) := by
  obtain ⟨hdvd, hstart, -⟩ := nextMinute_spec after
  refine spec.search_loops (nextMinute_nonneg hafter) hdvd ?_
  -- The hour of the start is at most one before that of the given time.
  have hhour : nextMinute after + fiveYearsMs ≤
      (nextMinute after / msPerHour + searchFuel) * msPerHour := by
    unfold fiveYearsMs msPerHour msPerDay searchFuel
    omega
  have hhour : ((nextMinute after + fiveYearsMs : ℤ) : ℚ) ≤
      ((nextMinute after / msPerHour + searchFuel) * msPerHour : ℤ) := by exact_mod_cast hhour
  refine lt_of_lt_of_le ?_ hhour
  push_cast
  linarith

variable {spec : ScheduleSpec}

lemma nextOccurrence_isNext {t : Time} (hafter : 0 ≤ after)
    (h : nextOccurrence spec after = some t) : spec.IsNext after t := by
  cases spec with
  | every spec =>
    cases h
    have hpos := spec.pos
    refine ⟨⟨⌊after / spec.intervalMs⌋ + 1, by push_cast; rfl⟩, ?_, ?_⟩
    · rw [← div_lt_iff₀ hpos]
      exact Int.lt_floor_add_one _
    · rintro u ⟨n, rfl⟩ hn
      have hk : ⌊after / spec.intervalMs⌋ < n := by
        rw [Int.floor_lt, div_lt_iff₀ hpos]
        exact hn
      have hk : ((⌊after / spec.intervalMs⌋ + 1 : ℤ) : ℚ) ≤ n := by exact_mod_cast hk
      push_cast at hk
      exact mul_le_mul_of_nonneg_right hk hpos.le
  | cron spec =>
    simp only [nextOccurrence, Option.map_eq_some_iff] at h
    obtain ⟨u, hu, rfl⟩ := h
    obtain ⟨hdvd, hlt, -, hfirst⟩ := nextMinute_spec after
    obtain ⟨hmatch, hle, hclear⟩ :=
      ((nextOccurrence_loops spec hafter).first _ (nextMinute_nonneg hafter) hdvd).1 u hu
    refine ⟨⟨u, rfl, hmatch⟩, hlt.trans_le (by exact_mod_cast hle), ?_⟩
    rintro _ ⟨n, rfl, hn⟩ hafter
    have hun : u ≤ n := by
      by_contra hnu
      exact hclear n (hfirst n hn.whole hafter) (not_le.mp hnu) hn
    exact_mod_cast hun

lemma den_of_nextOccurrence {t : Time} (hexact : spec.Exact after)
    (h : nextOccurrence spec after = some t) : t.den = 1 := by
  cases spec with
  | every spec =>
    cases h
    rw [← (Rat.den_eq_one_iff _).mp hexact.2.1, ← Int.cast_one, ← Int.cast_add, ← Int.cast_mul]
    exact Rat.den_intCast _
  | cron spec =>
    obtain ⟨u, -, rfl⟩ := Option.map_eq_some_iff.mp h
    exact Rat.den_intCast _

/-- For cron expressions and intervals of whole milliseconds: the next occurrence after a later time
is not earlier, and it is the same until it has come. Both are whole numbers. -/
theorem nextOccurrence_mono {now t t' : Time} (hafter : 0 ≤ after) (hle : after ≤ now)
    (hexact : spec.Exact after) (hexact' : spec.Exact now)
    (h : nextOccurrence spec after = some t) (h' : nextOccurrence spec now = some t') :
    t.den = 1 ∧ t'.den = 1 ∧ t ≤ t' ∧ (now < t → t' = t) := by
  have hn := nextOccurrence_isNext hafter h
  have hn' := nextOccurrence_isNext (hafter.trans hle) h'
  have htt := hn.least t' hn'.occurs (hle.trans_lt hn'.after_lt)
  exact ⟨den_of_nextOccurrence hexact h, den_of_nextOccurrence hexact' h', htt,
    fun hlt => le_antisymm (hn'.least t hn.occurs hlt) htt⟩

theorem next_seven : ∃ t, nextOccurrence (.every ⟨60, by decide⟩) 7 = some t ∧ t = 60 := by
  have h : nextOccurrence (.every ⟨60, by decide⟩) 7 = some 60 := by decide +kernel
  exact ⟨60, h, (nextOccurrence_mono (t := 60) le_rfl (by decide) (by decide +kernel)
    (by decide +kernel) (by decide +kernel) h).2.2.2 (by decide)⟩

/-- If `nextOccurrence` throws, there is no occurrence within five years. Times that a `Date` cannot
have are left out. -/
lemma not_occurs_of_nextOccurrence_none (hafter : 0 ≤ after)
    (hmax : after + fiveYearsMs ≤ maxDate) (h : nextOccurrence spec after = none) :
    ∀ t, after < t → t ≤ after + fiveYearsMs → ¬ spec.Occurs t := by
  cases spec with
  | every spec => cases h
  | cron spec =>
    rintro _ hlt hle ⟨n, rfl, hn⟩
    simp only [nextOccurrence, Option.map_eq_none_iff] at h
    obtain ⟨hdvd, -, -, hfirst⟩ := nextMinute_spec after
    exact ((nextOccurrence_loops spec hafter).first _ (nextMinute_nonneg hafter) hdvd).2 h hmax n
      (hfirst n hn.whole hlt) hle hn

end Fino.Jobs
