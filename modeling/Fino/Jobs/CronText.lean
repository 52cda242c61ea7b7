import Mathlib.Data.List.Dedup
import Mathlib.Data.List.TakeWhile
import Fino.Jobs.Cron
import Fino.Lib.Outcome

/-!
# The text of a schedule

`parseCron` of `js/internal/jobs/cron.ts`: five fields of numbers, ranges, steps and lists, an
alias, or `every:` with a duration. A text is a list of characters, and a numeral is read exactly,
where the source reads a double; what is past a field's range is treated alike. The parts of an
accepted field are within its range (`Part`), and its values are those of its parts
(`mem_parseField`).
-/

namespace Fino.Jobs

open Lib.Calendar Lib.Outcome List FieldValues

/-- The characters that `trim` and the pattern `\s` take for white space. -/
def isSpace (c : Char) : Bool :=
  c.toNat ∈ [0x9, 0xa, 0xb, 0xc, 0xd, 0x20, 0xa0, 0x1680, 0x2028, 0x2029, 0x202f, 0x205f, 0x3000,
    0xfeff] || (0x2000 ≤ c.toNat && c.toNat ≤ 0x200a)

variable (text : List Char)

def trim : List Char :=
  ((text.dropWhile isSpace).reverse.dropWhile isSpace).reverse

/-- The text up to the first separator, and the texts between the separators behind it. -/
def split (sep : Char → Bool) : List Char → List Char × List (List Char)
  | [] => ([], [])
  | c :: cs =>
    let (part, parts) := split sep cs
    if sep c then ([], part :: parts) else (c :: part, parts)

/-- The text before the first `c`, and the text after it. -/
def cut (c : Char) (text : List Char) : List Char × List Char :=
  (text.takeWhile (· ≠ c), (text.dropWhile (· ≠ c)).tail)

/-- The pattern `^\d+$`. -/
def isNumeral : Bool := !text.isEmpty && text.all Char.isDigit

/-- `Number`, of a numeral. -/
def number : ℕ := text.foldl (fun n c => 10 * n + (c.toNat - '0'.toNat)) 0

def quoted : String := "\"" ++ String.ofList text ++ "\""

/-! ## Fields -/

structure FieldRange where
  name : String
  min : ℕ
  max : ℕ
  min_le_max : min ≤ max

/-- The entries of `FIELDS`. -/
def minuteField : FieldRange := ⟨"minute", 0, 59, by decide⟩

@[inherit_doc minuteField]
def hourField : FieldRange := ⟨"hour", 0, 23, by decide⟩

@[inherit_doc minuteField]
def dayOfMonthField : FieldRange := ⟨"day-of-month", 1, 31, by decide⟩

@[inherit_doc minuteField]
def monthField : FieldRange := ⟨"month", 1, 12, by decide⟩

@[inherit_doc minuteField]
def dayOfWeekField : FieldRange := ⟨"day-of-week", 0, 7, by decide⟩

/-- The first and the last value of a part of a field. -/
structure Bounds (range : FieldRange) where
  lo : ℕ
  hi : ℕ
  lo_le_hi : lo ≤ hi
  min_le : range.min ≤ lo
  le_max : hi ≤ range.max

/-- A part of a field between commas. -/
structure Part (range : FieldRange) extends Bounds range where
  step : ℕ
  step_pos : 0 < step
  restricted : Bool

def Part.values {range : FieldRange} (p : Part range) : List ℕ :=
  List.range' p.lo ((p.hi - p.lo) / p.step + 1) p.step

variable (range : FieldRange)

def parseStep (part : List Char) : Except String {n : ℕ // 0 < n} :=
  if '/' ∈ part then
    let stepText := (cut '/' part).2
    if h : isNumeral stepText = true ∧ number stepText ≠ 0 then
      .ok ⟨number stepText, Nat.pos_of_ne_zero h.2⟩
    else .error ("cron " ++ range.name ++ " step " ++ quoted ('/' :: stepText) ++
      " must be a positive integer")
  else .ok ⟨1, Nat.one_pos⟩

def parseNumbers (body : List Char) : Except String {b : ℕ × ℕ // b.1 ≤ b.2} :=
  if '-' ∈ body then
    let (loText, hiText) := cut '-' body
    if isNumeral loText && isNumeral hiText then
      if h : number loText ≤ number hiText then .ok ⟨(number loText, number hiText), h⟩
      else .error ("cron " ++ range.name ++ " range " ++ quoted body ++ " is inverted")
    else .error ("cron " ++ range.name ++ " range " ++ quoted body ++
      " must be numeric (names and L/W/# are not supported)")
  else if isNumeral body then .ok ⟨(number body, number body), le_rfl⟩
  else .error ("cron " ++ range.name ++ " value " ++ quoted body ++
    " must be numeric (names and L/W/# are not supported)")

def parseBounds (body : List Char) : Except String (Bounds range) :=
  if body = ['*'] then .ok ⟨range.min, range.max, range.min_le_max, le_rfl, le_rfl⟩
  else
    match parseNumbers range body with
    | .error message => .error message
    | .ok ⟨(lo, hi), hle⟩ =>
      if h : range.min ≤ lo ∧ hi ≤ range.max then .ok ⟨lo, hi, hle, h.1, h.2⟩
      else .error ("cron " ++ range.name ++ " value " ++ quoted body ++ " is out of range " ++
        toString range.min ++ "-" ++ toString range.max)

/-- One turn of the loop of `parseField`. A star restricts a field only if it has a step. -/
def parsePart (part : List Char) : Except String (Part range) :=
  if part = [] then .error ("cron " ++ range.name ++ " field has an empty list entry")
  else do
    let step ← parseStep range part
    let body := (cut '/' part).1
    let bounds ← parseBounds range body
    return ⟨bounds, step.1, step.2, decide (body ≠ ['*'] ∨ '/' ∈ part)⟩

def parseParts (range : FieldRange) : List (List Char) → Except String (List (Part range))
  | [] => .ok []
  | part :: parts => do
    let p ← parsePart range part
    let ps ← parseParts range parts
    return p :: ps

/-- The set of some numbers, sorted: `[...new Set(values)].sort((a, b) => a - b)`. -/
def FieldValues.ofList {min max : ℕ} (values : List ℕ) (hne : values ≠ [])
    (hbounds : ∀ v ∈ values, min ≤ v ∧ v ≤ max) : FieldValues min max where
  values := values.dedup.insertionSort (· ≤ ·)
  sorted := by
    have hnodup : (values.dedup.insertionSort (· ≤ ·)).Nodup :=
      (perm_insertionSort _ _).nodup_iff.mpr values.nodup_dedup
    have hle := pairwise_insertionSort (· ≤ ·) values.dedup
    exact (hle.and hnodup).imp fun h => lt_of_le_of_ne h.1 h.2
  ne_nil h := by
    have hlength := congrArg List.length h
    rw [length_insertionSort, length_nil, length_eq_zero_iff] at hlength
    obtain ⟨v, hv⟩ := exists_mem_of_ne_nil values hne
    rw [← mem_dedup, hlength] at hv
    cases hv
  bounded v hv := by
    rw [(perm_insertionSort _ _).mem_iff, mem_dedup] at hv
    exact hbounds v hv

lemma FieldValues.mem_ofList {min max : ℕ} {values : List ℕ} {hne : values ≠ []}
    {hbounds : ∀ v ∈ values, min ≤ v ∧ v ≤ max} {v : ℕ} :
    v ∈ (ofList values hne hbounds).values ↔ v ∈ values := by
  show v ∈ values.dedup.insertionSort (· ≤ ·) ↔ _
  rw [(perm_insertionSort _ _).mem_iff, mem_dedup]

variable {range : FieldRange} {ps : List (Part range)}

lemma Part.mem_values {p : Part range} {v : ℕ} :
    v ∈ p.values ↔ p.lo ≤ v ∧ v ≤ p.hi ∧ p.step ∣ v - p.lo := by
  have hpos := p.step_pos
  have hle := p.lo_le_hi
  rw [values, mem_range']
  constructor
  · rintro ⟨i, hi, rfl⟩
    have hstep : p.step * i ≤ p.hi - p.lo := by
      rw [Nat.mul_comm]
      exact (Nat.le_div_iff_mul_le hpos).mp (Nat.lt_succ_iff.mp hi)
    exact ⟨by omega, by omega, by simp⟩
  · rintro ⟨hlo, hhi, i, hi⟩
    refine ⟨i, Nat.lt_succ_iff.mpr ((Nat.le_div_iff_mul_le hpos).mpr ?_), by omega⟩
    rw [Nat.mul_comm, ← hi]
    omega

lemma Part.values_ne_nil (p : Part range) : p.values ≠ [] := by
  have hmem : p.lo ∈ p.values := mem_values.mpr ⟨le_rfl, p.lo_le_hi, by simp⟩
  exact ne_nil_of_mem hmem

lemma Part.values_bounds : ∀ v ∈ ps.flatMap Part.values, range.min ≤ v ∧ v ≤ range.max := by
  intro v hv
  obtain ⟨p, -, hv⟩ := mem_flatMap.mp hv
  obtain ⟨hlo, hhi, -⟩ := mem_values.mp hv
  exact ⟨p.min_le.trans hlo, hhi.trans p.le_max⟩

/-- `parseField`: the values, and whether the field is restricted. -/
def parseField (range : FieldRange) :
    Except String (FieldValues range.min range.max × Bool) := do
  let parts := split (· = ',') text
  let p ← parsePart range parts.1
  let ps ← parseParts range parts.2
  have hne : (p :: ps).flatMap Part.values ≠ [] := by simp [p.values_ne_nil]
  return (.ofList ((p :: ps).flatMap Part.values) hne Part.values_bounds,
    (p :: ps).any Part.restricted)

def aliases : List (String × String) :=
  [("@hourly", "0 * * * *"), ("@daily", "0 0 * * *"), ("@weekly", "0 0 * * 0"),
    ("@monthly", "0 0 1 * *"), ("@yearly", "0 0 1 1 *"), ("@annually", "0 0 1 1 *")]

def durationScale : List (String × ℚ) :=
  [("ms", 1), ("s", 1000), ("m", 60000), ("h", 3600000), ("d", 86400000)]

/-- `DURATION_RE`, with the number of milliseconds that a duration comes to. -/
def parseDuration : Option ℚ :=
  let whole := text.takeWhile Char.isDigit
  if whole = [] then none
  else
    match text.dropWhile Char.isDigit with
    | '.' :: text =>
      let frac := text.takeWhile Char.isDigit
      if frac = [] then none
      else (durationScale.lookup (String.ofList (text.dropWhile Char.isDigit))).map fun scale =>
        (number whole + number frac / 10 ^ frac.length) * scale
    | unit => (durationScale.lookup (String.ofList unit)).map fun scale => number whole * scale

/-- The part of `parseCron` for a text after `every:`. -/
def parseEvery (duration : List Char) : Except String ScheduleSpec :=
  match parseDuration duration with
  | none => .error ("every: duration " ++ quoted duration ++ " must match <n><ms|s|m|h|d>")
  | some intervalMs =>
    if h : 0 < intervalMs then .ok (.every ⟨intervalMs, h⟩)
    else .error ("every: interval must be positive, got " ++ quoted duration)

def sundayAsZero (f : FieldValues dayOfWeekField.min dayOfWeekField.max) : FieldValues 0 6 :=
  .ofList (f.values.map fun v => if v = 7 then 0 else v) (by simp [f.ne_nil]) (by
    intro v hv
    obtain ⟨w, hw, rfl⟩ := mem_map.mp hv
    have hle : w ≤ 7 := (f.bounded w hw).2
    split_ifs <;> omega)

/-- The part of `parseCron` for five fields. -/
def parseFields (minute hour dom month dow : List Char) : Except String ScheduleSpec := do
  let minutes ← parseField minute minuteField
  let hours ← parseField hour hourField
  let daysOfMonth ← parseField dom dayOfMonthField
  let months ← parseField month monthField
  let daysOfWeek ← parseField dow dayOfWeekField
  return .cron
    { minutes := minutes.1
      hours := hours.1
      daysOfMonth := daysOfMonth.1
      months := months.1
      daysOfWeek := sundayAsZero daysOfWeek.1
      domRestricted := daysOfMonth.2
      dowRestricted := daysOfWeek.2 }

def parseCron (spec : String) : Except String ScheduleSpec :=
  let text := trim spec.toList
  if text = [] then .error "cron expression is empty"
  else if "every:".toList.isPrefixOf text then parseEvery (trim (text.drop 6))
  else
    let expanded :=
      if text.head? = some '@' then (aliases.lookup (String.ofList text)).map String.toList
      else some text
    match expanded with
    | none => .error ("unknown cron alias " ++ quoted text ++ " (supported: " ++
        ", ".intercalate (aliases.map (·.1)) ++ ")")
    | some expanded =>
      -- A trimmed text has no empty field at its ends.
      let parts := split isSpace expanded
      match (parts.1 :: parts.2).filter (· ≠ []) with
      | [minute, hour, dom, month, dow] => parseFields minute hour dom month dow
      | fields => .error ("cron expression must have 5 fields (minute hour dom month dow), got " ++
          toString fields.length)

/-- The fields of an accepted text, after its alias is replaced. -/
def cronFields (spec : String) : List (List Char) :=
  let text := trim spec.toList
  let expanded :=
    if text.head? = some '@' then ((aliases.lookup (String.ofList text)).map String.toList).getD []
    else text
  ((split isSpace expanded).1 :: (split isSpace expanded).2).filter (· ≠ [])

def commaParts : List (List Char) :=
  (split (· = ',') text).1 :: (split (· = ',') text).2

/-- The first and the last number of a part without its step. -/
def rangeOf (range : FieldRange) (body : List Char) : ℕ × ℕ :=
  if body = ['*'] then (range.min, range.max)
  else if '-' ∈ body then (number (cut '-' body).1, number (cut '-' body).2)
  else (number body, number body)

def stepOf (part : List Char) : ℕ := if '/' ∈ part then number (cut '/' part).2 else 1

/-- The number is in the set that the field stands for. -/
def Allows (range : FieldRange) (text : List Char) (k : ℤ) : Prop :=
  ∃ part ∈ commaParts text, ∃ v : ℕ, v = k ∧ (rangeOf range (cut '/' part).1).1 ≤ v ∧
    v ≤ (rangeOf range (cut '/' part).1).2 ∧ stepOf part ∣ v - (rangeOf range (cut '/' part).1).1

/-- Some part of the field is not a star. -/
def Restricted : Prop := ∃ part ∈ commaParts text, part ≠ ['*']

lemma exists_parseParts {texts : List (List Char)} {P : Part range → Prop}
    {Q : List Char → Prop} (hPQ : ∀ text p, parsePart range text = .ok p → (P p ↔ Q text))
    (h : parseParts range texts = .ok ps) : (∃ p ∈ ps, P p) ↔ ∃ text ∈ texts, Q text := by
  induction texts generalizing ps with
  | nil =>
    cases h
    simp
  | cons text texts ih =>
    obtain ⟨p, hp, h⟩ := bind_eq_ok.mp h
    obtain ⟨ps, hps, h⟩ := bind_eq_ok.mp h
    obtain rfl := pure_eq_ok.mp h
    rw [exists_mem_cons_iff, exists_mem_cons_iff, ih hps, hPQ text p hp]

lemma parseBounds_eq_ok {body : List Char} {b : Bounds range}
    (h : parseBounds range body = .ok b) : (b.lo, b.hi) = rangeOf range body := by
  unfold parseBounds at h
  unfold rangeOf
  split_ifs at h ⊢ with hstar hdash
  · cases h
    rfl
  all_goals
    rw [parseNumbers] at h
    simp only [hdash, if_true, if_false] at h
    split_ifs at h
    simp only at h
    split_ifs at h
    cases h
    rfl

lemma parsePart_eq_ok {part : List Char} {p : Part range} (h : parsePart range part = .ok p) :
    (p.lo, p.hi) = rangeOf range (cut '/' part).1 ∧ p.step = stepOf part ∧
      (p.restricted ↔ part ≠ ['*']) := by
  obtain ⟨-, h⟩ := ite_error_eq_ok.mp h
  obtain ⟨step, hstep, h⟩ := bind_eq_ok.mp h
  obtain ⟨bounds, hbounds, h⟩ := bind_eq_ok.mp h
  obtain rfl := pure_eq_ok.mp h
  refine ⟨parseBounds_eq_ok hbounds, ?_, ?_⟩
  · unfold parseStep at hstep
    unfold stepOf
    split_ifs at hstep ⊢
    · simp only at hstep
      split_ifs at hstep
      cases hstep
      rfl
    · cases hstep
      rfl
  · rw [decide_eq_true_eq]
    constructor
    · rintro h rfl
      revert h
      decide
    · intro hne
      by_contra hno
      obtain ⟨hbody, hslash⟩ := not_or.mp hno
      refine hne (not_not.mp hbody ▸ ?_)
      rw [cut, List.takeWhile_eq_self_iff.mpr]
      intro c hc
      exact decide_eq_true fun hcs => hslash (hcs ▸ hc)

/-- The values of a field are those of the parts between its commas, and the field is restricted if
one of them is. -/
lemma parseField_eq_ok {text : List Char} {f : FieldValues range.min range.max}
    {restricted : Bool} (h : parseField text range = .ok (f, restricted)) :
    (∀ k, f.includes k ↔ Allows range text k) ∧ (restricted ↔ Restricted text) := by
  obtain ⟨p, hp, h⟩ := bind_eq_ok.mp h
  obtain ⟨ps, hps, h⟩ := bind_eq_ok.mp h
  obtain ⟨rfl, rfl⟩ := Prod.mk.inj (pure_eq_ok.mp h)
  have hall : parseParts range (commaParts text) = .ok (p :: ps) :=
    bind_eq_ok.mpr ⟨p, hp, bind_eq_ok.mpr ⟨ps, hps, rfl⟩⟩
  constructor
  · intro k
    rw [Allows, ← exists_parseParts (P := fun p => ∃ v : ℕ, v = k ∧ v ∈ p.values) _ hall]
    · rw [includes, any_eq_true]
      simp only [mem_ofList, mem_flatMap, decide_eq_true_eq]
      grind
    · intro part q hq
      obtain ⟨hbounds, hstep, -⟩ := parsePart_eq_ok hq
      simp only [Part.mem_values, ← hbounds, hstep]
  · rw [any_eq_true]
    exact exists_parseParts (fun part q hq => (parsePart_eq_ok hq).2.2) hall

/-! ## The first match of a text -/

/-- The day of the time satisfies the day fields. If both are restricted, one of them is enough; a
seven stands for Sunday. -/
def DayFires (dom dow : List Char) (t : ℤ) : Prop :=
  let domOk := Allows dayOfMonthField dom (getUTCDate t)
  let dowOk := ∃ k, Allows dayOfWeekField dow k ∧ getUTCDay t = if k = 7 then 0 else k
  (Restricted dom → Restricted dow → domOk ∨ dowOk) ∧
    (Restricted dom → ¬ Restricted dow → domOk) ∧ (¬ Restricted dom → Restricted dow → dowOk)

/-- The time is a whole minute that the five fields allow. -/
structure Fires (minute hour dom month dow : List Char) (t : ℤ) : Prop where
  whole : msPerMinute ∣ t
  minute : Allows minuteField minute (getUTCMinutes t)
  hour : Allows hourField hour (getUTCHours t)
  month : Allows monthField month (getUTCMonth t + 1)
  day : DayFires dom dow t

variable {minute hour dom month dow : List Char} {spec : CronSpec}

lemma sundayAsZero_includes {f : FieldValues dayOfWeekField.min dayOfWeekField.max} {k : ℤ} :
    (sundayAsZero f).includes k ↔ ∃ l, f.includes l ∧ k = if l = 7 then 0 else l := by
  simp only [includes, any_eq_true, decide_eq_true_eq, sundayAsZero, mem_ofList, mem_map]
  constructor
  · rintro ⟨_, ⟨v, hv, rfl⟩, rfl⟩
    refine ⟨v, ⟨v, hv, rfl⟩, ?_⟩
    split_ifs <;> omega
  · rintro ⟨_, ⟨v, hv, rfl⟩, rfl⟩
    refine ⟨_, ⟨v, hv, rfl⟩, ?_⟩
    split_ifs <;> omega

lemma parseFields_eq_ok (h : parseFields minute hour dom month dow = .ok (.cron spec)) (t : ℤ) :
    spec.Matches t ↔ Fires minute hour dom month dow t := by
  obtain ⟨minutes, hminutes, h⟩ := bind_eq_ok.mp h
  obtain ⟨hours, hhours, h⟩ := bind_eq_ok.mp h
  obtain ⟨daysOfMonth, hdom, h⟩ := bind_eq_ok.mp h
  obtain ⟨months, hmonths, h⟩ := bind_eq_ok.mp h
  obtain ⟨daysOfWeek, hdow, h⟩ := bind_eq_ok.mp h
  obtain rfl := ScheduleSpec.cron.inj (pure_eq_ok.mp h)
  obtain ⟨hdom, hdomr⟩ := parseField_eq_ok hdom
  obtain ⟨hdow, hdowr⟩ := parseField_eq_ok hdow
  have hday : CronSpec.dayMatches ⟨minutes.1, hours.1, daysOfMonth.1, months.1,
      sundayAsZero daysOfWeek.1, daysOfMonth.2, daysOfWeek.2⟩ t ↔ DayFires dom dow t := by
    unfold CronSpec.dayMatches DayFires
    rw [← hdomr, ← hdowr]
    simp only [← hdom, ← hdow, ← sundayAsZero_includes]
    cases daysOfMonth.2 <;> cases daysOfWeek.2 <;> simp <;> rfl
  exact ⟨fun h => ⟨h.whole, ((parseField_eq_ok hminutes).1 _).mp h.minute,
      ((parseField_eq_ok hhours).1 _).mp h.hour, ((parseField_eq_ok hmonths).1 _).mp h.month,
      hday.mp h.day⟩,
    fun h => ⟨h.whole, ((parseField_eq_ok hmonths).1 _).mpr h.month, hday.mpr h.day,
      ((parseField_eq_ok hhours).1 _).mpr h.hour, ((parseField_eq_ok hminutes).1 _).mpr h.minute⟩⟩

lemma parseCron_eq_ok {text : String} (h : parseCron text = .ok (.cron spec)) :
    ∃ minute hour dom month dow, cronFields text = [minute, hour, dom, month, dow] ∧
      parseFields minute hour dom month dow = .ok (.cron spec) := by
  obtain ⟨-, h⟩ := ite_error_eq_ok.mp h
  by_cases hevery : "every:".toList.isPrefixOf (trim text.toList)
  · rw [if_pos hevery, parseEvery] at h
    split at h
    · cases h
    · split_ifs at h
      cases h
  · rw [if_neg hevery] at h
    simp only at h
    split at h
    · cases h
    · next expanded hexpanded =>
      split at h
      · next minute hour dom month dow hfields =>
        refine ⟨minute, hour, dom, month, dow, ?_, h⟩
        rw [← hfields, cronFields]
        split_ifs at hexpanded with hat
        · rw [if_pos hat, hexpanded]
          rfl
        · rw [if_neg hat, Option.some.inj hexpanded]
      · cases h

/-- The first match of an accepted text: `nextOccurrence` returns it, or throws if there is none
within five years, and its loop ends. -/
theorem nextOccurrence_least {text : String} (hparse : parseCron text = .ok (.cron spec))
    {afterMs : ℤ} (hafter : 0 ≤ afterMs) (hmax : afterMs + fiveYearsMs ≤ maxDate) :
    ∃ minute hour dom month dow, cronFields text = [minute, hour, dom, month, dow] ∧
      (∀ t, nextOccurrence (.cron spec) afterMs = some t → ∃ n : ℤ, t = n ∧ afterMs < n ∧
        Fires minute hour dom month dow n ∧
        ∀ m, afterMs < m → m < n → ¬ Fires minute hour dom month dow m) ∧
      (nextOccurrence (.cron spec) afterMs = none → ∀ m, afterMs < m →
        m ≤ afterMs + fiveYearsMs → ¬ Fires minute hour dom month dow m) ∧
      spec.Loops (afterMs + fiveYearsMs) (nextMinute afterMs)
        (spec.search (afterMs + fiveYearsMs) searchFuel (nextMinute afterMs)) := by
  obtain ⟨minute, hour, dom, month, dow, hfields, hspec⟩ := parseCron_eq_ok hparse
  have hmatches := parseFields_eq_ok hspec
  have hafterq : (0 : ℚ) ≤ afterMs := by exact_mod_cast hafter
  refine ⟨minute, hour, dom, month, dow, hfields, fun t ht => ?_, fun hnone m hlt hle hfires => ?_,
    nextOccurrence_loops spec hafterq⟩
  · obtain ⟨⟨n, rfl, hn⟩, hlt, hleast⟩ := nextOccurrence_isNext hafterq ht
    refine ⟨n, rfl, by exact_mod_cast hlt, (hmatches n).mp hn, fun m hm hmn hfires => ?_⟩
    have hle := hleast m ⟨m, rfl, (hmatches m).mpr hfires⟩ (by exact_mod_cast hm)
    exact absurd hmn (not_lt.mpr (by exact_mod_cast hle))
  · refine not_occurs_of_nextOccurrence_none hafterq (by exact_mod_cast hmax) hnone m
      (by exact_mod_cast hlt) (by exact_mod_cast hle) ⟨m, rfl, (hmatches m).mpr hfires⟩

/-- Midnight of the first of January, and of the Sundays in January. -/
def exampleSpec : CronSpec where
  minutes := ⟨[0], by decide, by decide, by decide⟩
  hours := ⟨[0], by decide, by decide, by decide⟩
  daysOfMonth := ⟨[1], by decide, by decide, by decide⟩
  months := ⟨[1], by decide, by decide, by decide⟩
  daysOfWeek := ⟨[0], by decide, by decide, by decide⟩
  domRestricted := true
  dowRestricted := true

/-- The first match after the beginning of the epoch is on its first Sunday. -/
theorem first_sunday_least :
    ∃ minute hour dom month dow, cronFields "0 0 1 1 7" = [minute, hour, dom, month, dow] ∧
      Fires minute hour dom month dow 259200000 ∧
      ∀ m, 0 < m → m < 259200000 → ¬ Fires minute hour dom month dow m := by
  have hparse : parseCron "0 0 1 1 7" = .ok (.cron exampleSpec) := by decide +kernel
  have hnext : nextOccurrence (.cron exampleSpec) (0 : ℤ) = some (259200000 : ℤ) := by
    decide +kernel
  obtain ⟨minute, hour, dom, month, dow, hfields, hsome, -⟩ :=
    nextOccurrence_least hparse (le_refl 0) (by decide)
  obtain ⟨n, hn, -, hfires, hleast⟩ := hsome _ hnext
  obtain rfl := Int.cast_injective hn
  exact ⟨minute, hour, dom, month, dow, hfields, hfires, hleast⟩

end Fino.Jobs
