import Mathlib.Data.List.Basic

/-!
# Lines of a text that comes in chunks

`splitLines` of `js/internal/stream/text.ts`. A text is the list of its UTF-16 code units. The lines
that are yielded before an error are kept beside it.
-/

namespace Fino.SplitLines

open List

abbrev Text := List UInt16

inductive Terminators
  | lf
  | universal
deriving DecidableEq

structure SplitLinesOptions where
  terminators : Terminators
  /-- `finalLine` is `emit`, and not `discard`. -/
  emit : Bool
  /-- `Infinity` is `none`. -/
  maxLineLength : Option ℕ

/-- The parts of the unfinished line, joined, and whether a line feed is skipped. -/
structure State where
  line : Text
  skipLF : Bool

/-- The lines that are yielded, and the state after them or the error. -/
abbrev Result := List Text × Except String State

variable (o : SplitLinesOptions)

def tooLong (length allowance : ℕ) : Option String :=
  o.maxLineLength.bind fun maxLength =>
    if maxLength + allowance < length then some s!"Line exceeds maxLineLength ({maxLength})"
    else none

/-- The error of `append`. -/
def appendError (line part : Text) : Option String :=
  if part = [] then none
  else
    tooLong o (line.length + part.length)
      (if o.terminators = .lf ∧ part.getLast? = some 13 then 1 else 0)

def takeLine (stripCR : Bool) (line : Text) : Text :=
  if stripCR ∧ line.getLast? = some 13 then line.dropLast else line

/-- The loop over a chunk; `part` is what it has passed since `start`. -/
def scan (part : Text) (s : State) : Text → Result
  | [] =>
    match appendError o s.line part with
    | some e => ([], .error e)
    | none => ([], .ok { s with line := s.line ++ part })
  | char :: rest =>
    if s.skipLF ∧ char = 10 then scan [] { s with skipLF := false } rest
    else if char ≠ 10 ∧ ¬ (o.terminators = .universal ∧ char = 13) then
      scan (part ++ [char]) { s with skipLF := false } rest
    else
      match appendError o s.line part with
      | some e => ([], .error e)
      | none =>
        let later := scan [] ⟨[], o.terminators = .universal ∧ char = 13⟩ rest
        (takeLine (o.terminators = .lf) (s.line ++ part) :: later.1, later.2)

/-- Goes on in the state that was reached, unless there was an error. -/
def Result.andThen (r : Result) (f : State → Result) : Result :=
  match r.2 with
  | .error _ => r
  | .ok s => (r.1 ++ (f s).1, (f s).2)

/-- The loop over the source. -/
def readAll (s : State) : List Text → Result
  | [] => ([], .ok s)
  | chunk :: chunks => (scan o [] s chunk).andThen fun s => readAll s chunks

/-- The lines that are yielded, and the error if there is one. -/
def splitLines (chunks : List Text) : List Text × Option String :=
  match readAll o ⟨[], false⟩ chunks with
  | (lines, .error e) => (lines, some e)
  | (lines, .ok s) =>
    match tooLong o s.line.length 0 with
    | some e => (lines, some e)
    | none => (if s.line ≠ [] ∧ o.emit then lines ++ [takeLine false s.line] else lines, none)

variable {o} {line part more rest : Text} {s : State} {e : String}

lemma appendError_append (h : appendError o line part = none) :
    appendError o line (part ++ more) = appendError o (line ++ part) more := by
  by_cases hmore : more = []
  · rw [hmore, append_nil, h, appendError, if_pos rfl]
  · simp [appendError, hmore, getLast?_append, Nat.add_assoc]

/-- A line that is too long stays so, whatever is allowed for its last character. -/
lemma tooLong_of_lt {n m allowance allowance' : ℕ} (h : tooLong o n allowance = some e)
    (hlt : n < m) (hallowance : allowance' ≤ 1) : tooLong o m allowance' = some e := by
  obtain ⟨maxLength, hmax, h⟩ := Option.bind_eq_some_iff.mp h
  obtain ⟨hlong, h⟩ := Option.ite_none_right_eq_some.mp h
  rw [tooLong, hmax, Option.bind_some, if_pos (by omega)]
  exact h

lemma appendError_of_error (h : appendError o line part = some e) :
    appendError o line (part ++ more) = some e := by
  obtain ⟨hpart, h⟩ := Option.ite_none_left_eq_some.mp h
  by_cases hmore : more = []
  · rw [hmore, append_nil, appendError, if_neg hpart, h]
  · have hlength := length_pos_iff.mpr hmore
    rw [appendError, if_neg (by simp [hpart]), length_append]
    exact tooLong_of_lt h (by omega) (by split_ifs <;> omega)

lemma scan_of_error (h : appendError o s.line part = some e) (hskip : s.skipLF = false) :
    scan o part s rest = ([], .error e) := by
  induction rest generalizing part s with
  | nil => rw [scan, h]
  | cons char rest ih =>
    rw [scan, if_neg (by simp [hskip])]
    split_ifs
    · exact ih (appendError_of_error h) rfl
    · rw [h]

/-- What a chunk leaves over is taken up with the next one. -/
lemma scan_eq_scan (more : Text) (h : appendError o s.line part = none)
    (hskip : s.skipLF = false) :
    scan o (part ++ more) s rest = scan o more { s with line := s.line ++ part } rest := by
  induction rest generalizing more s with
  | nil => simp only [scan, appendError_append h, append_assoc]
  | cons char rest ih =>
    have hkeep : ¬ (s.skipLF ∧ char = 10) := by simp [hskip]
    rw [scan, scan, if_neg hkeep, if_neg hkeep]
    split_ifs
    · rw [append_assoc]
      exact ih _ h rfl
    · simp only [appendError_append h, append_assoc]

lemma scan_append (text : Text) (hskip : s.skipLF → part = []) :
    scan o part s (text ++ rest) = (scan o part s text).andThen fun s => scan o [] s rest := by
  induction text generalizing part s with
  | nil =>
    rw [nil_append, scan]
    by_cases hpart : part = []
    · simp [hpart, appendError, Result.andThen]
    · have hkeep : s.skipLF = false := by simpa [hpart] using hskip
      cases happend : appendError o s.line part with
      | some e => exact scan_of_error happend hkeep
      | none => simpa [Result.andThen] using scan_eq_scan [] happend hkeep
  | cons char text ih =>
    rw [cons_append, scan, scan]
    split_ifs
    · exact ih fun _ => rfl
    · exact ih (by simp)
    · cases appendError o s.line part with
      | some e => rfl
      | none =>
        dsimp only
        rw [ih fun _ => rfl]
        generalize scan o [] _ text = later
        obtain ⟨lines, e | s⟩ := later <;> rfl

lemma readAll_eq_scan (chunks : List Text) : readAll o s chunks = scan o [] s chunks.flatten := by
  induction chunks generalizing s with
  | nil => simp [readAll, scan, appendError]
  | cons chunk chunks ih =>
    simp only [readAll, flatten_cons, scan_append chunk fun _ => rfl, ih]

/-- The lines and the error are those of the text, however it is cut into chunks. -/
theorem splitLines_eq_of_flatten {chunks chunks' : List Text}
    (h : chunks.flatten = chunks'.flatten) : splitLines o chunks = splitLines o chunks' := by
  rw [splitLines, splitLines, readAll_eq_scan, readAll_eq_scan, h]

/-- `a`, `CR`, `LF` and `b`, cut between `CR` and `LF` or not at all. -/
theorem cut_terminator_same_lines :
    let o : SplitLinesOptions := ⟨.universal, true, some 1⟩
    splitLines o [[97, 13], [10, 98]] = ([[97], [98]], none) ∧
      splitLines o [[97, 13], [10, 98]] = splitLines o [[97, 13, 10, 98]] :=
  ⟨by decide, splitLines_eq_of_flatten rfl⟩

end Fino.SplitLines
