import Mathlib.Data.Nat.Digits.Defs
import Mathlib.Data.List.Basic

/-!
# Texts and integers in JSON

How `JSON.stringify` writes a text, and how `String` writes an integer.
-/

namespace Fino.Lib.JsonText

/-! ## Integers -/

/-- `String(z)`, for an integer. -/
def decimal (z : ℤ) : List Char :=
  if z < 0 then '-' :: Nat.toDigits 10 z.natAbs else Nat.toDigits 10 z.natAbs

def parseDigits (l : List Char) : Option ℕ :=
  if l ≠ [] ∧ l.all Char.isDigit = true then some (Nat.ofDigitChars 10 l 0) else none

/-- The integer of a text of decimal digits, possibly with a minus sign. -/
def parseDecimal (l : List Char) : Option ℤ :=
  if l.head? = some '-' then (parseDigits l.tail).map fun n : ℕ => -(n : ℤ)
  else (parseDigits l).map fun n : ℕ => (n : ℤ)

lemma parseDigits_toDigits (n : ℕ) : parseDigits (Nat.toDigits 10 n) = some n := by
  have hall : (Nat.toDigits 10 n).all Char.isDigit :=
    List.all_eq_true.mpr fun c hc => Nat.isDigit_of_mem_toDigits (by decide) le_rfl hc
  rw [parseDigits, if_pos ⟨Nat.toDigits_ne_nil, hall⟩, Nat.ofDigitChars_ten_toDigits]

lemma head?_toDigits_ne (n : ℕ) : (Nat.toDigits 10 n).head? ≠ some '-' := by
  intro h
  have hdigit := Nat.isDigit_of_mem_toDigits (by decide) le_rfl (List.mem_of_head? h)
  exact absurd hdigit (by decide)

lemma parseDecimal_decimal (z : ℤ) : parseDecimal (decimal z) = some z := by
  unfold decimal parseDecimal
  split_ifs with hz hhead hhead
  · rw [List.tail_cons, parseDigits_toDigits, Option.map_some, Option.some.injEq]
    omega
  · exact absurd rfl hhead
  · exact absurd hhead (head?_toDigits_ne _)
  · rw [parseDigits_toDigits, Option.map_some, Option.some.injEq]
    omega

lemma decimal_ne_nil (z : ℤ) : decimal z ≠ [] := by
  unfold decimal
  split_ifs
  · exact List.cons_ne_nil _ _
  · exact Nat.toDigits_ne_nil

lemma isDigit_of_mem_decimal {z : ℤ} {c : Char} (h : c ∈ decimal z) :
    c = '-' ∨ c.isDigit := by
  unfold decimal at h
  split_ifs at h
  · rcases List.mem_cons.mp h with h | h
    · exact .inl h
    · exact .inr (Nat.isDigit_of_mem_toDigits (by decide) le_rfl h)
  · exact .inr (Nat.isDigit_of_mem_toDigits (by decide) le_rfl h)

/-- The letter after a backslash that stands for a character. -/
def shortEscape (c : Char) : Option Char :=
  if c = '"' then some '"'
  else if c = '\\' then some '\\'
  else if c = Char.ofNat 0x08 then some 'b'
  else if c = Char.ofNat 0x0c then some 'f'
  else if c = '\n' then some 'n'
  else if c = '\r' then some 'r'
  else if c = '\t' then some 't'
  else none

def escapeChar (c : Char) : List Char :=
  (shortEscape c).elim
    (if c.toNat < 0x20 then
      ['\\', 'u', '0', '0', Nat.digitChar (c.toNat / 0x10), Nat.digitChar (c.toNat % 0x10)]
    else [c])
    fun e => ['\\', e]

/-- `JSON.stringify(s)`. -/
def quote (s : List Char) : List Char := '"' :: (s.flatMap escapeChar ++ ['"'])

end Fino.Lib.JsonText
