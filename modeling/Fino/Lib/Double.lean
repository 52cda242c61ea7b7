import Mathlib.Data.Nat.Log
import Mathlib.Algebra.Order.Ring.Int
import Mathlib.Tactic.Ring

/-!
# Doubles

An IEEE 754 double is given by its 64 bits. `toInt?` is the integer that a double is, if it is one,
and `ofInt` the double of an integer; those below `2 ^ 53` in absolute value are found again
(`toInt?_ofInt`), and no other double but `-0` is one of them (`eq_ofInt`).
-/

namespace Fino.Lib

open Nat Option

structure Double where
  bits : ℕ
  bits_lt : bits < 2 ^ 64
deriving DecidableEq

namespace Double

def ofBits (n : ℕ) : Double := ⟨n % 2 ^ 64, mod_lt n (Nat.two_pow_pos 64)⟩

variable (x : Double)

lemma ofBits_bits : ofBits x.bits = x := by
  obtain ⟨bits, hlt⟩ := x
  rw [ofBits]
  congr
  exact mod_eq_of_lt hlt

def sign : Bool := 2 ^ 63 ≤ x.bits

def magnitude : ℕ := x.bits % 2 ^ 63

def exponent : ℕ := x.magnitude / 2 ^ 52

def mantissa : ℕ := x.magnitude % 2 ^ 52

/-- `Number.isFinite`. -/
def isFinite : Bool := x.exponent ≠ 2047

/-- `x === 0`. -/
def isZero : Bool := x.magnitude = 0

/-- `x < 0`. -/
def isNegative : Bool :=
  x.sign ∧ x.magnitude ≠ 0 ∧ x.magnitude ≤ 2047 * 2 ^ 52

/-- `x > 1`. -/
def exceedsOne : Bool :=
  ¬ x.sign ∧ 1023 * 2 ^ 52 < x.magnitude ∧ x.magnitude ≤ 2047 * 2 ^ 52

def natAbs? : Option ℕ :=
  if x.magnitude = 0 then some 0
  else if x.exponent = 0 ∨ x.exponent = 2047 then none
  else if 1075 ≤ x.exponent then some ((2 ^ 52 + x.mantissa) * 2 ^ (x.exponent - 1075))
  else if (2 ^ 52 + x.mantissa) % 2 ^ (1075 - x.exponent) = 0 then
    some ((2 ^ 52 + x.mantissa) / 2 ^ (1075 - x.exponent))
  else none

/-- The integer that the double is, if it is one. -/
def toInt? : Option ℤ :=
  x.natAbs?.map fun n : ℕ => if x.sign then -(n : ℤ) else n

/-- The double of an integer below `2 ^ 53` in absolute value. -/
def ofInt (z : ℤ) : Double :=
  .ofBits (if z = 0 then 0
    else (if z < 0 then 2 ^ 63 else 0) + (1023 + log2 z.natAbs) * 2 ^ 52 +
      (z.natAbs * 2 ^ (52 - log2 z.natAbs) - 2 ^ 52))

/-- A positive number below `2 ^ 53` with its leading bit brought to the place of `2 ^ 52`. -/
lemma normalize {n : ℕ} (hpos : n ≠ 0) (hlt : n < 2 ^ 53) :
    log2 n ≤ 52 ∧ 2 ^ 52 ≤ n * 2 ^ (52 - log2 n) ∧ n * 2 ^ (52 - log2 n) < 2 ^ 53 := by
  have hlog : log2 n < 53 := (log2_lt hpos).mpr hlt
  have hself : 2 ^ log2 n ≤ n := log2_self_le hpos
  have hnext : n < 2 ^ (log2 n + 1) := lt_log2_self
  refine ⟨by omega, ?_, ?_⟩
  · calc 2 ^ 52 = 2 ^ log2 n * 2 ^ (52 - log2 n) := by rw [← pow_add]; congr 1; omega
      _ ≤ n * 2 ^ (52 - log2 n) := mul_le_mul_right _ hself
  · calc n * 2 ^ (52 - log2 n) < 2 ^ (log2 n + 1) * 2 ^ (52 - log2 n) :=
          mul_lt_mul_of_pos_right hnext (Nat.two_pow_pos _)
      _ = 2 ^ 53 := by rw [← pow_add]; congr 1; omega

variable {z : ℤ}

lemma parts_ofInt (hz : z ≠ 0) (hlt : z.natAbs < 2 ^ 53) :
    (ofInt z).sign = decide (z < 0) ∧ (ofInt z).magnitude = (1023 + log2 z.natAbs) * 2 ^ 52 +
        (z.natAbs * 2 ^ (52 - log2 z.natAbs) - 2 ^ 52) := by
  obtain ⟨hlog, hlow, hhigh⟩ := normalize (Int.natAbs_ne_zero.mpr hz) hlt
  simp only [sign, magnitude, ofInt, ofBits, if_neg hz]
  generalize z.natAbs * 2 ^ (52 - log2 z.natAbs) = m at hlow hhigh ⊢
  by_cases hneg : z < 0
  · simp only [hneg, if_true, decide_true]
    constructor
    · rw [decide_eq_true_eq]
      omega
    · omega
  · simp only [hneg, if_false, decide_false]
    constructor
    · rw [decide_eq_false_iff_not]
      omega
    · omega

lemma toInt?_ofInt (hlt : z.natAbs < 2 ^ 53) : (ofInt z).toInt? = some z := by
  by_cases hz : z = 0
  · subst hz
    decide
  · obtain ⟨hsign, hmagnitude⟩ := parts_ofInt hz hlt
    obtain ⟨hlog, hlow, hhigh⟩ := normalize (Int.natAbs_ne_zero.mpr hz) hlt
    have hexponent : (ofInt z).exponent = 1023 + log2 z.natAbs := by
      rw [exponent, hmagnitude]
      omega
    have hmantissa : 2 ^ 52 + (ofInt z).mantissa = z.natAbs * 2 ^ (52 - log2 z.natAbs) := by
      rw [mantissa, hmagnitude]
      omega
    have hdiff : 1075 - (1023 + log2 z.natAbs) = 52 - log2 z.natAbs := by omega
    have habs : (ofInt z).natAbs? = some z.natAbs := by
      unfold natAbs?
      rw [if_neg (by rw [hmagnitude]; omega), if_neg (by rw [hexponent]; omega), hmantissa,
        hexponent, hdiff]
      split_ifs with hshift hmod
      · -- The leading bit is at its place already.
        have hzero : 52 - log2 z.natAbs = 0 := by omega
        have hzero' : 1023 + log2 z.natAbs - 1075 = 0 := by omega
        rw [hzero, hzero', pow_zero, mul_one, mul_one]
      · rw [Nat.mul_div_cancel _ (Nat.two_pow_pos _)]
      · exact absurd (mul_mod_left _ _) hmod
    rw [toInt?, habs, map_some, hsign]
    by_cases hneg : z < 0
    · simp only [hneg, decide_true, if_true, some.injEq]
      omega
    · simp only [hneg, decide_false, Bool.false_eq_true, if_false, some.injEq]
      omega

variable {x : Double}

lemma ext_parts {y : Double} (hsign : x.sign = y.sign)
    (hmagnitude : x.magnitude = y.magnitude) : x = y := by
  obtain ⟨a, ha⟩ := x
  obtain ⟨b, hb⟩ := y
  simp only [sign, magnitude, decide_eq_decide] at hsign hmagnitude
  congr
  omega

lemma natAbs?_eq_some {n : ℕ} (h : x.natAbs? = some n) (hlt : n < 2 ^ 53) (hn : n ≠ 0) :
    x.exponent = 1023 + log2 n ∧ 2 ^ 52 + x.mantissa = n * 2 ^ (52 - log2 n) := by
  have hmantissa : x.mantissa < 2 ^ 52 := mod_lt _ (by decide)
  unfold natAbs? at h
  split_ifs at h with hzero hrange hexponent hmod
  · cases h
    exact absurd rfl hn
  · simp only [some.injEq] at h
    have hshift : x.exponent - 1075 = 0 := by
      by_contra hne
      have hpow : 2 ^ 1 ≤ 2 ^ (x.exponent - 1075) := Nat.pow_le_pow_right (by decide) (by omega)
      have hmul := mul_le_mul (show 2 ^ 52 ≤ 2 ^ 52 + x.mantissa by omega) hpow
      omega
    rw [hshift, pow_zero, mul_one] at h
    have hlog : log2 n = 52 := by
      rw [log2_eq_iff hn]
      omega
    rw [hlog]
    omega
  · simp only [some.injEq] at h
    have hmul : n * 2 ^ (1075 - x.exponent) = 2 ^ 52 + x.mantissa := by
      rw [← h]
      exact Nat.div_mul_cancel (dvd_of_mod_eq_zero hmod)
    have hlog : log2 (n * 2 ^ (1075 - x.exponent)) = log2 n + (1075 - x.exponent) := by
      rw [log2_eq_iff (by omega), add_right_comm, pow_add, pow_add _ _ (1075 - x.exponent)]
      exact ⟨mul_le_mul_right _ (log2_self_le hn),
        mul_lt_mul_of_pos_right lt_log2_self (Nat.two_pow_pos _)⟩
    have hlog' : log2 (n * 2 ^ (1075 - x.exponent)) = 52 := by
      rw [hmul, log2_eq_iff (by omega)]
      omega
    have hshift : 52 - log2 n = 1075 - x.exponent := by omega
    rw [hshift, hmul]
    omega

lemma isZero_of_natAbs? (h : x.natAbs? = some 0) : x.isZero := by
  unfold natAbs? at h
  split_ifs at h with hzero hrange hexponent hmod
  · exact decide_eq_true hzero
  · simp only [some.injEq, mul_eq_zero, Nat.pow_eq_zero] at h
    omega
  · simp only [some.injEq] at h
    have hmul := Nat.div_mul_cancel (dvd_of_mod_eq_zero hmod)
    rw [h] at hmul
    omega

lemma eq_ofInt (h : x.toInt? = some z) (hlt : z.natAbs < 2 ^ 53)
    (hzero : x.isZero → x = ofInt 0) : x = ofInt z := by
  obtain ⟨n, hn, hz⟩ := map_eq_some_iff.mp h
  have habs : z.natAbs = n := by
    rw [← hz]
    split_ifs <;> simp
  by_cases hn0 : n = 0
  · subst hn0
    have hz0 : z = 0 := Int.natAbs_eq_zero.mp habs
    rw [hz0]
    exact hzero (isZero_of_natAbs? hn)
  · rw [habs] at hlt
    have hz0 : z ≠ 0 := by
      rintro rfl
      exact hn0 habs.symm
    obtain ⟨hsign, hmagnitude⟩ := parts_ofInt hz0 (habs ▸ hlt)
    obtain ⟨hexponent, hmantissa⟩ := natAbs?_eq_some hn hlt hn0
    refine ext_parts ?_ ?_
    · rw [hsign, ← hz]
      cases hx : x.sign
      · simp
      · simp [pos_of_ne_zero hn0]
    · rw [hmagnitude, habs, ← hmantissa, ← hexponent]
      unfold exponent mantissa
      omega

lemma isFinite_of_toInt? (h : x.toInt? = some z) : x.isFinite := by
  obtain ⟨n, hn, -⟩ := map_eq_some_iff.mp h
  unfold natAbs? at hn
  split_ifs at hn with hzero hexponent
  · simp [isFinite, exponent, hzero]
  all_goals
    push Not at hexponent
    simpa [isFinite] using hexponent.2

lemma isZero_ofInt (hlt : z.natAbs < 2 ^ 53) : (ofInt z).isZero = decide (z = 0) := by
  by_cases hz : z = 0
  · subst hz
    decide
  · obtain ⟨-, hmagnitude⟩ := parts_ofInt hz hlt
    simp only [isZero, hz, decide_false, decide_eq_false_iff_not, hmagnitude]
    omega

end Double

end Fino.Lib
