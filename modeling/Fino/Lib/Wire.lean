import Mathlib.Data.Int.Bitwise
import Mathlib.Tactic.Positivity
import Mathlib.Tactic.Ring
import Mathlib.Tactic.Zify

/-!
# Numbers and texts as bytes

Base-128 varints, the ZigZag order of the integers, two's complement, little-endian words, and
UTF-8, where a reader may drop a byte order mark at the beginning.
-/

namespace Fino.Lib.Wire

/-- The bytes of a varint; `n` is the number of bytes that may still have another one behind. -/
def varintLoop : ℕ → ℕ → List UInt8
  | 0, v => [UInt8.ofNat v]
  | n + 1, v =>
    if v < 0x80 then [UInt8.ofNat v]
    else UInt8.ofNat (v % 0x80 + 0x80) :: varintLoop n (v / 0x80)

/-- The varint of a number below `2 ^ 64`. -/
def varint (v : ℕ) : List UInt8 := varintLoop 9 v

lemma varint_ne_nil (v : ℕ) : varint v ≠ [] := by
  rw [varint, varintLoop]
  split_ifs <;> simp

/-- The bytes are a varint of the number, which need not be the shortest one. -/
inductive Varint : List UInt8 → ℕ → Prop
  | last {b : UInt8} (hb : b.toNat < 0x80) : Varint [b] b.toNat
  | more {b : UInt8} {l : List UInt8} {v : ℕ} (hb : 0x80 ≤ b.toNat) (hl : Varint l v) :
      Varint (b :: l) (b.toNat % 0x80 + 0x80 * v)

variable {v k : ℕ} {z : ℤ} {s : String}

lemma Varint.ne_nil {l : List UInt8} (h : Varint l v) : l ≠ [] := by
  cases h <;> simp

lemma Varint.singleton (h : v < 0x80) : Varint [UInt8.ofNat v] v := by
  have hbyte : (UInt8.ofNat v).toNat = v := Nat.mod_eq_of_lt (by omega)
  have hvarint := Varint.last (by rwa [hbyte])
  rwa [hbyte] at hvarint

lemma varint_varintLoop {n : ℕ} (h : v < 0x80 ^ (n + 1)) :
    Varint (varintLoop n v) v ∧ (varintLoop n v).length ≤ n + 1 := by
  induction n generalizing v with
  | zero => exact ⟨.singleton (by simpa using h), Nat.le_refl 1⟩
  | succ n ih =>
    rw [varintLoop]
    split_ifs with hv
    · exact ⟨.singleton hv, by simp⟩
    · have hdiv : v / 0x80 < 0x80 ^ (n + 1) := by
        exact Nat.div_lt_of_lt_mul (by omega)
      have hbyte : (UInt8.ofNat (v % 0x80 + 0x80)).toNat = v % 0x80 + 0x80 :=
        Nat.mod_eq_of_lt (by omega)
      obtain ⟨hvarint, hlength⟩ := ih hdiv
      have hmore := Varint.more (b := UInt8.ofNat (v % 0x80 + 0x80)) (by omega) hvarint
      have hval : (v % 0x80 + 0x80) % 0x80 + 0x80 * (v / 0x80) = v := by omega
      rw [hbyte, hval] at hmore
      exact ⟨hmore, by simpa using hlength⟩

lemma varint_varint (h : v < 2 ^ 64) : Varint (varint v) v ∧ (varint v).length ≤ 10 :=
  varint_varintLoop (Nat.lt_trans h (by decide))

lemma or_shiftLeft {a s : ℕ} (ha : a < 2 ^ s) (b : ℕ) : a ||| b <<< s = a + b * 2 ^ s := by
  rw [Nat.shiftLeft_eq, Nat.mul_comm b, Nat.or_comm, ← Nat.two_pow_add_eq_or_of_lt ha, Nat.add_comm]

/-- `BigInt.asUintN`. -/
def asUintN (w : ℕ) (z : ℤ) : ℕ := (z % 2 ^ w).toNat

/-- `BigInt.asIntN`. -/
def asIntN (w : ℕ) (z : ℤ) : ℤ := z.bmod (2 ^ w)

lemma asUintN_lt (w : ℕ) (z : ℤ) : asUintN w z < 2 ^ w := by
  have hpos : (0 : ℤ) < 2 ^ w := by positivity
  have hlt := Int.emod_lt_of_pos z hpos
  have hnonneg := Int.emod_nonneg z hpos.ne'
  unfold asUintN
  zify
  rwa [Int.toNat_of_nonneg hnonneg]

lemma asUintN_of_lt {w : ℕ} (h : v < 2 ^ w) : asUintN w v = v := by
  unfold asUintN
  rw [Int.emod_eq_of_lt (Int.natCast_nonneg v) (by exact_mod_cast h)]
  rfl

lemma asIntN_asUintN {w : ℕ} (hw : k + 1 ≤ w) (h : -2 ^ k ≤ z) (h' : z < 2 ^ k) :
    asIntN (k + 1) (asUintN w z) = z := by
  have hpos : (0 : ℤ) < 2 ^ w := by positivity
  unfold asIntN asUintN
  rw [Int.toNat_of_nonneg (Int.emod_nonneg z hpos.ne')]
  have hdvd : ((2 ^ (k + 1) : ℕ) : ℤ) ∣ 2 ^ w := by
    exact pow_dvd_pow 2 hw
  rw [← Int.emod_bmod, Int.emod_emod_of_dvd z hdvd, Int.emod_bmod]
  refine Int.bmod_eq_of_le ?_ ?_
  all_goals
    rw [Nat.cast_pow, Nat.cast_ofNat, pow_succ]
    omega

lemma asUintN_bounds (w : ℕ) (z : ℤ) : 0 ≤ (asUintN w z : ℤ) ∧ (asUintN w z : ℤ) ≤ 2 ^ w - 1 := by
  have hlt : (asUintN w z : ℤ) < 2 ^ w := by exact_mod_cast asUintN_lt w z
  omega

lemma asIntN_bounds (k : ℕ) (z : ℤ) :
    -2 ^ k ≤ asIntN (k + 1) z ∧ asIntN (k + 1) z ≤ 2 ^ k - 1 := by
  have hpos : 0 < 2 ^ (k + 1) := Nat.two_pow_pos _
  have hlow := Int.le_bmod (x := z) hpos
  have hhigh := Int.bmod_lt (x := z) hpos
  have hpow : ((2 ^ (k + 1) : ℕ) : ℤ) = 2 * 2 ^ k := by
    rw [Nat.cast_pow, Nat.cast_ofNat, pow_succ, mul_comm]
  unfold asIntN
  omega

/-! ## ZigZag -/

/-- The place of an integer of `k + 1` bits in the order `0, -1, 1, -2, …`. -/
def zigzag (k : ℕ) (z : ℤ) : ℕ := asUintN (k + 1) (Int.xor (2 * z) (z / 2 ^ k))

/-- The integer of `k + 1` bits at a place in the order `0, -1, 1, -2, …`. -/
def unzigzag (k : ℕ) (v : ℕ) : ℤ := asIntN (k + 1) (Int.xor (v / 2) (-(v % 2)))

lemma xor_zero (z : ℤ) : Int.xor z 0 = z := by
  cases z with
  | ofNat n => exact congrArg Int.ofNat (Nat.xor_zero n)
  | negSucc n => exact congrArg Int.negSucc (Nat.xor_zero n)

lemma xor_neg_one (z : ℤ) : Int.xor z (-1) = -z - 1 := by
  cases z with
  | ofNat n =>
    show Int.negSucc (n ^^^ 0) = _
    rw [Nat.xor_zero, Int.negSucc_eq]
    simp only [Int.ofNat_eq_natCast]
    ring
  | negSucc n =>
    show ((n ^^^ 0 : ℕ) : ℤ) = _
    rw [Nat.xor_zero, Int.negSucc_eq]
    ring

lemma zigzag_eq (h : -2 ^ k ≤ z) (h' : z < 2 ^ k) :
    (zigzag k z : ℤ) = if 0 ≤ z then 2 * z else -2 * z - 1 := by
  have hpos : (0 : ℤ) < 2 ^ (k + 1) := by positivity
  unfold zigzag asUintN
  rw [Int.toNat_of_nonneg (Int.emod_nonneg _ hpos.ne')]
  split_ifs with hz
  · rw [Int.ediv_eq_zero_of_lt hz h', xor_zero]
    refine Int.emod_eq_of_lt (by omega) ?_
    omega
  · have hdiv : z / 2 ^ k = -1 := by
      refine (Int.ediv_eq_iff_of_pos (by positivity)).mpr ?_
      constructor <;> omega
    rw [hdiv, xor_neg_one]
    have hval : -(2 * z) - 1 = -2 * z - 1 := by ring
    rw [hval]
    refine Int.emod_eq_of_lt (by omega) ?_
    omega

lemma zigzag_lt (k : ℕ) (z : ℤ) : zigzag k z < 2 ^ (k + 1) := asUintN_lt _ _

lemma unzigzag_zigzag (h : -2 ^ k ≤ z) (h' : z < 2 ^ k) : unzigzag k (zigzag k z) = z := by
  have hval := zigzag_eq h h'
  have hxor : Int.xor ((zigzag k z : ℤ) / 2) (-((zigzag k z : ℤ) % 2)) = z := by
    rw [hval]
    split_ifs with hz
    · have hmod : 2 * z % 2 = 0 := by omega
      rw [hmod, neg_zero, xor_zero]
      omega
    · have hmod : (-2 * z - 1) % 2 = 1 := by omega
      rw [hmod, xor_neg_one]
      omega
  unfold unzigzag asIntN
  rw [hxor]
  refine Int.bmod_eq_of_le ?_ ?_
  all_goals
    rw [Nat.cast_pow, Nat.cast_ofNat, pow_succ]
    omega

/-- A number as `n` bytes, the lowest one first. -/
def littleEndian : ℕ → ℕ → List UInt8
  | 0, _ => []
  | n + 1, v => UInt8.ofNat (v % 0x100) :: littleEndian n (v / 0x100)

/-- The number that bytes stand for, the lowest one first. -/
def ofLittleEndian : List UInt8 → ℕ
  | [] => 0
  | b :: l => b.toNat + 0x100 * ofLittleEndian l

lemma length_littleEndian (n v : ℕ) : (littleEndian n v).length = n := by
  induction n generalizing v with
  | zero => rfl
  | succ n ih => rw [littleEndian, List.length_cons, ih]

lemma ofLittleEndian_littleEndian {n : ℕ} (h : v < 0x100 ^ n) :
    ofLittleEndian (littleEndian n v) = v := by
  induction n generalizing v with
  | zero =>
    rw [littleEndian, ofLittleEndian]
    omega
  | succ n ih =>
    have hdiv : v / 0x100 < 0x100 ^ n := by
      exact Nat.div_lt_of_lt_mul (by omega)
    rw [littleEndian, ofLittleEndian, ih hdiv, UInt8.toNat_ofNat']
    omega

variable (l : List UInt8)

lemma ofLittleEndian_lt : ofLittleEndian l < 0x100 ^ l.length := by
  induction l with
  | nil => exact Nat.one_pos
  | cons b l ih =>
    have hb : b.toNat < 0x100 := UInt8.toNat_lt b
    rw [ofLittleEndian, List.length_cons, pow_succ]
    omega

lemma littleEndian_ofLittleEndian : littleEndian l.length (ofLittleEndian l) = l := by
  induction l with
  | nil => rfl
  | cons b l ih =>
    have hb : b.toNat < 0x100 := UInt8.toNat_lt b
    have hmod : (b.toNat + 0x100 * ofLittleEndian l) % 0x100 = b.toNat := by omega
    have hdiv : (b.toNat + 0x100 * ofLittleEndian l) / 0x100 = ofLittleEndian l := by omega
    rw [ofLittleEndian, List.length_cons, littleEndian, hmod, hdiv, ih, UInt8.ofNat_toNat]

/-- `U+FEFF`, which stands for the byte order at the beginning of a text. -/
def byteOrderMark : Char := Char.ofNat 0xfeff

def utf8 (s : String) : List UInt8 := s.toList.flatMap String.utf8EncodeChar

/-- The text without a byte order mark at its beginning. -/
def dropMark (s : String) : String :=
  match s.toList with
  | [] => s
  | c :: l => if c = byteOrderMark then String.ofList l else s

/-- The text begins with a byte order mark. -/
def IsMarked (s : String) : Prop := s.toList.head? = some byteOrderMark

instance (s : String) : Decidable (IsMarked s) := inferInstanceAs (Decidable (_ = _))

lemma dropMark_eq_self : dropMark s = s ↔ ¬ IsMarked s := by
  unfold dropMark IsMarked
  split
  case h_1 heq => simp [heq]
  case h_2 c l heq =>
    rw [heq, List.head?_cons, Option.some.injEq]
    split_ifs with hc
    · simp only [hc, not_true_eq_false, iff_false]
      intro hs
      rw [← hs, String.toList_ofList] at heq
      exact absurd (congrArg List.length heq) (by simp)
    · simp [hc]

lemma length_utf8_dropMark (s : String) : (utf8 (dropMark s)).length ≤ (utf8 s).length := by
  unfold dropMark
  split
  case h_1 => exact Nat.le_refl _
  case h_2 c l heq =>
    split_ifs
    · simp [utf8, heq]
    · exact Nat.le_refl _

lemma length_utf8_dropMark_lt (h : IsMarked s) :
    (utf8 (dropMark s)).length < (utf8 s).length := by
  obtain ⟨l, hl⟩ := List.head?_eq_some_iff.mp h
  have hdrop : dropMark s = String.ofList l := by
    rw [dropMark, hl]
    exact if_pos rfl
  rw [hdrop, utf8, utf8, hl, String.toList_ofList, List.flatMap_cons, List.length_append]
  exact Nat.lt_add_of_pos_left (by decide)

/-- The text that bytes stand for in UTF-8; a byte order mark is not part of it. -/
def ofUtf8 : Option String :=
  l.toByteArray.utf8Decode?.map fun cs => dropMark (String.ofList cs.toList)

lemma ofUtf8_utf8 (s : String) : ofUtf8 (utf8 s) = some (dropMark s) := by
  have hbytes : (utf8 s).toByteArray = s.toList.utf8Encode := (List.utf8Encode.eq_1 s.toList).symm
  rw [ofUtf8, hbytes, List.utf8Decode?_utf8Encode]
  simp

end Fino.Lib.Wire
