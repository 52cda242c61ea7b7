import Fino.Lib.Wire

/-!
# Texts of arbitrary bytes

`decodeUtf8` of `js/internal/encoding.ts` for a decoder that is not fatal. Each turn of its loop
takes a character or replaces malformed bytes. The first character that is taken is dropped if it is
a byte order mark, and of a text in UTF-8 nothing else is lost (`decode_utf8`).
-/

namespace Fino.TextDecoder

open Lib.Wire List

def replacement : Char := Char.ofNat 0xfffd

/-- The second byte continues a sequence, but not one that begins with this byte. -/
def invalidSecond (b0 b1 : ℕ) : Bool :=
  b1 / 0x40 = 2 ∧ (b0 = 0xe0 ∧ b1 < 0xa0 ∨ b0 = 0xed ∧ 0x9f < b1 ∨ b0 = 0xf0 ∧ b1 < 0x90 ∨
    b0 = 0xf4 ∧ 0x8f < b1)

/-- The loop over the bytes from index `j` on that should continue the sequence: the code point, or
how many bytes are passed over, which are also all that there are if one is missing. -/
def continuation (cp j : ℕ) : ℕ → List ℕ → Except ℕ ℕ
  | 0, _ => .ok cp
  | _ + 1, [] => .error j
  | n + 1, b :: bytes =>
    if b / 0x40 = 2 then continuation (cp * 0x40 + b % 0x40) (j + 1) n bytes else .error j

/-- The code point is too small for the length of its sequence, too large, or a surrogate. -/
def invalidPoint (seqLen cp : ℕ) : Bool :=
  seqLen = 2 ∧ cp < 0x80 ∨ seqLen = 3 ∧ cp < 0x800 ∨ seqLen = 4 ∧ cp < 0x10000 ∨ 0x10ffff < cp ∨
    0xd800 ≤ cp ∧ cp ≤ 0xdfff

/-- A sequence of `seqLen` bytes: its code point, or `none` for a replacement, and how far the loop
goes on. -/
def sequence (b0 cp seqLen : ℕ) (bytes : List ℕ) : Option ℕ × ℕ :=
  if 3 ≤ seqLen ∧ bytes.head?.any (invalidSecond b0) then (none, 1)
  else
    match continuation cp 1 (seqLen - 1) bytes with
    | .error j => (none, j)
    | .ok cp => if invalidPoint seqLen cp then (none, seqLen) else (some cp, seqLen)

/-- One turn of the loop, at the byte `b0`. -/
def turn (b0 : ℕ) (bytes : List ℕ) : Option ℕ × ℕ :=
  if b0 < 0x80 then (some b0, 1)
  else if b0 / 0x20 = 6 then sequence b0 (b0 % 0x20) 2 bytes
  else if b0 / 0x10 = 14 then sequence b0 (b0 % 0x10) 3 bytes
  else if b0 / 0x08 = 30 then sequence b0 (b0 % 0x08) 4 bytes
  else (none, 1)

/-- The loop, with a bound on its turns; each takes at least one byte. -/
def decodeUtf8 (first : Bool) : ℕ → List ℕ → List Char
  | 0, _ | _, [] => []
  | n + 1, b0 :: bytes =>
    match turn b0 bytes with
    | (none, k) => replacement :: decodeUtf8 first n ((b0 :: bytes).drop k)
    | (some cp, k) =>
      let rest := decodeUtf8 false n ((b0 :: bytes).drop k)
      if first ∧ cp = 0xfeff then rest else Char.ofNat cp :: rest

/-- `decoder.decode(bytes)`. For bytes below 128 the shorter way of `decodeUtf8` gives the same. -/
def decode (bytes : List UInt8) : String :=
  String.ofList (decodeUtf8 true bytes.length (bytes.map UInt8.toNat))

/-! ### Texts in UTF-8 -/

variable {b0 cp seqLen v : ℕ} {bytes tail : List ℕ}

lemma sequence_of_ok (hsecond : bytes.head?.any (invalidSecond b0) = false)
    (hcp : continuation cp 1 (seqLen - 1) bytes = .ok v) (hv : invalidPoint seqLen v = false) :
    sequence b0 cp seqLen bytes = (some v, seqLen) := by
  rw [sequence, if_neg (by simp [hsecond]), hcp]
  exact if_neg (by simp [hv])

lemma continuation_cons {j k n : ℕ} (hn : n < 0x40) :
    continuation cp j (k + 1) ((n + 0x80) :: bytes) =
      continuation (cp * 0x40 + n) (j + 1) k bytes := by
  rw [continuation, if_pos (by omega), show (n + 0x80) % 0x40 = n by omega]

/-- The loop takes the bytes of a character in one turn. -/
lemma turn_utf8EncodeChar (c : Char) (tail : List ℕ) : ∃ b0 bytes,
    (String.utf8EncodeChar c).map UInt8.toNat = b0 :: bytes ∧
      turn b0 (bytes ++ tail) = (some c.toNat, bytes.length + 1) := by
  have hvalid : c.toNat < 0xd800 ∨ 0xdfff < c.toNat ∧ c.toNat < 0x110000 := c.valid
  rw [String.utf8EncodeChar, show c.val.toNat = c.toNat from rfl]
  generalize c.toNat = v at hvalid
  have hbyte : ∀ n < 0x100, (UInt8.ofNat n).toNat = n := fun n hn => Nat.mod_eq_of_lt hn
  split_ifs with h1 h2 h3
  · refine ⟨v, [], by simp [hbyte v (by omega)], ?_⟩
    rw [turn, if_pos (by omega)]
    rfl
  · refine ⟨v / 64 % 32 + 192, [v % 64 + 128], ?_, ?_⟩
    · simp only [map_cons, map_nil]
      rw [hbyte _ (by omega), hbyte _ (by omega)]
    · rw [turn, if_neg (by omega), if_pos (by omega)]
      refine sequence_of_ok (by simp [invalidSecond]; omega) ?_ (by simp [invalidPoint]; omega)
      rw [cons_append, continuation_cons (by omega), continuation, Except.ok.injEq]
      omega
  · refine ⟨v / 4096 % 16 + 224, [v / 64 % 64 + 128, v % 64 + 128], ?_, ?_⟩
    · simp only [map_cons, map_nil]
      rw [hbyte _ (by omega), hbyte _ (by omega), hbyte _ (by omega)]
    · rw [turn, if_neg (by omega), if_neg (by omega), if_pos (by omega)]
      refine sequence_of_ok (by simp [invalidSecond]; omega) ?_ (by simp [invalidPoint]; omega)
      rw [cons_append, cons_append, continuation_cons (by omega), continuation_cons (by omega),
        continuation, Except.ok.injEq]
      omega
  · refine ⟨v / 262144 % 8 + 240, [v / 4096 % 64 + 128, v / 64 % 64 + 128, v % 64 + 128], ?_, ?_⟩
    · simp only [map_cons, map_nil]
      rw [hbyte _ (by omega), hbyte _ (by omega), hbyte _ (by omega), hbyte _ (by omega)]
    · rw [turn, if_neg (by omega), if_neg (by omega), if_neg (by omega), if_pos (by omega)]
      refine sequence_of_ok (by simp [invalidSecond]; omega) ?_ (by simp [invalidPoint]; omega)
      rw [cons_append, cons_append, cons_append, continuation_cons (by omega),
        continuation_cons (by omega), continuation_cons (by omega), continuation, Except.ok.injEq]
      omega

lemma decodeUtf8_utf8EncodeChar (first : Bool) (n : ℕ) (c : Char) (tail : List ℕ) :
    decodeUtf8 first (n + 1) ((String.utf8EncodeChar c).map UInt8.toNat ++ tail) =
      if first ∧ c = byteOrderMark then decodeUtf8 false n tail
      else c :: decodeUtf8 false n tail := by
  obtain ⟨b0, bytes, hbytes, hturn⟩ := turn_utf8EncodeChar c tail
  have hmark : c.toNat = 0xfeff ↔ c = byteOrderMark :=
    ⟨fun h => Char.toNat_inj.mp h, fun h => h ▸ rfl⟩
  rw [hbytes, cons_append, decodeUtf8, hturn]
  simp only [drop_succ_cons, drop_left, Char.ofNat_toNat, hmark]

lemma decodeUtf8_utf8 (l : List Char) {n : ℕ} (hn : l.length ≤ n) :
    decodeUtf8 false n ((l.flatMap String.utf8EncodeChar).map UInt8.toNat) = l := by
  induction l generalizing n with
  | nil => cases n <;> rfl
  | cons c l ih =>
    obtain ⟨n, rfl⟩ : ∃ m, n = m + 1 := ⟨n - 1, by simp at hn; omega⟩
    rw [flatMap_cons, map_append, decodeUtf8_utf8EncodeChar, if_neg (by simp),
      ih (Nat.succ_le_succ_iff.mp hn)]

lemma length_le_length_utf8 (l : List Char) :
    l.length ≤ (l.flatMap String.utf8EncodeChar).length := by
  induction l with
  | nil => exact Nat.le_refl 0
  | cons c l ih =>
    have hpos := c.utf8Size_pos
    rw [flatMap_cons, length_append, String.length_utf8EncodeChar, length_cons]
    omega

/-- Of a text in UTF-8 only a byte order mark at its beginning is lost. -/
lemma decode_utf8 (s : String) : decode (utf8 s) = dropMark s := by
  rw [decode, utf8, dropMark]
  cases hs : s.toList with
  | nil => rw [← String.ofList_toList (s := s), hs]; rfl
  | cons c l =>
    have hle := length_le_length_utf8 (c :: l)
    generalize hn : ((c :: l).flatMap String.utf8EncodeChar).length = n at hle
    obtain ⟨n, rfl⟩ : ∃ m, n = m + 1 := ⟨n - 1, by simp at hle; omega⟩
    rw [length_cons, Nat.succ_le_succ_iff] at hle
    rw [flatMap_cons, map_append, decodeUtf8_utf8EncodeChar, decodeUtf8_utf8 l hle]
    by_cases hc : c = byteOrderMark
    · simp [hc]
    · simp [hc, ← hs]

-- The bytes of a sequence that is too long are replaced together, and a mark after them is dropped.
example : decode [0xc0, 0x80, 0xef, 0xbb, 0xbf, 0x41] = "\uFFFDA" := by decide +kernel

end Fino.TextDecoder
