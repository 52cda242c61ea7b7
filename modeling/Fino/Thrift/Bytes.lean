import Fino.Data.TextDecoder
import Fino.Thrift.Value

/-!
# The bytes of the binary and the compact protocol

`ByteWriter` and `ByteReader` of `js/internal/format/thrift/io.ts`, without their buffers: what the
reader finds is what the writer has written.
-/

namespace Fino.Thrift

open Lib Lib.Framing Lib.Parser Lib.Wire

/-- A number as `n` bytes, the highest one first. -/
def bigEndian (n v : ℕ) : List UInt8 := (littleEndian n v).reverse

/-- The number that bytes stand for, the highest one first. -/
def ofBigEndian (l : List UInt8) : ℕ := ofLittleEndian l.reverse

abbrev ByteReader (α : Type) := Parser ThriftError UInt8 α

namespace ByteWriter

variable {σ : Type} (value : ℤ)

def writeU8 : Writer ThriftError UInt8 σ Unit := emit [UInt8.ofNat (asUintN 8 value)]

def writeBytes (bytes : List UInt8) : Writer ThriftError UInt8 σ Unit := emit bytes

def writeI16BE : Writer ThriftError UInt8 σ Unit :=
  emit (bigEndian 2 (asUintN 16 value))

def writeI32BE : Writer ThriftError UInt8 σ Unit :=
  emit (bigEndian 4 (asUintN 32 value))

def writeI64BE : Writer ThriftError UInt8 σ Unit :=
  emit (bigEndian 8 (asUintN 64 value))

def writeF64BE (value : Double) : Writer ThriftError UInt8 σ Unit := emit (bigEndian 8 value.bits)

def writeF64LE (value : Double) : Writer ThriftError UInt8 σ Unit :=
  emit (littleEndian 8 value.bits)

/-- `writeVarint`, of a number that is not negative. -/
def writeVarint (value : ℕ) : Writer ThriftError UInt8 σ Unit := emit (varint (value % 2 ^ 64))

def writeZigzag32 : Writer ThriftError UInt8 σ Unit := writeVarint (zigzag 31 value)

def writeZigzag64 : Writer ThriftError UInt8 σ Unit := writeVarint (zigzag 63 value)

end ByteWriter

namespace ByteReader

def readU8 : ByteReader ℕ := do return (← next fun _ => .endOfInput).toNat

def readI8 : ByteReader ℤ := do return asIntN 8 (← readU8)

def readBytes (n : ℤ) : ByteReader (List UInt8) :=
  if n < 0 then throw (.negativeLength n) else slice (fun _ => .endOfInput) n.toNat

def readString (n : ℤ) : ByteReader String := do return TextDecoder.decode (← readBytes n)

/-- A signed integer of `n` bytes. -/
def readIntBE (n : ℕ) : ByteReader ℤ := do
  return asIntN (8 * n) (ofBigEndian (← slice (fun _ => .endOfInput) n))

def readI16BE : ByteReader ℤ := readIntBE 2

def readI32BE : ByteReader ℤ := readIntBE 4

def readI64BE : ByteReader ℤ := readIntBE 8

def readF64BE : ByteReader Double := do
  return .ofBits (ofBigEndian (← slice (fun _ => .endOfInput) 8))

def readF64LE : ByteReader Double := do
  return .ofBits (ofLittleEndian (← slice (fun _ => .endOfInput) 8))

/-- The loop of `readVarint`, with `n` turns to go before the shift is too large. -/
def readVarintLoop : ℕ → ℕ → ℕ → ByteReader ℕ
  | 0, _, _ => throw .varintOverflow
  | n + 1, result, shift => do
    let byte ← readU8
    let result := result ||| (byte % 0x80) <<< shift
    if byte < 0x80 then return result else readVarintLoop n result (shift + 7)

def readVarint : ByteReader ℕ := do return (← readVarintLoop 10 0 0) % 2 ^ 64

def readVarint32 : ByteReader ℕ := do return asUintN 32 (← readVarint)

def readZigzag32 : ByteReader ℤ := do return unzigzag 31 (← readVarint32)

def readZigzag64 : ByteReader ℤ := do return unzigzag 63 (← readVarint)

end ByteReader

/-! ## What is read of what was written -/

variable {l : List UInt8}

lemma moves_of_parses {σ ρ α : Type} {w : Writer ThriftError UInt8 σ Unit} {p : ByteReader α}
    {c c' : σ} {a : α} (hw : Writes w c l c') (hp : Parses p l a) (d : ρ) :
    Moves (fun _ => True) c d c' d w (liftM p : Reader ThriftError UInt8 ρ α) (some a) :=
  ⟨l, hw, fun rest _ => ⟨trivial, takes_lift hp d rest⟩⟩

namespace ByteReader

variable {v : ℕ} {z : ℤ}

lemma parses_readU8 (h : v < 0x100) : Parses readU8 [UInt8.ofNat (asUintN 8 v)] v := by
  refine (parses_next _ _).map ?_
  rw [asUintN_of_lt h]
  exact Nat.mod_eq_of_lt h

lemma parses_readI8 (h : -2 ^ 7 ≤ z) (h' : z < 2 ^ 7) :
    Parses readI8 [UInt8.ofNat (asUintN 8 z)] z := by
  have hbyte := parses_readU8 (asUintN_lt 8 z)
  rw [asUintN_of_lt (asUintN_lt 8 z)] at hbyte
  exact hbyte.map (asIntN_asUintN (by omega) h h')

lemma parses_readIntBE {n : ℕ} (h : -2 ^ (8 * n + 7) ≤ z) (h' : z < 2 ^ (8 * n + 7)) :
    Parses (readIntBE (n + 1)) (bigEndian (n + 1) (asUintN (8 * (n + 1)) z)) z := by
  have hlt : asUintN (8 * (n + 1)) z < 0x100 ^ (n + 1) := by
    rw [show 0x100 = 2 ^ 8 from rfl, ← pow_mul]
    exact asUintN_lt _ z
  have hslice := parses_slice (fun _ => ThriftError.endOfInput)
    (bigEndian (n + 1) (asUintN (8 * (n + 1)) z))
  rw [bigEndian, List.length_reverse, length_littleEndian] at hslice
  refine hslice.map ?_
  rw [ofBigEndian, List.reverse_reverse, ofLittleEndian_littleEndian hlt]
  exact asIntN_asUintN (Nat.le_refl (8 * n + 7 + 1)) h h'

lemma parses_readBytes (l : List UInt8) : Parses (readBytes l.length) l l := by
  rw [readBytes, if_neg (by omega), Int.toNat_natCast]
  exact parses_slice _ l

lemma parses_readString (s : String) :
    Parses (readString (utf8 s).length) (utf8 s) (dropMark s) :=
  (parses_readBytes (utf8 s)).map (TextDecoder.decode_utf8 s)

lemma parses_readVarintLoop {n : ℕ} (h : Varint l v) (hn : l.length ≤ n) {result shift : ℕ}
    (hresult : result < 2 ^ shift) :
    Parses (readVarintLoop n result shift) l (result + v * 2 ^ shift) := by
  induction h generalizing n result shift with
  | @last b hb =>
    obtain ⟨n, rfl⟩ := Nat.exists_eq_add_of_le' hn
    refine ((parses_next _ b).map rfl).bind_nil ?_
    rw [if_pos hb, or_shiftLeft hresult, Nat.mod_eq_of_lt hb]
    exact parses_pure _
  | @more b l v hb hl ih =>
    rw [List.length_cons] at hn
    obtain ⟨n, rfl⟩ := Nat.exists_eq_add_of_le' (show 1 ≤ n by omega)
    refine Parses.bind (l := [b]) ((parses_next _ b).map rfl) ?_
    have hlt : result + b.toNat % 0x80 * 2 ^ shift < 2 ^ (shift + 7) := by
      have hmod : b.toNat % 0x80 ≤ 0x7f := Nat.le_of_lt_succ (Nat.mod_lt _ (by decide))
      have hmul := Nat.mul_le_mul_right (2 ^ shift) hmod
      rw [pow_add]
      omega
    have hrest := ih (n := n) (by omega) hlt
    rw [if_neg (by omega), or_shiftLeft hresult]
    have hvalue : result + b.toNat % 0x80 * 2 ^ shift + v * 2 ^ (shift + 7) =
        result + (b.toNat % 0x80 + 0x80 * v) * 2 ^ shift := by
      ring
    rwa [hvalue] at hrest

lemma parses_readVarint (h : v < 2 ^ 64) : Parses readVarint (varint (v % 2 ^ 64)) v := by
  rw [Nat.mod_eq_of_lt h]
  obtain ⟨hvarint, hlength⟩ := varint_varint h
  refine (parses_readVarintLoop hvarint hlength Nat.one_pos).map ?_
  rw [pow_zero, Nat.mul_one, Nat.zero_add, Nat.mod_eq_of_lt h]

lemma parses_readVarint32 (h : v < 2 ^ 32) : Parses readVarint32 (varint (v % 2 ^ 64)) v :=
  (parses_readVarint (Nat.lt_trans h (by decide))).map (asUintN_of_lt h)

lemma parses_readZigzag32 (h : -2 ^ 31 ≤ z) (h' : z < 2 ^ 31) :
    Parses readZigzag32 (varint (zigzag 31 z % 2 ^ 64)) z :=
  (parses_readVarint32 (zigzag_lt 31 z)).map (unzigzag_zigzag h h')

lemma parses_readZigzag64 (h : -2 ^ 63 ≤ z) (h' : z < 2 ^ 63) :
    Parses readZigzag64 (varint (zigzag 63 z % 2 ^ 64)) z :=
  (parses_readVarint (zigzag_lt 63 z)).map (unzigzag_zigzag h h')

end ByteReader

end Fino.Thrift
