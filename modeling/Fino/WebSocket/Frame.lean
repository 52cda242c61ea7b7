import Fino.Lib.Wire

/-!
# Frames of a WebSocket

The bytes of frames, as `_encodeFrame` of `js/net/http/websocket.ts` writes them and the read pump
reads them. Bytes arrive in chunks, cut anywhere, which makes no difference (`readExactly_eq`).
-/

namespace Fino.WebSocket

open Lib.Wire List

/-! ## Bytes that arrive -/

/-- The chunks of `_Buf`, and those that the reader has still to give. -/
structure Source where
  chunks : List (List UInt8)
  reads : List (List UInt8)

def available (chunks : List (List UInt8)) : ℕ := chunks.flatten.length

/-- `consume`; the chunks have as many bytes. -/
def consume : ℕ → List (List UInt8) → List UInt8 × List (List UInt8)
  | 0, chunks => ([], chunks)
  | _ + 1, [] => ([], [])
  | n + 1, head :: chunks =>
    if head.length ≤ n + 1 then
      let (out, chunks) := consume (n + 1 - head.length) chunks
      (head ++ out, chunks)
    else (head.take (n + 1), head.drop (n + 1) :: chunks)

/-- `_readExactly`; `none` when the reader has no more. -/
def readExactly (n : ℕ) (chunks : List (List UInt8)) :
    List (List UInt8) → Option (List UInt8 × Source)
  | [] => if available chunks < n then none else
      let (out, chunks) := consume n chunks
      some (out, ⟨chunks, []⟩)
  | chunk :: reads =>
    if available chunks < n then readExactly n (chunks ++ [chunk]) reads
    else
      let (out, chunks) := consume n chunks
      some (out, ⟨chunks, chunk :: reads⟩)

def Source.bytes (s : Source) : List UInt8 := s.chunks.flatten ++ s.reads.flatten

variable {n : ℕ}

lemma consume_eq {chunks : List (List UInt8)} (h : n ≤ available chunks) :
    (consume n chunks).1 = chunks.flatten.take n ∧
      (consume n chunks).2.flatten = chunks.flatten.drop n := by
  induction chunks generalizing n with
  | nil => cases n <;> simp [consume]
  | cons head chunks ih =>
    cases n with
    | zero => simp [consume]
    | succ n =>
      rw [available, flatten_cons, length_append] at h
      rw [consume, flatten_cons]
      by_cases hle : head.length ≤ n + 1
      · obtain ⟨hout, hrest⟩ := ih (n := n + 1 - head.length) (by rw [available]; omega)
        rw [if_pos hle, take_append, drop_append, take_of_length_le hle, drop_of_length_le hle]
        exact ⟨congrArg (head ++ ·) hout, hrest⟩
      · rw [if_neg hle, take_append_of_le_length (by omega), drop_append_of_le_length (by omega)]
        exact ⟨rfl, rfl⟩

variable {chunks reads : List (List UInt8)}

lemma readExactly_of_le
    (h : n ≤ (chunks.flatten ++ reads.flatten).length) :
    ∃ s, readExactly n chunks reads = some ((chunks.flatten ++ reads.flatten).take n, s) ∧
      s.bytes = (chunks.flatten ++ reads.flatten).drop n := by
  induction reads generalizing chunks with
  | nil =>
    rw [flatten_nil, append_nil] at h ⊢
    obtain ⟨hout, hrest⟩ := consume_eq h
    refine ⟨⟨(consume n chunks).2, []⟩, ?_, ?_⟩
    · rw [readExactly, if_neg (by rw [available]; omega), ← hout]
    · simpa [Source.bytes] using hrest
  | cons chunk reads ih =>
    by_cases hless : available chunks < n
    · rw [readExactly, if_pos hless]
      have hbytes : (chunks ++ [chunk]).flatten ++ reads.flatten =
          chunks.flatten ++ (chunk :: reads).flatten := by simp
      rw [← hbytes] at h ⊢
      exact ih h
    · have hle : n ≤ available chunks := by omega
      obtain ⟨hout, hrest⟩ := consume_eq hle
      refine ⟨⟨(consume n chunks).2, chunk :: reads⟩, ?_, ?_⟩
      · rw [readExactly, if_neg hless, take_append_of_le_length hle, ← hout]
      · rw [Source.bytes, hrest, drop_append_of_le_length hle]

lemma readExactly_of_lt
    (h : (chunks.flatten ++ reads.flatten).length < n) : readExactly n chunks reads = none := by
  induction reads generalizing chunks with
  | nil =>
    rw [flatten_nil, append_nil] at h
    rw [readExactly, if_pos (by rwa [available])]
  | cons chunk reads ih =>
    rw [length_append] at h
    rw [readExactly, if_pos (by rw [available]; omega)]
    refine ih ?_
    simp only [flatten_append, flatten_cons, flatten_nil, append_nil, length_append] at h ⊢
    omega

inductive Opcode
  | continuation
  | text
  | binary
  | close
  | ping
  | pong
deriving DecidableEq

namespace Opcode

/-- `OP_CONTINUATION` and so on. -/
def code : Opcode → ℕ
  | continuation => 0
  | text => 1
  | binary => 2
  | close => 8
  | ping => 9
  | pong => 10

def ofCode : ℕ → Option Opcode
  | 0 => some continuation
  | 1 => some text
  | 2 => some binary
  | 8 => some close
  | 9 => some ping
  | 10 => some pong
  | _ => none

def isControl (opcode : Opcode) : Bool := 8 ≤ opcode.code

end Opcode

variable (data key : List UInt8)

def maskInPlace : List UInt8 :=
  data.mapIdx fun i b => b ^^^ key.getD (i % 4) 0

lemma length_maskInPlace : (maskInPlace data key).length = data.length :=
  length_mapIdx

lemma maskInPlace_maskInPlace :
    maskInPlace (maskInPlace data key) key = data := by
  refine ext_getElem (by simp [length_maskInPlace]) fun i _ _ => ?_
  simp only [maskInPlace, getElem_mapIdx]
  rw [UInt8.xor_assoc, UInt8.xor_self, UInt8.xor_zero]

def bigEndian (n v : ℕ) : List UInt8 := (littleEndian n v).reverse

/-- The number that bytes stand for, the most significant byte first. -/
def ofBigEndian (l : List UInt8) : ℕ := ofLittleEndian l.reverse

lemma length_bigEndian (n v : ℕ) : (bigEndian n v).length = n := by
  rw [bigEndian, length_reverse, length_littleEndian]

lemma ofBigEndian_bigEndian {v : ℕ} (h : v < 0x100 ^ n) : ofBigEndian (bigEndian n v) = v := by
  rw [ofBigEndian, bigEndian, reverse_reverse, ofLittleEndian_littleEndian h]

def firstByte (fin : Bool) (rsv opcode : ℕ) : UInt8 :=
  UInt8.ofNat ((if fin then 128 else 0) ||| (rsv &&& 112) ||| (opcode &&& 15))

/-- The bytes for the length of a payload, the first with the bit for the mask. -/
def lengthBytes (masked : Bool) (len : ℕ) : List UInt8 :=
  let bit := if masked then 128 else 0
  if len ≤ 125 then [UInt8.ofNat (bit ||| len)]
  else if len ≤ 65535 then UInt8.ofNat (bit ||| 126) :: bigEndian 2 len
  else UInt8.ofNat (bit ||| 127) :: bigEndian 8 len

/-- `_encodeFrame`, with the mask that was drawn. -/
def encodeFrame (opcode : Opcode) (payload : List UInt8) (maskKey : Option (List UInt8))
    (fin : Bool) (rsv : ℕ) : List UInt8 :=
  firstByte fin rsv opcode.code :: lengthBytes maskKey.isSome payload.length ++
    maskKey.elim payload fun key => key ++ maskInPlace payload key

end Fino.WebSocket
