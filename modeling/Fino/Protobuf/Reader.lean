import Fino.Lib.Double
import Fino.Lib.Parser
import Fino.Lib.Wire

/-!
# Reading and writing the Protocol Buffers wire format

`Writer` and `Reader` of `js/format/protobuf.ts`. A writer is the list of bytes added, and a reader
a local parser: `parses_varint`, `parses_tag` and `parses_lengthDelimited` say that it finds what
was written, and `Payload` is what `skip` reads over (`parses_skip`). The check of `Writer.varint`
is not repeated for tags and lengths. `float` is left out.
-/

namespace Fino.Protobuf

open Lib List Lib.Parser Lib.Wire

/-! ## The model -/

inductive ScalarType
  | int32 | uint32 | sint32 | fixed32 | sfixed32 | double | enum
  | int64 | uint64 | sint64 | fixed64 | sfixed64
  | bool | string | bytes
deriving DecidableEq

/-- `ProtobufError`, with the data of its message and the place. -/
inductive ProtobufError
  /-- `varint is outside the unsigned 64-bit range` -/
  | varintRange (value : ℕ)
  /-- `truncated protobuf message` -/
  | truncated (offset : ℕ)
  /-- `varint exceeds 64 bits` -/
  | varintBits (offset : ℕ)
  /-- `varint exceeds 10 bytes` -/
  | varintBytes (offset : ℕ)
  /-- `invalid field number` -/
  | fieldNumber (number offset : ℕ)
  /-- `invalid wire type` -/
  | wireType (wireType offset : ℕ)
  /-- `length exceeds JavaScript safe integer range` -/
  | lengthRange (offset : ℕ)
  /-- `mismatched end-group field number` -/
  | endGroupMismatch (offset : ℕ)
  /-- `unterminated group` -/
  | unterminatedGroup (offset : ℕ)
  /-- `unexpected end-group tag` -/
  | unexpectedEndGroup (offset : ℕ)
  /-- `field requires a number` -/
  | notNumber (type : ScalarType)
  /-- `field is outside its integer range` -/
  | integerRange (type : ScalarType) (value : Double)
  /-- `field requires a bigint` -/
  | notBigint (type : ScalarType)
  /-- `field is outside its 64-bit range` -/
  | bigintRange (type : ScalarType) (value : ℤ)
  /-- `bool field requires a boolean` -/
  | notBoolean
  /-- `is not a scalar wire value` -/
  | notScalar (type : Option ScalarType) (offset : Option ℕ)
  /-- `message field requires an object` -/
  | fieldNotObject
  /-- `message value must be an object` -/
  | valueNotObject
  /-- `string field requires a string` -/
  | notString
  /-- `bytes field requires a Uint8Array` -/
  | notBytes
  /-- `string field is not valid UTF-8` -/
  | utf8 (offset : ℕ)
  /-- `repeated field requires an array` -/
  | notArray (name : String)
  /-- `field is undefined` -/
  | undefinedField (name : String)
  /-- `invalid field number for` -/
  | schemaNumber (number : Double) (name : String)
  /-- `field number is reserved` -/
  | reservedNumber (number : ℕ)
  /-- `duplicate field number` -/
  | duplicateNumber (number : ℕ)
  /-- `packed is only valid for repeated scalar field` -/
  | packedField (name : String)
deriving DecidableEq

def maxFieldNumber : ℕ := 0x1fffffff

/-- `Number.MAX_SAFE_INTEGER`. -/
def maxSafeInteger : ℕ := 2 ^ 53 - 1

namespace Writer

def varint (value : ℕ) : Except ProtobufError (List UInt8) :=
  if 0xffffffffffffffff < value then .error (.varintRange value) else .ok (Wire.varint value)

def tag (fieldNumber wireType : ℕ) : List UInt8 := Wire.varint (fieldNumber * 8 + wireType)

def lengthDelimited (value : List UInt8) : List UInt8 := Wire.varint value.length ++ value

/-- `fixed32`, signed or not. -/
def fixed32 (value : ℤ) : List UInt8 := littleEndian 4 (asUintN 32 value)

/-- `fixed64`, signed or not. -/
def fixed64 (value : ℤ) : List UInt8 := littleEndian 8 (asUintN 64 value)

def double (value : Double) : List UInt8 := littleEndian 8 value.bits

end Writer

/-- A method of `Reader`. -/
abbrev Reader := Parser ProtobufError UInt8

namespace Reader

def slice (length : ℕ) : Reader (List UInt8) := Parser.slice .truncated length

/-- The loop of `varint`, with `n` turns to go. -/
def varintLoop : ℕ → ℕ → ℕ → Parser (ℕ → ProtobufError) UInt8 ℕ
  | 0, _, _ => throw .varintBytes
  | n + 1, shift, value => do
    let byte ← (next .truncated : Reader UInt8).located
    if shift = 63 ∧ 1 < byte.toNat then throw .varintBits
    else if byte.toNat < 0x80 then return value ||| (byte.toNat % 0x80) <<< shift
    else varintLoop n (shift + 7) (value ||| (byte.toNat % 0x80) <<< shift)

def varint : Reader ℕ := (varintLoop 10 0 0).locate

structure Tag where
  number : ℕ
  wireType : ℕ
deriving DecidableEq

def tag : Reader Tag := Parser.locate do
  let tag ← varint.located
  if tag / 8 < 1 ∨ maxFieldNumber < tag / 8 then throw (.fieldNumber (tag / 8))
  else if 5 < tag % 8 then throw (.wireType (tag % 8))
  else return ⟨tag / 8, tag % 8⟩

/-- What `#require` does. -/
def require (size : ℕ) : Reader Unit := fun i =>
  if i.rest.length < size then .error (.truncated i.offset) else .ok ((), i)

/-- The number that `length` reads. -/
def lengthValue : Reader ℕ := Parser.locate do
  let value ← varint.located
  if maxSafeInteger < value then throw .lengthRange else return value

def length : Reader ℕ := do
  let value ← lengthValue
  require value
  return value

/-- `slice(length())`. -/
def lengthDelimited : Reader (List UInt8) := do slice (← length)

def fixed32 (signed : Bool) : Reader ℤ := do
  let word ← slice 4
  return if signed then asIntN 32 (ofLittleEndian word) else ofLittleEndian word

def fixed64 (signed : Bool) : Reader ℤ := do
  let word ← slice 8
  return if signed then asIntN 64 (ofLittleEndian word) else ofLittleEndian word

def double : Reader Double := do
  let word ← slice 8
  return .ofBits (ofLittleEndian word)

/-- `skip`, with what it does for a group. -/
def skipWith (skipGroup : ℕ → Reader Unit) (wireType fieldNumber : ℕ) : Reader Unit :=
  match wireType with
  | 0 => do let _ ← varint
  | 1 => do let _ ← slice 8
  | 2 => do let _ ← lengthDelimited
  | 3 => skipGroup fieldNumber
  | 4 => fail .unexpectedEndGroup
  | 5 => do let _ ← slice 4
  | wireType => fail (.wireType wireType)

/-- The loop of `skip` over the records of a group, with `n` turns to go. -/
def skipGroup : ℕ → ℕ → Reader Unit
  | 0, _ => fail .unterminatedGroup
  | n + 1, fieldNumber => unlessDone .unterminatedGroup do
    let tag ← tag
    if tag.wireType = 4 then
      if tag.number ≠ fieldNumber then fail .endGroupMismatch else return ()
    else do
      skipWith (skipGroup n) tag.wireType tag.number
      skipGroup n fieldNumber

/-- `skip`; there are enough turns for what is left. -/
def skip (wireType fieldNumber : ℕ) : Reader Unit := fun i =>
  skipWith (skipGroup i.rest.length) wireType fieldNumber i

lemma local_varintLoop (n shift value : ℕ) : Local (varintLoop n shift value) := by
  induction n generalizing shift value with
  | zero => exact local_throw _
  | succ n ih =>
    refine (local_next _).located.bind fun byte => ?_
    exact (local_throw _).ite ((local_pure _).ite (ih _ _))

lemma local_varint : Local varint := (local_varintLoop 10 0 0).locate

lemma consumes_varint : Consumes varint :=
  ((consumes_next _).located.bind (local_next _).located).locate

lemma local_tag : Local tag := by
  refine Local.locate (local_varint.located.bind fun tag => ?_)
  exact (local_throw _).ite ((local_throw _).ite (local_pure _))

lemma consumes_tag : Consumes tag :=
  (consumes_varint.located.bind local_varint.located).locate

lemma local_slice (n : ℕ) : Local (slice n) := Parser.local_slice _ n

variable (signed : Bool)

lemma local_fixed32 : Local (fixed32 signed) :=
  (local_slice 4).bind fun _ => local_pure _

lemma consumes_fixed32 : Consumes (fixed32 signed) :=
  (consumes_slice _ (by decide)).bind (local_slice 4)

lemma local_fixed64 : Local (fixed64 signed) :=
  (local_slice 8).bind fun _ => local_pure _

lemma consumes_fixed64 : Consumes (fixed64 signed) :=
  (consumes_slice _ (by decide)).bind (local_slice 8)

lemma local_double : Local double := (local_slice 8).bind fun _ => local_pure _

lemma consumes_double : Consumes double := (consumes_slice _ (by decide)).bind (local_slice 8)

lemma local_lengthValue : Local lengthValue :=
  Local.locate (local_varint.located.bind fun _ => (local_throw _).ite (local_pure _))

lemma lengthDelimited_eq : lengthDelimited = (lengthValue >>= slice) := by
  have hslice (n : ℕ) : (require n >>= fun _ => slice n) = slice n := by
    funext i
    show (require n i).bind _ = _
    unfold require
    split_ifs with hn
    · rw [slice, Parser.slice, if_pos hn]
      rfl
    · rfl
  simp only [lengthDelimited, length, bind_assoc, pure_bind, hslice]

lemma local_lengthDelimited : Local lengthDelimited := by
  rw [lengthDelimited_eq]
  exact local_lengthValue.bind local_slice

/-- The success with a number of turns depends only on what was read, and as many turns as it has
bytes are enough. -/
def Steady (p : ℕ → Reader Unit) (n : ℕ) : Prop :=
  ∀ i i', p n i = .ok ((), i') →
    ∃ l, i.rest = l ++ i'.rest ∧ ∀ n', l.length ≤ n' → Parses (p n') l ()

lemma Steady.of_local {p : Reader Unit} (h : Local p) (n : ℕ) : Steady (fun _ => p) n := by
  intro i i' hi
  obtain ⟨l, hl, hparses⟩ := h i () i' hi
  exact ⟨l, hl, fun _ _ => hparses⟩

lemma steady_skipWith {n : ℕ} (hgroup : ∀ fieldNumber, Steady (skipGroup · fieldNumber) n)
    (wireType fieldNumber : ℕ) :
    Steady (fun n => skipWith (skipGroup n) wireType fieldNumber) n := by
  match wireType with
  | 0 => exact .of_local (local_varint.bind fun _ => local_pure _) n
  | 1 => exact .of_local ((local_slice 8).bind fun _ => local_pure _) n
  | 2 => exact .of_local (local_lengthDelimited.bind fun _ => local_pure _) n
  | 3 => exact hgroup fieldNumber
  | 4 => exact .of_local (local_fail _) n
  | 5 => exact .of_local ((local_slice 4).bind fun _ => local_pure _) n
  | _ + 6 => exact .of_local (local_fail _) n

lemma steady_skipGroup (n fieldNumber : ℕ) : Steady (skipGroup · fieldNumber) n := by
  induction n generalizing fieldNumber with
  | zero =>
    intro i i' hi
    cases hi
  | succ n ih =>
    intro i i' hi
    simp only [skipGroup, unlessDone] at hi
    split_ifs at hi
    obtain ⟨t, j, ht, hi⟩ := bind_eq_ok.mp hi
    obtain ⟨l, hl, htag⟩ := local_tag i t j ht
    have hne := consumes_tag l t htag
    have hpos := length_pos_iff.mpr hne
    split_ifs at hi with hend hnumber
    · cases hi
    · obtain ⟨-, rfl⟩ := Prod.mk.inj (Except.ok.inj hi)
      refine ⟨l, hl, fun n' hn' => ?_⟩
      obtain ⟨n', rfl⟩ := Nat.exists_eq_add_of_le' (show 1 ≤ n' by omega)
      refine Parses.unlessDone (htag.bind_nil ?_) hne _
      rw [if_pos hend, if_neg hnumber]
      exact parses_pure _
    · obtain ⟨⟨⟩, j', hskip, hi⟩ := bind_eq_ok.mp hi
      obtain ⟨l₁, hl₁, hpayload⟩ := steady_skipWith ih _ _ j j' hskip
      obtain ⟨l₂, hl₂, hgroup⟩ := ih fieldNumber j' i' hi
      refine ⟨l ++ (l₁ ++ l₂), by rw [hl, hl₁, hl₂]; simp only [append_assoc], ?_⟩
      intro n' hn'
      simp only [length_append] at hn'
      obtain ⟨n', rfl⟩ := Nat.exists_eq_add_of_le' (show 1 ≤ n' by omega)
      refine Parses.unlessDone (htag.bind ?_) (by simp [hne]) _
      rw [if_neg hend]
      exact (hpayload n' (by omega)).bind (hgroup n' (by omega))

lemma local_skip (wireType fieldNumber : ℕ) : Local (skip wireType fieldNumber) := by
  intro i x i' h
  obtain ⟨l, hl, hparses⟩ := steady_skipWith (steady_skipGroup _) wireType fieldNumber i i' h
  refine ⟨l, hl, fun m k => ?_⟩
  exact hparses (l ++ m).length (by simp) m k

/-! ## What is written is read -/

variable {l : List UInt8} {v : ℕ}

lemma parses_varintLoop (hl : Varint l v) {n shift value : ℕ} (hn : l.length ≤ n)
    (hshift : shift + 7 * n = 70) (hvalue : value < 2 ^ shift)
    (hlt : value + v * 2 ^ shift < 2 ^ 64) :
    Parses (varintLoop n shift value) l (value + v * 2 ^ shift) := by
  induction hl generalizing n shift value with
  | @last b hb =>
    obtain ⟨n, rfl⟩ := Nat.exists_eq_add_of_le' (show 1 ≤ n from hn)
    have hbits : ¬ (shift = 63 ∧ 1 < b.toNat) := by
      rintro ⟨rfl, hb'⟩
      omega
    refine Parses.bind_nil (parses_next _ b).located ?_
    rw [if_neg hbits, if_pos hb, or_shiftLeft hvalue, Nat.mod_eq_of_lt hb]
    exact parses_pure _
  | @more b l v hb hl ih =>
    obtain ⟨n, rfl⟩ := Nat.exists_eq_add_of_le' (show 1 ≤ n by simp at hn; omega)
    have hpos := length_pos_iff.mpr hl.ne_nil
    rw [length_cons] at hn
    have hbits : ¬ (shift = 63 ∧ 1 < b.toNat) := by
      omega
    have hpow : 2 ^ (shift + 7) = 2 ^ shift * 0x80 := pow_add 2 shift 7
    have hval : value + (b.toNat % 0x80 + 0x80 * v) * 2 ^ shift =
        value + b.toNat % 0x80 * 2 ^ shift + v * 2 ^ (shift + 7) := by
      ring
    have hdigit : value + b.toNat % 0x80 * 2 ^ shift < 2 ^ (shift + 7) := by
      have hmod : b.toNat % 0x80 + 1 ≤ 0x80 := Nat.mod_lt _ (by decide)
      calc value + b.toNat % 0x80 * 2 ^ shift < (b.toNat % 0x80 + 1) * 2 ^ shift := by
            rw [Nat.add_mul]
            omega
        _ ≤ 0x80 * 2 ^ shift := Nat.mul_le_mul_right _ hmod
        _ = 2 ^ (shift + 7) := by rw [hpow, Nat.mul_comm]
    refine Parses.bind (parses_next _ b).located ?_
    rw [if_neg hbits, if_neg (Nat.not_lt.mpr hb), or_shiftLeft hvalue, hval]
    exact ih (by omega) (by omega) hdigit (by rwa [← hval])

lemma parses_varint (hl : Varint l v) (hlength : l.length ≤ 10) (hv : v < 2 ^ 64) :
    Parses varint l v := by
  have h : Parses (varintLoop 10 0 0) l (0 + v * 2 ^ 0) :=
    parses_varintLoop hl hlength rfl (by decide) (by omega)
  rw [Nat.zero_add, pow_zero, Nat.mul_one] at h
  exact h.locate

lemma parses_varint_varint (hv : v < 2 ^ 64) : Parses varint (Wire.varint v) v := by
  obtain ⟨hvarint, hlength⟩ := varint_varint hv
  exact parses_varint hvarint hlength hv

/-- The bytes are a tag, with a number and a wire type that are in use. -/
structure IsTag (l : List UInt8) (number wireType : ℕ) : Prop where
  varint : Varint l (number * 8 + wireType)
  length_le : l.length ≤ 10
  pos : 1 ≤ number
  number_le : number ≤ maxFieldNumber
  wireType_le : wireType ≤ 5

variable {number wireType : ℕ} {b : List UInt8}

lemma parses_tag (h : IsTag l number wireType) : Parses tag l ⟨number, wireType⟩ := by
  obtain ⟨hvarint, hlength, hpos, hnumber, hwire⟩ := h
  have hdiv : (number * 8 + wireType) / 8 = number := by omega
  have hmod : (number * 8 + wireType) % 8 = wireType := by omega
  have hlt : number * 8 + wireType < 2 ^ 64 := by
    unfold maxFieldNumber at hnumber
    omega
  refine Parses.locate (Parses.bind_nil (parses_varint hvarint hlength hlt).located ?_)
  rw [hdiv, hmod, if_neg (by omega), if_neg (by omega)]
  exact parses_pure _

lemma isTag_tag (hpos : 1 ≤ number) (hnumber : number ≤ maxFieldNumber) (hwire : wireType ≤ 5) :
    IsTag (Writer.tag number wireType) number wireType := by
  have hlt : number * 8 + wireType < 2 ^ 64 := by
    unfold maxFieldNumber at hnumber
    omega
  obtain ⟨hvarint, hlength⟩ := varint_varint hlt
  exact ⟨hvarint, hlength, hpos, hnumber, hwire⟩

lemma parses_lengthDelimited (hl : Varint l b.length) (hlength : l.length ≤ 10)
    (hb : b.length ≤ maxSafeInteger) : Parses lengthDelimited (l ++ b) b := by
  have hlt : b.length < 2 ^ 64 := by
    unfold maxSafeInteger at hb
    omega
  rw [lengthDelimited_eq]
  refine Parses.bind (Parses.locate (Parses.bind_nil (parses_varint hl hlength hlt).located ?_))
    (parses_slice _ b)
  rw [if_neg (Nat.not_lt.mpr hb)]
  exact parses_pure _

lemma parses_lengthDelimited_lengthDelimited (hb : b.length ≤ maxSafeInteger) :
    Parses lengthDelimited (Writer.lengthDelimited b) b := by
  have hlt : b.length < 2 ^ 64 := by
    unfold maxSafeInteger at hb
    omega
  obtain ⟨hvarint, hlength⟩ := varint_varint hlt
  exact parses_lengthDelimited hvarint hlength hb

lemma parses_slice_of_length {n : ℕ} (h : l.length = n) : Parses (slice n) l l := by
  rw [← h]
  exact parses_slice _ l

lemma parses_word (n v : ℕ) : Parses (slice n) (littleEndian n v) (littleEndian n v) :=
  parses_slice_of_length (length_littleEndian n v)

variable {z : ℤ}

lemma parses_fixed32 (h : 0 ≤ z) (h' : z < 2 ^ 32) :
    Parses (fixed32 false) (Writer.fixed32 z) z := by
  obtain ⟨v, rfl⟩ := Int.eq_ofNat_of_zero_le h
  have hv : v < 2 ^ 32 := by exact_mod_cast h'
  refine Parses.bind_nil (parses_word 4 _) ?_
  rw [asUintN_of_lt hv, ofLittleEndian_littleEndian hv]
  exact parses_pure _

lemma parses_sfixed32 (h : -2 ^ 31 ≤ z) (h' : z < 2 ^ 31) :
    Parses (fixed32 true) (Writer.fixed32 z) z := by
  refine Parses.bind_nil (parses_word 4 _) ?_
  rw [ofLittleEndian_littleEndian (asUintN_lt 32 z), if_pos rfl,
    asIntN_asUintN (Nat.le_refl 32) h h']
  exact parses_pure _

lemma parses_fixed64 (h : 0 ≤ z) (h' : z < 2 ^ 64) :
    Parses (fixed64 false) (Writer.fixed64 z) z := by
  obtain ⟨v, rfl⟩ := Int.eq_ofNat_of_zero_le h
  have hv : v < 2 ^ 64 := by exact_mod_cast h'
  refine Parses.bind_nil (parses_word 8 _) ?_
  rw [asUintN_of_lt hv, ofLittleEndian_littleEndian hv]
  exact parses_pure _

lemma parses_sfixed64 (h : -2 ^ 63 ≤ z) (h' : z < 2 ^ 63) :
    Parses (fixed64 true) (Writer.fixed64 z) z := by
  refine Parses.bind_nil (parses_word 8 _) ?_
  rw [ofLittleEndian_littleEndian (asUintN_lt 64 z), if_pos rfl,
    asIntN_asUintN (Nat.le_refl 64) h h']
  exact parses_pure _

lemma parses_double (x : Double) : Parses double (Writer.double x) x := by
  refine Parses.bind_nil (parses_word 8 _) ?_
  rw [ofLittleEndian_littleEndian x.bits_lt, Double.ofBits_bits]
  exact parses_pure _

mutual

/-- What may stand behind a tag with this number and wire type. -/
inductive Payload : ℕ → ℕ → List UInt8 → Prop
  | varint {number v : ℕ} {l : List UInt8} (hl : Varint l v) (hlength : l.length ≤ 10)
      (hv : v < 2 ^ 64) : Payload number 0 l
  | fixed64 {number : ℕ} {l : List UInt8} (hlength : l.length = 8) : Payload number 1 l
  | lengthDelimited {number : ℕ} {l b : List UInt8} (hl : Varint l b.length)
      (hlength : l.length ≤ 10) (hb : b.length ≤ maxSafeInteger) : Payload number 2 (l ++ b)
  | group {number : ℕ} {l : List UInt8} (hl : Group number l) : Payload number 3 l
  | fixed32 {number : ℕ} {l : List UInt8} (hlength : l.length = 4) : Payload number 5 l

/-- The records of a group, with the tag that ends it. -/
inductive Group : ℕ → List UInt8 → Prop
  | done {number : ℕ} {l : List UInt8} (hl : IsTag l number 4) : Group number l
  | record {number number' wireType : ℕ} {t l l' : List UInt8} (ht : IsTag t number' wireType)
      (hl : Payload number' wireType l) (hl' : Group number l') : Group number (t ++ (l ++ l'))

end

mutual

lemma parses_skipWith {number wireType : ℕ} {l : List UInt8} (h : Payload number wireType l)
    {n : ℕ} (hn : l.length ≤ n) : Parses (skipWith (skipGroup n) wireType number) l () := by
  cases h with
  | varint hl hlength hv => exact (parses_varint hl hlength hv).bind_nil (parses_pure _)
  | fixed64 hlength | fixed32 hlength =>
    exact (parses_slice_of_length hlength).bind_nil (parses_pure _)
  | lengthDelimited hl hlength hb =>
    exact (parses_lengthDelimited hl hlength hb).bind_nil (parses_pure _)
  | group hl => exact parses_skipGroup hl hn

lemma parses_skipGroup {number : ℕ} {l : List UInt8} (h : Group number l) {n : ℕ}
    (hn : l.length ≤ n) : Parses (skipGroup n number) l () := by
  cases h with
  | done hl =>
    have hne := hl.varint.ne_nil
    have hpos := length_pos_iff.mpr hne
    obtain ⟨n, rfl⟩ := Nat.exists_eq_add_of_le' (show 1 ≤ n by omega)
    refine Parses.unlessDone ((parses_tag hl).bind_nil ?_) hne _
    rw [if_pos rfl, if_neg (not_not_intro rfl)]
    exact parses_pure _
  | @record _ number' wireType t l l' ht hl hl' =>
    have hne := ht.varint.ne_nil
    have hpos := length_pos_iff.mpr hne
    have hwire : wireType ≠ 4 := by
      rintro rfl
      cases hl
    simp only [length_append] at hn
    obtain ⟨n, rfl⟩ := Nat.exists_eq_add_of_le' (show 1 ≤ n by omega)
    refine Parses.unlessDone ((parses_tag ht).bind ?_) (by simp [hne]) _
    rw [if_neg hwire]
    exact (parses_skipWith hl (by omega)).bind (parses_skipGroup hl' (by omega))

end

lemma parses_skip (h : Payload number wireType l) : Parses (skip wireType number) l () :=
  fun m k => parses_skipWith h (by simp) m k

end Reader

end Fino.Protobuf
