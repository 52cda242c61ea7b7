import Fino.Data.TextDecoder
import Fino.Protobuf.Codec

/-!
# Leaf types of Parquet columns

What `arrowTypeToParquet` of `js/data/parquet/schema.ts` says of the Arrow types that are stored in
one column: the physical type, its annotations and two converters. `decode` undoes `encode` for the
values of a type (`decode_encode`), but not for texts, which reach a `TextDecoder` as strings
(`decode_encode_utf8`).
-/

namespace Fino.Parquet

open Lib Lib.Wire Double
open Protobuf (Value)

/-! ## Half precision -/

/-- The number that `getFloat16` reads. There is a single `NaN` in ECMAScript. -/
def ofHalf (h : ℕ) : Double :=
  let sign := h / 2 ^ 15 % 2
  let exponent := h / 2 ^ 10 % 2 ^ 5
  let mantissa := h % 2 ^ 10
  if exponent = 31 ∧ mantissa ≠ 0 then .ofBits (2047 * 2 ^ 52 + 2 ^ 51)
  else .ofBits (sign * 2 ^ 63 +
    if exponent = 31 then 2047 * 2 ^ 52
    else if exponent ≠ 0 then (exponent + 1008) * 2 ^ 52 + mantissa * 2 ^ 42
    else if mantissa = 0 then 0
    else (Nat.log2 mantissa + 999) * 2 ^ 52 +
      (mantissa * 2 ^ (52 - Nat.log2 mantissa) - 2 ^ 52))

/-- A quotient by a power of two, rounded to the nearest integer, and to the even one of two. -/
def roundShift (n k : ℕ) : ℕ :=
  let q := n / 2 ^ k
  let r := 2 * (n % 2 ^ k)
  if 2 ^ k < r ∨ (r = 2 ^ k ∧ q % 2 = 1) then q + 1 else q

/-- The number that `setFloat16` writes. -/
def toHalf (x : Double) : ℕ :=
  let sign := if x.sign then 2 ^ 15 else 0
  let significand := 2 ^ 52 + x.mantissa
  if x.exponent = 2047 then
    if x.mantissa = 0 then sign + 31 * 2 ^ 10 else 31 * 2 ^ 10 + 2 ^ 9
  else if 1009 ≤ x.exponent then
    sign + min (31 * 2 ^ 10) ((x.exponent - 1009) * 2 ^ 10 + roundShift significand 42)
  else if x.exponent = 0 then sign
  else sign + roundShift significand (1051 - x.exponent)

lemma roundShift_mul (n k : ℕ) : roundShift (n * 2 ^ k) k = n := by
  have hpos := Nat.two_pow_pos k
  simp only [roundShift, Nat.mul_div_cancel _ hpos, Nat.mul_mod_left]
  rw [if_neg (by omega)]

lemma parts_ofBits {s m : ℕ} (hs : s < 2) (hm : m < 2 ^ 63) :
    (ofBits (s * 2 ^ 63 + m)).sign = decide (s = 1) ∧
      (ofBits (s * 2 ^ 63 + m)).exponent = m / 2 ^ 52 ∧
        (ofBits (s * 2 ^ 63 + m)).mantissa = m % 2 ^ 52 := by
  have hmagnitude : (ofBits (s * 2 ^ 63 + m)).magnitude = m := by
    simp only [magnitude, ofBits]
    omega
  refine ⟨?_, by rw [exponent, hmagnitude], by rw [mantissa, hmagnitude]⟩
  rw [sign, decide_eq_decide]
  simp only [ofBits]
  omega

lemma ofHalf_toHalf {h : ℕ} (hlt : h < 2 ^ 16) : ofHalf (toHalf (ofHalf h)) = ofHalf h := by
  by_cases hnan : h / 2 ^ 10 % 2 ^ 5 = 31 ∧ h % 2 ^ 10 ≠ 0
  · simp only [ofHalf, if_pos hnan]
    decide
  suffices hsuff : toHalf (ofHalf h) = h by rw [hsuff]
  have hs : h / 2 ^ 15 % 2 < 2 := Nat.mod_lt _ (by decide)
  simp only [ofHalf, if_neg hnan]
  split_ifs with hinf hnormal hzero
  · -- Infinity.
    obtain ⟨hsign, hexponent, hmantissa⟩ := parts_ofBits hs (m := 2047 * 2 ^ 52) (by decide)
    simp only [toHalf, hsign, hexponent, hmantissa]
    rw [if_pos (by decide), if_pos (by decide)]
    split_ifs with h1 <;> simp only [decide_eq_true_eq] at h1 <;> omega
  · -- A normal number keeps its ten bits.
    obtain ⟨hsign, hexponent, hmantissa⟩ := parts_ofBits hs
      (m := (h / 2 ^ 10 % 2 ^ 5 + 1008) * 2 ^ 52 + h % 2 ^ 10 * 2 ^ 42) (by omega)
    have he : ((h / 2 ^ 10 % 2 ^ 5 + 1008) * 2 ^ 52 + h % 2 ^ 10 * 2 ^ 42) / 2 ^ 52 =
        h / 2 ^ 10 % 2 ^ 5 + 1008 := by omega
    have hm : 2 ^ 52 + ((h / 2 ^ 10 % 2 ^ 5 + 1008) * 2 ^ 52 + h % 2 ^ 10 * 2 ^ 42) % 2 ^ 52 =
        (2 ^ 10 + h % 2 ^ 10) * 2 ^ 42 := by omega
    simp only [toHalf, hsign, hexponent, hmantissa, he, hm, roundShift_mul]
    rw [if_neg (by omega), if_pos (by omega)]
    split_ifs with h1 <;> simp only [decide_eq_true_eq] at h1 <;> omega
  · -- Zero.
    obtain ⟨hsign, hexponent, hmantissa⟩ := parts_ofBits hs (m := 0) (by decide)
    simp only [toHalf, hsign, hexponent, hmantissa]
    rw [if_neg (by decide), if_neg (by decide), if_pos (by decide)]
    split_ifs with h1 <;> simp only [decide_eq_true_eq] at h1 <;> omega
  · -- A subnormal number becomes a normal double, and its bits are shifted back.
    have hlt' : h % 2 ^ 10 < 2 ^ 10 := Nat.mod_lt _ (by decide)
    obtain ⟨-, hlow, hhigh⟩ := normalize hzero (by omega)
    have hlog : Nat.log2 (h % 2 ^ 10) < 10 := (Nat.log2_lt hzero).mpr hlt'
    generalize hk : Nat.log2 (h % 2 ^ 10) = k at hlow hhigh hlog ⊢
    generalize hn : h % 2 ^ 10 * 2 ^ (52 - k) = n at hlow hhigh ⊢
    obtain ⟨hsign, hexponent, hmantissa⟩ := parts_ofBits hs
      (m := (k + 999) * 2 ^ 52 + (n - 2 ^ 52)) (by omega)
    have he : ((k + 999) * 2 ^ 52 + (n - 2 ^ 52)) / 2 ^ 52 = k + 999 := by omega
    have hm : 2 ^ 52 + ((k + 999) * 2 ^ 52 + (n - 2 ^ 52)) % 2 ^ 52 = n := by omega
    have hshift : 1051 - (k + 999) = 52 - k := by omega
    simp only [toHalf, hsign, hexponent, hmantissa, he, hm, hshift]
    rw [if_neg (by omega), if_neg (by omega), if_neg (by omega), ← hn, roundShift_mul]
    split_ifs with h1 <;> simp only [decide_eq_true_eq] at h1 <;> omega

def numberToFloat16Bytes (x : Double) : List UInt8 := littleEndian 2 (toHalf x)

/-- `float16BytesToNumber`; missing bytes are zero. -/
def float16BytesToNumber (bytes : List UInt8) : Double := ofHalf (ofLittleEndian (bytes.take 2))

lemma roundShift_le {n k m : ℕ} (h : n ≤ m * 2 ^ k) : roundShift n k ≤ m := by
  have hdiv : n / 2 ^ k ≤ m := Nat.div_le_of_le_mul (by rwa [Nat.mul_comm] at h)
  have hmod := Nat.div_add_mod n (2 ^ k)
  simp only [roundShift]
  split_ifs with hround
  · by_contra hlt
    have heq : n / 2 ^ k = m := by omega
    rw [heq, Nat.mul_comm] at hmod
    omega
  · exact hdiv

lemma toHalf_lt (x : Double) : toHalf x < 0x100 ^ 2 := by
  have hm : x.mantissa < 2 ^ 52 := Nat.mod_lt _ (by decide)
  have hsmall : x.exponent < 1009 →
      roundShift (2 ^ 52 + x.mantissa) (1051 - x.exponent) ≤ 2 ^ 11 := by
    intro hlt
    refine roundShift_le ?_
    have hpow : 2 ^ 42 ≤ 2 ^ (1051 - x.exponent) := Nat.pow_le_pow_right (by decide) (by omega)
    omega
  simp only [toHalf]
  split_ifs with h1 h2 h3 h4
  all_goals omega

lemma float16BytesToNumber_numberToFloat16Bytes {h : ℕ} (hlt : h < 2 ^ 16) :
    float16BytesToNumber (numberToFloat16Bytes (ofHalf h)) = ofHalf h := by
  have hbytes := ofLittleEndian_littleEndian (toHalf_lt (ofHalf h))
  rw [float16BytesToNumber, numberToFloat16Bytes,
    List.take_of_length_le (length_littleEndian _ _).le, hbytes, ofHalf_toHalf hlt]

def decimalBytesToBigInt (bytes : List UInt8) : ℤ :=
  let value : ℤ := ofLittleEndian bytes.reverse
  if bytes ≠ [] ∧ 128 ≤ (bytes.headD 0).toNat then value - 2 ^ (8 * bytes.length) else value

def bigIntToDecimalBytes (value : ℤ) (byteLength : ℕ) : List UInt8 :=
  let v := if value < 0 then value + 2 ^ (8 * byteLength) else value
  (littleEndian byteLength (asUintN (8 * byteLength) v)).reverse

lemma littleEndian_succ (n v : ℕ) :
    littleEndian (n + 1) v = littleEndian n v ++ [UInt8.ofNat (v / 0x100 ^ n % 0x100)] := by
  induction n generalizing v with
  | zero => rw [littleEndian, littleEndian, littleEndian, pow_zero, Nat.div_one]; rfl
  | succ n ih =>
    rw [littleEndian, ih, littleEndian, List.cons_append, Nat.div_div_eq_div_mul, pow_succ']

lemma decimalBytesToBigInt_bigIntToDecimalBytes {n : ℕ} {z : ℤ} (hlow : -2 ^ (8 * n + 7) ≤ z)
    (hhigh : z < 2 ^ (8 * n + 7)) :
    decimalBytesToBigInt (bigIntToDecimalBytes z (n + 1)) = z := by
  have hpow : (2 : ℤ) ^ (8 * (n + 1)) = 2 * 2 ^ (8 * n + 7) := by
    rw [← pow_succ']
    congr 1
  obtain ⟨v, hv⟩ : ∃ v : ℕ, (v : ℤ) = if z < 0 then z + 2 ^ (8 * (n + 1)) else z := by
    refine ⟨(if z < 0 then z + 2 ^ (8 * (n + 1)) else z).toNat, Int.toNat_of_nonneg ?_⟩
    split_ifs <;> omega
  have hlt : v < 2 ^ (8 * (n + 1)) := by
    zify
    rw [hv]
    split_ifs <;> omega
  have hlt' : v < 0x100 ^ (n + 1) := by
    rwa [show 0x100 = 2 ^ 8 from rfl, ← pow_mul]
  have hhead : 128 ≤ v / 0x100 ^ n ↔ 2 ^ (8 * n + 7) ≤ v := by
    rw [Nat.le_div_iff_mul_le (by positivity), show 0x100 = 2 ^ 8 from rfl, ← pow_mul,
      show 128 = 2 ^ 7 from rfl, ← pow_add, Nat.add_comm 7]
  have hbyte : v / 0x100 ^ n < 0x100 := Nat.div_lt_of_lt_mul (by rwa [pow_succ] at hlt')
  simp only [bigIntToDecimalBytes, ← hv, asUintN_of_lt hlt]
  rw [decimalBytesToBigInt, List.reverse_reverse, ofLittleEndian_littleEndian hlt',
    List.length_reverse, length_littleEndian, littleEndian_succ, List.reverse_concat,
    List.headD_cons, UInt8.toNat_ofNat', Nat.mod_mod, Nat.mod_eq_of_lt hbyte]
  simp only [hhead, ne_eq, reduceCtorEq, not_false_eq_true, true_and]
  zify
  split_ifs <;> omega

inductive PType
  | boolean | int32 | int64 | int96 | float | double | byteArray | fixedLenByteArray
deriving DecidableEq

inductive ConvertedType
  | utf8 | map | mapKeyValue | list | enum | decimal | date | timeMillis | timeMicros
  | timestampMillis | timestampMicros | uint8 | uint16 | uint32 | uint64 | int8 | int16 | int32
  | int64 | json | bson | interval
deriving DecidableEq

/-- `TimeUnit` of Arrow. -/
inductive TimeUnit
  | second | millisecond | microsecond | nanosecond
deriving DecidableEq

/-- `TimeUnitId` of Parquet. -/
inductive TimeUnitId
  | millis | micros | nanos
deriving DecidableEq

/-- `LogicalType`; `other` stands for the kinds that nothing here looks at. -/
inductive LogicalType
  | string
  | map
  | list
  | decimal (scale : ℤ) (precision : ℕ)
  | date
  | time (isAdjustedToUTC : Bool) (unit : TimeUnitId)
  | timestamp (isAdjustedToUTC : Bool) (unit : TimeUnitId)
  | integer (bitWidth : ℕ) (isSigned : Bool)
  | float16
  | other
deriving DecidableEq

inductive DateUnit
  | day | millisecond
deriving DecidableEq

inductive DecimalWidth
  | w32 | w64 | w128 | w256
deriving DecidableEq

/-- The number of bits of a decimal, without the sign. -/
def DecimalWidth.bits : DecimalWidth → ℕ
  | w32 => 31
  | w64 => 63
  | w128 => 127
  | w256 => 255

inductive Precision
  | half | single | double
deriving DecidableEq

inductive LeafType
  | bool
  | int (bitWidth : ℕ) (signed : Bool)
  | float (precision : Precision)
  | decimal (precision : ℕ) (scale : ℤ) (bitWidth : DecimalWidth)
  | utf8
  | binary
  | fixedSizeBinary (byteWidth : ℕ)
  | date (unit : DateUnit)
  | time (unit : TimeUnit) (bitWidth : ℕ)
  | timestamp (unit : TimeUnit) (timezone : Option String)
  | other (kind : String)
deriving DecidableEq

inductive ParquetError
  | unmapped (kind : String)
  | truncated
  | unsupported (type : Option PType)
  | notBytes
  | notInteger
  | notObject
deriving DecidableEq

/-! ## Converters -/

/-- How the values of a leaf are stored and converted, and its annotations in the schema. -/
structure ParquetTypeInfo where
  physicalType : PType
  convertedType : Option ConvertedType := none
  logicalType : Option LogicalType := none
  typeLength : Option ℕ := none
  scale : Option ℤ := none
  precision : Option ℕ := none
  decode : Value → Except ParquetError Value := .ok
  encode : Value → Value := id

/-- `_decoder.decode`, for a value that is neither `undefined` nor `null`. -/
def decodeText : Value → Except ParquetError Value
  | .bytes l => .ok (.string (TextDecoder.decode l))
  | _ => .error .notBytes

/-- `bytesToBig` for bytes. -/
def decodeDecimal : Value → Except ParquetError Value
  | .bytes l => .ok (.bigint (decimalBytesToBigInt l))
  | _ => .error .notInteger

def bytesToBig : Value → Except ParquetError Value
  | .bigint z => .ok (.bigint z)
  | .number x => x.toInt?.elim (.error .notInteger) fun z => .ok (.bigint z)
  | v => decodeDecimal v

/-- `Number(v)`, for a `bigint`. -/
def encodeNumber : Value → Value
  | .bigint z => .number (.ofInt z)
  | v => v

def encodeDecimal (len : ℕ) : Value → Value
  | .bigint z => .bytes (bigIntToDecimalBytes z len)
  | v => v

def encodeHalf : Value → Value
  | .number x => .bytes (numberToFloat16Bytes x)
  | v => v

def decodeHalf : Value → Except ParquetError Value
  | .bytes l => .ok (.number (float16BytesToNumber l))
  | _ => .ok (.number (float16BytesToNumber []))

def intConverted (bitWidth : ℕ) (signed : Bool) : ConvertedType :=
  if signed then
    if bitWidth = 8 then .int8 else if bitWidth = 16 then .int16
    else if bitWidth = 32 then .int32 else .int64
  else
    if bitWidth = 8 then .uint8 else if bitWidth = 16 then .uint16
    else if bitWidth = 32 then .uint32 else .uint64

/-- The Parquet unit of times and timestamps that are not in seconds. -/
def TimeUnit.id : TimeUnit → TimeUnitId
  | millisecond => .millis
  | nanosecond => .nanos
  | second | microsecond => .micros

/-- `type.kind`. -/
def LeafType.kind : LeafType → String
  | bool => "bool"
  | int _ _ => "int"
  | float _ => "float"
  | decimal _ _ _ => "decimal"
  | utf8 => "utf8"
  | binary => "binary"
  | fixedSizeBinary _ => "fixedsizebinary"
  | date _ => "date"
  | time _ _ => "time"
  | timestamp _ _ => "timestamp"
  | other kind => kind

/-- What `arrowTypeToParquet` says of a decimal of many bytes. -/
def wideDecimal (precision : ℕ) (scale : ℤ) (len : ℕ) : ParquetTypeInfo :=
  { physicalType := .fixedLenByteArray
    typeLength := some len
    convertedType := some .decimal
    logicalType := some (.decimal scale precision)
    decode := decodeDecimal
    encode := encodeDecimal len }

def arrowTypeToParquet (type : LeafType) : Except ParquetError ParquetTypeInfo :=
  match type with
  | .bool => .ok { physicalType := .boolean }
  | .int bitWidth signed => .ok
    { physicalType := if bitWidth ≤ 32 then .int32 else .int64
      convertedType := some (intConverted bitWidth signed)
      logicalType := some (.integer bitWidth signed) }
  | .float .half => .ok
    { physicalType := .fixedLenByteArray
      typeLength := some 2
      logicalType := some .float16
      decode := decodeHalf
      encode := encodeHalf }
  | .float .single => .ok { physicalType := .float }
  | .float .double => .ok { physicalType := .double }
  | .decimal precision scale .w32 => .ok
    { physicalType := .int32
      convertedType := some .decimal
      logicalType := some (.decimal scale precision)
      scale := some scale
      precision := some precision
      decode := bytesToBig
      encode := encodeNumber }
  | .decimal precision scale .w64 => .ok
    { physicalType := .int64
      convertedType := some .decimal
      logicalType := some (.decimal scale precision)
      decode := bytesToBig }
  | .decimal precision scale .w128 => .ok (wideDecimal precision scale 16)
  | .decimal precision scale .w256 => .ok (wideDecimal precision scale 32)
  | .utf8 => .ok
    { physicalType := .byteArray
      convertedType := some .utf8
      logicalType := some .string
      decode := decodeText }
  | .binary => .ok { physicalType := .byteArray }
  | .fixedSizeBinary byteWidth => .ok
    { physicalType := .fixedLenByteArray, typeLength := some byteWidth }
  | .date .day => .ok
    { physicalType := .int32, convertedType := some .date, logicalType := some .date }
  | .time unit bitWidth =>
    if unit = .second then .error (.unmapped type.kind)
    else if bitWidth = 32 then .ok
      { physicalType := .int32
        convertedType := some .timeMillis
        logicalType := some (.time false unit.id) }
    else .ok
      { physicalType := .int64
        convertedType := if unit.id = .micros then some .timeMicros else none
        logicalType := some (.time false unit.id) }
  | .timestamp unit timezone => .ok
    { physicalType := .int64
      convertedType :=
        if unit = .millisecond then some .timestampMillis
        else if unit = .microsecond then some .timestampMicros
        else none
      logicalType := some (.timestamp timezone.isSome unit.id) }
  | .date .millisecond | .other _ => .error (.unmapped type.kind)

/-- The type has the value. -/
def LeafType.Holds : LeafType → Value → Prop
  | bool, v => ∃ b, v = .bool b
  | int bitWidth _, v => if bitWidth ≤ 32 then ∃ x, v = .number x else ∃ z, v = .bigint z
  | float .half, v => ∃ h < 2 ^ 16, v = .number (ofHalf h)
  | float _, v => ∃ x, v = .number x
  | decimal _ _ bitWidth, v => ∃ z, v = .bigint z ∧ -2 ^ bitWidth.bits ≤ z ∧ z < 2 ^ bitWidth.bits
  | utf8, v => ∃ s, v = .string s
  | binary, v => ∃ l, v = .bytes l
  | fixedSizeBinary byteWidth, v => ∃ l, v = .bytes l ∧ l.length = byteWidth
  | date _, v => ∃ x, v = .number x
  | time _ bitWidth, v => if bitWidth = 32 then ∃ x, v = .number x else ∃ z, v = .bigint z
  | timestamp _ _, v => ∃ z, v = .bigint z
  | other _, _ => False

/-- `value === null || value === undefined`. -/
def isNullish : Value → Bool
  | .null | .undefined => true
  | _ => false

variable {type : LeafType} {v : Value}

lemma LeafType.Holds.not_isNullish (h : type.Holds v) : isNullish v = false := by
  cases type with
  | int bitWidth _ | time _ bitWidth =>
    simp only [Holds] at h
    split_ifs at h <;> (obtain ⟨x, rfl⟩ := h; rfl)
  | float precision =>
    cases precision with
    | half => obtain ⟨h, -, rfl⟩ := h; rfl
    | single | double => obtain ⟨x, rfl⟩ := h; rfl
  | decimal | fixedSizeBinary => obtain ⟨z, rfl, -⟩ := h; rfl
  | other => exact h.elim
  | _ => obtain ⟨x, rfl⟩ := h; rfl

/-- The types whose values are stored in another form. -/
def LeafType.isConverted : LeafType → Bool
  | float .half | decimal _ _ _ | utf8 => true
  | _ => false

variable {info : ParquetTypeInfo}

lemma converters_of_not_isConverted (hinfo : arrowTypeToParquet type = .ok info)
    (h : type.isConverted = false) :
    info.decode = .ok ∧ info.encode = id := by
  cases type with
  | float precision => cases precision <;> cases hinfo <;> first | exact ⟨rfl, rfl⟩ | cases h
  | decimal => cases h
  | utf8 => cases h
  | date unit => cases unit <;> cases hinfo; exact ⟨rfl, rfl⟩
  | time unit bitWidth =>
    simp only [arrowTypeToParquet] at hinfo
    split_ifs at hinfo <;> cases hinfo <;> exact ⟨rfl, rfl⟩
  | other => cases hinfo
  | _ => cases hinfo; exact ⟨rfl, rfl⟩

/-- What is stored for a value is there, and is decoded to it again, unless it is a text. -/
lemma decode_encode (hinfo : arrowTypeToParquet type = .ok info) (h : type.Holds v) :
    isNullish (info.encode v) = false ∧ (type ≠ .utf8 → info.decode (info.encode v) = .ok v) := by
  cases hconverted : type.isConverted with
  | false =>
    obtain ⟨hdecode, hencode⟩ := converters_of_not_isConverted hinfo hconverted
    rw [hdecode, hencode]
    exact ⟨h.not_isNullish, fun _ => rfl⟩
  | true =>
    cases type with
    | float precision =>
      cases precision with
      | half =>
        cases hinfo
        obtain ⟨n, hlt, rfl⟩ := h
        refine ⟨rfl, fun _ => ?_⟩
        simp only [encodeHalf, decodeHalf, float16BytesToNumber_numberToFloat16Bytes hlt]
      | _ => cases hconverted
    | decimal _ _ bitWidth =>
      obtain ⟨z, rfl, hlow, hhigh⟩ := h
      cases bitWidth with
      | w32 =>
        cases hinfo
        have hlt : z.natAbs < 2 ^ 53 := by
          simp only [DecimalWidth.bits] at hlow hhigh
          omega
        refine ⟨rfl, fun _ => ?_⟩
        simp only [encodeNumber, bytesToBig, toInt?_ofInt hlt, Option.elim_some]
      | w64 => cases hinfo; exact ⟨rfl, fun _ => rfl⟩
      | w128 =>
        cases hinfo
        refine ⟨rfl, fun _ => ?_⟩
        simp only [wideDecimal, encodeDecimal, decodeDecimal,
          decimalBytesToBigInt_bigIntToDecimalBytes (n := 15) hlow hhigh]
      | w256 =>
        cases hinfo
        refine ⟨rfl, fun _ => ?_⟩
        simp only [wideDecimal, encodeDecimal, decodeDecimal,
          decimalBytesToBigInt_bigIntToDecimalBytes (n := 31) hlow hhigh]
    | utf8 =>
      cases hinfo
      obtain ⟨s, rfl⟩ := h
      exact ⟨rfl, fun hne => absurd rfl hne⟩
    | _ => cases hconverted

lemma decode_encode_utf8 (hinfo : arrowTypeToParquet .utf8 = .ok info)
    (h : LeafType.utf8.Holds v) :
    info.decode (info.encode v) = .error .notBytes := by
  cases hinfo
  obtain ⟨s, rfl⟩ := h
  rfl

end Fino.Parquet
