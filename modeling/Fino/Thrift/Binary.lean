import Fino.Thrift.Bytes
import Fino.Thrift.Laws

/-!
# The binary protocol

`BinaryProtocol` of `js/internal/format/thrift/binary.ts`. Every item has its own bytes, without a
context. It keeps everything but a byte order mark at the beginning of a text.
-/

namespace Fino.Thrift.Binary

open Lib Lib.Framing Lib.Parser Lib.Wire ThriftValue TType

abbrev Writing := Writer ThriftError UInt8 Unit Unit

open ByteWriter ByteReader

def writeFieldBegin (type : TType) (id : ℤ) : Writing := do
  writeU8 type.code
  writeI16BE id

def writeFieldStop : Writing := writeU8 stop.code

def writeMapBegin (keyType valueType : TType) (size : ℕ) : Writing := do
  writeU8 keyType.code
  writeU8 valueType.code
  writeI32BE size

/-- `writeListBegin`, and `writeSetBegin`. -/
def writeListBegin (elemType : TType) (size : ℕ) : Writing := do
  writeU8 elemType.code
  writeI32BE size

def writeBool (value : Bool) : Writing := writeU8 (if value then 1 else 0)

def writeStringValue (value : String) : Writing := do
  writeI32BE (utf8 value).length
  writeBytes (utf8 value)

def readFieldBegin : ByteReader FieldHeader := do
  let type ← readU8
  if type = stop.code then return ⟨.stop, 0⟩
  else return ⟨.ofCode type, ← readI16BE⟩

def readMapBegin : ByteReader MapHeader := do
  let keyType ← readU8
  let valueType ← readU8
  return ⟨.ofCode keyType, .ofCode valueType, ← readI32BE⟩

/-- `readListBegin`, and `readSetBegin`. -/
def readListBegin : ByteReader ListHeader := do
  let elemType ← readU8
  return ⟨.ofCode elemType, ← readI32BE⟩

def readBool : ByteReader Bool := do return decide ((← readU8) ≠ 0)

def readStringValue : ByteReader String := do readString (← readI32BE)

/-- `BinaryProtocol`. -/
def protocol : Protocol where
  Symbol := UInt8
  WriteContext := Unit
  ReadContext := Unit
  initialWrite := ()
  initialRead := ()
  bytes := id
  symbols := id
  writeStructBegin := pure ()
  writeStructEnd := pure ()
  writeFieldBegin := writeFieldBegin
  writeFieldEnd := pure ()
  writeFieldStop := writeFieldStop
  writeMapBegin := writeMapBegin
  writeMapEnd := pure ()
  writeListBegin := writeListBegin
  writeListEnd := pure ()
  writeSetBegin := writeListBegin
  writeSetEnd := pure ()
  writeBool := writeBool
  writeByte := writeU8
  writeI16 := writeI16BE
  writeI32 := writeI32BE
  writeI64 := writeI64BE
  writeDouble := writeF64BE
  writeString := writeStringValue
  readStructBegin := pure ()
  readStructEnd := pure ()
  readFieldBegin := liftM readFieldBegin
  readFieldEnd := pure ()
  readMapBegin := liftM readMapBegin
  readMapEnd := pure ()
  readListBegin := liftM readListBegin
  readListEnd := pure ()
  readSetBegin := liftM readListBegin
  readSetEnd := pure ()
  readBool := liftM readBool
  readByte := liftM readI8
  readI16 := liftM readI16BE
  readI32 := liftM readI32BE
  readI64 := liftM readI64BE
  readDouble := liftM readF64BE
  readString := liftM readStringValue

/-! ## Its laws -/

/-- There is nothing to keep, and anything may follow. -/
def frame : Frame UInt8 Unit Unit Unit where
  Related _ _ _ := True
  Follows _ := True

variable {l : List UInt8} {type : TType} {w : Writing} {size : ℕ} {α : Type} {a : α}

section

variable (hw : Writes w () l ())

include hw

lemma moves {p : ByteReader α} (hp : Parses p l a) :
    Moves frame.Follows () () () () w (liftM p) (some a) :=
  moves_of_parses hw hp ()

lemma keeps {p : ByteReader α} (hp : Parses p l a) : frame.Keeps w (liftM p) (some a) :=
  fun _ _ _ _ => ⟨(), (), trivial, moves hw hp⟩

lemma encloses {p : ByteReader α} (hp : Parses p l a) :
    frame.Encloses w (liftM p) (some a) (pure ()) (pure ()) () :=
  fun _ _ _ _ => ⟨(), (), (), trivial, moves hw hp, fun _ _ _ => ⟨(), (), trivial, moves_pure ()⟩⟩

end

lemma parses_code (h : type.isValueType ∨ type = .stop) :
    Parses readU8 [UInt8.ofNat (asUintN 8 type.code)] type.code :=
  parses_readU8 (Nat.lt_trans (code_lt h) (by decide))

lemma parses_size (h : size < 2 ^ 31) : Parses readI32BE (bigEndian 4 (asUintN 32 size)) size :=
  parses_readIntBE (n := 3) (by omega) (by exact_mod_cast h)

lemma parses_listBegin {elemType : TType} (h : elemType.isValueType)
    (hsize : size < 2 ^ 31) :
    Parses readListBegin ([UInt8.ofNat (asUintN 8 elemType.code)] ++
      bigEndian 4 (asUintN 32 size)) ⟨elemType, size⟩ :=
  (parses_code (.inl h)).bind ((parses_size hsize).map (by rw [ofCode_code (.inl h)]))

lemma parses_mapBegin {keyType valueType : TType}
    (h : keyType.isValueType ∨ keyType = .stop)
    (h' : valueType.isValueType ∨ valueType = .stop) (hsize : size < 2 ^ 31) :
    Parses readMapBegin ([UInt8.ofNat (asUintN 8 keyType.code)] ++
      ([UInt8.ofNat (asUintN 8 valueType.code)] ++ bigEndian 4 (asUintN 32 size)))
      ⟨keyType, valueType, size⟩ :=
  (parses_code h).bind ((parses_code h').bind
    ((parses_size hsize).map (by rw [ofCode_code h, ofCode_code h'])))

lemma parses_fieldBegin {id : ℤ} (h : type.isValueType) (hid : InRange 15 id) :
    Parses readFieldBegin ([UInt8.ofNat (asUintN 8 type.code)] ++ bigEndian 2 (asUintN 16 id))
      ⟨type, id⟩ := by
  refine (parses_code (.inl h)).bind ?_
  have hcode : type.code ≠ stop.code := by
    intro hcode
    have heq := ofCode_code (.inl h)
    rw [hcode] at heq
    rw [← heq] at h
    cases h
  rw [if_neg hcode]
  exact (parses_readIntBE (n := 1) hid.1 hid.2).map (by rw [ofCode_code (.inl h)])

lemma parses_bool (value : Bool) :
    Parses readBool [UInt8.ofNat (asUintN 8 (if value then 1 else 0))] value := by
  cases value with
  | false => exact (parses_readU8 (v := 0) (by decide)).map rfl
  | true => exact (parses_readU8 (v := 1) (by decide)).map rfl

lemma parses_stop : Parses readFieldBegin [UInt8.ofNat (asUintN 8 stop.code)] ⟨.stop, 0⟩ :=
  (parses_code (.inr rfl)).bind_nil (parses_pure _)

lemma parses_string {value : String} (h : (utf8 value).length < 2 ^ 31) :
    Parses readStringValue (bigEndian 4 (asUintN 32 (utf8 value).length) ++ utf8 value)
      (dropMark value) :=
  (parses_size h).bind (parses_readString value)

lemma opens_struct (R : Unit → Unit → Prop) :
    frame.Opens R protocol.writeStructBegin protocol.readStructBegin (some ())
      protocol.endStruct protocol.endedStruct (⟨.stop, 0⟩, ()) := by
  intro c d hR
  refine ⟨(), (), (), trivial, moves_pure (), fun _ _ _ => ⟨c, d, hR, ?_⟩⟩
  exact (moves (writes_emit _ _) parses_stop).bind_some
    ((moves_pure ()).map fun ending => ((⟨.stop, 0⟩ : FieldHeader), ending))

lemma encloses_field {id : ℤ} (h : type.isValueType) (hid : InRange 15 id) :
    frame.Encloses (protocol.writeFieldBegin type id) protocol.readFieldBegin (some ⟨type, id⟩)
      protocol.writeFieldEnd protocol.readFieldEnd () :=
  encloses ((writes_emit _ _).bind (writes_emit _ _)) (parses_fieldBegin h hid)

lemma keeps_bool (value : Bool) :
    frame.Keeps (protocol.writeBool value) protocol.readBool (some value) :=
  keeps (writes_emit _ _) (parses_bool value)

def laws : Laws protocol where
  Key := Unit
  frame := frame
  text := dropMark
  emptyMap keyType valueType := some (keyType, valueType)
  length_text := length_utf8_dropMark
  emptyMap_typed h htypes := by
    cases h
    exact htypes
  follows_nil := trivial
  symbols_bytes _ _ _ _ := rfl
  root := opens_struct _
  struct key := opens_struct _
  field h _ hid := encloses_field h hid
  boolField value hid := keeps_boolField (encloses_field rfl hid) (keeps_bool value)
  list h hsize := encloses ((writes_emit _ _).bind (writes_emit _ _)) (parses_listBegin h hsize)
  set h hsize := encloses ((writes_emit _ _).bind (writes_emit _ _)) (parses_listBegin h hsize)
  map h h' hsize _ := encloses
    ((writes_emit _ _).bind ((writes_emit _ _).bind (writes_emit _ _)))
    (parses_mapBegin (.inl h) (.inl h') hsize)
  mapOfNone htypes := encloses
    ((writes_emit _ _).bind ((writes_emit _ _).bind (writes_emit _ _)))
    (parses_mapBegin (htypes.imp And.left fun h => h.2.2.1)
      (htypes.imp And.right fun h => h.2.2.2) (by decide))
  bool := keeps_bool
  byte h := keeps (writes_emit _ _) (parses_readI8 h.1 h.2)
  i16 h := keeps (writes_emit _ _) (parses_readIntBE (n := 1) h.1 h.2)
  i32 h := keeps (writes_emit _ _) (parses_readIntBE (n := 3) h.1 h.2)
  i64 h := keeps (writes_emit _ _) (parses_readIntBE (n := 7) h.1 h.2)
  string h := keeps ((writes_emit _ _).bind (writes_emit _ _)) (parses_string h)

end Fino.Thrift.Binary
