import Fino.Thrift.Bytes
import Fino.Thrift.Laws

/-!
# The compact protocol

`CompactProtocol` of `js/internal/format/thrift/compact.ts`. The id of a field is written as a small
difference where possible, and the boolean of a field is part of its header. An empty map is one
byte: its types are dropped, and it is read with the type that ends a struct.
-/

namespace Fino.Thrift.Compact

open Lib Lib.Framing Lib.Parser Lib.Wire ThriftValue ByteWriter ByteReader

/-! ## The model -/

def ttypeToCompact : TType → Except ThriftError ℕ
  | .bool => .ok 1
  | .byte => .ok 3
  | .i16 => .ok 4
  | .i32 => .ok 5
  | .i64 => .ok 6
  | .double => .ok 7
  | .string => .ok 8
  | .list => .ok 9
  | .set => .ok 10
  | .map => .ok 11
  | .struct => .ok 12
  | type => .error (.noCompactEncoding type)

def compactToTtype : ℕ → Except ThriftError TType
  | 0 => .ok .stop
  | 1 => .ok .bool
  | 2 => .ok .bool
  | 3 => .ok .byte
  | 4 => .ok .i16
  | 5 => .ok .i32
  | 6 => .ok .i64
  | 7 => .ok .double
  | 8 => .ok .string
  | 9 => .ok .list
  | 10 => .ok .set
  | 11 => .ok .map
  | 12 => .ok .struct
  | nibble => .error (.unknownNibble nibble)

structure WriteContext where
  lastFieldId : ℤ
  fieldIdStack : List ℤ
  pendingBoolId : Option ℤ

structure ReadContext where
  lastFieldId : ℤ
  fieldIdStack : List ℤ
  pendingBoolValue : Option Bool

abbrev Writing := Writer ThriftError UInt8 WriteContext Unit

abbrev Reading (α : Type) := Reader ThriftError UInt8 ReadContext α

def writeStructBegin : Writing := do
  let c ← context
  setContext { c with lastFieldId := 0, fieldIdStack := c.lastFieldId :: c.fieldIdStack }

def writeStructEnd : Writing := do
  let c ← context
  setContext { c with
    lastFieldId := c.fieldIdStack.headD 0
    fieldIdStack := c.fieldIdStack.tail }

def fieldHeader (lastFieldId id : ℤ) (compactType : ℕ) : Writing :=
  if 0 < id - lastFieldId ∧ id - lastFieldId ≤ 15 then
    writeU8 ((id - lastFieldId) * 0x10 + compactType)
  else do
    writeU8 compactType
    writeZigzag32 id

def writeFieldHeader (id : ℤ) (compactType : ℕ) : Writing := do
  let c ← context
  fieldHeader c.lastFieldId id compactType
  setContext { c with lastFieldId := id }

def writeFieldBegin (type : TType) (id : ℤ) : Writing :=
  if type = .bool then do
    let c ← context
    setContext { c with pendingBoolId := some id }
  else do writeFieldHeader id (← liftM (ttypeToCompact type))

def writeFieldStop : Writing := writeU8 0

def writeMapBegin (keyType valueType : TType) (size : ℕ) : Writing :=
  if size = 0 then writeU8 0
  else do
    writeVarint size
    let keyType ← liftM (ttypeToCompact keyType)
    let valueType ← liftM (ttypeToCompact valueType)
    writeU8 (keyType * 0x10 + valueType : ℕ)

/-- `writeListBegin`, and `writeSetBegin`. -/
def writeListBegin (elemType : TType) (size : ℕ) : Writing := do
  let ct ← liftM (ttypeToCompact elemType)
  if size ≤ 14 then writeU8 (size * 0x10 + ct : ℕ)
  else do
    writeU8 (0xf0 + ct : ℕ)
    writeVarint size

def boolCode (value : Bool) : ℕ := if value then 1 else 2

def writeBool (value : Bool) : Writing := do
  let c ← context
  c.pendingBoolId.elim (writeU8 (boolCode value)) fun id => do
    writeFieldHeader id (boolCode value)
    let c ← context
    setContext { c with pendingBoolId := none }

def writeStringValue (value : String) : Writing := do
  writeVarint (utf8 value).length
  writeBytes (utf8 value)

def readStructBegin : Reading Unit := modify fun d =>
  { d with lastFieldId := 0, fieldIdStack := d.lastFieldId :: d.fieldIdStack }

def readStructEnd : Reading Unit := modify fun d =>
  { d with lastFieldId := d.fieldIdStack.headD 0, fieldIdStack := d.fieldIdStack.tail }

/-- The id of a field, for the upper half of the first byte of its header. -/
def readFieldId (modifier : ℕ) : Reading ℤ :=
  if modifier = 0 then liftM readZigzag32 else do return (← get).lastFieldId + modifier

/-- The boolean in a field header, if there is one. -/
def boolOfNibble (nibble : ℕ) (pending : Option Bool) : Option Bool :=
  if nibble = 1 then some true else if nibble = 2 then some false else pending

def readFieldBegin : Reading FieldHeader := do
  let byte ← liftM readU8
  if byte % 0x10 = 0 then return ⟨.stop, 0⟩
  else do
    let id ← readFieldId (byte / 0x10)
    let type ← liftM (Parser.ofExcept (compactToTtype (byte % 0x10)) : ByteReader TType)
    modify fun d => { d with
      lastFieldId := id
      pendingBoolValue := boolOfNibble (byte % 0x10) d.pendingBoolValue }
    return ⟨type, id⟩

def readMapBegin : ByteReader MapHeader := do
  let size ← readVarint32
  if size = 0 then return ⟨.stop, .stop, 0⟩
  else do
    let kv ← readU8
    let keyType ← Parser.ofExcept (compactToTtype (kv / 0x10))
    let valueType ← Parser.ofExcept (compactToTtype (kv % 0x10))
    return ⟨keyType, valueType, size⟩

/-- The size of a list, for the upper half of the first byte of its header. -/
def readListSize (nibble : ℕ) : ByteReader ℕ :=
  if nibble = 15 then readVarint32 else return nibble

/-- `readListBegin`, and `readSetBegin`. -/
def readListBegin : ByteReader ListHeader := do
  let sizeAndType ← readU8
  let size ← readListSize (sizeAndType / 0x10)
  let elemType ← Parser.ofExcept (compactToTtype (sizeAndType % 0x10))
  return ⟨elemType, size⟩

def readBool : Reading Bool := do
  let d ← get
  d.pendingBoolValue.elim (do return decide ((← liftM readU8) = 1)) fun value => do
    set { d with pendingBoolValue := none }
    return value

def readStringValue : ByteReader String := do readString (← readVarint32)

/-- `CompactProtocol`. -/
def protocol : Protocol where
  Symbol := UInt8
  WriteContext := WriteContext
  ReadContext := ReadContext
  initialWrite := ⟨0, [], none⟩
  initialRead := ⟨0, [], none⟩
  bytes := id
  symbols := id
  writeStructBegin := writeStructBegin
  writeStructEnd := writeStructEnd
  writeFieldBegin := writeFieldBegin
  writeFieldEnd := pure ()
  writeFieldStop := writeFieldStop
  writeMapBegin := writeMapBegin
  writeMapEnd := pure ()
  writeListBegin := writeListBegin
  writeListEnd := pure ()
  writeSetBegin := writeListBegin
  writeSetEnd := pure ()
  writeBool := writeBool
  writeByte := writeU8
  writeI16 := writeZigzag32
  writeI32 := writeZigzag32
  writeI64 := writeZigzag64
  writeDouble := writeF64LE
  writeString := writeStringValue
  readStructBegin := readStructBegin
  readStructEnd := readStructEnd
  readFieldBegin := readFieldBegin
  readFieldEnd := pure ()
  readMapBegin := liftM readMapBegin
  readMapEnd := pure ()
  readListBegin := liftM readListBegin
  readListEnd := pure ()
  readSetBegin := liftM readListBegin
  readSetEnd := pure ()
  readBool := readBool
  readByte := liftM readI8
  readI16 := liftM readZigzag32
  readI32 := liftM readZigzag32
  readI64 := liftM readZigzag64
  readDouble := liftM readF64LE
  readString := liftM readStringValue

/-! ## Its laws -/

/-- The contexts have the same ids, those around are kept, and nothing is pending. -/
def frame : Frame UInt8 WriteContext ReadContext (List ℤ) where
  Related key c d := ∃ last, c = ⟨last, key, none⟩ ∧ d = ⟨last, key, none⟩
  Follows _ := True

variable {l : List UInt8} {w : Writing}

lemma keeps {α : Type} {p : ByteReader α} {a : α} (hw : ∀ c, Writes w c l c)
    (hp : Parses p l a) : frame.Keeps w (liftM p) (some a) :=
  fun _ c d hrelated => ⟨c, d, hrelated, moves_of_parses (hw c) hp d⟩

lemma encloses {α : Type} {p : ByteReader α} {a : α} (hw : ∀ c, Writes w c l c)
    (hp : Parses p l a) :
    frame.Encloses w (liftM p) (some a) (pure ()) (pure ()) () :=
  fun key c d hrelated => ⟨key, c, d, hrelated, moves_of_parses (hw c) hp d,
    fun c' d' hrelated' => ⟨c', d', hrelated', moves_pure ()⟩⟩

variable {type : TType}

lemma exists_compact (h : type.isValueType) :
    ∃ ct, ttypeToCompact type = .ok ct ∧ compactToTtype ct = .ok type ∧ ct ≠ 0 ∧ ct < 13 ∧
      (type ≠ .bool → boolOfNibble ct none = none) := by
  cases type with
  | stop => cases h
  | void => cases h
  | unknown => cases h
  | bool => exact ⟨1, rfl, rfl, by decide, by decide, fun h => absurd rfl h⟩
  | _ => exact ⟨_, rfl, rfl, by decide, by decide, fun _ => rfl⟩

lemma opens_struct {R : WriteContext → ReadContext → Prop}
    (h : ∀ c d, R c d → ∃ key, frame.Related key c d) :
    frame.Opens R protocol.writeStructBegin protocol.readStructBegin (some ())
      protocol.endStruct protocol.endedStruct (⟨.stop, 0⟩, ()) := by
  intro c d hR
  obtain ⟨key, last, rfl, rfl⟩ := h c d hR
  refine ⟨last :: key, ⟨0, last :: key, none⟩, ⟨0, last :: key, none⟩, ⟨0, rfl, rfl⟩, ?_, ?_⟩
  · exact ⟨[], fun _ => by rw [List.append_nil]; rfl, fun rest _ => ⟨trivial, fun _ => rfl⟩⟩
  · rintro _ _ ⟨last', rfl, rfl⟩
    refine ⟨⟨last, key, none⟩, ⟨last, key, none⟩, hR, [0], fun _ => rfl, fun rest _ => ?_⟩
    exact ⟨trivial, fun _ => rfl⟩

def headerBytes (last id : ℤ) (ct : ℕ) : List UInt8 :=
  if 0 < id - last ∧ id - last ≤ 15 then
    [UInt8.ofNat (asUintN 8 ((id - last) * 0x10 + ct))]
  else [UInt8.ofNat (asUintN 8 ct)] ++ varint (zigzag 31 id % 2 ^ 64)

lemma writes_fieldHeader (c : WriteContext) (id : ℤ) (ct : ℕ) :
    Writes (writeFieldHeader id ct) c (headerBytes c.lastFieldId id ct)
      { c with lastFieldId := id } := by
  have hheader : Writes (fieldHeader c.lastFieldId id ct) c
      (headerBytes c.lastFieldId id ct) c := by
    unfold fieldHeader headerBytes
    split_ifs
    · exact writes_emit _ c
    · exact (writes_emit _ c).bind (writes_emit _ c)
  have hwrites := hheader.bind (writes_setContext c { c with lastFieldId := id })
  rw [List.append_nil] at hwrites
  exact Writes.of_context hwrites

variable {id : ℤ} {ct : ℕ} {d : ReadContext}

lemma takes_fieldBegin_of_id {modifier : ℕ} {rest : List UInt8} (hmodifier : modifier ≤ 15)
    (hct : ct ≠ 0) (hlt : ct < 13) (htype : compactToTtype ct = .ok type)
    (hid : Takes (readFieldId modifier) d l rest id d) :
    Takes readFieldBegin d ([UInt8.ofNat (asUintN 8 (modifier * 0x10 + ct : ℕ))] ++ l) rest
      ⟨type, id⟩ ⟨id, d.fieldIdStack, boolOfNibble ct d.pendingBoolValue⟩ := by
  refine (takes_lift (parses_readU8 (by omega)) d (l ++ rest)).bind ?_
  have hnibble : (modifier * 0x10 + ct) % 0x10 = ct := by omega
  have hdiv : (modifier * 0x10 + ct) / 0x10 = modifier := by omega
  rw [hnibble, hdiv, if_neg hct]
  intro k
  refine bind_eq_ok.mpr ⟨id, d, _, hid k, ?_⟩
  rw [htype]
  rfl

lemma takes_fieldBegin (hid : InRange 15 id) (hct : ct ≠ 0) (hlt : ct < 13)
    (htype : compactToTtype ct = .ok type) (rest : List UInt8) :
    Takes readFieldBegin d (headerBytes d.lastFieldId id ct) rest ⟨type, id⟩
      ⟨id, d.fieldIdStack, boolOfNibble ct d.pendingBoolValue⟩ := by
  unfold headerBytes
  split_ifs with hdelta
  · -- The id is the last one and the upper half of the byte.
    obtain ⟨delta, hdelta'⟩ := Int.eq_ofNat_of_zero_le (le_of_lt hdelta.1)
    have hfound : Takes (readFieldId delta) d [] rest id d := by
      have hsum : d.lastFieldId + (delta : ℤ) = id := by omega
      rw [readFieldId, if_neg (by omega), ← hsum]
      exact fun _ => rfl
    have htakes := takes_fieldBegin_of_id (by omega) hct hlt htype hfound
    rw [hdelta']
    exact_mod_cast htakes
  · have hfound : Takes (readFieldId 0) d (varint (zigzag 31 id % 2 ^ 64)) rest id d :=
      takes_lift (parses_readZigzag32 (by have := hid.1; omega) (by have := hid.2; omega)) d rest
    have htakes := takes_fieldBegin_of_id (by omega) hct hlt htype hfound
    rwa [Nat.zero_mul, Nat.zero_add] at htakes

lemma encloses_field (h : type.isValueType) (hbool : type ≠ .bool) (hid : InRange 15 id) :
    frame.Encloses (protocol.writeFieldBegin type id) protocol.readFieldBegin (some ⟨type, id⟩)
      protocol.writeFieldEnd protocol.readFieldEnd () := by
  obtain ⟨ct, hcompact, htype, hct, hlt, hpending⟩ := exists_compact h
  rintro key _ _ ⟨last, rfl, rfl⟩
  refine ⟨key, ⟨id, key, none⟩, ⟨id, key, none⟩, ⟨id, rfl, rfl⟩, ?_,
    fun c d hrelated => ⟨c, d, hrelated, moves_pure ()⟩⟩
  refine ⟨headerBytes last id ct, ?_, fun rest _ => ⟨trivial, ?_⟩⟩
  · show Writes (writeFieldBegin type id) _ _ _
    rw [writeFieldBegin, if_neg hbool]
    exact (writes_fieldHeader ⟨last, key, none⟩ id ct).of_ok hcompact
  · have htakes := takes_fieldBegin (d := ⟨last, key, none⟩) hid hct hlt htype rest
    rwa [hpending hbool] at htakes

lemma keeps_boolField (value : Bool) (hid : InRange 15 id) :
    frame.Keeps
      (do protocol.writeFieldBegin .bool id; protocol.writeBool value; protocol.writeFieldEnd)
      (do let field ← protocol.readFieldBegin; let value ← protocol.boolOfField
          return (field, value))
      (some (⟨.bool, id⟩, value)) := by
  rintro key _ _ ⟨last, rfl, rfl⟩
  refine ⟨⟨id, key, none⟩, ⟨id, key, none⟩, ⟨id, rfl, rfl⟩, ?_⟩
  refine ⟨headerBytes last id (boolCode value), ?_, fun rest _ => ⟨trivial, ?_⟩⟩
  · -- Nothing is written until the boolean comes.
    have hbegin : Writes (protocol.writeFieldBegin .bool id) ⟨last, key, none⟩ []
        ⟨last, key, some id⟩ := by
      intro done
      rw [List.append_nil]
      rfl
    have hdone : Writes (do let c ← context; setContext { c with pendingBoolId := none } : Writing)
        ⟨id, key, some id⟩ [] ⟨id, key, none⟩ := Writes.of_context (writes_setContext _ _)
    have hheader := (writes_fieldHeader ⟨last, key, some id⟩ id (boolCode value)).bind hdone
    rw [List.append_nil] at hheader
    have hbool : Writes (protocol.writeBool value) ⟨last, key, some id⟩
        (headerBytes last id (boolCode value)) ⟨id, key, none⟩ := Writes.of_context hheader
    rw [← List.append_nil (headerBytes last id (boolCode value))]
    exact hbegin.bind (hbool.bind (writes_pure _))
  · have hct : boolCode value ≠ 0 ∧ boolCode value < 13 ∧
        compactToTtype (boolCode value) = .ok .bool ∧
        boolOfNibble (boolCode value) none = some value := by
      cases value <;> exact ⟨by decide, by decide, rfl, rfl⟩
    have hheader :=
      takes_fieldBegin (d := ⟨last, key, none⟩) hid hct.1 hct.2.1 hct.2.2.1 ([] ++ rest)
    rw [hct.2.2.2] at hheader
    rw [← List.append_nil (headerBytes last id (boolCode value))]
    exact hheader.bind fun _ => rfl

lemma keeps_bool (value : Bool) :
    frame.Keeps (protocol.writeBool value) protocol.readBool (some value) := by
  rintro key _ _ ⟨last, rfl, rfl⟩
  refine ⟨⟨last, key, none⟩, ⟨last, key, none⟩, ⟨last, rfl, rfl⟩,
    [UInt8.ofNat (asUintN 8 (boolCode value))], fun _ => rfl, fun rest _ => ⟨trivial, ?_⟩⟩
  cases value <;> exact fun _ => rfl

variable {size : ℕ} {elemType valueType keyType : TType}

lemma parses_listBegin (hlt : ct < 13) (htype : compactToTtype ct = .ok elemType)
    (hsize : size < 2 ^ 31) :
    Parses readListBegin (if size ≤ 14 then [UInt8.ofNat (asUintN 8 (size * 0x10 + ct : ℕ))]
      else [UInt8.ofNat (asUintN 8 (0xf0 + ct : ℕ))] ++ varint (size % 2 ^ 64))
      ⟨elemType, size⟩ := by
  have hrest (nibble : ℕ) {l : List UInt8} (hnibble : nibble ≤ 15)
      (hread : Parses (readListSize nibble) l size) :
      Parses readListBegin ([UInt8.ofNat (asUintN 8 (nibble * 0x10 + ct : ℕ))] ++ l)
        ⟨elemType, size⟩ := by
    refine (parses_readU8 (by omega)).bind ?_
    rw [show (nibble * 0x10 + ct) / 0x10 = nibble by omega,
      show (nibble * 0x10 + ct) % 0x10 = ct by omega, htype]
    exact hread.bind_nil (parses_pure _)
  split_ifs with hsmall
  · have hread : Parses (readListSize size) [] size := by
      rw [readListSize, if_neg (by omega)]
      exact parses_pure size
    exact hrest size (by omega) hread
  · exact hrest 15 (by omega) (parses_readVarint32 (by omega))

lemma encloses_list (h : elemType.isValueType) (hsize : size < 2 ^ 31) :
    frame.Encloses (writeListBegin elemType size) (liftM readListBegin)
      (some ⟨elemType, size⟩) (pure ()) (pure ()) () := by
  obtain ⟨ct, hcompact, htype, hct, hlt, -⟩ := exists_compact h
  refine encloses (fun c => Writes.of_ok hcompact ?_) (parses_listBegin hlt htype hsize)
  split_ifs
  · exact writes_emit _ c
  · exact (writes_emit _ c).bind (writes_emit _ c)

lemma parses_mapBegin {kct vct : ℕ} (hk : kct < 13) (hv : vct < 13)
    (hkey : compactToTtype kct = .ok keyType) (hvalue : compactToTtype vct = .ok valueType)
    (hsize : size < 2 ^ 31) (hne : size ≠ 0) :
    Parses readMapBegin (varint (size % 2 ^ 64) ++ [UInt8.ofNat (asUintN 8 (kct * 0x10 + vct : ℕ))])
      ⟨keyType, valueType, size⟩ := by
  refine (parses_readVarint32 (by omega)).bind ?_
  rw [if_neg hne]
  refine (parses_readU8 (by omega)).bind_nil ?_
  rw [show (kct * 0x10 + vct) / 0x10 = kct by omega,
    show (kct * 0x10 + vct) % 0x10 = vct by omega, hkey, hvalue]
  exact parses_pure _

lemma encloses_map (h : keyType.isValueType) (h' : valueType.isValueType)
    (hsize : size < 2 ^ 31) (hne : size ≠ 0) :
    frame.Encloses (writeMapBegin keyType valueType size) (liftM readMapBegin)
      (some ⟨keyType, valueType, size⟩) (pure ()) (pure ()) () := by
  obtain ⟨kct, hkcompact, hktype, -, hklt, -⟩ := exists_compact h
  obtain ⟨vct, hvcompact, hvtype, -, hvlt, -⟩ := exists_compact h'
  refine encloses (fun c => ?_) (parses_mapBegin hklt hvlt hktype hvtype hsize hne)
  rw [writeMapBegin, if_neg hne]
  exact (writes_emit _ c).bind (Writes.of_ok hkcompact (Writes.of_ok hvcompact (writes_emit _ c)))

lemma parses_string {value : String} (h : (utf8 value).length < 2 ^ 31) :
    Parses readStringValue (varint ((utf8 value).length % 2 ^ 64) ++ utf8 value) (dropMark value) :=
  (parses_readVarint32 (by omega)).bind (parses_readString value)

lemma keeps_zigzag32 {z : ℤ} (h : -2 ^ 31 ≤ z) (h' : z < 2 ^ 31) :
    frame.Keeps (writeZigzag32 z) (liftM readZigzag32) (some z) :=
  keeps (writes_emit _) (parses_readZigzag32 h h')

def laws : Laws protocol where
  Key := List ℤ
  frame := frame
  text := dropMark
  emptyMap _ _ := some (.stop, .stop)
  length_text := length_utf8_dropMark
  emptyMap_typed h _ := by
    cases h
    exact .inr ⟨rfl, rfl, rfl, rfl⟩
  follows_nil := trivial
  symbols_bytes _ _ _ _ := rfl
  root := opens_struct fun _ _ h => ⟨[], 0, h.1, h.2⟩
  struct key := opens_struct fun _ _ h => ⟨key, h⟩
  field := encloses_field
  boolField := keeps_boolField
  list := encloses_list
  set := encloses_list
  map := encloses_map
  mapOfNone _ := encloses (fun c => writes_emit _ c)
    ((parses_readVarint32 (v := 0) (by decide)).bind_nil (parses_pure _))
  bool := keeps_bool
  byte h := keeps (writes_emit _) (parses_readI8 h.1 h.2)
  i16 h := keeps_zigzag32 (by have := h.1; omega) (by have := h.2; omega)
  i32 h := keeps_zigzag32 h.1 h.2
  i64 h := keeps (writes_emit _) (parses_readZigzag64 h.1 h.2)
  string h := keeps (fun c => (writes_emit _ c).bind (writes_emit _ c)) (parses_string h)

end Fino.Thrift.Compact
