import Fino.Lib.Double
import Fino.Lib.Framing

/-!
# Thrift values without a schema

The generic values of `js/internal/format/thrift/value.ts`, read and written over any `Protocol`,
whose symbols are bytes or characters and whose contexts are its own. The recursion of `readValue`
has a bound on depth and number of fields. Messages and binary values are left aside, and errors
have no offsets.
-/

namespace Fino.Thrift

open Lib Lib.Framing

/-! ## Types and values -/

/-- `TType`. The other numbers, and `undefined`, are unknown types. -/
inductive TType
  | stop
  | void
  | bool
  | byte
  | double
  | i16
  | i32
  | i64
  | string
  | struct
  | map
  | set
  | list
  | unknown (code : Option ℕ)
deriving DecidableEq

namespace TType

/-- The number of a type, with zero for `undefined`, as `writeU8` takes it. -/
def code : TType → ℕ
  | stop => 0
  | void => 1
  | bool => 2
  | byte => 3
  | double => 4
  | i16 => 6
  | i32 => 8
  | i64 => 10
  | string => 11
  | struct => 12
  | map => 13
  | set => 14
  | list => 15
  | unknown code => code.getD 0

def ofCode : ℕ → TType
  | 0 => stop
  | 1 => void
  | 2 => bool
  | 3 => byte
  | 4 => double
  | 6 => i16
  | 8 => i32
  | 10 => i64
  | 11 => string
  | 12 => struct
  | 13 => map
  | 14 => set
  | 15 => list
  | n => unknown (some n)

def isValueType : TType → Bool
  | stop | void | unknown _ => false
  | _ => true

lemma ofCode_code {type : TType} (h : type.isValueType ∨ type = stop) :
    ofCode type.code = type := by
  cases type with
  | unknown => simp [isValueType] at h
  | _ => rfl

lemma code_lt {type : TType} (h : type.isValueType ∨ type = stop) : type.code < 0x10 := by
  cases type with
  | unknown => simp [isValueType] at h
  | _ => decide

end TType

/-- `ThriftValue`. The fields of a struct are a `Map`, in the order of insertion. -/
inductive ThriftValue
  | bool (value : Bool)
  | byte (value : ℤ)
  | i16 (value : ℤ)
  | i32 (value : ℤ)
  | i64 (value : ℤ)
  | double (value : Double)
  | string (value : String)
  | struct (fields : List (ℤ × ThriftValue))
  | list (elemType : TType) (values : List ThriftValue)
  | set (elemType : TType) (values : List ThriftValue)
  | map (keyType valueType : TType) (entries : List (ThriftValue × ThriftValue))

/-- `value.type`. -/
def ThriftValue.type : ThriftValue → TType
  | bool _ => .bool
  | byte _ => .byte
  | i16 _ => .i16
  | i32 _ => .i32
  | i64 _ => .i64
  | double _ => .double
  | string _ => .string
  | struct _ => .struct
  | list _ _ => .list
  | set _ _ => .set
  | map _ _ _ => .map

inductive ThriftError
  /-- `unexpected end of input` -/
  | endOfInput
  /-- `negative length` -/
  | negativeLength (n : ℤ)
  /-- `varint overflows 64 bits` -/
  | varintOverflow
  /-- `thrift: type has no compact encoding` -/
  | noCompactEncoding (type : TType)
  /-- `thrift: unknown compact type nibble` -/
  | unknownNibble (nibble : ℕ)
  /-- `thrift: cannot read value of type` -/
  | cannotRead (type : TType)
  /-- `thrift: cannot skip type` -/
  | cannotSkip (type : TType)
  /-- `Malformed thrift JSON` -/
  | json (detail : String)
  /-- A token that is not a decimal integer. -/
  | notInteger (token : List Char)
  /-- There is no context to write or read in. -/
  | noContext
  /-- The bound on nested calls and turns was reached. -/
  | bound

/-! ## Protocols -/

/-- `FieldHeader`, without its name. -/
structure FieldHeader where
  type : TType
  id : ℤ

structure MapHeader where
  keyType : TType
  valueType : TType
  size : ℤ

structure ListHeader where
  elemType : TType
  size : ℤ

/-- `Protocol`, with the symbols and contexts of an implementation, and its symbols as bytes. -/
structure Protocol where
  Symbol : Type
  WriteContext : Type
  ReadContext : Type
  initialWrite : WriteContext
  initialRead : ReadContext
  bytes : List Symbol → List UInt8
  symbols : List UInt8 → List Symbol
  writeStructBegin : Writer ThriftError Symbol WriteContext Unit
  writeStructEnd : Writer ThriftError Symbol WriteContext Unit
  writeFieldBegin : TType → ℤ → Writer ThriftError Symbol WriteContext Unit
  writeFieldEnd : Writer ThriftError Symbol WriteContext Unit
  writeFieldStop : Writer ThriftError Symbol WriteContext Unit
  writeMapBegin : TType → TType → ℕ → Writer ThriftError Symbol WriteContext Unit
  writeMapEnd : Writer ThriftError Symbol WriteContext Unit
  writeListBegin : TType → ℕ → Writer ThriftError Symbol WriteContext Unit
  writeListEnd : Writer ThriftError Symbol WriteContext Unit
  writeSetBegin : TType → ℕ → Writer ThriftError Symbol WriteContext Unit
  writeSetEnd : Writer ThriftError Symbol WriteContext Unit
  writeBool : Bool → Writer ThriftError Symbol WriteContext Unit
  writeByte : ℤ → Writer ThriftError Symbol WriteContext Unit
  writeI16 : ℤ → Writer ThriftError Symbol WriteContext Unit
  writeI32 : ℤ → Writer ThriftError Symbol WriteContext Unit
  writeI64 : ℤ → Writer ThriftError Symbol WriteContext Unit
  writeDouble : Double → Writer ThriftError Symbol WriteContext Unit
  writeString : String → Writer ThriftError Symbol WriteContext Unit
  readStructBegin : Reader ThriftError Symbol ReadContext Unit
  readStructEnd : Reader ThriftError Symbol ReadContext Unit
  readFieldBegin : Reader ThriftError Symbol ReadContext FieldHeader
  readFieldEnd : Reader ThriftError Symbol ReadContext Unit
  readMapBegin : Reader ThriftError Symbol ReadContext MapHeader
  readMapEnd : Reader ThriftError Symbol ReadContext Unit
  readListBegin : Reader ThriftError Symbol ReadContext ListHeader
  readListEnd : Reader ThriftError Symbol ReadContext Unit
  readSetBegin : Reader ThriftError Symbol ReadContext ListHeader
  readSetEnd : Reader ThriftError Symbol ReadContext Unit
  readBool : Reader ThriftError Symbol ReadContext Bool
  readByte : Reader ThriftError Symbol ReadContext ℤ
  readI16 : Reader ThriftError Symbol ReadContext ℤ
  readI32 : Reader ThriftError Symbol ReadContext ℤ
  readI64 : Reader ThriftError Symbol ReadContext ℤ
  readDouble : Reader ThriftError Symbol ReadContext Double
  readString : Reader ThriftError Symbol ReadContext String

namespace Protocol

abbrev Writing (protocol : Protocol) :=
  Writer ThriftError protocol.Symbol protocol.WriteContext Unit

abbrev Reading (protocol : Protocol) (α : Type) :=
  Reader ThriftError protocol.Symbol protocol.ReadContext α

end Protocol

mutual

/-- `writeValue`; the case of a struct is `writeStruct`. -/
def writeValue (protocol : Protocol) : ThriftValue → protocol.Writing
  | .bool value => protocol.writeBool value
  | .byte value => protocol.writeByte value
  | .i16 value => protocol.writeI16 value
  | .i32 value => protocol.writeI32 value
  | .i64 value => protocol.writeI64 value
  | .double value => protocol.writeDouble value
  | .string value => protocol.writeString value
  | .struct fields => do
    protocol.writeStructBegin
    writeFields protocol fields
    protocol.writeFieldStop
    protocol.writeStructEnd
  | .list elemType values => do
    protocol.writeListBegin elemType values.length
    writeValues protocol values
    protocol.writeListEnd
  | .set elemType values => do
    protocol.writeSetBegin elemType values.length
    writeValues protocol values
    protocol.writeSetEnd
  | .map keyType valueType entries => do
    protocol.writeMapBegin keyType valueType entries.length
    writeEntries protocol entries
    protocol.writeMapEnd

def writeFields (protocol : Protocol) : List (ℤ × ThriftValue) → protocol.Writing
  | [] => pure ()
  | (id, value) :: fields => do
    protocol.writeFieldBegin value.type id
    writeValue protocol value
    protocol.writeFieldEnd
    writeFields protocol fields

def writeValues (protocol : Protocol) : List ThriftValue → protocol.Writing
  | [] => pure ()
  | value :: values => do
    writeValue protocol value
    writeValues protocol values

def writeEntries (protocol : Protocol) : List (ThriftValue × ThriftValue) → protocol.Writing
  | [] => pure ()
  | (key, value) :: entries => do
    writeValue protocol key
    writeValue protocol value
    writeEntries protocol entries

end

variable (protocol : Protocol) (fields : List (ℤ × ThriftValue))

def writeStruct : protocol.Writing :=
  writeValue protocol (.struct fields)

/-- `fields.set(id, value)`. -/
def setField (field : ℤ × ThriftValue) : List (ℤ × ThriftValue) :=
  if field.1 ∈ fields.map Prod.fst then
    fields.map fun p => if p.1 = field.1 then field else p
  else fields ++ [field]

/-- The loop of `readStruct`, as the fields in the order in which they come. -/
def readFields (protocol : Protocol) (read : TType → protocol.Reading ThriftValue) :
    ℕ → protocol.Reading (List (ℤ × ThriftValue))
  | 0 => throw .bound
  | n + 1 => do
    let field ← protocol.readFieldBegin
    if field.type = .stop then return []
    else
      let value ← read field.type
      protocol.readFieldEnd
      let fields ← readFields protocol read n
      return (field.id, value) :: fields

/-- `readStruct`, with a reader of values. -/
def readStructWith (read : TType → protocol.Reading ThriftValue) (n : ℕ) :
    protocol.Reading (List (ℤ × ThriftValue)) := do
  protocol.readStructBegin
  let fields ← readFields protocol read n
  protocol.readStructEnd
  return fields.foldl setField []

def readValue (protocol : Protocol) : ℕ → TType → protocol.Reading ThriftValue
  | 0, _ => throw .bound
  | n + 1, type =>
    match type with
    | .bool => do return .bool (← protocol.readBool)
    | .byte => do return .byte (← protocol.readByte)
    | .i16 => do return .i16 (← protocol.readI16)
    | .i32 => do return .i32 (← protocol.readI32)
    | .i64 => do return .i64 (← protocol.readI64)
    | .double => do return .double (← protocol.readDouble)
    | .string => do return .string (← protocol.readString)
    | .struct => do return .struct (← readStructWith protocol (readValue protocol n) n)
    | .list => do
      let header ← protocol.readListBegin
      let values ← readTimes (readValue protocol n header.elemType) header.size.toNat
      protocol.readListEnd
      return .list header.elemType values
    | .set => do
      let header ← protocol.readSetBegin
      let values ← readTimes (readValue protocol n header.elemType) header.size.toNat
      protocol.readSetEnd
      return .set header.elemType values
    | .map => do
      let header ← protocol.readMapBegin
      let readEntry := do
        let key ← readValue protocol n header.keyType
        let value ← readValue protocol n header.valueType
        return (key, value)
      let entries ← readTimes readEntry header.size.toNat
      protocol.readMapEnd
      return .map header.keyType header.valueType entries
    | type => throw (.cannotRead type)

def readStruct (n : ℕ) : protocol.Reading (List (ℤ × ThriftValue)) :=
  readStructWith protocol (readValue protocol n) n

def encodeStruct :
    Except ThriftError (List UInt8) := do
  let (_, output) ← writeStruct protocol fields ⟨[], protocol.initialWrite⟩
  return protocol.bytes output.written

def decodeStruct (n : ℕ) (bytes : List UInt8) :
    Except ThriftError (List (ℤ × ThriftValue)) := do
  let ((fields, _), _) ← readStruct protocol n protocol.initialRead ⟨protocol.symbols bytes, 0⟩
  return fields

end Fino.Thrift
