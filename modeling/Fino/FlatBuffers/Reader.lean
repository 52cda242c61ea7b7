import Fino.Data.TextDecoder
import Fino.FlatBuffers.Builder

/-!
# Reading flatbuffers

`FlatBuffer`, `Table` and `Vector` of `js/format/flatbuffers.ts`. Each access checks its bounds, and
a field that the vtable does not have is absent. `ReadsAs` says that the accessors return the values
of a tree, and defaults for the fields that it does not have.
-/

namespace Fino.FlatBuffers

open Lib.Wire Lib

/-- A `FlatbufferError`. -/
inductive ReadError
  /-- `read of … byte(s) at … exceeds buffer` -/
  | outOfBounds (pos : ℤ) (size : ℕ)
  /-- `invalid vtable size …` -/
  | vtableSize (size : ℕ)
  /-- `vector index … out of range` -/
  | index (i : ℕ)

abbrev FlatBuffer := List UInt8

namespace FlatBuffer

variable (fb : FlatBuffer) (pos : ℤ) (size : ℕ)

def check : Except ReadError Unit :=
  if pos < 0 ∨ pos + size > fb.length then .error (.outOfBounds pos size) else .ok ()

/-- `bytes.subarray`, of bytes that are there. -/
def subarray : List UInt8 := (fb.drop pos.toNat).take size

/-- `u8At`, `u16At`, `u32At` and `u64At`, by the number of bytes. -/
def uintAt (pos : ℤ) : Except ReadError ℕ := do
  fb.check pos size
  return ofLittleEndian (fb.subarray pos size)

/-- `i8At`, `i16At`, `i32At` and `i64At`, by the number of bytes. -/
def intAt (pos : ℤ) : Except ReadError ℤ := do
  fb.check pos size
  return asIntN (8 * size) (ofLittleEndian (fb.subarray pos size))

def indirect : Except ReadError ℤ := do return pos + (← fb.uintAt 4 pos)

def stringAt : Except ReadError String := do
  let len ← fb.uintAt 4 pos
  fb.check (pos + 4) len
  return TextDecoder.decode (fb.subarray (pos + 4) len)

end FlatBuffer

/-- `Table`, a table of a buffer. -/
structure TableRef where
  pos : ℤ
  vtablePos : ℤ
  vtableSize : ℕ

/-- `Vector`, a vector of a buffer. -/
structure VectorRef where
  elemsPos : ℤ
  length : ℕ

namespace FlatBuffer

variable (fb : FlatBuffer)

def tableAt (pos : ℤ) : Except ReadError TableRef := do
  let vtablePos := pos - (← fb.intAt 4 pos)
  let vtableSize ← fb.uintAt 2 vtablePos
  if vtableSize < 4 ∨ vtableSize % 2 ≠ 0 then throw (.vtableSize vtableSize)
  else
    fb.check vtablePos vtableSize
    return ⟨pos, vtablePos, vtableSize⟩

def rootTable : Except ReadError TableRef := do
  fb.tableAt (← fb.indirect 0)

def vectorAt (pos : ℤ) : Except ReadError VectorRef := do
  let length ← fb.uintAt 4 pos
  return ⟨pos + 4, length⟩

end FlatBuffer

namespace TableRef

variable (fb : FlatBuffer) (t : TableRef) (id : ℕ)

def fieldPos : Except ReadError ℤ := do
  let slot := 4 + id * 2
  if slot + 2 > t.vtableSize then return 0
  else
    let off ← fb.uintAt 2 (t.vtablePos + slot)
    return if off = 0 then 0 else t.pos + off

/-- A field is read where it is, if it is present. -/
def field {α : Type} (fb : FlatBuffer) (t : TableRef) (id : ℕ) (absent : α)
    (read : ℤ → Except ReadError α) : Except ReadError α := do
  let pos ← t.fieldPos fb id
  if pos = 0 then return absent else read pos

def bool (defaultValue : Bool) : Except ReadError Bool :=
  t.field fb id defaultValue fun pos => do return decide ((← fb.uintAt 1 pos) ≠ 0)

/-- `u8`, `i8`, `u16`, `i16`, `u32`, `i32`, `u64` and `i64`. -/
def int (type : IntType) (id : ℕ) (defaultValue : ℤ) : Except ReadError ℤ :=
  t.field fb id defaultValue fun pos =>
    if type.isSigned then fb.intAt type.size pos else do return (← fb.uintAt type.size pos : ℕ)

def string : Except ReadError (Option String) :=
  t.field fb id none fun pos => do return some (← fb.stringAt (← fb.indirect pos))

def table : Except ReadError (Option TableRef) :=
  t.field fb id none fun pos => do return some (← fb.tableAt (← fb.indirect pos))

def vector : Except ReadError (Option VectorRef) :=
  t.field fb id none fun pos => do return some (← fb.vectorAt (← fb.indirect pos))

end TableRef

namespace VectorRef

def elemPos (v : VectorRef) (i elemSize : ℕ) : Except ReadError ℤ :=
  if v.length ≤ i then .error (.index i) else .ok (v.elemsPos + (i * elemSize : ℕ))

def table (fb : FlatBuffer) (v : VectorRef) (i : ℕ) : Except ReadError TableRef := do
  fb.tableAt (← fb.indirect (← v.elemPos i 4))

def bytes (fb : FlatBuffer) (v : VectorRef) : Except ReadError (List UInt8) := do
  fb.check v.elemsPos v.length
  return fb.subarray v.elemsPos v.length

end VectorRef

/-! ## What a table reads as -/

/-- Every accessor finds the default, or nothing. -/
structure IsAbsent (fb : FlatBuffer) (t : TableRef) (id : ℕ) : Prop where
  bool : ∀ defaultValue, t.bool fb id defaultValue = .ok defaultValue
  int : ∀ type defaultValue, t.int fb type id defaultValue = .ok defaultValue
  string : t.string fb id = .ok none
  table : t.table fb id = .ok none
  vector : t.vector fb id = .ok none

mutual

/-- The reader finds the fields of the table, and no others. -/
def ReadsAs (fb : FlatBuffer) : Table → TableRef → Prop
  | .mk _ fields, t =>
    FieldsRead fb fields t ∧ ∀ id, id ∉ fields.map Prod.fst → IsAbsent fb t id

/-- The accessors return the values of the fields. -/
def FieldsRead (fb : FlatBuffer) : List (ℕ × Field) → TableRef → Prop
  | [], _ => True
  | (id, field) :: fields, t => FieldReads fb field id t ∧ FieldsRead fb fields t

/-- The accessor of the field finds its value. -/
def FieldReads (fb : FlatBuffer) : Field → ℕ → TableRef → Prop
  | .bool value defaultValue, id, t => t.bool fb id defaultValue = .ok value
  | .int type value defaultValue, id, t => t.int fb type id defaultValue = .ok value
  | .string value, id, t => t.string fb id = .ok (some value)
  | .bytes value, id, t => ∃ v, t.vector fb id = .ok (some v) ∧ v.bytes fb = .ok value
  | .table value, id, t => ∃ t', t.table fb id = .ok (some t') ∧ ReadsAs fb value t'
  | .tables values, id, t =>
    ∃ v, t.vector fb id = .ok (some v) ∧ v.length = values.length ∧ ElemsRead fb values v 0

/-- The elements of a vector read as tables, from an index on. -/
def ElemsRead (fb : FlatBuffer) : List Table → VectorRef → ℕ → Prop
  | [], _, _ => True
  | table :: tables, v, i =>
    (∃ t, v.table fb i = .ok t ∧ ReadsAs fb table t) ∧ ElemsRead fb tables v (i + 1)

end

end Fino.FlatBuffers
