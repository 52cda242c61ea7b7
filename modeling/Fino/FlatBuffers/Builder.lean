import Mathlib.Data.List.DropRight
import Fino.Lib.Wire

/-!
# Building flatbuffers

`Builder` of `js/format/flatbuffers.ts`. Objects are written from the end of a buffer towards its
beginning, where it grows, and are named by their distance from the end. `prep` makes room for most
writes, but not for a vtable. `build` writes strings, vectors and nested tables first. Floats,
structs and file identifiers are left aside.
-/

namespace Fino.FlatBuffers

open Lib.Wire

inductive IntType
  | i8
  | u8
  | i16
  | u16
  | i32
  | u32
  | i64
  | u64
deriving DecidableEq

namespace IntType

def size : IntType → ℕ
  | i8 | u8 => 1
  | i16 | u16 => 2
  | i32 | u32 => 4
  | i64 | u64 => 8

def isSigned : IntType → Bool
  | i8 | i16 | i32 | i64 => true
  | u8 | u16 | u32 | u64 => false

end IntType

mutual

/-- A table, with the number of fields that it is declared with. -/
inductive Table
  | mk (numFields : ℕ) (fields : List (ℕ × Field))

/-- The value of a field; scalars have a default. -/
inductive Field
  | bool (value default : Bool)
  | int (type : IntType) (value default : ℤ)
  | string (value : String)
  | bytes (value : List UInt8)
  | table (value : Table)
  | tables (values : List Table)

end

/-! ## The builder -/

inductive BuilderError
  /-- `cannot grow buffer beyond 2 gigabytes` -/
  | tooLarge
  /-- A `RangeError`: the buffer has no such place. -/
  | outOfRange
  /-- `startTable` or `startVector` `inside another table or vector` -/
  | nested
  /-- `endTable` or `endVector` without its start, or a field outside a table -/
  | notNested
  /-- `bytes() called before finish()` -/
  | notFinished

structure Builder where
  buf : List UInt8
  space : ℕ
  minalign : ℕ
  vtable : Option (List ℕ)
  vtableInUse : ℕ
  isNested : Bool
  objectStart : ℕ
  vtables : List ℕ
  vectorNumElems : ℕ
  finished : Bool
  forceDefaults : Bool

abbrev Building := StateT Builder (Except BuilderError)

def Builder.new (initialSize : ℕ) (forceDefaults : Bool) : Builder where
  buf := List.replicate (max 1 initialSize) 0
  space := max 1 initialSize
  minalign := 1
  vtable := none
  vtableInUse := 0
  isNested := false
  objectStart := 0
  vtables := []
  vectorNumElems := 0
  finished := false
  forceDefaults := forceDefaults

def Builder.offset (b : Builder) : ℕ := b.buf.length - b.space

/-- The length of the buffer after `#grow`. -/
def grownLength (oldSize : ℕ) : Except BuilderError ℕ :=
  if 2 ^ 30 ≤ oldSize % 2 ^ 32 then .error .tooLarge
  else if 2 * oldSize % 2 ^ 32 < oldSize then .error .outOfRange
  else .ok (2 * oldSize % 2 ^ 32)

def grow : Building Unit := do
  let b ← get
  let newSize ← liftM (grownLength b.buf.length)
  set { b with
    buf := List.replicate (newSize - b.buf.length) 0 ++ b.buf
    space := b.space + (newSize - b.buf.length) }

def setBytes (buf : List UInt8) (pos : ℕ) (bytes : List UInt8) : List UInt8 :=
  buf.take pos ++ bytes ++ buf.drop (pos + bytes.length)

/-- Bytes are written before those that were written last. -/
def writeBytes (bytes : List UInt8) : Building Unit := do
  let b ← get
  if b.space < bytes.length then throw .outOfRange
  else set { b with
    buf := setBytes b.buf (b.space - bytes.length) bytes
    space := b.space - bytes.length }

/-- `pad`, where `prep` has made room. -/
def pad (n : ℕ) : Building Unit := writeBytes (List.replicate n 0)

/-- The bytes that are missing at a place for an alignment. -/
def alignSize (size used : ℕ) : ℕ := (size - used % size) % size

/-- The loop of `prep`; the length at least doubles with each turn. -/
def ensure : ℕ → ℕ → Building Unit
  | 0, _ => throw .tooLarge
  | n + 1, bytes => do
    if (← get).space < bytes then
      grow
      ensure n bytes
    else return

def prep (size additionalBytes : ℕ) : Building Unit := do
  modify fun b => { b with minalign := max b.minalign size }
  let align := alignSize size ((← get).offset + additionalBytes)
  ensure 32 (align + size + additionalBytes)
  pad align

/-- `writeInt8` to `writeInt64`, by the number of bytes. -/
def writeInt (size : ℕ) (value : ℤ) : Building Unit :=
  writeBytes (littleEndian size (asUintN (8 * size) value))

/-- `addInt8`, `addInt16`, `addInt32` and `addInt64`, by the number of bytes. -/
def addInt (size : ℕ) (value : ℤ) : Building Unit := do
  prep size 0
  writeInt size value

def addOffset (offset : ℕ) : Building Unit := do
  prep 4 0
  writeInt 4 ((← get).offset - offset + 4)

def slot (id : ℕ) : Building Unit := do
  let b ← get
  b.vtable.elim (throw .notNested) fun vtable => set { b with vtable := vtable.set id b.offset }

/-- `addFieldInt8`, `addFieldInt16`, `addFieldInt32` and `addFieldInt64`. -/
def addFieldInt (size id : ℕ) (value defaultValue : ℤ) : Building Unit := do
  if (← get).forceDefaults = true ∨ value ≠ defaultValue then
    addInt size value
    slot id
  else return

def addFieldBool (id : ℕ) (value defaultValue : Bool) : Building Unit :=
  addFieldInt 1 id (if value then 1 else 0) (if defaultValue then 1 else 0)

def addFieldOffset (id offset : ℕ) : Building Unit :=
  if offset ≠ 0 then do
    addOffset offset
    slot id
  else return

def startTable (numFields : ℕ) : Building Unit := do
  let b ← get
  if b.isNested then throw .nested
  else set { b with
    vtable := some (List.replicate numFields 0)
    vtableInUse := numFields
    isNested := true
    objectStart := b.offset }

/-- `getInt16`. -/
def int16At (buf : List UInt8) (pos : ℕ) : Except BuilderError ℤ :=
  if pos + 2 ≤ buf.length then .ok (asIntN 16 (ofLittleEndian ((buf.drop pos).take 2)))
  else .error .outOfRange

/-- The loop that compares two vtables, with `n` entries to go. -/
def sameEntries (buf : List UInt8) (vt1 vt2 : ℕ) : ℕ → ℕ → Except BuilderError Bool
  | 0, _ => .ok true
  | n + 1, j => do
    let x ← int16At buf (vt1 + j)
    let y ← int16At buf (vt2 + j)
    if x ≠ y then return false else sameEntries buf vt1 vt2 n (j + 2)

/-- The loop that looks for a vtable of some length that is the same. -/
def findVtable (buf : List UInt8) (vt1 len : ℕ) : List ℕ → Except BuilderError (Option ℕ)
  | [] => .ok none
  | candidate :: vtables => do
    let first ← int16At buf (buf.length - candidate)
    if (len : ℤ) = first then
      if ← sameEntries buf vt1 (buf.length - candidate) (len / 2 - 1) 2 then
        return some candidate
      else findVtable buf vt1 len vtables
    else findVtable buf vt1 len vtables

/-- The entries of a vtable up to the last one that is in use. -/
def trimmed (vtable : List ℕ) : List ℕ := vtable.rdropWhile (· = 0)

/-- The loop that writes the entries, the last one first. -/
def writeEntries (vtableLoc : ℕ) : List ℕ → Building Unit
  | [] => return
  | entry :: entries => do
    writeEntries vtableLoc entries
    writeInt 2 (if entry ≠ 0 then (vtableLoc : ℤ) - entry else 0)

def setInt32 (pos : ℕ) (value : ℤ) : Building Unit := do
  let b ← get
  if pos + 4 ≤ b.buf.length then
    set { b with buf := setBytes b.buf pos (littleEndian 4 (asUintN 32 value)) }
  else throw .outOfRange

/-- The end of `endTable`, with the vtable that was found. -/
def linkVtable (vtableLoc : ℕ) (existing : Option ℕ) : Building Unit := do
  let b ← get
  existing.elim
    (do
      set { b with vtables := b.vtables ++ [b.offset] }
      setInt32 (b.buf.length - vtableLoc) ((b.offset : ℤ) - vtableLoc))
    fun existing => do
      set { b with space := b.buf.length - vtableLoc }
      setInt32 (b.buf.length - vtableLoc) ((existing : ℤ) - vtableLoc)

def endTable : Building ℕ := do
  let b ← get
  if b.isNested = false then throw .notNested
  else b.vtable.elim (throw .notNested) fun vtable => do
    addInt 4 0
    let vtableLoc := (← get).offset
    let entries := trimmed (vtable.take b.vtableInUse)
    writeEntries vtableLoc entries
    writeInt 2 ((vtableLoc : ℤ) - b.objectStart)
    let len := (entries.length + 2) * 2
    writeInt 2 len
    let b ← get
    let existing ← liftM (findVtable b.buf b.space len b.vtables)
    linkVtable vtableLoc existing
    modify fun b => { b with isNested := false, vtable := none }
    return vtableLoc

def startVector (elemSize numElems alignment : ℕ) : Building Unit := do
  let b ← get
  if b.isNested then throw .nested
  else
    set { b with isNested := true, vectorNumElems := numElems }
    prep 4 (elemSize * numElems)
    prep alignment (elemSize * numElems)

def endVector : Building ℕ := do
  let b ← get
  if b.isNested then
    set { b with isNested := false }
    writeInt 4 b.vectorNumElems
    return (← get).offset
  else throw .notNested

def createByteVector (bytes : List UInt8) : Building ℕ := do
  startVector 1 bytes.length 1
  writeBytes bytes
  endVector

def createString (value : String) : Building ℕ := do
  addInt 1 0
  createByteVector (utf8 value)

/-- `finish`, without options. -/
def finish (rootTable : ℕ) : Building Unit := do
  prep (← get).minalign 4
  addOffset rootTable
  modify fun b => { b with finished := true }

def Builder.bytes (b : Builder) : Except BuilderError (List UInt8) :=
  if b.finished then .ok (b.buf.drop b.space) else .error .notFinished

/-! ## Building a tree -/

/-- What is put into a field: a value with its default, or an offset. -/
inductive Slot
  | bool (value default : Bool)
  | int (type : IntType) (value default : ℤ)
  | offset (offset : ℕ)

def addSlot (id : ℕ) : Slot → Building Unit
  | .bool value defaultValue => addFieldBool id value defaultValue
  | .int type value defaultValue => addFieldInt type.size id value defaultValue
  | .offset offset => addFieldOffset id offset

def addSlots : List (ℕ × Slot) → Building Unit
  | [] => return
  | (id, value) :: slots => do
    addSlot id value
    addSlots slots

def addOffsets : List ℕ → Building Unit
  | [] => return
  | offset :: offsets => do
    addOffsets offsets
    addOffset offset

def createOffsetVector (offsets : List ℕ) : Building ℕ := do
  startVector 4 offsets.length 4
  addOffsets offsets
  endVector

mutual

/-- A table: what its fields refer to, and then its fields. -/
def putTable : Table → Building ℕ
  | .mk numFields fields => do
    let slots ← putFields fields
    startTable numFields
    addSlots slots
    endTable

def putFields : List (ℕ × Field) → Building (List (ℕ × Slot))
  | [] => return []
  | (id, field) :: fields => do
    let value ← putField field
    let slots ← putFields fields
    return (id, value) :: slots

def putField : Field → Building Slot
  | .bool value defaultValue => return .bool value defaultValue
  | .int type value defaultValue => return .int type value defaultValue
  | .string value => do return .offset (← createString value)
  | .bytes value => do return .offset (← createByteVector value)
  | .table value => do return .offset (← putTable value)
  | .tables values => do return .offset (← createOffsetVector (← putTables values))

def putTables : List Table → Building (List ℕ)
  | [] => return []
  | table :: tables => do
    let offset ← putTable table
    let offsets ← putTables tables
    return offset :: offsets

end

def build (initialSize : ℕ) (forceDefaults : Bool) (table : Table) :
    Except BuilderError (List UInt8) := do
  let run := do finish (← putTable table)
  let (_, b) ← run (Builder.new initialSize forceDefaults)
  b.bytes

end Fino.FlatBuffers
