import Fino.FlatBuffers.Builder

/-!
# Where the builder puts things

`Layout` is what was written so far and what the buffer was asked for: room that is made by growing,
or room for a vtable, which is not made. `serve` says how long the buffer is after requests, if it
could serve them, and `Does` that an operation of the builder does to the buffer what its namesake
does to the layout.
-/

namespace Fino.FlatBuffers

open Lib.Wire List

/-! ## Layouts -/

inductive Request
  /-- Room is made, so that there are this many bytes. -/
  | reserve (bytes : ℕ)
  /-- The fields take `inlineSize` bytes, and with the vtable of `len` bytes there have to be
  `bytes`. -/
  | vtable (inlineSize len bytes : ℕ)
deriving DecidableEq

/-- The length of a buffer that is grown for as many bytes. -/
def growTo : ℕ → ℕ → ℕ → Option ℕ
  | 0, _, _ => none
  | n + 1, bytes, length =>
    if length < bytes then (grownLength length).toOption.bind (growTo n bytes) else some length

def Request.serve (length : ℕ) : Request → Option ℕ
  | reserve bytes => growTo 32 bytes length
  | vtable _ _ bytes => if bytes ≤ length then some length else none

def serve (length : ℕ) (requests : List Request) : Option ℕ :=
  requests.foldlM Request.serve length

lemma serve_concat (length : ℕ) (requests : List Request) (request : Request) :
    serve length (requests ++ [request]) =
      (serve length requests).bind fun length => request.serve length := by
  simp only [serve, foldlM_append, foldlM_cons, foldlM_nil, bind_pure]
  rfl

lemma serve_eq_none_of_fewer {length : ℕ} {requests requests' : List Request}
    (h : requests <+: requests') (hnone : serve length requests = none) :
    serve length requests' = none := by
  obtain ⟨more, rfl⟩ := h
  simp only [serve, foldlM_append]
  rw [show List.foldlM Request.serve length requests = none from hnone]
  rfl

def intBytes (size : ℕ) (value : ℤ) : List UInt8 := littleEndian size (asUintN (8 * size) value)

@[simp] lemma length_intBytes (size : ℕ) (value : ℤ) : (intBytes size value).length = size :=
  length_littleEndian _ _

lemma ofLittleEndian_intBytes (size : ℕ) (value : ℤ) :
    ofLittleEndian (intBytes size value) = asUintN (8 * size) value := by
  refine ofLittleEndian_littleEndian ?_
  rw [show (0x100 : ℕ) = 2 ^ 8 by rfl, ← pow_mul]
  exact asUintN_lt _ _

lemma ofLittleEndian_intBytes_two (value : ℕ) :
    ofLittleEndian (intBytes 2 value) = value % 2 ^ 16 := by
  rw [ofLittleEndian_intBytes]
  simp only [asUintN]
  omega

variable {written : List UInt8} {offset : ℕ}

/-- What stands before the others does not change where they are, from the end. -/
lemma rtake_append {before : List UInt8} (h : offset ≤ written.length) :
    (before ++ written).rtake offset = written.rtake offset := by
  rw [List.rtake, List.rtake, length_append, show before.length + written.length - offset =
      before.length + (written.length - offset) by omega, drop_length_add_append]

lemma rtake_length (written : List UInt8) : written.rtake written.length = written := by
  simp [List.rtake]

/-- The bytes stand at a distance from the end of others. -/
def Holds (written : List UInt8) (offset : ℕ) (bytes : List UInt8) : Prop :=
  offset ≤ written.length ∧ bytes <+: written.rtake offset

/-- At a distance from the end there is a vtable: it begins with its length. -/
def IsVtable (written : List UInt8) (offset : ℕ) : Prop :=
  ∃ n : ℕ, 4 ≤ n ∧ n ≤ offset ∧ Holds written offset (intBytes 2 n)

lemma Holds.append {bytes : List UInt8} (h : Holds written offset bytes) (before : List UInt8) :
    Holds (before ++ written) offset bytes := by
  refine ⟨by have := h.1; simp; omega, ?_⟩
  rw [rtake_append h.1]
  exact h.2

lemma IsVtable.append (h : IsVtable written offset)
    (before : List UInt8) : IsVtable (before ++ written) offset := by
  obtain ⟨n, hn, hoffset, hholds⟩ := h
  exact ⟨n, hn, hoffset, hholds.append before⟩

/-- What was written, vtables included, and what the buffer was asked for. -/
structure Layout where
  written : List UInt8
  minalign : ℕ
  vtables : List ℕ
  requests : List Request
  isVtable : ∀ offset ∈ vtables, IsVtable written offset

namespace Layout

def empty : Layout := ⟨[], 1, [], [], by simp⟩

variable (a : Layout)

def used : ℕ := a.written.length

def put (bytes : List UInt8) : Layout :=
  { a with
    written := bytes ++ a.written
    isVtable := fun offset h => (a.isVtable offset h).append bytes }

def ask (request : Request) : Layout := { a with requests := a.requests ++ [request] }

def noteVtable (h : IsVtable a.written a.used) : Layout :=
  { a with
    vtables := a.vtables ++ [a.used]
    isVtable := by
      intro offset hoffset
      rcases mem_append.mp hoffset with hoffset | hoffset
      · exact a.isVtable offset hoffset
      · rwa [mem_singleton.mp hoffset] }

variable (a : Layout) (bytes : List UInt8)

@[simp] lemma put_written :
    (a.put bytes).written = bytes ++ a.written := rfl

@[simp] lemma put_vtables :
    (a.put bytes).vtables = a.vtables := rfl

@[simp] lemma put_requests :
    (a.put bytes).requests = a.requests := rfl

@[simp] lemma used_put :
    (a.put bytes).used = bytes.length + a.used := length_append

variable (request : Request)

@[simp] theorem ask_written :
    (a.ask request).written = a.written := rfl

@[simp] lemma ask_requests :
    (a.ask request).requests = a.requests ++ [request] := rfl

section

variable (h : IsVtable a.written a.used)

include h

@[simp] lemma noteVtable_written :
    (a.noteVtable h).written = a.written := rfl

@[simp] lemma noteVtable_vtables :
    (a.noteVtable h).vtables = a.vtables ++ [a.used] := rfl

@[simp] lemma used_noteVtable :
    (a.noteVtable h).used = a.used := rfl

end

def prep (a : Layout) (size additionalBytes : ℕ) : Layout :=
  let align := alignSize size (a.used + additionalBytes)
  ({ a with minalign := max a.minalign size }.ask
    (.reserve (a.used + (align + size + additionalBytes)))).put (List.replicate align 0)

lemma used_prep (size additionalBytes : ℕ) :
    (a.prep size additionalBytes).used = alignSize size (a.used + additionalBytes) + a.used := by
  simp [prep, used]

def addInt (a : Layout) (size : ℕ) (value : ℤ) : Layout :=
  (a.prep size 0).put (intBytes size value)

def addOffset (a : Layout) (offset : ℕ) : Layout :=
  (a.prep 4 0).put (intBytes 4 ((a.prep 4 0).used - offset + 4))

def startVector (a : Layout) (elemSize numElems alignment : ℕ) : Layout :=
  (a.prep 4 (elemSize * numElems)).prep alignment (elemSize * numElems)

lemma used_startVector {elemSize numElems alignment : ℕ} (h : alignment = 1 ∨ alignment = 4) :
    (a.startVector elemSize numElems alignment).used =
      alignSize 4 (a.used + elemSize * numElems) + a.used := by
  rw [startVector, used_prep, used_prep]
  simp only [alignSize]
  rcases h with rfl | rfl <;> omega

def createByteVector (a : Layout) (bytes : List UInt8) : Layout :=
  ((a.startVector 1 bytes.length 1).put bytes).put (intBytes 4 bytes.length)

def createString (a : Layout) (value : String) : Layout :=
  (a.addInt 1 0).createByteVector (utf8 value)

def addOffsets (a : Layout) : List ℕ → Layout
  | [] => a
  | offset :: offsets => (a.addOffsets offsets).addOffset offset

lemma used_addOffsets (offsets : List ℕ) (h : a.used % 4 = 0) :
    (a.addOffsets offsets).used = a.used + 4 * offsets.length := by
  induction offsets with
  | nil => rfl
  | cons offset offsets ih =>
    rw [addOffsets, addOffset, used_put, used_prep, ih, length_intBytes, length_cons, alignSize]
    omega

lemma used_startVector_mod (numElems : ℕ) : (a.startVector 4 numElems 4).used % 4 = 0 := by
  rw [used_startVector _ (.inr rfl), alignSize]
  omega

variable (a : Layout)

def createOffsetVector (offsets : List ℕ) : Layout :=
  ((a.startVector 4 offsets.length 4).addOffsets offsets).put (intBytes 4 offsets.length)

/-- The field whose bytes were written last is noted in the vtable. -/
def slot (vtable : List ℕ) (id : ℕ) : Layout × List ℕ := (a, vtable.set id a.used)

variable (force : Bool) (vtable : List ℕ)

/-- `addFieldInt8`, `addFieldInt16`, `addFieldInt32` and `addFieldInt64`. -/
def addFieldInt (size id : ℕ) (value defaultValue : ℤ) : Layout × List ℕ :=
  if force = true ∨ value ≠ defaultValue then (a.addInt size value).slot vtable id
  else (a, vtable)

def addFieldOffset (id offset : ℕ) : Layout × List ℕ :=
  if offset ≠ 0 then (a.addOffset offset).slot vtable id else (a, vtable)

def addSlot (id : ℕ) : Slot → Layout × List ℕ
  | .bool value defaultValue =>
    a.addFieldInt force vtable 1 id (if value then 1 else 0) (if defaultValue then 1 else 0)
  | .int type value defaultValue => a.addFieldInt force vtable type.size id value defaultValue
  | .offset offset => a.addFieldOffset vtable id offset

def addSlots (a : Layout) (force : Bool) (vtable : List ℕ) : List (ℕ × Slot) → Layout × List ℕ
  | [] => (a, vtable)
  | (id, value) :: slots =>
    let (a, vtable) := a.addSlot force vtable id value
    a.addSlots force vtable slots

lemma length_addSlot (id : ℕ) (value : Slot) :
    (a.addSlot force vtable id value).2.length = vtable.length := by
  cases value with
  | bool value defaultValue | int type value defaultValue =>
    rw [addSlot, addFieldInt]; split_ifs <;> simp [slot]
  | offset offset => rw [addSlot, addFieldOffset]; split_ifs <;> simp [slot]

lemma length_addSlots (slots : List (ℕ × Slot)) (a : Layout) (vtable : List ℕ) :
    (a.addSlots force vtable slots).2.length = vtable.length := by
  induction slots generalizing a vtable with
  | nil => rfl
  | cons entry slots ih =>
    exact (ih _ _).trans (a.length_addSlot force vtable entry.1 entry.2)

/-- The entry of a vtable for a field that ends `entry` bytes before the end. -/
def entryValue (vtableLoc entry : ℕ) : ℤ := if entry ≠ 0 then (vtableLoc : ℤ) - entry else 0

def vtableBytes (vtableLoc objectStart : ℕ) (entries : List ℕ) : List UInt8 :=
  intBytes 2 ((entries.length + 2) * 2 : ℕ) ++ (intBytes 2 ((vtableLoc : ℤ) - objectStart) ++
    entries.flatMap fun entry => intBytes 2 (entryValue vtableLoc entry))

lemma length_entryBytes (vtableLoc : ℕ) (entries : List ℕ) :
    (entries.flatMap fun entry => intBytes 2 (entryValue vtableLoc entry)).length =
      entries.length * 2 := by
  simp [length_flatMap]

variable (vtableLoc objectStart : ℕ)

lemma length_vtableBytes (entries : List ℕ) :
    (vtableBytes vtableLoc objectStart entries).length = (entries.length + 2) * 2 := by
  simp only [vtableBytes, length_append, length_intBytes, length_entryBytes]
  omega

lemma isVtable_vtableBytes (entries : List ℕ) :
    IsVtable (a.put (vtableBytes vtableLoc objectStart entries)).written
      (a.put (vtableBytes vtableLoc objectStart entries)).used := by
  refine ⟨(entries.length + 2) * 2, by omega, ?_, le_rfl, ?_⟩
  · simp only [used, put, length_append, length_vtableBytes]
    omega
  · rw [used, rtake_length, put_written, vtableBytes, append_assoc]
    exact prefix_append _ _

variable (a : Layout)

/-- The same vtable, written before; lengths are compared as signed integers, so only below 2 ^ 15.
-/
def existingVtable (vtable : List UInt8) : Option ℕ :=
  a.vtables.find? fun candidate =>
    vtable.length < 2 ^ 15 ∧ vtable <+: a.written.rtake candidate

/-- The reference to the vtable, and the vtable unless there is one already. -/
def linkVtable (vtableLoc objectStart : ℕ) (entries : List ℕ) : Option ℕ → Layout
  | some existing => a.put (intBytes 4 ((existing : ℤ) - vtableLoc))
  | none =>
    ((a.put (intBytes 4 ((entries.length + 2) * 2 : ℕ))).put
      (vtableBytes vtableLoc objectStart entries)).noteVtable
        (isVtable_vtableBytes _ vtableLoc objectStart entries)

def vtableRequest (vtableLoc objectStart : ℕ) (entries : List ℕ) : Request :=
  .vtable (vtableLoc - objectStart) ((entries.length + 2) * 2)
    (vtableLoc + (entries.length + 2) * 2)

def endTable (objectStart : ℕ) (vtable : List ℕ) : ℕ × Layout :=
  let a := a.prep 4 0
  let vtableLoc := a.used + 4
  let entries := trimmed vtable
  let a := a.ask (vtableRequest vtableLoc objectStart entries)
  (vtableLoc, a.linkVtable vtableLoc objectStart entries
    (a.existingVtable (vtableBytes vtableLoc objectStart entries)))

/-- `startTable`, the fields and `endTable`. -/
def createTable (force : Bool) (numFields : ℕ) (slots : List (ℕ × Slot)) : ℕ × Layout :=
  let (a', vtable) := a.addSlots force (List.replicate numFields 0) slots
  a'.endTable a.used vtable

mutual

def putTable (force : Bool) : Table → Layout → ℕ × Layout
  | .mk numFields fields, a =>
    let (slots, a) := putFields force fields a
    a.createTable force numFields slots

def putFields (force : Bool) : List (ℕ × Field) → Layout → List (ℕ × Slot) × Layout
  | [], a => ([], a)
  | (id, field) :: fields, a =>
    let (value, a) := putField force field a
    let (slots, a) := putFields force fields a
    ((id, value) :: slots, a)

def putField (force : Bool) : Field → Layout → Slot × Layout
  | .bool value defaultValue, a => (.bool value defaultValue, a)
  | .int type value defaultValue, a => (.int type value defaultValue, a)
  | .string value, a => (.offset (a.createString value).used, a.createString value)
  | .bytes value, a => (.offset (a.createByteVector value).used, a.createByteVector value)
  | .table value, a =>
    let (offset, a) := putTable force value a
    (.offset offset, a)
  | .tables values, a =>
    let (offsets, a) := putTables force values a
    (.offset (a.createOffsetVector offsets).used, a.createOffsetVector offsets)

def putTables (force : Bool) : List Table → Layout → List ℕ × Layout
  | [], a => ([], a)
  | table :: tables, a =>
    let (offset, a) := putTable force table a
    let (offsets, a) := putTables force tables a
    (offset :: offsets, a)

end

def finish (a : Layout) (rootTable : ℕ) : Layout := (a.prep a.minalign 4).addOffset rootTable

end Layout

/-! ## Layouts grow -/

namespace Layout

/-- A layout has what another has, perhaps more before it and more requests after it. -/
structure Grows (a a' : Layout) : Prop where
  written : a.written <:+ a'.written
  requests : a.requests <+: a'.requests

namespace Grows

lemma refl (a : Layout) : Grows a a := ⟨suffix_refl _, prefix_refl _⟩

lemma trans {a a' a'' : Layout} (h : Grows a a') (h' : Grows a' a'') : Grows a a'' :=
  ⟨h.written.trans h'.written, h.requests.trans h'.requests⟩

lemma used {a a' : Layout} (h : Grows a a') : a.used ≤ a'.used := h.written.length_le

end Grows

variable (a : Layout)

lemma grows_put (bytes : List UInt8) : Grows a (a.put bytes) :=
  ⟨suffix_append _ _, prefix_refl _⟩

lemma grows_ask (request : Request) : Grows a (a.ask request) :=
  ⟨suffix_refl _, prefix_append _ _⟩

lemma grows_noteVtable (h : IsVtable a.written a.used) :
    Grows a (a.noteVtable h) := ⟨suffix_refl _, prefix_refl _⟩

lemma grows_prep (size additionalBytes : ℕ) : Grows a (a.prep size additionalBytes) :=
  ⟨suffix_append _ _, prefix_append _ _⟩

lemma grows_addInt (size : ℕ) (value : ℤ) : Grows a (a.addInt size value) :=
  (a.grows_prep size 0).trans (grows_put _ _)

lemma grows_addOffset (offset : ℕ) : Grows a (a.addOffset offset) :=
  (a.grows_prep 4 0).trans (grows_put _ _)

lemma grows_startVector (elemSize numElems alignment : ℕ) :
    Grows a (a.startVector elemSize numElems alignment) :=
  (a.grows_prep _ _).trans (grows_prep _ _ _)

lemma grows_createByteVector (bytes : List UInt8) : Grows a (a.createByteVector bytes) :=
  ((a.grows_startVector 1 bytes.length 1).trans (grows_put _ _)).trans (grows_put _ _)

lemma grows_createString (value : String) : Grows a (a.createString value) :=
  (a.grows_addInt 1 0).trans (grows_createByteVector _ _)

lemma grows_addOffsets (offsets : List ℕ) : Grows a (a.addOffsets offsets) := by
  induction offsets with
  | nil => exact Grows.refl a
  | cons offset offsets ih => exact ih.trans (grows_addOffset _ _)

lemma grows_createOffsetVector (offsets : List ℕ) : Grows a (a.createOffsetVector offsets) :=
  ((a.grows_startVector 4 offsets.length 4).trans (grows_addOffsets _ _)).trans (grows_put _ _)

variable (force : Bool)

lemma grows_addFieldInt (vtable : List ℕ) (size id : ℕ) (value defaultValue : ℤ) :
    Grows a (a.addFieldInt force vtable size id value defaultValue).1 := by
  rw [addFieldInt]
  split_ifs
  · exact grows_addInt _ _ _
  · exact Grows.refl a

lemma grows_addSlot (vtable : List ℕ) (id : ℕ) (value : Slot) :
    Grows a (a.addSlot force vtable id value).1 := by
  cases value with
  | bool value defaultValue | int type value defaultValue => exact grows_addFieldInt _ _ _ _ _ _ _
  | offset offset =>
    rw [addSlot, addFieldOffset]
    split_ifs
    · exact grows_addOffset _ _
    · exact Grows.refl a

lemma grows_addSlots (slots : List (ℕ × Slot)) (a : Layout) (vtable : List ℕ) :
    Grows a (a.addSlots force vtable slots).1 := by
  induction slots generalizing a vtable with
  | nil => exact Grows.refl a
  | cons entry slots ih => exact (a.grows_addSlot force vtable entry.1 entry.2).trans (ih _ _)

lemma grows_linkVtable (vtableLoc objectStart : ℕ) (entries : List ℕ)
    (existing : Option ℕ) : Grows a (a.linkVtable vtableLoc objectStart entries existing) := by
  cases existing with
  | some existing => exact grows_put _ _
  | none =>
    have hput := (a.grows_put (intBytes 4 ((entries.length + 2) * 2 : ℕ))).trans
      (grows_put _ (vtableBytes vtableLoc objectStart entries))
    exact hput.trans (grows_noteVtable _ (isVtable_vtableBytes _ _ _ _))

lemma grows_endTable (objectStart : ℕ) (vtable : List ℕ) :
    Grows a (a.endTable objectStart vtable).2 :=
  ((a.grows_prep 4 0).trans (grows_ask _ _)).trans (grows_linkVtable _ _ _ _ _)

lemma grows_createTable (numFields : ℕ) (slots : List (ℕ × Slot)) :
    Grows a (a.createTable force numFields slots).2 :=
  (grows_addSlots force slots a _).trans (grows_endTable _ _ _)

mutual

lemma grows_putTable (force : Bool) (table : Table) (a : Layout) :
    Grows a (a.putTable force table).2 := by
  cases table with
  | mk numFields fields =>
    exact (grows_putFields force fields a).trans (grows_createTable _ _ _ _)

lemma grows_putFields (force : Bool) (fields : List (ℕ × Field)) (a : Layout) :
    Grows a (a.putFields force fields).2 := by
  cases fields with
  | nil => exact Grows.refl a
  | cons entry fields =>
    exact (grows_putField force entry.2 a).trans (grows_putFields force fields _)

lemma grows_putField (force : Bool) (field : Field) (a : Layout) :
    Grows a (a.putField force field).2 := by
  cases field with
  | bool value defaultValue | int type value defaultValue => exact Grows.refl a
  | string value => exact grows_createString _ _
  | bytes value => exact grows_createByteVector _ _
  | table value => exact grows_putTable force value a
  | tables values =>
    exact (grows_putTables force values a).trans (grows_createOffsetVector _ _)

lemma grows_putTables (force : Bool) (tables : List Table) (a : Layout) :
    Grows a (a.putTables force tables).2 := by
  cases tables with
  | nil => exact Grows.refl a
  | cons table tables =>
    exact (grows_putTable force table a).trans (grows_putTables force tables _)

end

lemma grows_finish (a : Layout) (rootTable : ℕ) : Grows a (a.finish rootTable) :=
  (a.grows_prep _ _).trans (grows_addOffset _ _)

end Layout

def layout (force : Bool) (table : Table) : Layout :=
  let (offset, a) := Layout.empty.putTable force table
  a.finish offset

end Fino.FlatBuffers
