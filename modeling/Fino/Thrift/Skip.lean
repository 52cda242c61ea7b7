import Fino.Thrift.Compact

/-!
# Skipping values

`skip` of `js/internal/format/thrift/value.ts`, and the loop of a decoder that reads the fields it
knows and skips the others. Over any protocol in which `readBinary` goes as far as `readString`,
`skip` goes as far as `readValue`, by induction on the bound of both: a value is read and skipped by
the same calls of the protocol, and only what is built from them is dropped.
-/

namespace Fino.Thrift

open Lib Lib.Framing

/-! ## The model -/

section

variable (protocol : Protocol)

/-- The loop over the fields of a struct in `skip`. -/
def skipFields (skip : TType → protocol.Reading Unit) : ℕ → protocol.Reading Unit
  | 0 => throw .bound
  | n + 1 => do
    let field ← protocol.readFieldBegin
    if field.type = .stop then return ()
    else
      skip field.type
      protocol.readFieldEnd
      skipFields skip n

/-- `skip`, with the `readBinary` of the protocol. -/
def skip (readBinary : protocol.Reading (List UInt8)) : ℕ → TType → protocol.Reading Unit
  | 0, _ => throw .bound
  | n + 1, type =>
    match type with
    | .bool => do let _ ← protocol.readBool; return ()
    | .byte => do let _ ← protocol.readByte; return ()
    | .i16 => do let _ ← protocol.readI16; return ()
    | .i32 => do let _ ← protocol.readI32; return ()
    | .i64 => do let _ ← protocol.readI64; return ()
    | .double => do let _ ← protocol.readDouble; return ()
    | .string => do let _ ← readBinary; return ()
    | .struct => do
      protocol.readStructBegin
      skipFields protocol (skip readBinary n) n
      protocol.readStructEnd
    | .list => do
      let header ← protocol.readListBegin
      let _ ← readTimes (skip readBinary n header.elemType) header.size.toNat
      protocol.readListEnd
    | .set => do
      let header ← protocol.readSetBegin
      let _ ← readTimes (skip readBinary n header.elemType) header.size.toNat
      protocol.readSetEnd
    | .map => do
      let header ← protocol.readMapBegin
      let skipEntry := do
        skip readBinary n header.keyType
        skip readBinary n header.valueType
      let _ ← readTimes skipEntry header.size.toNat
      protocol.readMapEnd
    | type => throw (.cannotSkip type)

/-- The loop of a decoder that skips the fields it does not know. -/
def readKnown (readBinary : protocol.Reading (List UInt8)) (known : ℤ → Bool) (depth : ℕ) :
    ℕ → protocol.Reading (List (ℤ × ThriftValue))
  | 0 => throw .bound
  | n + 1 => do
    let field ← protocol.readFieldBegin
    if field.type = .stop then return []
    else if known field.id then
      let value ← readValue protocol depth field.type
      protocol.readFieldEnd
      let fields ← readKnown readBinary known depth n
      return (field.id, value) :: fields
    else
      skip protocol readBinary depth field.type
      protocol.readFieldEnd
      readKnown readBinary known depth n

end

section

variable {protocol : Protocol} {readBinary : protocol.Reading (List UInt8)}

/-- What is read is dropped. -/
abbrev drop {α : Type} (_ : α) : Unit := ()

lemma retraces_skipFields {skip : TType → protocol.Reading Unit}
    {read : TType → protocol.Reading ThriftValue}
    (h : ∀ type, Retraces (skip type) (read type) drop) (n : ℕ) :
    Retraces (skipFields protocol skip n) (readFields protocol read n) drop := by
  induction n with
  | zero => exact nofun
  | succ n ih =>
    refine retraces_bind fun field => ?_
    split_ifs with hstop
    · exact retraces_pure rfl
    · refine (h field.type).bind fun value => retraces_bind fun _ => ?_
      exact ih.of_map fun _ => rfl

/-- `skip` goes as far as `readValue`, where `readBinary` goes as far as `readString`. -/
lemma retraces_skip
    (hstring : Retraces (do let _ ← readBinary; return ()) protocol.readString drop) (n : ℕ)
    (type : TType) :
    Retraces (skip protocol readBinary n type) (readValue protocol n type) drop := by
  induction n generalizing type with
  | zero => exact nofun
  | succ n ih =>
    cases type with
    | bool | byte | i16 | i32 | i64 | double => exact retraces_bind fun _ => retraces_pure rfl
    | string => exact hstring.of_map fun _ => rfl
    | struct =>
      refine Retraces.of_map (f := drop) ?_ fun _ => rfl
      refine retraces_bind fun _ => (retraces_skipFields ih n).bind fun _ => ?_
      exact (retraces_self _).of_map fun _ => rfl
    | list | set =>
      refine retraces_bind fun header => ((ih header.elemType).readTimes _).bind fun _ => ?_
      exact (retraces_self _).of_map fun _ => rfl
    | map =>
      refine retraces_bind fun header => (Retraces.readTimes (f := drop) ?_ _).bind fun _ => ?_
      · exact (ih header.keyType).bind fun _ => (ih header.valueType).of_map fun _ => rfl
      · exact (retraces_self _).of_map fun _ => rfl
    | stop | void | unknown => exact nofun

/-- A decoder that skips what it does not know gets the fields it knows of all that are there. -/
lemma retraces_readKnown
    (hstring : Retraces (do let _ ← readBinary; return ()) protocol.readString drop)
    (known : ℤ → Bool) (depth n : ℕ) :
    Retraces (readKnown protocol readBinary known depth n)
      (readFields protocol (readValue protocol depth) n) (List.filter (known ·.1)) := by
  induction n with
  | zero => exact nofun
  | succ n ih =>
    refine retraces_bind fun field => ?_
    by_cases hstop : field.type = .stop
    · rw [if_pos hstop, if_pos hstop]
      exact retraces_pure rfl
    · rw [if_neg hstop, if_neg hstop]
      split_ifs with hknown
      · refine retraces_bind fun value => retraces_bind fun _ => ih.bind fun fields => ?_
        exact retraces_pure (List.filter_cons_of_pos hknown)
      · refine (retraces_skip hstring depth field.type).bind fun value => retraces_bind fun _ => ?_
        exact ih.of_map fun fields => List.filter_cons_of_neg hknown

end

namespace Compact

open ByteReader

def readBinary : Reading (List UInt8) :=
  liftM (do readBytes (← readVarint32) : ByteReader (List UInt8))

/-- The bytes of a text are read as those of a binary value, and then decoded. -/
lemma readString_eq :
    protocol.readString = (do return TextDecoder.decode (← readBinary) : Reading String) := by
  simp [protocol, readStringValue, readString, readBinary]

lemma retraces_readBinary :
    Retraces (do let _ ← readBinary; return ()) protocol.readString drop := by
  rw [readString_eq]
  exact retraces_bind fun _ => retraces_pure rfl

/-- Whatever the bytes are, the place and the context: where `readValue` succeeds, `skip` does as
well, and leaves the reader as `readValue` does; and of a struct whose fields are all read, a
decoder that skips the fields it does not know gets those it knows, whatever the others are. -/
theorem skip_follows_readValue (n : ℕ) (d d' : protocol.ReadContext) (i i' : Input UInt8) :
    (∀ type value, readValue protocol n type d i = .ok ((value, d'), i') →
      skip protocol readBinary n type d i = .ok (((), d'), i')) ∧
    ∀ known fields, readFields protocol (readValue protocol n) n d i = .ok ((fields, d'), i') →
      readKnown protocol readBinary known n n d i =
        .ok ((fields.filter (known ·.1), d'), i') :=
  ⟨fun type _ h => retraces_skip retraces_readBinary n type h,
    fun known _ h => retraces_readKnown retraces_readBinary known n n h⟩

/-- A struct with a boolean and a number, as field 3 of a struct, and again for a decoder that knows
only the boolean. -/
theorem struct_is_skipped :
    let i : Input UInt8 := ⟨[0x11, 0x25, 14, 0, 9], 0⟩
    let i' : Input UInt8 := ⟨[9], 4⟩
    skip protocol readBinary 4 .struct ⟨3, [1], none⟩ i = .ok (((), ⟨3, [1], none⟩), i') ∧
    readKnown protocol readBinary (· = 1) 3 3 ⟨0, [3, 1], none⟩ i =
      .ok (([(1, .bool true)], ⟨3, [3, 1], none⟩), i') :=
  ⟨(skip_follows_readValue 4 _ _ _ _).1 .struct (.struct [(1, .bool true), (3, .i32 7)]) rfl,
    (skip_follows_readValue 3 _ _ _ _).2 (· = 1) [(1, .bool true), (3, .i32 7)] rfl⟩

end Compact

end Fino.Thrift
