import Fino.Thrift.Image

/-!
# What a protocol does to values

`Laws` says that each reader finds what its writer has written and that brackets leave the contexts
as they were; `text` and `emptyMap` say what is lost. Then a value is read as its `image`
(`Laws.keeps_value`), and so are structs (`Laws.decodeStruct_encodeStruct`).
-/

namespace Fino.Thrift

open Lib List Lib.Framing Lib.Wire ThriftValue

namespace Protocol

variable (protocol : Protocol)

def endStruct : protocol.Writing := do
  protocol.writeFieldStop
  protocol.writeStructEnd

def endedStruct : protocol.Reading (FieldHeader × Unit) := do
  let field ← protocol.readFieldBegin
  let ending ← protocol.readStructEnd
  return (field, ending)

/-- The boolean of a field, up to the end of the field. -/
def boolOfField : protocol.Reading Bool := do
  let value ← protocol.readBool
  protocol.readFieldEnd
  return value

end Protocol

/-- What a protocol does, operation by operation. -/
structure Laws (protocol : Protocol) where
  /-- What an item leaves alone. -/
  Key : Type
  /-- The contexts that fit together. -/
  frame : Frame protocol.Symbol protocol.WriteContext protocol.ReadContext Key
  /-- What is read of a text. -/
  text : String → String
  /-- What is read of the types of an empty map. -/
  emptyMap : TType → TType → Option (TType × TType)
  /-- No text becomes longer. -/
  length_text : ∀ s, (utf8 (text s)).length ≤ (utf8 s).length
  /-- Types become types, or none. -/
  emptyMap_typed : ∀ {keyType valueType types}, emptyMap keyType valueType = some types →
    TypesOf true keyType valueType [] → TypesOf true types.1 types.2 []
  /-- An item may be the last one. -/
  follows_nil : frame.Follows []
  /-- What begins as a struct comes through as bytes. -/
  symbols_bytes : ∀ l c l', Writes protocol.writeStructBegin protocol.initialWrite l c →
    protocol.symbols (protocol.bytes (l ++ l')) = l ++ l'
  /-- A struct may be everything that is written. -/
  root : frame.Opens (fun c d => c = protocol.initialWrite ∧ d = protocol.initialRead)
    protocol.writeStructBegin protocol.readStructBegin (some ()) protocol.endStruct
    protocol.endedStruct (⟨.stop, 0⟩, ())
  /-- A struct is an item, and is told from its fields by a header of its own. -/
  struct : frame.Encloses protocol.writeStructBegin protocol.readStructBegin (some ())
    protocol.endStruct protocol.endedStruct (⟨.stop, 0⟩, ())
  /-- A field has a header and an end. -/
  field : ∀ {type id}, type.isValueType = true → type ≠ .bool → InRange 15 id →
    frame.Encloses (protocol.writeFieldBegin type id) protocol.readFieldBegin (some ⟨type, id⟩)
      protocol.writeFieldEnd protocol.readFieldEnd ()
  /-- The boolean of a field may be part of the header. -/
  boolField : ∀ {id} value, InRange 15 id →
    frame.Keeps
      (do protocol.writeFieldBegin .bool id; protocol.writeBool value; protocol.writeFieldEnd)
      (do let field ← protocol.readFieldBegin; let value ← protocol.boolOfField
          return (field, value))
      (some (⟨.bool, id⟩, value))
  /-- A list has a header and an end. -/
  list : ∀ {elemType size}, elemType.isValueType = true → size < 2 ^ 31 →
    frame.Encloses (protocol.writeListBegin elemType size) protocol.readListBegin
      (some ⟨elemType, size⟩) protocol.writeListEnd protocol.readListEnd ()
  /-- A set has a header and an end. -/
  set : ∀ {elemType size}, elemType.isValueType = true → size < 2 ^ 31 →
    frame.Encloses (protocol.writeSetBegin elemType size) protocol.readSetBegin
      (some ⟨elemType, size⟩) protocol.writeSetEnd protocol.readSetEnd ()
  /-- A map that is not empty has a header and an end. -/
  map : ∀ {keyType valueType size}, keyType.isValueType = true → valueType.isValueType = true →
    size < 2 ^ 31 → size ≠ 0 →
    frame.Encloses (protocol.writeMapBegin keyType valueType size) protocol.readMapBegin
      (some ⟨keyType, valueType, size⟩) protocol.writeMapEnd protocol.readMapEnd ()
  /-- An empty map has a header and an end, or is not read. -/
  mapOfNone : ∀ {keyType valueType}, TypesOf true keyType valueType [] →
    frame.Encloses (protocol.writeMapBegin keyType valueType 0) protocol.readMapBegin
      ((emptyMap keyType valueType).map fun types => ⟨types.1, types.2, 0⟩)
      protocol.writeMapEnd protocol.readMapEnd ()
  /-- A boolean is an item. -/
  bool : ∀ value, frame.Keeps (protocol.writeBool value) protocol.readBool (some value)
  /-- An integer of 8 bits is an item. -/
  byte : ∀ {value}, InRange 7 value →
    frame.Keeps (protocol.writeByte value) protocol.readByte (some value)
  /-- An integer of 16 bits is an item. -/
  i16 : ∀ {value}, InRange 15 value →
    frame.Keeps (protocol.writeI16 value) protocol.readI16 (some value)
  /-- An integer of 32 bits is an item. -/
  i32 : ∀ {value}, InRange 31 value →
    frame.Keeps (protocol.writeI32 value) protocol.readI32 (some value)
  /-- An integer of 64 bits is an item. -/
  i64 : ∀ {value}, InRange 63 value →
    frame.Keeps (protocol.writeI64 value) protocol.readI64 (some value)
  /-- A text is an item. -/
  string : ∀ {value}, (utf8 value).length < 2 ^ 31 →
    frame.Keeps (protocol.writeString value) protocol.readString (some (text value))

lemma keeps_boolField {protocol : Protocol} {κ : Type}
    {F : Frame protocol.Symbol protocol.WriteContext protocol.ReadContext κ} {id : ℤ} {value : Bool}
    (hfield : F.Encloses (protocol.writeFieldBegin .bool id) protocol.readFieldBegin
      (some ⟨.bool, id⟩) protocol.writeFieldEnd protocol.readFieldEnd ())
    (hvalue : F.Keeps (protocol.writeBool value) protocol.readBool (some value)) :
    F.Keeps (do protocol.writeFieldBegin .bool id; protocol.writeBool value; protocol.writeFieldEnd)
      (do let field ← protocol.readFieldBegin; let value ← protocol.boolOfField
          return (field, value))
      (some (⟨.bool, id⟩, value)) :=
  hfield.keeps_some (hvalue.map fun value => ((⟨.bool, id⟩ : FieldHeader), value))
    (by simp [Protocol.boolOfField])

/-! ## Loops -/

section Loops

variable {protocol : Protocol}

def writeField (protocol : Protocol) (field : ℤ × ThriftValue) : protocol.Writing := do
  protocol.writeFieldBegin field.2.type field.1
  writeValue protocol field.2
  protocol.writeFieldEnd

def writeEntry (protocol : Protocol) (entry : ThriftValue × ThriftValue) : protocol.Writing := do
  writeValue protocol entry.1
  writeValue protocol entry.2

lemma writeFields_eq (fields : List (ℤ × ThriftValue)) :
    writeFields protocol fields = writeEach (writeField protocol) fields := by
  induction fields with
  | nil => rw [writeFields, writeEach]
  | cons field fields ih =>
    rw [writeFields, writeEach, ih, writeField]
    simp only [bind_assoc]

lemma writeValues_eq (values : List ThriftValue) :
    writeValues protocol values = writeEach (writeValue protocol) values := by
  induction values with
  | nil => rw [writeValues, writeEach]
  | cons value values ih => rw [writeValues, writeEach, ih]

lemma writeEntries_eq (entries : List (ThriftValue × ThriftValue)) :
    writeEntries protocol entries = writeEach (writeEntry protocol) entries := by
  induction entries with
  | nil => rw [writeEntries, writeEach]
  | cons entry entries ih =>
    rw [writeEntries, writeEach, ih, writeEntry]
    simp only [bind_assoc]

def readField (protocol : Protocol) (read : TType → protocol.Reading ThriftValue) :
    protocol.Reading (Option (ℤ × ThriftValue)) := do
  let field ← protocol.readFieldBegin
  if field.type = .stop then return none
  else
    let value ← read field.type
    protocol.readFieldEnd
    return some (field.id, value)

lemma readFields_succ (read : TType → protocol.Reading ThriftValue) (n : ℕ) :
    readFields protocol read (n + 1) = readField protocol read >>= fun field =>
      field.elim (pure []) fun field => (field :: ·) <$> readFields protocol read n := by
  rw [readFields, readField, bind_assoc]
  congr 1
  funext field
  split_ifs <;> simp

end Loops

/-! ## Values -/

namespace Laws

variable {protocol : Protocol} (laws : Laws protocol)

def imageOf (value : ThriftValue) : Option ThriftValue := value.image laws.text laws.emptyMap

/-- The value is read as its image by whoever may read `n` values, one in the other. -/
def KeepsValue (n : ℕ) (value : ThriftValue) : Prop :=
  laws.frame.Keeps (writeValue protocol value) (readValue protocol n value.type)
    (laws.imageOf value)

def imageOfFields (fields : List (ℤ × ThriftValue)) : Option (List (ℤ × ThriftValue)) :=
  fields.mapM (imageOfField laws.text laws.emptyMap)

/-- A field is read as the image of what was written. -/
def KeepsField (read : TType → protocol.Reading ThriftValue) (field : ℤ × ThriftValue) : Prop :=
  laws.frame.Keeps (writeField protocol field) (readField protocol read)
    ((imageOfField laws.text laws.emptyMap field).map some)

variable {value : ThriftValue} {n : ℕ}

lemma keeps_field {id : ℤ} (hid : InRange 15 id) (htype : value.type.isValueType)
    (h : laws.KeepsValue (n + 1) value) :
    laws.KeepsField (readValue protocol (n + 1)) (id, value) := by
  by_cases hbool : value.type = .bool
  · -- The boolean may be part of the header.
    cases value with
    | bool value =>
      intro key c d hrelated
      obtain ⟨c', d', hrelated', hmoves⟩ := laws.boolField value hid key c d hrelated
      refine ⟨c', d', hrelated', ?_⟩
      exact hmoves.of_pair (g := fun value => some (id, ThriftValue.bool value))
        (by simp [Protocol.boolOfField, readValue])
    | _ => simp [ThriftValue.type] at hbool
  · have hstop : value.type ≠ .stop := by
      intro hstop
      simp [hstop, TType.isValueType] at htype
    have hmap := h.map fun value => some (id, value)
    rw [KeepsField, imageOfField, Option.map_map]
    exact (laws.field htype hbool hid).keeps_some hmap (by simp [hstop])

variable {fields : List (ℤ × ThriftValue)} {read : TType → protocol.Reading ThriftValue}
  {R : protocol.WriteContext → protocol.ReadContext → Prop} {key : laws.Key}
  {c : protocol.WriteContext} {d : protocol.ReadContext}

variable {values : List ThriftValue} {elemType : TType}

lemma keeps_values (htype : ∀ value ∈ values, value.type = elemType)
    (h : ∀ value ∈ values, laws.KeepsValue n value) :
    laws.frame.Keeps (writeValues protocol values)
      (readTimes (readValue protocol n elemType) values.length) (values.mapM laws.imageOf) := by
  rw [writeValues_eq]
  refine Frame.keeps_readTimes fun value hvalue => ?_
  have hkeeps := h value hvalue
  rwa [KeepsValue, htype value hvalue] at hkeeps

variable {keyType valueType : TType} {entries : List (ThriftValue × ThriftValue)}

lemma keeps_entries (htype : ∀ entry ∈ entries, entry.1.type = keyType ∧ entry.2.type = valueType)
    (h : ∀ entry ∈ entries, laws.KeepsValue n entry.1 ∧ laws.KeepsValue n entry.2) :
    laws.frame.Keeps (writeEntries protocol entries) (readTimes (do
        let key ← readValue protocol n keyType
        let value ← readValue protocol n valueType
        return (key, value)) entries.length)
      (entries.mapM (imageOfEntry laws.text laws.emptyMap)) := by
  rw [writeEntries_eq]
  refine Frame.keeps_readTimes fun entry hentry => ?_
  obtain ⟨hkey, hvalue⟩ := h entry hentry
  rw [KeepsValue, (htype entry hentry).1] at hkey
  rw [KeepsValue, (htype entry hentry).2] at hvalue
  exact hkey.bind (fun key _ => hvalue.map fun value => (key, value)) hvalue.writable

lemma foldl_setField {done : List (ℤ × ThriftValue)} (h : ((done ++ fields).map Prod.fst).Nodup) :
    fields.foldl setField done = done ++ fields := by
  induction fields generalizing done with
  | nil => rw [foldl_nil, append_nil]
  | cons field fields ih =>
    have hnew : field.1 ∉ done.map Prod.fst := by
      rw [map_append, map_cons, nodup_append] at h
      intro hmem
      exact h.2.2 field.1 hmem field.1 mem_cons_self rfl
    rw [foldl_cons, setField, if_neg hnew, ih (by simpa using h), append_assoc, singleton_append]

lemma map_fst_of_imageOfFields {out : List (ℤ × ThriftValue)}
    (h : laws.imageOfFields fields = some out) : out.map Prod.fst = fields.map Prod.fst := by
  induction fields generalizing out with
  | nil =>
    cases h
    rfl
  | cons field fields ih =>
    rw [imageOfFields, mapM_cons] at h
    obtain ⟨first, hfirst, h⟩ := Option.bind_eq_some_iff.mp h
    obtain ⟨rest, hrest, h⟩ := Option.bind_eq_some_iff.mp h
    cases h
    obtain ⟨value, -, rfl⟩ := Option.map_eq_some_iff.mp hfirst
    rw [map_cons, map_cons, ih hrest]

section Fields

variable (hend : ∀ c d, laws.frame.Related key c d → ∃ c' d', R c' d' ∧ Moves laws.frame.Follows
    c d c' d' protocol.endStruct protocol.endedStruct (some (⟨.stop, 0⟩, ())))
  (hrelated : laws.frame.Related key c d)

include hend hrelated

lemma moves_fields (hfields : ∀ field ∈ fields, laws.KeepsField read field)
    (hn : fields.length < n) :
    ∃ c' d', R c' d' ∧ Moves laws.frame.Follows c d c' d'
      (do writeEach (writeField protocol) fields; protocol.endStruct)
      (do let fields ← readFields protocol read n; protocol.readStructEnd; return fields)
      (laws.imageOfFields fields) := by
  induction fields generalizing n c d with
  | nil =>
    obtain ⟨n, rfl⟩ := Nat.exists_eq_add_of_lt hn
    obtain ⟨c', d', hR, hmoves⟩ := hend c d hrelated
    refine ⟨c', d', hR, ?_⟩
    rw [writeEach, pure_bind, readFields, bind_assoc]
    exact hmoves.of_pair (g := fun _ => []) (by simp)
  | cons field fields ih =>
    obtain ⟨n, rfl⟩ := Nat.exists_eq_succ_of_ne_zero (Nat.ne_zero_of_lt hn)
    obtain ⟨hfield, hfields⟩ := forall_mem_cons.mp hfields
    obtain ⟨c₁, d₁, hrelated₁, hmoves₁⟩ := hfield key c d hrelated
    obtain ⟨c₂, d₂, hR, hmoves₂⟩ := ih hrelated₁ hfields (Nat.lt_of_succ_lt_succ hn)
    refine ⟨c₂, d₂, hR, ?_⟩
    have himage : laws.imageOfFields (field :: fields) =
        ((imageOfField laws.text laws.emptyMap field).map some).bind fun first =>
          first.bind fun field => (laws.imageOfFields fields).map (field :: ·) := by
      rw [imageOfFields, mapM_cons]
      cases imageOfField laws.text laws.emptyMap field with
      | none => rfl
      | some field => exact Option.map_eq_bind.symm
    rw [writeEach, bind_assoc, readFields_succ, bind_assoc, himage]
    refine hmoves₁.bind (fun first hfirst => ?_) hmoves₂.writes
    obtain ⟨field, -, rfl⟩ := Option.map_eq_some_iff.mp hfirst
    have hmap := hmoves₂.map (field :: ·)
    simpa using hmap

lemma moves_struct (hids : (fields.map Prod.fst).Nodup)
    (hfields : ∀ field ∈ fields, laws.KeepsField read field) (hn : fields.length < n) :
    ∃ c' d', R c' d' ∧ Moves laws.frame.Follows c d c' d'
      (do writeFields protocol fields; protocol.endStruct)
      (do let fields ← readFields protocol read n; protocol.readStructEnd
          return fields.foldl setField [])
      (laws.imageOfFields fields) := by
  obtain ⟨c', d', hR, hmoves⟩ := laws.moves_fields hend hrelated hfields hn
  have hfold : (laws.imageOfFields fields).map (·.foldl setField []) =
      laws.imageOfFields fields := by
    cases hout : laws.imageOfFields fields with
    | none => rfl
    | some out =>
      have hnodup : (([] ++ out).map Prod.fst).Nodup := by
        rwa [List.nil_append, laws.map_fst_of_imageOfFields hout]
      rw [Option.map_some, foldl_setField hnodup, List.nil_append]
  have hmap := hmoves.map (·.foldl setField [])
  rw [hfold] at hmap
  simp only [bind_assoc, pure_bind] at hmap
  rw [writeFields_eq]
  exact ⟨c', d', hR, hmap⟩

end Fields

lemma length_fields_le (fields : List (ℤ × ThriftValue)) :
    fields.length ≤ (fields.flatMap fun field => field.2.nodes).length := by
  induction fields with
  | nil => exact Nat.le_refl 0
  | cons field fields ih =>
    have hpos := length_pos_iff.mpr field.2.nodes_ne_nil
    rw [flatMap_cons, length_append, length_cons]
    omega

/-- As many nested values as the value has are enough. -/
def Kept (value : ThriftValue) : Prop :=
  ∀ n, value.WellTyped true → value.nodes.length < n → laws.KeepsValue n value

lemma Kept.of_succ (h : ∀ n, value.WellTyped true → value.nodes.length < n + 1 →
    laws.KeepsValue (n + 1) value) : laws.Kept value := by
  intro n htyped hn
  obtain ⟨n, rfl⟩ := Nat.exists_eq_succ_of_ne_zero (Nat.ne_zero_of_lt hn)
  exact h n htyped hn

lemma keeps_fields (ih : ∀ field ∈ fields, laws.Kept field.2)
    (htyped : (ThriftValue.struct fields).WellTyped true)
    (hn : (ThriftValue.struct fields).nodes.length < n + 1) :
    ∀ field ∈ fields, laws.KeepsField (readValue protocol n) field := by
  intro field hfield
  rw [nodes_struct, length_cons] at hn
  have hle := length_nodes_le (f := fun field : ℤ × ThriftValue => field.2.nodes) hfield
  have hsub : field.2.nodes ⊆ (ThriftValue.struct fields).nodes := by
    rw [nodes_struct]
    exact fun node hnode => mem_cons_of_mem _ (mem_flatMap.mpr ⟨field, hfield, hnode⟩)
  obtain ⟨n, rfl⟩ := Nat.exists_eq_succ_of_ne_zero (show n ≠ 0 by omega)
  exact laws.keeps_field (htyped.isTyped.1 field hfield) field.2.isValueType_type
    (ih field hfield _ (htyped.of_subset hsub) (by omega))

lemma kept_struct (ih : ∀ field ∈ fields, laws.Kept field.2) : laws.Kept (.struct fields) := by
  refine .of_succ laws fun n htyped hn => ?_
  have hlength := length_fields_le fields
  have hfields := laws.keeps_fields ih htyped hn
  rw [nodes_struct, length_cons] at hn
  rw [KeepsValue, imageOf, image_struct]
  refine Frame.Keeps.map (fun key c d hrelated => ?_) ThriftValue.struct
  obtain ⟨key', c₁, d₁, hrelated₁, hbegin, hend⟩ := laws.struct key c d hrelated
  obtain ⟨c₂, d₂, hrelated₂, hmoves⟩ :=
    laws.moves_struct hend hrelated₁ htyped.isTyped.2 hfields (n := n) (by omega)
  refine ⟨c₂, d₂, hrelated₂, ?_⟩
  exact hbegin.bind_some hmoves

lemma kept_values (hnodes : value.nodes = value :: values.flatMap nodes)
    (ih : ∀ value ∈ values, laws.Kept value) (htyped : value.WellTyped true)
    (htype : ∀ value ∈ values, value.type = elemType) (hn : value.nodes.length < n + 1) :
    laws.frame.Keeps (writeValues protocol values)
      (readTimes (readValue protocol n elemType) values.length) (values.mapM laws.imageOf) := by
  refine laws.keeps_values htype fun inner hinner => ih inner hinner n (htyped.of_subset ?_) ?_
  · rw [hnodes]
    exact fun node hnode => mem_cons_of_mem _ (mem_flatMap.mpr ⟨inner, hinner, hnode⟩)
  · have hle := length_nodes_le (f := nodes) hinner
    rw [hnodes, length_cons] at hn
    omega

lemma kept_list (ih : ∀ value ∈ values, laws.Kept value) : laws.Kept (.list elemType values) := by
  refine .of_succ laws fun n htyped hn => ?_
  obtain ⟨hvalueType, hsize, htype⟩ := htyped.isTyped
  have hvalues := laws.kept_values (nodes_list _ _) ih htyped htype hn
  rw [KeepsValue, imageOf, image_list]
  exact (laws.list hvalueType hsize).keeps_some (hvalues.map (ThriftValue.list elemType)) (by simp)

lemma kept_set (ih : ∀ value ∈ values, laws.Kept value) : laws.Kept (.set elemType values) := by
  refine .of_succ laws fun n htyped hn => ?_
  obtain ⟨hvalueType, hsize, htype⟩ := htyped.isTyped
  have hvalues := laws.kept_values (nodes_set _ _) ih htyped htype hn
  rw [KeepsValue, imageOf, image_set]
  exact (laws.set hvalueType hsize).keeps_some (hvalues.map (ThriftValue.set elemType)) (by simp)

lemma kept_map_nil : laws.Kept (.map keyType valueType []) := by
  refine .of_succ laws fun n htyped hn => ?_
  rw [KeepsValue, imageOf, image_map_nil, writeValue, writeEntries]
  have hkeeps := (laws.mapOfNone htyped.isTyped.1).keeps (f := fun header => do
      let entries ← readTimes (do
        let key ← readValue protocol n header.keyType
        let value ← readValue protocol n header.valueType
        return (key, value)) header.size.toNat
      return ThriftValue.map header.keyType header.valueType entries)
    (g := fun header => some (ThriftValue.map header.keyType header.valueType []))
    (fun header hheader => by
      obtain ⟨types, -, rfl⟩ := Option.map_eq_some_iff.mp hheader
      exact Frame.keeps_pure _)
    (Frame.keeps_pure (ε := ThriftError) (F := laws.frame) ()).writable
  have himage : ((laws.emptyMap keyType valueType).map fun types =>
      (⟨types.1, types.2, 0⟩ : MapHeader)).bind
        (fun header => some (ThriftValue.map header.keyType header.valueType [])) =
      (laws.emptyMap keyType valueType).map fun types => .map types.1 types.2 [] := by
    cases laws.emptyMap keyType valueType <;> rfl
  rw [himage] at hkeeps
  simp only [bind_assoc, pure_bind] at hkeeps ⊢
  exact hkeeps

lemma kept_map (ih : ∀ entry ∈ entries, laws.Kept entry.1 ∧ laws.Kept entry.2)
    (hne : entries ≠ []) :
    laws.Kept (.map keyType valueType entries) := by
  refine .of_succ laws fun n htyped hn => ?_
  obtain ⟨htypes, hsize, htype⟩ := htyped.isTyped
  have hsub : ∀ entry ∈ entries, entry.1.nodes ++ entry.2.nodes ⊆
      (ThriftValue.map keyType valueType entries).nodes := by
    intro entry hentry
    rw [nodes_map]
    exact fun node hnode => mem_cons_of_mem _ (mem_flatMap.mpr ⟨entry, hentry, hnode⟩)
  have hentries := laws.keeps_entries htype fun entry hentry => by
    have hle := length_nodes_le
      (f := fun entry : ThriftValue × ThriftValue => entry.1.nodes ++ entry.2.nodes) hentry
    rw [nodes_map, length_cons] at hn
    rw [length_append] at hle
    have hkey := List.Subset.trans (subset_append_left _ _) (hsub entry hentry)
    have hvalue := List.Subset.trans (subset_append_right _ _) (hsub entry hentry)
    exact ⟨(ih entry hentry).1 n (htyped.of_subset hkey) (by omega),
      (ih entry hentry).2 n (htyped.of_subset hvalue) (by omega)⟩
  obtain ⟨hkeyType, hvalueType⟩ := htypes.resolve_right fun h => hne h.2.1
  rw [KeepsValue, imageOf, image_map _ _ _ _ hne]
  exact (laws.map hkeyType hvalueType hsize (by simpa using hne)).keeps_some
    (hentries.map (ThriftValue.map keyType valueType)) (by simp)

lemma kept_scalar {α : Type} {read : protocol.Reading α} {a : α} (g : α → ThriftValue)
    (h : value.WellTyped true → laws.frame.Keeps (writeValue protocol value) read (some a))
    (hread : ∀ n, readValue protocol (n + 1) value.type = do return g (← read))
    (himage : laws.imageOf value = some (g a)) : laws.Kept value := by
  refine .of_succ laws fun n htyped hn => ?_
  rw [KeepsValue, hread, himage]
  exact (h htyped).map g

lemma kept (value : ThriftValue) : laws.Kept value := by
  induction value using ThriftValue.induction with
  | bool value => exact laws.kept_scalar .bool (fun _ => laws.bool value) (fun _ => rfl) rfl
  | byte value =>
    exact laws.kept_scalar .byte (fun h => laws.byte h.isTyped) (fun _ => rfl) rfl
  | i16 value => exact laws.kept_scalar .i16 (fun h => laws.i16 h.isTyped) (fun _ => rfl) rfl
  | i32 value => exact laws.kept_scalar .i32 (fun h => laws.i32 h.isTyped) (fun _ => rfl) rfl
  | i64 value => exact laws.kept_scalar .i64 (fun h => laws.i64 h.isTyped) (fun _ => rfl) rfl
  | double value => exact fun _ htyped _ => htyped.isTyped.elim
  | string value =>
    exact laws.kept_scalar .string (fun h => laws.string h.isTyped) (fun _ => rfl) rfl
  | struct fields ih => exact laws.kept_struct ih
  | list elemType values ih => exact laws.kept_list ih
  | set elemType values ih => exact laws.kept_set ih
  | map keyType valueType entries ih =>
    cases entries with
    | nil => exact laws.kept_map_nil
    | cons entry entries => exact laws.kept_map ih (cons_ne_nil _ _)

lemma decodeStruct_encodeStruct (htyped : (ThriftValue.struct fields).WellTyped true)
    (hn : (ThriftValue.struct fields).nodes.length ≤ n) :
    ∃ bytes, encodeStruct protocol fields = .ok bytes ∧ (decodeStruct protocol n bytes).toOption =
        laws.imageOfFields fields := by
  have hlength := length_fields_le fields
  have hfields := laws.keeps_fields (fun field _ => laws.kept field.2) htyped (Nat.lt_succ_of_le hn)
  rw [nodes_struct, length_cons] at hn
  obtain ⟨key, c₁, d₁, hrelated, hbegin, hend⟩ := laws.root _ _ ⟨rfl, rfl⟩
  obtain ⟨c₂, d₂, -, hmoves⟩ :=
    laws.moves_struct hend hrelated htyped.isTyped.2 hfields (n := n) (by omega)
  -- What is written begins with the beginning of the struct, so that it comes through as bytes.
  obtain ⟨l₀, hl₀⟩ := hbegin.writes
  obtain ⟨l₁, hl₁⟩ := hmoves.writes
  have hwrites : Writes (writeStruct protocol fields) protocol.initialWrite (l₀ ++ l₁) c₂ := by
    exact hl₀.bind hl₁
  have hencode : encodeStruct protocol fields = .ok (protocol.bytes (l₀ ++ l₁)) := by
    rw [encodeStruct, hwrites []]
    rfl
  refine ⟨_, hencode, ?_⟩
  have hstruct : Moves laws.frame.Follows protocol.initialWrite protocol.initialRead c₂ d₂
      (do protocol.writeStructBegin; writeFields protocol fields; protocol.endStruct)
      (readStruct protocol n) (laws.imageOfFields fields) :=
    hbegin.bind_some hmoves
  rw [decodeStruct, laws.symbols_bytes l₀ c₁ l₁ hl₀]
  cases hout : laws.imageOfFields fields with
  | none =>
    rw [hout] at hstruct
    obtain ⟨l, hl, hrest⟩ := hstruct
    obtain ⟨e, hrun⟩ := (hrest []).2 0
    rw [append_nil, hl.unique (hl₀.bind hl₁)] at hrun
    rw [hrun]
    rfl
  | some out =>
    rw [hout] at hstruct
    obtain ⟨l, hl, hrest⟩ := hstruct
    have hrun := (hrest [] laws.follows_nil).2 0
    rw [append_nil, hl.unique (hl₀.bind hl₁)] at hrun
    rw [hrun]
    rfl

end Laws

end Fino.Thrift
