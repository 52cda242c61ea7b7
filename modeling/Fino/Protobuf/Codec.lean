import Fino.Protobuf.Reader
import Fino.Lib.Table
import Mathlib.Data.List.Sort

/-!
# Schemas, and the messages of a schema

`_compileSchema`, `_encodeMessage` and `_decodeMessage` of `js/format/protobuf.ts`. A message type
has the fields of its own schema, so schemas are trees. An object is given by its properties,
without inherited ones. What a record does to the properties depends on the record alone, so the
loop of `_decodeMessage` reads an `Update` in each turn.
-/

namespace Fino.Protobuf

open Lib List Option Lib.Parser Lib.Wire Reader Writer Prod

inductive Value
  | undefined
  | null
  | bool (b : Bool)
  | number (x : Double)
  | bigint (z : ℤ)
  | string (s : String)
  | bytes (l : List UInt8)
  | array (l : List Value)
  | object (get : String → Value)
  | function

namespace Value

/-- `value === undefined`. -/
def isUndefined : Value → Bool
  | undefined => true
  | _ => false

/-- `typeof value === 'object' && value !== null`. -/
def isObject : Value → Bool
  | bytes _ | array _ | object _ => true
  | _ => false

/-- The place that a property name stands for in a list. -/
def index (n : ℕ) (name : String) : Option ℕ := (range n).find? fun i => toString i = name

def get : Value → String → Value
  | object get, name => get name
  | array l, name =>
    if name = "length" then number (.ofInt l.length)
    else ((index l.length name).bind (l[·]?)).getD undefined
  | bytes l, name =>
    if name = "length" then number (.ofInt l.length)
    else ((index l.length name).bind (l[·]?)).elim undefined fun b => number (.ofInt b.toNat)
  | _, _ => undefined

def overlay (x y : Value) : Value := if y.isUndefined then x else y

/-- `{ ...x, ...y }`. -/
def spread (x y : Value) : Value := object fun name => (x.get name).overlay (y.get name)

def ofProperties (l : List (String × Value)) : Value :=
  object fun name => (l.find? (·.1 = name)).elim undefined snd

/-- `list.push(...items)`. -/
def push : Value → List Value → Value
  | array l, items => array (l ++ items)
  | v, _ => v

end Value

structure FieldInfo where
  name : String
  number : ℕ
  repeated : Bool
  packed : Bool
  optional : Bool
deriving DecidableEq

/-- The type of a field: a scalar, or the messages of a codec. -/
inductive FieldType
  | scalar (type : ScalarType)
  | message (fields : List (FieldInfo × FieldType))

/-- A field of a schema: `RuntimeField`. -/
abbrev Field := FieldInfo × FieldType

namespace FieldType

def isCodec : FieldType → Bool
  | scalar _ => false
  | message _ => true

def name? : FieldType → Option ScalarType
  | scalar type => some type
  | message _ => none

def wireType : FieldType → ℕ
  | message _ | scalar .string | scalar .bytes => 2
  | scalar .fixed64 | scalar .sfixed64 | scalar .double => 1
  | scalar .fixed32 | scalar .sfixed32 => 5
  | _ => 0

def isPackable : FieldType → Bool
  | message _ | scalar .string | scalar .bytes => false
  | _ => true

end FieldType

structure Descriptor where
  name : String
  number : Double
  type : FieldType
  repeated : Option Bool := none
  packed : Option Bool := none
  optional : Option Bool := none

/-- The number of a field, if it may be used for one. -/
def fieldNumber (descriptor : Descriptor) : Except ProtobufError ℕ :=
  match descriptor.number.toInt? with
  | some (.ofNat number) =>
    if number < 1 ∨ maxFieldNumber < number then
      .error (.schemaNumber descriptor.number descriptor.name)
    else if 19000 ≤ number ∧ number ≤ 19999 then .error (.reservedNumber number)
    else .ok number
  | _ => .error (.schemaNumber descriptor.number descriptor.name)

variable (fields : List Field)

/-- A turn of the loop of `_compileSchema`. -/
def compileField (descriptor : Descriptor) :
    Except ProtobufError (List Field) := do
  let number ← fieldNumber descriptor
  let repeated := descriptor.repeated = some true
  if ∃ field ∈ fields, field.1.number = number then .error (.duplicateNumber number)
  else if descriptor.packed ≠ none ∧ (¬ repeated ∨ ¬ descriptor.type.isPackable) then
    .error (.packedField descriptor.name)
  else
    let info : FieldInfo :=
      { name := descriptor.name
        number
        repeated
        packed := repeated ∧ descriptor.type.isPackable ∧ descriptor.packed ≠ some false
        optional := descriptor.optional = some true }
    .ok (fields ++ [(info, descriptor.type)])

def compileSchema (schema : List Descriptor) : Except ProtobufError (List Field) := do
  let fields ← schema.foldlM compileField []
  return fields.insertionSort fun a b => a.1.number ≤ b.1.number

/-- The codecs that `defineMessage` returns: each name once, and types that are scalars and other
codecs. -/
inductive Defined : List Field → Prop
  | define {schema : List Descriptor} {fields : List Field}
      (hnames : (schema.map Descriptor.name).Nodup)
      (htypes : ∀ descriptor ∈ schema, ∀ fields', descriptor.type = .message fields' →
        Defined fields')
      (hfields : compileSchema schema = .ok fields) : Defined fields

/-! ## Encoding -/

def number (value : Value) (type : ScalarType) : Except ProtobufError Double :=
  match value with
  | .number x => .ok x
  | _ => .error (.notNumber type)

def integer (value : Value) (type : ScalarType) (min max : ℤ) : Except ProtobufError ℤ := do
  let number ← number value type
  match number.toInt? with
  | some z => if z < min ∨ max < z then .error (.integerRange type number) else .ok z
  | none => .error (.integerRange type number)

def bigint (value : Value) (type : ScalarType) (signed : Bool) : Except ProtobufError ℤ :=
  match value with
  | .bigint z =>
    let min := if signed then -2 ^ 63 else 0
    let max := if signed then 2 ^ 63 - 1 else 2 ^ 64 - 1
    if z < min ∨ max < z then .error (.bigintRange type z) else .ok z
  | _ => .error (.notBigint type)

def encodeScalar (type : FieldType) (value : Value) : Except ProtobufError (List UInt8) :=
  match type with
  | .scalar .bool =>
    match value with
    | .bool b => varint (if b then 1 else 0)
    | _ => .error .notBoolean
  | .scalar .int32 => do
    varint (asUintN 64 (← integer value .int32 (-0x80000000) 0x7fffffff))
  | .scalar .enum => do
    varint (asUintN 64 (← integer value .enum (-0x80000000) 0x7fffffff))
  | .scalar .uint32 => do varint (← integer value .uint32 0 0xffffffff).toNat
  | .scalar .sint32 => do
    varint (zigzag 31 (← integer value .sint32 (-0x80000000) 0x7fffffff))
  | .scalar .int64 => do varint (asUintN 64 (← bigint value .int64 true))
  | .scalar .uint64 => do varint (← bigint value .uint64 false).toNat
  | .scalar .sint64 => do varint (zigzag 63 (← bigint value .sint64 true))
  | .scalar .fixed32 => do return fixed32 (← integer value .fixed32 0 0xffffffff)
  | .scalar .sfixed32 => do
    return fixed32 (← integer value .sfixed32 (-0x80000000) 0x7fffffff)
  | .scalar .fixed64 => do return fixed64 (← bigint value .fixed64 false)
  | .scalar .sfixed64 => do return fixed64 (← bigint value .sfixed64 true)
  | .scalar .double => do return double (← number value .double)
  | type => .error (.notScalar type.name? none)

def isDefault (type : FieldType) (value : Value) : Bool :=
  match type, value with
  | .message _, .undefined => true
  | .message _, _ => false
  | .scalar .bool, .bool b => ¬ b
  | .scalar .bool, _ => false
  | .scalar .string, .string s => s = ""
  | .scalar .string, _ => false
  | .scalar .bytes, .bytes l => l = []
  | .scalar .bytes, _ => false
  | _, .bigint z => z = 0
  | _, .number x => x.isZero
  | _, _ => false

/-- A turn of the loop of `_encodeMessage`, with what `_encodeValue` does for the type. -/
def encodeField (field : Field) (encodeValue : Value → Except ProtobufError (List UInt8))
    (current : Value) : Except ProtobufError (List UInt8) :=
  if field.1.repeated then
    match current with
    | .array items =>
      if items = [] then .ok []
      else if field.1.packed then do
        let packed ← items.mapM (encodeScalar field.2)
        return tag field.1.number 2 ++ lengthDelimited packed.flatten
      else do
        let items ← items.mapM encodeValue
        return items.flatMap (tag field.1.number field.2.wireType ++ ·)
    | _ => .error (.notArray field.1.name)
  else if current.isUndefined then
    if field.1.optional ∨ field.2.isCodec then .ok [] else .error (.undefinedField field.1.name)
  else if ¬ field.1.optional ∧ isDefault field.2 current then .ok []
  else do return tag field.1.number field.2.wireType ++ (← encodeValue current)

/-- `_encodeValue`, of a value that is no message. -/
def encodeLeaf (type : ScalarType) (value : Value) : Except ProtobufError (List UInt8) :=
  match type, value with
  | .string, .string s => .ok (lengthDelimited (utf8 s))
  | .string, _ => .error .notString
  | .bytes, .bytes l => .ok (lengthDelimited l)
  | .bytes, _ => .error .notBytes
  | type, value => encodeScalar (.scalar type) value

mutual

def encodeValue : FieldType → Value → Except ProtobufError (List UInt8)
  | .message fields, value =>
    if value.isObject then do return lengthDelimited (← encodeFields fields value)
    else .error .fieldNotObject
  | .scalar type, value => encodeLeaf type value

/-- The loop of `_encodeMessage`. -/
def encodeFields : List (FieldInfo × FieldType) → Value → Except ProtobufError (List UInt8)
  | [], _ => .ok []
  | (info, type) :: fields, value => do
    let l ← encodeField (info, type) (encodeValue type) (value.get info.name)
    return l ++ (← encodeFields fields value)

end

def encodeMessage (value : Value) : Except ProtobufError (List UInt8) :=
  if value.isObject then encodeFields fields value else .error .valueNotObject

/-! ## Decoding -/

def defaultValue : FieldType → Value
  | .message _ => .undefined
  | .scalar .bool => .bool false
  | .scalar .string => .string ""
  | .scalar .bytes => .bytes []
  | .scalar .int64 | .scalar .uint64 | .scalar .sint64 | .scalar .fixed64 | .scalar .sfixed64 =>
    .bigint 0
  | _ => .number (.ofInt 0)

def decodeScalar : FieldType → Reader Value
  | .scalar .bool => do return .bool ((← varint) ≠ 0)
  | .scalar .int32 | .scalar .enum => do return .number (.ofInt (asIntN 32 (← varint)))
  | .scalar .uint32 => do return .number (.ofInt (asUintN 32 (← varint)))
  | .scalar .sint32 => do
    return .number (.ofInt (unzigzag 31 (asUintN 32 (← varint))))
  | .scalar .int64 => do return .bigint (asIntN 64 (← varint))
  | .scalar .uint64 => do return .bigint (asUintN 64 (← varint))
  | .scalar .sint64 => do return .bigint (unzigzag 63 (asUintN 64 (← varint)))
  | .scalar .fixed32 => do return .number (.ofInt (← fixed32 false))
  | .scalar .sfixed32 => do return .number (.ofInt (← fixed32 true))
  | .scalar .fixed64 => do return .bigint (← fixed64 false)
  | .scalar .sfixed64 => do return .bigint (← fixed64 true)
  | .scalar .double => do return .number (← double)
  | type => fail fun offset => .notScalar type.name? (some offset)

/-- `_textDecoder.decode`. -/
def decodeText (l : List UInt8) : Except ProtobufError Value :=
  match ofUtf8 l with
  | some s => .ok (.string s)
  | none => .error (.utf8 0)

/-- What `_decodeValue` reads for a string; every error is one of the text. -/
def decodeString : Reader Value := .mapError (fun offset _ => .utf8 offset) do
  .ofExcept (decodeText (← lengthDelimited))

/-- `_decodeValue`, of a value that is no message. -/
def decodeLeaf : ScalarType → Reader Value
  | .string => decodeString
  | .bytes => do return .bytes (← lengthDelimited)
  | type => decodeScalar (.scalar type)

/-- What a record does to the properties of the message. -/
inductive Update
  | skip
  /-- The items are added to a repeated field. -/
  | push (name : String) (items : List Value)
  /-- A field gets a value. -/
  | set (name : String) (value : Value)
  /-- A message field gets a value, which is put over one that it has already. -/
  | merge (name : String) (value : Value)

/-- What the update makes of the property of a name. -/
def Update.at (name : String) (value : Value) : Update → Value
  | skip => value
  | push name' items => if name = name' then value.push items else value
  | set name' decoded => if name = name' then decoded else value
  | merge name' decoded =>
    if name = name' then if value.isUndefined then decoded else value.spread decoded else value

/-- What is done with a value that was read for a field. -/
def update (field : Field) (decoded : Value) : Update :=
  if field.1.repeated then .push field.1.name [decoded]
  else if field.2.isCodec then .merge field.1.name decoded
  else .set field.1.name decoded

def initial (field : Field) : Value :=
  if field.1.repeated then .array []
  else if ¬ field.1.optional ∧ ¬ field.2.isCodec then defaultValue field.2
  else .undefined

def defaults : Value :=
  .ofProperties (fields.map fun field => (field.1.name, initial field))

variable (table : List (Field × Reader Value))

/-- A turn of the loop of `_decodeMessage` after the tag was read, with what `_decodeValue` does for
each field. -/
def decodeTagged (tag : Tag) : Reader Update :=
  match table.find? (·.1.1.number = tag.number) with
  | none => do
    skip tag.wireType tag.number
    return .skip
  | some (field, decodeValue) =>
    if field.1.repeated ∧ field.2.isPackable ∧ tag.wireType = 2 then do
      let packed ← lengthDelimited
      return .push field.1.name (← .ofExcept (all (decodeScalar field.2) packed))
    else if tag.wireType ≠ field.2.wireType then do
      skip tag.wireType tag.number
      return .skip
    else do return update field (← decodeValue)

/-- A turn of the loop of `_decodeMessage`. -/
def decodeRecord : Reader Update := do
  decodeTagged table (← tag)

/-- `_decodeMessage`, with what `_decodeValue` does for each field. -/
def decodeWith (l : List UInt8) :
    Except ProtobufError Value := do
  let updates ← all (decodeRecord table) l
  return .object fun name =>
    updates.foldl (Update.at name) ((defaults (table.map fst)).get name)

mutual

def decodeValue : FieldType → Reader Value
  | .message fields => do
    .ofExcept (decodeWith (decoders fields) (← lengthDelimited))
  | .scalar type => decodeLeaf type

/-- The fields of a schema with what `_decodeValue` does for them. -/
def decoders : List (FieldInfo × FieldType) → List (Field × Reader Value)
  | [] => []
  | (info, type) :: fields => ((info, type), decodeValue type) :: decoders fields

end

def decodeMessage (l : List UInt8) : Except ProtobufError Value :=
  decodeWith (decoders fields) l

/-- What holds for scalars, and for messages if it holds for their fields, holds for all types. -/
lemma FieldType.induction {P : FieldType → Prop} (scalar : ∀ type, P (.scalar type))
    (message : ∀ fields : List Field, (∀ field ∈ fields, P field.2) → P (.message fields)) :
    ∀ type, P type
  | .scalar type => scalar type
  | .message fields => message fields (go fields)
where
  go : ∀ fields : List Field, ∀ field ∈ fields, P field.2
    | [] => fun _ h => absurd h not_mem_nil
    | (_, type) :: fields => forall_mem_cons.mpr
      ⟨FieldType.induction scalar message type, go fields⟩

variable (fields : List Field)

lemma decoders_eq : decoders fields = fields.map fun field => (field, decodeValue field.2) := by
  induction fields with
  | nil => rw [decoders, map_nil]
  | cons field fields ih =>
    rw [decoders, ih, map_cons]

lemma map_fst_decoders : (decoders fields).map fst = fields := by
  rw [decoders_eq, List.map_map]
  exact map_id fields

lemma find?_decoders (number : ℕ) :
    (decoders fields).find? (·.1.1.number = number) =
      (fields.find? (·.1.number = number)).map fun field => (field, decodeValue field.2) := by
  rw [decoders_eq, find?_map]
  rfl

/-! ## What a schema was checked for -/

/-- What `_compileSchema` sees to, of the fields that it has so far. -/
structure Checked (fields : List Field) : Prop where
  numbers : (fields.map (·.1.number)).Nodup
  pos : ∀ field ∈ fields, 1 ≤ field.1.number
  number_le : ∀ field ∈ fields, field.1.number ≤ maxFieldNumber
  packed : ∀ field ∈ fields, field.1.packed → field.2.isPackable

variable {fields fields' : List Field}

lemma Checked.perm (h : Checked fields) (hperm : fields'.Perm fields) : Checked fields' where
  numbers := (hperm.map _).nodup_iff.mpr h.numbers
  pos field hfield := h.pos field (hperm.mem_iff.mp hfield)
  number_le field hfield := h.number_le field (hperm.mem_iff.mp hfield)
  packed field hfield := h.packed field (hperm.mem_iff.mp hfield)

variable {descriptor : Descriptor} {number : ℕ}

lemma fieldNumber_eq_ok
    (h : fieldNumber descriptor = .ok number) : 1 ≤ number ∧ number ≤ maxFieldNumber := by
  unfold fieldNumber at h
  split at h
  · split_ifs at h with hrange hreserved
    cases h
    omega
  · cases h

lemma compileField_eq_ok (h : compileField fields descriptor = .ok fields')
    (hfields : Checked fields) :
    Checked fields' ∧ ∃ field : Field, fields' = fields ++ [field] ∧
      field.1.name = descriptor.name ∧ field.2 = descriptor.type := by
  unfold compileField at h
  cases hnumber : fieldNumber descriptor with
  | error e =>
    rw [hnumber] at h
    cases h
  | ok number =>
    rw [hnumber] at h
    simp only [bind, Except.bind] at h
    split_ifs at h with hduplicate hpacked
    cases h
    obtain ⟨hpos, hle⟩ := fieldNumber_eq_ok hnumber
    refine ⟨⟨?_, ?_, ?_, ?_⟩, _, rfl, rfl, rfl⟩
    · rw [map_append, nodup_append]
      refine ⟨hfields.numbers, nodup_singleton _, ?_⟩
      intro a ha b hb hab
      obtain ⟨field, hfield, hfield'⟩ := mem_map.mp ha
      obtain rfl : b = number := by simpa using hb
      exact hduplicate ⟨field, hfield, hfield'.trans hab⟩
    · exact forall_mem_append.mpr ⟨hfields.pos, by simpa using hpos⟩
    · exact forall_mem_append.mpr ⟨hfields.number_le, by simpa using hle⟩
    · refine forall_mem_append.mpr ⟨hfields.packed, ?_⟩
      rw [forall_mem_singleton, decide_eq_true_eq]
      exact fun h => h.2.1

variable {schema : List Descriptor}

lemma foldlM_compileField (h : schema.foldlM compileField fields = .ok fields')
    (hfields : Checked fields) :
    Checked fields' ∧ ∃ added : List Field, fields' = fields ++ added ∧
      added.map (·.1.name) = schema.map Descriptor.name ∧
      added.map snd = schema.map Descriptor.type := by
  induction schema generalizing fields with
  | nil =>
    cases h
    exact ⟨hfields, [], (append_nil _).symm, rfl, rfl⟩
  | cons descriptor schema ih =>
    rw [foldlM_cons] at h
    cases hfield : compileField fields descriptor with
    | error e =>
      rw [hfield] at h
      cases h
    | ok fields₁ =>
      rw [hfield] at h
      obtain ⟨hchecked, field, rfl, hname, htype⟩ := compileField_eq_ok hfield hfields
      obtain ⟨hchecked', added, rfl, hnames, htypes⟩ := ih h hchecked
      refine ⟨hchecked', field :: added, by simp, ?_, ?_⟩
      · rw [map_cons, map_cons, hname, hnames]
      · rw [map_cons, map_cons, htype, htypes]

/-- A schema that was compiled is checked, and its fields have the names and types of the schema. -/
lemma compileSchema_eq_ok (h : compileSchema schema = .ok fields) :
    Checked fields ∧ (fields.map (·.1.name)).Perm (schema.map Descriptor.name) ∧
      (fields.map snd).Perm (schema.map Descriptor.type) := by
  unfold compileSchema at h
  cases hfold : schema.foldlM compileField [] with
  | error e =>
    rw [hfold] at h
    cases h
  | ok added =>
    rw [hfold] at h
    cases h
    have hperm := perm_insertionSort (fun a b : Field => a.1.number ≤ b.1.number) added
    have hnil : Checked [] := ⟨nodup_nil, by simp, by simp, by simp⟩
    obtain ⟨hchecked, _, rfl, hnames, htypes⟩ := foldlM_compileField hfold hnil
    rw [← hnames, ← htypes]
    exact ⟨hchecked.perm hperm, hperm.map _, hperm.map _⟩

namespace Defined

variable {fields : List Field} (h : Defined fields)
include h

lemma checked : Checked fields := by
  obtain ⟨-, -, hfields⟩ := h
  exact (compileSchema_eq_ok hfields).1

lemma names : (fields.map (·.1.name)).Nodup := by
  obtain ⟨hnames, -, hfields⟩ := h
  exact (compileSchema_eq_ok hfields).2.1.nodup_iff.mpr hnames

lemma nested {info : FieldInfo}
    (hfield : (info, .message fields') ∈ fields) : Defined fields' := by
  obtain ⟨-, htypes, hfields⟩ := h
  have hmem : FieldType.message fields' ∈ fields.map snd := mem_map_of_mem hfield
  obtain ⟨descriptor, hdescriptor, htype⟩ :=
    mem_map.mp ((compileSchema_eq_ok hfields).2.2.mem_iff.mp hmem)
  exact htypes descriptor hdescriptor fields' htype

end Defined

lemma local_consumes_map {α : Type} {p : Reader α} (hp : Local p) (hc : Consumes p)
    (f : α → Value) : Local (p >>= fun x => pure (f x)) ∧ Consumes (p >>= fun x => pure (f x)) :=
  ⟨hp.bind fun _ => local_pure _, hc.bind hp⟩

variable (type : FieldType)

lemma local_consumes_decodeScalar : Local (decodeScalar type) ∧ Consumes (decodeScalar type) := by
  have hvarint := local_consumes_map local_varint consumes_varint
  have hfixed32 (signed : Bool) :=
    local_consumes_map (local_fixed32 signed) (consumes_fixed32 signed)
  have hfixed64 (signed : Bool) :=
    local_consumes_map (local_fixed64 signed) (consumes_fixed64 signed)
  match type with
  | .scalar .bool | .scalar .int32 | .scalar .enum | .scalar .uint32 | .scalar .sint32
  | .scalar .int64 | .scalar .uint64 | .scalar .sint64 => exact hvarint _
  | .scalar .fixed32 => exact hfixed32 false _
  | .scalar .sfixed32 => exact hfixed32 true _
  | .scalar .fixed64 => exact hfixed64 false _
  | .scalar .sfixed64 => exact hfixed64 true _
  | .scalar .double => exact local_consumes_map local_double consumes_double _
  | .scalar .string | .scalar .bytes | .message _ =>
    unfold decodeScalar
    exact ⟨local_fail _, consumes_fail _⟩

lemma local_decodeString : Local decodeString :=
  Local.mapError (local_lengthDelimited.bind fun _ => local_ofExcept _) _

lemma local_decodeLeaf (type : ScalarType) : Local (decodeLeaf type) := by
  unfold decodeLeaf
  split
  · exact local_decodeString
  · exact local_lengthDelimited.bind fun _ => local_pure _
  · exact (local_consumes_decodeScalar _).1

lemma local_decodeValue : Local (decodeValue type) := by
  match type with
  | .scalar type =>
    exact local_decodeLeaf type
  | .message fields =>
    exact local_lengthDelimited.bind fun _ => local_ofExcept _

lemma local_decodeTagged (fields : List Field) (tag : Tag) :
    Local (decodeTagged (decoders fields) tag) := by
  unfold decodeTagged
  rw [find?_decoders]
  cases fields.find? (·.1.number = tag.number) with
  | none => exact (local_skip _ _).bind fun _ => local_pure _
  | some field =>
    refine (local_lengthDelimited.bind fun _ => ?_).ite (Local.ite ?_ ?_)
    · exact (local_ofExcept _).bind fun _ => local_pure _
    · exact (local_skip _ _).bind fun _ => local_pure _
    · exact (local_decodeValue _).bind fun _ => local_pure _

lemma local_decodeRecord (fields : List Field) : Local (decodeRecord (decoders fields)) :=
  local_tag.bind (local_decodeTagged fields)

lemma consumes_decodeRecord : Consumes (decodeRecord table) :=
  consumes_tag.bind local_tag

lemma decodeMessage_eq_ok {l : List UInt8} {v : Value} :
    decodeMessage fields l = .ok v ↔ ∃ updates, Pieces (decodeRecord (decoders fields)) l updates ∧
      v = .object fun name => updates.foldl (Update.at name) ((defaults fields).get name) := by
  have hall (updates : List Update) : all (decodeRecord (decoders fields)) l = .ok updates ↔
      Pieces (decodeRecord (decoders fields)) l updates :=
    all_eq_ok (local_decodeRecord fields) (consumes_decodeRecord _)
  unfold decodeMessage decodeWith
  rw [map_fst_decoders]
  constructor
  · intro h
    cases hl : all (decodeRecord (decoders fields)) l with
    | error e =>
      rw [hl] at h
      cases h
    | ok updates =>
      rw [hl] at h
      exact ⟨updates, (hall updates).mp hl, (Except.ok.inj h).symm⟩
  · rintro ⟨updates, hl, rfl⟩
    rw [(hall updates).mpr hl]
    rfl

/-! ## The records of a message -/

variable {l : List (String × Value)} {name : String} {field : Field}

lemma get_ofProperties (hnames : (l.map fst).Nodup) {value : Value} (h : (name, value) ∈ l) :
    (Value.ofProperties l).get name = value := by
  have hfind := find?_eq_some_of_mem hnames h
  show (l.find? (·.1 = name)).elim .undefined snd = value
  rw [hfind]
  rfl

lemma get_ofProperties_eq_undefined (h : name ∉ l.map fst) :
    (Value.ofProperties l).get name = .undefined := by
  have hfind : l.find? (·.1 = name) = none := by
    rw [find?_eq_none]
    intro p hp
    simp only [decide_eq_true_eq]
    rintro rfl
    exact h (mem_map_of_mem hp)
  show (l.find? (·.1 = name)).elim .undefined snd = .undefined
  rw [hfind]
  rfl

lemma exists_get_ofProperties (h : name ∈ l.map fst) :
    ∃ value, (name, value) ∈ l ∧ (Value.ofProperties l).get name = value := by
  cases hfind : l.find? (·.1 = name) with
  | none =>
    obtain ⟨p, hp, hname⟩ := mem_map.mp h
    exact absurd (decide_eq_true hname) (find?_eq_none.mp hfind p hp)
  | some p =>
    have hname : p.1 = name := by simpa using find?_some hfind
    refine ⟨p.2, hname ▸ mem_of_find?_eq_some hfind, ?_⟩
    show (l.find? (·.1 = name)).elim .undefined snd = p.2
    rw [hfind]
    rfl

lemma get_ofProperties_map (g : String → Value → Value) (l : List (String × Value))
    (name : String) : (Value.ofProperties (l.map fun p => (p.1, g p.1 p.2))).get name =
      if name ∈ l.map fst then g name ((Value.ofProperties l).get name) else .undefined := by
  simp only [Value.ofProperties, Value.get, find?_map, Function.comp_def]
  cases hfind : l.find? (·.1 = name) with
  | none =>
    have hmem : name ∉ l.map fst := by
      rintro hmem
      obtain ⟨p, hp, hname⟩ := mem_map.mp hmem
      exact find?_eq_none.mp hfind p hp (decide_eq_true hname)
    rw [if_neg hmem]
    rfl
  | some p =>
    have hname : p.1 = name := by simpa using find?_some hfind
    have hmem : name ∈ l.map fst :=
      hname ▸ mem_map_of_mem (mem_of_find?_eq_some hfind)
    rw [if_pos hmem, ← hname]
    rfl

lemma get_ofProperties_of_mem (hnames : (fields.map (·.1.name)).Nodup) (hfield : field ∈ fields)
    (g : Field → Value) :
    (Value.ofProperties (fields.map fun field => (field.1.name, g field))).get field.1.name =
      g field := by
  have hfind := find?_eq_some_of_mem hnames hfield
  simp only [Value.ofProperties, Value.get, find?_map, Function.comp_def, hfind,
    map_some, elim_some]

lemma get_ofProperties_of_notMem (hname : name ∉ fields.map (·.1.name)) (g : Field → Value) :
    (Value.ofProperties (fields.map fun field => (field.1.name, g field))).get name =
      .undefined := by
  have hfind : fields.find? (·.1.name = name) = none := by
    rw [find?_eq_none]
    intro field hfield
    simp only [decide_eq_true_eq]
    rintro rfl
    exact hname (mem_map_of_mem hfield)
  simp only [Value.ofProperties, Value.get, find?_map, Function.comp_def, hfind,
    map_none, elim_none]

lemma object_eq_ofProperties (hnames : (fields.map (·.1.name)).Nodup) {get : String → Value}
    (hget : ∀ name, name ∉ fields.map (·.1.name) → get name = .undefined) {g : Field → Value} :
    .object get = Value.ofProperties (fields.map fun field => (field.1.name, g field)) ↔
      ∀ field ∈ fields, get field.1.name = g field := by
  constructor
  · intro h field hfield
    rw [← get_ofProperties_of_mem hnames hfield g, ← h, Value.get]
  · intro h
    refine congrArg Value.object (funext fun name => ?_)
    show _ = (Value.ofProperties (fields.map fun field => (field.1.name, g field))).get name
    by_cases hname : name ∈ fields.map (·.1.name)
    · obtain ⟨field, hfield, rfl⟩ := mem_map.mp hname
      rw [h field hfield, get_ofProperties_of_mem hnames hfield]
    · rw [hget name hname, get_ofProperties_of_notMem hname]

lemma update_at_of_ne (h : name ≠ field.1.name) (decoded value : Value) :
    (update field decoded).at name value = value := by
  unfold update
  split_ifs <;> simp [Update.at, h]

lemma FieldType.isPackable_iff : type.isPackable ↔ type.wireType ≠ 2 := by
  match type with
  | .message _ => simp [isPackable, wireType]
  | .scalar type => cases type <;> simp [isPackable, wireType]

lemma encodeScalar_eq {type : FieldType} (h : type.isPackable) :
    encodeScalar type = encodeValue type ∧ decodeScalar type = decodeValue type := by
  match type with
  | .message _ => cases h
  | .scalar type =>
    refine ⟨funext fun value => ?_, ?_⟩
    · rw [encodeValue]
      cases type with
      | string | bytes => cases h
      | _ => rfl
    · cases type with
      | string | bytes => cases h
      | _ => rfl

lemma FieldType.wireType_le : type.wireType ≤ 5 := by
  match type with
  | .message _ => simp [wireType]
  | .scalar type => cases type <;> simp [wireType]

section Records

variable {fields : List Field}

lemma parses_skipped {wireType : ℕ} {t l : List UInt8}
    (hnumber : ∀ field ∈ fields, field.1.number ≠ number) (ht : IsTag t number wireType)
    (hl : Payload number wireType l) :
    Parses (decodeRecord (decoders fields)) (t ++ l) .skip := by
  refine (parses_tag ht).bind ?_
  have hfind : fields.find? (·.1.number = number) = none := by
    rw [find?_eq_none]
    intro field hfield
    simpa using hnumber field hfield
  rw [decodeTagged, find?_decoders, hfind]
  exact (parses_skip hl).bind_nil (parses_pure _)

variable (hchecked : Checked fields) {field : Field} (hfield : field ∈ fields)
include hchecked hfield

lemma parses_packed {b : List UInt8} {items : List Value} (hrepeated : field.1.repeated)
    (hpackable : field.2.isPackable) (hb : b.length ≤ maxSafeInteger)
    (hitems : all (decodeScalar field.2) b = .ok items) :
    Parses (decodeRecord (decoders fields))
      (tag field.1.number 2 ++ lengthDelimited b) (.push field.1.name items) := by
  have htag : IsTag (tag field.1.number 2) field.1.number 2 :=
    isTag_tag (hchecked.pos field hfield) (hchecked.number_le field hfield) (by decide)
  refine (parses_tag htag).bind ?_
  rw [decodeTagged, find?_decoders, find?_eq_some_of_mem hchecked.numbers hfield, map_some]
  dsimp only
  rw [if_pos ⟨hrepeated, hpackable, rfl⟩]
  refine (parses_lengthDelimited_lengthDelimited hb).bind_nil ?_
  rw [hitems]
  exact (parses_ofExcept _).bind_nil (parses_pure _)

lemma parses_update {l : List UInt8} {v : Value} (hl : Parses (decodeValue field.2) l v) :
    Parses (decodeRecord (decoders fields))
      (tag field.1.number field.2.wireType ++ l) (update field v) := by
  have htag := isTag_tag (hchecked.pos field hfield) (hchecked.number_le field hfield)
    field.2.wireType_le
  refine (parses_tag htag).bind ?_
  rw [decodeTagged, find?_decoders, find?_eq_some_of_mem hchecked.numbers hfield, map_some]
  dsimp only
  rw [if_neg fun h => (FieldType.isPackable_iff _).mp h.2.1 h.2.2, if_neg (not_not_intro rfl)]
  exact hl.bind_nil (parses_pure _)

end Records

end Fino.Protobuf
