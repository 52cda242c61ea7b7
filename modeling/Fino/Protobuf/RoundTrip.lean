import Fino.Protobuf.Rules

/-!
# What is encoded is decoded

`encode` fails or writes bytes that `decode` reads as `normalValue` of the value
(`decodeMessage_encodeMessage`), from single values (`Codes`) over the records of a field (`Writes`)
to messages, by induction on the schema. `Rules` says which values are written (`written`), meant
(`typed`) and of the schema (`conforming`). A byte order mark at the beginning of a string is lost,
`_isDefault` lets a plain field have the zero of the wrong type, and an array may stand for a
message; `encode_decode_iff` says that there is nothing else.
-/

namespace Fino.Protobuf

open Lib List Lib.Parser Lib.Wire Reader Rules

/-- What is found again of a number that is an integer: `-0` becomes `0`. -/
def normalInteger : Value → Value
  | .number x => .number (.ofInt (x.toInt?.getD 0))
  | value => value

/-- What is found again of a text: a byte order mark at its beginning is lost. -/
def normalString : Value → Value
  | .string s => .string (dropMark s)
  | value => value

/-- What is found again of a value that is no message. -/
def normalLeaf : ScalarType → Value → Value
  | .string => normalString
  | .int32 | .uint32 | .sint32 | .fixed32 | .sfixed32 | .enum => normalInteger
  | _ => id

/-- What is found again of a field, if this is found of each value. A value that is not written
becomes the default. -/
def normalField (field : Field) (normal : Value → Value) (value : Value) : Value :=
  if field.1.repeated then
    match value with
    | .array items => .array (items.map normal)
    | value => value
  else if value.isUndefined then .undefined
  else if ¬ field.1.optional ∧ isDefault field.2 value then defaultValue field.2
  else normal value

mutual

def normalValue : FieldType → Value → Value
  | .scalar type, value => normalLeaf type value
  | .message fields, value => .ofProperties (normalFields fields value)

/-- The properties of an object that are found again. -/
def normalFields : List (FieldInfo × FieldType) → Value → List (String × Value)
  | [], _ => []
  | (info, type) :: fields, value =>
    (info.name, normalField (info, type) (normalValue type) (value.get info.name)) ::
      normalFields fields value

end

lemma normalFields_eq (fields : List Field) (value : Value) : normalFields fields value =
    fields.map fun field =>
      (field.1.name, normalField field (normalValue field.2) (value.get field.1.name)) := by
  induction fields with
  | nil => rw [normalFields, map_nil]
  | cons field fields ih =>
    rw [normalFields, ih, map_cons]

def normalProperty (fields : List Field) (name : String) (value : Value) : Value :=
  (fields.find? (·.1.name = name)).elim .undefined fun field =>
    normalField field (normalValue field.2) value

variable {fields : List Field}

lemma normalValue_ofProperties (hnames : (fields.map (·.1.name)).Nodup)
    {l : List (String × Value)} (keys : List String) (hkeys : l.map Prod.fst = keys)
    (hl : ∀ field ∈ fields, field.1.repeated → field.1.name ∈ keys) :
    normalValue (.message fields) (.ofProperties l) =
      .ofProperties (l.map fun p => (p.1, normalProperty fields p.1 p.2)) := by
  subst hkeys
  rw [normalValue, normalFields_eq, eq_comm]
  refine (object_eq_ofProperties hnames fun name hname => ?_).mpr fun field hfield => ?_
  · refine (get_ofProperties_map _ l name).trans ?_
    have hfind : fields.find? (·.1.name = name) = none := by
      rw [List.find?_eq_none]
      intro field hfield hfound
      exact hname (of_decide_eq_true hfound ▸ mem_map_of_mem hfield)
    rw [normalProperty, hfind]
    split_ifs
    · rfl
    · rfl
  · refine (get_ofProperties_map _ l field.1.name).trans ?_
    rw [normalProperty, find?_eq_some_of_mem hnames hfield]
    split_ifs with hmem
    · rfl
    · rw [get_ofProperties_eq_undefined hmem]
      unfold normalField
      rw [if_neg fun hrepeated => hmem (hl field hfield hrepeated)]
      rfl

/-! ## Single values -/

/-- A value is written exactly if it may be, and then `normal` is read. -/
def Codes (written : Except ProtobufError (List UInt8)) (read : Reader Value) (allowed : Prop)
    (normal : Value) : Prop :=
  match written with
  | .ok l => allowed ∧ (l.length ≤ maxSafeInteger → Parses read l normal)
  | .error _ => ¬ allowed

section Codes

variable {α : Type} {type : ScalarType} {write : ℤ → Except ProtobufError (List UInt8)}
  {read : Reader α} {c : α → ℤ}

lemma codes_integer {min max : ℤ}
    (h : ∀ z, min ≤ z → z ≤ max → ∃ l n, write z = .ok l ∧ Parses read l n ∧ c n = z)
    (value : Value) :
    Codes (integer value type min max >>= write)
      (read >>= fun n => pure (.number (.ofInt (c n)))) (IsInteger min max value)
      (normalInteger value) := by
  cases value with
  | number x =>
    cases hx : x.toInt? with
    | none =>
      have hwritten : integer (.number x) type min max = .error (.integerRange type x) := by
        simp [integer, number, bind, Except.bind, hx]
      rw [hwritten]
      rintro ⟨_, z, ⟨⟩, hz, -⟩
      rw [hx] at hz
      cases hz
    | some z =>
      by_cases hrange : z < min ∨ max < z
      · have hwritten : integer (.number x) type min max = .error (.integerRange type x) := by
          simp [integer, number, bind, Except.bind, hx, hrange]
        rw [hwritten]
        rintro ⟨_, z', ⟨⟩, hz, hmin, hmax⟩
        rw [hx, Option.some.injEq] at hz
        omega
      · have hwritten : integer (.number x) type min max = .ok z := by
          simp [integer, number, bind, Except.bind, hx, hrange]
        obtain ⟨l, n, hwrite, hread, rfl⟩ := h z (by omega) (by omega)
        rw [hwritten]
        show Codes (write _) _ _ _
        rw [hwrite]
        refine ⟨⟨x, _, rfl, hx, by omega, by omega⟩, fun _ => ?_⟩
        rw [normalInteger, hx]
        exact hread.bind_nil (parses_pure _)
  | _ =>
    rintro ⟨_, _, ⟨⟩, -⟩

lemma codes_bigint {signed : Bool} (min max : ℤ) (hmin : min = if signed then -2 ^ 63 else 0)
    (hmax : max = if signed then 2 ^ 63 - 1 else 2 ^ 64 - 1)
    (h : ∀ z, min ≤ z → z ≤ max → ∃ l n, write z = .ok l ∧ Parses read l n ∧ c n = z)
    (value : Value) :
    Codes (bigint value type signed >>= write) (read >>= fun n => pure (.bigint (c n)))
      (IsBigint min max value) value := by
  cases value with
  | bigint z =>
    by_cases hrange : z < min ∨ max < z
    · have hwritten : bigint (.bigint z) type signed = .error (.bigintRange type z) := by
        rw [hmin, hmax] at hrange
        exact if_pos hrange
      rw [hwritten]
      rintro ⟨_, ⟨⟩, hz⟩
      omega
    · have hwritten : bigint (.bigint z) type signed = .ok z := by
        rw [hmin, hmax] at hrange
        exact if_neg hrange
      obtain ⟨l, n, hwrite, hread, rfl⟩ := h z (by omega) (by omega)
      rw [hwritten]
      show Codes (write _) _ _ _
      rw [hwrite]
      exact ⟨⟨_, rfl, by omega, by omega⟩, fun _ => hread.bind_nil (parses_pure _)⟩
  | _ =>
    rintro ⟨_, ⟨⟩, -⟩

end Codes

lemma Writer.varint_of_lt {v : ℕ} (h : v < 2 ^ 64) : Writer.varint v = .ok (Wire.varint v) :=
  if_neg (by omega)

/-- Numbers that are written as varints are read, if they are found in what is written. -/
lemma codes_varint {min max : ℤ} {place : ℤ → ℕ} {c : ℕ → ℤ}
    (h : ∀ z, min ≤ z → z ≤ max → place z < 2 ^ 64 ∧ c (place z) = z) :
    ∀ z, min ≤ z → z ≤ max →
      ∃ l n, Writer.varint (place z) = .ok l ∧ Parses varint l n ∧ c n = z := by
  intro z hmin hmax
  obtain ⟨hlt, hc⟩ := h z hmin hmax
  exact ⟨_, _, Writer.varint_of_lt hlt, parses_varint_varint hlt, hc⟩

variable {type : ScalarType}

lemma codes_scalar (h : (FieldType.scalar type).isPackable) (value : Value) :
    Codes (encodeScalar (.scalar type) value) (decodeScalar (.scalar type)) (IsTyped type value)
      (normalLeaf type value) := by
  cases type with
  | bool =>
    cases value with
    | bool b =>
      have hread (v : ℕ) (hv : v < 2 ^ 64) :
          Parses (decodeScalar (.scalar .bool)) (Wire.varint v) (.bool (v ≠ 0)) :=
        (parses_varint_varint hv).bind_nil (parses_pure _)
      cases b
      · exact ⟨⟨false, rfl⟩, fun _ => hread 0 (by decide)⟩
      · exact ⟨⟨true, rfl⟩, fun _ => hread 1 (by decide)⟩
    | _ => rintro ⟨_, ⟨⟩⟩
  | int32 | enum =>
    refine codes_integer (codes_varint fun z hmin hmax => ⟨asUintN_lt 64 z, ?_⟩) value
    exact asIntN_asUintN (by decide) hmin (by omega)
  | uint32 =>
    refine codes_integer (codes_varint fun z hmin hmax => ⟨by omega, ?_⟩) value
    rw [asUintN_of_lt (by omega)]
    exact Int.toNat_of_nonneg hmin
  | sint32 =>
    refine codes_integer (codes_varint fun z hmin hmax => ?_) value
    have hlt := zigzag_lt 31 z
    rw [asUintN_of_lt hlt, unzigzag_zigzag hmin (by omega)]
    exact ⟨by omega, rfl⟩
  | int64 =>
    refine codes_bigint (-2 ^ 63) (2 ^ 63 - 1) rfl rfl
      (codes_varint fun z hmin hmax => ⟨asUintN_lt 64 z, ?_⟩) value
    exact asIntN_asUintN (by decide) hmin (by omega)
  | uint64 =>
    refine codes_bigint 0 (2 ^ 64 - 1) rfl rfl
      (codes_varint fun z hmin hmax => ⟨by omega, ?_⟩) value
    rw [asUintN_of_lt (by omega)]
    exact Int.toNat_of_nonneg hmin
  | sint64 =>
    refine codes_bigint (-2 ^ 63) (2 ^ 63 - 1) rfl rfl (codes_varint fun z hmin hmax => ?_) value
    have hlt := zigzag_lt 63 z
    rw [asUintN_of_lt hlt, unzigzag_zigzag hmin (by omega)]
    exact ⟨by omega, rfl⟩
  | fixed32 =>
    refine codes_integer (fun z hmin hmax => ?_) value
    exact ⟨_, z, rfl, parses_fixed32 hmin (by omega), rfl⟩
  | sfixed32 =>
    refine codes_integer (fun z hmin hmax => ?_) value
    exact ⟨_, z, rfl, parses_sfixed32 hmin (by omega), rfl⟩
  | fixed64 =>
    refine codes_bigint 0 (2 ^ 64 - 1) rfl rfl (fun z hmin hmax => ?_) value
    exact ⟨_, z, rfl, parses_fixed64 hmin (by omega), rfl⟩
  | sfixed64 =>
    refine codes_bigint (-2 ^ 63) (2 ^ 63 - 1) rfl rfl (fun z hmin hmax => ?_) value
    exact ⟨_, z, rfl, parses_sfixed64 hmin (by omega), rfl⟩
  | double =>
    cases value with
    | number x => exact ⟨⟨x, rfl⟩, fun _ => (parses_double x).bind_nil (parses_pure _)⟩
    | _ => rintro ⟨_, ⟨⟩⟩
  | string | bytes => cases h

lemma length_le_lengthDelimited {b : List UInt8} {n : ℕ}
    (h : (Writer.lengthDelimited b).length ≤ n) : b.length ≤ n := by
  rw [Writer.lengthDelimited, length_append] at h
  omega

lemma parses_decodeString {s : String} (h : (utf8 s).length ≤ maxSafeInteger) :
    Parses decodeString (Writer.lengthDelimited (utf8 s)) (.string (dropMark s)) := by
  refine Parses.mapError ((parses_lengthDelimited_lengthDelimited h).bind_nil ?_) _
  rw [decodeText, ofUtf8_utf8]
  exact parses_ofExcept _

lemma codes_leaf (type : ScalarType) (value : Value) :
    Codes (encodeLeaf type value) (decodeLeaf type) (IsTyped type value)
      (normalLeaf type value) := by
  by_cases hpackable : (FieldType.scalar type).isPackable
  · have hcodes := codes_scalar hpackable value
    cases type with
    | string | bytes => cases hpackable
    | _ => exact hcodes
  · cases type with
    | string =>
      cases value with
      | string s =>
        exact ⟨⟨s, rfl⟩, fun hlength => parses_decodeString (length_le_lengthDelimited hlength)⟩
      | _ => rintro ⟨_, ⟨⟩⟩
    | bytes =>
      cases value with
      | bytes l =>
        refine ⟨⟨l, rfl⟩, fun hlength => ?_⟩
        exact (parses_lengthDelimited_lengthDelimited
          (length_le_lengthDelimited hlength)).bind_nil (parses_pure _)
      | _ => rintro ⟨_, ⟨⟩⟩
    | _ => exact absurd rfl hpackable

/-- As `typed`, but what counts as a default may stand in a field of any numeric type, and an array
for a message. -/
def written : Rules where
  leaf := IsTyped
  plain type value := isDefault type value
  object _ value := value.isObject

/-! ## Fields -/

variable {normal : Value → Value}

/-- Items one after the other: they are written if each of them may be, and then each is read. -/
lemma codes_mapM {write : Value → Except ProtobufError (List UInt8)} {read : Reader Value}
    {allowed : Value → Prop} (h : ∀ value, Codes (write value) read (allowed value) (normal value))
    (items : List Value) :
    match items.mapM write with
    | .ok ls => (∀ item ∈ items, allowed item) ∧ List.Forall₂
      (fun item l => l.length ≤ maxSafeInteger → Parses read l (normal item)) items ls
    | .error _ => ¬ ∀ item ∈ items, allowed item := by
  induction items with
  | nil => exact ⟨by simp, .nil⟩
  | cons item items ih =>
    have hitem := h item
    rw [mapM_cons]
    cases hwrite : write item with
    | error e =>
      rw [hwrite] at hitem
      exact fun hall => hitem (forall_mem_cons.mp hall).1
    | ok l =>
      rw [hwrite] at hitem
      cases hrest : items.mapM write with
      | error e =>
        rw [hrest] at ih
        exact fun hall => ih (forall_mem_cons.mp hall).2
      | ok ls =>
        rw [hrest] at ih
        exact ⟨forall_mem_cons.mpr ⟨hitem.1, ih.1⟩, .cons hitem.2 ih.2⟩

/-- Reading the bytes makes the field have this value and does nothing to other properties. -/
def Writes (fields : List Field) (field : Field) (l : List UInt8) (value : Value) : Prop :=
  ∃ updates, Pieces (decodeRecord (decoders fields)) l updates ∧
    updates.foldl (Update.at field.1.name) (initial field) = value ∧
    ∀ name, name ≠ field.1.name → ∀ v, updates.foldl (Update.at name) v = v

variable {ls : List (List UInt8)} {items : List Value}

section Writes

variable {fields : List Field} {field : Field}

lemma writes_nil : Writes fields field [] (initial field) :=
  ⟨[], .nil, rfl, fun _ _ _ => rfl⟩

variable (hchecked : Checked fields) (hfield : field ∈ fields)
include hchecked hfield

lemma writes_update {l : List UInt8} {v : Value} (hrepeated : ¬ field.1.repeated)
    (hl : Parses (decodeValue field.2) l v) :
    Writes fields field (Writer.tag field.1.number field.2.wireType ++ l) v := by
  have hne : Writer.tag field.1.number field.2.wireType ++ l ≠ [] := by
    simp [Writer.tag, varint_ne_nil]
  refine ⟨_, (parses_update hchecked hfield hl).pieces hne, ?_, ?_⟩
  · rw [update, if_neg hrepeated, initial, if_neg hrepeated]
    by_cases hcodec : field.2.isCodec
    · simp [hcodec, Update.at, Value.isUndefined]
    · simp [hcodec, Update.at]
  · exact fun name hname => update_at_of_ne hname v

lemma writes_packed (hrepeated : field.1.repeated) (hpackable : field.2.isPackable)
    (hlength : ls.flatten.length ≤ maxSafeInteger)
    (hls : List.Forall₂ (fun item l => Parses (decodeScalar field.2) l (normal item)) items ls) :
    Writes fields field (Writer.tag field.1.number 2 ++ Writer.lengthDelimited ls.flatten)
      (.array (items.map normal)) := by
  have hne : Writer.tag field.1.number 2 ++ Writer.lengthDelimited ls.flatten ≠ [] := by
    simp [Writer.tag, varint_ne_nil]
  obtain ⟨hlocal, hconsumes⟩ := local_consumes_decodeScalar field.2
  have hpieces : Pieces (decodeScalar field.2) ls.flatten (items.map normal) := by
    clear hlength hne
    induction hls with
    | nil => exact .nil
    | cons hl _ ih => exact .cons (hconsumes _ _ hl) hl ih
  have hparses := parses_packed hchecked hfield hrepeated hpackable hlength
    ((all_eq_ok hlocal hconsumes).mpr hpieces)
  refine ⟨_, hparses.pieces hne, ?_, ?_⟩
  · simp [Update.at, initial, hrepeated, Value.push]
  · intro name hname v
    simp [Update.at, hname]

lemma writes_items (hrepeated : field.1.repeated)
    (hls : List.Forall₂ (fun item l => Parses (decodeValue field.2) l (normal item)) items ls) :
    Writes fields field (ls.flatMap (Writer.tag field.1.number field.2.wireType ++ ·))
      (.array (items.map normal)) := by
  have hpush (acc items : List Value) : (items.map (update field)).foldl
      (Update.at field.1.name) (.array acc) = .array (acc ++ items) := by
    induction items generalizing acc with
    | nil => simp
    | cons item items ih =>
      have hitem : (update field item).at field.1.name (.array acc) = .array (acc ++ [item]) := by
        simp [update, hrepeated, Update.at, Value.push]
      rw [map_cons, foldl_cons, hitem, ih, append_assoc, singleton_append]
  refine ⟨(items.map normal).map (update field), ?_, ?_, ?_⟩
  · induction hls with
    | nil => exact .nil
    | @cons item l items ls hl _ ih =>
      have hne : Writer.tag field.1.number field.2.wireType ++ l ≠ [] := by
        simp [Writer.tag, varint_ne_nil]
      exact .cons hne (parses_update hchecked hfield hl) ih
  · rw [initial, if_pos hrepeated, hpush, nil_append]
  · intro name hname v
    rw [foldl_map]
    exact foldl_fixed' (fun item => update_at_of_ne hname item v) _

end Writes

lemma forall₂_of_length_le {R : Value → List UInt8 → Prop} {n : ℕ}
    (h : List.Forall₂ (fun item l => l.length ≤ n → R item l) items ls)
    (hls : ∀ l ∈ ls, l.length ≤ n) : List.Forall₂ R items ls := by
  induction h with
  | nil => exact .nil
  | cons hl _ ih =>
    obtain ⟨hlength, hrest⟩ := forall_mem_cons.mp hls
    exact .cons (hl hlength) (ih hrest)

/-- The bytes of a field are written exactly if its value may be, and then `normal` is read. -/
def CodesField (fields : List Field) (field : Field) (bytes : Except ProtobufError (List UInt8))
    (allowed : Prop) (normal : Value) : Prop :=
  match bytes with
  | .ok l => allowed ∧ (l.length ≤ maxSafeInteger → Writes fields field l normal)
  | .error _ => ¬ allowed

section Fields

variable {fields : List Field} {field : Field} (hchecked : Checked fields) (hfield : field ∈ fields)
  (h : ∀ value, Codes (encodeValue field.2 value) (decodeValue field.2)
    (written.ofType field.2 value) (normalValue field.2 value))
include hchecked hfield h

lemma codesField_array (hrepeated : field.1.repeated) (items : List Value) :
    CodesField fields field (encodeField field (encodeValue field.2) (.array items))
      (∀ item ∈ items, written.ofType field.2 item) (.array (items.map (normalValue field.2))) := by
  have hitems := codes_mapM h items
  unfold encodeField
  dsimp only
  split_ifs with hnil hpacked
  · have hinitial : initial field = .array [] := if_pos hrepeated
    subst hnil
    refine ⟨by simp, fun _ => ?_⟩
    rw [map_nil, ← hinitial]
    exact writes_nil
  · have hpackable := hchecked.packed field hfield hpacked
    obtain ⟨hencode, hdecode⟩ := encodeScalar_eq hpackable
    rw [hencode]
    cases hls : items.mapM (encodeValue field.2) with
    | error e =>
      rw [hls] at hitems
      exact hitems
    | ok ls =>
      rw [hls] at hitems
      refine ⟨hitems.1, fun hlength => ?_⟩
      have hflatten : ls.flatten.length ≤ maxSafeInteger := by
        refine length_le_lengthDelimited ?_
        rw [length_append] at hlength
        omega
      refine writes_packed hchecked hfield hrepeated hpackable hflatten ?_
      rw [hdecode]
      refine forall₂_of_length_le hitems.2 fun l hl => ?_
      exact (sublist_flatten_of_mem hl).length_le.trans hflatten
  · cases hls : items.mapM (encodeValue field.2) with
    | error e =>
      rw [hls] at hitems
      exact hitems
    | ok ls =>
      rw [hls] at hitems
      refine ⟨hitems.1, fun hlength => writes_items hchecked hfield hrepeated ?_⟩
      refine forall₂_of_length_le hitems.2 fun l hl => ?_
      have hle := (sublist_flatten_of_mem (mem_map_of_mem hl)).length_le.trans hlength
      rw [length_append] at hle
      omega

lemma codesField_single (hrepeated : ¬ field.1.repeated) {value : Value}
    (hvalue : ¬ value.isUndefined) :
    CodesField fields field (encodeField field (encodeValue field.2) value)
      ((¬ field.1.optional ∧ isDefault field.2 value) ∨ written.ofType field.2 value)
      (normalField field (normalValue field.2) value) := by
  unfold encodeField normalField
  split_ifs with hdefault
  · -- The default is not written, and it is what the field begins with.
    have hcodec : ¬ field.2.isCodec := by
      intro hcodec
      obtain ⟨info, type⟩ := field
      cases type with
      | scalar _ => cases hcodec
      | message _ => cases value <;> simp_all [isDefault, Value.isUndefined]
    have hinitial : initial field = defaultValue field.2 := by
      rw [initial, if_neg hrepeated, if_pos ⟨hdefault.1, hcodec⟩]
    rw [← hinitial]
    exact ⟨.inl hdefault, fun _ => writes_nil⟩
  · have hcodes := h value
    cases hl : encodeValue field.2 value with
    | error e =>
      rw [hl] at hcodes
      exact fun hallowed => hallowed.elim hdefault hcodes
    | ok l =>
      rw [hl] at hcodes
      refine ⟨.inr hcodes.1, fun hlength => ?_⟩
      rw [length_append] at hlength
      exact writes_update hchecked hfield hrepeated (hcodes.2 (by omega))

lemma codesField (value : Value) :
    CodesField fields field (encodeField field (encodeValue field.2) value)
      (written.ofField field (written.ofType field.2) value)
      (normalField field (normalValue field.2) value) := by
  unfold ofField
  by_cases hrepeated : field.1.repeated
  · rw [if_pos hrepeated]
    cases value with
    | array items =>
      have harray := codesField_array hchecked hfield h hrepeated items
      simpa [normalField, hrepeated] using harray
    | _ => simp [CodesField, encodeField, hrepeated]
  · rw [if_neg hrepeated]
    by_cases hvalue : value.isUndefined
    · rw [if_pos hvalue]
      unfold encodeField normalField
      split_ifs with hundefined
      · have hinitial : initial field = .undefined := by
          rw [initial, if_neg hrepeated, if_neg (by tauto)]
        rw [← hinitial]
        exact ⟨hundefined, fun _ => writes_nil⟩
      · exact hundefined
    · rw [if_neg hvalue]
      exact codesField_single hchecked hfield h hrepeated hvalue

end Fields

/-! ## Messages -/

/-- What is written of some of the fields of a message: it makes these fields have their values. -/
lemma codes_fields (hchecked : Checked fields)
    (h : ∀ field ∈ fields, ∀ value, Codes (encodeValue field.2 value) (decodeValue field.2)
      (written.ofType field.2 value) (normalValue field.2 value)) (value : Value)
    {part : List Field} (hpart : ∀ field ∈ part, field ∈ fields)
    (hnames : (part.map (·.1.name)).Nodup) :
    match encodeFields part value with
    | .ok l => written.ofFields part value ∧ (l.length ≤ maxSafeInteger →
      ∃ updates, Pieces (decodeRecord (decoders fields)) l updates ∧
        (∀ field ∈ part, updates.foldl (Update.at field.1.name) (initial field) =
          normalField field (normalValue field.2) (value.get field.1.name)) ∧
        ∀ name, name ∉ part.map (·.1.name) → ∀ v, updates.foldl (Update.at name) v = v)
    | .error _ => ¬ written.ofFields part value := by
  induction part with
  | nil => exact ⟨trivial, fun _ => ⟨[], .nil, by simp, fun _ _ _ => rfl⟩⟩
  | cons field part ih =>
    obtain ⟨info, type⟩ := field
    obtain ⟨hfield, hpart⟩ := forall_mem_cons.mp hpart
    obtain ⟨hnotMem, hnames⟩ := nodup_cons.mp hnames
    have hcodes := codesField hchecked hfield (h _ hfield) (value.get info.name)
    have hrest := ih hpart hnames
    rw [encodeFields]
    cases hl : encodeField (info, type) (encodeValue type) (value.get info.name) with
    | error e =>
      rw [hl] at hcodes
      exact fun hall => hcodes hall.1
    | ok l =>
      rw [hl] at hcodes
      cases hl' : encodeFields part value with
      | error e =>
        rw [hl'] at hrest
        exact fun hall => hrest hall.2
      | ok l' =>
        rw [hl'] at hrest
        refine ⟨⟨hcodes.1, hrest.1⟩, fun hlength => ?_⟩
        rw [length_append] at hlength
        obtain ⟨updates, hpieces, hvalue, hothers⟩ := hcodes.2 (by omega)
        obtain ⟨updates', hpieces', hvalues, hothers'⟩ := hrest.2 (by omega)
        refine ⟨updates ++ updates', hpieces.append hpieces', ?_, ?_⟩
        · refine forall_mem_cons.mpr ⟨?_, fun field hmem => ?_⟩
          · rw [foldl_append, hvalue]
            exact hothers' _ hnotMem _
          · have hne : field.1.name ≠ info.name := by
              intro hname
              exact hnotMem (mem_map.mpr ⟨field, hmem, hname⟩)
            rw [foldl_append, hothers _ hne, hvalues field hmem]
        · intro name hname v
          rw [map_cons, mem_cons, not_or] at hname
          rw [foldl_append, hothers _ hname.1, hothers' _ hname.2]

lemma decodeMessage_encodeFields (hdefined : Defined fields)
    (h : ∀ field ∈ fields, ∀ value, Codes (encodeValue field.2 value) (decodeValue field.2)
      (written.ofType field.2 value) (normalValue field.2 value)) (value : Value) :
    match encodeFields fields value with
    | .ok l => written.ofFields fields value ∧ (l.length ≤ maxSafeInteger →
      decodeMessage fields l = .ok (.ofProperties (normalFields fields value)))
    | .error _ => ¬ written.ofFields fields value := by
  have hcodes := codes_fields hdefined.checked h value (fun _ hfield => hfield) hdefined.names
  cases hl : encodeFields fields value with
  | error e =>
    rw [hl] at hcodes
    exact hcodes
  | ok l =>
    rw [hl] at hcodes
    refine ⟨hcodes.1, fun hlength => ?_⟩
    obtain ⟨updates, hpieces, hvalues, hothers⟩ := hcodes.2 hlength
    refine decodeMessage_eq_ok.mpr ⟨updates, hpieces, Eq.symm ?_⟩
    rw [normalFields_eq, object_eq_ofProperties hdefined.names]
    · intro field hfield
      rw [defaults, get_ofProperties_of_mem hdefined.names hfield, hvalues field hfield]
    · intro name hname
      rw [hothers name hname, defaults, get_ofProperties_of_notMem hname]

lemma codes_value (type : FieldType)
    (hdefined : ∀ fields, type = .message fields → Defined fields) (value : Value) :
    Codes (encodeValue type value) (decodeValue type) (written.ofType type value)
      (normalValue type value) := by
  induction type using FieldType.induction generalizing value with
  | scalar type =>
    exact codes_leaf type value
  | message fields ih =>
    have hfields := hdefined fields rfl
    have hcodes := decodeMessage_encodeFields hfields (fun field hfield =>
      ih field hfield fun fields' htype => hfields.nested (by rwa [← htype])) value
    rw [encodeValue, decodeValue, ofType, normalValue]
    by_cases hobject : value.isObject
    · rw [if_pos hobject]
      cases hl : encodeFields fields value with
      | error e =>
        rw [hl] at hcodes
        exact fun hall => hcodes hall.2
      | ok l =>
        rw [hl] at hcodes
        refine ⟨⟨hobject, hcodes.1⟩, fun hlength => ?_⟩
        have hle := length_le_lengthDelimited hlength
        refine (parses_lengthDelimited_lengthDelimited hle).bind_nil ?_
        have hdecode := hcodes.2 hle
        rw [decodeMessage] at hdecode
        rw [hdecode]
        exact parses_ofExcept _
    · rw [if_neg hobject]
      exact fun hall => hobject hall.1

/-- A message is written exactly if it may be, and it is read as what is found again of it. -/
lemma decodeMessage_encodeMessage (hdefined : Defined fields) (value : Value) :
    match encodeMessage fields value with
    | .ok l => written.ofType (.message fields) value ∧ (l.length ≤ maxSafeInteger →
      decodeMessage fields l = .ok (normalValue (.message fields) value))
    | .error _ => ¬ written.ofType (.message fields) value := by
  have hcodes := decodeMessage_encodeFields hdefined (fun field hfield =>
    codes_value field.2 fun fields' htype => hdefined.nested (by rwa [← htype])) value
  unfold encodeMessage
  by_cases hobject : value.isObject
  · rw [if_pos hobject]
    cases hl : encodeFields fields value with
    | error e =>
      rw [hl] at hcodes
      exact fun hall => hcodes hall.2
    | ok l =>
      rw [hl] at hcodes
      exact ⟨⟨hobject, hcodes.1⟩, hcodes.2⟩
  · rw [if_neg hobject]
    exact fun hall => hobject hall.1

/-! ## Values that are found again -/

variable {value : Value}

/-- A message with a field for another one, all of whose fields are optional. -/
def reply : List Field :=
  [(⟨"status", 1, false, false, false⟩,
    .message [(⟨"code", 1, false, false, true⟩, .scalar .int32)])]

end Fino.Protobuf
