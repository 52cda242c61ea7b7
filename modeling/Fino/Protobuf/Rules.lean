import Fino.Protobuf.Codec

/-!
# The values of a schema

What a value of a schema has to be differs, from one reading to another, only for scalars, for what
else may stand in a plain field, and for the objects. `Rules` says these, and `ofType` follows the
schema.
-/

namespace Fino.Protobuf

/-- The value is a number, an integer in this range. -/
def IsInteger (min max : ℤ) (value : Value) : Prop :=
  ∃ x z, value = .number x ∧ x.toInt? = some z ∧ min ≤ z ∧ z ≤ max

/-- The value is a `bigint` in this range. -/
def IsBigint (min max : ℤ) (value : Value) : Prop := ∃ z, value = .bigint z ∧ min ≤ z ∧ z ≤ max

/-- The value is one of the scalar type. -/
def IsTyped : ScalarType → Value → Prop
  | .bool, value => ∃ b, value = .bool b
  | .string, value => ∃ s, value = .string s
  | .bytes, value => ∃ l, value = .bytes l
  | .double, value => ∃ x, value = .number x
  | .int32, value | .enum, value | .sint32, value | .sfixed32, value =>
    IsInteger (-2 ^ 31) (2 ^ 31 - 1) value
  | .uint32, value | .fixed32, value => IsInteger 0 (2 ^ 32 - 1) value
  | .int64, value | .sint64, value | .sfixed64, value => IsBigint (-2 ^ 63) (2 ^ 63 - 1) value
  | .uint64, value | .fixed64, value => IsBigint 0 (2 ^ 64 - 1) value

variable {value : Value}

lemma not_isUndefined_of_isTyped {type : ScalarType} (h : IsTyped type value) :
    ¬ value.isUndefined := by
  cases type with
  | bool | string | bytes | double | int64 | sint64 | sfixed64 | uint64 | fixed64 =>
    obtain ⟨_, rfl, -⟩ := h
    exact Bool.false_ne_true
  | int32 | enum | sint32 | sfixed32 | uint32 | fixed32 =>
    obtain ⟨_, _, rfl, -⟩ := h
    exact Bool.false_ne_true

/-- A reading of field types as conditions on values. -/
structure Rules where
  /-- The values of a scalar type. -/
  leaf : ScalarType → Value → Prop
  /-- What else may stand in a field that is neither repeated nor optional. -/
  plain : FieldType → Value → Prop
  /-- What an object with these fields has to be. -/
  object : List Field → Value → Prop

namespace Rules

variable (rules : Rules) {fields : List Field}

/-- The values of a field, given those of its type. -/
def ofField (field : Field) (ofType : Value → Prop) (value : Value) : Prop :=
  if field.1.repeated then ∃ items, value = .array items ∧ ∀ item ∈ items, ofType item
  else if value.isUndefined then field.1.optional ∨ field.2.isCodec
  else (¬ field.1.optional ∧ rules.plain field.2 value) ∨ ofType value

mutual

/-- The value is as the rules say for the type. -/
def ofType : FieldType → Value → Prop
  | .scalar type, value => rules.leaf type value
  | .message fields, value => rules.object fields value ∧ ofFields fields value

/-- The objects whose properties are values of these fields. -/
def ofFields : List (FieldInfo × FieldType) → Value → Prop
  | [], _ => True
  | (info, type) :: fields, value =>
    rules.ofField (info, type) (ofType type) (value.get info.name) ∧ ofFields fields value

end

lemma ofFields_iff : rules.ofFields fields value ↔
    ∀ field ∈ fields, rules.ofField field (rules.ofType field.2) (value.get field.1.name) := by
  induction fields with
  | nil => simp [ofFields]
  | cons field fields ih =>
    rw [ofFields, ih, List.forall_mem_cons]

variable {rules : Rules} {field : Field}

lemma ofField_iff {ofType : Value → Prop} (hrepeated : ¬ field.1.repeated)
    (hvalue : ¬ value.isUndefined) :
    rules.ofField field ofType value ↔
      (¬ field.1.optional ∧ rules.plain field.2 value) ∨ ofType value := by
  rw [ofField, if_neg hrepeated, if_neg hvalue]

lemma ofType_optional (h : rules.ofType (.message fields) value) (hfield : field ∈ fields)
    (hrepeated : ¬ field.1.repeated) (hoptional : field.1.optional) :
    value.get field.1.name = .undefined ∨ rules.ofType field.2 (value.get field.1.name) := by
  have hvalue := (ofFields_iff _).mp h.2 field hfield
  rw [ofField, if_neg hrepeated] at hvalue
  split_ifs at hvalue with hundefined
  · left
    cases hget : value.get field.1.name with
    | undefined => rfl
    | _ =>
      rw [hget] at hundefined
      cases hundefined
  · exact .inr (hvalue.resolve_left fun hp => hp.1 hoptional)

/-- The property is as the rules say for the field of its name, if there is one. -/
def ofProperty (fields : List Field) (name : String) (value : Value) : Prop :=
  match fields.find? (·.1.name = name) with
  | some field => rules.ofField field (rules.ofType field.2) value
  | none => True

lemma ofType_ofProperties (hnames : (fields.map (·.1.name)).Nodup) {l : List (String × Value)}
    (keys : List String) (hkeys : l.map Prod.fst = keys)
    (habsent : ∀ field ∈ fields, ¬ field.1.repeated ∧ field.1.optional ∨ field.1.name ∈ keys)
    (hobject : rules.object fields (.ofProperties l))
    (h : ∀ p ∈ l, rules.ofProperty fields p.1 p.2) :
    rules.ofType (.message fields) (.ofProperties l) := by
  subst hkeys
  refine ⟨hobject, (ofFields_iff _).mpr fun field hfield => ?_⟩
  by_cases hmem : field.1.name ∈ l.map Prod.fst
  · obtain ⟨value, hvalue, hget⟩ := exists_get_ofProperties hmem
    have hproperty := h _ hvalue
    rw [ofProperty, Lib.find?_eq_some_of_mem hnames hfield] at hproperty
    rw [hget]
    exact hproperty
  · obtain ⟨hrepeated, hoptional⟩ := (habsent field hfield).resolve_right hmem
    rw [get_ofProperties_eq_undefined hmem, ofField, if_neg hrepeated]
    exact .inl hoptional

end Rules

end Fino.Protobuf
