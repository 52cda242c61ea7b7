import Fino.Protobuf.Records

/-!
# Messages one after the other

The bytes of two messages together stand for their merge: lists are appended, of scalars the last
one counts, and messages are merged in turn. A scalar's presence cannot be seen in a decoded
message, so `mergeValue` also looks at the bytes of the second. The decoder fills in defaults before
it spreads one message over another; `spread_eq_mergeValue` says when this is the merge, and
`append_merges_iff` is the whole statement.
-/

namespace Fino.Protobuf

open Lib List Lib.Parser Reader

def Value.items : Value → List Value
  | .array l => l
  | _ => []

/-- The merge of two values, the second from the bytes `l`: lists are appended, messages merged, and
other values taken from the second if the bytes have one. -/
def mergeField (field : Field) (mergeMessages : Value → Value → List UInt8 → Value) (x y : Value)
    (l : List UInt8) : Value :=
  if field.1.repeated then x.push y.items
  else if field.2.isCodec then
    if x.isUndefined then y
    else if y.isUndefined then x
    else mergeMessages x y (payload field l)
  else if field.1.optional ∨ isPresent field l then x.overlay y
  else x

mutual

def mergeValue : FieldType → Value → Value → List UInt8 → Value
  | .scalar _, _, y, _ => y
  | .message fields, x, y, l => .ofProperties (mergeFields fields x y l)

def mergeFields : List (FieldInfo × FieldType) → Value → Value → List UInt8 → List (String × Value)
  | [], _, _, _ => []
  | (info, type) :: fields, x, y, l =>
    (info.name, mergeField (info, type) (mergeValue type) (x.get info.name) (y.get info.name) l) ::
      mergeFields fields x y l

end

lemma mergeFields_eq (fields : List Field) (x y : Value) (l : List UInt8) :
    mergeFields fields x y l = fields.map fun field => (field.1.name,
      mergeField field (mergeValue field.2) (x.get field.1.name) (y.get field.1.name) l) := by
  induction fields with
  | nil => rw [mergeFields, map_nil]
  | cons field fields ih =>
    rw [mergeFields, ih, map_cons]

/-- Nothing is lost if a value is put over another: there was nothing in a repeated field, the new
bytes have a field without presence unless it stays the same, and the messages within are covered.
-/
def Agrees (field : Field) (covers : Value → Value → List UInt8 → Prop) (x y : Value)
    (l : List UInt8) : Prop :=
  if field.1.repeated then x = .array []
  else if field.2.isCodec then
    ¬ x.isUndefined → ¬ y.isUndefined → covers x y (payload field l)
  else field.1.optional ∨ isPresent field l ∨ x = y

mutual

/-- Nothing is lost if a message is replaced by another one. -/
def Covers : FieldType → Value → Value → List UInt8 → Prop
  | .scalar _, _, _, _ => True
  | .message fields, x, y, l => CoversFields fields x y l

/-- Each field agrees, and none that was there goes missing. -/
def CoversFields : List (FieldInfo × FieldType) → Value → Value → List UInt8 → Prop
  | [], _, _, _ => True
  | (info, type) :: fields, x, y, l =>
    (Agrees (info, type) (Covers type) (x.get info.name) (y.get info.name) l ∧
      ((y.get info.name).isUndefined → (x.get info.name).isUndefined)) ∧
      CoversFields fields x y l

end

variable {fields : List Field} {l : List UInt8} {x y : Value} {field : Field}

lemma coversFields_iff :
    CoversFields fields x y l ↔ ∀ field ∈ fields,
      Agrees field (Covers field.2) (x.get field.1.name) (y.get field.1.name) l ∧
        ((y.get field.1.name).isUndefined → (x.get field.1.name).isUndefined) := by
  induction fields with
  | nil => simp [CoversFields]
  | cons field fields ih =>
    rw [CoversFields, ih, forall_mem_cons]

/-- Nothing is lost where two messages have a message in the same field: each field in it agrees. -/
def Mergeable (fields : List Field) (x y : Value) (l : List UInt8) : Prop :=
  ∀ field ∈ fields, ¬ field.1.repeated → ∀ fields', field.2 = .message fields' →
    ¬ (x.get field.1.name).isUndefined → ¬ (y.get field.1.name).isUndefined →
      ∀ field' ∈ fields', Agrees field' (Covers field'.2)
        ((x.get field.1.name).get field'.1.name) ((y.get field.1.name).get field'.1.name)
        (payload field l)

/-! ## Putting over and merging -/

lemma eq_undefined {value : Value} (h : value.isUndefined) : value = .undefined := by
  cases value <;> simp_all [Value.isUndefined]

/-- Two decoded values of a field agree exactly if putting one over the other is their merge. -/
lemma overlay_eq_mergeField (h : ∀ x y l, decoded.ofType field.2 x → decoded.ofType field.2 y →
      (y = mergeValue field.2 x y l ↔ Covers field.2 x y l))
    (hx : decoded.ofField field (decoded.ofType field.2) x)
    (hy : decoded.ofField field (decoded.ofType field.2) y) :
    x.overlay y = mergeField field (mergeValue field.2) x y l ↔
      Agrees field (Covers field.2) x y l := by
  unfold Rules.ofField at hx hy
  unfold mergeField Agrees
  by_cases hrepeated : field.1.repeated
  · simp only [hrepeated, if_true] at hx hy ⊢
    obtain ⟨items, rfl, -⟩ := hx
    obtain ⟨items', rfl, -⟩ := hy
    simp [Value.overlay, Value.isUndefined, Value.push, Value.items]
  · rw [if_neg hrepeated] at hx hy
    rw [if_neg hrepeated, if_neg hrepeated]
    by_cases hcodec : field.2.isCodec
    · rw [if_pos hcodec, if_pos hcodec]
      unfold Value.overlay
      by_cases hx' : x.isUndefined
      · have hx'' := eq_undefined hx'
        subst hx''
        refine iff_of_true ?_ fun h => absurd hx' h
        split_ifs with hy'
        · exact (eq_undefined hy').symm
        · rfl
      · by_cases hy' : y.isUndefined
        · rw [if_pos hy', if_neg hx', if_pos hy']
          exact iff_of_true rfl fun _ h => absurd hy' h
        · rw [if_neg hy', if_neg hx', if_neg hy']
          rw [if_neg hx'] at hx
          rw [if_neg hy'] at hy
          rw [h x y _ (hx.resolve_left fun hp => hp.2) (hy.resolve_left fun hp => hp.2)]
          exact ⟨fun h _ _ => h, fun h => h hx' hy'⟩
    · rw [if_neg hcodec, if_neg hcodec]
      by_cases hoptional : field.1.optional
      · rw [if_pos (.inl hoptional)]
        exact iff_of_true rfl (.inl hoptional)
      · have hy' : ¬ y.isUndefined := by
          intro hy'
          rw [if_pos hy'] at hy
          exact hy.elim hoptional hcodec
        rw [Value.overlay, if_neg hy']
        by_cases hpresent : isPresent field l
        · rw [if_pos (.inr hpresent)]
          exact iff_of_true rfl (.inr (.inl hpresent))
        · rw [if_neg (by tauto)]
          exact ⟨fun h => .inr (.inr h.symm), fun h => by tauto⟩

lemma agrees_of_undefined {covers : Value → Value → List UInt8 → Prop}
    (hy : decoded.ofField field (decoded.ofType field.2) y) (hy' : y.isUndefined) :
    Agrees field covers x y l := by
  have hy'' := eq_undefined hy'
  subst hy''
  unfold Rules.ofField at hy
  unfold Agrees
  split_ifs at hy ⊢ with hrepeated hcodec
  · obtain ⟨_, ⟨⟩, -⟩ := hy
  · exact fun _ h => absurd rfl h
  · exact hy.imp_right fun h => absurd h hcodec

lemma eq_mergeValue (type : FieldType)
    (hdefined : ∀ fields, type = .message fields → Defined fields) (hx : decoded.ofType type x)
    (hy : decoded.ofType type y) :
    y = mergeValue type x y l ↔ Covers type x y l := by
  induction type using FieldType.induction generalizing x y l with
  | scalar type =>
    exact iff_of_true rfl trivial
  | message fields ih =>
    have hfields := hdefined fields rfl
    obtain ⟨-, hx⟩ := hx
    obtain ⟨⟨get, rfl, hget⟩, hy⟩ := hy
    rw [Rules.ofFields_iff] at hx hy
    rw [mergeValue, mergeFields_eq, object_eq_ofProperties hfields.names hget, Covers,
      coversFields_iff]
    refine forall₂_congr fun field hfield => ?_
    have hover := overlay_eq_mergeField (l := l) (fun x y l hx hy => ih field hfield
      (fun fields' htype => hfields.nested (by rwa [← htype])) hx hy) (hx field hfield)
      (hy field hfield)
    by_cases hy' : ((Value.object get).get field.1.name).isUndefined
    · have hagrees : Agrees field (Covers field.2) (x.get field.1.name) _ l :=
        agrees_of_undefined (hy field hfield) hy'
      have hmerge := hover.mpr hagrees
      rw [Value.overlay, if_pos hy'] at hmerge
      rw [← hmerge]
      constructor
      · exact fun h => ⟨hagrees, fun _ => by rwa [← h]⟩
      · exact fun h => (eq_undefined hy').trans (eq_undefined (h.2 hy')).symm
    · rw [Value.overlay, if_neg hy'] at hover
      exact hover.trans ⟨fun h => ⟨h, fun h' => absurd h' hy'⟩, fun h => h.1⟩

/-- Two messages agree in every field exactly if putting one over the other is their merge. -/
lemma spread_eq_mergeValue (hdefined : Defined fields) (hx : decoded.ofType (.message fields) x)
    (hy : decoded.ofType (.message fields) y) :
    x.spread y = mergeValue (.message fields) x y l ↔ ∀ field ∈ fields,
      Agrees field (Covers field.2) (x.get field.1.name) (y.get field.1.name) l := by
  have hspread := decoded_spread rfl hx hy
  obtain ⟨⟨get, hobject, hget⟩, -⟩ := hspread
  rw [mergeValue, mergeFields_eq, hobject, object_eq_ofProperties hdefined.names hget]
  refine forall₂_congr fun field hfield => ?_
  have hover : get field.1.name = (x.get field.1.name).overlay (y.get field.1.name) := by
    rw [Value.spread, Value.object.injEq] at hobject
    rw [← hobject]
  rw [hover]
  exact overlay_eq_mergeField (fun x y l hx hy => eq_mergeValue field.2
    (fun fields' htype => hdefined.nested (by rwa [← htype])) hx hy)
    ((Rules.ofFields_iff _).mp hx.2 field hfield) ((Rules.ofFields_iff _).mp hy.2 field hfield)

/-! ## Two messages one after the other -/

section Append

variable {fields : List Field} (hdefined : Defined fields) {field : Field} (hfield : field ∈ fields)
  {l : List UInt8} {updates : List Update}
  (h : Pieces (decodeRecord (decoders fields)) l updates) {x y : Value}
  (hy : y = updates.foldl (Update.at field.1.name) (initial field))
include hdefined hfield h hy

lemma foldl_eq_of_repeated (hrepeated : field.1.repeated) :
    updates.foldl (Update.at field.1.name) x = mergeField field (mergeValue field.2) x y l := by
  obtain ⟨items, -, hpush⟩ := foldl_repeated (forall₂_effect hdefined h) hfield hrepeated
  rw [hy, hpush, hpush, mergeField, if_pos hrepeated, initial, if_pos hrepeated]
  rfl

lemma foldl_eq_of_scalar (hrepeated : ¬ field.1.repeated) (hcodec : ¬ field.2.isCodec) :
    updates.foldl (Update.at field.1.name) x = mergeField field (mergeValue field.2) x y l := by
  have heffects := forall₂_effect hdefined h
  have hpresent : isPresent field l ↔ ∃ record ∈ wireRecords l, record.1 = field.tag := by
    simp [isPresent]
  rw [mergeField, if_neg hrepeated, if_neg hcodec]
  by_cases hrecord : ∃ record ∈ wireRecords l, record.1 = field.tag
  · obtain ⟨v, l, hv, hset⟩ := foldl_set heffects hfield hrepeated hcodec hrecord
    have hdecoded := decoded_of_parses field.2
      (fun fields' htype => hdefined.nested (by rwa [← htype])) hv
    rw [hset] at hy
    rw [if_pos (.inr (hpresent.mpr hrecord)), hset, hy, Value.overlay,
      if_neg (not_isUndefined_of_decoded hdecoded)]
  · have hpresent' := mt hpresent.mp hrecord
    push Not at hrecord
    have habsent := foldl_absent heffects hfield hrepeated hrecord
    rw [habsent] at hy
    rw [habsent]
    split_ifs with hoptional
    · have hinitial : initial field = .undefined := by
        rw [initial, if_neg hrepeated, if_neg fun h => h.1 (hoptional.resolve_right hpresent')]
      rw [hy, hinitial]
      rfl
    · rfl

lemma foldl_eq_iff_of_message {info : FieldInfo} {fields' : List Field}
    (hmessage : field = (info, .message fields')) (hrepeated : ¬ field.1.repeated)
    (hx : decoded.ofField field (decoded.ofType field.2) x) :
    updates.foldl (Update.at field.1.name) x = mergeField field (mergeValue field.2) x y l ↔
      (¬ x.isUndefined → ¬ y.isUndefined → ∀ field' ∈ fields', Agrees field' (Covers field'.2)
        (x.get field'.1.name) (y.get field'.1.name) (payload field l)) := by
  have heffects := forall₂_effect hdefined h
  have hcodec : field.2.isCodec := by rw [hmessage]; rfl
  have hinitial : initial field = .undefined := by
    rw [initial, if_neg hrepeated, if_neg fun h => h.2 hcodec]
  rw [hinitial] at hy
  rw [mergeField, if_neg hrepeated, if_pos hcodec]
  by_cases hrecord : ∃ record ∈ wireRecords l, record.1 = field.tag
  · obtain ⟨v, hv, hnew, hold⟩ := foldl_merge heffects hfield hrepeated hcodec
      (fun _ _ => decoded_of_parses field.2
        (fun fields' htype => hdefined.nested (by rwa [← htype])))
      (fun _ _ => decoded_spread hcodec) (fun _ => not_isUndefined_of_decoded) hrecord
    obtain rfl := hy.trans hnew
    have hy' := not_isUndefined_of_decoded hv
    by_cases hx' : x.isUndefined
    · rw [if_pos hx', eq_undefined hx', hnew]
      exact iff_of_true rfl fun h => absurd rfl h
    · have hx := ((Rules.ofField_iff hrepeated hx').mp hx).resolve_left fun hp => hp.2
      subst hmessage
      rw [if_neg hx', if_neg hy', hold x hx', spread_eq_mergeValue (hdefined.nested hfield) hx hv]
      exact ⟨fun h _ _ => h, fun h => h hx' hy'⟩
  · push Not at hrecord
    have habsent := foldl_absent heffects hfield hrepeated hrecord
    rw [habsent] at hy
    subst hy
    rw [habsent]
    refine iff_of_true ?_ fun _ h => absurd rfl h
    split_ifs with hx' hundefined
    · exact eq_undefined hx'
    · rfl
    · exact absurd rfl hundefined

end Append

/-- A message and bytes behind it decode to a message, their merge exactly if nothing is lost where
both have a message in the same field. -/
lemma decodeMessage_append (hdefined : Defined fields) {a b : List UInt8}
    (ha : decodeMessage fields a = .ok x) (hb : decodeMessage fields b = .ok y) :
    ∃ z, decodeMessage fields (a ++ b) = .ok z ∧
      (z = mergeValue (.message fields) x y b ↔ Mergeable fields x y b) := by
  have hdecoded (l : List UInt8) (v : Value) : decodeMessage fields l = .ok v →
      decoded.ofType (.message fields) v :=
    decoded_of_updates hdefined fun field hfield _ _ => decoded_of_parses field.2
      fun fields' htype => hdefined.nested (by rwa [← htype])
  obtain ⟨updates, hpieces, hx⟩ := decodeMessage_eq_ok.mp ha
  obtain ⟨updates', hpieces', hy⟩ := decodeMessage_eq_ok.mp hb
  have hz := decodeMessage_eq_ok.mpr ⟨_, hpieces.append hpieces', rfl⟩
  refine ⟨_, hz, ?_⟩
  obtain ⟨⟨get, hobject, hget⟩, -⟩ := hdecoded _ _ hz
  rw [hobject, mergeValue, mergeFields_eq, object_eq_ofProperties hdefined.names hget]
  refine forall₂_congr fun field hfield => ?_
  have hinitial := get_ofProperties_of_mem hdefined.names hfield initial
  have hx' : x.get field.1.name = updates.foldl (Update.at field.1.name) (initial field) := by
    rw [hx, Value.get, defaults, hinitial]
  have hy' : y.get field.1.name = updates'.foldl (Update.at field.1.name) (initial field) := by
    rw [hy, Value.get, defaults, hinitial]
  have hget' : get field.1.name = updates'.foldl (Update.at field.1.name) (x.get field.1.name) := by
    rw [Value.object.injEq] at hobject
    rw [← hobject]
    beta_reduce
    rw [hx', defaults, hinitial, foldl_append]
  rw [hget']
  by_cases hrepeated : field.1.repeated
  · exact iff_of_true (foldl_eq_of_repeated hdefined hfield hpieces' hy' hrepeated)
      fun h => absurd hrepeated h
  · have hfield' := (Rules.ofFields_iff _).mp (hdecoded a x ha).2 field hfield
    obtain ⟨info, type⟩ := field
    cases type with
    | scalar type =>
      have hcodec : ¬ (FieldType.scalar type).isCodec := Bool.false_ne_true
      refine iff_of_true (foldl_eq_of_scalar hdefined hfield hpieces' hy' hrepeated hcodec) ?_
      rintro - _ ⟨⟩
    | message fields' =>
      rw [foldl_eq_iff_of_message hdefined hfield hpieces' hy' rfl hrepeated hfield']
      constructor
      · rintro h - _ ⟨⟩
        exact h
      · exact fun h => h hrepeated fields' rfl

lemma decodeMessage_insert {a b t : List UInt8} {number wireType : ℕ}
    (ha : decodeMessage fields a = .ok x) (hnumber : ∀ field ∈ fields, field.1.number ≠ number)
    (ht : IsTag t number wireType) (hl : Payload number wireType l) (v : Value) :
    decodeMessage fields (a ++ ((t ++ l) ++ b)) = .ok v ↔
      decodeMessage fields (a ++ b) = .ok v := by
  have hne : t ++ l ≠ [] := by simp [ht.varint.ne_nil]
  have hskip := (parses_skipped hnumber ht hl).pieces hne
  obtain ⟨updates, hpieces, -⟩ := decodeMessage_eq_ok.mp ha
  rw [decodeMessage_eq_ok, decodeMessage_eq_ok]
  constructor
  · rintro ⟨all, hall, rfl⟩
    obtain ⟨_, rfl, hskipped⟩ := hpieces.of_append hall
    obtain ⟨rest, rfl, hrest⟩ := hskip.of_append hskipped
    refine ⟨updates ++ rest, hpieces.append hrest, ?_⟩
    simp only [foldl_append, foldl_cons, foldl_nil, Update.at]
  · rintro ⟨all, hall, rfl⟩
    obtain ⟨rest, rfl, hrest⟩ := hpieces.of_append hall
    refine ⟨updates ++ ([.skip] ++ rest), hpieces.append (hskip.append hrest), ?_⟩
    simp only [foldl_append, foldl_cons, foldl_nil, Update.at]

/-- Two messages one after the other are decoded as their merge exactly if nothing is lost where
both have a message in the same field. A record of an unknown field between two records does not
matter. -/
theorem append_merges_iff {fields : List Field} (hdefined : Defined fields) :
    (∀ a b x y, decodeMessage fields a = .ok x → decodeMessage fields b = .ok y →
      ∃ z, decodeMessage fields (a ++ b) = .ok z ∧
        (z = mergeValue (.message fields) x y b ↔ Mergeable fields x y b)) ∧
    ∀ a b t l number wireType x, decodeMessage fields a = .ok x →
      (∀ field ∈ fields, field.1.number ≠ number) → IsTag t number wireType →
      Payload number wireType l → ∀ v,
        decodeMessage fields (a ++ ((t ++ l) ++ b)) = .ok v ↔
          decodeMessage fields (a ++ b) = .ok v :=
  ⟨fun _ _ _ _ => decodeMessage_append hdefined,
    fun _ _ _ _ _ _ _ ha hnumber ht hl => decodeMessage_insert ha hnumber ht hl⟩

def statusSchema : List Descriptor :=
  [{ name := "count", number := .ofInt 1, type := .scalar .int32 },
    { name := "marks", number := .ofInt 2, type := .scalar .int32, repeated := some true }]

/-- The fields of `statusSchema`. -/
def status : List Field :=
  [(⟨"count", 1, false, false, false⟩, .scalar .int32),
    (⟨"marks", 2, true, true, false⟩, .scalar .int32)]

def reportSchema : List Descriptor :=
  [{ name := "status", number := .ofInt 1, type := .message status }]

/-- The fields of `reportSchema`. -/
def report : List Field := [(⟨"status", 1, false, false, false⟩, .message status)]

lemma defined_report : Defined report := by
  have hstatus : compileSchema statusSchema = .ok status := rfl
  have hreport : compileSchema reportSchema = .ok report := rfl
  refine .define (by decide) ?_ hreport
  intro descriptor hdescriptor fields htype
  rw [reportSchema, mem_singleton] at hdescriptor
  subst hdescriptor
  cases htype
  refine .define (by decide) ?_ hstatus
  simp [statusSchema]

lemma isTag_byte {b : UInt8} (h : b.toNat < 0x80) (hpos : 1 ≤ b.toNat / 8)
    (hwire : b.toNat % 8 ≤ 5) : IsTag [b] (b.toNat / 8) (b.toNat % 8) := by
  have hb : b.toNat / 8 * 8 + b.toNat % 8 = b.toNat := by omega
  refine ⟨?_, by simp, hpos, by unfold maxFieldNumber; omega, hwire⟩
  rw [hb]
  exact .last h

lemma payload_group : Payload 9 3 [0x08, 0x01, 0x4c] := by
  have hone : Wire.Varint [0x01] 1 := .last (by decide)
  have hrecord : IsTag [0x08] 1 0 := isTag_byte (by decide) (by decide) (by decide)
  have hend : IsTag [0x4c] 9 4 := isTag_byte (by decide) (by decide) (by decide)
  exact .group (.record hrecord (.varint hone (by decide) (by decide)) (.done hend))

/-- A report with another count replaces the first one, with or without a group between them. -/
theorem count_is_merged : ∃ x y z,
    decodeMessage report [0x0a, 0x02, 0x08, 0x05] = .ok x ∧
      decodeMessage report [0x0a, 0x02, 0x08, 0x06] = .ok y ∧
      decodeMessage report ([0x0a, 0x02, 0x08, 0x05] ++ [0x0a, 0x02, 0x08, 0x06]) = .ok z ∧
      z = mergeValue (.message report) x y [0x0a, 0x02, 0x08, 0x06] ∧
      ∀ v, decodeMessage report ([0x0a, 0x02, 0x08, 0x05] ++
          (([0x4b] ++ [0x08, 0x01, 0x4c]) ++ [0x0a, 0x02, 0x08, 0x06])) = .ok v ↔
        decodeMessage report ([0x0a, 0x02, 0x08, 0x05] ++ [0x0a, 0x02, 0x08, 0x06]) = .ok v := by
  have htag : IsTag [0x4b] 9 3 := isTag_byte (by decide) (by decide) (by decide)
  obtain ⟨happend, hinsert⟩ := append_merges_iff defined_report
  obtain ⟨z, hz, hmerge⟩ := happend [0x0a, 0x02, 0x08, 0x05] [0x0a, 0x02, 0x08, 0x06] _ _ rfl rfl
  refine ⟨_, _, z, rfl, rfl, hz, hmerge.mpr ?_, ?_⟩
  · intro field hfield _ fields htype _ _ field' hfield'
    rw [report, mem_singleton] at hfield
    subst hfield
    cases htype
    simp only [status, mem_cons, not_mem_nil, or_false] at hfield'
    rcases hfield' with rfl | rfl
    · exact .inr (.inl rfl)
    · exact rfl
  · refine hinsert _ _ _ _ 9 3 _ rfl (fun field hfield => ?_) htag payload_group
    rw [report, mem_singleton] at hfield
    subst hfield
    decide

def countOf (value : Value) : Option ℤ :=
  match (value.get "status").get "count" with
  | .number x => x.toInt?
  | _ => none

/-- The count of a report is lost if another report with marks follows. -/
theorem count_is_reset : ∃ x y z,
    decodeMessage report [0x0a, 0x02, 0x08, 0x05] = .ok x ∧
      decodeMessage report [0x0a, 0x03, 0x12, 0x01, 0x07] = .ok y ∧
      decodeMessage report ([0x0a, 0x02, 0x08, 0x05] ++ [0x0a, 0x03, 0x12, 0x01, 0x07]) = .ok z ∧
      countOf z = some 0 ∧
      countOf (mergeValue (.message report) x y [0x0a, 0x03, 0x12, 0x01, 0x07]) = some 5 := by
  refine ⟨_, _, _, rfl, rfl, rfl, ?_, ?_⟩
  · decide +kernel
  · decide +kernel

end Fino.Protobuf
