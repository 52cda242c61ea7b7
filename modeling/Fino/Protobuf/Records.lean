import Fino.Protobuf.Rules

/-!
# The records of a message

`wireRecord` reads a record without a schema, and `Effect` says what a record can do to the
properties of a message that is decoded: items are added to a repeated field (`foldl_repeated`), of
scalars the last one counts (`foldl_set`), and messages are spread over what was there
(`foldl_merge`). So `decoded` says what a decoded message is like (`decoded_of_decodeMessage`).
-/

namespace Fino.Protobuf

open Lib List Lib.Parser Lib.Wire Reader

/-- A value without regard to a type: the bytes that it has, if there is a length. -/
def content (tag : Tag) : Reader (List UInt8) :=
  if tag.wireType = 2 then lengthDelimited
  else do
    skip tag.wireType tag.number
    return []

def wireRecord : Reader (Tag × List UInt8) := do
  let tag ← tag
  return (tag, ← content tag)

def wireRecords (l : List UInt8) : List (Tag × List UInt8) :=
  match all wireRecord l with
  | .ok records => records
  | .error _ => []

def Field.tag (field : Field) : Tag := ⟨field.1.number, field.2.wireType⟩

def isPresent (field : Field) (l : List UInt8) : Bool :=
  (wireRecords l).any fun record => record.1 = field.tag

/-- The bytes that the records of a message field have, one after the other. -/
def payload (field : Field) (l : List UInt8) : List UInt8 :=
  ((wireRecords l).filter fun record => record.1 = field.tag).flatMap Prod.snd

lemma local_content (tag : Tag) : Local (content tag) :=
  local_lengthDelimited.ite ((local_skip _ _).bind fun _ => local_pure _)

lemma local_wireRecord : Local wireRecord :=
  local_tag.bind fun tag => (local_content tag).bind fun _ => local_pure _

lemma consumes_wireRecord : Consumes wireRecord := consumes_tag.bind local_tag

/-- What reading a record with this tag does to the properties of a message. -/
structure Effect (fields : List Field) (tag : Tag) (u : Update) : Prop where
  /-- Items are added to a repeated field, or none. -/
  repeated : ∀ field ∈ fields, field.1.repeated → ∃ items : List Value,
    (∀ item ∈ items, ∃ l, Parses (decodeValue field.2) l item) ∧
      ∀ value, u.at field.1.name value = value.push items
  /-- A record of a field that is not repeated has a value of it. -/
  present : ∀ field ∈ fields, ¬ field.1.repeated → tag = field.tag →
    ∃ v l, Parses (decodeValue field.2) l v ∧ u = update field v
  /-- Other records do not change such a field. -/
  absent : ∀ field ∈ fields, ¬ field.1.repeated → tag ≠ field.tag →
    ∀ value, u.at field.1.name value = value
  /-- There are no other properties. -/
  other : ∀ name, name ∉ fields.map (·.1.name) → ∀ value, u.at name value = value

/-! ## What is read is what stands on the wire -/

variable {type : FieldType} {l : List UInt8} {v : Value}

lemma parses_content_of_scalar (h : Parses (decodeScalar type) l v) (number : ℕ) :
    Parses (skip type.wireType number) l () := by
  have hvarint {f : ℕ → Value} (h : Parses (varint >>= fun n => pure (f n)) l v) :
      Parses (skip 0 number) l () := by
    obtain ⟨n, hn, -⟩ := local_varint.parses_of_map h
    exact fun m k => hn.bind_nil (parses_pure ()) m k
  have hfixed32 {signed : Bool} {f : ℤ → Value}
      (h : Parses (fixed32 signed >>= fun z => pure (f z)) l v) :
      Parses (skip 5 number) l () := by
    obtain ⟨z, hz, -⟩ := (local_fixed32 signed).parses_of_map h
    obtain ⟨word, hword, -⟩ := (local_slice 4).parses_of_map hz
    exact fun m k => hword.bind_nil (parses_pure ()) m k
  have hfixed64 {signed : Bool} {f : ℤ → Value}
      (h : Parses (fixed64 signed >>= fun z => pure (f z)) l v) :
      Parses (skip 1 number) l () := by
    obtain ⟨z, hz, -⟩ := (local_fixed64 signed).parses_of_map h
    obtain ⟨word, hword, -⟩ := (local_slice 8).parses_of_map hz
    exact fun m k => hword.bind_nil (parses_pure ()) m k
  match type with
  | .scalar .bool | .scalar .int32 | .scalar .enum | .scalar .uint32 | .scalar .sint32
  | .scalar .int64 | .scalar .uint64 | .scalar .sint64 => exact hvarint h
  | .scalar .fixed32 | .scalar .sfixed32 => exact hfixed32 h
  | .scalar .fixed64 | .scalar .sfixed64 => exact hfixed64 h
  | .scalar .double =>
    obtain ⟨x, hx, -⟩ := local_double.parses_of_map h
    obtain ⟨word, hword, -⟩ := (local_slice 8).parses_of_map hx
    exact fun m k => hword.bind_nil (parses_pure ()) m k
  | .scalar .string | .scalar .bytes | .message _ => cases h [] 0

lemma parses_lengthDelimited_of_value (h : Parses (decodeValue type) l v)
    (hwire : type.wireType = 2) :
    ∃ c, Parses lengthDelimited l c := by
  match type with
  | .message fields =>
    obtain ⟨c, hc, -⟩ := local_lengthDelimited.parses_of_ofExcept h
    exact ⟨c, hc⟩
  | .scalar .string =>
    rw [decodeValue, decodeLeaf, decodeString] at h
    obtain ⟨c, hc, -⟩ := local_lengthDelimited.parses_of_ofExcept h.of_mapError
    exact ⟨c, hc⟩
  | .scalar .bytes =>
    obtain ⟨c, hc, -⟩ := local_lengthDelimited.parses_of_map h
    exact ⟨c, hc⟩

lemma parses_content_of_value (h : Parses (decodeValue type) l v) (number : ℕ) :
    ∃ c, Parses (content ⟨number, type.wireType⟩) l c := by
  unfold content
  split_ifs with hwire
  · exact parses_lengthDelimited_of_value h hwire
  · rw [← (encodeScalar_eq ((FieldType.isPackable_iff _).mpr hwire)).2] at h
    exact ⟨[], (parses_content_of_scalar h number).bind_nil (parses_pure _)⟩

variable {tag : Tag}

lemma parses_content_of_skip
    (h : Parses (skip tag.wireType tag.number) l ()) : ∃ c, Parses (content tag) l c := by
  unfold content
  split_ifs with hwire
  · rw [hwire] at h
    have hmap : Parses (lengthDelimited >>= fun _ => pure ()) l () := fun m k => h m k
    obtain ⟨c, hc, -⟩ := local_lengthDelimited.parses_of_map hmap
    exact ⟨c, hc⟩
  · exact ⟨[], h.bind_nil (parses_pure _)⟩

lemma push_nil (value : Value) : value.push [] = value := by
  cases value <;> simp [Value.push]

variable {fields : List Field}

lemma effect_skip (h : ∀ field ∈ fields, ¬ field.1.repeated → tag ≠ field.tag)
    : Effect fields tag .skip where
  repeated _ _ _ := ⟨[], by simp, fun value => (push_nil value).symm⟩
  present field hfield hrepeated htag := absurd htag (h field hfield hrepeated)
  absent _ _ _ _ _ := rfl
  other _ _ _ := rfl

section Effect

variable {fields : List Field} (hdefined : Defined fields) {field field' : Field}
  (hfield : field ∈ fields)

include hdefined hfield

lemma eq_of_name (hfield' : field' ∈ fields)
    (hname : field'.1.name = field.1.name) : field' = field :=
  inj_on_of_nodup_map hdefined.names hfield' hfield hname

lemma eq_of_number (hfield' : field' ∈ fields)
    (hnumber : field'.1.number = field.1.number) : field' = field :=
  inj_on_of_nodup_map hdefined.checked.numbers hfield' hfield hnumber

lemma effect_push {items : List Value} (hrepeated : field.1.repeated)
    (hnumber : field.1.number = tag.number)
    (hitems : ∀ item ∈ items, ∃ l, Parses (decodeValue field.2) l item) :
    Effect fields tag (.push field.1.name items) where
  repeated field' hfield' _ := by
    by_cases hname : field'.1.name = field.1.name
    · obtain rfl := eq_of_name hdefined hfield hfield' hname
      exact ⟨items, hitems, fun value => if_pos rfl⟩
    · exact ⟨[], by simp, fun value => (if_neg hname).trans (push_nil value).symm⟩
  present field' hfield' hrepeated' htag := by
    have hnumber' : field'.1.number = field.1.number := by rw [hnumber, htag, Field.tag]
    exact absurd (eq_of_number hdefined hfield hfield' hnumber' ▸ hrepeated) hrepeated'
  absent field' hfield' hrepeated' _ value := by
    refine if_neg fun hname => hrepeated' ?_
    rwa [eq_of_name hdefined hfield hfield' hname]
  other name hname value := by
    refine if_neg fun hname' => hname ?_
    rw [hname']
    exact mem_map_of_mem hfield

lemma effect_update (hrepeated : ¬ field.1.repeated)
    (hv : Parses (decodeValue field.2) l v) : Effect fields field.tag (update field v) where
  repeated field' hfield' hrepeated' := by
    refine ⟨[], by simp, fun value => ?_⟩
    rw [update_at_of_ne, push_nil]
    intro hname
    exact hrepeated (eq_of_name hdefined hfield hfield' hname ▸ hrepeated')
  present field' hfield' _ htag := by
    have hnumber : field.1.number = field'.1.number := congrArg Reader.Tag.number htag
    obtain rfl := eq_of_number hdefined hfield' hfield hnumber
    exact ⟨v, l, hv, rfl⟩
  absent field' hfield' _ htag value := by
    refine update_at_of_ne (fun hname => htag ?_) v value
    rw [eq_of_name hdefined hfield hfield' hname]
  other name hname value := by
    refine update_at_of_ne (fun hname' => hname ?_) v value
    rw [hname']
    exact mem_map_of_mem hfield

end Effect

lemma effect_of_parses (hdefined : Defined fields) {u : Update}
    (h : Parses (decodeRecord (decoders fields)) l u) :
    ∃ tag c, Parses wireRecord l (tag, c) ∧ Effect fields tag u := by
  obtain ⟨l₁, l₂, tag, rfl, htag, hrest⟩ :=
    local_tag.parses_bind (local_decodeTagged fields) h
  suffices h : ∃ c, Parses (content tag) l₂ c ∧ Effect fields tag u by
    obtain ⟨c, hc, heffect⟩ := h
    exact ⟨tag, c, htag.bind (hc.bind_nil (parses_pure _)), heffect⟩
  rw [decodeTagged, find?_decoders] at hrest
  cases hfind : fields.find? (·.1.number = tag.number) with
  | none =>
    rw [hfind] at hrest
    obtain ⟨_, hskip, rfl⟩ := (local_skip _ _).parses_of_map hrest
    obtain ⟨c, hc⟩ := parses_content_of_skip hskip
    refine ⟨c, hc, effect_skip fun field hfield _ htag => ?_⟩
    refine List.find?_eq_none.mp hfind field hfield ?_
    simp [htag, Field.tag]
  | some field =>
    have hfield := mem_of_find?_eq_some hfind
    have hnumber : field.1.number = tag.number := by simpa using List.find?_some hfind
    rw [hfind, Option.map_some] at hrest
    dsimp only at hrest
    split_ifs at hrest with hpacked hwire
    · obtain ⟨hrepeated, hpackable, hwire⟩ := hpacked
      obtain ⟨l, l', c, rfl, hc, hitems⟩ := local_lengthDelimited.parses_bind
        (fun _ => (local_ofExcept _).bind fun _ => local_pure _) hrest
      obtain ⟨items, hparses, rfl⟩ := (local_ofExcept _).parses_of_map hitems
      obtain ⟨rfl, hall⟩ := eq_nil_of_parses_ofExcept hparses
      obtain ⟨hlocal, hconsumes⟩ := local_consumes_decodeScalar field.2
      have hpieces := (all_eq_ok hlocal hconsumes).mp hall
      rw [(encodeScalar_eq hpackable).2] at hpieces
      refine ⟨c, ?_, effect_push hdefined hfield hrepeated hnumber hpieces.exists_parses⟩
      rwa [content, if_pos hwire, append_nil]
    · obtain ⟨_, hskip, rfl⟩ := (local_skip _ _).parses_of_map hrest
      obtain ⟨c, hc⟩ := parses_content_of_skip hskip
      refine ⟨c, hc, effect_skip fun field' hfield' _ htag => hwire ?_⟩
      have hnumber' : field'.1.number = field.1.number := by rw [hnumber, htag, Field.tag]
      rw [htag, eq_of_number hdefined hfield hfield' hnumber', Field.tag]
    · have htag : tag = field.tag := by
        rw [Field.tag, hnumber, ← not_not.mp hwire]
      obtain ⟨v, hv, rfl⟩ := (local_decodeValue _).parses_of_map hrest
      obtain ⟨c, hc⟩ := parses_content_of_value hv field.1.number
      refine ⟨c, by rwa [htag], ?_⟩
      by_cases hrepeated : field.1.repeated
      · have hpush : update field v = .push field.1.name [v] := if_pos hrepeated
        rw [hpush]
        refine effect_push hdefined hfield hrepeated hnumber fun item hitem => ?_
        rw [mem_singleton.mp hitem]
        exact ⟨l₂, hv⟩
      · rw [htag]
        exact effect_update hdefined hfield hrepeated hv

/-! ## Many records -/

lemma forall₂_effect (hdefined : Defined fields) {updates : List Update}
    (h : Pieces (decodeRecord (decoders fields)) l updates) :
    List.Forall₂ (fun record u => Effect fields record.1 u) (wireRecords l) updates := by
  have hrecords : ∃ records, Pieces wireRecord l records ∧
      List.Forall₂ (fun record u => Effect fields record.1 u) records updates := by
    induction h with
    | nil => exact ⟨[], .nil, .nil⟩
    | cons hne hu _ ih =>
      obtain ⟨records, hpieces, heffects⟩ := ih
      obtain ⟨tag, c, hrecord, heffect⟩ := effect_of_parses hdefined hu
      exact ⟨(tag, c) :: records, .cons hne hrecord hpieces, .cons heffect heffects⟩
  obtain ⟨records, hpieces, heffects⟩ := hrecords
  rw [wireRecords, (all_eq_ok local_wireRecord consumes_wireRecord).mpr hpieces]
  exact heffects

lemma push_push (value : Value) (items items' : List Value) :
    (value.push items).push items' = value.push (items ++ items') := by
  cases value <;> simp [Value.push]

lemma overlay_overlay (x y z : Value) : (x.overlay y).overlay z = x.overlay (y.overlay z) := by
  unfold Value.overlay
  split_ifs <;> rfl

lemma spread_spread (x y z : Value) : (x.spread y).spread z = x.spread (y.spread z) :=
  congrArg Value.object (funext fun _ => overlay_overlay _ _ _)

lemma not_isUndefined_spread (x y : Value) : ¬ (x.spread y).isUndefined := by
  simp [Value.spread, Value.isUndefined]

section Run

variable {fields : List Field} {field : Field} {records : List (Tag × List UInt8)}
  {updates : List Update}
  (h : List.Forall₂ (fun record u => Effect fields record.1 u) records updates)
  (hfield : field ∈ fields)
include h

lemma foldl_other {name : String} (hname : name ∉ fields.map (·.1.name)) (value : Value) :
    updates.foldl (Update.at name) value = value := by
  induction h with
  | nil => rfl
  | cons heffect _ ih => rw [foldl_cons, heffect.other name hname, ih]

include hfield

lemma foldl_repeated (hrepeated : field.1.repeated) : ∃ items : List Value,
    (∀ item ∈ items, ∃ l, Parses (decodeValue field.2) l item) ∧
      ∀ value, updates.foldl (Update.at field.1.name) value = value.push items := by
  induction h with
  | nil => exact ⟨[], by simp, fun value => (push_nil value).symm⟩
  | cons heffect _ ih =>
    obtain ⟨items, hitems, hpush⟩ := heffect.repeated field hfield hrepeated
    obtain ⟨items', hitems', hpush'⟩ := ih
    refine ⟨items ++ items', forall_mem_append.mpr ⟨hitems, hitems'⟩, fun value => ?_⟩
    rw [foldl_cons, hpush, hpush', push_push]

variable (hrepeated : ¬ field.1.repeated)

include hrepeated

lemma foldl_absent (habsent : ∀ record ∈ records, record.1 ≠ field.tag) (value : Value) :
    updates.foldl (Update.at field.1.name) value = value := by
  induction h generalizing value with
  | nil => rfl
  | cons heffect _ ih =>
    obtain ⟨hrecord, habsent⟩ := forall_mem_cons.mp habsent
    rw [foldl_cons, heffect.absent field hfield hrepeated hrecord, ih habsent]

lemma foldl_set (hcodec : ¬ field.2.isCodec)
    (hpresent : ∃ record ∈ records, record.1 = field.tag) :
    ∃ v l, Parses (decodeValue field.2) l v ∧
      ∀ value, updates.foldl (Update.at field.1.name) value = v := by
  induction h with
  | nil => simp at hpresent
  | @cons record u records updates heffect hrest ih =>
    by_cases hpresent' : ∃ record ∈ records, record.1 = field.tag
    · obtain ⟨v, l, hv, hfold⟩ := ih hpresent'
      exact ⟨v, l, hv, fun value => hfold _⟩
    · have htag := (exists_mem_cons_iff _ _ _).mp hpresent |>.resolve_right hpresent'
      push Not at hpresent'
      obtain ⟨v, l, hv, rfl⟩ := heffect.present field hfield hrepeated htag
      have hset : update field v = .set field.1.name v := by
        rw [update, if_neg hrepeated, if_neg hcodec]
      refine ⟨v, l, hv, fun value => ?_⟩
      rw [foldl_cons, foldl_absent hrest hfield hrepeated hpresent', hset]
      exact if_pos rfl

lemma foldl_merge {P : Value → Prop} (hcodec : field.2.isCodec)
    (hP : ∀ l v, Parses (decodeValue field.2) l v → P v)
    (hspread : ∀ x y, P x → P y → P (x.spread y)) (hdefined : ∀ x, P x → ¬ x.isUndefined)
    (hpresent : ∃ record ∈ records, record.1 = field.tag) :
    ∃ v, P v ∧ updates.foldl (Update.at field.1.name) .undefined = v ∧
      ∀ value, ¬ value.isUndefined →
        updates.foldl (Update.at field.1.name) value = value.spread v := by
  induction h with
  | nil => simp at hpresent
  | @cons record u records updates heffect hrest ih =>
    have hmerge (htag : record.1 = field.tag) : ∃ w, P w ∧ u.at field.1.name .undefined = w ∧
        ∀ value, ¬ value.isUndefined → u.at field.1.name value = value.spread w := by
      obtain ⟨w, l, hw, rfl⟩ := heffect.present field hfield hrepeated htag
      rw [update, if_neg hrepeated, if_pos hcodec]
      exact ⟨w, hP l w hw, if_pos rfl, fun value hvalue => (if_pos rfl).trans (if_neg hvalue)⟩
    simp only [foldl_cons]
    by_cases hpresent' : ∃ record ∈ records, record.1 = field.tag
    · obtain ⟨v, hv, hnew, hold⟩ := ih hpresent'
      by_cases htag : record.1 = field.tag
      · obtain ⟨w, hw, hat, hat'⟩ := hmerge htag
        refine ⟨w.spread v, hspread w v hw hv, ?_, fun value hvalue => ?_⟩
        · rw [hat, hold w (hdefined w hw)]
        · rw [hat' value hvalue, hold _ (not_isUndefined_spread value w), spread_spread]
      · have hat := heffect.absent field hfield hrepeated htag
        refine ⟨v, hv, ?_, fun value hvalue => ?_⟩
        · rw [hat, hnew]
        · rw [hat, hold value hvalue]
    · have htag := (exists_mem_cons_iff _ _ _).mp hpresent |>.resolve_right hpresent'
      push Not at hpresent'
      obtain ⟨w, hw, hat, hat'⟩ := hmerge htag
      have hrest' := foldl_absent hrest hfield hrepeated hpresent'
      refine ⟨w, hw, ?_, fun value hvalue => ?_⟩
      · rw [hrest', hat]
      · rw [hrest', hat' value hvalue]

end Run

/-! ## What a decoded value is -/

/-- What is decoded: only optional fields and messages are missing, no integer is `-0`, and there
are no other properties. -/
def decoded : Rules where
  leaf type value := IsTyped type value ∧
    (type ≠ .double → ∀ x, value = .number x → x.isZero → x = .ofInt 0)
  plain _ _ := False
  object fields value := ∃ get, value = .object get ∧
    ∀ name, name ∉ fields.map (·.1.name) → get name = .undefined

lemma not_isUndefined_of_decoded {value : Value} (h : decoded.ofType type value) :
    ¬ value.isUndefined := by
  cases type with
  | scalar type => exact not_isUndefined_of_isTyped h.1
  | message _ =>
    obtain ⟨⟨get, rfl, -⟩, -⟩ := h
    exact Bool.false_ne_true

variable {field : Field}

lemma decoded_overlay {x y : Value} (hx : decoded.ofField field (decoded.ofType field.2) x)
    (hy : decoded.ofField field (decoded.ofType field.2) y) :
    decoded.ofField field (decoded.ofType field.2) (x.overlay y) := by
  unfold Value.overlay
  split_ifs
  · exact hx
  · exact hy

lemma decoded_spread (hcodec : type.isCodec) {x y : Value} (hx : decoded.ofType type x)
    (hy : decoded.ofType type y) :
    decoded.ofType type (x.spread y) := by
  match type with
  | .message fields =>
    obtain ⟨⟨get, rfl, hget⟩, hx⟩ := hx
    obtain ⟨⟨get', rfl, hget'⟩, hy⟩ := hy
    rw [Rules.ofFields_iff] at hx hy
    refine ⟨⟨_, rfl, fun name hname => ?_⟩, (Rules.ofFields_iff _).mpr fun field hfield => ?_⟩
    · simp only [Value.get, hget name hname, hget' name hname]
      rfl
    · exact decoded_overlay (hx field hfield) (hy field hfield)

variable {type : ScalarType}

lemma decoded_integer {min max z : ℤ} (htype : IsTyped type = IsInteger min max)
    (hz : min ≤ z ∧ z ≤ max) (hmin : -2 ^ 31 ≤ min)
    (hmax : max ≤ 2 ^ 32) : decoded.leaf type (.number (.ofInt z)) := by
  have hlt : z.natAbs < 2 ^ 53 := by omega
  refine ⟨htype ▸ ⟨_, z, rfl, Double.toInt?_ofInt hlt, hz⟩, ?_⟩
  rintro - _ ⟨⟩ hzero
  rw [Double.isZero_ofInt hlt, decide_eq_true_eq] at hzero
  rw [hzero]

lemma decoded_bigint {min max z : ℤ} (htype : IsTyped type = IsBigint min max)
    (hz : min ≤ z ∧ z ≤ max) :
    decoded.leaf type (.bigint z) := by
  refine ⟨htype ▸ ⟨z, rfl, hz⟩, ?_⟩
  rintro - _ ⟨⟩

variable {word : List UInt8}

lemma length_of_parses_slice {n : ℕ} (h : Parses (Reader.slice n) l word) : word.length = n := by
  have hrun := h [] 0
  unfold Reader.slice Parser.slice at hrun
  split_ifs at hrun with hn
  obtain ⟨rfl, -⟩ := Prod.mk.inj (Except.ok.inj hrun)
  rw [length_take_of_le (Nat.le_of_not_lt hn)]

lemma ofLittleEndian_bounds {n : ℕ} (h : Parses (Reader.slice n) l word) :
    0 ≤ (ofLittleEndian word : ℤ) ∧ (ofLittleEndian word : ℤ) ≤ 2 ^ (8 * n) - 1 := by
  have hlt : (ofLittleEndian word : ℤ) < 0x100 ^ n := by
    have hlt := ofLittleEndian_lt word
    rw [length_of_parses_slice h] at hlt
    exact_mod_cast hlt
  rw [show (0x100 : ℤ) = 2 ^ 8 by norm_num, ← pow_mul] at hlt
  omega

lemma decoded_of_leaf (h : Parses (decodeLeaf type) l v) : decoded.leaf type v := by
  cases type with
  | bool =>
    obtain ⟨n, -, rfl⟩ := local_varint.parses_of_map h
    refine ⟨⟨_, rfl⟩, ?_⟩
    rintro - _ ⟨⟩
  | string =>
    have hstring : Parses decodeString l v := h
    obtain ⟨c, -, htext⟩ := local_lengthDelimited.parses_of_ofExcept hstring.of_mapError
    unfold decodeText at htext
    split at htext
    · cases htext
      refine ⟨⟨_, rfl⟩, ?_⟩
      rintro - _ ⟨⟩
    · cases htext
  | bytes =>
    obtain ⟨c, -, rfl⟩ := local_lengthDelimited.parses_of_map h
    refine ⟨⟨_, rfl⟩, ?_⟩
    rintro - _ ⟨⟩
  | double =>
    obtain ⟨x, -, rfl⟩ := local_double.parses_of_map h
    exact ⟨⟨_, rfl⟩, fun hdouble => absurd rfl hdouble⟩
  | int32 | enum | sint32 =>
    obtain ⟨n, -, rfl⟩ := local_varint.parses_of_map h
    exact decoded_integer rfl (asIntN_bounds 31 _) le_rfl (by omega)
  | uint32 =>
    obtain ⟨n, -, rfl⟩ := local_varint.parses_of_map h
    exact decoded_integer rfl (asUintN_bounds 32 _) (by omega) (by omega)
  | int64 | sint64 =>
    obtain ⟨n, -, rfl⟩ := local_varint.parses_of_map h
    exact decoded_bigint rfl (asIntN_bounds 63 _)
  | uint64 =>
    obtain ⟨n, -, rfl⟩ := local_varint.parses_of_map h
    exact decoded_bigint rfl (asUintN_bounds 64 _)
  | fixed32 =>
    obtain ⟨z, hz, rfl⟩ := (local_fixed32 false).parses_of_map h
    obtain ⟨word, hword, rfl⟩ := (local_slice 4).parses_of_map hz
    exact decoded_integer rfl (ofLittleEndian_bounds hword) (by omega) (by omega)
  | sfixed32 =>
    obtain ⟨z, hz, rfl⟩ := (local_fixed32 true).parses_of_map h
    obtain ⟨word, -, rfl⟩ := (local_slice 4).parses_of_map hz
    rw [if_pos rfl]
    exact decoded_integer rfl (asIntN_bounds 31 _) le_rfl (by omega)
  | fixed64 =>
    obtain ⟨z, hz, rfl⟩ := (local_fixed64 false).parses_of_map h
    obtain ⟨word, hword, rfl⟩ := (local_slice 8).parses_of_map hz
    exact decoded_bigint rfl (ofLittleEndian_bounds hword)
  | sfixed64 =>
    obtain ⟨z, hz, rfl⟩ := (local_fixed64 true).parses_of_map h
    obtain ⟨word, -, rfl⟩ := (local_slice 8).parses_of_map hz
    rw [if_pos rfl]
    exact decoded_bigint rfl (asIntN_bounds 63 _)

lemma decoded_defaultValue (type : ScalarType) :
    decoded.leaf type (defaultValue (.scalar type)) := by
  cases type with
  | bool | string | bytes =>
    refine ⟨⟨_, rfl⟩, ?_⟩
    rintro - _ ⟨⟩
  | double => exact ⟨⟨_, rfl⟩, fun hdouble => absurd rfl hdouble⟩
  | int32 | enum | sint32 | sfixed32 | uint32 | fixed32 =>
    exact decoded_integer rfl (by omega) (by omega) (by omega)
  | int64 | sint64 | sfixed64 | uint64 | fixed64 => exact decoded_bigint rfl (by omega)

lemma decoded_initial (hrepeated : ¬ field.1.repeated) :
    decoded.ofField field (decoded.ofType field.2) (initial field) := by
  rw [Rules.ofField, if_neg hrepeated, initial, if_neg hrepeated]
  by_cases hplain : ¬ field.1.optional ∧ ¬ field.2.isCodec
  · rw [if_pos hplain]
    obtain ⟨info, type⟩ := field
    cases type with
    | message _ => exact absurd rfl hplain.2
    | scalar type =>
      have hdefault := decoded_defaultValue type
      rw [if_neg (not_isUndefined_of_isTyped hdefault.1)]
      exact .inr hdefault
  · rw [if_neg hplain]
    tauto

lemma decoded_of_updates (hdefined : Defined fields)
    (ih : ∀ field ∈ fields, ∀ l v, Parses (decodeValue field.2) l v → decoded.ofType field.2 v)
    (h : decodeMessage fields l = .ok v) :
    decoded.ofType (.message fields) v := by
  obtain ⟨updates, hpieces, rfl⟩ := decodeMessage_eq_ok.mp h
  have heffects := forall₂_effect hdefined hpieces
  refine ⟨⟨_, rfl, fun name hname => ?_⟩, (Rules.ofFields_iff _).mpr fun field hfield => ?_⟩
  · rw [foldl_other heffects hname, defaults, get_ofProperties_of_notMem hname]
  · show decoded.ofField field _ (updates.foldl _ _)
    rw [defaults, get_ofProperties_of_mem hdefined.names hfield]
    by_cases hrepeated : field.1.repeated
    · obtain ⟨items, hitems, hpush⟩ := foldl_repeated heffects hfield hrepeated
      rw [hpush, initial, if_pos hrepeated, Rules.ofField, if_pos hrepeated]
      refine ⟨items, rfl, fun item hitem => ?_⟩
      obtain ⟨l, hl⟩ := hitems item hitem
      exact ih field hfield l item hl
    · by_cases hpresent : ∃ record ∈ wireRecords l, record.1 = field.tag
      · have hvalue {v : Value} (hv : decoded.ofType field.2 v) :
            decoded.ofField field (decoded.ofType field.2) v :=
          (Rules.ofField_iff hrepeated (not_isUndefined_of_decoded hv)).mpr (.inr hv)
        by_cases hcodec : field.2.isCodec
        · have hinitial : initial field = .undefined := by
            rw [initial, if_neg hrepeated, if_neg fun h => h.2 hcodec]
          obtain ⟨v, hv, hnew, -⟩ := foldl_merge heffects hfield hrepeated hcodec (ih field hfield)
            (fun _ _ => decoded_spread hcodec) (fun _ => not_isUndefined_of_decoded) hpresent
          rw [hinitial, hnew]
          exact hvalue hv
        · obtain ⟨v, l, hl, hset⟩ := foldl_set heffects hfield hrepeated hcodec hpresent
          rw [hset]
          exact hvalue (ih field hfield l v hl)
      · push Not at hpresent
        rw [foldl_absent heffects hfield hrepeated hpresent]
        exact decoded_initial hrepeated

lemma decoded_of_parses (type : FieldType)
    (hdefined : ∀ fields, type = .message fields → Defined fields)
    (h : Parses (decodeValue type) l v) : decoded.ofType type v := by
  induction type using FieldType.induction generalizing l v with
  | scalar type =>
    exact decoded_of_leaf h
  | message fields ih =>
    have hfields := hdefined fields rfl
    obtain ⟨c, -, hmessage⟩ := local_lengthDelimited.parses_of_ofExcept h
    refine decoded_of_updates hfields (fun field hfield l v => ?_) hmessage
    exact ih field hfield fun fields' htype => hfields.nested (by rwa [← htype])

lemma decoded_of_decodeMessage (hdefined : Defined fields) (h : decodeMessage fields l = .ok v) :
    decoded.ofType (.message fields) v := by
  refine decoded_of_updates hdefined (fun field hfield l v hv => ?_) h
  exact decoded_of_parses field.2 (fun fields' htype => hdefined.nested (by rwa [← htype])) hv

end Fino.Protobuf
