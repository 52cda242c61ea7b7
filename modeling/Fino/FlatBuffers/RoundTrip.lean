import Fino.FlatBuffers.Refinement
import Fino.FlatBuffers.Placement

/-!
# What is built is read

Reading finds each object where its layout has put it, whatever is written before it; the induction
is over the tree, for every buffer that ends with what was written. No room is made for a vtable, so
building fails when the buffer is almost full; a byte order mark at the beginning of a string is
lost; and so are fields with ids too large for a vtable length of sixteen bits. `serve` is the
condition for building and `Table.Fits` the one for reading.
-/

namespace Fino.FlatBuffers

open Lib.Wire Lib List Layout

/-- The type has the value. -/
def IntType.InRange (type : IntType) (value : ℤ) : Prop :=
  if type.isSigned then -2 ^ (8 * type.size - 1) ≤ value ∧ value < 2 ^ (8 * type.size - 1)
  else 0 ≤ value ∧ value < 2 ^ (8 * type.size)

mutual

/-- The ids are different and below the declared count, and integers in range. -/
def Table.IsValid : Table → Prop
  | .mk numFields fields =>
    (fields.map Prod.fst).Nodup ∧ (∀ entry ∈ fields, entry.1 < numFields) ∧ FieldsValid fields

def FieldsValid : List (ℕ × Field) → Prop
  | [] => True
  | (_, field) :: fields => FieldValid field ∧ FieldsValid fields

def FieldValid : Field → Prop
  | .bool _ _ => True
  | .int type value _ => type.InRange value
  | .string _ => True
  | .bytes _ => True
  | .table value => value.IsValid
  | .tables values => TablesValid values

def TablesValid : List Table → Prop
  | [] => True
  | table :: tables => table.IsValid ∧ TablesValid tables

end

def Field.isDefault : Field → Bool
  | .bool value defaultValue => decide (value = defaultValue)
  | .int _ value defaultValue => decide (value = defaultValue)
  | _ => false

/-- The number of vtable entries: up to the greatest id that is written. -/
def entryCount (force : Bool) : List (ℕ × Field) → ℕ
  | [] => 0
  | (id, field) :: fields =>
    max (if force = true ∨ field.isDefault = false then id + 1 else 0) (entryCount force fields)

mutual

/-- The vtable seems long enough, for itself and the fields without defaults, and no string begins
with a mark. -/
def Table.Fits (force : Bool) : Table → Prop
  | .mk _ fields => 4 ≤ shownSize (entryCount force fields) ∧
    FieldsFit force (shownSize (entryCount force fields)) fields

/-- The vtable seems to be long enough for the fields. -/
def FieldsFit (force : Bool) (size : ℕ) : List (ℕ × Field) → Prop
  | [] => True
  | (id, field) :: fields =>
    ((2 * id + 6 ≤ size ∨ field.isDefault = true) ∧ FieldFits force field) ∧
      FieldsFit force size fields

def FieldFits (force : Bool) : Field → Prop
  | .bool _ _ => True
  | .int _ _ _ => True
  | .string value => ¬ IsMarked value
  | .bytes _ => True
  | .table value => value.Fits force
  | .tables values => TablesFit force values

def TablesFit (force : Bool) : List Table → Prop
  | [] => True
  | table :: tables => table.Fits force ∧ TablesFit force tables

end

section

variable {fb : FlatBuffer} {t : TableRef} {id place : ℕ}

lemma field_eq {α : Type} {absent : α} {read : ℤ → Except ReadError α} {pos : ℤ}
    (hpos : t.fieldPos fb id = .ok pos) (hne : pos ≠ 0) : t.field fb id absent read = read pos := by
  rw [TableRef.field, hpos]
  exact if_neg hne

lemma field_absent {α : Type} {absent : α} {read : ℤ → Except ReadError α}
    (hpos : t.fieldPos fb id = .ok 0) : t.field fb id absent read = .ok absent := by
  rw [TableRef.field, hpos]
  rfl

lemma isAbsent_of_fieldPos (hpos : t.fieldPos fb id = .ok 0) : IsAbsent fb t id :=
  ⟨fun _ => field_absent hpos, fun _ _ => field_absent hpos, field_absent hpos, field_absent hpos,
    field_absent hpos⟩

lemma fieldReads_absent (hpos : t.fieldPos fb id = .ok 0) (field : Field) :
    FieldReads fb field id t ↔ field.isDefault := by
  have habsent := isAbsent_of_fieldPos hpos
  cases field with
  | bool value defaultValue | int type value defaultValue =>
    simp [FieldReads, habsent.bool, habsent.int, Field.isDefault, eq_comm]
  | string value => simp [FieldReads, habsent.string, Field.isDefault]
  | bytes value | tables values => simp [FieldReads, habsent.vector, Field.isDefault]
  | table value => simp [FieldReads, habsent.table, Field.isDefault]

section

variable (hpos : t.fieldPos fb id = .ok ((fb.length : ℤ) - place))

include hpos

lemma int_eq {type : IntType} {value defaultValue : ℤ} (hplace : place < fb.length)
    (hholds : Holds fb place (intBytes type.size value)) (hrange : type.InRange value) :
    t.int fb type id defaultValue = .ok value := by
  rw [TableRef.int, field_eq hpos (by omega)]
  rw [IntType.InRange] at hrange
  obtain ⟨k, hk⟩ : ∃ k, 8 * type.size = k + 1 := by cases type <;> exact ⟨_, rfl⟩
  by_cases hsigned : type.isSigned
  · rw [if_pos hsigned, hk, Nat.add_sub_cancel] at hrange
    rw [if_pos hsigned, hholds.intAt, hk, asIntN_asUintN le_rfl hrange.1 hrange.2]
  · rw [if_neg hsigned] at hrange
    rw [if_neg hsigned, hholds.uintAt]
    change Except.ok _ = _
    rw [asUintN, Int.emod_eq_of_lt hrange.1 hrange.2, Int.toNat_of_nonneg hrange.1]

lemma bool_eq {value defaultValue : Bool} (hplace : place < fb.length)
    (hholds : Holds fb place (intBytes 1 (if value then 1 else 0))) :
    t.bool fb id defaultValue = .ok value := by
  rw [TableRef.bool, field_eq hpos (by omega), hholds.uintAt]
  cases value <;> rfl

end

lemma HasField.indirect {start target : ℕ} (h : HasField fb t start id (.offset target))
    (htarget : target ≤ start) (hlength : fb.length < 2 ^ 31) :
    ∃ pos, t.fieldPos fb id = .ok pos ∧ pos ≠ 0 ∧
      fb.indirect pos = .ok ((fb.length : ℤ) - target) := by
  obtain ⟨place, hstart, hplace, hholds, hpos⟩ := h
  exact ⟨_, hpos, by omega, hholds.indirect (by omega) hlength⟩

end

/-! ## Where objects are -/

namespace Layout

variable (a : Layout)

lemma holds_createByteVector (bytes : List UInt8) :
    Holds (a.createByteVector bytes).written (a.createByteVector bytes).used
      (intBytes 4 bytes.length ++ bytes) :=
  Holds.of_front ⟨(a.startVector 1 bytes.length 1).written, append_assoc _ _ _⟩

variable (offsets : List ℕ)

lemma holds_addOffsets (h : a.used % 4 = 0) {j target : ℕ} (htarget : offsets[j]? = some target) :
    Holds (a.addOffsets offsets).written ((a.addOffsets offsets).used - 4 * j)
      (intBytes 4 (((a.addOffsets offsets).used - 4 * j : ℕ) - target)) := by
  induction offsets generalizing j with
  | nil => cases htarget
  | cons offset offsets ih =>
    cases j with
    | zero =>
      cases htarget
      exact ((a.addOffsets offsets).isPlaced_addOffset _).holds
    | succ j =>
      have hused := a.used_addOffsets offsets h
      have hused' := a.used_addOffsets (offset :: offsets) h
      have hsame : (a.addOffsets (offset :: offsets)).used - 4 * (j + 1) =
          (a.addOffsets offsets).used - 4 * j := by
        rw [hused', hused, length_cons]
        omega
      rw [hsame]
      exact (ih htarget).mono (grows_addOffset _ _).written

lemma holds_createOffsetVector :
    Holds (a.createOffsetVector offsets).written (a.createOffsetVector offsets).used
        (intBytes 4 offsets.length) ∧
      ∀ j target, offsets[j]? = some target → Holds (a.createOffsetVector offsets).written
          ((a.createOffsetVector offsets).used - 4 - 4 * j)
          (intBytes 4 (((a.createOffsetVector offsets).used - 4 - 4 * j : ℕ) - target)) := by
  refine ⟨Holds.of_front (prefix_append _ _), fun j target htarget => ?_⟩
  have hholds := (a.startVector 4 offsets.length 4).holds_addOffsets offsets
    (a.used_startVector_mod _) htarget
  exact hholds.append _

lemma used_createOffsetVector :
    a.used + 4 * offsets.length + 4 ≤ (a.createOffsetVector offsets).used := by
  have hgrows := (a.grows_startVector 4 offsets.length 4).used
  rw [createOffsetVector, used_put, length_intBytes, used_addOffsets _ _ (a.used_startVector_mod _)]
  omega

variable (force : Bool)

lemma putTable_pos (table : Table) (a : Layout) : 0 < (a.putTable force table).1 := by
  cases table with
  | mk numFields fields => exact Nat.succ_pos _

lemma putTable_le (table : Table) (a : Layout) :
    (a.putTable force table).1 ≤ (a.putTable force table).2.used := by
  cases table with
  | mk numFields fields =>
    obtain ⟨-, -, place, hlink, -⟩ := ((a.putFields force fields).2.addSlots force
      (List.replicate numFields 0) (a.putFields force fields).1).1.endTable_spec
        (a.putFields force fields).2.used ((a.putFields force fields).2.addSlots force
      (List.replicate numFields 0) (a.putFields force fields).1).2
    exact hlink.1

lemma putTables_le (tables : List Table) (a : Layout) :
    ∀ offset ∈ (a.putTables force tables).1, offset ≤ (a.putTables force tables).2.used := by
  induction tables generalizing a with
  | nil => intro offset h; cases h
  | cons table tables ih =>
    intro offset hoffset
    rcases mem_cons.mp hoffset with rfl | hoffset
    · exact (putTable_le force table a).trans (grows_putTables force tables _).used
    · exact ih _ offset hoffset

lemma length_putTables (tables : List Table) (a : Layout) :
    (a.putTables force tables).1.length = tables.length := by
  induction tables generalizing a with
  | nil => rfl
  | cons table tables ih => exact congrArg (· + 1) (ih _)

lemma isWritten_putField (field : Field) (a : Layout) :
    (a.putField force field).1.IsWritten force ↔ force ∨ field.isDefault = false := by
  have hvector : ∀ bytes, (a.createByteVector bytes).used ≠ 0 := by
    intro bytes
    rw [createByteVector, used_put, length_intBytes]
    omega
  cases field with
  | bool value defaultValue | int type value defaultValue =>
    simp [putField, Slot.IsWritten, Field.isDefault]
  | string value =>
    have hne : (a.createString value).used ≠ 0 := by
      rw [createString, createByteVector, used_put, length_intBytes]
      omega
    simp [putField, Slot.IsWritten, Field.isDefault, hne]
  | bytes value => simp [putField, Slot.IsWritten, Field.isDefault, hvector]
  | table value =>
    simp [putField, Slot.IsWritten, Field.isDefault, (putTable_pos force value a).ne']
  | tables values =>
    have hne : ∀ (a : Layout) offsets, (a.createOffsetVector offsets).used ≠ 0 := by
      intro a offsets
      rw [createOffsetVector, used_put, length_intBytes]
      omega
    simp [putField, Slot.IsWritten, Field.isDefault, hne]

variable (fields : List (ℕ × Field))

lemma map_fst_putFields (a : Layout) :
    (a.putFields force fields).1.map Prod.fst = fields.map Prod.fst := by
  induction fields generalizing a with
  | nil => rfl
  | cons entry fields ih => exact congrArg (entry.1 :: ·) (ih _)

lemma entryCount_le_iff (a : Layout) (k : ℕ) :
    entryCount force fields ≤ k ↔
      ∀ entry ∈ (a.putFields force fields).1, entry.2.IsWritten force → entry.1 < k := by
  induction fields generalizing a with
  | nil => simp [putFields, entryCount]
  | cons entry fields ih =>
    obtain ⟨id, field⟩ := entry
    have hwritten := isWritten_putField force field a
    rw [entryCount, max_le_iff, ih (a.putField force field).2]
    rw [show (a.putFields force ((id, field) :: fields)).1 = (id, (a.putField force field).1) ::
      ((a.putField force field).2.putFields force fields).1 from rfl, forall_mem_cons]
    simp only [hwritten]
    split_ifs with h
    · simp only [h, true_imp_iff, Nat.add_one_le_iff]
    · simp only [h, false_imp_iff, Nat.zero_le]

end Layout

/-! ## Reading a tree -/

variable {force : Bool}

mutual

variable {fb : FlatBuffer}

lemma reads_putTable (table : Table) {a : Layout} (hvalid : table.IsValid)
    (hfb : (a.putTable force table).2.written <:+ fb) (hlength : fb.length < 2 ^ 31)
    (hsmall : ∀ request ∈ (a.putTable force table).2.requests, request.IsSmall) :
    (∃ t, fb.tableAt ((fb.length : ℤ) - (a.putTable force table).1) = .ok t ∧
      ReadsAs fb table t) ↔ table.Fits force := by
  cases table with
  | mk numFields fields =>
    obtain ⟨hnodup, hids, hfields⟩ := hvalid
    let slots := (a.putFields force fields).1
    let a' := (a.putFields force fields).2
    have hmap : slots.map Prod.fst = fields.map Prod.fst := a.map_fst_putFields force fields
    have hids' : ∀ entry ∈ slots, entry.1 < numFields := by
      intro entry hentry
      have hmem := mem_map_of_mem (f := Prod.fst) hentry
      rw [hmap] at hmem
      obtain ⟨entry', hentry', heq⟩ := mem_map.mp hmem
      exact heq ▸ hids entry' hentry'
    have hgrows : a'.Grows (a.putTable force (.mk numFields fields)).2 :=
      a'.grows_createTable force numFields slots
    obtain ⟨entries, htable⟩ := createTable_reads hids' (hmap ▸ hnodup) hfb hlength hsmall
    have hcount : entries = entryCount force fields :=
      eq_of_forall_ge_iff fun k => (htable.entries_le k).trans
        (a.entryCount_le_iff force fields k).symm
    rw [hcount] at htable
    rw [Table.Fits]
    by_cases hsize : 4 ≤ shownSize (entryCount force fields)
    · obtain ⟨t, ht, hhas, habsent⟩ := htable.reads hsize
      have hinj : ∀ entry ∈ slots, ∀ entry' ∈ slots, entry.1 = entry'.1 → entry = entry' :=
        fun entry h entry' h' => inj_on_of_nodup_map (hmap ▸ hnodup) h h'
      have hread := reads_putFields fields hfields (hgrows.written.trans hfb) hlength
        (fun request h => hsmall request (hgrows.requests.subset h)) le_rfl hhas
        (fun entry hentry hnot => habsent entry.1 fun entry' hentry' heq hwritten => by
          cases hinj entry' hentry' entry hentry heq
          exact Nat.lt_of_not_le fun hle => hnot ⟨hwritten, hle⟩)
      have hother : ∀ id, id ∉ fields.map Prod.fst → IsAbsent fb t id := by
        intro id hid
        refine isAbsent_of_fieldPos (habsent id fun entry hentry heq => ?_)
        exact absurd (hmap ▸ mem_map.mpr ⟨entry, hentry, heq⟩) hid
      constructor
      · rintro ⟨t', ht', hreads⟩
        cases ht.symm.trans ht'
        exact ⟨hsize, hread.mp hreads.1⟩
      · rintro ⟨-, hfit⟩
        exact ⟨t, ht, hread.mpr hfit, hother⟩
    · obtain ⟨e, he⟩ := htable.fails (Nat.lt_of_not_le hsize)
      constructor
      · rintro ⟨t, ht, -⟩
        cases he.symm.trans ht
      · exact fun h => absurd h.1 hsize

lemma reads_putFields (fields : List (ℕ × Field)) {a : Layout} (hvalid : FieldsValid fields)
    (hfb : (a.putFields force fields).2.written <:+ fb) (hlength : fb.length < 2 ^ 31)
    (hsmall : ∀ request ∈ (a.putFields force fields).2.requests, request.IsSmall) {t : TableRef}
    {start size : ℕ} (hstart : (a.putFields force fields).2.used ≤ start)
    (hhas : ∀ entry ∈ (a.putFields force fields).1, entry.2.IsWritten force →
      2 * entry.1 + 6 ≤ size → HasField fb t start entry.1 entry.2)
    (habsent : ∀ entry ∈ (a.putFields force fields).1,
      ¬ (entry.2.IsWritten force ∧ 2 * entry.1 + 6 ≤ size) → t.fieldPos fb entry.1 = .ok 0) :
    FieldsRead fb fields t ↔ FieldsFit force size fields := by
  cases fields with
  | nil => simp [FieldsRead, FieldsFit]
  | cons entry fields =>
    obtain ⟨id, field⟩ := entry
    rw [FieldsValid] at hvalid
    let a' := (a.putField force field).2
    have hgrows : a'.Grows (a.putFields force ((id, field) :: fields)).2 :=
      grows_putFields force fields a'
    have hmem : (id, (a.putField force field).1) ∈ (a.putFields force ((id, field) :: fields)).1 :=
      mem_cons_self
    have hwritten := a.isWritten_putField force field
    have htail : FieldsRead fb fields t ↔ FieldsFit force size fields :=
      reads_putFields fields hvalid.2 hfb hlength hsmall hstart
        (fun entry h => hhas entry (mem_cons_of_mem _ h))
        (fun entry h => habsent entry (mem_cons_of_mem _ h))
    have hhead : FieldReads fb field id t ↔
        (2 * id + 6 ≤ size ∨ field.isDefault) ∧ FieldFits force field := by
      by_cases hpresent : (a.putField force field).1.IsWritten force ∧ 2 * id + 6 ≤ size
      · rw [reads_putField field hvalid.1 (hgrows.written.trans hfb) hlength
          (fun request h => hsmall request (hgrows.requests.subset h)) (hgrows.used.trans hstart)
          (hhas _ hmem hpresent.1 hpresent.2)]
        exact ⟨fun h => ⟨.inl hpresent.2, h⟩, fun h => h.2⟩
      · rw [fieldReads_absent (habsent _ hmem hpresent)]
        rw [hwritten] at hpresent
        constructor
        · intro hdefault
          refine ⟨.inr hdefault, ?_⟩
          cases field <;> simp_all [Field.isDefault, FieldFits]
        · rintro ⟨hsize | hdefault, -⟩
          · simp only [hsize, and_true, not_or] at hpresent
            exact Bool.eq_true_of_not_eq_false hpresent.2
          · exact hdefault
    rw [FieldsRead, FieldsFit, hhead, htail]

lemma reads_putField (field : Field) {a : Layout} (hvalid : FieldValid field)
    (hfb : (a.putField force field).2.written <:+ fb) (hlength : fb.length < 2 ^ 31)
    (hsmall : ∀ request ∈ (a.putField force field).2.requests, request.IsSmall) {t : TableRef}
    {start id : ℕ} (hstart : (a.putField force field).2.used ≤ start)
    (hhas : HasField fb t start id (a.putField force field).1) :
    FieldReads fb field id t ↔ FieldFits force field := by
  cases field with
  | bool value defaultValue =>
    obtain ⟨place, -, hplace, hholds, hpos⟩ := hhas
    simp only [FieldReads, FieldFits, iff_true]
    exact bool_eq hpos hplace hholds
  | int type value defaultValue =>
    obtain ⟨place, -, hplace, hholds, hpos⟩ := hhas
    simp only [FieldReads, FieldFits, iff_true]
    exact int_eq hpos hplace hholds hvalid
  | string value =>
    obtain ⟨pos, hpos, hne, hindirect⟩ := hhas.indirect hstart hlength
    have hholds := ((a.addInt 1 0).holds_createByteVector (utf8 value)).mono hfb
    have hread : t.string fb id = .ok (some (dropMark value)) := by
      rw [TableRef.string, field_eq hpos hne, hindirect]
      change (fb.stringAt _ >>= fun value => pure (some value)) = _
      rw [show fb.stringAt ((fb.length : ℤ) - (a.createString value).used) = _ from
        hholds.stringAt hlength]
      rfl
    rw [FieldReads, FieldFits, hread, Except.ok.injEq, Option.some.injEq, dropMark_eq_self]
  | bytes value =>
    obtain ⟨pos, hpos, hne, hindirect⟩ := hhas.indirect hstart hlength
    have hholds := (a.holds_createByteVector value).mono hfb
    have hle := hholds.length_le
    have hend := hholds.1
    have hright := hholds.right
    rw [length_append, length_intBytes] at hle
    rw [length_intBytes] at hright
    simp only [FieldReads, FieldFits, iff_true]
    refine ⟨⟨(fb.length : ℤ) - ((a.createByteVector value).used - 4 : ℕ), value.length⟩, ?_, ?_⟩
    · rw [TableRef.vector, field_eq hpos hne, hindirect]
      change (fb.vectorAt _ >>= fun value => pure (some value)) = _
      rw [hholds.left.vectorAt (by omega)]
      rfl
    · rw [VectorRef.bytes, hright.check, hright.subarray]
      rfl
  | table value =>
    obtain ⟨pos, hpos, hne, hindirect⟩ :=
      hhas.indirect ((putTable_le force value a).trans hstart) hlength
    have hread : t.table fb id = (fb.tableAt ((fb.length : ℤ) - (a.putTable force value).1)).map
        some := by
      rw [TableRef.table, field_eq hpos hne, hindirect]
      change (fb.tableAt _ >>= fun value => pure (some value)) = _
      cases fb.tableAt ((fb.length : ℤ) - (a.putTable force value).1) <;> rfl
    rw [FieldFits, ← reads_putTable value hvalid hfb hlength hsmall, FieldReads, hread]
    cases fb.tableAt ((fb.length : ℤ) - (a.putTable force value).1) <;> simp [Except.map]
  | tables values =>
    let offsets := (a.putTables force values).1
    let a' := (a.putTables force values).2
    have hgrows := a'.grows_createOffsetVector offsets
    obtain ⟨pos, hpos, hne, hindirect⟩ := hhas.indirect hstart hlength
    obtain ⟨hlen, helems⟩ := a'.holds_createOffsetVector offsets
    have hlen' := hlen.mono hfb
    have hend := hlen'.1
    have hused := a'.used_createOffsetVector offsets
    have hcount : offsets.length = values.length := a.length_putTables force values
    let v : VectorRef :=
      ⟨(fb.length : ℤ) - ((a'.createOffsetVector offsets).used - 4 : ℕ), offsets.length⟩
    have hread : t.vector fb id = .ok (some v) := by
      rw [TableRef.vector, field_eq hpos hne, hindirect]
      change (fb.vectorAt ((fb.length : ℤ) - (a'.createOffsetVector offsets).used) >>=
        fun value => pure (some value)) = _
      rw [hlen'.vectorAt (by omega)]
      rfl
    have hvector := reads_putTables values hvalid (hgrows.written.trans hfb) hlength
      (fun request h => hsmall request (hgrows.requests.subset h))
      fun j target hj => by
        have hjlt : j < offsets.length := (List.getElem?_eq_some_iff.mp hj).1
        have htarget := a.putTables_le force values target (mem_of_getElem? hj)
        have hholds := (helems j target hj).mono hfb
        change target ≤ a'.used at htarget
        have hplace : v.elemPos (0 + j) 4 =
            .ok ((fb.length : ℤ) - ((a'.createOffsetVector offsets).used - 4 - 4 * j : ℕ)) := by
          rw [VectorRef.elemPos, if_neg (by simp only [v]; omega)]
          simp only [v]
          congr 1
          omega
        rw [hplace]
        exact hholds.indirect (by omega) hlength
    rw [FieldReads, FieldFits, hread, ← hvector]
    constructor
    · rintro ⟨v', hv', -, hreads⟩
      cases hv'
      exact hreads
    · exact fun hreads => ⟨v, rfl, hcount, hreads⟩

lemma reads_putTables (tables : List Table) {a : Layout} (hvalid : TablesValid tables)
    (hfb : (a.putTables force tables).2.written <:+ fb) (hlength : fb.length < 2 ^ 31)
    (hsmall : ∀ request ∈ (a.putTables force tables).2.requests, request.IsSmall) {v : VectorRef}
    {i : ℕ}
    (helems : ∀ j target : ℕ, (a.putTables force tables).1[j]? = some target →
      (v.elemPos (i + j) 4 >>= fb.indirect) = .ok ((fb.length : ℤ) - target)) :
    ElemsRead fb tables v i ↔ TablesFit force tables := by
  cases tables with
  | nil => simp [ElemsRead, TablesFit]
  | cons table tables =>
    rw [TablesValid] at hvalid
    let a' := (a.putTable force table).2
    have hgrows : a'.Grows (a.putTables force (table :: tables)).2 :=
      grows_putTables force tables a'
    have hfirst : v.table fb i = fb.tableAt ((fb.length : ℤ) - (a.putTable force table).1) := by
      have hrun : v.table fb i = ((v.elemPos i 4 >>= fb.indirect) >>= fb.tableAt) := by
        rw [bind_assoc]
        rfl
      have hzero := helems 0 _ rfl
      rw [Nat.add_zero] at hzero
      rw [hrun, hzero]
      rfl
    have hhead : (∃ t, fb.tableAt ((fb.length : ℤ) - (a.putTable force table).1) = .ok t ∧
        ReadsAs fb table t) ↔ table.Fits force :=
      reads_putTable table hvalid.1 (hgrows.written.trans hfb) hlength
        (fun request h => hsmall request (hgrows.requests.subset h))
    have htail : ElemsRead fb tables v (i + 1) ↔ TablesFit force tables :=
      reads_putTables tables hvalid.2 hfb hlength hsmall fun j target hj => by
        rw [Nat.add_right_comm, Nat.add_assoc]
        exact helems (j + 1) target hj
    rw [ElemsRead, TablesFit, hfirst, hhead, htail]

end

/-! ## Building and reading -/

lemma reads_layout_iff {table : Table} (hvalid : table.IsValid)
    (hsmall : ∀ request ∈ (layout force table).requests, request.IsSmall)
    (hlength : (layout force table).used < 2 ^ 31) :
    (∃ t, FlatBuffer.rootTable (layout force table).written = .ok t ∧
      ReadsAs (layout force table).written table t) ↔ table.Fits force := by
  let fb : FlatBuffer := (layout force table).written
  let root := (empty.putTable force table).1
  let a := (empty.putTable force table).2
  have hgrows : a.Grows (layout force table) := a.grows_finish root
  have hle : root ≤ a.used := putTable_le force table .empty
  have hplaced := (a.prep a.minalign 4).isPlaced_addOffset root
  have hindirect : fb.indirect 0 = .ok ((fb.length : ℤ) - root) := by
    have hread := hplaced.holds.indirect (hle.trans hgrows.used) hlength
    rwa [used, Int.sub_self] at hread
  have hroot : fb.rootTable = fb.tableAt ((fb.length : ℤ) - root) := by
    rw [FlatBuffer.rootTable, hindirect]
    rfl
  rw [← reads_putTable table hvalid hgrows.written hlength
    fun request h => hsmall request (hgrows.requests.subset h)]
  rw [hroot]

/-- The table is built, and is what the reader finds in the bytes. -/
def RoundTrips (initialSize : ℕ) (force : Bool) (table : Table) : Prop :=
  ∃ fb : FlatBuffer, build initialSize force table = .ok fb ∧
    ∃ t, fb.rootTable = .ok t ∧ ReadsAs fb table t

/-- A tree within the limits of the format is built and read back if and only if the buffer can
serve what is asked for, no vtable seems too short, and no string begins with a mark. -/
theorem build_read_iff (initialSize : ℕ) (force : Bool) (table : Table) (hvalid : table.IsValid)
    (hsmall : ∀ request ∈ (layout force table).requests, request.IsSmall)
    (hlength : (layout force table).used < 2 ^ 31) :
    RoundTrips initialSize force table ↔
      (serve (max 1 initialSize) (layout force table).requests).isSome ∧ table.Fits force := by
  rw [← reads_layout_iff hvalid hsmall hlength]
  rcases build_cases initialSize force table with ⟨hserve, hbuild⟩ | ⟨hserve, e, hbuild⟩
  · constructor
    · rintro ⟨fb, hfb, hreads⟩
      cases hbuild.symm.trans hfb
      exact ⟨hserve, hreads⟩
    · rintro ⟨-, hreads⟩
      exact ⟨_, hbuild, hreads⟩
  · constructor
    · rintro ⟨fb, hfb, -⟩
      cases hbuild.symm.trans hfb
    · rintro ⟨hsome, -⟩
      rw [hserve] at hsome
      cases hsome

/-- A table with a string, an absent integer, a boolean, bytes, and two tables that share a
vtable. -/
def sampleTable : Table :=
  .mk 5 [(0, .string "fino"), (1, .int .i32 42 42), (3, .bool true false), (2, .bytes [1, 2, 3]),
    (4, .tables [.mk 1 [(0, .int .u16 7 0)], .mk 1 [(0, .int .u16 65535 0)]])]

/-- The sample is built in a buffer that is grown on the way, and read back. -/
theorem sampleTable_round_trips : RoundTrips 24 false sampleTable := by
  refine (build_read_iff 24 false sampleTable ?_ (by decide +kernel) (by decide +kernel)).mpr
    ⟨by decide +kernel, ?_⟩
  · simp [sampleTable, Table.IsValid, FieldsValid, FieldValid, TablesValid, IntType.InRange,
      IntType.isSigned, IntType.size]
  · simp [sampleTable, Table.Fits, FieldsFit, FieldFits, TablesFit, Field.isDefault, entryCount,
      shownSize, IsMarked, byteOrderMark]

/-- An empty table cannot be built in a buffer of one byte, and a marked string is not read back. -/
theorem empty_table_and_mark_fail :
    (∃ e, build 1 false (.mk 0 []) = .error e) ∧
      (∃ fb, build 1024 false (.mk 1 [(0, .string (String.singleton byteOrderMark))]) = .ok fb) ∧
      ¬ RoundTrips 1 false (.mk 0 []) ∧
      ¬ RoundTrips 1024 false (.mk 1 [(0, .string (String.singleton byteOrderMark))]) := by
  let marked : Table := .mk 1 [(0, .string (String.singleton byteOrderMark))]
  have hempty : ∃ e, build 1 false (.mk 0 []) = .error e := by
    rcases build_cases 1 false (.mk 0 []) with ⟨hserve, -⟩ | ⟨-, hbuild⟩
    · exact absurd hserve (by decide +kernel)
    · exact hbuild
  have hmarked : build 1024 false marked = .ok (layout false marked).written := by
    rcases build_cases 1024 false marked with ⟨-, hbuild⟩ | ⟨hserve, -⟩
    · exact hbuild
    · exact absurd hserve (by decide +kernel)
  have hvalid : marked.IsValid := by
    simp [marked, Table.IsValid, FieldsValid, FieldValid]
  refine ⟨hempty, ⟨_, hmarked⟩, ?_, ?_⟩
  · rintro ⟨fb, hfb, -⟩
    obtain ⟨e, he⟩ := hempty
    cases he.symm.trans hfb
  · rintro ⟨fb, hfb, hreads⟩
    cases hmarked.symm.trans hfb
    have hfits := (reads_layout_iff hvalid (by decide +kernel) (by decide +kernel)).mp hreads
    simp [marked, Table.Fits, FieldsFit, FieldFits, IsMarked] at hfits

end Fino.FlatBuffers
