import Fino.FlatBuffers.Layout
import Fino.FlatBuffers.Reader

/-!
# What is read where

`Holds` says which bytes are at a place, named by its distance from the end, and the lemmas here
what the reader makes of them: integers, references, strings, vectors and tables.
-/

namespace Fino.FlatBuffers

open Lib.Wire Lib List Layout

/-! ## Bytes at a place -/

namespace Holds

variable {fb : FlatBuffer} {offset size : ℕ} {bytes : List UInt8} {value : ℤ}

lemma mono {written : List UInt8} (h : Holds written offset bytes) (hfb : written <:+ fb) :
    Holds fb offset bytes := by
  obtain ⟨before, rfl⟩ := hfb
  exact h.append before

lemma of_front (h : bytes <+: fb) : Holds fb fb.length bytes :=
  ⟨le_rfl, by rwa [rtake_length]⟩

lemma length_le (h : Holds fb offset bytes) : bytes.length ≤ offset := by
  have hlength := h.2.length_le
  rw [List.rtake, length_drop] at hlength
  omega

lemma left {x y : List UInt8} (h : Holds fb offset (x ++ y)) : Holds fb offset x :=
  ⟨h.1, (prefix_append _ _).trans h.2⟩

lemma right {x y : List UInt8} (h : Holds fb offset (x ++ y)) :
    Holds fb (offset - x.length) y := by
  have hlength := h.length_le
  have hoffset := h.1
  rw [length_append] at hlength
  refine ⟨by omega, ?_⟩
  obtain ⟨rest, hrest⟩ := h.2
  rw [List.rtake, show fb.length - (offset - x.length) = fb.length - offset + x.length by omega,
    ← drop_drop]
  rw [List.rtake] at hrest
  rw [← hrest, append_assoc, drop_left]
  exact prefix_append _ _

lemma check (h : Holds fb offset bytes) :
    fb.check ((fb.length : ℤ) - offset) bytes.length = .ok () := by
  have hlength := h.length_le
  have hoffset := h.1
  exact if_neg (by omega)

lemma subarray (h : Holds fb offset bytes) :
    fb.subarray ((fb.length : ℤ) - offset) bytes.length = bytes := by
  rw [FlatBuffer.subarray, show ((fb.length : ℤ) - offset).toNat = fb.length - offset by omega]
  exact (prefix_iff_eq_take.mp h.2).symm

lemma uintAt (h : Holds fb offset (intBytes size value)) :
    fb.uintAt size ((fb.length : ℤ) - offset) = .ok (asUintN (8 * size) value) := by
  have hcheck := h.check
  have hsubarray := h.subarray
  rw [length_intBytes] at hcheck hsubarray
  rw [FlatBuffer.uintAt, hcheck, hsubarray, ofLittleEndian_intBytes]
  rfl

lemma intAt (h : Holds fb offset (intBytes size value)) :
    fb.intAt size ((fb.length : ℤ) - offset) =
      .ok (asIntN (8 * size) (asUintN (8 * size) value)) := by
  have hcheck := h.check
  have hsubarray := h.subarray
  rw [length_intBytes] at hcheck hsubarray
  rw [FlatBuffer.intAt, hcheck, hsubarray, ofLittleEndian_intBytes]
  rfl

lemma indirect {target : ℕ} (h : Holds fb offset (intBytes 4 ((offset : ℤ) - target)))
    (htarget : target ≤ offset) (hlength : fb.length < 2 ^ 31) :
    fb.indirect ((fb.length : ℤ) - offset) = .ok ((fb.length : ℤ) - target) := by
  have hoffset := h.1
  have hvalue : (asUintN (8 * 4) ((offset : ℤ) - target) : ℤ) = (offset : ℤ) - target := by
    rw [show (offset : ℤ) - target = ((offset - target : ℕ) : ℤ) by omega,
      asUintN_of_lt (by norm_num; omega)]
  rw [FlatBuffer.indirect, h.uintAt]
  change Except.ok _ = _
  congr 1
  omega

lemma stringAt {value : String}
    (h : Holds fb offset (intBytes 4 (utf8 value).length ++ utf8 value))
    (hlength : fb.length < 2 ^ 31) :
    fb.stringAt ((fb.length : ℤ) - offset) = .ok (dropMark value) := by
  have hle := h.length_le
  have hoffset := h.1
  have hright := h.right
  rw [length_append, length_intBytes] at hle
  rw [length_intBytes] at hright
  have hlen : asUintN (8 * 4) (utf8 value).length = (utf8 value).length :=
    asUintN_of_lt (by norm_num; omega)
  have hpos : (fb.length : ℤ) - offset + 4 = (fb.length : ℤ) - (offset - 4 : ℕ) := by omega
  rw [FlatBuffer.stringAt, h.left.uintAt, hlen]
  change (fb.check _ _ >>= fun _ => _) = _
  rw [hpos, hright.check, hright.subarray]
  change Except.ok _ = _
  rw [TextDecoder.decode_utf8]

lemma vectorAt {length : ℕ} (h : Holds fb offset (intBytes 4 length))
    (hlength : length < 2 ^ 32) :
    fb.vectorAt ((fb.length : ℤ) - offset) = .ok ⟨(fb.length : ℤ) - (offset - 4 : ℕ), length⟩ := by
  have hle := h.length_le
  rw [length_intBytes] at hle
  rw [FlatBuffer.vectorAt, h.uintAt, asUintN_of_lt hlength]
  change Except.ok _ = _
  rw [show (fb.length : ℤ) - offset + 4 = (fb.length : ℤ) - (offset - 4 : ℕ) by omega]

end Holds

/-! ## Tables -/

def shownSize (entries : ℕ) : ℕ := (entries + 2) * 2 % 2 ^ 16

section

variable {fb : FlatBuffer} {offset vtable objectStart : ℕ} {entries : List ℕ}

def tableRef (fb : FlatBuffer) (offset vtable entries : ℕ) : TableRef :=
  ⟨(fb.length : ℤ) - offset, (fb.length : ℤ) - vtable, shownSize entries⟩

lemma tableAt_eq (hlink : Holds fb offset (intBytes 4 ((vtable : ℤ) - offset)))
    (hvtable : Holds fb vtable (vtableBytes offset objectStart entries))
    (hlength : fb.length < 2 ^ 31) :
    fb.tableAt ((fb.length : ℤ) - offset) =
      if shownSize entries.length < 4 then .error (.vtableSize (shownSize entries.length))
      else .ok (tableRef fb offset vtable entries.length) := by
  have hoffset := hlink.1
  have hvtable' := hvtable.1
  have hle := hvtable.length_le
  have hlinkValue : asIntN (8 * 4) (asUintN (8 * 4) ((vtable : ℤ) - offset)) =
      (vtable : ℤ) - offset :=
    asIntN_asUintN le_rfl (by norm_num; omega) (by norm_num; omega)
  have hsize : asUintN (8 * 2) ((entries.length + 2) * 2 : ℕ) = shownSize entries.length := by
    simp only [asUintN, shownSize]
    omega
  rw [length_vtableBytes] at hle
  have hshown : shownSize entries.length ≤ (entries.length + 2) * 2 := Nat.mod_le _ _
  have heven : shownSize entries.length % 2 = 0 := by
    rw [shownSize]
    omega
  have hcheck : fb.check ((fb.length : ℤ) - vtable) (shownSize entries.length) = .ok () :=
    if_neg (by omega)
  rw [FlatBuffer.tableAt, hlink.intAt, hlinkValue]
  change (fb.uintAt 2 ((fb.length : ℤ) - offset - ((vtable : ℤ) - offset)) >>= fun _ => _) = _
  rw [show (fb.length : ℤ) - offset - ((vtable : ℤ) - offset) = (fb.length : ℤ) - vtable by ring,
    (Holds.left hvtable).uintAt, hsize]
  change (if _ ∨ _ then _ else fb.check _ _ >>= fun _ => _) = _
  rw [hcheck]
  by_cases hsmall : shownSize entries.length < 4
  · rw [if_pos (.inl hsmall), if_pos hsmall]
    rfl
  · rw [if_neg (by omega), if_neg hsmall]
    rfl

variable (hvtable : Holds fb vtable (vtableBytes offset objectStart entries))

include hvtable

lemma holds_entry {id entry : ℕ} (hentry : entries[id]? = some entry) :
    Holds fb (vtable - (4 + id * 2)) (intBytes 2 (entryValue offset entry)) := by
  obtain ⟨hid, rfl⟩ := List.getElem?_eq_some_iff.mp hentry
  have hsplit : entries = entries.take id ++ entries[id] :: entries.drop (id + 1) := by
    rw [cons_getElem_drop_succ, take_append_drop]
  have hlength : ((entries.take id).flatMap fun entry =>
      intBytes 2 (entryValue offset entry)).length = id * 2 := by
    rw [length_entryBytes, length_take_of_le hid.le]
  have hrest := hvtable.right.right
  rw [hsplit, flatMap_append] at hrest
  have hentry' := hrest.right
  rw [hlength, flatMap_cons] at hentry'
  simp only [length_intBytes, Nat.sub_sub] at hentry'
  exact hentry'.left

/-- Where a field is: nowhere, if the vtable does not seem to have it. -/
lemma fieldPos_eq
    (hentries : ∀ entry ∈ entries, entry ≠ 0 → entry < offset ∧ offset - entry < 2 ^ 16) (id : ℕ) :
    (tableRef fb offset vtable entries.length).fieldPos fb id =
      .ok (if shownSize entries.length < 2 * id + 6 ∨ entries.getD id 0 = 0 then 0
        else (fb.length : ℤ) - entries.getD id 0) := by
  have hrun : (tableRef fb offset vtable entries.length).fieldPos fb id =
      if 4 + id * 2 + 2 > shownSize entries.length then .ok 0
      else (fb.uintAt 2 ((fb.length : ℤ) - vtable + (4 + id * 2 : ℕ))).bind fun off =>
        .ok (if off = 0 then 0 else (fb.length : ℤ) - offset + off) := rfl
  rw [hrun]
  by_cases hshown : shownSize entries.length < 2 * id + 6
  · rw [if_pos (by omega), if_pos (.inl hshown)]
  · have hle : shownSize entries.length ≤ (entries.length + 2) * 2 := Nat.mod_le _ _
    have hid : id < entries.length := by omega
    have hentry : entries[id]? = some entries[id] := List.getElem?_eq_getElem hid
    have hgetD : entries.getD id 0 = entries[id] := by
      rw [getD_eq_getElem?_getD, hentry, Option.getD_some]
    have hroom := hvtable.length_le
    rw [length_vtableBytes] at hroom
    rw [if_neg (by omega), hgetD, show (fb.length : ℤ) - vtable + (4 + id * 2 : ℕ) =
        (fb.length : ℤ) - (vtable - (4 + id * 2) : ℕ) by omega,
      (holds_entry hvtable hentry).uintAt]
    change Except.ok (if _ then _ else _) = _
    by_cases hzero : entries[id] = 0
    · have hvalue : asUintN (8 * 2) (entryValue offset entries[id]) = 0 := by
        rw [hzero]
        rfl
      rw [if_pos hvalue, if_pos (.inr hzero)]
    · obtain ⟨hlt, hnear⟩ := hentries _ (getElem_mem hid) hzero
      have hvalue : asUintN (8 * 2) (entryValue offset entries[id]) = offset - entries[id] := by
        rw [entryValue, if_pos hzero,
          show (offset : ℤ) - entries[id] = ((offset - entries[id] : ℕ) : ℤ) by omega,
          asUintN_of_lt hnear]
      rw [hvalue, if_neg (by omega), if_neg (by omega)]
      congr 1
      omega

end

section

variable (vtable : List ℕ)

lemma getD_concat_zero (id : ℕ) : (vtable ++ [0]).getD id 0 = vtable.getD id 0 := by
  rcases lt_or_ge id vtable.length with hid | hid
  · rw [getD_append _ _ _ _ hid]
  · rw [getD_append_right _ _ _ _ hid, getD_eq_default _ _ hid]
    cases id - vtable.length <;> rfl

lemma getD_trimmed (id : ℕ) : (trimmed vtable).getD id 0 = vtable.getD id 0 := by
  induction vtable using List.reverseRecOn with
  | nil => rfl
  | append_singleton vtable entry ih =>
    by_cases hentry : entry = 0
    · rw [trimmed, rdropWhile_concat_pos _ _ _ (by simpa using hentry), hentry, getD_concat_zero]
      exact ih
    · rw [trimmed, rdropWhile_concat_neg _ _ _ (by simpa using hentry)]

lemma length_trimmed_le_iff (k : ℕ) :
    (trimmed vtable).length ≤ k ↔ ∀ id, k ≤ id → vtable.getD id 0 = 0 := by
  constructor
  · intro h id hid
    rw [← getD_trimmed, getD_eq_default _ _ (by omega)]
  · intro h
    by_contra hlt
    have hne : trimmed vtable ≠ [] := ne_nil_of_length_pos (by omega)
    have hlast := rdropWhile_last_not (fun entry => decide (entry = 0)) vtable hne
    have hzero := h ((trimmed vtable).length - 1) (by omega)
    rw [← getD_trimmed, getD_eq_getElem _ _ (by omega), ← getLast_eq_getElem hne] at hzero
    exact hlast (decide_eq_true hzero)

end

/-! ## The fields of a table -/

/-- The value is not left out as the default. -/
def Slot.IsWritten (force : Bool) : Slot → Prop
  | bool value defaultValue => force = true ∨ value ≠ defaultValue
  | int _ value defaultValue => force = true ∨ value ≠ defaultValue
  | offset target => target ≠ 0

def Slot.bytes (place : ℕ) : Slot → List UInt8
  | bool value _ => intBytes 1 (if value then 1 else 0)
  | int type value _ => intBytes type.size value
  | offset target => intBytes 4 ((place : ℤ) - target)

/-- The value stands at a place of the table that was begun at `start`. -/
structure IsPlaced (a : Layout) (start place : ℕ) (value : Slot) : Prop where
  start_lt : start < place
  le_used : place ≤ a.used
  holds : Holds a.written place (value.bytes place)

variable {a : Layout}

lemma IsPlaced.mono {a' : Layout} {start start' place : ℕ} {value : Slot}
    (h : IsPlaced a start place value) (hgrows : a.Grows a') (hstart : start' ≤ start) :
    IsPlaced a' start' place value :=
  ⟨hstart.trans_lt h.start_lt, h.le_used.trans hgrows.used, h.holds.mono hgrows.written⟩

namespace Layout

lemma isPlaced_addInt (a : Layout) (size : ℕ) (value : ℤ) (field : Slot) (hsize : 0 < size)
    (hbytes : field.bytes (a.addInt size value).used = intBytes size value) :
    IsPlaced (a.addInt size value) a.used (a.addInt size value).used field := by
  refine ⟨?_, le_rfl, ?_⟩
  · rw [addInt, used_put, used_prep, length_intBytes]
    omega
  · rw [hbytes]
    exact Holds.of_front (prefix_append _ _)

lemma isPlaced_addOffset (a : Layout) (offset : ℕ) :
    IsPlaced (a.addOffset offset) a.used (a.addOffset offset).used (.offset offset) := by
  have hused : (a.addOffset offset).used = 4 + (a.prep 4 0).used := by
    rw [addOffset, used_put, length_intBytes]
  refine ⟨?_, le_rfl, Holds.of_front ?_⟩
  · rw [hused, used_prep]
    omega
  · have hvalue : ((a.addOffset offset).used : ℤ) - offset =
        ((a.prep 4 0).used : ℤ) - offset + 4 := by
      rw [hused]
      push_cast
      ring
    rw [Slot.bytes, hvalue]
    exact prefix_append _ _

/-- One field is added: if it is written, its place is noted. -/
lemma addSlot_cases (a : Layout) (force : Bool) (vtable : List ℕ) (id : ℕ) (value : Slot) :
    (value.IsWritten force ∧ ∃ place, (a.addSlot force vtable id value).2 = vtable.set id place ∧
      IsPlaced (a.addSlot force vtable id value).1 a.used place value) ∨
    (¬ value.IsWritten force ∧ (a.addSlot force vtable id value).2 = vtable) := by
  have hint : ∀ (size : ℕ) (z d : ℤ), 0 < size →
      (value.bytes (a.addInt size z).used = intBytes size z) →
      (value.IsWritten force ↔ force ∨ z ≠ d) →
      a.addSlot force vtable id value = a.addFieldInt force vtable size id z d →
      (value.IsWritten force ∧ ∃ place, (a.addSlot force vtable id value).2 = vtable.set id place ∧
        IsPlaced (a.addSlot force vtable id value).1 a.used place value) ∨
      (¬ value.IsWritten force ∧ (a.addSlot force vtable id value).2 = vtable) := by
    intro size z d hsize hbytes hwritten hadd
    rw [hadd, addFieldInt]
    by_cases h : force ∨ z ≠ d
    · rw [if_pos h]
      exact .inl ⟨hwritten.mpr h, _, rfl, a.isPlaced_addInt size z value hsize hbytes⟩
    · rw [if_neg h]
      exact .inr ⟨mt hwritten.mp h, rfl⟩
  cases value with
  | bool value defaultValue =>
    refine hint 1 _ _ Nat.one_pos rfl ?_ rfl
    cases value <;> cases defaultValue <;> simp [Slot.IsWritten]
  | int type value defaultValue =>
    refine hint type.size value defaultValue ?_ rfl Iff.rfl rfl
    cases type <;> decide
  | offset target =>
    rw [addSlot, addFieldOffset]
    by_cases h : target ≠ 0
    · rw [if_pos h]
      exact .inl ⟨h, _, rfl, a.isPlaced_addOffset target⟩
    · rw [if_neg h]
      exact .inr ⟨h, rfl⟩

/-- The fields of a table that are written have their places noted, and no others. -/
lemma addSlots_spec (force : Bool) (slots : List (ℕ × Slot)) (a : Layout) (vtable : List ℕ)
    (hids : ∀ entry ∈ slots, entry.1 < vtable.length) (hnodup : (slots.map Prod.fst).Nodup) :
    (∀ entry ∈ slots, entry.2.IsWritten force → IsPlaced (a.addSlots force vtable slots).1 a.used
        ((a.addSlots force vtable slots).2.getD entry.1 0) entry.2) ∧
    ∀ id, (∀ entry ∈ slots, entry.1 = id → ¬ entry.2.IsWritten force) →
      (a.addSlots force vtable slots).2.getD id 0 = vtable.getD id 0 := by
  induction slots generalizing a vtable with
  | nil => exact ⟨by simp, fun _ _ => rfl⟩
  | cons entry slots ih =>
    obtain ⟨id, value⟩ := entry
    rw [map_cons, nodup_cons] at hnodup
    let a' := (a.addSlot force vtable id value).1
    let vtable' := (a.addSlot force vtable id value).2
    have hgrows : a.Grows a' := a.grows_addSlot force vtable id value
    have hlength : vtable'.length = vtable.length := a.length_addSlot force vtable id value
    obtain ⟨hplaced, hother⟩ := ih a' vtable'
      (fun entry h => hlength ▸ hids entry (mem_cons_of_mem _ h)) hnodup.2
    have hid := hids (id, value) mem_cons_self
    -- The later fields have other ids, so that they leave the place of this one as it is.
    have hkept : (a'.addSlots force vtable' slots).2.getD id 0 = vtable'.getD id 0 :=
      hother id fun entry hentry heq _ => hnodup.1 (mem_map.mpr ⟨entry, hentry, heq⟩)
    have hlater := grows_addSlots force slots a' vtable'
    rw [show a.addSlots force vtable ((id, value) :: slots) =
      a'.addSlots force vtable' slots from rfl]
    constructor
    · intro entry hentry hwritten
      rcases mem_cons.mp hentry with rfl | hentry
      · rcases a.addSlot_cases force vtable id value with ⟨-, place, hset, hplace⟩ | ⟨hnot, -⟩
        · have hgetD : vtable'.getD id 0 = place := by
            rw [show vtable' = vtable.set id place from hset, getD_eq_getElem?_getD,
              List.getElem?_set_self hid, Option.getD_some]
          rw [hkept, hgetD]
          exact hplace.mono hlater le_rfl
        · exact absurd hwritten hnot
      · exact (hplaced entry hentry hwritten).mono (.refl _) hgrows.used
    · intro id' hnone
      rw [hother id' fun entry hentry => hnone entry (mem_cons_of_mem _ hentry)]
      rcases a.addSlot_cases force vtable id value with ⟨hwritten, place, hset, -⟩ | ⟨-, hset⟩
      · have hne : id ≠ id' := fun heq => hnone (id, value) mem_cons_self heq hwritten
        rw [show vtable' = vtable.set id place from hset, getD_eq_getElem?_getD,
          List.getElem?_set_ne hne, ← getD_eq_getElem?_getD]
      · rw [show vtable' = vtable from hset]

lemma holds_of_existingVtable {vtable : List UInt8} {existing : ℕ}
    (h : a.existingVtable vtable = some existing) : Holds a.written existing vtable := by
  obtain ⟨n, -, -, hholds⟩ := a.isVtable existing (mem_of_find?_eq_some h)
  have hfound := List.find?_some h
  rw [decide_eq_true_eq] at hfound
  exact ⟨hholds.1, hfound.2⟩

lemma linkVtable_spec {vtableLoc objectStart : ℕ} {entries : List ℕ} {existing : Option ℕ}
    (hloc : vtableLoc = a.used + 4)
    (hexisting : a.existingVtable (vtableBytes vtableLoc objectStart entries) = existing) :
    ∃ place : ℕ, Holds (a.linkVtable vtableLoc objectStart entries existing).written vtableLoc
        (intBytes 4 ((place : ℤ) - vtableLoc)) ∧
      Holds (a.linkVtable vtableLoc objectStart entries existing).written place
        (vtableBytes vtableLoc objectStart entries) := by
  have hlink : ∀ bytes : List UInt8, bytes.length = 4 →
      Holds (a.put bytes).written vtableLoc bytes := by
    intro bytes hbytes
    have hlength : (a.put bytes).written.length = vtableLoc := by
      rw [put_written, length_append, hbytes, hloc, Nat.add_comm, used]
    rw [← hlength]
    exact Holds.of_front (prefix_append _ _)
  cases existing with
  | some existing =>
    exact ⟨existing, hlink _ (length_intBytes _ _), (holds_of_existingVtable hexisting).append _⟩
  | none =>
    have hsize : ((vtableLoc + (entries.length + 2) * 2 : ℕ) : ℤ) - vtableLoc =
        ((entries.length + 2) * 2 : ℕ) := by
      push_cast
      ring
    have hlength : ((a.put (intBytes 4 ((entries.length + 2) * 2 : ℕ))).put
        (vtableBytes vtableLoc objectStart entries)).written.length =
        vtableLoc + (entries.length + 2) * 2 := by
      simp only [put_written, length_append, length_vtableBytes, length_intBytes, hloc, used]
      omega
    refine ⟨vtableLoc + (entries.length + 2) * 2, ?_, ?_⟩
    · rw [hsize]
      exact (hlink _ (length_intBytes _ _)).append _
    · rw [← hlength]
      exact Holds.of_front (prefix_append _ _)

lemma endTable_spec (a : Layout) (objectStart : ℕ) (vtable : List ℕ) :
    (a.endTable objectStart vtable).1 = (a.prep 4 0).used + 4 ∧
    vtableRequest (a.endTable objectStart vtable).1 objectStart (trimmed vtable) ∈
      (a.endTable objectStart vtable).2.requests ∧
    ∃ place : ℕ, Holds (a.endTable objectStart vtable).2.written (a.endTable objectStart vtable).1
        (intBytes 4 ((place : ℤ) - (a.endTable objectStart vtable).1)) ∧
      Holds (a.endTable objectStart vtable).2.written place
        (vtableBytes (a.endTable objectStart vtable).1 objectStart (trimmed vtable)) := by
  have hgrows := fun existing => ((a.prep 4 0).ask
    (vtableRequest ((a.prep 4 0).used + 4) objectStart (trimmed vtable))).grows_linkVtable
      ((a.prep 4 0).used + 4) objectStart (trimmed vtable) existing
  exact ⟨rfl, (hgrows _).requests.subset (mem_append_right _ (mem_singleton_self _)),
    linkVtable_spec rfl rfl⟩

end Layout

/-- The fields of a table that a vtable is asked for take less than 2 ^ 16 bytes. -/
def Request.IsSmall : Request → Prop
  | reserve _ => True
  | vtable inlineSize _ _ => inlineSize < 2 ^ 16

instance (request : Request) : Decidable request.IsSmall := by
  unfold Request.IsSmall
  split <;> infer_instance

/-- A table has a field at a place after `start`. -/
def HasField (fb : FlatBuffer) (t : TableRef) (start id : ℕ) (value : Slot) : Prop :=
  ∃ place, start < place ∧ place < fb.length ∧ Holds fb place (value.bytes place) ∧
    t.fieldPos fb id = .ok ((fb.length : ℤ) - place)

/-- A table has the fields that were written, unless the vtable seems too short for them, and no
others. -/
structure TableReads (fb : FlatBuffer) (force : Bool) (start offset : ℕ)
    (slots : List (ℕ × Slot)) (entries : ℕ) : Prop where
  entries_le : ∀ k, entries ≤ k ↔ ∀ entry ∈ slots, entry.2.IsWritten force → entry.1 < k
  fails : shownSize entries < 4 → ∃ e, fb.tableAt ((fb.length : ℤ) - offset) = .error e
  reads : 4 ≤ shownSize entries → ∃ t, fb.tableAt ((fb.length : ℤ) - offset) = .ok t ∧
    (∀ entry ∈ slots, entry.2.IsWritten force → 2 * entry.1 + 6 ≤ shownSize entries →
      HasField fb t start entry.1 entry.2) ∧
    ∀ id, (∀ entry ∈ slots, entry.1 = id → entry.2.IsWritten force →
      shownSize entries < 2 * id + 6) → t.fieldPos fb id = .ok 0

namespace Layout

lemma createTable_reads {force : Bool} {numFields : ℕ} {slots : List (ℕ × Slot)} {fb : FlatBuffer}
    (hids : ∀ entry ∈ slots, entry.1 < numFields) (hnodup : (slots.map Prod.fst).Nodup)
    (hfb : (a.createTable force numFields slots).2.written <:+ fb) (hlength : fb.length < 2 ^ 31)
    (hsmall : ∀ request ∈ (a.createTable force numFields slots).2.requests, request.IsSmall) :
    ∃ entries,
      TableReads fb force a.used (a.createTable force numFields slots).1 slots entries := by
  let zeros : List ℕ := List.replicate numFields 0
  let a' := (a.addSlots force zeros slots).1
  let vtable := (a.addSlots force zeros slots).2
  let offset := (a.createTable force numFields slots).1
  obtain ⟨hplaced, hother⟩ := addSlots_spec force slots a zeros (by simpa [zeros] using hids) hnodup
  obtain ⟨hoffset, hrequest, place, hlink, hvtable⟩ := a'.endTable_spec a.used vtable
  have hinline : offset - a.used < 2 ^ 16 := hsmall _ hrequest
  have hprep : a'.used ≤ (a'.prep 4 0).used := (a'.grows_prep 4 0).used
  have hgrows : a'.Grows (a.createTable force numFields slots).2 := a'.grows_endTable _ _
  have hlink' := hlink.mono hfb
  have hvtable' := hvtable.mono hfb
  have hend : offset ≤ fb.length := hlink'.1
  have habove : a'.used < offset := by
    rw [show offset = (a'.prep 4 0).used + 4 from hoffset]
    omega
  -- An entry that is in use is the place of a field that was written.
  have hused : ∀ id, vtable.getD id 0 ≠ 0 → ∃ entry ∈ slots, entry.1 = id ∧
      entry.2.IsWritten force := by
    intro id hne
    by_contra hnone
    have hzero : vtable.getD id 0 = zeros.getD id 0 :=
      hother id fun entry hentry hid hwritten => hnone ⟨entry, hentry, hid, hwritten⟩
    rw [hzero, getD_eq_getElem?_getD, List.getElem?_replicate] at hne
    split_ifs at hne <;> exact hne rfl
  have hnear : ∀ id, vtable.getD id 0 ≠ 0 →
      vtable.getD id 0 < offset ∧ offset - vtable.getD id 0 < 2 ^ 16 := by
    intro id hne
    obtain ⟨entry, hentry, rfl, hwritten⟩ := hused id hne
    have hstart := (hplaced entry hentry hwritten).start_lt
    have hle := (hplaced entry hentry hwritten).le_used
    change vtable.getD entry.1 0 ≤ a'.used at hle
    change a.used < vtable.getD entry.1 0 at hstart
    omega
  have hentries : ∀ entry ∈ trimmed vtable, entry ≠ 0 →
      entry < offset ∧ offset - entry < 2 ^ 16 := by
    intro entry hentry hne
    obtain ⟨id, hid, rfl⟩ := getElem_of_mem hentry
    have hgetD : (trimmed vtable)[id] = vtable.getD id 0 := by
      rw [← getD_trimmed, getD_eq_getElem _ _ hid]
    rw [hgetD] at hne ⊢
    exact hnear id hne
  have htable := tableAt_eq hlink' hvtable' hlength
  refine ⟨(trimmed vtable).length, ?_, ?_, ?_⟩
  · intro k
    rw [length_trimmed_le_iff]
    constructor
    · intro h entry hentry hwritten
      by_contra hlt
      have hstart := (hplaced entry hentry hwritten).start_lt
      rw [show (a.addSlots force zeros slots).2.getD entry.1 0 = 0 from
        h entry.1 (by omega)] at hstart
      omega
    · intro h id hid
      by_contra hne
      obtain ⟨entry, hentry, rfl, hwritten⟩ := hused id hne
      have hlt := h entry hentry hwritten
      omega
  · intro hfew
    exact ⟨_, htable.trans (if_pos hfew)⟩
  · intro hmany
    have hpos := fieldPos_eq hvtable' hentries
    simp only [getD_trimmed] at hpos
    refine ⟨_, htable.trans (if_neg (by omega)), ?_, ?_⟩
    · intro entry hentry hwritten hshown
      have hplace := hplaced entry hentry hwritten
      have hstart : a.used < vtable.getD entry.1 0 := hplace.start_lt
      have hlt := (hnear entry.1 (by omega)).1
      refine ⟨vtable.getD entry.1 0, hstart, by omega, hplace.holds.mono
        (hgrows.written.trans hfb), ?_⟩
      rw [hpos, if_neg (by omega)]
    · intro id hnone
      rw [hpos, if_pos]
      by_contra hnot
      obtain ⟨hshown, hne⟩ := not_or.mp hnot
      obtain ⟨entry, hentry, rfl, hwritten⟩ := hused id hne
      exact hshown (hnone entry hentry rfl hwritten)

end Layout

end Fino.FlatBuffers
