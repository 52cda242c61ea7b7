import Fino.FlatBuffers.Layout

/-!
# The builder writes its layout

Each operation of the builder does to the buffer what the operation of the same name does to the
layout, and fails if and only if the buffer cannot serve the requests (`Does`); where the buffer
grows makes no difference.
-/

namespace Fino.FlatBuffers

open Lib.Wire List Layout

/-! ## What a builder shows -/

/-- The part of a builder that says what it is in the middle of. -/
structure Control where
  vtable : Option (List ℕ)
  vtableInUse : ℕ
  isNested : Bool
  objectStart : ℕ
  vectorNumElems : ℕ
  finished : Bool
  forceDefaults : Bool

def Builder.control (b : Builder) : Control where
  vtable := b.vtable
  vtableInUse := b.vtableInUse
  isNested := b.isNested
  objectStart := b.objectStart
  vectorNumElems := b.vectorNumElems
  finished := b.finished
  forceDefaults := b.forceDefaults

/-- A builder that began with a buffer of some length has written a layout. -/
structure Shows (length : ℕ) (b : Builder) (a : Layout) : Prop where
  served : serve length a.requests = some b.buf.length
  space : b.space + a.used = b.buf.length
  written : b.buf.drop b.space = a.written
  minalign : b.minalign = a.minalign
  vtables : b.vtables = a.vtables

variable {b : Builder} {a : Layout} {length : ℕ} {c : Control}

lemma Shows.offset (h : Shows length b a) : b.offset = a.used := by
  have hspace := h.space
  simp only [Builder.offset]
  omega

/-- An operation returns a value and leaves a layout, or it fails and the buffer cannot serve what
is asked for. -/
def Meets {α : Type} (length : ℕ) (op : Building α) (b : Builder) (x : α) (a : Layout)
    (P : Control → Prop) : Prop :=
  (∃ b', op b = .ok (x, b') ∧ Shows length b' a ∧ P b'.control) ∨
    (serve length a.requests = none ∧ ∃ e, op b = .error e)

namespace Meets

variable {α β : Type} {length : ℕ} {b : Builder} {a a' : Layout} {P P' : Control → Prop}

lemma pure (x : α) (h : Shows length b a) (hcontrol : P b.control) :
    Meets length (Pure.pure x) b x a P :=
  .inl ⟨b, rfl, h, hcontrol⟩

variable {op : Building α} {x : α}

lemma of_run {op' : Building α} {b' : Builder} (hrun : op b = op' b')
    (h : Meets length op' b' x a P) : Meets length op b x a P := by
  rw [Meets, hrun]
  exact h

variable (h : Meets length op b x a P)

include h

lemma weaken (himp : ∀ c, P c → P' c) : Meets length op b x a P' :=
  h.imp_left fun ⟨b', hop, hshows, hcontrol⟩ => ⟨b', hop, hshows, himp _ hcontrol⟩

variable {f : α → Building β}

lemma bind_requests {y : β} (hrequests : a.requests <+: a'.requests)
    (hf : ∀ b', Shows length b' a → P b'.control → Meets length (f x) b' y a' P') :
    Meets length (op >>= f) b y a' P' := by
  have hrun : (op >>= f) b = (op b).bind fun result => f result.1 result.2 := rfl
  rcases h with ⟨b', hop, hshows, hcontrol⟩ | ⟨hserve, e, hop⟩
  · have hnext := hf b' hshows hcontrol
    rw [Meets, hrun, hop]
    exact hnext
  · refine .inr ⟨serve_eq_none_of_fewer hrequests hserve, e, ?_⟩
    rw [hrun, hop]
    rfl

lemma bind {y : β} (hgrows : a.Grows a')
    (hf : ∀ b', Shows length b' a → P b'.control → Meets length (f x) b' y a' P') :
    Meets length (op >>= f) b y a' P' :=
  h.bind_requests hgrows.requests hf

lemma map {f : α → β} : Meets length (op >>= fun x => Pure.pure (f x)) b (f x) a P :=
  h.bind (.refl a) fun _ hshows hcontrol => Meets.pure _ hshows hcontrol

end Meets

/-- An operation as above, where it is known what the builder is in the middle of. -/
def Does {α : Type} (length : ℕ) (op : Building α) (b : Builder) (x : α) (a : Layout)
    (c : Control) : Prop :=
  Meets length op b x a (· = c)

lemma Does.of_control {α : Type} {op : Building α} {x : α} (h : Does length op b x a b.control)
    (hcontrol : b.control = c) :
    Does length op b x a c := hcontrol ▸ h

lemma Shows.does_pure {α : Type} (h : Shows length b a) (x : α) :
    Does length (pure x) b x a b.control :=
  .inl ⟨b, rfl, h, rfl⟩

section

variable {length : ℕ} {b : Builder} {a : Layout}

variable {buf bytes : List UInt8} {pos : ℕ}

lemma drop_setBytes (h : pos + bytes.length ≤ buf.length) :
    (setBytes buf pos bytes).drop pos = bytes ++ buf.drop (pos + bytes.length) := by
  have hlength : (buf.take pos).length = pos := by
    rw [length_take]
    omega
  rw [setBytes, append_assoc]
  exact drop_left' hlength

lemma length_setBytes (h : pos + bytes.length ≤ buf.length) :
    (setBytes buf pos bytes).length = buf.length := by
  simp only [setBytes, length_append, length_take, length_drop]
  omega

variable {x y : List UInt8}

lemma setBytes_setBytes (h : pos + y.length + x.length ≤ buf.length) :
    setBytes (setBytes buf (pos + y.length) x) pos y = setBytes buf pos (y ++ x) := by
  have htake : (setBytes buf (pos + y.length) x).take pos = buf.take pos := by
    rw [setBytes, append_assoc, take_append_of_le_length, take_take, Nat.min_eq_left (by omega)]
    rw [length_take]
    omega
  rw [setBytes, htake, drop_setBytes h, setBytes, length_append]
  simp only [append_assoc, Nat.add_assoc]

def Builder.wrote (b : Builder) (bytes : List UInt8) : Builder :=
  { b with
    buf := setBytes b.buf (b.space - bytes.length) bytes
    space := b.space - bytes.length }

lemma writeBytes_eq (bytes : List UInt8) (b : Builder) : writeBytes bytes b =
    if b.space < bytes.length then .error .outOfRange else .ok ((), b.wrote bytes) := by
  have hrun : writeBytes bytes b =
      (if b.space < bytes.length then (throw .outOfRange : Building Unit)
      else set (b.wrote bytes)) b := rfl
  rw [hrun]
  split_ifs <;> rfl

lemma writeBytes_of_le (h : bytes.length ≤ b.space) :
    writeBytes bytes b = .ok ((), b.wrote bytes) := by
  rw [writeBytes_eq, if_neg (by omega)]

lemma Shows.wrote (h : Shows length b a) (hroom : bytes.length ≤ b.space) :
    Shows length (b.wrote bytes) (a.put bytes) := by
  have hspace := h.space
  have hpos : b.space - bytes.length + bytes.length ≤ b.buf.length := by omega
  refine ⟨?_, ?_, ?_, h.minalign, h.vtables⟩
  · rw [put_requests, h.served, Builder.wrote, length_setBytes hpos]
  · rw [used_put, Builder.wrote, length_setBytes hpos]
    simp only
    omega
  · rw [put_written, Builder.wrote, drop_setBytes hpos, ← h.written,
      show b.space - bytes.length + bytes.length = b.space by omega]

lemma Shows.does_writeBytes (h : Shows length b a) (hroom : bytes.length ≤ b.space) :
    Does length (writeBytes bytes) b () (a.put bytes) b.control :=
  .inl ⟨_, writeBytes_of_le hroom, h.wrote hroom, rfl⟩

lemma writeBytes_append (h : b.space ≤ b.buf.length) :
    (writeBytes x >>= fun _ => writeBytes y) b = writeBytes (y ++ x) b := by
  have hrun : (writeBytes x >>= fun _ => writeBytes y) b =
      (writeBytes x b).bind fun result => writeBytes y result.2 := rfl
  rw [hrun]
  rw [writeBytes_eq x, writeBytes_eq (y ++ x), length_append]
  by_cases hx : b.space < x.length
  · rw [if_pos hx, if_pos (by omega)]
    rfl
  · rw [if_neg hx]
    change writeBytes y (b.wrote x) = _
    rw [writeBytes_eq, show (b.wrote x).space = b.space - x.length from rfl]
    by_cases hy : b.space - x.length < y.length
    · rw [if_pos hy, if_pos (by omega)]
    · rw [if_neg hy, if_neg (by omega)]
      have hbytes := setBytes_setBytes
        (show b.space - x.length - y.length + y.length + x.length ≤ b.buf.length by omega)
      rw [show b.space - x.length - y.length + y.length = b.space - x.length by omega,
        Nat.sub_sub, Nat.add_comm, ← length_append] at hbytes
      simp only [Builder.wrote, hbytes, Nat.sub_sub, Nat.add_comm x.length, ← length_append]

/-! ## Making room -/

lemma grow_eq (b : Builder) :
    grow b = (grownLength b.buf.length).map fun newSize =>
      ((), { b with
        buf := List.replicate (newSize - b.buf.length) 0 ++ b.buf
        space := b.space + (newSize - b.buf.length) }) := by
  have hrun : grow b = (liftM (grownLength b.buf.length) >>= fun newSize =>
      (set { b with
        buf := List.replicate (newSize - b.buf.length) 0 ++ b.buf
        space := b.space + (newSize - b.buf.length) } : Building Unit)) b := rfl
  rw [hrun]
  cases grownLength b.buf.length with
  | error e => rfl
  | ok newSize => rfl

lemma le_of_grownLength {oldSize newSize : ℕ} (h : grownLength oldSize = .ok newSize) :
    oldSize ≤ newSize := by
  rw [grownLength] at h
  split_ifs at h with hlarge hwrap
  cases h
  omega

lemma ensure_cases (n bytes : ℕ) (hspace : b.space + a.used = b.buf.length)
    (hwritten : b.buf.drop b.space = a.written) :
    (∃ buf space, growTo n (a.used + bytes) b.buf.length = some buf.length ∧
      ensure n bytes b = .ok ((), { b with buf := buf, space := space }) ∧
      space + a.used = buf.length ∧ buf.drop space = a.written ∧ bytes ≤ space) ∨
    (growTo n (a.used + bytes) b.buf.length = none ∧ ∃ e, ensure n bytes b = .error e) := by
  induction n generalizing b with
  | zero => exact .inr ⟨rfl, _, rfl⟩
  | succ n ih =>
    have hrun : ensure (n + 1) bytes b = (if b.space < bytes then grow >>= fun _ => ensure n bytes
        else (pure () : Building Unit)) b := rfl
    rw [hrun, growTo]
    by_cases hroom : b.space < bytes
    · have hgrow : (grow >>= fun _ => ensure n bytes) b =
          (grow b).bind fun result => ensure n bytes result.2 := rfl
      rw [if_pos hroom, if_pos (by omega), hgrow, grow_eq]
      cases hlength : grownLength b.buf.length with
      | error e => exact .inr ⟨rfl, e, rfl⟩
      | ok newSize =>
        have hle := le_of_grownLength hlength
        have hnext := @ih { b with
          buf := List.replicate (newSize - b.buf.length) 0 ++ b.buf
          space := b.space + (newSize - b.buf.length) }
        have hnewSize : (List.replicate (newSize - b.buf.length) (0 : UInt8) ++ b.buf).length =
            newSize := by
          rw [length_append, length_replicate]
          omega
        simp only [hnewSize] at hnext
        refine hnext (by omega) ?_
        have hdrop : (List.replicate (newSize - b.buf.length) (0 : UInt8) ++ b.buf).drop
            ((List.replicate (newSize - b.buf.length) (0 : UInt8)).length + b.space) =
            b.buf.drop b.space := drop_length_add_append _
        rwa [length_replicate, Nat.add_comm, hwritten] at hdrop
    · rw [if_neg hroom, if_neg (by omega)]
      exact .inl ⟨b.buf, b.space, rfl, rfl, hspace, hwritten, by omega⟩

variable {after before n bytes numElems : ℕ}

lemma le_of_growTo (h : growTo n bytes before = some after) : before ≤ after ∧ bytes ≤ after := by
  induction n generalizing before with
  | zero => cases h
  | succ n ih =>
    rw [growTo] at h
    split_ifs at h with hlt
    · cases hgrown : grownLength before with
      | error e =>
        rw [hgrown] at h
        cases h
      | ok newSize =>
        rw [hgrown] at h
        obtain ⟨hbefore, hbytes⟩ := ih h
        exact ⟨by omega, hbytes⟩
    · cases h
      exact ⟨le_rfl, by omega⟩

lemma Request.le_of_serve {request : Request} (h : request.serve before = some after) :
    before ≤ after := by
  cases request with
  | reserve bytes => exact (le_of_growTo h).1
  | vtable inlineSize len bytes =>
    rw [Request.serve] at h
    split_ifs at h
    cases h
    exact le_rfl

lemma le_of_mem_requests {requests : List Request} (h : serve before requests = some after)
    (hmem : .reserve bytes ∈ requests) :
    bytes ≤ after := by
  induction requests using List.reverseRecOn generalizing after with
  | nil => cases hmem
  | append_singleton requests request ih =>
    rw [serve_concat] at h
    obtain ⟨between, hbetween, hrequest⟩ := Option.bind_eq_some_iff.mp h
    rcases mem_append.mp hmem with hmem | hmem
    · exact (ih hbetween hmem).trans (Request.le_of_serve hrequest)
    · rw [← mem_singleton.mp hmem] at hrequest
      exact (le_of_growTo hrequest).2

lemma Shows.room (h : Shows length b a) (hmem : .reserve bytes ∈ a.requests) :
    bytes ≤ b.space + a.used := by
  rw [h.space]
  exact le_of_mem_requests h.served hmem

lemma Shows.does_prep (h : Shows length b a) (size additionalBytes : ℕ) :
    Does length (prep size additionalBytes) b () (a.prep size additionalBytes) b.control := by
  let align := alignSize size (a.used + additionalBytes)
  let aligned := { b with minalign := max b.minalign size }
  let asked := { a with minalign := max a.minalign size }.ask
    (.reserve (a.used + (align + size + additionalBytes)))
  have hrun : prep size additionalBytes b =
      (ensure 32 (align + size + additionalBytes) >>= fun _ => pad align) aligned := by
    simp only [align, ← h.offset]
    rfl
  have hserve : serve length asked.requests =
      growTo 32 (a.used + (align + size + additionalBytes)) b.buf.length := by
    rw [ask_requests, serve_concat, h.served]
    rfl
  have hensure : Does length (ensure 32 (align + size + additionalBytes)) aligned () asked
      b.control := by
    rcases ensure_cases (b := aligned) 32 (align + size + additionalBytes) h.space h.written with
      ⟨buf, space, hgrow, hok, hspace, hwritten, -⟩ | ⟨hgrow, e, herror⟩
    · exact .inl ⟨_, hok, ⟨hserve.trans hgrow, hspace, hwritten,
        congrArg (max · size) h.minalign, h.vtables⟩, rfl⟩
    · exact .inr ⟨hserve.trans hgrow, e, herror⟩
  refine Meets.of_run hrun ?_
  refine hensure.bind (grows_put _ _) fun b' hshows hcontrol => ?_
  have hroom := hshows.room (mem_append_right _ (mem_singleton_self _))
  rw [← hcontrol]
  refine hshows.does_writeBytes ?_
  rw [length_replicate]
  change _ ≤ b'.space + a.used at hroom
  omega

lemma Shows.room_prep {size additionalBytes : ℕ}
    (h : Shows length b (a.prep size additionalBytes)) : size + additionalBytes ≤ b.space := by
  have hroom := h.room (mem_append_right _ (mem_singleton_self _))
  rw [a.used_prep] at hroom
  omega

section

variable (h : Shows length b a)

include h

lemma Shows.does_addInt (size : ℕ) (value : ℤ) :
    Does length (addInt size value) b () (a.addInt size value) b.control := by
  refine (h.does_prep size 0).bind (grows_put _ _) fun b' hshows hcontrol => ?_
  have hroom : (intBytes size value).length ≤ b'.space := by simpa using hshows.room_prep
  exact (hshows.does_writeBytes hroom).of_control hcontrol

lemma Shows.does_addOffset (offset : ℕ) :
    Does length (addOffset offset) b () (a.addOffset offset) b.control := by
  refine (h.does_prep 4 0).bind (grows_put _ _) fun b' hshows hcontrol => ?_
  have hrun : (do writeInt 4 ((← get).offset - offset + 4) : Building Unit) b' =
      writeBytes (intBytes 4 (b'.offset - offset + 4)) b' := rfl
  rw [hshows.offset] at hrun
  refine Meets.of_run hrun ?_
  exact (hshows.does_writeBytes (by simpa using hshows.room_prep)).of_control hcontrol

/-! ## Vectors -/

lemma Shows.does_startVector (hnested : b.isNested = false) (elemSize numElems alignment : ℕ) :
    Does length (startVector elemSize numElems alignment) b ()
      (a.startVector elemSize numElems alignment)
      { b.control with isNested := true, vectorNumElems := numElems } := by
  let started := { b with isNested := true, vectorNumElems := numElems }
  have hrun : startVector elemSize numElems alignment b =
      (prep 4 (elemSize * numElems) >>= fun _ => prep alignment (elemSize * numElems)) started := by
    have hif : startVector elemSize numElems alignment b =
        (if b.isNested then (throw .nested : Building Unit) else do
          set started
          prep 4 (elemSize * numElems)
          prep alignment (elemSize * numElems)) b := rfl
    rw [hif, if_neg (by simp [hnested])]
    rfl
  have hstarted : Shows length started a :=
    ⟨h.served, h.space, h.written, h.minalign, h.vtables⟩
  refine Meets.of_run hrun ?_
  refine (hstarted.does_prep _ _).bind (grows_prep _ _ _) fun b' hshows hcontrol => ?_
  exact (hshows.does_prep _ _).of_control hcontrol

end

lemma Shows.room_startVector {elemSize alignment used : ℕ} {a' : Layout}
    (halign : alignment = 1 ∨ alignment = 4) (h : Shows length b a')
    (hgrows : (a.startVector elemSize numElems alignment).Grows a')
    (hused : a'.used = (a.startVector elemSize numElems alignment).used + used)
    (hle : used ≤ elemSize * numElems) : 4 + (elemSize * numElems - used) ≤ b.space := by
  have hmem : .reserve (a.used + (alignSize 4 (a.used + elemSize * numElems) + 4 +
      elemSize * numElems)) ∈ a'.requests :=
    hgrows.requests.subset (mem_append_left _ (mem_append_right _ (by simp)))
  have hroom := h.room hmem
  rw [hused, a.used_startVector halign] at hroom
  omega

section

variable (h : Shows length b a)

include h

lemma Shows.does_endVector
    (hcontrol : b.control = { c with isNested := true, vectorNumElems := numElems })
    (hroom : 4 ≤ b.space) :
    Does length endVector b (a.put (intBytes 4 numElems)).used (a.put (intBytes 4 numElems))
      { c with isNested := false, vectorNumElems := numElems } := by
  let ended := { b with isNested := false }
  have hnested : b.isNested := congrArg Control.isNested hcontrol
  have hnumElems : b.vectorNumElems = numElems := congrArg Control.vectorNumElems hcontrol
  have hrun : endVector b = (writeBytes (intBytes 4 b.vectorNumElems) >>= fun _ =>
        (get >>= fun b => pure b.offset : Building ℕ)) ended := by
    have hif : endVector b = (if b.isNested then do
          set ended
          writeInt 4 b.vectorNumElems
          return (← get).offset
        else (throw .notNested : Building ℕ)) b := rfl
    rw [hif, if_pos hnested]
    rfl
  have hended : Shows length ended a := ⟨h.served, h.space, h.written, h.minalign, h.vtables⟩
  have hcontrol' : ended.control = { c with isNested := false, vectorNumElems := numElems } :=
    congrArg (fun c : Control => { c with isNested := false }) hcontrol
  rw [hnumElems] at hrun
  refine Meets.of_run hrun ?_
  refine (hended.does_writeBytes (by simpa using hroom)).bind (.refl _) fun b' hshows hended' => ?_
  rw [← hshows.offset]
  exact (hshows.does_pure _).of_control (hended'.trans hcontrol')

lemma Shows.does_createByteVector (hnested : b.isNested = false) (bytes : List UInt8) :
    Does length (createByteVector bytes) b (a.createByteVector bytes).used
      (a.createByteVector bytes)
      { b.control with isNested := false, vectorNumElems := bytes.length } := by
  refine (h.does_startVector hnested 1 bytes.length 1).bind
    ((grows_put _ _).trans (grows_put _ _)) fun b' hshows hcontrol => ?_
  have hroom := hshows.room_startVector (.inl rfl) (.refl _) rfl (Nat.zero_le _)
  refine (hshows.does_writeBytes (by omega)).bind (grows_put _ _) fun b'' hshows' hcontrol' => ?_
  have hroom' := hshows'.room_startVector (.inl rfl) (grows_put _ _)
    ((used_put _ _).trans (Nat.add_comm _ _)) (by omega)
  exact hshows'.does_endVector (hcontrol'.trans hcontrol) (by omega)

lemma Shows.does_createString (hnested : b.isNested = false) (value : String) :
    Does length (createString value) b (a.createString value).used (a.createString value)
      { b.control with isNested := false, vectorNumElems := (utf8 value).length } := by
  refine (h.does_addInt 1 0).bind (grows_createByteVector _ _) fun b' hshows hcontrol => ?_
  rw [← hcontrol]
  exact hshows.does_createByteVector ((congrArg Control.isNested hcontrol).trans hnested) _

lemma Shows.does_addOffsets (offsets : List ℕ) :
    Does length (addOffsets offsets) b () (a.addOffsets offsets) b.control := by
  induction offsets with
  | nil => exact h.does_pure _
  | cons offset offsets ih =>
    refine ih.bind (grows_addOffset _ _) fun b' hshows hcontrol => ?_
    exact (hshows.does_addOffset offset).of_control hcontrol

lemma Shows.does_createOffsetVector (hnested : b.isNested = false) (offsets : List ℕ) :
    Does length (createOffsetVector offsets) b (a.createOffsetVector offsets).used
      (a.createOffsetVector offsets)
      { b.control with isNested := false, vectorNumElems := offsets.length } := by
  refine (h.does_startVector hnested 4 offsets.length 4).bind
    ((grows_addOffsets _ _).trans (grows_put _ _)) fun b' hshows hcontrol => ?_
  refine (hshows.does_addOffsets offsets).bind (grows_put _ _) fun b'' hshows' hcontrol' => ?_
  have hroom' := hshows'.room_startVector (.inr rfl) (grows_addOffsets _ _)
    (used_addOffsets _ _ (a.used_startVector_mod _)) le_rfl
  exact hshows'.does_endVector (hcontrol'.trans hcontrol) (by omega)

variable {vtable : List ℕ} {vt1 candidate : ℕ}

lemma Shows.does_slot (hvtable : b.vtable = some vtable) (id : ℕ) :
    Does length (slot id) b () a { b.control with vtable := some (a.slot vtable id).2 } := by
  have hrun : slot id b = b.vtable.elim (throw .notNested : Building Unit)
      (fun vtable => set { b with vtable := vtable.set id b.offset }) b := rfl
  refine .inl ⟨{ b with vtable := some (vtable.set id a.used) }, ?_,
    ⟨h.served, h.space, h.written, h.minalign, h.vtables⟩, rfl⟩
  rw [hrun, hvtable, h.offset]
  rfl

end

lemma Does.slot {op : Building Unit} (h : Does length op b () a b.control)
    (hvtable : b.vtable = some vtable) (id : ℕ) : Does length (op >>= fun _ => slot id) b () a
      { b.control with vtable := some (a.slot vtable id).2 } := by
  refine h.bind (.refl _) fun b' hshows hcontrol => ?_
  rw [← hcontrol]
  exact hshows.does_slot ((congrArg Control.vtable hcontrol).trans hvtable) id

section

variable (h : Shows length b a)

include h

variable (hvtable : b.vtable = some vtable)

include hvtable

lemma Shows.does_addFieldInt (size id : ℕ) (value defaultValue : ℤ) :
    Does length (addFieldInt size id value defaultValue) b ()
      (a.addFieldInt b.forceDefaults vtable size id value defaultValue).1
      { b.control with
        vtable := some (a.addFieldInt b.forceDefaults vtable size id value defaultValue).2 } := by
  have hrun : addFieldInt size id value defaultValue b =
      (if b.forceDefaults ∨ value ≠ defaultValue then
        addInt size value >>= fun _ => slot id
      else (pure () : Building Unit)) b := rfl
  refine Meets.of_run hrun ?_
  rw [Layout.addFieldInt]
  split_ifs with hwritten
  · exact (h.does_addInt size value).slot hvtable id
  · exact (h.does_pure _).of_control (by rw [← hvtable]; rfl)

lemma Shows.does_addFieldOffset (id offset : ℕ) :
    Does length (addFieldOffset id offset) b () (a.addFieldOffset vtable id offset).1
      { b.control with vtable := some (a.addFieldOffset vtable id offset).2 } := by
  rw [addFieldOffset, Layout.addFieldOffset]
  split_ifs with hwritten
  · exact (h.does_addOffset offset).slot hvtable id
  · exact (h.does_pure _).of_control (by rw [← hvtable]; rfl)

lemma Shows.does_addSlot (id : ℕ) (value : Slot) :
    Does length (addSlot id value) b () (a.addSlot b.forceDefaults vtable id value).1
      { b.control with vtable := some (a.addSlot b.forceDefaults vtable id value).2 } := by
  cases value with
  | bool value defaultValue | int type value defaultValue =>
    exact h.does_addFieldInt hvtable _ _ _ _
  | offset offset => exact h.does_addFieldOffset hvtable _ _

lemma Shows.does_addSlots (slots : List (ℕ × Slot)) :
    Does length (addSlots slots) b () (a.addSlots b.forceDefaults vtable slots).1
      { b.control with vtable := some (a.addSlots b.forceDefaults vtable slots).2 } := by
  induction slots generalizing b a vtable with
  | nil => exact (h.does_pure _).of_control (by rw [Layout.addSlots, ← hvtable]; rfl)
  | cons entry slots ih =>
    refine (h.does_addSlot hvtable entry.1 entry.2).bind (grows_addSlots _ _ _ _)
      fun b' hshows hcontrol => ?_
    have hnext := ih hshows (congrArg Control.vtable hcontrol)
    rw [hcontrol, show b'.forceDefaults = b.forceDefaults from
      congrArg Control.forceDefaults hcontrol] at hnext
    exact hnext

end

/-! ## Vtables -/

lemma asIntN_ofLittleEndian_inj (hx : x.length = 2) (hy : y.length = 2) :
    asIntN 16 (ofLittleEndian x) = asIntN 16 (ofLittleEndian y) ↔ x = y := by
  refine ⟨fun h => ?_, fun h => by rw [h]⟩
  have hltx := ofLittleEndian_lt x
  have hlty := ofLittleEndian_lt y
  have hvalue : ofLittleEndian x = ofLittleEndian y := by
    rw [hx] at hltx
    rw [hy] at hlty
    simp only [asIntN, Int.bmod] at h
    omega
  rw [← littleEndian_ofLittleEndian x, ← littleEndian_ofLittleEndian y, hvalue, hx, hy]

lemma int16At_eq (h : pos + 2 ≤ buf.length) :
    int16At buf pos = .ok (asIntN 16 (ofLittleEndian ((buf.drop pos).take 2))) := if_pos h

lemma sameEntries_succ {vt2 j : ℕ} {x y : ℤ} (hx : int16At buf (vt1 + j) = .ok x)
    (hy : int16At buf (vt2 + j) = .ok y) :
    sameEntries buf vt1 vt2 (n + 1) j =
      if x ≠ y then .ok false else sameEntries buf vt1 vt2 n (j + 2) := by
  rw [sameEntries, hx, hy]
  rfl

lemma sameEntries_eq {vt2 j : ℕ} (h1 : vt1 + j + 2 * n ≤ buf.length)
    (h2 : vt2 + j + 2 * n ≤ buf.length) :
    sameEntries buf vt1 vt2 n j =
      .ok (decide ((buf.drop (vt1 + j)).take (2 * n) = (buf.drop (vt2 + j)).take (2 * n))) := by
  induction n generalizing j with
  | zero => simp [sameEntries]
  | succ n ih =>
    have hsplit : ∀ vt, (buf.drop (vt + j)).take (2 * (n + 1)) =
        (buf.drop (vt + j)).take 2 ++ (buf.drop (vt + (j + 2))).take (2 * n) := by
      intro vt
      rw [show 2 * (n + 1) = 2 + 2 * n by ring, take_add, drop_drop, Nat.add_assoc]
    have hlength : ∀ vt, vt + j + 2 * (n + 1) ≤ buf.length →
        ((buf.drop (vt + j)).take 2).length = 2 := by
      intro vt hvt
      rw [length_take, length_drop]
      omega
    have hlength1 := hlength vt1 h1
    have hlength2 := hlength vt2 h2
    rw [sameEntries_succ (int16At_eq (by omega)) (int16At_eq (by omega)), hsplit vt1, hsplit vt2]
    by_cases hfirst : (buf.drop (vt1 + j)).take 2 = (buf.drop (vt2 + j)).take 2
    · rw [hfirst, if_neg (not_not.mpr rfl), ih (by omega) (by omega)]
      simp only [append_cancel_left_eq]
    · rw [if_pos (mt (asIntN_ofLittleEndian_inj hlength1 hlength2).mp hfirst)]
      rw [decide_eq_false]
      exact fun h => hfirst (append_inj h (hlength1.trans hlength2.symm)).1

lemma findVtable_step {len : ℕ} {first : ℤ} {same : Bool} {vtables : List ℕ}
    (hfirst : int16At buf (buf.length - candidate) = .ok first)
    (hsame : (len : ℤ) = first →
      sameEntries buf vt1 (buf.length - candidate) (len / 2 - 1) 2 = .ok same) :
    findVtable buf vt1 len (candidate :: vtables) =
      if (len : ℤ) = first ∧ same then .ok (some candidate)
      else findVtable buf vt1 len vtables := by
  have hrun : findVtable buf vt1 len (candidate :: vtables) = if (len : ℤ) = first then
        (sameEntries buf vt1 (buf.length - candidate) (len / 2 - 1) 2).bind fun same =>
          if same then .ok (some candidate) else findVtable buf vt1 len vtables
      else findVtable buf vt1 len vtables := by
    rw [findVtable, hfirst]
    rfl
  rw [hrun]
  by_cases hlen : (len : ℤ) = first
  · rw [if_pos hlen, hsame hlen]
    cases same with
    | true => rw [if_pos ⟨hlen, rfl⟩]; rfl
    | false => rw [if_neg (by simp)]; rfl
  · rw [if_neg hlen, if_neg (fun h => hlen h.1)]

lemma eq_asIntN_iff {len : ℕ} :
    (len : ℤ) = asIntN 16 (ofLittleEndian (intBytes 2 n)) ↔
      len < 2 ^ 15 ∧ intBytes 2 len = intBytes 2 n := by
  have hbytes : intBytes 2 len = intBytes 2 n ↔ len % 2 ^ 16 = n % 2 ^ 16 := by
    rw [← ofLittleEndian_intBytes_two len, ← ofLittleEndian_intBytes_two n]
    refine ⟨fun h => by rw [h], fun h => ?_⟩
    rw [← littleEndian_ofLittleEndian (intBytes 2 len),
      ← littleEndian_ofLittleEndian (intBytes 2 n),
      h, length_intBytes, length_intBytes]
  rw [hbytes, ofLittleEndian_intBytes_two]
  simp only [asIntN, Int.bmod]
  omega

lemma findVtable_cons {vtable : List UInt8} (hvtable : vtable <+: buf.drop vt1)
    (hlen : 4 ≤ vtable.length) (heven : vtable.length % 2 = 0)
    (hfirst : intBytes 2 vtable.length <+: vtable) (hn : 4 ≤ n) (hcandidate : n ≤ candidate)
    (hused : candidate ≤ buf.length) (hholds : intBytes 2 n <+: buf.rtake candidate)
    (vtables : List ℕ) :
    findVtable buf vt1 vtable.length (candidate :: vtables) =
      if vtable.length < 2 ^ 15 ∧ vtable <+: buf.rtake candidate then .ok (some candidate)
      else findVtable buf vt1 vtable.length vtables := by
  have hfirst' : vtable.take 2 = intBytes 2 vtable.length := by
    simpa using (prefix_iff_eq_take.mp hfirst).symm
  have hholds' : (buf.rtake candidate).take 2 = intBytes 2 n := by
    simpa using (prefix_iff_eq_take.mp hholds).symm
  have hread : int16At buf (buf.length - candidate) =
      .ok (asIntN 16 (ofLittleEndian (intBytes 2 n))) := by
    rw [int16At_eq (by omega), ← hholds', List.rtake]
  have hsplit : vtable <+: buf.rtake candidate ↔ intBytes 2 vtable.length = intBytes 2 n ∧
      vtable.drop 2 = ((buf.rtake candidate).drop 2).take (vtable.length - 2) := by
    have htake : (buf.rtake candidate).take vtable.length = intBytes 2 n ++
        ((buf.rtake candidate).drop 2).take (vtable.length - 2) := by
      rw [show vtable.length = 2 + (vtable.length - 2) by omega, take_add, hholds',
        Nat.add_sub_cancel_left]
    have hvtable' : vtable = intBytes 2 vtable.length ++ vtable.drop 2 := by
      rw [← hfirst', take_append_drop]
    rw [prefix_iff_eq_take, htake]
    constructor
    · intro h
      exact append_inj (hvtable'.symm.trans h) (by simp)
    · rintro ⟨hbytes, hrest⟩
      rw [← hbytes, ← hrest]
      exact hvtable'
  have hsame : vtable.length ≤ candidate → sameEntries buf vt1 (buf.length - candidate)
      (vtable.length / 2 - 1) 2 = .ok (decide
        (vtable.drop 2 = ((buf.rtake candidate).drop 2).take (vtable.length - 2))) := by
    intro hle
    have hlength := hvtable.length_le
    rw [length_drop] at hlength
    have hcount : 2 * (vtable.length / 2 - 1) = vtable.length - 2 := by omega
    have hdrop : (buf.drop (vt1 + 2)).take (vtable.length - 2) = vtable.drop 2 := by
      rw [← drop_drop, ← drop_take, ← prefix_iff_eq_take.mp hvtable]
    rw [sameEntries_eq (by omega) (by omega), hcount, hdrop, ← drop_drop, List.rtake]
  rw [findVtable_step hread (fun heq => hsame ?_)]
  · exact if_congr (by rw [eq_asIntN_iff, hsplit, decide_eq_true_eq, and_assoc]) rfl rfl
  · -- The length that is read is at most the true one, so that the entries are in the buffer.
    rw [ofLittleEndian_intBytes_two] at heq
    simp only [asIntN, Int.bmod] at heq
    omega

lemma findVtable_eq {written vtable : List UInt8} (hwritten : written <:+ buf)
    (hvtable : vtable <+: buf.drop vt1) (hlen : 4 ≤ vtable.length) (heven : vtable.length % 2 = 0)
    (hfirst : intBytes 2 vtable.length <+: vtable) (vtables : List ℕ)
    (hvtables : ∀ offset ∈ vtables, IsVtable written offset) :
    findVtable buf vt1 vtable.length vtables = .ok (vtables.find? fun candidate =>
        vtable.length < 2 ^ 15 ∧ vtable <+: written.rtake candidate) := by
  obtain ⟨before, rfl⟩ := hwritten
  induction vtables with
  | nil => rfl
  | cons candidate vtables ih =>
    have ih := ih fun offset h => hvtables offset (mem_cons_of_mem _ h)
    obtain ⟨n, hn, hcandidate, hholds⟩ := hvtables candidate mem_cons_self
    have hholds' := hholds.append before
    rw [findVtable_cons hvtable hlen heven hfirst hn hcandidate hholds'.1 hholds'.2, ih,
      rtake_append hholds.1, List.find?_cons]
    by_cases hsame : vtable.length < 2 ^ 15 ∧ vtable <+: written.rtake candidate
    · rw [if_pos hsame, decide_eq_true hsame]
    · rw [if_neg hsame, decide_eq_false hsame]

lemma writeEntries_eq (vtableLoc : ℕ) (entries : List ℕ) (h : b.space ≤ b.buf.length) :
    writeEntries vtableLoc entries b = writeBytes (entries.flatMap fun entry =>
        intBytes 2 (entryValue vtableLoc entry)) b := by
  induction entries with
  | nil =>
    rw [flatMap_nil, writeBytes_of_le (Nat.zero_le _)]
    simp [writeEntries, Builder.wrote, setBytes]
    rfl
  | cons entry entries ih =>
    have hrun : writeEntries vtableLoc (entry :: entries) b =
        (writeEntries vtableLoc entries b).bind fun result =>
          writeBytes (intBytes 2 (entryValue vtableLoc entry)) result.2 := rfl
    rw [hrun, ih, flatMap_cons, ← writeBytes_append h]
    rfl

/-- The part of `endTable` that writes the vtable. -/
def writeVtable (vtableLoc objectStart : ℕ) (entries : List ℕ) : Building Unit := do
  writeEntries vtableLoc entries
  writeInt 2 ((vtableLoc : ℤ) - objectStart)
  writeInt 2 ((entries.length + 2) * 2 : ℕ)

lemma writeVtable_eq (vtableLoc objectStart : ℕ) (entries : List ℕ)
    (h : b.space ≤ b.buf.length) : writeVtable vtableLoc objectStart entries b =
      writeBytes (vtableBytes vtableLoc objectStart entries) b := by
  have hrun : writeVtable vtableLoc objectStart entries b =
      (writeEntries vtableLoc entries b).bind fun result =>
        (writeBytes (intBytes 2 ((vtableLoc : ℤ) - objectStart)) result.2).bind fun result =>
          writeBytes (intBytes 2 ((entries.length + 2) * 2 : ℕ)) result.2 := rfl
  have hbind : ∀ x y : List UInt8, writeBytes (y ++ x) b =
      (writeBytes x b).bind fun result => writeBytes y result.2 :=
    fun x y => (writeBytes_append h).symm
  rw [hrun, writeEntries_eq vtableLoc entries h, vtableBytes, hbind, hbind]
  cases writeBytes (entries.flatMap fun entry =>
    intBytes 2 (entryValue vtableLoc entry)) b with
  | error e => rfl
  | ok result => rfl

lemma setBytes_middle (x y z bytes : List UInt8) (h : bytes.length = y.length) :
    setBytes (x ++ (y ++ z)) x.length bytes = x ++ (bytes ++ z) := by
  rw [setBytes, take_left, append_assoc, h, drop_length_add_append, drop_left]

lemma setInt32_middle {z : List UInt8} (hbuf : b.buf = x ++ (y ++ z)) (hy : y.length = 4)
    (hpos : pos = x.length) (value : ℤ) :
    setInt32 pos value b = .ok ((), { b with buf := x ++ (intBytes 4 value ++ z) }) := by
  have hrun : setInt32 pos value b = (if pos + 4 ≤ b.buf.length then
      set { b with buf := setBytes b.buf pos (intBytes 4 value) }
      else (throw .outOfRange : Building Unit)) b := rfl
  have hroom : pos + 4 ≤ b.buf.length := by
    rw [hbuf, length_append, length_append]
    omega
  rw [hrun, if_pos hroom, hbuf, hpos, setBytes_middle _ _ _ _ (by simpa using hy.symm)]
  rfl

variable {entries : List ℕ}

/-- The reference to the vtable is set, and a vtable that is there already is left out. -/
lemma Shows.does_linkVtable {vtableLoc objectStart : ℕ} (hloc : vtableLoc = a.used + 4)
    (h : Shows length b ((a.put (intBytes 4 0)).put
      (vtableBytes vtableLoc objectStart entries))) (existing : Option ℕ) :
    Does length (linkVtable vtableLoc existing) b ()
      (a.linkVtable vtableLoc objectStart entries existing) b.control := by
  let vtable := vtableBytes vtableLoc objectStart entries
  let x := b.buf.take b.space
  have hspace := h.space
  simp only [used_put, length_intBytes, length_vtableBytes] at hspace
  have hx : x.length = b.space := by
    rw [length_take]
    omega
  have hbuf : b.buf = x ++ (vtable ++ (intBytes 4 0 ++ a.written)) := by
    rw [← take_append_drop b.space b.buf, h.written]
    rfl
  have hpos : b.buf.length - vtableLoc = (x ++ vtable).length := by
    rw [length_append, hx, length_vtableBytes]
    omega
  have hbuf' : b.buf = (x ++ vtable) ++ (intBytes 4 0 ++ a.written) := by
    rw [hbuf, append_assoc]
  have hset : ∀ (b' : Builder) (value : ℤ), b'.buf = b.buf →
      setInt32 (b.buf.length - vtableLoc) value b' =
        .ok ((), { b' with buf := (x ++ vtable) ++ (intBytes 4 value ++ a.written) }) :=
    fun b' value hb' => setInt32_middle (hb'.trans hbuf') (length_intBytes _ _) hpos value
  have hlength : ∀ value, ((x ++ vtable) ++ (intBytes 4 value ++ a.written)).length =
      b.buf.length := by
    intro value
    simp only [hbuf', length_append, length_intBytes]
  cases existing with
  | some existing =>
    have hrun : linkVtable vtableLoc (some existing) b =
        setInt32 (b.buf.length - vtableLoc) ((existing : ℤ) - vtableLoc)
          { b with space := b.buf.length - vtableLoc } := rfl
    refine .inl ⟨_, hrun.trans (hset _ _ rfl), ⟨?_, ?_, ?_, h.minalign, h.vtables⟩, rfl⟩
    · rw [hlength]
      exact h.served
    · rw [hlength, Layout.linkVtable, used_put, length_intBytes]
      simp only
      omega
    · rw [Layout.linkVtable, put_written]
      simp only [hpos]
      exact drop_left
  | none =>
    have hrun : linkVtable vtableLoc none b =
        setInt32 (b.buf.length - vtableLoc) ((b.offset : ℤ) - vtableLoc)
          { b with vtables := b.vtables ++ [b.offset] } := rfl
    have hoffset : (b.offset : ℤ) - vtableLoc = ((entries.length + 2) * 2 : ℕ) := by
      rw [h.offset]
      simp only [used_put, length_intBytes, length_vtableBytes]
      omega
    rw [hoffset] at hrun
    refine .inl ⟨_, hrun.trans (hset _ _ rfl), ⟨?_, ?_, ?_, h.minalign, ?_⟩, rfl⟩
    · rw [hlength]
      exact h.served
    · rw [hlength, Layout.linkVtable, used_noteVtable]
      simp only [used_put, length_intBytes, length_vtableBytes]
      omega
    · rw [Layout.linkVtable, noteVtable_written, append_assoc]
      exact drop_left' hx
    · rw [Layout.linkVtable, noteVtable_vtables, h.offset, h.vtables]
      simp only [used_put, length_intBytes, put_vtables]

/-- The end of `endTable`, after the vtable was written. -/
def closeTable (vtableLoc len : ℕ) : Building ℕ := do
  let b ← get
  let existing ← liftM (findVtable b.buf b.space len b.vtables)
  linkVtable vtableLoc existing
  modify fun b => { b with isNested := false, vtable := none }
  return vtableLoc

/-- `endTable` writes the reference, then the vtable, and then looks for the same one. -/
lemma endTable_eq (hnested : b.isNested) (hvtable : b.vtable = some vtable)
    (hinUse : b.vtableInUse = vtable.length) :
    endTable b = (addInt 4 0 >>= fun _ => get >>= fun b' =>
      writeVtable b'.offset b.objectStart (trimmed vtable) >>= fun _ =>
      closeTable b'.offset (((trimmed vtable).length + 2) * 2)) b := by
  have hrun : endTable b = (if b.isNested = false then (throw .notNested : Building ℕ)
      else b.vtable.elim (throw .notNested) fun vtable => (addInt 4 0 >>= fun _ => get >>= fun b' =>
        writeEntries b'.offset (trimmed (vtable.take b.vtableInUse)) >>= fun _ =>
        writeInt 2 ((b'.offset : ℤ) - b.objectStart) >>= fun _ =>
        writeInt 2 (((trimmed (vtable.take b.vtableInUse)).length + 2) * 2 : ℕ) >>= fun _ =>
        closeTable b'.offset (((trimmed (vtable.take b.vtableInUse)).length + 2) * 2))) b := rfl
  rw [hrun, if_neg (by simp [hnested]), hvtable, hinUse, Option.elim_some, take_length]
  simp only [writeVtable, bind_assoc]

lemma Shows.does_closeTable {vtableLoc objectStart : ℕ} (hloc : vtableLoc = a.used + 4)
    (h : Shows length b ((a.put (intBytes 4 0)).put (vtableBytes vtableLoc objectStart entries))) :
    Does length (closeTable vtableLoc ((entries.length + 2) * 2)) b vtableLoc
      (a.linkVtable vtableLoc objectStart entries
        (a.existingVtable (vtableBytes vtableLoc objectStart entries)))
      { b.control with isNested := false, vtable := none } := by
  let vtable := vtableBytes vtableLoc objectStart entries
  have hlen : vtable.length = (entries.length + 2) * 2 := length_vtableBytes _ _ _
  have hwritten : a.written <:+ b.buf := by
    have hdrop := drop_suffix b.space b.buf
    rw [h.written] at hdrop
    exact ((suffix_append _ _).trans (suffix_append _ _)).trans hdrop
  have hvtable : vtable <+: b.buf.drop b.space := by
    rw [h.written]
    exact prefix_append _ _
  have hfirst : intBytes 2 vtable.length <+: vtable := by
    rw [hlen]
    exact prefix_append _ _
  have hfind : findVtable b.buf b.space ((entries.length + 2) * 2) b.vtables =
      .ok (a.existingVtable vtable) := by
    rw [h.vtables, ← hlen]
    exact findVtable_eq hwritten hvtable (by omega) (by omega) hfirst _ a.isVtable
  have hrun : closeTable vtableLoc ((entries.length + 2) * 2) b =
      (linkVtable vtableLoc (a.existingVtable vtable) >>= fun _ =>
        (modify fun b => { b with isNested := false, vtable := none }) >>= fun _ =>
          (pure vtableLoc : Building ℕ)) b := by
    have hlift : closeTable vtableLoc ((entries.length + 2) * 2) b =
        (liftM (findVtable b.buf b.space ((entries.length + 2) * 2) b.vtables) >>= fun existing =>
          linkVtable vtableLoc existing >>= fun _ =>
          (modify fun b => { b with isNested := false, vtable := none }) >>= fun _ =>
            (pure vtableLoc : Building ℕ)) b := rfl
    rw [hlift, hfind]
    rfl
  refine Meets.of_run hrun ?_
  refine (h.does_linkVtable hloc _).bind (.refl _) fun b' hshows hcontrol => ?_
  refine .inl ⟨{ b' with isNested := false, vtable := none }, rfl,
    ⟨hshows.served, hshows.space, hshows.written, hshows.minalign, hshows.vtables⟩, ?_⟩
  exact congrArg (fun c : Control => { c with isNested := false, vtable := none }) hcontrol

lemma Shows.does_endTable (h : Shows length b a) (hnested : b.isNested)
    (hvtable : b.vtable = some vtable) (hinUse : b.vtableInUse = vtable.length) :
    Does length endTable b (a.endTable b.objectStart vtable).1 (a.endTable b.objectStart vtable).2
      { b.control with isNested := false, vtable := none } := by
  let entries := trimmed vtable
  let vtableLoc := (a.prep 4 0).used + 4
  let asked := (a.prep 4 0).ask (vtableRequest vtableLoc b.objectStart entries)
  let bytes := vtableBytes vtableLoc b.objectStart entries
  have hlen : bytes.length = (entries.length + 2) * 2 := length_vtableBytes _ _ _
  have hgrows := asked.grows_linkVtable vtableLoc b.objectStart entries (asked.existingVtable bytes)
  refine Meets.of_run (endTable_eq hnested hvtable hinUse) ?_
  refine (h.does_addInt 4 0).bind_requests
    ((prefix_append _ _).trans hgrows.requests) fun b' hshows hcontrol => ?_
  have hspace := hshows.space
  have hused : (a.addInt 4 0).used = vtableLoc := by
    rw [Layout.addInt, used_put, length_intBytes, Nat.add_comm]
  have hserve : serve length asked.requests =
      if vtableLoc + bytes.length ≤ b'.buf.length then some b'.buf.length else none := by
    rw [ask_requests, serve_concat, show serve length (a.prep 4 0).requests = _ from
      hshows.served, hlen]
    rfl
  have hrun : (get >>= fun b' : Builder => writeVtable b'.offset b.objectStart entries >>= fun _ =>
      closeTable b'.offset ((entries.length + 2) * 2)) b' =
      (writeVtable b'.offset b.objectStart entries b').bind fun result =>
        closeTable b'.offset ((entries.length + 2) * 2) result.2 := rfl
  rw [writeVtable_eq _ _ _ (by omega), hshows.offset, hused] at hrun
  rw [Meets, hrun]
  by_cases hroom : bytes.length ≤ b'.space
  · have hasked : Shows length b' (asked.put (intBytes 4 0)) :=
      ⟨by rw [put_requests, hserve, if_pos (by omega)], hspace, hshows.written,
        hshows.minalign, hshows.vtables⟩
    have hclose := (hasked.wrote hroom).does_closeTable rfl
    rw [writeBytes_of_le hroom]
    rw [show (b'.wrote bytes).control = b.control from hcontrol] at hclose
    exact hclose
  · refine .inr ⟨serve_eq_none_of_fewer hgrows.requests ?_, .outOfRange, ?_⟩
    · rw [hserve, if_neg (by omega)]
    · rw [writeBytes_eq, if_pos (Nat.lt_of_not_le hroom)]
      rfl

/-! ## Trees -/

/-- What a builder is in the middle of between two objects. -/
structure Control.IsIdle (force : Bool) (c : Control) : Prop where
  isNested : c.isNested = false
  finished : c.finished = false
  forceDefaults : c.forceDefaults = force

lemma Shows.meets_createTable {force : Bool} (h : Shows length b a)
    (hidle : b.control.IsIdle force) (numFields : ℕ) (slots : List (ℕ × Slot)) :
    Meets length (startTable numFields >>= fun _ => addSlots slots >>= fun _ => endTable) b
      (a.createTable force numFields slots).1 (a.createTable force numFields slots).2
      (Control.IsIdle force) := by
  let vtable : List ℕ := List.replicate numFields 0
  let started := { b with
    vtable := some vtable
    vtableInUse := numFields
    isNested := true
    objectStart := b.offset }
  have hforce : b.forceDefaults = force := hidle.forceDefaults
  have hstarted : Shows length started a :=
    ⟨h.served, h.space, h.written, h.minalign, h.vtables⟩
  have hrun : (startTable numFields >>= fun _ => addSlots slots >>= fun _ => endTable) b =
      (addSlots slots >>= fun _ => endTable) started := by
    have hif : (startTable numFields >>= fun _ => addSlots slots >>= fun _ => endTable) b =
        ((if b.isNested then (throw .nested : Building Unit) else set started) >>= fun _ =>
          addSlots slots >>= fun _ => endTable) b := rfl
    rw [hif, if_neg (by simp [show b.isNested = false from hidle.isNested])]
    rfl
  have hslots := hstarted.does_addSlots rfl slots
  rw [show started.forceDefaults = force from hforce] at hslots
  refine Meets.of_run hrun (hslots.bind (grows_endTable _ _ _) fun b' hshows hcontrol => ?_)
  have hobjectStart : b'.objectStart = a.used :=
    (congrArg Control.objectStart hcontrol).trans h.offset
  have hend := hshows.does_endTable (congrArg Control.isNested hcontrol)
    (congrArg Control.vtable hcontrol) (by
      rw [length_addSlots, show b'.vtableInUse = numFields from
        congrArg Control.vtableInUse hcontrol, length_replicate])
  rw [hobjectStart] at hend
  refine hend.weaken ?_
  rintro _ rfl
  exact ⟨rfl, (congrArg Control.finished hcontrol).trans hidle.finished,
    (congrArg Control.forceDefaults hcontrol).trans hforce⟩

mutual

variable {force : Bool}

lemma Shows.meets_putTable (table : Table) {b : Builder} {a : Layout} (h : Shows length b a)
    (hidle : b.control.IsIdle force) :
    Meets length (putTable table) b (a.putTable force table).1 (a.putTable force table).2
      (Control.IsIdle force) := by
  cases table with
  | mk numFields fields =>
    exact (h.meets_putFields fields hidle).bind (grows_createTable _ _ _ _)
      fun b' hshows hidle' => hshows.meets_createTable hidle' numFields _

lemma Shows.meets_putFields (fields : List (ℕ × Field)) {b : Builder} {a : Layout}
    (h : Shows length b a) (hidle : b.control.IsIdle force) :
    Meets length (putFields fields) b (a.putFields force fields).1 (a.putFields force fields).2
      (Control.IsIdle force) := by
  cases fields with
  | nil => exact Meets.pure _ h hidle
  | cons entry fields =>
    refine (h.meets_putField entry.2 hidle).bind (grows_putFields _ _ _) fun b' hshows hidle' => ?_
    exact (hshows.meets_putFields fields hidle').map

lemma Shows.meets_putField (field : Field) {b : Builder} {a : Layout} (h : Shows length b a)
    (hidle : b.control.IsIdle force) :
    Meets length (putField field) b (a.putField force field).1 (a.putField force field).2
      (Control.IsIdle force) := by
  have hvector : ∀ {c : Control} (n : ℕ), c.IsIdle force → ∀ c',
      c' = { c with isNested := false, vectorNumElems := n } → c'.IsIdle force := by
    rintro c n hc _ rfl
    exact ⟨rfl, hc.finished, hc.forceDefaults⟩
  cases field with
  | bool value defaultValue | int type value defaultValue => exact Meets.pure _ h hidle
  | string value =>
    exact ((h.does_createString hidle.isNested value).weaken (hvector _ hidle)).map
  | bytes value =>
    exact ((h.does_createByteVector hidle.isNested value).weaken (hvector _ hidle)).map
  | table value => exact (h.meets_putTable value hidle).map
  | tables values =>
    refine (h.meets_putTables values hidle).bind (grows_createOffsetVector _ _)
      fun b' hshows hidle' => ?_
    exact ((hshows.does_createOffsetVector hidle'.isNested _).weaken (hvector _ hidle')).map

lemma Shows.meets_putTables (tables : List Table) {b : Builder} {a : Layout}
    (h : Shows length b a) (hidle : b.control.IsIdle force) :
    Meets length (putTables tables) b (a.putTables force tables).1 (a.putTables force tables).2
      (Control.IsIdle force) := by
  cases tables with
  | nil => exact Meets.pure _ h hidle
  | cons table tables =>
    refine (h.meets_putTable table hidle).bind (grows_putTables _ _ _) fun b' hshows hidle' => ?_
    exact (hshows.meets_putTables tables hidle').map

end

lemma Shows.does_finish (h : Shows length b a) (rootTable : ℕ) :
    Does length (finish rootTable) b () (a.finish rootTable)
      { b.control with finished := true } := by
  have hrun : finish rootTable b = (prep b.minalign 4 >>= fun _ => addOffset rootTable >>= fun _ =>
      (modify fun b => { b with finished := true } : Building Unit)) b := rfl
  rw [h.minalign] at hrun
  refine Meets.of_run hrun ((h.does_prep _ _).bind (grows_addOffset _ _)
    fun b' hshows hcontrol => ?_)
  refine (hshows.does_addOffset rootTable).bind (.refl _) fun b'' hshows' hcontrol' => ?_
  refine .inl ⟨{ b'' with finished := true }, rfl,
    ⟨hshows'.served, hshows'.space, hshows'.written, hshows'.minalign, hshows'.vtables⟩, ?_⟩
  exact congrArg (fun c : Control => { c with finished := true }) (hcontrol'.trans hcontrol)

end

/-- Building gives the layout of the tree if the buffer can serve it, and fails otherwise. -/
lemma build_cases (initialSize : ℕ) (force : Bool) (table : Table) :
    ((serve (max 1 initialSize) (layout force table).requests).isSome ∧
      build initialSize force table = .ok (layout force table).written) ∨
    (serve (max 1 initialSize) (layout force table).requests = none ∧
      ∃ e, build initialSize force table = .error e) := by
  let b := Builder.new initialSize force
  have hnew : Shows (max 1 initialSize) b empty := by
    refine ⟨?_, ?_, ?_, rfl, rfl⟩
    · rw [show b.buf.length = max 1 initialSize from length_replicate]
      rfl
    · rw [show b.buf.length = max 1 initialSize from length_replicate]
      rfl
    · exact drop_eq_nil_of_le length_replicate.le
  have hbuild : Meets (max 1 initialSize) (putTable table >>= fun root => finish root) b ()
      (layout force table) fun c => c.finished := by
    have hidle : b.control.IsIdle force := ⟨rfl, rfl, rfl⟩
    refine (hnew.meets_putTable table hidle).bind (grows_finish _ _) fun b' hshows hidle => ?_
    refine (hshows.does_finish _).weaken ?_
    rintro _ rfl
    rfl
  have hrun : build initialSize force table =
      ((putTable table >>= fun root => finish root) b).bind fun result => result.2.bytes := rfl
  rw [hrun]
  rcases hbuild with ⟨b', hok, hshows, hfinished⟩ | ⟨hserve, e, herror⟩
  · refine .inl ⟨by rw [hshows.served]; rfl, ?_⟩
    rw [hok]
    change b'.bytes = _
    rw [Builder.bytes, if_pos (show b'.finished from hfinished), hshows.written]
  · refine .inr ⟨hserve, e, ?_⟩
    rw [herror]
    rfl

end Fino.FlatBuffers
