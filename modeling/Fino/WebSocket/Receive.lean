import Fino.WebSocket.ReadPump

/-!
# What is received is what was sent

A peer sends messages cut into frames, with control frames anywhere and bytes in any chunks, and the
pump delivers them in order. But the size of a message is checked frame by frame, so a message in
several frames may exceed the maximum, and a text loses a byte order mark at its beginning.
`delivered_iff` has the exact condition.
-/

namespace Fino.WebSocket

open Lib.Wire List

/-- The bytes are read as a value, however they arrive and whatever follows them. -/
def Reads {α : Type} (op : Reading α) (bytes : List UInt8) (x : α) : Prop :=
  ∀ s rest, s.bytes = bytes ++ rest → ∃ s', op s = .ok (x, s') ∧ s'.bytes = rest

/-- At these bytes the operation stops, whatever follows. -/
def Stops {α : Type} (op : Reading α) (bytes : List UInt8) (stop : Stop) : Prop :=
  ∀ s rest, s.bytes = bytes ++ rest → op s = .error stop

namespace Reads

variable {α β : Type} {op : Reading α} {f : α → Reading β} {x : α} {y : β}
  {bytes bytes' : List UInt8}

lemma pure (x : α) : Reads (Pure.pure x) [] x := fun s _ h => ⟨s, rfl, h⟩

lemma bind (h : Reads op bytes x) (h' : Reads (f x) bytes' y) :
    Reads (op >>= f) (bytes ++ bytes') y := by
  intro s rest hs
  rw [append_assoc] at hs
  obtain ⟨s', hop, hs'⟩ := h s _ hs
  obtain ⟨s'', hf, hs''⟩ := h' s' rest hs'
  refine ⟨s'', ?_, hs''⟩
  have hrun : (op >>= f) s = (op s).bind fun result => f result.1 result.2 := rfl
  rw [hrun, hop]
  exact hf

lemma bind_stops {stop : Stop} (h : Reads op bytes x) (h' : Stops (f x) bytes' stop) :
    Stops (op >>= f) (bytes ++ bytes') stop := by
  intro s rest hs
  rw [append_assoc] at hs
  obtain ⟨s', hop, hs'⟩ := h s _ hs
  have hrun : (op >>= f) s = (op s).bind fun result => f result.1 result.2 := rfl
  rw [hrun, hop]
  exact h' s' rest hs'

end Reads

lemma reads_take {n : ℕ} {bytes : List UInt8} (h : bytes.length = n) :
    Reads (take n) bytes bytes := by
  intro s rest hs
  have hbytes : s.chunks.flatten ++ s.reads.flatten = bytes ++ rest := hs
  have hle : n ≤ (s.chunks.flatten ++ s.reads.flatten).length := by
    rw [hbytes, length_append]
    omega
  obtain ⟨s', hread, hrest⟩ := readExactly_of_le hle
  rw [hbytes, ← h, take_left] at hread
  rw [hbytes, ← h, drop_left] at hrest
  refine ⟨s', ?_, hrest⟩
  rw [take, ← h, hread]

/-! ## Reading a frame -/

lemma firstByte_bits (fin compressed : Bool) (opcode : Opcode) :
    let first := (firstByte fin (if compressed then 64 else 0) opcode.code).toNat
    decide (first &&& 128 ≠ 0) = fin ∧ first &&& 112 = (if compressed then 64 else 0) ∧
      first &&& 15 = opcode.code := by
  cases fin <;> cases compressed <;> cases opcode <;> decide

variable {len : ℕ}

lemma secondByte_bits (masked : Bool) (h : len < 126) :
    let second := (UInt8.ofNat ((if masked then 128 else 0) ||| len)).toNat
    decide (second &&& 128 ≠ 0) = masked ∧ second &&& 127 = len := by
  have hall : ∀ masked : Bool, ∀ len < 126,
      decide ((UInt8.ofNat ((if masked then 128 else 0) ||| len)).toNat &&& 128 ≠ 0) = masked ∧
        (UInt8.ofNat ((if masked then 128 else 0) ||| len)).toNat &&& 127 = len := by
    decide +kernel
  exact hall masked len h

lemma reads_readLength_two (h : len ≤ 65535) : Reads (readLength 126) (bigEndian 2 len) len := by
  have hread := (reads_take (length_bigEndian 2 len)).bind
    (f := fun ext => (pure (ofBigEndian ext) : Reading ℕ)) (Reads.pure _)
  rw [append_nil, ofBigEndian_bigEndian (by norm_num; omega)] at hread
  exact hread

lemma reads_readLength_eight (h : len < 2 ^ 53) :
    Reads (readLength 127) (bigEndian 8 len) len := by
  have htop : ((bigEndian 8 len).getD 0 0).toNat &&& 128 = 0 := by
    have hzero : len / 256 / 256 / 256 / 256 / 256 / 256 / 256 % 256 = 0 := by omega
    simp [bigEndian, littleEndian, hzero]
  have hread := (reads_take (length_bigEndian 8 len)).bind (f := fun ext =>
    (if (ext.getD 0 0).toNat &&& 128 ≠ 0 then
      throw (.failed 1009 "Payload length most-significant bit is set")
    else pure (ofBigEndian ext) : Reading ℕ))
    (by rw [if_neg (not_not.mpr htop)]; exact Reads.pure _)
  rw [append_nil, ofBigEndian_bigEndian (by norm_num; omega)] at hread
  exact hread

lemma exists_lengthBytes (masked : Bool) (h : len < 2 ^ 53) :
    ∃ second ext, lengthBytes masked len = second :: ext ∧
      decide (second.toNat &&& 128 ≠ 0) = masked ∧
      (125 < second.toNat &&& 127 ↔ 125 < len) ∧
      Reads (readLength (second.toNat &&& 127)) ext len := by
  rw [lengthBytes]
  by_cases hshort : len ≤ 125
  · obtain ⟨hmasked, hlen⟩ := secondByte_bits masked (show len < 126 by omega)
    refine ⟨_, [], by rw [if_pos hshort], hmasked, by rw [hlen], ?_⟩
    rw [hlen, readLength, if_pos hshort]
    exact Reads.pure len
  by_cases hmiddle : len ≤ 65535
  · have hcode : (UInt8.ofNat ((if masked then 128 else 0) ||| 126)).toNat &&& 127 = 126 := by
      cases masked <;> decide
    refine ⟨UInt8.ofNat ((if masked then 128 else 0) ||| 126), bigEndian 2 len,
      by rw [if_neg hshort, if_pos hmiddle], by cases masked <;> decide, by omega, ?_⟩
    rw [hcode]
    exact reads_readLength_two hmiddle
  · have hcode : (UInt8.ofNat ((if masked then 128 else 0) ||| 127)).toNat &&& 127 = 127 := by
      cases masked <;> decide
    refine ⟨UInt8.ofNat ((if masked then 128 else 0) ||| 127), bigEndian 8 len,
      by rw [if_neg hshort, if_neg hmiddle], by cases masked <;> decide, by omega, ?_⟩
    rw [hcode]
    exact reads_readLength_eight h

/-- The frame keeps the rules of the protocol. -/
structure Frame.Conforms (c : Config) (f : Frame) : Prop where
  length_lt : f.payload.length < 2 ^ 53
  control : f.opcode.isControl = true → f.fin = true ∧ f.payload.length ≤ 125
  /-- Only the first frame of a message says that it is compressed. -/
  rsv1 : f.rsv1 = true → (f.opcode = .text ∨ f.opcode = .binary) ∧ c.perMessageDeflate = true

abbrev MaskKey := { key : List UInt8 // key.length = 4 }

/-- The bytes of a frame; only a client masks what it sends. -/
def Frame.bytes (c : Config) (f : Frame) (key : MaskKey) : List UInt8 :=
  encodeFrame f.opcode f.payload (if c.isServer then some key.1 else none) f.fin
    (if f.rsv1 then 64 else 0)

variable {c : Config} {f : Frame}

lemma checkHeader_eq (h : f.Conforms c) {lenCode : ℕ}
    (hlen : 125 < lenCode ↔ 125 < f.payload.length) :
    checkHeader c f.fin (if f.rsv1 then 64 else 0) f.opcode.code c.isServer lenCode =
      .ok f.opcode := by
  obtain ⟨fin, rsv1, opcode, payload⟩ := f
  have hcode : Opcode.ofCode opcode.code = some opcode := by cases opcode <;> rfl
  have hrsv : (if rsv1 then 64 else 0) &&& 48 = 0 := by cases rsv1 <;> rfl
  have hrsv1 : (if rsv1 then 64 else 0) &&& 64 ≠ 0 ↔ rsv1 := by cases rsv1 <;> decide
  have hcontrol := h.control
  have hcompressed := h.rsv1
  rw [checkHeader, if_neg (not_not.mpr hrsv), hcode, Option.elim_some]
  simp only [hrsv1]
  rw [if_neg, if_neg, if_neg, if_neg, if_neg, if_neg, if_neg]
  · rintro ⟨hclient, hmasked⟩
    exact absurd (hclient.symm.trans hmasked) (by simp)
  · rintro ⟨hserver, hmasked⟩
    exact absurd (hserver.symm.trans hmasked) (by simp)
  · rintro ⟨-, hset, hplain⟩
    exact absurd (hplain.symm.trans (hcompressed hset).2) (by simp)
  · rintro ⟨rfl, hset⟩
    exact absurd (hcompressed hset).1 (by simp)
  · rintro ⟨hset, hlong⟩
    have hle := (hcontrol hset).2
    omega
  · rintro ⟨hset, hmore⟩
    exact absurd (hmore.symm.trans (hcontrol hset).1) (by simp)
  · rintro ⟨hset, hrsv1⟩
    rcases (hcompressed hrsv1).1 with rfl | rfl <;> cases hset

lemma reads_readPayload (c : Config) (payload : List UInt8) (key : MaskKey) :
    Reads (readPayload c.isServer payload.length)
      ((if c.isServer then some key.1 else none).elim payload fun key =>
        key ++ maskInPlace payload key) payload := by
  cases c.isServer with
  | false => exact reads_take rfl
  | true =>
    have hmasked := (reads_take (length_maskInPlace payload key.1)).bind
      (f := fun payload => (pure (maskInPlace payload key.1) : Reading (List UInt8)))
      (Reads.pure _)
    rw [append_nil, maskInPlace_maskInPlace] at hmasked
    exact (reads_take key.2).bind hmasked

/-- The part of `readFrame` after the header was checked. -/
def readRest (c : Config) (fin rsv1 : Bool) (masked : Bool) (opcode : Opcode) (lenCode : ℕ) :
    Reading Frame := do
  let payloadLen ← readLength lenCode
  if c.maxPayloadSize < payloadLen then throw (tooLong "Payload" c.maxPayloadSize)
  else
    let payload ← readPayload masked payloadLen
    return ⟨fin, rsv1, opcode, payload⟩

lemma readFrame_header (h : f.Conforms c) (key : MaskKey) :
    ∃ header ext lenCode, header.length = 2 ∧
      f.bytes c key = header ++ (ext ++ (if c.isServer then some key.1 else none).elim f.payload
        fun key => key ++ maskInPlace f.payload key) ∧
      Reads (readLength lenCode) ext f.payload.length ∧
      ∀ s rest, s.bytes = header ++ rest → ∃ s', s'.bytes = rest ∧
        readFrame c s = readRest c f.fin f.rsv1 c.isServer f.opcode lenCode s' := by
  obtain ⟨second, ext, hlength, hmasked, hlen, hread⟩ :=
    exists_lengthBytes c.isServer h.length_lt
  let first := firstByte f.fin (if f.rsv1 then 64 else 0) f.opcode.code
  obtain ⟨hfin, hrsv, hopcode⟩ := firstByte_bits f.fin f.rsv1 f.opcode
  refine ⟨[first, second], ext, second.toNat &&& 127, rfl, ?_, hread, ?_⟩
  · have hsome : (if c.isServer then some key.1 else none).isSome = c.isServer := by
      cases c.isServer <;> rfl
    rw [Frame.bytes, encodeFrame, hsome, hlength]
    rfl
  · intro s rest hs
    obtain ⟨s', htake, hs'⟩ := reads_take rfl s rest hs
    refine ⟨s', hs', ?_⟩
    have hrun : readFrame c s =
        (liftM (checkHeader c (decide (first.toNat &&& 128 ≠ 0)) (first.toNat &&& 112)
          (first.toNat &&& 15) (decide (second.toNat &&& 128 ≠ 0)) (second.toNat &&& 127)) >>=
          fun opcode => readRest c (decide (first.toNat &&& 128 ≠ 0))
            (decide ((first.toNat &&& 112) &&& 64 ≠ 0)) (decide (second.toNat &&& 128 ≠ 0)) opcode
            (second.toNat &&& 127) : Reading Frame) s' := by
      have htwo : readFrame c s = (take 2 s).bind fun result => _ := rfl
      rw [htwo, show take 2 s = _ from htake]
      rfl
    have hrsv1 : decide ((if f.rsv1 then 64 else 0) &&& 64 ≠ 0) = f.rsv1 := by
      cases f.rsv1 <;> decide
    rw [hrun, hfin, hrsv, hopcode, hmasked, checkHeader_eq h hlen, hrsv1]
    rfl

lemma reads_readFrame (h : f.Conforms c) (key : MaskKey)
    (hsize : f.payload.length ≤ c.maxPayloadSize) : Reads (readFrame c) (f.bytes c key) f := by
  obtain ⟨header, ext, lenCode, -, hbytes, hlength, hheader⟩ := readFrame_header h key
  have hpayload := (reads_readPayload c f.payload key).bind (f := fun payload =>
    (pure ⟨f.fin, f.rsv1, f.opcode, payload⟩ : Reading Frame)) (Reads.pure _)
  rw [append_nil] at hpayload
  intro s rest hs
  rw [hbytes, append_assoc] at hs
  obtain ⟨s', hs', hread⟩ := hheader s _ hs
  rw [hread, readRest]
  exact hlength.bind (by rw [if_neg (by omega)]; exact hpayload) s' rest hs'

lemma stops_readFrame (h : f.Conforms c) (key : MaskKey)
    (hsize : c.maxPayloadSize < f.payload.length) :
    Stops (readFrame c) (f.bytes c key) (tooLong "Payload" c.maxPayloadSize) := by
  obtain ⟨header, ext, lenCode, -, hbytes, hlength, hheader⟩ := readFrame_header h key
  intro s rest hs
  rw [hbytes, append_assoc] at hs
  obtain ⟨s', hs', hread⟩ := hheader s _ hs
  rw [hread, readRest]
  exact hlength.bind_stops (by rw [if_pos hsize]; exact fun _ _ _ => rfl) s' rest hs'

inductive Data
  | text (value : String)
  | binary (value : List UInt8)
deriving DecidableEq

def Data.bytes : Data → List UInt8
  | text value => utf8 value
  | binary value => value

def Data.opcode : Data → Opcode
  | text _ => .text
  | binary _ => .binary

/-- A `PING` or a `PONG`. -/
structure Control where
  isPing : Bool
  payload : List UInt8
  length_le : payload.length ≤ 125
  key : MaskKey

def Control.frame (control : Control) : Frame :=
  ⟨true, false, if control.isPing then .ping else .pong, control.payload⟩

/-- One frame of a message, with the controls before it. -/
structure Part where
  controls : List Control
  payload : List UInt8
  length_lt : payload.length < 2 ^ 53
  key : MaskKey

def controlBytes (c : Config) (controls : List Control) : List UInt8 :=
  controls.flatMap fun control => control.frame.bytes c control.key

/-- The bytes of the parts of a message; those after the first are continuations, and the last one
is the final frame if the message is complete. -/
def partBytes (c : Config) (complete : Bool) (opcode : Opcode) (compressed : Bool) :
    List Part → List UInt8
  | [] => []
  | part :: parts => controlBytes c part.controls ++
      (Frame.bytes c ⟨complete && parts.isEmpty, compressed, opcode, part.payload⟩ part.key ++
        partBytes c complete .continuation false parts)

/-- A message, cut into frames with controls before them. -/
structure Message (c : Config) where
  data : Data
  compressed : Bool
  first : Part
  more : List Part
  negotiated : compressed = true → c.perMessageDeflate = true
  /-- The parts make up the message, or what it is compressed to. -/
  payload : if compressed = true then
      c.inflate ((first :: more).flatMap Part.payload) = some data.bytes
    else (first :: more).flatMap Part.payload = data.bytes

def Message.bytes {c : Config} (m : Message c) : List UInt8 :=
  partBytes c true m.data.opcode m.compressed (m.first :: m.more)

/-- The frames of a message that the peer does not finish. -/
structure Unfinished (c : Config) where
  isText : Bool
  compressed : Bool
  first : Part
  more : List Part
  negotiated : compressed = true → c.perMessageDeflate = true

def Unfinished.opcode {c : Config} (m : Unfinished c) : Opcode :=
  if m.isText then .text else .binary

def Unfinished.bytes {c : Config} (m : Unfinished c) : List UInt8 :=
  partBytes c false m.opcode m.compressed (m.first :: m.more)

/-- What a peer sends: messages, perhaps the beginning of one more, then perhaps more controls, and
perhaps a `CLOSE` after which the bytes do not matter. -/
structure Sent (c : Config) where
  messages : List (Message c)
  unfinished : Option (Unfinished c) := none
  controls : List Control
  close : Option ({ payload : List UInt8 // payload.length ≤ 125 } × MaskKey × List UInt8)

/-- The bytes of a `CLOSE` and after it. -/
def closeBytes (c : Config)
    (close : Option ({ payload : List UInt8 // payload.length ≤ 125 } × MaskKey × List UInt8)) :
    List UInt8 :=
  close.elim [] fun close => Frame.bytes c ⟨true, false, .close, close.1.1⟩ close.2.1 ++ close.2.2

/-- The bytes behind the messages. -/
def Sent.rest {c : Config} (sent : Sent c) : List UInt8 :=
  sent.unfinished.elim [] Unfinished.bytes ++
    (controlBytes c sent.controls ++ closeBytes c sent.close)

def Sent.bytes {c : Config} (sent : Sent c) : List UInt8 :=
  sent.messages.flatMap Message.bytes ++ sent.rest

def delivered (received : List Received) : List Data :=
  received.filterMap fun
    | .text value => some (.text value)
    | .binary value => some (.binary value)
    | _ => none

section

variable {c : Config} {frag frag' : Fragments} {s : Source} {n : ℕ}

lemma length_bytes_pos (f : Frame) (key : MaskKey) : 0 < (f.bytes c key).length := by
  exact Nat.succ_pos _

lemma Control.conforms (control : Control) : control.frame.Conforms c := by
  refine ⟨Nat.lt_of_le_of_lt control.length_le (by decide), fun _ => ⟨rfl, control.length_le⟩, ?_⟩
  intro h
  cases h

/-- If the bytes fit, what is delivered from them on is found from what the pump does behind them,
and otherwise nothing is delivered. -/
def Delivers (c : Config) (frag : Fragments) (bytes : List UInt8) (Fits : Prop)
    (out : (Fragments → List Received) → List Data) : Prop :=
  ∀ s rest n, s.bytes = bytes ++ rest → s.bytes.length < n →
    (Fits → ∃ n' s', s'.bytes = rest ∧ s'.bytes.length < n' ∧
      delivered (pump c n frag s) = out fun frag' => pump c n' frag' s') ∧
    (¬ Fits → delivered (pump c n frag s) = [])

lemma delivers_frame (frag : Fragments) (h : f.Conforms c) (key : MaskKey) :
    Delivers c frag (f.bytes c key) (f.payload.length ≤ c.maxPayloadSize)
      fun next => delivered (handle c frag f next) := by
  intro s rest n hs hn
  obtain ⟨n', rfl⟩ : ∃ n', n = n' + 1 := ⟨n - 1, by omega⟩
  refine ⟨fun hsize => ?_, fun hsize => ?_⟩
  · obtain ⟨s', hread, hs'⟩ := reads_readFrame h key hsize s rest hs
    have hpos := length_bytes_pos (c := c) f key
    refine ⟨n', s', hs', ?_, by rw [pump, hread]⟩
    rw [hs, length_append] at hn
    rw [hs']
    omega
  · rw [pump, stops_readFrame h key (Nat.lt_of_not_le hsize) s rest hs]
    rfl

lemma Delivers.append {bytes bytes' : List UInt8} {Fits Fits' : Prop}
    {out : (Fragments → List Received) → List Data}
    (h : Delivers c frag bytes Fits fun next => delivered (next frag'))
    (h' : Delivers c frag' bytes' Fits' out) :
    Delivers c frag (bytes ++ bytes') (Fits ∧ Fits') out := by
  intro s rest n hs hn
  rw [append_assoc] at hs
  obtain ⟨hfits, hlong⟩ := h s _ n hs hn
  by_cases hfit : Fits
  · obtain ⟨n', s', hs', hn', hdelivered⟩ := hfits hfit
    rw [hdelivered, and_iff_right hfit]
    exact h' s' rest n' hs' hn'
  · exact ⟨fun hall => absurd hall.1 hfit, fun _ => hlong hfit⟩

lemma delivered_handle_control (control : Control) (next : Fragments → List Received) :
    delivered (handle c frag control.frame next) = delivered (next frag) := by
  cases hping : control.isPing <;> simp [handle, Control.frame, hping, delivered]

lemma delivers_controls (frag : Fragments) (controls : List Control) :
    Delivers c frag (controlBytes c controls)
      (∀ control ∈ controls, control.payload.length ≤ c.maxPayloadSize)
      fun next => delivered (next frag) := by
  induction controls with
  | nil => exact fun s rest n hs hn => ⟨fun _ => ⟨n, s, hs, hn, rfl⟩, fun h => absurd (by simp) h⟩
  | cons control controls ih =>
    have hframe := delivers_frame frag (control.conforms (c := c)) control.key
    simp only [delivered_handle_control] at hframe
    rw [controlBytes, flatMap_cons, forall_mem_cons]
    exact hframe.append ih

/-! ## The parts of a message -/

/-- The frame and the controls before it are not too long. -/
def Part.Fits (c : Config) (part : Part) : Prop :=
  part.payload.length ≤ c.maxPayloadSize ∧
    ∀ control ∈ part.controls, control.payload.length ≤ c.maxPayloadSize

variable {compressed fin : Bool} {opcode : Opcode}

lemma Part.conforms (part : Part) (hdata : opcode.isControl = false)
    (hcompressed : compressed → (opcode = .text ∨ opcode = .binary) ∧ c.perMessageDeflate) :
    Frame.Conforms c ⟨fin, compressed, opcode, part.payload⟩ := by
  refine ⟨part.length_lt, fun h => ?_, hcompressed⟩
  rw [show opcode.isControl from h] at hdata
  cases hdata

/-- What is delivered from the end of a message on. -/
def afterMessage (message : Except Stop Received) (next : List Data) : List Data :=
  match message with
  | .error _ => []
  | .ok received => delivered [received] ++ next

lemma delivered_append (x y : List Received) : delivered (x ++ y) = delivered x ++ delivered y :=
  filterMap_append

lemma delivered_stop (stop : Stop) : delivered stop.received = [] := by cases stop <;> rfl

lemma delivered_handle_more (hdata : f.opcode.isControl = false)
    (hadd : receiveData c frag f = addPart c frag' false) (next : Fragments → List Received) :
    delivered (handle c frag f next) = delivered (next frag') := by
  have hopcode : f.opcode ≠ .ping ∧ f.opcode ≠ .pong ∧ f.opcode ≠ .close := by
    refine ⟨?_, ?_, ?_⟩ <;> (intro h; rw [h] at hdata; cases hdata)
  rw [handle, if_neg hopcode.1, if_neg hopcode.2.1, if_neg hopcode.2.2, hadd]
  rfl

lemma delivered_handle_last (hdata : f.opcode.isControl = false)
    (hadd : receiveData c frag f = addPart c frag' true) (next : Fragments → List Received) :
    delivered (handle c frag f next) =
      afterMessage (assemble c frag') (delivered (next .none)) := by
  have hopcode : f.opcode ≠ .ping ∧ f.opcode ≠ .pong ∧ f.opcode ≠ .close := by
    refine ⟨?_, ?_, ?_⟩ <;> (intro h; rw [h] at hdata; cases hdata)
  have hrun : addPart c frag' true = (assemble c frag').map fun received =>
      (some received, Fragments.none) := by
    rw [addPart, if_pos rfl]
    cases assemble c frag' <;> rfl
  rw [handle, if_neg hopcode.1, if_neg hopcode.2.1, if_neg hopcode.2.2, hadd, hrun]
  cases assemble c frag' with
  | error stop => exact delivered_stop stop
  | ok received => exact delivered_append [received] _

lemma delivers_part (frag : Fragments) (fin : Bool) (part : Part)
    (hdata : opcode.isControl = false)
    (hcompressed : compressed → (opcode = .text ∨ opcode = .binary) ∧ c.perMessageDeflate) :
    Delivers c frag (controlBytes c part.controls ++
        Frame.bytes c ⟨fin, compressed, opcode, part.payload⟩ part.key) (part.Fits c)
      fun next => delivered (handle c frag ⟨fin, compressed, opcode, part.payload⟩ next) := by
  rw [Part.Fits, and_comm]
  exact (delivers_controls frag part.controls).append
    (delivers_frame frag (part.conforms hdata hcompressed) part.key)

/-- What is delivered from the end of the parts on. -/
def afterParts (c : Config) (complete : Bool) (all : Fragments)
    (next : Fragments → List Received) : List Data :=
  if complete then afterMessage (assemble c all) (delivered (next .none)) else delivered (next all)

/-- The frames of a message, one by one, each with its controls. -/
lemma delivers_parts (complete : Bool) (more : List Part) {part : Part}
    (hdata : opcode.isControl = false)
    (hcompressed : compressed → (opcode = .text ∨ opcode = .binary) ∧ c.perMessageDeflate)
    (hadd : ∀ fin, receiveData c frag ⟨fin, compressed, opcode, part.payload⟩ = addPart c frag' fin)
    (hopcode : frag'.opcode ≠ none) :
    Delivers c frag (partBytes c complete opcode compressed (part :: more))
      (∀ p ∈ part :: more, p.Fits c)
      (afterParts c complete { frag' with parts := frag'.parts ++ more.map Part.payload }) := by
  induction more generalizing part frag frag' opcode compressed with
  | nil =>
    have hlast := delivers_part frag complete part hdata hcompressed
    rw [partBytes, partBytes, append_nil, isEmpty_nil, Bool.and_true, forall_mem_singleton,
      map_nil, append_nil]
    cases complete with
    | true =>
      simp only [delivered_handle_last hdata (hadd true)] at hlast
      exact hlast
    | false =>
      simp only [delivered_handle_more hdata (hadd false)] at hlast
      exact hlast
  | cons next more ih =>
    have hfirst := delivers_part frag false part hdata hcompressed
    simp only [delivered_handle_more hdata (hadd false)] at hfirst
    have hcontinue : ∀ fin, receiveData c frag' ⟨fin, false, .continuation, next.payload⟩ =
        addPart c { frag' with parts := frag'.parts ++ [next.payload] } fin := by
      intro fin
      rw [receiveData, if_pos rfl, if_neg hopcode]
    have hrest := ih rfl (by simp) hcontinue hopcode
    simp only [append_assoc, singleton_append] at hrest
    rw [partBytes, isEmpty_cons, Bool.and_false, forall_mem_cons, map_cons, ← append_assoc]
    exact hfirst.append hrest

/-! ## Messages -/

def Data.shown : Data → Data
  | text value => .text (dropMark value)
  | binary value => .binary value

/-- The message is not a text that begins with a mark. -/
def Data.IsPlain : Data → Prop
  | text value => ¬ IsMarked value
  | binary _ => True

lemma Data.shown_eq_self_iff (data : Data) : data.shown = data ↔ data.IsPlain := by
  cases data with
  | text value => rw [shown, IsPlain, text.injEq, dropMark_eq_self]
  | binary value => simp [shown, IsPlain]

/-- The message is plain, and neither it nor one of its frames is too long. -/
structure Message.Fits (m : Message c) : Prop where
  parts : ∀ p ∈ m.first :: m.more, p.Fits c
  size : m.data.bytes.length ≤ c.maxPayloadSize
  plain : m.data.IsPlain

def Message.fragments (m : Message c) : Fragments :=
  ⟨some m.data.opcode, m.first.payload :: m.more.map Part.payload, m.compressed⟩

variable (m : Message c)

lemma Message.inflated_eq :
    inflated c m.fragments = if m.compressed ∧ c.maxPayloadSize < m.data.bytes.length then
        .error (tooLong "Inflated payload" c.maxPayloadSize)
      else .ok m.data.bytes := by
  have hflatten : m.fragments.parts.flatten = (m.first :: m.more).flatMap Part.payload := rfl
  have hpayload := m.payload
  rw [inflated, hflatten]
  change (if m.compressed then _ else _) = _
  by_cases hcompressed : m.compressed
  · rw [if_pos hcompressed] at hpayload ⊢
    rw [hpayload, Option.elim_some]
    simp only [hcompressed, true_and]
  · rw [if_neg hcompressed] at hpayload ⊢
    rw [hpayload, if_neg fun h => hcompressed h.1]

lemma Message.afterMessage_assemble (next : List Data) :
    afterMessage (assemble c m.fragments) next =
      if m.compressed ∧ c.maxPayloadSize < m.data.bytes.length then []
      else m.data.shown :: next := by
  rw [assemble, m.inflated_eq]
  by_cases hlong : m.compressed ∧ c.maxPayloadSize < m.data.bytes.length
  · rw [if_pos hlong, if_pos hlong]
    rfl
  · rw [if_neg hlong, if_neg hlong]
    change afterMessage (if some m.data.opcode = some .text then
      (ofUtf8 m.data.bytes).elim (.error (.failed 1007 "Invalid UTF-8 in text message"))
        fun text => .ok (.text text)
      else .ok (.binary m.data.bytes)) next = _
    cases m.data with
    | text value =>
      rw [Data.opcode, if_pos rfl, Data.bytes, ofUtf8_utf8]
      rfl
    | binary value =>
      rfl

lemma Data.opcode_isControl (data : Data) : data.opcode.isControl = false := by cases data <;> rfl

lemma Message.receiveData_first (fin : Bool) :
    receiveData c .none ⟨fin, m.compressed, m.data.opcode, m.first.payload⟩ =
      addPart c ⟨some m.data.opcode, [m.first.payload], m.compressed⟩ fin := by
  cases hdata : m.data <;> rfl

lemma Message.compressed_opcode (h : m.compressed) :
    (m.data.opcode = .text ∨ m.data.opcode = .binary) ∧ c.perMessageDeflate := by
  refine ⟨?_, m.negotiated h⟩
  cases m.data <;> simp [Data.opcode]

lemma delivers_message :
    Delivers c .none m.bytes (∀ p ∈ m.first :: m.more, p.Fits c) fun next =>
      if m.compressed ∧ c.maxPayloadSize < m.data.bytes.length then []
      else m.data.shown :: delivered (next .none) := by
  have hparts := delivers_parts true m.more m.data.opcode_isControl m.compressed_opcode
    m.receiveData_first (by simp)
  simp only [← m.afterMessage_assemble]
  exact hparts

lemma delivered_receiveClose (payload : List UInt8) : delivered [receiveClose payload] = [] := by
  rw [receiveClose]
  split_ifs
  · rfl
  · rfl
  · rfl
  · rfl
  · cases ofUtf8 (payload.drop 2) <;> rfl

/-- Nothing is delivered after the last frame of a message, also if some of one has been read. -/
lemma delivered_end (sent : Sent c) (frag : Fragments)
    (hs : s.bytes = controlBytes c sent.controls ++ closeBytes c sent.close)
    (hn : s.bytes.length < n) : delivered (pump c n frag s) = [] := by
  obtain ⟨hfits, hlong⟩ := delivers_controls frag sent.controls s _ n hs hn
  by_cases hcontrols : ∀ control ∈ sent.controls, control.payload.length ≤ c.maxPayloadSize
  · obtain ⟨n', s', hs', hn', hdelivered⟩ := hfits hcontrols
    refine hdelivered.trans ?_
    dsimp only
    cases hclose : sent.close with
    | none =>
      rw [hclose] at hs'
      have hread : readExactly 2 s'.chunks s'.reads = none := by
        refine readExactly_of_lt ?_
        rw [show s'.chunks.flatten ++ s'.reads.flatten = [] from hs']
        decide
      cases n' with
      | zero => rfl
      | succ n' =>
        have hframe : readFrame c s' = .error .ended := by
          have htake : take 2 s' = .error .ended := by rw [take, hread]
          have hrun : readFrame c s' = (take 2 s').bind fun result => _ := rfl
          rw [hrun, htake]
          rfl
        rw [pump, hframe]
        rfl
    | some close =>
      rw [hclose] at hs'
      have hconforms : Frame.Conforms c ⟨true, false, .close, close.1.1⟩ :=
        ⟨Nat.lt_of_le_of_lt close.1.2 (by decide), fun _ => ⟨rfl, close.1.2⟩, by simp⟩
      obtain ⟨hfits, hlong⟩ := delivers_frame frag hconforms close.2.1 s' _ n' hs' hn'
      by_cases hsize : close.1.1.length ≤ c.maxPayloadSize
      · obtain ⟨n'', s'', -, -, hpump⟩ := hfits hsize
        refine hpump.trans ?_
        dsimp only
        exact delivered_receiveClose _
      · exact hlong hsize
  · exact hlong hcontrols

/-- Frames of a message that is not finished are kept and not delivered. -/
lemma delivers_unfinished (m : Unfinished c) :
    Delivers c .none m.bytes (∀ p ∈ m.first :: m.more, p.Fits c) fun next => delivered
      (next ⟨some m.opcode, m.first.payload :: m.more.map Part.payload, m.compressed⟩) := by
  have hopcode : m.opcode = .text ∨ m.opcode = .binary := by
    cases h : m.isText <;> simp [Unfinished.opcode, h]
  have hdata : m.opcode.isControl = false := by rcases hopcode with h | h <;> rw [h] <;> rfl
  have hfirst : ∀ fin, receiveData c .none ⟨fin, m.compressed, m.opcode, m.first.payload⟩ =
      addPart c ⟨some m.opcode, [m.first.payload], m.compressed⟩ fin := by
    rcases hopcode with h | h <;> rw [h] <;> exact fun _ => rfl
  exact delivers_parts false m.more hdata (fun h => ⟨hopcode, m.negotiated h⟩) hfirst (by simp)

lemma delivered_rest (sent : Sent c) (hs : s.bytes = sent.rest) (hn : s.bytes.length < n) :
    delivered (pump c n .none s) = [] := by
  rw [Sent.rest] at hs
  cases hsome : sent.unfinished with
  | none =>
    rw [hsome] at hs
    exact delivered_end sent .none hs hn
  | some m =>
    rw [hsome] at hs
    obtain ⟨hfits, hlong⟩ := delivers_unfinished m s _ n hs hn
    by_cases hparts : ∀ p ∈ m.first :: m.more, p.Fits c
    · obtain ⟨n', s', hs', hn', hpump⟩ := hfits hparts
      exact hpump.trans (delivered_end sent _ hs' hn')
    · exact hlong hparts

lemma delivered_messages (sent : Sent c) (messages : List (Message c))
    (hs : s.bytes = messages.flatMap Message.bytes ++ sent.rest) (hn : s.bytes.length < n) :
    (delivered (pump c n .none s) = messages.map Message.data ∧
      ∀ m ∈ messages, m.data.bytes.length ≤ c.maxPayloadSize) ↔ ∀ m ∈ messages, m.Fits := by
  induction messages generalizing s n with
  | nil => simpa using delivered_rest sent hs hn
  | cons m messages ih =>
    rw [flatMap_cons, append_assoc] at hs
    rw [map_cons, forall_mem_cons, forall_mem_cons]
    obtain ⟨hfits, hlong⟩ := delivers_message m s _ n hs hn
    by_cases hparts : ∀ p ∈ m.first :: m.more, p.Fits c
    · obtain ⟨n', s', hs', hn', hmessage⟩ := hfits hparts
      dsimp only at hmessage
      rw [hmessage, ← ih hs' hn']
      constructor
      · rintro ⟨hdelivered, hsize, hsizes⟩
        rw [if_neg fun h => absurd hsize (Nat.not_le.mpr h.2), List.cons.injEq,
          m.data.shown_eq_self_iff] at hdelivered
        exact ⟨⟨hparts, hsize, hdelivered.1⟩, hdelivered.2, hsizes⟩
      · rintro ⟨hfits, hdelivered, hsizes⟩
        rw [if_neg fun h => absurd hfits.size (Nat.not_le.mpr h.2), hdelivered,
          m.data.shown_eq_self_iff.mpr hfits.plain]
        exact ⟨rfl, hfits.size, hsizes⟩
    · rw [hlong hparts]
      constructor
      · rintro ⟨h, -⟩
        cases h
      · rintro ⟨hfits, -⟩
        exact absurd hfits.parts hparts

end

/-- Whatever a conforming peer sends and however it arrives, exactly the messages are delivered and
none exceeds the maximum, if and only if no frame up to the end of the last message and no message
does, and no text begins with a mark. -/
theorem delivered_iff (c : Config) (sent : Sent c) (s : Source) (hs : s.bytes = sent.bytes) :
    (delivered (readPump c s) = sent.messages.map Message.data ∧
      ∀ data ∈ delivered (readPump c s), data.bytes.length ≤ c.maxPayloadSize) ↔
      ∀ m ∈ sent.messages, m.Fits := by
  rw [← delivered_messages sent sent.messages hs (Nat.lt_succ_self _)]
  refine and_congr_right fun hdelivered => ?_
  rw [show delivered (readPump c s) = _ from hdelivered]
  simp only [forall_mem_map]

/-- A server without compression that takes at most four bytes. -/
def fourBytes : Config := ⟨true, false, 4, by decide, fun _ => none⟩

def plainPart (payload : List UInt8) (h : payload.length < 2 ^ 53) : Part :=
  ⟨[], payload, h, ⟨[1, 2, 3, 4], rfl⟩⟩

/-- A text of four characters in two frames, with a `PING` before the second one, then the first
frame of another text, and a `CLOSE` in place of its second one. -/
def fino : Sent fourBytes where
  messages := [{
    data := .text "fino"
    compressed := false
    first := plainPart [102] (by decide)
    more := [⟨[⟨true, [7], by decide, ⟨[5, 6, 7, 8], rfl⟩⟩], [105, 110, 111], by decide,
      ⟨[0, 9, 0, 9], rfl⟩⟩]
    negotiated := by decide
    payload := by decide }]
  unfinished := some ⟨true, false, plainPart [102] (by decide), [], by decide⟩
  controls := []
  close := some (⟨[], by decide⟩, ⟨[0, 0, 0, 0], rfl⟩, [])

/-- The text is delivered, byte by byte or at once. -/
theorem fino_delivered :
    delivered (readPump fourBytes ⟨[], fino.bytes.map fun b => [b]⟩) = [.text "fino"] ∧
      delivered (readPump fourBytes ⟨[fino.bytes], []⟩) = [.text "fino"] := by
  have hfits : ∀ m ∈ fino.messages, m.Fits := by
    intro m hm
    rw [mem_singleton.mp hm]
    refine ⟨?_, by decide, by simp [Data.IsPlain, IsMarked, byteOrderMark]⟩
    simp [fourBytes, plainPart, Part.Fits]
  have hbytes : (⟨[], fino.bytes.map fun b => [b]⟩ : Source).bytes = fino.bytes := by
    rw [Source.bytes, flatten_nil, nil_append, ← flatMap_def,
      flatMap_singleton']
  have hbytes' : (⟨[fino.bytes], []⟩ : Source).bytes = fino.bytes := by simp [Source.bytes]
  exact ⟨((delivered_iff fourBytes fino _ hbytes).mpr hfits).1,
    ((delivered_iff fourBytes fino _ hbytes').mpr hfits).1⟩

/-- A binary message of six bytes in two frames of three. -/
def sixBytes : Sent fourBytes where
  messages := [{
    data := .binary [1, 2, 3, 4, 5, 6]
    compressed := false
    first := plainPart [1, 2, 3] (by decide)
    more := [plainPart [4, 5, 6] (by decide)]
    negotiated := by decide
    payload := by decide }]
  controls := []
  close := none

def markedText : Sent fourBytes where
  messages := [{
    data := .text (String.singleton byteOrderMark)
    compressed := false
    first := plainPart [0xef, 0xbb, 0xbf] (by decide)
    more := []
    negotiated := by decide
    payload := by decide }]
  controls := []
  close := none

/-- A message longer than the maximum is delivered in two frames, and a mark at the beginning of a
text is not. -/
theorem long_message_and_lost_mark :
    delivered (readPump fourBytes ⟨[sixBytes.bytes], []⟩) = [.binary [1, 2, 3, 4, 5, 6]] ∧
      fourBytes.maxPayloadSize < 6 ∧
      delivered (readPump fourBytes ⟨[markedText.bytes], []⟩) ≠
        [.text (String.singleton byteOrderMark)] := by
  refine ⟨?_, by decide, ?_⟩
  · decide +kernel
  · decide +kernel

end Fino.WebSocket
