import Fino.WebSocket.Frame

/-!
# The read pump

`#readPump` of `js/net/http/websocket.ts` reads and checks frames, collects the parts of a message,
and ends at a `CLOSE`, at the end of the bytes, or where the peer breaks a rule. Payload lengths are
exact numbers; those of the source are rounded only beyond any safe maximum.
-/

namespace Fino.WebSocket

open Lib.Wire

structure Config where
  /-- `#role === 'server'` -/
  isServer : Bool
  perMessageDeflate : Bool
  maxPayloadSize : ℕ
  maxPayloadSize_lt : maxPayloadSize < 2 ^ 53
  /-- `#perMessageInflater.inflateMessage`; `none` where it throws. -/
  inflate : List UInt8 → Option (List UInt8)

/-- Why the pump ends. -/
inductive Stop
  /-- The reader has no more bytes. -/
  | ended
  /-- `#failProtocol` -/
  | failed (code : ℕ) (reason : String)
deriving DecidableEq

abbrev Reading := StateT Source (Except Stop)

/-- `_readExactly`, at whose end the pump ends. -/
def take (n : ℕ) : Reading (List UInt8) := fun s =>
  match readExactly n s.chunks s.reads with
  | none => .error .ended
  | some result => .ok result

structure Frame where
  fin : Bool
  rsv1 : Bool
  opcode : Opcode
  payload : List UInt8

variable (c : Config)

def checkHeader (fin : Bool) (rsv opcode : ℕ) (masked : Bool) (lenCode : ℕ) : Except Stop Opcode :=
  if rsv &&& 48 ≠ 0 then .error (.failed 1002 "Unexpected RSV bits")
  else (Opcode.ofCode opcode).elim
    (.error (.failed 1002 ("Unknown opcode: 0x" ++ String.ofList (Nat.toDigits 16 opcode))))
    fun op =>
      if op.isControl = true ∧ rsv &&& 64 ≠ 0 then
        .error (.failed 1002 "Control frames must not set RSV bits")
      else if op.isControl = true ∧ fin = false then
        .error (.failed 1002 "Control frames must not be fragmented")
      else if op.isControl = true ∧ 125 < lenCode then
        .error (.failed 1002 "Control frame payload exceeds 125 bytes")
      else if op = .continuation ∧ rsv &&& 64 ≠ 0 then
        .error (.failed 1002 "CONTINUATION frames must not set RSV1")
      else if (op = .text ∨ op = .binary) ∧ rsv &&& 64 ≠ 0 ∧ c.perMessageDeflate = false then
        .error (.failed 1002 "RSV1 requires negotiated permessage-deflate")
      else if c.isServer = true ∧ masked = false then
        .error (.failed 1002 "Frames from client must be masked")
      else if c.isServer = false ∧ masked = true then
        .error (.failed 1002 "Frames from server must not be masked")
      else .ok op

def readLength (lenCode : ℕ) : Reading ℕ := do
  if lenCode ≤ 125 then return lenCode
  else if lenCode = 126 then return ofBigEndian (← take 2)
  else
    let ext ← take 8
    if (ext.getD 0 0).toNat &&& 128 ≠ 0 then
      throw (.failed 1009 "Payload length most-significant bit is set")
    else return ofBigEndian ext

def tooLong (what : String) (maxPayloadSize : ℕ) : Stop :=
  .failed 1009 (what ++ " exceeds maxPayloadSize (" ++ toString maxPayloadSize ++ " bytes)")

def readPayload (masked : Bool) (payloadLen : ℕ) : Reading (List UInt8) := do
  if masked then
    let maskKey ← take 4
    let payload ← take payloadLen
    return maskInPlace payload maskKey
  else take payloadLen

def readFrame : Reading Frame := do
  let header ← take 2
  let first := (header.getD 0 0).toNat
  let second := (header.getD 1 0).toNat
  let fin := decide (first &&& 128 ≠ 0)
  let rsv := first &&& 112
  let masked := decide (second &&& 128 ≠ 0)
  let lenCode := second &&& 127
  let opcode ← liftM (checkHeader c fin rsv (first &&& 15) masked lenCode)
  let payloadLen ← readLength lenCode
  if c.maxPayloadSize < payloadLen then throw (tooLong "Payload" c.maxPayloadSize)
  else
    let payload ← readPayload masked payloadLen
    return ⟨fin, decide (rsv &&& 64 ≠ 0), opcode, payload⟩

/-! ## What frames mean -/

inductive Received
  | ping (payload : List UInt8)
  | pong
  /-- A `CLOSE` with its code, its reason and its payload, which is echoed. -/
  | close (code : ℕ) (reason : String) (payload : List UInt8)
  | text (value : String)
  | binary (value : List UInt8)
  | failed (code : ℕ) (reason : String)
deriving DecidableEq

/-- The frames of a message that is not complete. -/
structure Fragments where
  opcode : Option Opcode
  parts : List (List UInt8)
  compressed : Bool

def Fragments.none : Fragments := ⟨Option.none, [], false⟩

def validReceivedCloseCode (code : ℕ) : Bool :=
  !(code < 1000 || 4999 < code) && !(code = 1004 || code = 1005 || code = 1006 || code = 1015) &&
    !(1016 ≤ code && code ≤ 2999)

/-- A `CLOSE` frame. -/
def receiveClose (payload : List UInt8) : Received :=
  let code := (payload.getD 0 0).toNat * 256 + (payload.getD 1 0).toNat
  if payload.length = 0 then .close 1005 "" payload
  else if payload.length = 1 then
    .failed 1002 "CLOSE payload length must be 0 or at least 2 bytes"
  else if validReceivedCloseCode code = false then
    .failed 1002 ("Invalid WebSocket close code: " ++ toString code)
  else if payload.length = 2 then .close code "" payload
  else (ofUtf8 (payload.drop 2)).elim (.failed 1007 "Invalid UTF-8 in WebSocket close reason")
    fun reason => .close code reason payload

def Stop.received : Stop → List Received
  | ended => []
  | failed code reason => [.failed code reason]

variable (frag : Fragments)

/-- The bytes of a message, inflated if they were compressed. -/
def inflated : Except Stop (List UInt8) :=
  if frag.compressed then
    (c.inflate frag.parts.flatten).elim (.error (.failed 1003 "Invalid permessage-deflate payload"))
      fun assembled =>
        if c.maxPayloadSize < assembled.length then
          .error (tooLong "Inflated payload" c.maxPayloadSize)
        else .ok assembled
  else .ok frag.parts.flatten

/-- The message is assembled after its last frame. -/
def assemble : Except Stop Received := do
  let assembled ← inflated c frag
  if frag.opcode = some .text then
    (ofUtf8 assembled).elim (.error (.failed 1007 "Invalid UTF-8 in text message"))
      fun text => .ok (.text text)
  else return .binary assembled

/-- A part of a message; the message is handed on after the last one. -/
def addPart (fin : Bool) :
    Except Stop (Option Received × Fragments) := do
  if fin then return (some (← assemble c frag), .none) else return (none, frag)

/-- What a data frame does: what is handed on, and the parts that have arrived afterwards. -/
def receiveData (f : Frame) : Except Stop (Option Received × Fragments) :=
  if f.opcode = .continuation then
    if frag.opcode = none then
      .error (.failed 1002 "CONTINUATION frame without a preceding data frame")
    else addPart c { frag with parts := frag.parts ++ [f.payload] } f.fin
  else if frag.opcode ≠ none then
    .error (.failed 1002 "New data frame received during fragmented message")
  else addPart c ⟨some f.opcode, frag.parts ++ [f.payload], f.rsv1⟩ f.fin

/-- What a frame leads to, with the turns after it. -/
def handle (f : Frame) (next : Fragments → List Received) : List Received :=
  if f.opcode = .ping then .ping f.payload :: next frag
  else if f.opcode = .pong then .pong :: next frag
  else if f.opcode = .close then [receiveClose f.payload]
  else
    match receiveData c frag f with
    | .error stop => stop.received
    | .ok (received, frag') => received.toList ++ next frag'

def pump (c : Config) : ℕ → Fragments → Source → List Received
  | 0, _, _ => []
  | n + 1, frag, s =>
    match readFrame c s with
    | .error stop => stop.received
    | .ok (f, s') => handle c frag f fun frag' => pump c n frag' s'

/-- `#readPump`; each frame has at least one byte, so that there are not more turns than bytes. -/
def readPump (s : Source) : List Received :=
  pump c (s.bytes.length + 1) .none s

end Fino.WebSocket
