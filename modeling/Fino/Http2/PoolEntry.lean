import Fino.Jobs.CronText
import Fino.Lib.OrderedMap
import Fino.Lib.Transition

/-!
# A pooled HTTP/2 connection

`H2PoolEntry` of `js/internal/net/http/pool.ts`. What the code runs without waiting is one
transition, and each of its waits ends with one. The stream objects are kept apart from the keys of
`#streams`, since `send` and the upload keep them after deletion; each records how its promises were
settled.
-/

namespace Fino.Http2

open Lib

inductive Reason
  | cancelled (streamId : ℕ)
  | closed (streamId errorCode : ℕ)
  | goaway (streamId lastStreamId errorCode : ℕ)
  | protocol (streamId : ℕ)
  | flowControl (streamId : Option ℕ)
  /-- Any other error. -/
  | error (message : String)
deriving DecidableEq

abbrev Fields := List (String × String)

inductive Settlement
  /-- With a response: its status, its fields, and whether it has a body. -/
  | response (status : ℤ) (headers : Fields) (hasBody : Bool)
  | trailers (fields : Fields)
  | rejected (reason : Reason)
deriving DecidableEq

/-- `HttpBodyQueue`. -/
structure Body where
  chunks : List (List UInt8) := []
  /-- How many reads wait for a chunk. -/
  waiters : ℕ := 0
  closed : Bool := false
  error : Option Reason := none
  queuedBytes : ℕ := 0
deriving DecidableEq

namespace Body

/-- `error`. -/
def fail (b : Body) (reason : Reason) : Body :=
  if b.closed ∨ b.error.isSome then b else { b with error := some reason, waiters := 0 }

def close (b : Body) : Body :=
  if b.closed ∨ b.error.isSome then b else { b with closed := true, waiters := 0 }

def push (maxBufferedBytes : ℕ) (b : Body) (chunk : List UInt8) : Body × Bool :=
  if b.closed ∨ b.error.isSome then (b, false)
  else if chunk = [] then (b, true)
  else if maxBufferedBytes < b.queuedBytes + chunk.length ∧ b.waiters = 0 then
    (b.fail (.flowControl none), false)
  else if 0 < b.waiters then ({ b with waiters := b.waiters - 1 }, true)
  else ({ b with chunks := b.chunks ++ [chunk], queuedBytes := b.queuedBytes + chunk.length }, true)

def next (b : Body) : Body :=
  match b.chunks with
  | chunk :: chunks => { b with chunks := chunks, queuedBytes := b.queuedBytes - chunk.length }
  | [] => if b.closed ∨ b.error.isSome then b else { b with waiters := b.waiters + 1 }

/-- `#cancel` up to `onCancel`, and whether that is called. -/
def cancel (b : Body) (reason : Reason) : Body × Bool :=
  if b.error.isSome then (b, false)
  else
    let emptied := { b with chunks := [], queuedBytes := 0 }
    if b.closed then (emptied, false) else (emptied.fail reason, true)

end Body

/-! ## Streams -/

/-- Where a call of `send` is. -/
inductive SendPhase
  /-- It waits for the reset of a stream that was aborted before. -/
  | cancelling
  /-- It waits for pending output. -/
  | draining
  /-- It has returned the promise of the response. -/
  | returned
  | settled
deriving DecidableEq

/-- `StreamDeferred`. -/
structure Stream where
  streamId : ℕ
  /-- `NaN` is `none`. -/
  status : Option ℤ := some 0
  headers : Fields := []
  trailerHeaders : Fields := []
  inTrailers : Bool := false
  method : String
  body : Body := {}
  done : Bool := false
  responseResolved : Bool := false
  /-- `abortCleanup` is set: an abort of the request is listened to. -/
  listening : Bool := false
  /-- Whether the request has a body, and whether `#pumpUpload` is running. -/
  hasBody : Bool
  uploading : Bool := false
  phase : SendPhase
  /-- The calls of the four settling functions, and how the promise of `send` was settled. -/
  responseCalls : List Settlement := []
  trailerCalls : List Settlement := []
  sendCalls : List Settlement := []
deriving DecidableEq

/-- `parseInt(value, 10)`. -/
def parseInt (value : String) : Option ℤ :=
  match value.toList.dropWhile Jobs.isSpace with
  | '-' :: rest => (digits rest).map fun n => -(n : ℤ)
  | '+' :: rest => (digits rest).map fun n => (n : ℤ)
  | rest => (digits rest).map fun n => (n : ℤ)
where
  digits (text : List Char) : Option ℕ :=
    match text.takeWhile Char.isDigit with
    | [] => none
    | digits => some (digits.foldl (fun n c => 10 * n + (c.toNat - '0'.toNat)) 0)

namespace Stream

variable (s : Stream)

/-- `#failStream`. -/
def fail (reason : Reason) : Stream :=
  if s.done then s
  else { s with
    done := true
    listening := false
    body := s.body.fail reason
    trailerCalls := s.trailerCalls ++ [.rejected reason]
    responseCalls :=
      if s.responseResolved then s.responseCalls else s.responseCalls ++ [.rejected reason] }

/-- `#resolveResponse`; `built` is why the response cannot be made. -/
def resolveResponse (built : Option String) : Stream :=
  if s.responseResolved ∨ s.done then s
  else
    match s.status with
    | none => s.fail (.protocol s.streamId)
    | some status =>
      if status < 200 ∨ 599 < status then s.fail (.protocol s.streamId)
      else
        match built with
        | some message => s.fail (.error message)
        | none =>
          { s with
            responseResolved := true
            responseCalls := s.responseCalls ++ [.response status s.headers
              (s.method.toUpper ≠ "HEAD" ∧ status ≠ 204 ∧ status ≠ 205 ∧ status ≠ 304)] }

/-- `#finishStream` after the response. -/
def finish : Stream :=
  { s with
    done := true
    listening := false
    body := s.body.close
    trailerCalls := s.trailerCalls ++ [.trailers s.trailerHeaders] }

/-- `handleBeginHeaders`. -/
def beginHeaders (isTrailers : Bool) : Stream :=
  let informational := s.status.elim false fun status => 100 ≤ status ∧ status < 200
  if isTrailers = false ∧ informational = true then
    { s with inTrailers := isTrailers, status := some 0, headers := [] }
  else { s with inTrailers := isTrailers }

/-- `handleHeader`. -/
def header (name value : String) : Stream :=
  if s.inTrailers then
    if name.startsWith ":" then s
    else { s with trailerHeaders := s.trailerHeaders ++ [(name, value)] }
  else if name = ":status" then { s with status := parseInt value }
  else if name.startsWith ":" then s
  else { s with headers := s.headers ++ [(name, value)] }

/-- `send` was settled. -/
def settleSend (settlement : Settlement) : Stream :=
  { s with phase := .settled, sendCalls := s.sendCalls ++ [settlement] }

end Stream

/-! ## The connection -/

/-- `H2PoolEntry`. -/
structure Entry where
  /-- Every stream that was made, by its number. -/
  objects : OrderedMap ℕ Stream := ∅
  /-- The keys of `#streams`, in the order of the map. -/
  streams : List ℕ := []
  /-- The number that the session gives to the next stream. -/
  nextId : ℕ := 1
  goingAway : Bool := false
  closed : Bool := false
  /-- `#closePromise` is set, and waits for pending output. -/
  closing : Bool := false
  closeWaits : Bool := false
  idleTimer : Bool := true
  /-- The resets that wait for pending output. -/
  cancels : ℕ := 0
  /-- The streams whose body was overrun, and that will be reset. -/
  overruns : List ℕ := []
  /-- `#recvLoop` has ended. -/
  loopEnded : Bool := false

structure Options where
  maxBufferedBodyBytes : ℕ := 16 * 1024 * 1024

inductive Action
  /-- `send`: the request, the abort reason if any, and the error of the session if it refuses. -/
  | send (method : String) (hasBody : Bool) (aborted : Option (Option Reason))
      (refused : Option String)
  /-- The reset that `send` waits for has ended. -/
  | sendCancelled (streamId : ℕ) (reason : Reason)
  /-- The output that `send` waits for was written, or not. -/
  | sendDrained (streamId : ℕ) (failed : Option String)
  /-- The promise that `send` returned is settled as that of the response. -/
  | sendSettles (streamId : ℕ)
  /-- The request is aborted. -/
  | abort (streamId : ℕ) (reason : Option Reason)
  /-- The upload ends, or fails. -/
  | uploadEnds (streamId : ℕ)
  | uploadFails (streamId : ℕ) (message : String)
  /-- The callbacks of the session. -/
  | beginHeaders (streamId : ℕ) (isTrailers : Bool)
  | header (streamId : ℕ) (name value : String)
  | frameRecv (streamId frameType frameFlags : ℕ) (built : Option String)
  | dataChunk (streamId : ℕ) (data : List UInt8)
  | streamClose (streamId errorCode : ℕ) (built : Option String)
  | goaway (lastStreamId errorCode : ℕ)
  /-- A stream whose body was overrun is reset. -/
  | overrun (streamId : ℕ)
  /-- A reset has ended. -/
  | cancelEnds
  /-- The consumer of a body reads, or stops. -/
  | bodyNext (streamId : ℕ)
  | bodyCancel (streamId : ℕ) (reason : Option Reason)
  /-- The connection ends. -/
  | close
  | evict
  | idle
  | closeDrained
  | transportError (message : String)
  | recvEnd

namespace Entry

variable (e : Entry) (streamId : ℕ)

def update (f : Stream → Stream) : Entry :=
  { e with objects := e.objects.modify streamId f }

/-- `#streams.get`. -/
def get : Option Stream :=
  if streamId ∈ e.streams then e.objects.lookup streamId else none

/-- `#streams.delete`. -/
def delete : Entry :=
  { e with streams := e.streams.filter (· ≠ streamId) }

def resetIdleTimer : Entry :=
  { e with idleTimer := ¬ e.closed ∧ ¬ e.goingAway ∧ e.streams = [] }

/-- `close`, up to its wait. -/
def close : Entry :=
  if e.closing ∨ e.closed then e
  else { e with goingAway := true, idleTimer := false, closing := true, closeWaits := true }

/-- The connection is closed when it is going away and its last stream has ended. -/
def closeIfUnused : Entry :=
  if e.goingAway ∧ e.streams = [] then e.close else e

def finishStream (s : Stream) (built : Option String) : Entry :=
  if s.done then e
  else
    let resolved := s.resolveResponse built
    let e := e.update s.streamId fun s => s.resolveResponse built
    if resolved.done then e
    else ((e.update s.streamId Stream.finish).delete s.streamId).resetIdleTimer.closeIfUnused

/-- `#failStream` of a stream, and its deletion. -/
def failAndDelete (reason : Reason) : Entry :=
  (e.update streamId (Stream.fail · reason)).delete streamId

/-- `#cancelStream`, up to its wait. -/
def cancelStream (reason : Option Reason) : Entry :=
  match e.get streamId with
  | none => e
  | some s =>
    if s.done then e
    else { e.failAndDelete streamId (reason.getD (.cancelled streamId)) with
      cancels := e.cancels + 1 }

def teardown (reason : Reason) : Entry :=
  if e.closed then e
  else
    let failed := e.streams.foldl (fun e streamId => e.update streamId (Stream.fail · reason)) e
    { failed with closed := true, goingAway := true, idleTimer := false, streams := [] }

def handleGoaway (lastStreamId errorCode : ℕ) : Entry :=
  let e := { e with goingAway := true, idleTimer := false }
  let e := e.streams.foldl (fun e streamId =>
    if lastStreamId < streamId ∧ (e.objects.lookup streamId).elim false (·.done = false) then
      e.failAndDelete streamId (.goaway streamId lastStreamId errorCode)
    else e) e
  if e.streams = [] then e.close else e

/-- `handleFrameRecv`: 0 is `DATA`, 1 `HEADERS`, 7 `GOAWAY`; bit 0 of the flags is `END_STREAM`, bit
2 `END_HEADERS`. -/
def handleFrameRecv (streamId frameType frameFlags : ℕ) (built : Option String) : Entry :=
  if frameType = 7 then e.handleGoaway 0 0
  else
    match e.get streamId with
    | none => e
    | some s =>
      let endStream := frameFlags.testBit 0
      if frameType = 1 then
        if frameFlags.testBit 2 = false then e
        else
          let resolves := s.inTrailers = false ∧ s.status.elim false (200 ≤ ·)
          let s := if resolves then s.resolveResponse built else s
          let e := if resolves then e.update streamId (·.resolveResponse built) else e
          if endStream then e.finishStream s built else e
      else if frameType = 0 ∧ endStream then e.finishStream s built
      else e

def handleDataChunk (o : Options) (e : Entry) (streamId : ℕ) (data : List UInt8) : Entry :=
  match e.get streamId with
  | none => e
  | some s =>
    if s.done then e
    else
      let pushed := s.body.push o.maxBufferedBodyBytes data
      let e := e.update streamId fun s => { s with body := pushed.1 }
      if pushed.2 then e else { e with overruns := e.overruns ++ [streamId] }

def handleStreamClose (streamId errorCode : ℕ) (built : Option String) : Entry :=
  let ended :=
    match e.get streamId with
    | none => e
    | some s =>
      if s.done then e
      else if errorCode = 0 then e.finishStream s built
      else e.update streamId (Stream.fail · (.closed streamId errorCode))
  (ended.delete streamId).resetIdleTimer

/-- `send`, up to its wait. -/
def send (method : String) (hasBody : Bool) (aborted : Option (Option Reason))
    (refused : Option String) : Entry :=
  if e.goingAway ∨ e.closed then e
  else
    let e := e.resetIdleTimer
    match refused with
    | some _ => e
    | none =>
      let streamId := e.nextId
      let registered := { e with
        nextId := e.nextId + 2
        streams := e.streams ++ [streamId]
        objects := e.objects.set streamId
          { streamId, method, hasBody, listening := aborted.isNone
            phase := if aborted.isSome then .cancelling else .draining } }
      match aborted with
      | some reason => registered.cancelStream streamId reason
      | none => registered

def step (o : Options) (e : Entry) : Action → Option Entry
  | .send method hasBody aborted refused => some (e.send method hasBody aborted refused)
  | .sendCancelled streamId reason =>
    (e.objects.lookup streamId).bind fun s =>
      if s.phase = .cancelling then some (e.update streamId (·.settleSend (.rejected reason)))
      else none
  | .sendDrained streamId failed =>
    (e.objects.lookup streamId).bind fun s =>
      if s.phase = .draining then
        some (e.update streamId fun s =>
          match failed with
          | some message => s.settleSend (.rejected (.error message))
          | none => { s with phase := .returned, uploading := s.hasBody })
      else none
  | .sendSettles streamId =>
    (e.objects.lookup streamId).bind fun s =>
      match s.phase, s.responseCalls with
      | .returned, settlement :: _ => some (e.update streamId (·.settleSend settlement))
      | _, _ => none
  | .abort streamId reason =>
    (e.objects.lookup streamId).bind fun s =>
      if s.listening then
        some ((e.update streamId fun s => { s with listening := false }).cancelStream streamId
          reason)
      else none
  | .uploadEnds streamId =>
    (e.objects.lookup streamId).bind fun s =>
      if s.uploading then some (e.update streamId fun s => { s with uploading := false })
      else none
  | .uploadFails streamId message =>
    (e.objects.lookup streamId).bind fun s =>
      if s.uploading then
        let e := e.update streamId fun s => { s with uploading := false }
        some (if s.done then e else e.failAndDelete streamId (.error message))
      else none
  | .beginHeaders streamId isTrailers =>
    some (if streamId ∈ e.streams then e.update streamId (·.beginHeaders isTrailers) else e)
  | .header streamId name value =>
    some (if streamId ∈ e.streams then e.update streamId (·.header name value) else e)
  | .frameRecv streamId frameType frameFlags built =>
    some (e.handleFrameRecv streamId frameType frameFlags built)
  | .dataChunk streamId data => some (e.handleDataChunk o streamId data)
  | .streamClose streamId errorCode built => some (e.handleStreamClose streamId errorCode built)
  | .goaway lastStreamId errorCode => some (e.handleGoaway lastStreamId errorCode)
  | .overrun streamId =>
    if streamId ∈ e.overruns then
      some ({ e with overruns := e.overruns.erase streamId }.cancelStream streamId
        (some (.flowControl (some streamId))))
    else none
  | .cancelEnds =>
    if 0 < e.cancels then
      some { e with cancels := e.cancels - 1 }.resetIdleTimer.closeIfUnused
    else none
  | .bodyNext streamId => some (e.update streamId fun s => { s with body := s.body.next })
  | .bodyCancel streamId reason =>
    (e.objects.lookup streamId).bind fun s =>
      let cancelled := s.body.cancel (reason.getD (.cancelled streamId))
      let e := e.update streamId fun s => { s with body := cancelled.1 }
      some (if cancelled.2 then e.cancelStream streamId reason else e)
  | .close => some e.close
  | .evict => some e.close
  | .idle =>
    if e.idleTimer then some { e with idleTimer := false, goingAway := true }.close else none
  | .closeDrained =>
    if e.closeWaits then some { e with closeWaits := false, closed := true } else none
  | .transportError message => some (e.teardown (.error message))
  | .recvEnd =>
    if e.loopEnded then none
    else some { e.teardown (.error "H2 connection closed") with loopEnded := true }

end Entry

end Fino.Http2
