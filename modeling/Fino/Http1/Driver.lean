import Mathlib.Data.List.Range
import Mathlib.Data.List.Nodup
import Fino.Lib.Transition

/-!
# The HTTP/1 server driver

`H1ServerDriver.run` serves one connection with a read pump that parses pipelined requests, a
handler for each, and a flush that writes the queued responses. An action is what one of them does
between two awaits. A sequence number is a position in `exchanges`, and `pending` holds the queued
entries from `nextWriteSeq` on. What goes out is the list of the writes: interim responses, and the
writes of a response (a streamed body has one for each chunk).
-/

namespace Fino.Http1

/-- One write to the connection. -/
inductive Piece
  | interim (seq : ℕ)
  | final (seq part : ℕ)
deriving DecidableEq

def Piece.seq : Piece → ℕ
  | .interim i | .final i _ => i

/-- `PendingEntry`; of a prepared response its writes, whether it closes, and `closeAfter`. -/
inductive PendingEntry
  | response (writes : ℕ) (saysClose closeAfter : Bool)
  | upgrade
deriving DecidableEq

/-- How far the pump or the handler of a request is. -/
inductive Phase
  /-- The pump awaits the write of the interim response, or `makeCloseResponse`. -/
  | opening
  | handling
  /-- The response is there, `close` for `Connection: close`; the body is drained. -/
  | draining (close : Bool)
  | preparing
  | queued (entry : PendingEntry)
deriving DecidableEq

/-- A request with a sequence number. `late` is `drainAfterQueue`. -/
structure Exchange where
  expects : Bool := false
  keepAlive : Bool := true
  hasBody : Bool := false
  late : Bool := false
  phase : Phase := .opening
deriving DecidableEq

/-- What the read pump awaits. -/
inductive Pump
  | idle
  | parsing (bufferedOnly : Bool)
  | continuing (seq : ℕ) (keepAlive hasBody : Bool)
  | closing (seq : ℕ)
deriving DecidableEq

/-- The request that the pump has numbered and not handed over. -/
def Pump.seq? : Pump → Option ℕ
  | .continuing q _ _ | .closing q => some q
  | _ => none

/-- `flushResponses`: the writes of the batch that are left, or a takeover. -/
inductive Flush
  | idle
  | writing (rest : List Piece) (closeAfter : Bool)
  | takingOver
deriving DecidableEq

structure Options where
  maxConcurrent : ℕ
  idleTimeoutMs : ℕ := 0
  headersTimeoutMs : ℕ := 0
  allowH2cUpgrade : Bool := false

/-- The variables of `run`; `stopAfterSeq` is `none` for infinity. -/
structure Driver where
  exchanges : List Exchange := []
  nextWriteSeq : ℕ := 0
  inFlight : ℕ := 0
  bodyDrainCount : ℕ := 0
  readPumpActive : Bool := false
  parserDone : Bool := false
  connectionFailed : Bool := false
  stopped : Bool := false
  stopAfterSeq : Option ℕ := none
  pump : Pump := .idle
  flush : Flush := .idle
  written : List Piece := []
deriving DecidableEq

/-- The `Expect` header of a request: absent, `100-continue`, or anything else. -/
inductive Expect
  | absent
  | continue
  | other
deriving DecidableEq

/-- What `parseNextWithTimeout` comes back with. -/
inductive Parsed
  | failed
  | idleTimeout
  | headersTimeout
  | nothing
  | h2c
  | request (expect : Expect) (keepAlive hasBody : Bool)
deriving DecidableEq

inductive Action
  | pumpReads
  | parsed (p : Parsed)
  | interimSent (ok : Bool)
  | closeResponse
  /-- The handler returns a takeover. -/
  | takeover (seq : ℕ)
  /-- The handler returns a response, closing or not, or throws (`none`). -/
  | responds (seq : ℕ) (close : Option Bool) (bodyUsed : Bool)
  | drained (seq : ℕ) (ok : Bool)
  /-- `_prepareResponse` returns, with the writes the response will take, or throws. -/
  | prepared (seq : ℕ) (writes : Option ℕ)
  | lateDrained (seq : ℕ) (ok : Bool)
  | flushResponses
  | write
  | flushed
  | writeFails
  | tookOver
  | stop

/-- The exchange whose handler acts. -/
def Action.seq? : Action → Option ℕ
  | .takeover q | .responds q _ _ | .drained q _ | .prepared q _ | .lateDrained q _ => some q
  | _ => none

/-- The writes that the response of an exchange takes, once there is one. -/
def Exchange.writes (e : Exchange) : ℕ :=
  match e.phase with
  | .queued (.response n _ _) => n
  | _ => 0

/-- Whether a response with `Connection: close` is queued or written. -/
def Exchange.saysClose (e : Exchange) : Bool :=
  match e.phase with
  | .queued (.response _ close _) => close
  | _ => false

namespace Driver

variable (s : Driver)

def nextSeq : ℕ :=
  s.exchanges.length

variable (seq : ℕ)

/-- `pending.has(seq)`, for the entries that have not been taken. -/
def has : Bool :=
  s.nextWriteSeq ≤ seq && s.exchanges[seq]?.any fun e => e.phase matches .queued _

def hasReadyResponses : Bool :=
  s.has s.nextWriteSeq

variable (o : Options)

def shouldReadMore (s : Driver) : Bool :=
  !s.parserDone && !s.connectionFailed && s.bodyDrainCount == 0 &&
    (s.readPumpActive || s.inFlight == 0) && s.stopAfterSeq.all (s.nextSeq < ·) &&
    s.nextSeq - s.nextWriteSeq < o.maxConcurrent

def shouldStop : Bool :=
  s.connectionFailed || (s.parserDone && s.inFlight == 0 &&
    (List.range s.nextSeq).all (!s.has ·) && !s.readPumpActive && s.flush == .idle)

/-- `if (!keepAlive && seq < stopAfterSeq) stopAfterSeq = seq`. -/
def stopAt (keepAlive : Bool) : Driver :=
  { s with
    stopAfterSeq :=
      if keepAlive then s.stopAfterSeq else some (s.stopAfterSeq.elim seq (min seq)) }

/-- The `finally` of `pumpReads`. -/
def endPump : Driver :=
  { s with pump := .idle, readPumpActive := false }

variable (e : Exchange)

/-- A request gets its number; the interim response is written at once. -/
def push : Driver :=
  { s with
    exchanges := s.exchanges ++ [e]
    written := s.written ++ if e.expects then [.interim s.nextSeq] else [] }

def put : Driver :=
  { s with exchanges := s.exchanges.set seq e }

/-- The handler is started, and the pump goes on to buffered requests unless there is a body. -/
def dispatch (s : Driver) (seq : ℕ) (keepAlive hasBody : Bool) : Driver :=
  let s := s.stopAt seq keepAlive
  let s := { s with inFlight := s.inFlight + 1, bodyDrainCount := s.bodyDrainCount + hasBody.toNat }
  if !hasBody && s.shouldReadMore o then { s with pump := .parsing true } else s.endPump

/-- The pump's turn after the parser, up to its next await. -/
def onParsed (s : Driver) : Parsed → Driver
  | .failed | .idleTimeout => { s.endPump with parserDone := true }
  | .nothing => s.endPump
  | .headersTimeout | .request .other _ _ =>
    { s.push { keepAlive := false } with
      stopAfterSeq := some s.nextSeq, parserDone := true, pump := .closing s.nextSeq }
  | .h2c =>
    { (s.push { phase := .queued .upgrade }).endPump with
      stopAfterSeq := some s.nextSeq, parserDone := true }
  | .request .continue keepAlive hasBody =>
    { s.push { expects := true } with pump := .continuing s.nextSeq keepAlive hasBody }
  | .request .absent keepAlive hasBody =>
    (s.push { keepAlive, hasBody, phase := .handling }).dispatch o s.nextSeq keepAlive hasBody

/-- A timeout is possible only where one is set, `null` only from the buffer. -/
def CanParse (s : Driver) (bufferedOnly : Bool) : Parsed → Prop
  | .idleTimeout => bufferedOnly = false ∧ 0 < s.nextSeq ∧ 0 < o.idleTimeoutMs
  | .headersTimeout => bufferedOnly = false ∧ (s.nextSeq = 0 ∨ o.idleTimeoutMs = 0) ∧
      0 < o.headersTimeoutMs
  | .nothing => bufferedOnly = true
  | .h2c => o.allowH2cUpgrade = true
  | _ => True

instance (o : Options) (s : Driver) (b : Bool) (p : Parsed) : Decidable (CanParse o s b p) := by
  cases p <;> unfold CanParse <;> infer_instance

/-- `keepAlive` is settled before the response is prepared. -/
def decideClose (keepAlive : Bool) : Driver :=
  (s.put seq { e with keepAlive, phase := .preparing }).stopAt seq keepAlive

/-- The entries that `flushResponses` takes for a batch, and the last `closeAfter`. -/
def batch : ℕ → List Exchange → ℕ × Bool
  | room + 1, e :: es =>
    match e.phase with
    | .queued (.response _ _ true) => (1, true)
    | .queued (.response _ _ false) => ((batch room es).1 + 1, (batch room es).2)
    | _ => (0, false)
  | _, _ => (0, false)

/-- The interim response of a request, if it was asked for. -/
def interim : List Piece :=
  if s.exchanges[seq]?.any (·.expects) then [.interim seq] else []

/-- The writes of the response to a request. -/
def final : List Piece :=
  (List.range (s.exchanges[seq]?.elim 0 Exchange.writes)).map (.final seq)

/-- The start of a turn of `flushResponses`: an upgrade or a batch is taken. -/
def take (s : Driver) : Driver :=
  match s.exchanges[s.nextWriteSeq]?.map Exchange.phase with
  | some (.queued .upgrade) => { s with nextWriteSeq := s.nextWriteSeq + 1, flush := .takingOver }
  | _ =>
    let (n, closeAfter) := batch (max 1 o.maxConcurrent) (s.exchanges.drop s.nextWriteSeq)
    { s with
      nextWriteSeq := s.nextWriteSeq + n
      flush := .writing ((List.range' s.nextWriteSeq n).flatMap s.final) closeAfter }

/-- What the handler of the exchange `e` does between two awaits. -/
def onHandler : Action → Option Driver
  | .takeover _ =>
    if e.phase = .handling then
      some { (s.put seq { e with phase := .queued .upgrade }).stopAt seq false with
        parserDone := true
        readPumpActive := false
        bodyDrainCount := s.bodyDrainCount - e.hasBody.toNat
        inFlight := s.inFlight - 1 }
    else none
  | .responds _ close bodyUsed =>
    if e.phase = .handling then
      if close.isNone && e.hasBody && !bodyUsed then
        some (s.decideClose seq { e with late := true } e.keepAlive)
      else some (s.put seq { e with phase := .draining (close.getD false) })
    else none
  | .drained _ ok =>
    match e.phase with
    | .draining close =>
      some { s.decideClose seq e (e.keepAlive && ok && !close) with
        bodyDrainCount := s.bodyDrainCount - e.hasBody.toNat }
    | _ => none
  | .prepared _ writes =>
    if e.phase = .preparing then
      let inFlight := if e.late then s.inFlight else s.inFlight - 1
      match writes with
      | some n =>
        some { s.put seq { e with
          phase := .queued (.response n (!e.keepAlive) (!e.keepAlive)) } with inFlight }
      | none =>
        some { (s.put seq { e with
          keepAlive := false
          phase := .queued (.response 1 true true) }).stopAt seq false with inFlight }
    else none
  | .lateDrained _ ok =>
    match e.late, e.phase with
    | true, .queued entry =>
      -- An entry that has been taken is no longer in `pending`, and keeps its `closeAfter`.
      let entry := match entry with
        | .response n c after => .response n c (after || (!ok && s.nextWriteSeq ≤ seq))
        | .upgrade => .upgrade
      some { (s.put seq { e with late := false, phase := .queued entry }).stopAt seq ok with
        bodyDrainCount := s.bodyDrainCount - 1, inFlight := s.inFlight - 1 }
    | _, _ => none
  | _ => none

/-- The transitions. -/
def step (s : Driver) : Action → Option Driver
  | .pumpReads =>
    if !s.stopped && !s.readPumpActive && s.shouldReadMore o then
      some { s with readPumpActive := true, pump := .parsing false }
    else none
  | .parsed p =>
    match s.pump with
    | .parsing bufferedOnly => if CanParse o s bufferedOnly p then some (s.onParsed o p) else none
    | _ => none
  | .interimSent ok =>
    match s.pump with
    | .continuing seq keepAlive hasBody =>
      if ok then
        (s.exchanges[seq]?).map fun e =>
          (s.put seq { e with keepAlive, hasBody, phase := .handling }).dispatch o seq keepAlive
            hasBody
      else some s.endPump
    | _ => none
  | .closeResponse =>
    match s.pump with
    | .closing seq => (s.exchanges[seq]?).map fun e =>
        (s.put seq { e with phase := .queued (.response 1 true true) }).endPump
    | _ => none
  | .flushResponses =>
    if !s.stopped && s.flush == .idle && s.hasReadyResponses then some (s.take o) else none
  | .write =>
    match s.flush with
    | .writing (p :: rest) closeAfter =>
      some { s with written := s.written ++ [p], flush := .writing rest closeAfter }
    | _ => none
  -- The loop's next turn is the next `flushResponses`.
  | .flushed =>
    match s.flush with
    | .writing [] closeAfter =>
      some { s with flush := .idle, parserDone := s.parserDone || closeAfter }
    | _ => none
  | .writeFails =>
    match s.flush with
    | .writing _ _ => some { s with flush := .idle, connectionFailed := true }
    | _ => none
  | .tookOver => if s.flush = .takingOver then some { s with flush := .idle } else none
  | .stop => if !s.stopped && s.shouldStop then some { s with stopped := true } else none
  | a => a.seq?.bind fun seq => (s.exchanges[seq]?).bind (s.onHandler seq · a)

end Driver

end Fino.Http1
