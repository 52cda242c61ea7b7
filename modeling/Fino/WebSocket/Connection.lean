import Fino.Lib.Transition
import Fino.WebSocket.ReadPump

/-!
# Closing a WebSocket

The connection of `js/net/http/websocket.ts`: calls of the application, what the read pump receives,
and the turns of the write queue. A `CLOSE` frame should be the last one written. But the answer to
a `PING` is queued after a `CLOSE` too, the application may queue more until the echo of a received
`CLOSE` was written, and a protocol failure writes its `CLOSE` before queued frames. Where none of
these happens, `CLOSE` is last (`close_is_last`).
-/

namespace Fino.WebSocket

open Lib Lib.Wire List List.Sublist

inductive ReadyState
  | connecting
  | opened
  | closing
  | closed
deriving DecidableEq

structure OutFrame where
  opcode : Opcode
  payload : List UInt8
deriving DecidableEq

/-- Who has asked for a frame. -/
inductive Origin
  | application
  | close
  | autoPong
  | echo
deriving DecidableEq

structure Operation where
  frame : OutFrame
  origin : Origin
deriving DecidableEq

/-- `#rawWriter`. -/
inductive WriterState
  | absent
  | ready
  | closed
deriving DecidableEq

inductive PumpState
  | off
  | reading
  /-- It waits for the `CLOSE` of a protocol failure. -/
  | failing
  /-- It waits for the echo of a `CLOSE`. -/
  | echoing
  | leaving
  | ended
deriving DecidableEq

/-- `WebSocketConnection`. -/
structure Connection where
  isServer : Bool
  readyState : ReadyState
  closeSent : Bool
  closeReceived : Option (ℕ × String)
  queue : List Operation
  /-- The operation that is run, and whether its frame was written. -/
  active : Option (Operation × Bool)
  writer : WriterState
  pump : PumpState
  /-- `close` waits for the peer or for its timer. -/
  closeWaits : Bool
  /-- The frames that were written. -/
  written : List OutFrame

def Connection.new (isServer : Bool) : Connection where
  isServer := isServer
  readyState := .connecting
  closeSent := false
  closeReceived := none
  queue := []
  active := none
  writer := .absent
  pump := .off
  closeWaits := false
  written := []

inductive Action
  /-- The handshake is done, or has failed. -/
  | attach
  | connectFailed
  /-- Calls of the application. -/
  | send (binary : Bool) (payload : List UInt8)
  | ping (payload : List UInt8)
  | pong (payload : List UInt8)
  | close (code : ℕ) (reason : String)
  /-- The read pump has received something, or its reader ends. -/
  | receive (received : Received)
  | eof
  /-- The queue begins with its next operation, the operation writes, and ends. -/
  | start
  | write
  | finish
  /-- The `CLOSE` of a protocol failure was flushed. -/
  | flushed
  /-- The read pump ends. -/
  | leave
  /-- The timer of `close`. -/
  | timeout

namespace Connection

variable (s : Connection)

def enqueue (opcode : Opcode) (payload : List UInt8) (origin : Origin) : Connection :=
  { s with queue := s.queue ++ [⟨⟨opcode, payload⟩, origin⟩] }

/-- The payload of a `CLOSE`. -/
def closePayload (code : ℕ) (reason : List UInt8) : List UInt8 :=
  UInt8.ofNat (code / 256 % 256) :: UInt8.ofNat (code % 256) :: reason

def teardown : Connection :=
  { s with
    readyState := .closed
    writer := if s.writer = .ready then .closed else s.writer }

/-- `ping` and `pong`. -/
def control (opcode : Opcode) (payload : List UInt8) : Connection :=
  if s.readyState = .opened ∧ payload.length ≤ 125 then s.enqueue opcode payload .application
  else s

/-- `close`. -/
def startClose (code : ℕ) (reason : String) : Connection :=
  if s.readyState = .closing ∨ s.readyState = .closed then s
  else if code ≠ 1000 ∧ ¬ (3000 ≤ code ∧ code ≤ 4999) then s
  else if 123 < (utf8 reason).length then s
  else { s with readyState := .closing, closeSent := true }.enqueue .close
    (closePayload code (utf8 reason)) .close

/-- `#failProtocol`, up to the flush. -/
def failProtocol (code : ℕ) (reason : String) : Connection :=
  if s.closeSent = true ∨ s.readyState = .closed then { s with pump := .leaving }
  else
    let failing := { s with closeSent := true, readyState := .closing }
    if s.writer = .ready then
      { failing with
        pump := .failing
        written := s.written ++
          [⟨.close, closePayload code (utf8 (String.ofList (reason.toList.take 123)))⟩] }
    else { failing with pump := .leaving }

/-- What the read pump does about what it receives. -/
def receive : Received → Connection
  | .ping payload => s.enqueue .pong payload .autoPong
  | .pong => s
  | .text _ => s
  | .binary _ => s
  | .failed code reason => s.failProtocol code reason
  | .close code reason payload =>
    if s.closeSent = true then { s with closeReceived := some (code, reason), pump := .leaving }
    else { s with
      closeReceived := some (code, reason)
      closeSent := true
      pump := .echoing }.enqueue .close (payload.take 125) .echo

def settle (op : Operation) (ok : Bool) : Connection :=
  { s with
    active := none
    pump := if op.origin = .echo then .leaving else s.pump
    closeWaits := (op.origin = .close && ok) || s.closeWaits }

def step : Action → Option Connection
  | .attach =>
    if s.writer = .absent ∧ s.pump = .off ∧ (s.isServer = true ∨ s.readyState ≠ .closed) then
      some { s with readyState := .opened, writer := .ready, pump := .reading }
    else none
  | .connectFailed => if s.writer = .absent ∧ s.pump = .off then some s.teardown else none
  | .send binary payload =>
    some (if s.readyState = .opened then
      s.enqueue (if binary then .binary else .text) payload .application else s)
  | .ping payload => some (s.control .ping payload)
  | .pong payload => some (s.control .pong payload)
  | .close code reason => some (s.startClose code reason)
  | .receive received => if s.pump = .reading then some (s.receive received) else none
  | .eof => if s.pump = .reading then some { s with pump := .leaving } else none
  | .start =>
    match s.active, s.queue with
    | none, op :: queue => some { s with active := some (op, false), queue := queue }
    | _, _ => none
  | .write =>
    match s.active with
    | some (op, false) =>
      some (if s.writer = .ready then
        { s with active := some (op, true), written := s.written ++ [op.frame] }
      else s.settle op false)
    | _ => none
  | .finish =>
    match s.active with
    | some (op, true) => some (s.settle op true)
    | _ => none
  | .flushed => if s.pump = .failing then some { s with pump := .leaving } else none
  | .leave => if s.pump = .leaving then some { s.teardown with pump := .ended } else none
  | .timeout =>
    if s.closeWaits = true then
      some { (if s.readyState = .closed then s else s.teardown) with closeWaits := false }
    else none

/-! ## The frames in their order -/

def pending : List OutFrame :=
  (s.active.elim [] fun active => if active.2 = true then [] else [active.1.frame]) ++
    s.queue.map Operation.frame

/-- All frames in the order in which they are written. -/
def line : List OutFrame := s.written ++ s.pending

/-- At most one `CLOSE` was written, and nothing after it. -/
def CloseIsLast (written : List OutFrame) : Prop :=
  (written.filter fun frame => frame.opcode = .close).length ≤ 1 ∧
    ∀ before frame after, written = before ++ frame :: after → frame.opcode = .close → after = []

/-- No frame that another one follows is a `CLOSE`. -/
def Ordered (frames : List OutFrame) : Prop :=
  frames.Pairwise fun earlier _ => earlier.opcode ≠ .close

lemma closeIsLast_of_ordered {written : List OutFrame} (h : Ordered written) :
    CloseIsLast written := by
  constructor
  · have hclose : (written.filter fun frame => frame.opcode = .close).Pairwise
        fun earlier _ => earlier.opcode ≠ .close := h.filter _
    match hfilter : written.filter fun frame => frame.opcode = .close with
    | [] | [_] => simp [hfilter]
    | first :: second :: more =>
      rw [hfilter] at hclose
      have hfirst : first ∈ written.filter fun frame => frame.opcode = .close := by
        rw [hfilter]
        exact mem_cons_self
      have hopcode : first.opcode = .close := by simpa using (mem_filter.mp hfirst).2
      exact absurd hopcode (rel_of_pairwise_cons hclose mem_cons_self)
  · rintro before frame after rfl hopcode
    have hafter : (frame :: after).Pairwise fun earlier _ => earlier.opcode ≠ .close :=
      (pairwise_append.mp h).2.1
    refine eq_nil_iff_forall_not_mem.mpr fun later hlater => ?_
    exact rel_of_pairwise_cons hafter hlater hopcode

/-- The application asks for nothing while the echo of a `CLOSE` is on its way, no `PING` is
received once a `CLOSE` was queued, and a protocol failure finds nothing queued. -/
def Allowed : Action → Prop
  | .send _ _ | .ping _ | .pong _ | .close _ _ =>
    s.readyState = .closing ∨ s.readyState = .closed ∨ s.closeSent = false
  | .receive (.ping _) => s.closeSent = false
  | .receive (.failed _ _) => s.closeSent = true ∨ s.readyState = .closed ∨ s.pending = []
  | _ => True

instance (s : Connection) (a : Action) : Decidable (Allowed s a) := by
  unfold Allowed
  split <;> infer_instance

/-- What a step does to the line of frames that are written or queued. -/
inductive Moves (s t : Connection) : Prop
  /-- Frames are written, or are left out. -/
  | keeps (line : t.line.Sublist s.line) (closeSent : t.closeSent = false → s.closeSent = false)
  /-- A frame is added, and no `CLOSE` was before it. -/
  | adds (frame : OutFrame) (line : t.line = s.line ++ [frame]) (before : s.closeSent = false)
      (after : t.closeSent = false → frame.opcode ≠ .close)

lemma line_enqueue (opcode : Opcode) (payload : List UInt8) (origin : Origin) :
    (s.enqueue opcode payload origin).line = s.line ++ [⟨opcode, payload⟩] := by
  simp [line, pending, enqueue]

variable {s t : Connection} {opcode : Opcode} {a : Action}

lemma Moves.of_eq (hline : t.line = s.line) (hclose : t.closeSent = false → s.closeSent = false) :
    Moves s t :=
  .keeps (hline ▸ refl _) hclose

lemma Moves.of_enqueue (h : opcode ≠ .close) (hclose : s.closeSent = false) (payload : List UInt8)
    (origin : Origin) :
    Moves s (s.enqueue opcode payload origin) :=
  .adds _ (line_enqueue _ _ _ _) hclose fun _ => h

lemma moves_control (h : opcode ≠ .close) (payload : List UInt8)
    (hok : s.readyState = .closing ∨ s.readyState = .closed ∨ s.closeSent = false) :
    Moves s (s.control opcode payload) := by
  rw [control]
  split_ifs with hopen
  · exact .of_enqueue h (by simpa [hopen.1] using hok) _ _
  · exact .of_eq rfl id

lemma moves_startClose (code : ℕ) (reason : String)
    (hok : s.readyState = .closing ∨ s.readyState = .closed ∨ s.closeSent = false) :
    Moves s (s.startClose code reason) := by
  rw [startClose]
  split_ifs with hstate
  · exact .of_eq rfl id
  · exact .of_eq rfl id
  · exact .of_eq rfl id
  · have hclose : s.closeSent = false :=
      hok.elim (absurd · (hstate ∘ .inl)) (·.elim (absurd · (hstate ∘ .inr)) id)
    exact .adds _ (line_enqueue _ _ _ _) hclose (by simp [enqueue])

lemma moves_failProtocol (code : ℕ) (reason : String)
    (hok : s.closeSent ∨ s.readyState = .closed ∨ s.pending = []) :
    Moves s (s.failProtocol code reason) := by
  rw [failProtocol]
  by_cases hsent : s.closeSent ∨ s.readyState = .closed
  · rw [if_pos hsent]
    exact .of_eq rfl id
  · rw [if_neg hsent]
    have hclose : s.closeSent = false := Bool.eq_false_iff.mpr (hsent ∘ .inl)
    have hpending : s.pending = [] :=
      hok.elim (absurd · (hsent ∘ .inl)) (·.elim (absurd · (hsent ∘ .inr)) id)
    split_ifs
    · -- The frame is written at once, with nothing before it in the queue.
      refine .adds ⟨.close, closePayload code (utf8 (String.ofList (reason.toList.take 123)))⟩ ?_
        hclose (by simp)
      rw [line, line, hpending, append_nil]
      exact (congrArg _ hpending).trans (append_nil _)
    · exact .of_eq rfl (by simp)

lemma moves_receive (received : Received) (hok : s.Allowed (.receive received)) :
    Moves s (s.receive received) := by
  cases received with
  | ping payload => exact .of_enqueue (by simp) hok _ _
  | pong | text value | binary value => exact .of_eq rfl id
  | failed code reason => exact moves_failProtocol code reason hok
  | close code reason payload =>
    rw [receive]
    split_ifs with hsent
    · exact .of_eq rfl id
    · exact .adds _ (line_enqueue _ _ _ _) (Bool.eq_false_iff.mpr hsent) (by simp [enqueue])

lemma moves_write (h : s.step .write = some t) : Moves s t := by
  rw [step] at h
  split at h
  · next op hactive =>
    cases h
    split_ifs
    · exact .of_eq (by simp [line, pending, hactive]) id
    · -- The frame of an operation that fails is left out.
      refine .keeps ?_ id
      exact append (refl _) (append (nil_sublist _) (refl _))
  · cases h

lemma moves_of_step (hok : s.Allowed a) (h : s.step a = some t) : Moves s t := by
  cases a with
  | attach | connectFailed | eof | flushed | leave =>
    rw [step] at h
    split_ifs at h
    cases h
    exact .of_eq rfl id
  | send binary payload =>
    cases h
    split_ifs with hopen hbinary
    · exact .of_enqueue (by simp) (by simpa [Allowed, hopen] using hok) _ _
    · exact .of_enqueue (by simp) (by simpa [Allowed, hopen] using hok) _ _
    · exact .of_eq rfl id
  | ping payload | pong payload =>
    cases h
    exact moves_control (by simp) payload hok
  | close code reason =>
    cases h
    exact moves_startClose code reason hok
  | receive received =>
    rw [step] at h
    split_ifs at h
    cases h
    exact moves_receive received hok
  | start =>
    rw [step] at h
    split at h
    · next op queue hactive hqueue =>
      cases h
      exact .of_eq (by simp [line, pending, hactive, hqueue]) id
    · cases h
  | write => exact moves_write h
  | finish =>
    rw [step] at h
    split at h
    · next op hactive =>
      cases h
      exact .of_eq (by simp [line, pending, settle, hactive]) id
    · cases h
  | timeout =>
    rw [step] at h
    split_ifs at h
    all_goals
      cases h
      exact .of_eq rfl id

/-! ## Every run -/

/-- Only the last frame of the line may be a `CLOSE`, and only when `#closeSent` is set. -/
structure InOrder (s : Connection) : Prop where
  ordered : Ordered s.line
  noClose : s.closeSent = false → ∀ frame ∈ s.line, frame.opcode ≠ .close

lemma inOrder_step (hs : InOrder s) (hok : s.Allowed a) (h : s.step a = some t) : InOrder t := by
  cases moves_of_step hok h with
  | keeps hline hclose =>
    exact ⟨List.Pairwise.sublist hline hs.ordered,
      fun ht frame hframe => hs.noClose (hclose ht) frame (hline.subset hframe)⟩
  | adds last hline hbefore hafter =>
    have hnone := hs.noClose hbefore
    refine ⟨?_, fun ht frame hframe => ?_⟩
    · rw [hline]
      exact pairwise_append.mpr
        ⟨hs.ordered, pairwise_singleton _ _, fun frame hframe _ _ => hnone frame hframe⟩
    · rw [hline, mem_append, mem_singleton] at hframe
      rcases hframe with hframe | rfl
      · exact hnone frame hframe
      · exact hafter ht

/-- In every run of allowed steps at most one `CLOSE` is written, and it is the last frame. -/
theorem close_is_last (isServer : Bool) (t : Connection)
    (h : Run step Allowed (Connection.new isServer) t) : CloseIsLast t.written := by
  have hnew : InOrder (Connection.new isServer) := ⟨List.Pairwise.nil, by simp [line, pending, new]⟩
  have ht : InOrder t := h.invariant (fun s a u hs hok hstep => inOrder_step hs hok hstep) hnew
  exact closeIsLast_of_ordered (List.Pairwise.sublist (sublist_append_left _ _) ht.ordered)

/-- A server that sends a message and closes. -/
theorem served_close_is_last :
    ∃ t, Run step Allowed (.new true) t ∧
      t.written.map OutFrame.opcode = [.text, .pong, .close] ∧ CloseIsLast t.written := by
  have ht : ((exec (restrict step Allowed) (.new true)
      [.attach, .send false [104, 105], .receive (.ping [1]), .close 1000 "", .start, .write,
        .finish, .start, .write, .finish, .start, .write, .finish,
        .receive (.close 1000 "" [3, 232]), .leave]).bind fun t =>
      some (t.written.map OutFrame.opcode)) = some [.text, .pong, .close] := by
    decide +kernel
  obtain ⟨t, -, hrun, hwritten⟩ := Run.exists_of_exec ht
  exact ⟨t, hrun, Option.some.inj hwritten, close_is_last true t hrun⟩

/-- A `PONG` after the `CLOSE` of the application, a message or a second `CLOSE` after an echo, and
a message after the `CLOSE` of a protocol failure. -/
theorem frames_after_close :
    ((exec step (.new true)
      [.attach, .close 1000 "", .receive (.ping [1]), .start, .write, .finish, .start,
        .write]).map fun t => t.written.map OutFrame.opcode) = some [.close, .pong] ∧
    ((exec step (.new true)
      [.attach, .receive (.close 1000 "" [3, 232]), .start, .write, .send false [104, 105],
        .finish, .start, .write]).map
          fun t => t.written.map OutFrame.opcode) = some [.close, .text] ∧
    ((exec step (.new true)
      [.attach, .receive (.close 1000 "" [3, 232]), .start, .write, .close 1000 "", .finish,
        .start, .write]).map fun t => t.written.map OutFrame.opcode) = some [.close, .close] ∧
    ((exec step (.new true)
      [.attach, .send false [104, 105], .start, .write, .send false [104, 111],
        .receive (.failed 1002 "Unexpected RSV bits"), .finish, .start, .write]).map
          fun t => t.written.map OutFrame.opcode) = some [.text, .close, .text] := by
  decide +kernel

end Connection

end Fino.WebSocket
