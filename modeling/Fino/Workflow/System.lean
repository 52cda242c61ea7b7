import Fino.Lib.Transition
import Fino.Workflow.Runtime

/-!
# A run and everyone who works on it

Calls of several parties on one run id, interleaved at the operations of the store: handles that
start, resume, drive and cancel the run, drives with concurrent checkpoint calls, and `signal`
calls. A state `Sys` has the stored record, the `#state` of each handle, the drives, and the calls
that have read the store and not gone on. An action is one synchronous segment; a write takes effect
in the segment that issues it. The body of a drive may make any call at any time, also after its
drive has ended. A crashed drive takes no more steps; `drop` removes it.

`Step` says what each action can do and is all that the proofs use; `Step.all` says it of the
snapshots, each of which was there before or is made by an operation of `Derives`.
-/

namespace Fino.Workflow

open Lib Option SparseArray

variable {V : Type}

/-- A checkpoint call of a body. `ctx.call` is a `step` once its input is validated. -/
inductive Request
  | step (id : String)
  | sleep (now : Time) (id : String) (duration : Duration)
  | waitForSignal (now : Time) (name : String) (timeout : Option Duration)

def Request.id : Request → String
  | .step id => id
  | .sleep _ id _ => id
  | .waitForSignal _ name _ => name

/-- Whether a call is a `step`: the kind that never pauses the run, and the one that compares
ids. -/
def Request.isStep : Request → Bool
  | .step _ => true
  | _ => false

def Request.first (rt : WorkflowRuntime V) : Request → WorkflowRuntime V × Call V
  | .step id => rt.step id
  | .sleep now id duration => rt.sleep now id duration
  | .waitForSignal now name timeout => rt.waitForSignal now name timeout

/-- A call of `#complete` that has not persisted yet. -/
structure Completion (V : Type) where
  index : ℕ
  id : String
  result : Option V
  taken : Option (WorkflowSignal V)

/-- The `#drive` of a handle and its `WorkflowRuntime`. `captured` is the variable `state` of
`#drive`, `running` the steps whose function runs, and `queue` the calls of `#complete`; the one in
`active` has read the store. -/
structure Drive (V : Type) where
  handle : ℕ
  runtime : WorkflowRuntime V
  captured : WorkflowState V
  running : List (ℕ × String)
  queue : List (Completion V)
  active : Option (Completion V × Option (WorkflowState V))
  ended : Bool

def Drive.begin (handle : ℕ) (workflowId : String) (st : WorkflowState V) : Drive V where
  handle := handle
  runtime := ⟨workflowId, 0, st⟩
  captured := st
  running := []
  queue := []
  active := none
  ended := false

def Drive.after (drive : Drive V) (first : WorkflowRuntime V × Call V) : Drive V :=
  match first.2 with
  | .returned _ | .threw _ | .parked => { drive with runtime := first.1 }
  | .runs index id => { drive with runtime := first.1, running := drive.running ++ [(index, id)] }
  | .completes index id result taken =>
    { drive with runtime := first.1, queue := drive.queue ++ [⟨index, id, result, taken⟩] }

/-- The function of a step has ended: with a value, which is to be recorded, or with an error. -/
def Drive.stepEnds (drive : Drive V) (index : ℕ) (id : String) (reply : Except JsError (Option V)) :
    Drive V :=
  let running := drive.running.erase (index, id)
  match reply with
  | .ok value =>
    { drive with running := running, queue := drive.queue ++ [⟨index, id, value, none⟩] }
  | .error _ => { drive with running := running }

/-- The drive when `#complete` has built the state `next` and passed it to the checkpoint
callback. -/
def Drive.completed (drive : Drive V) (next : WorkflowState V) : Drive V :=
  { drive with runtime := { drive.runtime with state := next }, captured := next, active := none }

/-- The drive waits for nothing. -/
def Drive.Idle (drive : Drive V) : Prop :=
  drive.running = [] ∧ drive.queue = [] ∧ drive.active.isNone

instance (drive : Drive V) : Decidable drive.Idle := inferInstanceAs (Decidable (_ ∧ _ ∧ _))

/-- The drive has ended, and nothing of its body's calls is under way. -/
def Drive.Over (drive : Drive V) : Prop := drive.ended = true ∧ drive.Idle

instance (drive : Drive V) : Decidable drive.Over := inferInstanceAs (Decidable (_ ∧ _))

/-! ## The system -/

/-- A call that has read the store and has not gone on yet. -/
inductive Pending (V : Type)
  | resume (handle : ℕ) (workflowId : String) (read : Option (WorkflowState V))
  | cancel (handle : ℕ) (read : Option (WorkflowState V))
  | signal (name : String) (payload : Option V) (read : Option (WorkflowState V))

def Pending.read : Pending V → Option (WorkflowState V)
  | .resume _ _ read | .cancel _ read | .signal _ _ read => read

/-- The record in the store under the run id, the `#state` of each handle that has one, the drives,
and the pending calls. -/
structure Sys (V : Type) where
  store : Option (WorkflowState V)
  handles : SparseArray (WorkflowState V)
  drives : SparseArray (Drive V)
  calls : SparseArray (Pending V)

def Sys.empty : Sys V := ⟨none, [], [], []⟩

/-- One synchronous segment of one party. An action that creates a drive, handle or call chooses its
number. -/
inductive Action (V : Type)
  /-- `start`, up to the body's first call. -/
  | start (handle drive : ℕ) (workflowId : String) (now : Time) (input : Option V)
      (key : Option String)
  /-- `resume` reads the store. -/
  | resumeGet (call handle : ℕ) (workflowId : String)
  /-- `resume` goes on, up to the body's first call. -/
  | resumeRun (call drive : ℕ)
  /-- A body writes to its bag. -/
  | write (drive : ℕ) (w : BagWrite V)
  /-- A body makes a checkpoint call. -/
  | request (drive : ℕ) (req : Request)
  /-- The function of a step ends. -/
  | stepEnds (drive index : ℕ) (id : String) (reply : Except JsError (Option V))
  /-- The executor takes the next completion, and `#complete` reads the store. -/
  | completeGet (drive : ℕ)
  /-- `#complete` persists its checkpoint. -/
  | completeSet (drive : ℕ) (now : Time)
  /-- The body has ended, and `#drive` saves the run. -/
  | settle (drive : ℕ) (now : Time) (outcome : Except JsError (Option V))
  /-- `cancel` on a handle that has a state. -/
  | cancel (handle : ℕ) (now : Time)
  /-- `cancel` on a handle without one reads the store. -/
  | cancelGet (call handle : ℕ)
  /-- `cancel` goes on with what it read. -/
  | cancelSet (call : ℕ) (now : Time)
  /-- `signal` reads the store. -/
  | signalGet (call : ℕ) (name : String) (payload : Option V)
  /-- `signal` goes on with what it read. -/
  | signalSet (call : ℕ) (now : Time)
  /-- A drive is gone. -/
  | drop (drive : ℕ)
  /-- A pending call is gone. -/
  | dropCall (call : ℕ)

/-- What `resume` leaves in `#state`, after its read: nothing when it throws before it sets it. -/
def resumeHandle : Option (WorkflowState V) → Option (WorkflowState V)
  | none => none
  | some loaded =>
    if loaded.status = .cancelled then none
    else if loaded.status = .done then some loaded
    else some loaded.resumed

/-- The system with a new `#state` of a handle, if there is one. -/
def Sys.setHandle (s : Sys V) (handle : ℕ) : Option (WorkflowState V) → Sys V
  | none => s
  | some st => { s with handles := s.handles.set handle st }

/-- The system after a call of a body: a call that pauses the run persists the runtime's state. -/
def Sys.afterCall (s : Sys V) (d : ℕ) (drive : Drive V) (first : WorkflowRuntime V × Call V) :
    Sys V :=
  { s with
    store := match first.2 with
      | .parked => some first.1.state
      | _ => s.store
    drives := s.drives.set d (drive.after first) }

/-- The state that a segment leads to, or `none` if the party is not there. -/
def step (runId : String) (s : Sys V) : Action V → Option (Sys V)
  | .start h d workflowId now input key =>
    let st := startState runId workflowId now input key
    if (s.drives.get d).isSome then none
    else
      some { s with
        store := some (st.saved now)
        handles := s.handles.set h st
        drives := s.drives.set d (.begin h workflowId st) }
  | .resumeGet c h workflowId =>
    if (s.calls.get c).isSome then none
    else some { s with calls := s.calls.set c (.resume h workflowId s.store) }
  | .resumeRun c d =>
    match s.calls.get c with
    | some (.resume h workflowId read) =>
      -- `resume` sets the handle's `#state` before `#drive` compares the workflow ids.
      let s' := ({ s with calls := s.calls.erase c }).setHandle h (resumeHandle read)
      match resumeWith runId workflowId read with
      | .drives st =>
        if (s.drives.get d).isSome then none
        else some { s' with drives := s.drives.set d (.begin h workflowId st) }
      | .threw _ | .finished _ => some s'
    | _ => none
  | .write d w =>
    (s.drives.get d).map fun drive =>
      { s with drives := s.drives.set d { drive with runtime := drive.runtime.write [w] } }
  | .request d req =>
    (s.drives.get d).map fun drive => s.afterCall d drive (req.first drive.runtime)
  | .stepEnds d index id reply =>
    match s.drives.get d with
    | some drive =>
      if (index, id) ∈ drive.running then
        some { s with drives := s.drives.set d (drive.stepEnds index id reply) }
      else none
    | none => none
  | .completeGet d =>
    match s.drives.get d with
    | some drive =>
      -- The `SerialExecutor` runs one `#complete` at a time, in the order of the calls.
      match drive.active, drive.queue with
      | none, c :: rest =>
        some { s with
          drives := s.drives.set d { drive with queue := rest, active := some (c, s.store) } }
      | _, _ => none
    | none => none
  | .completeSet d now =>
    match s.drives.get d with
    | some drive =>
      match drive.active with
      | some (c, latest) =>
        -- The base is what was read then (or the runtime's own state), whatever the store has now.
        let next := (drive.runtime.base latest).complete now c.index c.id c.result
        some { s with
          store := some (next.saved now)
          handles := s.handles.set drive.handle next
          drives := s.drives.set d (drive.completed next) }
      | none => none
    | none => none
  | .settle d now outcome =>
    match s.drives.get d with
    | some drive =>
      if drive.ended then none
      else
        let st := settled drive.captured drive.runtime.state outcome
        some { s with
          store := some (st.saved now)
          handles := s.handles.set drive.handle st
          drives := s.drives.set d { drive with captured := st, ended := true } }
    | none => none
  | .cancel h now =>
    (s.handles.get h).map fun st =>
      { s with store := some (st.cancelled.saved now), handles := s.handles.set h st.cancelled }
  | .cancelGet c h =>
    if (s.calls.get c).isSome ∨ (s.handles.get h).isSome then none
    else some { s with calls := s.calls.set c (.cancel h s.store) }
  | .cancelSet c now =>
    match s.calls.get c with
    | some (.cancel h (some st)) =>
      some { s with
        store := some (st.cancelled.saved now)
        handles := s.handles.set h st.cancelled
        calls := s.calls.erase c }
    | some (.cancel _ none) => some { s with calls := s.calls.erase c }
    | _ => none
  | .signalGet c name payload =>
    if (s.calls.get c).isSome then none
    else some { s with calls := s.calls.set c (.signal name payload s.store) }
  | .signalSet c now =>
    match s.calls.get c with
    | some (.signal name payload read) =>
      match signalCheck runId name read with
      | .ok st =>
        some { s with
          store := some (st.deliver ⟨name, payload, now⟩)
          calls := s.calls.erase c }
      | .error _ => some { s with calls := s.calls.erase c }
    | _ => none
  | .drop d => some { s with drives := s.drives.erase d }
  | .dropCall c => some { s with calls := s.calls.erase c }

/-! ## What a step can do -/

/-- The segments of a drive, by what they do: the action, the drive after it, what it writes into
the store and into the handle's `#state`, and the guards. The calls of a body are told apart by how
their first segment ends. -/
inductive Drive.Moves (store : Option (WorkflowState V)) (d : ℕ) (drive : Drive V) :
    Action V → Drive V → Option (WorkflowState V) → Option (WorkflowState V) → Prop
  | write {w : BagWrite V} :
      Moves store d drive (.write d w) { drive with runtime := drive.runtime.write [w] } none none
  | replies {req : Request}
      (hfirst : (∃ value, req.first drive.runtime = (drive.runtime.next, .returned value)) ∨
        ∃ err, req.first drive.runtime = (drive.runtime.next, .threw err)) :
      Moves store d drive (.request d req) { drive with runtime := drive.runtime.next } none none
  | runs {id : String} (hcursor : drive.runtime.state.cursor ≤ drive.runtime.callIndex) :
      Moves store d drive (.request d (.step id))
        { drive with
          runtime := drive.runtime.next
          running := drive.running ++ [(drive.runtime.callIndex, id)] } none none
  | due {now : Time} {id : String} {duration : Duration} {dueAt : Time}
      (hnew : ¬ drive.runtime.Replays id)
      (hdue : drive.runtime.sleepDueAt now duration = .ok dueAt) (hle : dueAt ≤ now) :
      Moves store d drive (.request d (.sleep now id duration))
        { drive with
          runtime := drive.runtime.next
          queue := drive.queue ++ [⟨drive.runtime.callIndex, id, none, none⟩] } none none
  | takes {now : Time} {name : String} {timeout : Option Duration} {k : ℕ}
      {signal : WorkflowSignal V} (hnew : ¬ drive.runtime.Replays name)
      (hk : drive.runtime.state.signals[k]? = some signal) (hname : signal.name = name) :
      Moves store d drive (.request d (.waitForSignal now name timeout))
        { drive with
          runtime := drive.runtime.nextWith (drive.runtime.state.dropSignal k)
          queue := drive.queue ++
            [⟨drive.runtime.callIndex, name, signal.payload, some signal⟩] } none none
  | parksTimer {now : Time} {id : String} {duration : Duration} {dueAt : Time}
      {st : WorkflowState V} (hnew : ¬ drive.runtime.Replays id)
      (hdue : drive.runtime.sleepDueAt now duration = .ok dueAt) (hlt : now < dueAt)
      (hst : st = drive.runtime.state.parkTimer id dueAt drive.runtime.callIndex) :
      Moves store d drive (.request d (.sleep now id duration))
        { drive with runtime := drive.runtime.nextWith st } (some st) none
  | parksSignal {now : Time} {name : String} {timeout : Option Duration} {timeoutAt : Option Time}
      {st : WorkflowState V} (hnew : ¬ drive.runtime.Replays name)
      (hnone : drive.runtime.state.findSignal name = none)
      (htime : signalTimeoutAt now timeout = .ok timeoutAt)
      (hopen : timeoutAt.any (· ≤ now) = false)
      (hst : st = drive.runtime.state.parkSignal name timeoutAt drive.runtime.callIndex) :
      Moves store d drive (.request d (.waitForSignal now name timeout))
        { drive with runtime := drive.runtime.nextWith st } (some st) none
  | stepEnds {index : ℕ} {id : String} {reply : Except JsError (Option V)}
      (hrun : (index, id) ∈ drive.running) :
      Moves store d drive (.stepEnds d index id reply) (drive.stepEnds index id reply) none none
  | completeGet {c : Completion V} {rest : List (Completion V)} (hactive : drive.active = none)
      (hqueue : drive.queue = c :: rest) :
      Moves store d drive (.completeGet d) { drive with queue := rest, active := some (c, store) }
        none none
  | completeSet {now : Time} {c : Completion V} {latest : Option (WorkflowState V)}
      {next : WorkflowState V} (hactive : drive.active = some (c, latest))
      (hnext : next = (drive.runtime.base latest).complete now c.index c.id c.result) :
      Moves store d drive (.completeSet d now) (drive.completed next) (some next) (some next)
  | settle {now : Time} {outcome : Except JsError (Option V)} {st : WorkflowState V}
      (hended : drive.ended = false)
      (hst : st = settled drive.captured drive.runtime.state outcome) :
      Moves store d drive (.settle d now outcome) { drive with captured := st, ended := true }
        (some (st.saved now)) (some st)

/-- The system after a segment of the drive `d`. -/
def Sys.moved (s : Sys V) (d : ℕ) (drive : Drive V)
    (saved kept : Option (WorkflowState V)) : Sys V :=
  ({ s with
    store := saved.or s.store
    drives := s.drives.set d drive }).setHandle drive.handle kept

/-- The steps of the system, by what they do: the guards that a proof needs, and the state after. -/
inductive Step (runId : String) (s : Sys V) : Action V → Sys V → Prop
  | start {h d : ℕ} {workflowId : String} {now : Time} {input : Option V} {key : Option String}
      {st : WorkflowState V} (hd : s.drives.get d = none)
      (hst : st = startState runId workflowId now input key) :
      Step runId s (.start h d workflowId now input key)
        { s with
          store := some st
          handles := s.handles.set h st
          drives := s.drives.set d (.begin h workflowId st) }
  | resumeGet {c h : ℕ} {workflowId : String} (hc : s.calls.get c = none) :
      Step runId s (.resumeGet c h workflowId)
        { s with calls := s.calls.set c (.resume h workflowId s.store) }
  | resumeDrives {c d h : ℕ} {workflowId : String} {loaded : WorkflowState V}
      (hc : s.calls.get c = some (.resume h workflowId (some loaded))) (hd : s.drives.get d = none)
      (hopen : ¬ loaded.status.Final) (hid : loaded.workflowId = workflowId) :
      Step runId s (.resumeRun c d)
        { s with
          handles := s.handles.set h loaded.resumed
          drives := s.drives.set d (.begin h workflowId loaded.resumed)
          calls := s.calls.erase c }
  | resumeEnds {c d h : ℕ} {workflowId : String} {read : Option (WorkflowState V)}
      (hc : s.calls.get c = some (.resume h workflowId read)) :
      Step runId s (.resumeRun c d)
        (({ s with calls := s.calls.erase c }).setHandle h (resumeHandle read))
  | moves {a : Action V} {d : ℕ} {drive drive' : Drive V} {saved kept : Option (WorkflowState V)}
      (hd : s.drives.get d = some drive) (hmove : drive.Moves s.store d a drive' saved kept) :
      Step runId s a (s.moved d drive' saved kept)
  | cancel {h : ℕ} {now : Time} {st : WorkflowState V} (hh : s.handles.get h = some st) :
      Step runId s (.cancel h now)
        { s with
          store := some (st.cancelled.saved now)
          handles := s.handles.set h st.cancelled }
  | cancelGet {c h : ℕ} (hc : s.calls.get c = none) (hh : s.handles.get h = none) :
      Step runId s (.cancelGet c h) { s with calls := s.calls.set c (.cancel h s.store) }
  | cancelSet {c h : ℕ} {now : Time} {st : WorkflowState V}
      (hc : s.calls.get c = some (.cancel h (some st))) :
      Step runId s (.cancelSet c now)
        { s with
          store := some (st.cancelled.saved now)
          handles := s.handles.set h st.cancelled
          calls := s.calls.erase c }
  | cancelSkips {c h : ℕ} {now : Time} (hc : s.calls.get c = some (.cancel h none)) :
      Step runId s (.cancelSet c now) { s with calls := s.calls.erase c }
  | signalGet {c : ℕ} {name : String} {payload : Option V} (hc : s.calls.get c = none) :
      Step runId s (.signalGet c name payload)
        { s with calls := s.calls.set c (.signal name payload s.store) }
  | signalSet {c : ℕ} {now : Time} {name : String} {payload : Option V} {st : WorkflowState V}
      (hc : s.calls.get c = some (.signal name payload (some st))) (hwaiting : st.status = .waiting)
      (hwait : ∃ id index timeoutAt, st.waitingOn = some (.signal id name index timeoutAt)) :
      Step runId s (.signalSet c now)
        { s with
          store := some (st.deliver ⟨name, payload, now⟩)
          calls := s.calls.erase c }
  | signalFails {c : ℕ} {now : Time} {name : String} {payload : Option V}
      {read : Option (WorkflowState V)} {err : JsError}
      (hc : s.calls.get c = some (.signal name payload read))
      (herr : signalCheck runId name read = .error err) :
      Step runId s (.signalSet c now) { s with calls := s.calls.erase c }
  | drop {d : ℕ} : Step runId s (.drop d) { s with drives := s.drives.erase d }
  | dropCall {c : ℕ} : Step runId s (.dropCall c) { s with calls := s.calls.erase c }

variable {s : Sys V} {d : ℕ} {runId : String}

/-- A call of the body is answered, runs, or parks the drive. -/
lemma Step.of_request {drive : Drive V} (req : Request) (hd : s.drives.get d = some drive) :
    Step runId s (.request d req) (s.afterCall d drive (req.first drive.runtime)) := by
  cases req with
  | step id =>
    rcases drive.runtime.step_cases id with ⟨-, h⟩ | ⟨-, -, h⟩ | ⟨hc, h⟩ <;>
      rw [Request.first, h]
    · exact .moves hd (.replies (by exact .inl ⟨_, h⟩))
    · exact .moves hd (.replies (by exact .inr ⟨_, h⟩))
    · exact .moves hd (.runs hc)
  | sleep now id duration =>
    rcases drive.runtime.sleep_cases now id duration with
      ⟨-, h⟩ | ⟨-, err, -, h⟩ | ⟨hnew, dueAt, hdue, hlt, h⟩ | ⟨hnew, dueAt, hdue, hle, h⟩ <;>
      rw [Request.first, h]
    · exact .moves hd (.replies (by exact .inl ⟨_, h⟩))
    · exact .moves hd (.replies (by exact .inr ⟨_, h⟩))
    · exact .moves hd (.parksTimer hnew hdue hlt rfl)
    · exact .moves hd (.due hnew hdue hle)
  | waitForSignal now name timeout =>
    rcases drive.runtime.waitForSignal_cases now name timeout with
      ⟨-, h⟩ | ⟨hnew, k, signal, -, hk, hname, h⟩ | ⟨-, -, err, -, h⟩ | ⟨-, -, t, -, -, h⟩ |
      ⟨hnew, hnone, t, htime, hopen, h⟩ <;> rw [Request.first, h]
    · exact .moves hd (.replies (by exact .inl ⟨_, h⟩))
    · exact .moves hd (.takes hnew hk hname)
    · exact .moves hd (.replies (by exact .inr ⟨_, h⟩))
    · exact .moves hd (.replies (by exact .inr ⟨_, h⟩))
    · exact .moves hd (.parksSignal hnew hnone htime hopen rfl)

lemma resumeHandle_of_not_final {loaded : WorkflowState V} (h : ¬ loaded.status.Final) :
    resumeHandle (some loaded) = some loaded.resumed := by
  simp only [WorkflowStatus.Final, not_or] at h
  simp [resumeHandle, h.1, h.2]

/-- What `resume` leaves in the handle: nothing, a run that is done, or a run set to `running`. -/
lemma resumeHandle_cases (read : Option (WorkflowState V)) :
    resumeHandle read = none ∨ ∃ loaded, read = some loaded ∧
      (loaded.status = .done ∧ resumeHandle read = some loaded ∨
        ¬ loaded.status.Final ∧ resumeHandle read = some loaded.resumed) := by
  cases read with
  | none => exact .inl rfl
  | some loaded =>
    by_cases hc : loaded.status = .cancelled
    · exact .inl (by simp [resumeHandle, hc])
    · by_cases hd : loaded.status = .done
      · exact .inr ⟨loaded, rfl, .inl ⟨hd, by simp [resumeHandle, hd]⟩⟩
      · have hf : ¬ loaded.status.Final := by simp [WorkflowStatus.Final, hc, hd]
        exact .inr ⟨loaded, rfl, .inr ⟨hf, resumeHandle_of_not_final hf⟩⟩

variable {a : Action V} {t : Sys V}

/-- `resume` begins a drive, or ends. -/
lemma Step.of_resumeRun {c d : ℕ} (h : step runId s (.resumeRun c d) = some t) :
    Step runId s (.resumeRun c d) t := by
  simp only [step] at h
  split at h
  · rename_i hd workflowId read hc
    split at h
    · rename_i st hr
      simp only [ite_none_left_eq_some, not_isSome_iff_eq_none, some.injEq] at h
      obtain ⟨hd, rfl⟩ := h
      cases read with
      | none => simp [resumeWith] at hr
      | some loaded =>
        obtain ⟨hopen, hid, rfl⟩ := resumeWith_eq_drives.mp hr
        rw [resumeHandle_of_not_final hopen]
        exact .resumeDrives hc hd hopen hid
    · exact (some.inj h) ▸ .resumeEnds hc
    · exact (some.inj h) ▸ .resumeEnds hc
  · simp at h

/-- `signal` delivers, or throws. -/
lemma Step.of_signalSet {c : ℕ} {now : Time} (h : step runId s (.signalSet c now) = some t) :
    Step runId s (.signalSet c now) t := by
  simp only [step] at h
  split at h
  · rename_i name payload read hc
    split at h
    · rename_i st hok
      obtain ⟨rfl, hwaiting, hwait⟩ := signalCheck_eq_ok.mp hok
      exact (some.inj h) ▸ .signalSet hc hwaiting hwait
    · rename_i err herr
      exact (some.inj h) ▸ .signalFails hc herr
  · simp at h

/-- Every step of the system has one of these forms. -/
lemma Step.of_step (h : step runId s a = some t) : Step runId s a t := by
  cases a with
  | start hd d workflowId now input key =>
    simp only [step, ite_none_left_eq_some, not_isSome_iff_eq_none, some.injEq] at h
    obtain ⟨hd, rfl⟩ := h
    exact .start hd rfl
  | resumeGet c hd workflowId =>
    simp only [step, ite_none_left_eq_some, not_isSome_iff_eq_none, some.injEq] at h
    obtain ⟨hc, rfl⟩ := h
    exact .resumeGet hc
  | resumeRun c d => exact .of_resumeRun h
  | write d w =>
    simp only [step, map_eq_some_iff] at h
    obtain ⟨drive, hd, rfl⟩ := h
    exact .moves hd .write
  | request d req =>
    simp only [step, map_eq_some_iff] at h
    obtain ⟨drive, hd, rfl⟩ := h
    exact .of_request req hd
  | stepEnds d index id reply =>
    simp only [step] at h
    split at h
    · rename_i drive hd
      simp only [ite_none_right_eq_some, some.injEq] at h
      obtain ⟨hrun, rfl⟩ := h
      cases reply <;> exact .moves hd (.stepEnds hrun)
    · simp at h
  | completeGet d =>
    simp only [step] at h
    split at h
    · rename_i drive hd
      split at h
      · rename_i c rest hactive hqueue
        exact (some.inj h) ▸ .moves hd (.completeGet hactive hqueue)
      · simp at h
    · simp at h
  | completeSet d now =>
    simp only [step] at h
    split at h
    · rename_i drive hd
      split at h
      · rename_i c latest hactive
        exact (some.inj h) ▸ .moves hd (.completeSet hactive rfl)
      · simp at h
    · simp at h
  | settle d now outcome =>
    simp only [step] at h
    split at h
    · rename_i drive hd
      simp only [ite_none_left_eq_some, Bool.not_eq_true, some.injEq] at h
      obtain ⟨hended, rfl⟩ := h
      exact .moves hd (.settle hended rfl)
    · simp at h
  | cancel hd now =>
    simp only [step, map_eq_some_iff] at h
    obtain ⟨st, hh, rfl⟩ := h
    exact .cancel hh
  | cancelGet c hd =>
    simp only [step, ite_none_left_eq_some, not_or, not_isSome_iff_eq_none, some.injEq] at h
    obtain ⟨⟨hc, hh⟩, rfl⟩ := h
    exact .cancelGet hc hh
  | cancelSet c now =>
    simp only [step] at h
    split at h
    · rename_i hd st hc
      exact (some.inj h) ▸ .cancelSet hc
    · rename_i hd hc
      exact (some.inj h) ▸ .cancelSkips hc
    · simp at h
  | signalGet c name payload =>
    simp only [step, ite_none_left_eq_some, not_isSome_iff_eq_none, some.injEq] at h
    obtain ⟨hc, rfl⟩ := h
    exact .signalGet hc
  | signalSet c now => exact .of_signalSet h
  | drop d => exact (some.inj h) ▸ .drop
  | dropCall c => exact (some.inj h) ▸ .dropCall

/-! ## Snapshots -/

/-- Every snapshot satisfies `P`: in the store, in handles and drives, and read but not used yet. -/
structure Sys.All (P : WorkflowState V → Prop) (s : Sys V) : Prop where
  store : ∀ p, s.store = some p → P p
  handles : ∀ h st, s.handles.get h = some st → P st
  current : ∀ d drive, s.drives.get d = some drive → P drive.runtime.state
  captured : ∀ d drive, s.drives.get d = some drive → P drive.captured
  latest : ∀ d drive c p, s.drives.get d = some drive → drive.active = some (c, some p) → P p
  read : ∀ c call p, s.calls.get c = some call → call.read = some p → P p

/-- How a step makes a snapshot from one that exists. -/
inductive Derives (s : Sys V) : Action V → WorkflowState V → WorkflowState V → Prop
  | resumed {c d : ℕ} {st : WorkflowState V} : ¬ st.status.Final →
      Derives s (.resumeRun c d) st st.resumed
  | wrote {d : ℕ} {w : BagWrite V} {st : WorkflowState V} :
      Derives s (.write d w) st { st with state := applyWrites st.state [w] }
  | parkTimer {d : ℕ} {drive : Drive V} {now : Time} {id : String} {duration : Duration}
      {dueAt : Time} (hd : s.drives.get d = some drive) (hnew : ¬ drive.runtime.Replays id)
      (hdue : drive.runtime.sleepDueAt now duration = .ok dueAt) (hlt : now < dueAt) :
      Derives s (.request d (.sleep now id duration)) drive.runtime.state
        (drive.runtime.state.parkTimer id dueAt drive.runtime.callIndex)
  | parkSignal {d : ℕ} {drive : Drive V} {now : Time} {name : String} {timeout : Option Duration}
      {timeoutAt : Option Time} (hd : s.drives.get d = some drive)
      (hnew : ¬ drive.runtime.Replays name)
      (hnone : drive.runtime.state.findSignal name = none)
      (htime : signalTimeoutAt now timeout = .ok timeoutAt)
      (hopen : timeoutAt.any (· ≤ now) = false) :
      Derives s (.request d (.waitForSignal now name timeout)) drive.runtime.state
        (drive.runtime.state.parkSignal name timeoutAt drive.runtime.callIndex)
  | dropSignal {d k : ℕ} {req : Request} {st : WorkflowState V} :
      Derives s (.request d req) st (st.dropSignal k)
  | complete {d : ℕ} {drive : Drive V} {now : Time} {c : Completion V}
      {latest : Option (WorkflowState V)} (hd : s.drives.get d = some drive)
      (hactive : drive.active = some (c, latest)) :
      Derives s (.completeSet d now) (drive.runtime.base latest)
        ((drive.runtime.base latest).complete now c.index c.id c.result)
  | done {d : ℕ} {now : Time} {output : Option V} {drive : Drive V}
      (hd : s.drives.get d = some drive) :
      Derives s (.settle d now (.ok output)) drive.captured
        (settled drive.captured drive.runtime.state (.ok output))
  | failed {d : ℕ} {now : Time} {err : JsError} {drive : Drive V}
      (hd : s.drives.get d = some drive) :
      Derives s (.settle d now (.error err)) drive.runtime.state
        (settled drive.captured drive.runtime.state (.error err))
  | cancelled {a : Action V} {st : WorkflowState V} : Derives s a st st.cancelled
  | deliver {c : ℕ} {now : Time} {name : String} {payload : Option V} {st : WorkflowState V}
      (hc : s.calls.get c = some (.signal name payload (some st))) :
      Derives s (.signalSet c now) st (st.deliver ⟨name, payload, now⟩)

namespace Sys.All

variable {P P' : WorkflowState V → Prop} {s : Sys V}

variable (hs : s.All P)

include hs

lemma mono (h : ∀ st, P st → P' st) : s.All P' where
  store p hp := h p (hs.store p hp)
  handles i st hi := h st (hs.handles i st hi)
  current d drive hd := h _ (hs.current d drive hd)
  captured d drive hd := h _ (hs.captured d drive hd)
  latest d drive c p hd ha := h p (hs.latest d drive c p hd ha)
  read c call p hc hr := h p (hs.read c call p hc hr)

lemma withStore {p : WorkflowState V} (hp : P p) : ({ s with store := some p } : Sys V).All P :=
  { hs with store := fun _ hq => some.inj hq ▸ hp }

lemma withHandle {h : ℕ} {st : WorkflowState V} (hst : P st) :
    ({ s with handles := s.handles.set h st } : Sys V).All P where
  __ := hs
  handles i st' hi := by
    rw [get_set] at hi
    split_ifs at hi
    · exact some.inj hi ▸ hst
    · exact hs.handles i st' hi

lemma withDrive {drive : Drive V} (hcur : P drive.runtime.state) (hcap : P drive.captured)
    (hlat : ∀ c p, drive.active = some (c, some p) → P p) :
    ({ s with drives := s.drives.set d drive } : Sys V).All P where
  store := hs.store
  handles := hs.handles
  read := hs.read
  current i drive' hi := by
    rw [get_set] at hi
    split_ifs at hi
    · exact some.inj hi ▸ hcur
    · exact hs.current i drive' hi
  captured i drive' hi := by
    rw [get_set] at hi
    split_ifs at hi
    · exact some.inj hi ▸ hcap
    · exact hs.captured i drive' hi
  latest i drive' c p hi ha := by
    rw [get_set] at hi
    split_ifs at hi
    · cases hi
      exact hlat c p ha
    · exact hs.latest i drive' c p hi ha

lemma withoutDrive (d : ℕ) :
    ({ s with drives := s.drives.erase d } : Sys V).All P where
  store := hs.store
  handles := hs.handles
  read := hs.read
  current i drive hi := hs.current i drive (get_of_get_erase _ hi).2
  captured i drive hi := hs.captured i drive (get_of_get_erase _ hi).2
  latest i drive c p hi ha := hs.latest i drive c p (get_of_get_erase _ hi).2 ha

lemma withCall {c : ℕ} {call : Pending V} (hcall : ∀ p, call.read = some p → P p) :
    ({ s with calls := s.calls.set c call } : Sys V).All P where
  __ := hs
  read i call' p hi hr := by
    rw [get_set] at hi
    split_ifs at hi
    · cases hi
      exact hcall p hr
    · exact hs.read i call' p hi hr

lemma withoutCall (c : ℕ) :
    ({ s with calls := s.calls.erase c } : Sys V).All P where
  __ := hs
  read i call p hi hr := hs.read i call p (get_of_get_erase _ hi).2 hr

lemma drive {drive : Drive V} (hd : s.drives.get d = some drive) :
    P drive.runtime.state ∧ P drive.captured ∧ ∀ c p, drive.active = some (c, some p) → P p :=
  ⟨hs.current d drive hd, hs.captured d drive hd, fun c p ha => hs.latest d drive c p hd ha⟩

end Sys.All

variable {c : Completion V} {drive' : Drive V} {P : WorkflowState V → Prop}

lemma Sys.All.base (hs : s.All P) {drive : Drive V} {latest : Option (WorkflowState V)}
    (hd : s.drives.get d = some drive) (hactive : drive.active = some (c, latest)) :
    P (drive.runtime.base latest) := by
  obtain ⟨hcur, -, hlat⟩ := hs.drive hd
  unfold WorkflowRuntime.base
  split
  · split_ifs
    · exact hlat c _ hactive
    · exact hcur
  · exact hcur

/-- The snapshots that were there satisfy `P'` because they satisfied `P`, and the new ones because
of how they were made. -/
lemma Step.all {P' : WorkflowState V → Prop} (h : Step runId s a t) (hs : s.All P)
    (hkeep : ∀ st, P st → P' st)
    (hstart : ∀ h d workflowId now input key, a = .start h d workflowId now input key →
      P' (startState runId workflowId now input key))
    (hderive : ∀ st st', P st → Derives s a st st' → P' st')
    (hsaved : ∀ st now, P' st → P' (st.saved now)) : t.All P' := by
  have hs' := hs.mono hkeep
  -- Each case names the one snapshot that it makes; the others are old ones.
  cases h with
  | start hd hst =>
    have hnew := hst ▸ hstart _ _ _ _ _ _ rfl
    exact ((hs'.withStore hnew).withHandle hnew).withDrive hnew hnew (by simp [Drive.begin])
  | resumeGet hc | cancelGet hc hh | signalGet hc => exact hs'.withCall hs'.store
  | resumeDrives hc hd hopen hid =>
    have hst := hderive _ _ (hs.read _ _ _ hc rfl) (.resumed hopen)
    exact ((hs'.withoutCall _).withHandle hst).withDrive hst hst (by simp [Drive.begin])
  | resumeEnds hc =>
    rename_i c d hd workflowId read
    have hs'' := hs'.withoutCall c
    rcases resumeHandle_cases read with h | ⟨loaded, rfl, ⟨-, h⟩ | ⟨hopen, h⟩⟩ <;> rw [h]
    · exact hs''
    · exact hs''.withHandle (hs'.read _ _ _ hc rfl)
    · exact hs''.withHandle (hderive _ _ (hs.read _ _ _ hc rfl) (.resumed hopen))
  | moves hd hmove =>
    obtain ⟨hcur, hcap, -⟩ := hs.drive hd
    obtain ⟨hcur', hcap', hlat'⟩ := hs'.drive hd
    cases hmove with
    | write => exact hs'.withDrive (hderive _ _ hcur .wrote) hcap' hlat'
    | replies | runs | due => exact hs'.withDrive hcur' hcap' hlat'
    | takes => exact hs'.withDrive (hderive _ _ hcur .dropSignal) hcap' hlat'
    | parksTimer hnew hdue hlt hst =>
      have hst := hst ▸ hderive _ _ hcur (.parkTimer hd hnew hdue hlt)
      exact (hs'.withStore hst).withDrive hst hcap' hlat'
    | parksSignal hnew hnone htime hopen hst =>
      have hst := hst ▸ hderive _ _ hcur (.parkSignal hd hnew hnone htime hopen)
      exact (hs'.withStore hst).withDrive hst hcap' hlat'
    | stepEnds hrun =>
      rename_i reply
      cases reply <;> exact hs'.withDrive hcur' hcap' hlat'
    | completeGet hactive hqueue =>
      refine hs'.withDrive hcur' hcap' fun c p ha => ?_
      simp only [some.injEq, Prod.mk.injEq] at ha
      exact hs'.store p ha.2
    | completeSet hactive hnext =>
      have hst := hnext ▸ hderive _ _ (hs.base hd hactive) (.complete hd hactive)
      exact ((hs'.withStore hst).withHandle hst).withDrive hst hst (by simp [Drive.completed])
    | settle hended hst =>
      rename_i now outcome st
      have hnew : P' st := by
        cases outcome with
        | ok output => exact hst ▸ hderive _ _ hcap (.done hd)
        | error err => exact hst ▸ hderive _ _ hcur (.failed hd)
      exact ((hs'.withStore (hsaved _ _ hnew)).withHandle hnew).withDrive hcur' hnew hlat'
  | cancel hh =>
    have hst := hderive _ _ (hs.handles _ _ hh) .cancelled
    exact (hs'.withStore (hsaved _ _ hst)).withHandle hst
  | cancelSet hc =>
    have hst := hderive _ _ (hs.read _ _ _ hc rfl) .cancelled
    exact ((hs'.withStore (hsaved _ _ hst)).withHandle hst).withoutCall _
  | cancelSkips hc | signalFails hc herr | dropCall => exact hs'.withoutCall _
  | signalSet hc hwaiting hwait =>
    exact (hs'.withStore (hderive _ _ (hs.read _ _ _ hc rfl) (.deliver hc))).withoutCall _
  | drop => exact hs'.withoutDrive _

/-! ## Drives and the store after a step -/

section

variable (s : Sys V) (h d : ℕ) (drive : Drive V) (saved kept : Option (WorkflowState V))

@[simp]
lemma Sys.setHandle_store : (s.setHandle h kept).store = s.store := by
  cases kept <;> rfl

@[simp]
lemma Sys.setHandle_drives : (s.setHandle h kept).drives = s.drives := by
  cases kept <;> rfl

@[simp]
lemma Sys.setHandle_calls : (s.setHandle h kept).calls = s.calls := by
  cases kept <;> rfl

@[simp]
lemma Sys.moved_store : (s.moved d drive saved kept).store = saved.or s.store :=
  Sys.setHandle_store _ _ _

@[simp]
lemma Sys.moved_drives : (s.moved d drive saved kept).drives = s.drives.set d drive :=
  Sys.setHandle_drives _ _ _

@[simp]
lemma Sys.moved_calls : (s.moved d drive saved kept).calls = s.calls :=
  Sys.setHandle_calls _ _ _

end

lemma Step.store_isSome (h : Step runId s a t) (hs : s.store.isSome) : t.store.isSome := by
  cases h <;> simp [hs]

/-- A drive after a step did not move, moved, or was begun with a new run or one that `resume` had
read. -/
lemma Step.drive_cases (h : Step runId s a t) (hd : t.drives.get d = some drive') :
    s.drives.get d = some drive' ∨
    (∃ drive saved kept, s.drives.get d = some drive ∧
      drive.Moves s.store d a drive' saved kept ∧ t = s.moved d drive' saved kept) ∨
    (∃ h workflowId now input key, a = .start h d workflowId now input key ∧
      drive' = .begin h workflowId (startState runId workflowId now input key)) ∨
    (∃ c h workflowId loaded, a = .resumeRun c d ∧
      s.calls.get c = some (.resume h workflowId (some loaded)) ∧ loaded.workflowId = workflowId ∧
      drive' = .begin h workflowId loaded.resumed) := by
  cases h with
  | start hd' hst =>
    rw [get_set] at hd
    split_ifs at hd with hdd
    · subst hdd hst
      exact .inr (.inr (.inl ⟨_, _, _, _, _, rfl, (some.inj hd).symm⟩))
    · exact .inl hd
  | resumeDrives hc hd' hopen hid =>
    rw [get_set] at hd
    split_ifs at hd with hdd
    · subst hdd
      exact .inr (.inr (.inr ⟨_, _, _, _, rfl, hc, hid, (some.inj hd).symm⟩))
    · exact .inl hd
  | moves hd' hmove =>
    rw [Sys.moved_drives, get_set] at hd
    split_ifs at hd with hdd
    · subst hdd
      cases hd
      exact .inr (.inl ⟨_, _, _, hd', hmove, rfl⟩)
    · exact .inl hd
  | drop => exact .inl (get_of_get_erase _ hd).2
  | resumeEnds => exact .inl (by simpa using hd)
  | _ => exact .inl hd

variable {store saved kept : Option (WorkflowState V)}

/-- A drive that is over moves on only when its body calls again or writes to its bag. -/
lemma Drive.Moves.of_over {drive : Drive V} (h : drive.Moves store d a drive' saved kept)
    (ho : drive.Over) (hreq : ∀ req, a ≠ .request d req) : drive'.Over ∧ saved = none := by
  obtain ⟨hended, hrunning, hqueue, hactive⟩ := ho
  cases h with
  | write => exact ⟨⟨hended, hrunning, hqueue, hactive⟩, rfl⟩
  | replies | runs | due | takes | parksTimer | parksSignal => exact absurd rfl (hreq _)
  | stepEnds hrun => exact absurd hrun (by simp [hrunning])
  | completeGet _ hq => exact absurd hq (by simp [hqueue])
  | completeSet ha => exact absurd hactive (by simp [ha])
  | settle he => exact absurd hended (by simp [he])

/-! ## Runs that are started once -/

lemma Derives.workflowId_eq {st st' : WorkflowState V} (h : Derives s a st st') :
    st'.workflowId = st.workflowId := by
  cases h with
  | failed hd =>
    unfold settled
    dsimp only
    split_ifs <;> rfl
  | _ => rfl

lemma Drive.Moves.workflowId_eq {drive : Drive V} (h : drive.Moves store d a drive' saved kept) :
    drive'.runtime.workflowId = drive.runtime.workflowId := by
  cases h with
  | stepEnds hrun =>
    rename_i reply
    cases reply <;> rfl
  | _ => rfl

/-- `start` is called only when no run is stored under the id. -/
def StartsOnce (s : Sys V) : Action V → Prop
  | .start .. => s.store = none
  | _ => True

/-- There is a run, and its snapshots and its drives are all of one workflow. -/
structure Sys.IsOf (workflowId : String) (s : Sys V) : Prop where
  stored : s.store.isSome
  all : s.All fun st => st.workflowId = workflowId
  drives : ∀ d drive, s.drives.get d = some drive → drive.runtime.workflowId = workflowId

/-- Either there is no run and no snapshot of one, or there is one, of one workflow. -/
def Sys.OneWorkflow (s : Sys V) : Prop :=
  (s.store = none ∧ s.All fun _ => False) ∨ ∃ workflowId, s.IsOf workflowId

lemma Sys.all_empty (P : WorkflowState V → Prop) : (Sys.empty : Sys V).All P :=
  ⟨by simp [empty], by simp [empty], by simp [empty], by simp [empty], by simp [empty],
    by simp [empty]⟩

lemma Sys.oneWorkflow_empty : (Sys.empty : Sys V).OneWorkflow := .inl ⟨rfl, Sys.all_empty _⟩

lemma Step.isOf {workflowId : String} (h : Step runId s a t) (hok : StartsOnce s a)
    (hs : s.IsOf workflowId) : t.IsOf workflowId where
  stored := h.store_isSome hs.stored
  all := by
    refine h.all hs.all (fun _ h => h) ?_ (fun _ _ hst hd => hd.workflowId_eq.trans hst)
      fun _ _ h => h
    rintro h d w n i k rfl
    exact absurd hs.stored (by simp [show s.store = none from hok])
  drives d drive' hd := by
    rcases h.drive_cases hd with hd | ⟨drive, _, _, hd, hmove, -⟩ | ⟨_, w, _, _, _, rfl, -⟩ |
      ⟨_, _, _, loaded, -, hc, rfl, rfl⟩
    · exact hs.drives d drive' hd
    · exact hmove.workflowId_eq.trans (hs.drives d drive hd)
    · exact absurd hs.stored (by simp [show s.store = none from hok])
    · exact hs.all.read _ _ _ hc rfl

lemma Step.oneWorkflow (h : Step runId s a t) (hok : StartsOnce s a)
    (hs : s.OneWorkflow) : t.OneWorkflow := by
  rcases hs with ⟨hnone, hall⟩ | ⟨workflowId, hs⟩
  · by_cases hstart : ∃ h d workflowId now input key, a = .start h d workflowId now input key
    · obtain ⟨_, _, workflowId, _, _, _, rfl⟩ := hstart
      refine .inr ⟨workflowId, ?_, ?_, ?_⟩
      · cases h with
        | start => rfl
        | moves _ hmove => cases hmove
      · refine h.all hall (fun _ h => h.elim) ?_ (fun _ _ h => h.elim) fun _ _ h => h
        rintro _ _ _ _ _ _ ⟨⟩
        rfl
      · intro d drive' hd
        rcases h.drive_cases hd with hd | ⟨_, _, _, hd, -⟩ | ⟨_, _, _, _, _, ⟨⟩, rfl⟩ |
          ⟨_, _, _, _, ha, -⟩
        · exact (hall.current _ _ hd).elim
        · exact (hall.current _ _ hd).elim
        · rfl
        · simp at ha
    · -- Without a snapshot to work on, no one writes.
      have hall' : t.All fun _ => False := h.all hall (fun _ h => h)
        (fun h d w n i k ha => hstart ⟨h, d, w, n, i, k, ha⟩) (fun _ _ h _ => h) (fun _ _ h => h)
      exact .inl ⟨eq_none_iff_forall_ne_some.mpr hall'.store, hall'⟩
  · exact .inr ⟨workflowId, h.isOf hok hs⟩

lemma Sys.OneWorkflow.isOf (h : s.OneWorkflow) {drive : Drive V}
    (hd : s.drives.get d = some drive) : s.IsOf drive.runtime.workflowId := by
  rcases h with ⟨-, hall⟩ | ⟨workflowId, hs⟩
  · exact (hall.current d drive hd).elim
  · exact (hs.drives d drive hd) ▸ hs

lemma Sys.OneWorkflow.base_eq (h : s.OneWorkflow) {drive : Drive V} {q : WorkflowState V}
    (hd : s.drives.get d = some drive)
    (hactive : drive.active = some (c, some q)) : drive.runtime.base (some q) = q := by
  rw [WorkflowRuntime.base, if_pos ((h.isOf hd).all.latest d drive c q hd hactive)]

end Fino.Workflow
