import Fino.Workflow.Types

/-!
# The workflow runtime, one synchronous segment at a time

The methods of `WorkflowRuntime`, `WorkflowRun` and `Workflow` in `js/workflow.ts`, cut at their
`await`s: each segment is a function of the runtime's fields, the snapshot that a store read
returned, and the clock. What it does next is its `Call`. `Workflow/Sequential.lean` and
`Workflow/System.lean` put segments together.
-/

namespace Fino.Workflow

open Lib

variable {V W : Type}

/-! ## Checkpoint calls -/

/-- `WorkflowRuntime`: the fields that change while a body executes, with the id of the workflow. -/
structure WorkflowRuntime (V : Type) where
  workflowId : String
  callIndex : ℕ
  state : WorkflowState V

/-- What a checkpoint call does when its first segment ends. -/
inductive Call (V : Type)
  /-- The promise resolves with a recorded result. -/
  | returned (value : Option V)
  /-- The promise rejects. -/
  | threw (err : JsError)
  /-- The step's function is called, for the checkpoint `index`. -/
  | runs (index : ℕ) (id : String)
  /-- The call goes on to `#complete`; `taken` is the signal that a `waitForSignal` holds. -/
  | completes (index : ℕ) (id : String) (result : Option V) (taken : Option (WorkflowSignal V))
  /-- The runtime's state is persisted, and `WaitSignal` is thrown. -/
  | parked

variable (rt : WorkflowRuntime V)

/-- The record at the index of the call about to be made. -/
def WorkflowRuntime.completed : Option (WorkflowStepState V) :=
  rt.state.steps.get rt.callIndex

/-- `index < this.#state.cursor && completed?.id === id`: the call repeats a recorded one. -/
def WorkflowRuntime.Replays (id : String) : Prop :=
  rt.callIndex < rt.state.cursor ∧ rt.completed.map (·.id) = some id

instance (rt : WorkflowRuntime V) (id : String) : Decidable (rt.Replays id) :=
  inferInstanceAs (Decidable (_ ∧ _))

variable (st : WorkflowState V)

/-- The runtime once the call has taken its index and left the state `st`. -/
def WorkflowRuntime.nextWith : WorkflowRuntime V :=
  { rt with callIndex := rt.callIndex + 1, state := st }

/-- The runtime once the call has taken its index. -/
def WorkflowRuntime.next : WorkflowRuntime V := rt.nextWith rt.state

/-- The error of a step whose id is not the recorded one. -/
def stepMismatch (index : ℕ) (completed : Option (WorkflowStepState V)) (id : String) : JsError :=
  .new ("Workflow step mismatch at index " ++ toString index ++ ": expected \"" ++
    ((completed.map (·.id)).getD "undefined") ++ "\", got \"" ++ id ++ "\"")

/-- `#step`, up to the call of the step's function. -/
def WorkflowRuntime.step (id : String) : WorkflowRuntime V × Call V :=
  if rt.Replays id then (rt.next, .returned (rt.completed.bind (·.result)))
  else if rt.callIndex < rt.state.cursor then
    (rt.next, .threw (stepMismatch rt.callIndex rt.completed id))
  else (rt.next, .runs rt.callIndex id)

variable (now : Time)

/-- The persisted deadline when the run still waits on this call's timer, and otherwise the duration
from `now`. -/
def WorkflowRuntime.sleepDueAt (duration : Duration) : Except JsError Time :=
  match rt.state.waitingOn with
  | some (.timer _ dueAt stepIndex) =>
    if stepIndex = rt.callIndex then .ok dueAt else toDueAt now duration
  | _ => toDueAt now duration

/-- The state that a `sleep` persists when it is not due. -/
def WorkflowState.parkTimer (id : String) (dueAt : Time) (index : ℕ) : WorkflowState V :=
  { st with status := .waiting, waitingOn := some (.timer id dueAt index) }

/-- `#sleep`, up to its persist or to `#complete`. -/
def WorkflowRuntime.sleep (id : String) (duration : Duration) : WorkflowRuntime V × Call V :=
  if rt.Replays id then (rt.next, .returned none)
  else
    match rt.sleepDueAt now duration with
    | .error err => (rt.next, .threw err)
    | .ok dueAt =>
      if now < dueAt then
        (rt.nextWith (rt.state.parkTimer id dueAt rt.callIndex), .parked)
      else (rt.next, .completes rt.callIndex id none none)

variable (name : String)

/-- The position of the first queued signal with a name. -/
def WorkflowState.findSignal : Option ℕ :=
  st.signals.findIdx? fun signal => signal.name == name

/-- The state without the queued signal at a position. -/
def WorkflowState.dropSignal (k : ℕ) : WorkflowState V :=
  { st with signals := st.signals.eraseIdx k }

/-- The absolute time of the `timeout` option. -/
def signalTimeoutAt : Option Duration → Except JsError (Option Time)
  | none => .ok none
  | some timeout => (toDueAt now timeout).map some

/-- The error of a wait whose timeout has passed. -/
def signalTimedOut : JsError :=
  .new ("Workflow signal \"" ++ name ++ "\" timed out")

/-- The state that a `waitForSignal` persists when it pauses. -/
def WorkflowState.parkSignal (timeoutAt : Option Time)
    (index : ℕ) : WorkflowState V :=
  { st with status := .waiting, waitingOn := some (.signal name name index timeoutAt) }

/-- `#waitForSignal`, up to its persist or to `#complete`. The signal leaves the runtime's own copy
only. -/
def WorkflowRuntime.waitForSignal
    (timeout : Option Duration) : WorkflowRuntime V × Call V :=
  if rt.Replays name then (rt.next, .returned (rt.completed.bind (·.result)))
  else
    match rt.state.findSignal name with
    | some signalIndex =>
      let signal := rt.state.signals[signalIndex]?
      (rt.nextWith (rt.state.dropSignal signalIndex),
        .completes rt.callIndex name (signal.bind (·.payload)) signal)
    | none =>
      match signalTimeoutAt now timeout with
      | .error err => (rt.next, .threw err)
      | .ok timeoutAt =>
        if timeoutAt.any (· ≤ now) then (rt.next, .threw (signalTimedOut name))
        else (rt.nextWith (rt.state.parkSignal name timeoutAt rt.callIndex), .parked)

/-- `ctx.state.set` and `ctx.state.clear`, one after the other: they change the runtime's copy of
the state. -/
def WorkflowRuntime.write (ws : List (BagWrite V)) : WorkflowRuntime V :=
  { rt with state := { rt.state with state := applyWrites rt.state.state ws } }

variable (rt : WorkflowRuntime V)

lemma WorkflowRuntime.step_cases (id : String) :
    (rt.Replays id ∧ rt.step id = (rt.next, .returned (rt.completed.bind (·.result)))) ∨
    (¬ rt.Replays id ∧ rt.callIndex < rt.state.cursor ∧
      rt.step id = (rt.next, .threw (stepMismatch rt.callIndex rt.completed id))) ∨
    (rt.state.cursor ≤ rt.callIndex ∧ rt.step id = (rt.next, .runs rt.callIndex id)) := by
  unfold WorkflowRuntime.step
  split_ifs with hr hc
  · exact .inl ⟨hr, rfl⟩
  · exact .inr (.inl ⟨hr, hc, rfl⟩)
  · exact .inr (.inr ⟨Nat.le_of_not_lt hc, rfl⟩)

lemma WorkflowRuntime.sleep_cases (now : Time) (id : String) (duration : Duration) :
    (rt.Replays id ∧ rt.sleep now id duration = (rt.next, .returned none)) ∨
    (¬ rt.Replays id ∧ ∃ err, rt.sleepDueAt now duration = .error err ∧
      rt.sleep now id duration = (rt.next, .threw err)) ∨
    (¬ rt.Replays id ∧ ∃ dueAt, rt.sleepDueAt now duration = .ok dueAt ∧ now < dueAt ∧
      rt.sleep now id duration =
        (rt.nextWith (rt.state.parkTimer id dueAt rt.callIndex), .parked)) ∨
    (¬ rt.Replays id ∧ ∃ dueAt, rt.sleepDueAt now duration = .ok dueAt ∧ dueAt ≤ now ∧
      rt.sleep now id duration = (rt.next, .completes rt.callIndex id none none)) := by
  unfold WorkflowRuntime.sleep
  split_ifs with hr
  · exact .inl ⟨hr, rfl⟩
  · cases hd : rt.sleepDueAt now duration with
    | error err => exact .inr (.inl ⟨hr, err, rfl, rfl⟩)
    | ok dueAt =>
      by_cases hlt : now < dueAt
      · exact .inr (.inr (.inl ⟨hr, dueAt, rfl, hlt, by simp [hlt]⟩))
      · exact .inr (.inr (.inr ⟨hr, dueAt, rfl, not_lt.mp hlt, by simp [hlt]⟩))

lemma WorkflowRuntime.waitForSignal_cases (now : Time) (name : String)
    (timeout : Option Duration) :
    (rt.Replays name ∧ rt.waitForSignal now name timeout =
      (rt.next, .returned (rt.completed.bind (·.result)))) ∨
    (¬ rt.Replays name ∧ ∃ k signal, rt.state.findSignal name = some k ∧
      rt.state.signals[k]? = some signal ∧ signal.name = name ∧
      rt.waitForSignal now name timeout = (rt.nextWith (rt.state.dropSignal k),
          .completes rt.callIndex name signal.payload (some signal))) ∨
    (¬ rt.Replays name ∧ rt.state.findSignal name = none ∧ ∃ err,
      signalTimeoutAt now timeout = .error err ∧
      rt.waitForSignal now name timeout = (rt.next, .threw err)) ∨
    (¬ rt.Replays name ∧ rt.state.findSignal name = none ∧ ∃ timeoutAt,
      signalTimeoutAt now timeout = .ok timeoutAt ∧ timeoutAt.any (· ≤ now) ∧
      rt.waitForSignal now name timeout = (rt.next, .threw (signalTimedOut name))) ∨
    (¬ rt.Replays name ∧ rt.state.findSignal name = none ∧ ∃ timeoutAt,
      signalTimeoutAt now timeout = .ok timeoutAt ∧ timeoutAt.any (· ≤ now) = false ∧
      rt.waitForSignal now name timeout =
        (rt.nextWith (rt.state.parkSignal name timeoutAt rt.callIndex), .parked)) := by
  unfold WorkflowRuntime.waitForSignal
  split_ifs with hr
  · exact .inl ⟨hr, rfl⟩
  · cases hf : rt.state.findSignal name with
    | some k =>
      -- The position found is one of the queue, and the signal there has the name.
      obtain ⟨hk, hname, -⟩ := List.findIdx?_eq_some_iff_getElem.mp hf
      refine .inr (.inl ⟨hr, k, rt.state.signals[k], rfl, List.getElem?_eq_getElem hk, ?_, ?_⟩)
      · simpa using hname
      · simp [List.getElem?_eq_getElem hk]
    | none =>
      cases ht : signalTimeoutAt now timeout with
      | error err => exact .inr (.inr (.inl ⟨hr, rfl, err, rfl, rfl⟩))
      | ok timeoutAt =>
        by_cases hdue : timeoutAt.any (· ≤ now)
        · exact .inr (.inr (.inr (.inl ⟨hr, rfl, timeoutAt, rfl, hdue, by simp [hdue]⟩)))
        · exact .inr (.inr (.inr (.inr ⟨hr, rfl, timeoutAt, rfl, by simpa using hdue,
            by simp [hdue]⟩)))

/-- The first segment of one of the checkpoint calls. -/
inductive FirstSegment (rt : WorkflowRuntime V) : WorkflowRuntime V × Call V → Prop
  | step (id : String) : FirstSegment rt (rt.step id)
  | sleep (now : Time) (id : String) (duration : Duration) :
      FirstSegment rt (rt.sleep now id duration)
  | waitForSignal (now : Time) (name : String) (timeout : Option Duration) :
      FirstSegment rt (rt.waitForSignal now name timeout)

/-- The first segment of a checkpoint call takes the next index, and leaves the state, parks it, or
takes one signal out of its queue. -/
lemma FirstSegment.cases {rt : WorkflowRuntime V} {first : WorkflowRuntime V × Call V}
    (h : FirstSegment rt first) :
    (first.1 = rt.next ∧ first.2 ≠ .parked ∧
      ∀ index id result signal, first.2 ≠ .completes index id result (some signal)) ∨
    (∃ id dueAt, first = (rt.nextWith (rt.state.parkTimer id dueAt rt.callIndex), .parked)) ∨
    (∃ name timeoutAt, first =
      (rt.nextWith (rt.state.parkSignal name timeoutAt rt.callIndex), .parked)) ∨
    (∃ name k signal, rt.state.findSignal name = some k ∧ rt.state.signals[k]? = some signal ∧
      signal.name = name ∧ first = (rt.nextWith (rt.state.dropSignal k),
          .completes rt.callIndex name signal.payload (some signal))) := by
  cases h with
  | step id =>
    rcases rt.step_cases id with ⟨-, h⟩ | ⟨-, -, h⟩ | ⟨-, h⟩ <;> rw [h] <;>
      exact .inl ⟨rfl, by simp, by simp⟩
  | sleep now id duration =>
    rcases rt.sleep_cases now id duration with
      ⟨-, h⟩ | ⟨-, err, -, h⟩ | ⟨-, dueAt, -, -, h⟩ | ⟨-, dueAt, -, -, h⟩ <;> rw [h]
    · exact .inl ⟨rfl, by simp, by simp⟩
    · exact .inl ⟨rfl, by simp, by simp⟩
    · exact .inr (.inl ⟨id, dueAt, rfl⟩)
    · exact .inl ⟨rfl, by simp, by simp⟩
  | waitForSignal now name timeout =>
    rcases rt.waitForSignal_cases now name timeout with
      ⟨-, h⟩ | ⟨-, k, signal, hf, hk, hname, h⟩ | ⟨-, -, err, -, h⟩ | ⟨-, -, t, -, -, h⟩ |
      ⟨-, -, t, -, -, h⟩ <;> rw [h]
    · exact .inl ⟨rfl, by simp, by simp⟩
    · exact .inr (.inr (.inr ⟨name, k, signal, hf, hk, hname, rfl⟩))
    · exact .inl ⟨rfl, by simp, by simp⟩
    · exact .inl ⟨rfl, by simp, by simp⟩
    · exact .inr (.inr (.inl ⟨name, t, rfl⟩))

/-- The state that `#complete` builds on: the one it read back, unless the store holds none or one
of another workflow. -/
def WorkflowRuntime.base (rt : WorkflowRuntime V) : Option (WorkflowState V) → WorkflowState V
  | some latest => if latest.workflowId = rt.workflowId then latest else rt.state
  | none => rt.state

def stepRecord (id : String) (result : Option V) : WorkflowStepState V := ⟨id, .done, result⟩

/-- The state that `#complete` persists for the checkpoint `index`, on a base. -/
def WorkflowState.complete (base : WorkflowState V) (now : Time) (index : ℕ) (id : String)
    (result : Option V) : WorkflowState V :=
  let steps := base.steps.set index (stepRecord id result)
  { base with
    status := .running
    cursor := steps.advance WorkflowStepState.isDone base.cursor
    steps := steps
    updatedAt := now
    waitingOn := none }

/-! ## Runs: `start`, `resume`, `cancel`, `signal` and the end of `#drive` -/

/-- `#save`: what it writes for a state. -/
def WorkflowState.saved : WorkflowState V :=
  { st with updatedAt := now }

/-- The state that `start` saves. -/
def startState (runId workflowId : String) (now : Time) (input : Option V) (key : Option String) :
    WorkflowState V where
  runId := runId
  workflowId := workflowId
  status := .running
  cursor := 0
  input := input
  steps := []
  state := fun _ => none
  signals := []
  createdAt := now
  updatedAt := now
  key := key
  waitingOn := none
  result := none
  error := none

/-- The state that `resume` drives from. -/
def WorkflowState.resumed : WorkflowState V :=
  { st with status := .running }

/-- What `resume` does with the state that it read. -/
inductive Resume (V : Type)
  /-- It throws. -/
  | threw (err : JsError)
  /-- The run is done: it is returned as it is. -/
  | finished (st : WorkflowState V)
  /-- The run is driven from this state. -/
  | drives (st : WorkflowState V)

/-- `resume`, after its read, with the check of the workflow id that `#drive` starts with. -/
def resumeWith (runId workflowId : String) : Option (WorkflowState V) → Resume V
  | none => .threw (.new ("Workflow run " ++ runId ++ " not found"))
  | some loaded =>
    if loaded.status = .cancelled then
      .threw (.new ("Workflow run " ++ runId ++ " is cancelled"))
    else if loaded.status = .done then .finished loaded
    else if loaded.workflowId ≠ workflowId then
      .threw (.new ("Workflow run " ++ loaded.runId ++ " belongs to workflow \"" ++
        loaded.workflowId ++ "\""))
    else .drives loaded.resumed

/-- `resume` drives exactly the runs of its workflow that are neither done nor cancelled. -/
lemma resumeWith_eq_drives {runId workflowId : String} {loaded st : WorkflowState V} :
    resumeWith runId workflowId (some loaded) = .drives st ↔
      ¬ loaded.status.Final ∧ loaded.workflowId = workflowId ∧ st = loaded.resumed := by
  simp only [resumeWith, WorkflowStatus.Final]
  split_ifs with hc hd hw
  · simp [hc]
  · simp [hd]
  · simp [hw]
  · simp only [Resume.drives.injEq, hc, hd, or_self, not_false_eq_true, true_and]
    exact ⟨fun h => ⟨not_not.mp hw, h.symm⟩, fun h => h.2.symm⟩

/-- The state that `cancel` saves. -/
def WorkflowState.cancelled : WorkflowState V :=
  { st with status := .cancelled, waitingOn := none }

/-- The state that `#drive` saves at its end: `ok` on `captured`, the variable `state` that follows
the checkpoints, and errors on `current`, the runtime's state. -/
def settled (captured current : WorkflowState V) : Except JsError (Option V) → WorkflowState V
  | .ok output =>
    { captured with status := .done, result := output, waitingOn := none, error := none }
  | .error err =>
    if err.name = "WaitSignal" then current
    else if err.name = "AbortError" then current.cancelled
    else
      { current with
        status := .error
        error := some ⟨err.message, err.stack⟩
        waitingOn := none }

/-- The checks of `Workflow.signal` on the state that it read. -/
def signalCheck (runId name : String) : Option (WorkflowState V) → Except JsError (WorkflowState V)
  | none => .error (.new ("Workflow run " ++ runId ++ " not found"))
  | some st =>
    match st.status, st.waitingOn with
    | .waiting, some (.signal _ waitName _ _) =>
      if waitName = name then .ok st
      else
        .error (.new ("Workflow run " ++ runId ++ " is waiting for signal \"" ++ waitName ++ "\""))
    | _, _ => .error (.new ("Workflow run " ++ runId ++ " is not waiting for a signal"))

lemma signalCheck_eq_ok {runId name : String} {read : Option (WorkflowState V)}
    {st : WorkflowState V} :
    signalCheck runId name read = .ok st ↔ read = some st ∧ st.status = .waiting ∧
      ∃ id index timeoutAt, st.waitingOn = some (.signal id name index timeoutAt) := by
  cases read with
  | none => simp [signalCheck]
  | some st' =>
    simp only [signalCheck, Option.some.injEq]
    split
    · rename_i id waitName index timeoutAt hs hw
      split_ifs with hn
      · subst hn
        simp only [Except.ok.injEq]
        exact ⟨by rintro rfl; exact ⟨rfl, hs, _, _, _, hw⟩, fun h => h.1⟩
      · simp only [false_iff, not_and, not_exists]
        rintro rfl - _ _ _ h
        rw [hw] at h
        simp only [Option.some.injEq, WorkflowWait.signal.injEq] at h
        exact hn h.2.1
    · rename_i hne
      simp only [reduceCtorEq, false_iff, not_and, not_exists]
      rintro rfl hs id index timeoutAt hw
      exact hne id name index timeoutAt hs hw

/-- The state that `Workflow.signal` persists. -/
def WorkflowState.deliver (signal : WorkflowSignal V) : WorkflowState V :=
  { st with status := .running, signals := st.signals ++ [signal], waitingOn := none }

/-- A schema's validator: the message of the failure, if the value is rejected. -/
abbrev Schema (V : Type) := Option V → Option String

def validateValue (schema : Option (Schema V)) (value : Option V) (message : String) :
    Except JsError Unit :=
  match schema.bind fun validator => validator value with
  | none => .ok ()
  | some reason => .error (.new (message ++ ": " ++ reason))

/-- A function that the body hands to `ctx.step`: it ends with its writes to the durable bag, its
result, and the world after it. -/
abbrev Effect (V W : Type) := Bag V → W → List (BagWrite V) × Except JsError (Option V) × W

/-- The loop of `runWithRetry`, with `n` attempts left after the next one. A failed attempt's writes
to the bag stay. -/
def retryLoop (fn : Effect V W) : ℕ → Effect V W
  | 0, bag, w => fn bag w
  | n + 1, bag, w =>
    match fn bag w with
    | (ws, .ok value, w') => (ws, .ok value, w')
    | (ws, .error err, w') =>
      if err.name = "NonRetryableWorkflowError" then (ws, .error err, w')
      else
        let r := retryLoop fn n (applyWrites bag ws) w'
        (ws ++ r.1, r.2)

/-- `runWithRetry`: at least one attempt, and at most `maxAttempts`. -/
def runWithRetry (fn : Effect V W) (maxAttempts : Option ℤ) : Effect V W :=
  retryLoop fn ((max 1 (maxAttempts.getD 1)).toNat - 1)

structure Activity (V W : Type) where
  id : String
  inputSchema : Option (Schema V)
  outputSchema : Option (Schema V)
  maxAttempts : Option ℤ
  run : Option V → Effect V W

/-- The function that `#call` hands to `#step`: the activity, with its output checked. -/
def Activity.effect (activity : Activity V W) (input : Option V) : Effect V W := fun bag w =>
  match activity.run input bag w with
  | (ws, .error err, w') => (ws, .error err, w')
  | (ws, .ok output, w') =>
    match validateValue activity.outputSchema output
        ("Activity \"" ++ activity.id ++ "\" output validation failed") with
    | .error err => (ws, .error err, w')
    | .ok () => (ws, .ok output, w')

end Fino.Workflow
