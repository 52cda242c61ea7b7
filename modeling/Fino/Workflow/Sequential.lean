import Fino.Workflow.Runtime

/-!
# Bodies that make one call at a time

A body that awaits each `ctx` call is a tree of calls and of what it does with their outcomes.
`Body.drive` is `#drive` on such a body, with the runtime's copy of the state, the copy captured at
the last checkpoint, and the store. `WorkflowDef.run` is a `start` followed by any `resume` and
`signal` calls, one after the other. A step's function changes the world `W`, which has the clock.
-/

namespace Fino.Workflow

open Lib

variable {V W : Type}

/-- A body, as the calls that it makes in order. A continuation receives what the call's promise
settles with; a call that pauses the run does not come back. -/
inductive Body (V W : Type)
  /-- The body returns. -/
  | ret (output : Option V)
  /-- The body throws. -/
  | throw (err : JsError)
  /-- `ctx.step`. -/
  | step (id : String) (fn : Effect V W) (maxAttempts : Option ℤ)
      (k : Except JsError (Option V) → Body V W)
  /-- `ctx.call`. -/
  | call (activity : Activity V W) (input : Option V) (maxAttempts : Option ℤ)
      (k : Except JsError (Option V) → Body V W)
  /-- `ctx.sleep`. -/
  | sleep (id : String) (duration : Duration) (k : Except JsError (Option V) → Body V W)
  /-- `ctx.waitForSignal`. -/
  | waitForSignal (name : String) (timeout : Option Duration)
      (k : Except JsError (Option V) → Body V W)
  /-- `ctx.state.set` and `ctx.state.clear`. -/
  | write (w : BagWrite V) (k : Body V W)
  /-- `ctx.state.get`. -/
  | read (key : String) (k : Option V → Body V W)

/-- What can be seen of a run. Every event but `wrote` is one write of the store. -/
inductive Event (V : Type)
  /-- The body wrote to its bag. -/
  | wrote (w : BagWrite V)
  /-- `start` saved the run. -/
  | started (st : WorkflowState V)
  /-- `#complete` persisted the checkpoint `index`; `taken` is the signal that it returned. -/
  | checkpoint (index : ℕ) (id : String) (taken : Option (WorkflowSignal V)) (st : WorkflowState V)
  /-- A wait was persisted. -/
  | parked (st : WorkflowState V)
  /-- `#drive` saved the run at its end. -/
  | settled (outcome : Except JsError (Option V)) (st : WorkflowState V)
  /-- `signal` appended a signal to the queue. -/
  | delivered (signal : WorkflowSignal V) (st : WorkflowState V)

def Event.persisted : Event V → Option (WorkflowState V)
  | .wrote _ => none
  | .started st | .checkpoint _ _ _ st | .parked st | .settled _ st | .delivered _ st => some st

variable {Q : Event V → Prop}

lemma Event.forall_mem_wrote (hw : ∀ w, Q (.wrote w))
    (ws : List (BagWrite V)) : ∀ e ∈ ws.map Event.wrote, Q e := by
  intro e he
  obtain ⟨w, -, rfl⟩ := List.mem_map.mp he
  exact hw w

lemma Event.forall_mem_wrote_append (hw : ∀ w, Q (.wrote w)) (ws : List (BagWrite V))
    {last : Event V} (hlast : Q last) :
    ∀ e ∈ ws.map Event.wrote ++ [last], Q e := by
  intro e he
  rcases List.mem_append.mp he with he | he
  · exact Event.forall_mem_wrote hw ws e he
  · exact List.mem_singleton.mp he ▸ hlast

/-- The clock, as read from the world, and the passing of time between two segments. -/
structure Clock (W : Type) where
  now : W → Time
  tick : W → W

/-- A drive in progress: the runtime, the variable `state` of `#drive`, the store and the world. -/
structure Machine (V W : Type) where
  runtime : WorkflowRuntime V
  captured : WorkflowState V
  store : Option (WorkflowState V)
  world : W

/-- The drive of a run from a state, before the body's first call. -/
def Machine.begin (workflowId : String) (st : WorkflowState V) (store : Option (WorkflowState V))
    (world : W) : Machine V W :=
  ⟨⟨workflowId, 0, st⟩, st, store, world⟩

variable (clock : Clock W) (m : Machine V W)

def Machine.tick : Machine V W :=
  { m with world := clock.tick m.world }

/-- `#complete` and the checkpoint callback of `#drive`: the state built on the store becomes the
runtime's, the captured and the persisted one. -/
def Machine.complete (index : ℕ) (id : String)
    (result : Option V) (taken : Option (WorkflowSignal V)) : Event V × Machine V W :=
  let now := clock.now m.world
  let next := (m.runtime.base m.store).complete now index id result
  (.checkpoint index id taken (next.saved now),
    { m with
      runtime := { m.runtime with state := next }
      captured := next
      store := some (next.saved now) })

/-- A checkpoint call after its first segment: the events, the drive, and what it settles with, or
`none` when it paused the run. -/
def Machine.perform (first : WorkflowRuntime V × Call V) (effect : Effect V W) :
    List (Event V) × Machine V W × Option (Except JsError (Option V)) :=
  let m := { m with runtime := first.1 }
  match first.2 with
  | .returned value => ([], m, some (.ok value))
  | .threw err => ([], m, some (.error err))
  | .runs index id =>
    let (ws, reply, w) := effect m.runtime.state.state m.world
    let m := { m with runtime := m.runtime.write ws, world := clock.tick w }
    match reply with
    | .error err => (ws.map .wrote, m, some (.error err))
    | .ok value =>
      let (ev, m') := m.complete clock index id value none
      (ws.map .wrote ++ [ev], m', some (.ok value))
  | .completes index id result taken =>
    let (ev, m') := (m.tick clock).complete clock index id result taken
    ([ev], m', some (.ok result))
  | .parked => ([.parked first.1.state], { m with store := some first.1.state }, none)

/-- The end of `#drive`. -/
def Machine.settle (outcome : Except JsError (Option V)) : List (Event V) × Machine V W :=
  let m := m.tick clock
  let st := Workflow.settled m.captured m.runtime.state outcome
  let saved := st.saved (clock.now m.world)
  ([.settled outcome saved], { m with captured := st, store := some saved })

/-- The rest of a body after one of its calls, or the end of the drive when the call paused the run.
-/
def Machine.andThen (r : List (Event V) × Machine V W × Option (Except JsError (Option V)))
    (k : Except JsError (Option V) → Machine V W → List (Event V) × Machine V W) :
    List (Event V) × Machine V W :=
  match r.2.2 with
  | some reply => (r.1 ++ (k reply r.2.1).1, (k reply r.2.1).2)
  | none =>
    (r.1 ++ (r.2.1.settle clock (.error .waitSignal)).1,
      (r.2.1.settle clock (.error .waitSignal)).2)

/-- The function of a call that is not a step: it is never run. -/
def noEffect : Effect V W := fun _ w => ([], .ok none, w)

/-- `#drive` on a body, with the workflow's output schema: the events and the drive at its end. -/
def Body.drive (clock : Clock W) (outputSchema : Option (Schema V)) :
    Body V W → Machine V W → List (Event V) × Machine V W
  | .ret output, m =>
    m.settle clock
      ((validateValue outputSchema output "Workflow output validation failed").map fun _ => output)
  | .throw err, m => m.settle clock (.error err)
  | .write w k, m =>
    (.wrote w :: (drive clock outputSchema k { m with runtime := m.runtime.write [w] }).1,
      (drive clock outputSchema k { m with runtime := m.runtime.write [w] }).2)
  | .read key k, m => drive clock outputSchema (k (m.runtime.state.state key).join) m
  | .step id fn maxAttempts k, m =>
    Machine.andThen clock (m.perform clock (m.runtime.step id) (runWithRetry fn maxAttempts))
      fun reply m' => drive clock outputSchema (k reply) m'
  | .call activity input maxAttempts k, m =>
    match validateValue activity.inputSchema input
        ("Activity \"" ++ activity.id ++ "\" input validation failed") with
    | .error err => drive clock outputSchema (k (.error err)) m
    | .ok () =>
      Machine.andThen clock
        (m.perform clock (m.runtime.step activity.id)
          (runWithRetry (activity.effect input) (maxAttempts <|> activity.maxAttempts)))
        fun reply m' => drive clock outputSchema (k reply) m'
  | .sleep id duration k, m =>
    Machine.andThen clock
      ((m.tick clock).perform clock
        (m.runtime.sleep (clock.now (m.tick clock).world) id duration) noEffect)
      fun reply m' => drive clock outputSchema (k reply) m'
  | .waitForSignal name timeout k, m =>
    Machine.andThen clock
      ((m.tick clock).perform clock
        (m.runtime.waitForSignal (clock.now (m.tick clock).world) name timeout) noEffect)
      fun reply m' => drive clock outputSchema (k reply) m'

/-- `Workflow`: its id, its schemas and its body. -/
structure WorkflowDef (V W : Type) where
  id : String
  inputSchema : Option (Schema V)
  outputSchema : Option (Schema V)
  run : Option V → Body V W

/-- What happens to a run between its drives. -/
inductive Op (V : Type)
  | resume
  | signal (name : String) (payload : Option V)

/-- `#drive` on a run in the store: the events, and the store and the world after it. -/
def WorkflowDef.drive (wf : WorkflowDef V W) (clock : Clock W) (st : WorkflowState V)
    (store : Option (WorkflowState V)) (world : W) :
    List (Event V) × Option (WorkflowState V) × W :=
  let r := (wf.run st.input).drive clock wf.outputSchema (.begin wf.id st store world)
  (r.1, r.2.store, r.2.world)

/-- One call on a run, to its end. A call that throws before it writes leaves the store as it is. -/
def WorkflowDef.op (wf : WorkflowDef V W) (clock : Clock W) (runId : String)
    (store : Option (WorkflowState V)) (world : W) :
    Op V → List (Event V) × Option (WorkflowState V) × W
  | .resume =>
    match resumeWith runId wf.id store with
    | .drives st => wf.drive clock st store world
    | _ => ([], store, world)
  | .signal name payload =>
    match signalCheck runId name store with
    | .error _ => ([], store, world)
    | .ok st =>
      let signal := ⟨name, payload, clock.now (clock.tick world)⟩
      ([.delivered signal (st.deliver signal)], some (st.deliver signal), clock.tick world)

def WorkflowDef.ops (wf : WorkflowDef V W) (clock : Clock W) (runId : String) :
    List (Op V) → Option (WorkflowState V) → W → List (Event V) × Option (WorkflowState V) × W
  | [], store, world => ([], store, world)
  | op :: ops, store, world =>
    let r := wf.op clock runId store world op
    let r' := WorkflowDef.ops wf clock runId ops r.2.1 r.2.2
    (r.1 ++ r'.1, r'.2)

/-- A run: `start`, then any sequence of calls. An input that the schema rejects is not saved. -/
def WorkflowDef.trace (wf : WorkflowDef V W) (clock : Clock W) (runId : String) (input : Option V)
    (key : Option String) (ops : List (Op V)) (world : W) : List (Event V) :=
  match validateValue wf.inputSchema input "Workflow input validation failed" with
  | .error _ => []
  | .ok () =>
    let world := clock.tick world
    let st := startState runId wf.id (clock.now world) input key
    let r := wf.drive clock st (some st) world
    .started st :: (r.1 ++ (wf.ops clock runId ops r.2.1 r.2.2).1)

/-! ## One rule for every body -/

section Rule

/-- To hold throughout every drive: writes, checkpoint calls and time keep `P`, a call that pauses
the run establishes `P'`, the calls emit only events in `Q`, and the end emits one in `Q` and
establishes `R`. -/
structure DriveRule (clock : Clock W) (P P' : Machine V W → Prop) (Q : Event V → Prop)
    (R : Machine V W → Prop) : Prop where
  tick : ∀ m, P m → P (m.tick clock)
  write : ∀ m w, P m → P { m with runtime := m.runtime.write [w] }
  wrote : ∀ w, Q (.wrote w)
  perform : ∀ m first effect, P m → FirstSegment m.runtime first →
    (∀ e ∈ (m.perform clock first effect).1, Q e) ∧
      ((m.perform clock first effect).2.2.isSome → P (m.perform clock first effect).2.1) ∧
      ((m.perform clock first effect).2.2 = none → P' (m.perform clock first effect).2.1)
  settle : ∀ m outcome, P m →
    (∀ e ∈ (m.settle clock outcome).1, Q e) ∧ R (m.settle clock outcome).2
  paused : ∀ m, P' m →
    (∀ e ∈ (m.settle clock (.error .waitSignal)).1, Q e) ∧ R (m.settle clock (.error .waitSignal)).2

variable {clock : Clock W} {P P' : Machine V W → Prop} {Q : Event V → Prop}
  {R : Machine V W → Prop}

lemma DriveRule.andThen (h : DriveRule clock P P' Q R)
    {r : List (Event V) × Machine V W × Option (Except JsError (Option V))}
    {k : Except JsError (Option V) → Machine V W → List (Event V) × Machine V W}
    (hr : (∀ e ∈ r.1, Q e) ∧ (r.2.2.isSome → P r.2.1) ∧ (r.2.2 = none → P' r.2.1))
    (hk : ∀ reply m, P m → (∀ e ∈ (k reply m).1, Q e) ∧ R (k reply m).2) :
    (∀ e ∈ (Machine.andThen clock r k).1, Q e) ∧ R (Machine.andThen clock r k).2 := by
  obtain ⟨hevents, hnext, hpaused⟩ := hr
  unfold Machine.andThen
  cases hreply : r.2.2 with
  | some reply =>
    obtain ⟨hq, hR⟩ := hk reply r.2.1 (hnext (by simp [hreply]))
    refine ⟨fun e he => ?_, hR⟩
    rcases List.mem_append.mp he with he | he
    · exact hevents e he
    · exact hq e he
  | none =>
    obtain ⟨hq, hR⟩ := h.paused r.2.1 (hpaused hreply)
    refine ⟨fun e he => ?_, hR⟩
    rcases List.mem_append.mp he with he | he
    · exact hevents e he
    · exact hq e he

lemma DriveRule.drive (h : DriveRule clock P P' Q R) (outputSchema : Option (Schema V))
    (body : Body V W) (m : Machine V W) (hm : P m) :
    (∀ e ∈ (body.drive clock outputSchema m).1, Q e) ∧ R (body.drive clock outputSchema m).2 := by
  induction body generalizing m with
  | ret output | throw err => exact h.settle m _ hm
  | write w k ih =>
    obtain ⟨hq, hR⟩ := ih _ (h.write m w hm)
    refine ⟨fun e he => ?_, hR⟩
    rcases List.mem_cons.mp he with rfl | he
    · exact h.wrote w
    · exact hq e he
  | read key k ih => exact ih _ m hm
  | step id fn maxAttempts k ih =>
    exact h.andThen (h.perform m _ _ hm (.step id)) fun reply m' hm' => ih reply m' hm'
  | call activity input maxAttempts k ih =>
    unfold Body.drive
    cases validateValue activity.inputSchema input
      ("Activity \"" ++ activity.id ++ "\" input validation failed") with
    -- A refused input throws before the call takes an index.
    | error err => exact ih _ m hm
    | ok =>
      exact h.andThen (h.perform m _ _ hm (.step activity.id)) fun reply m' hm' => ih reply m' hm'
  | sleep id duration k ih =>
    exact h.andThen (h.perform _ _ _ (h.tick m hm) (.sleep _ id duration))
      fun reply m' hm' => ih reply m' hm'
  | waitForSignal name timeout k ih =>
    exact h.andThen (h.perform _ _ _ (h.tick m hm) (.waitForSignal _ name timeout))
      fun reply m' hm' => ih reply m' hm'

end Rule

/-- A clock that reads the number of ticks so far. -/
def tickClock : Clock ℕ := ⟨fun w => w, fun w => w + 1⟩

end Fino.Workflow
