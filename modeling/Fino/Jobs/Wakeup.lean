import Fino.Workflow.Delivery
import Fino.Jobs.Lifecycle

/-!
# Durable jobs and the signals that wake them

A durable job has a row in the table of jobs and a workflow run, written apart: a dispatch persists
the wait of the run and then parks the row with `markWaiting`, and `JobsService.signal` saves the
run with the signal and then wakes the row. An action of `Durable` is one operation of one of the
stores.

`wake` does nothing to a row that is not `waiting` yet, so a signal between the two leaves a job
that waits for good (`signal_before_park_lost`). None is lost when each dispatch parks its job while
the stored run still waits (`ParksInTime`); a run that waits for a signal has none of that name in
its queue (`WorkflowState.Clean`).
-/

namespace Fino.Jobs

open Lib Option SparseArray
open Workflow (Time WorkflowWait WorkflowFailure WorkflowState WorkflowSignal JsError Drive
  Derives)

variable {V : Type}

/-! ## The system -/

/-- A call of `JobsService.signal`: it has found the job's run, or loaded it, or saved it with the
signal. -/
inductive SignalCall (V : Type)
  | found (runId name : String) (payload : Option V)
  | loaded (runId name : String) (payload : Option V) (read : Option (WorkflowState V))
  | saved

/-- Whether a call has saved the signal and has yet to wake the job. -/
def SignalCall.isSaved : SignalCall V → Bool
  | .saved => true
  | _ => false

/-- The services, the run of one durable job, whether each of its dispatches found a run when it
began, and the calls of `signal` for the job. -/
structure Durable (V : Type) where
  jobs : Sys V
  run : Workflow.Sys V
  existing : SparseArray Bool
  signals : SparseArray (SignalCall V)

def Durable.empty : Durable V := ⟨.empty, .empty, [], []⟩

inductive DurableAction (V : Type)
  /-- An operation on the table of jobs. -/
  | jobs (a : Action V)
  /-- `#startOrResume` looks whether there is a run. -/
  | load (dispatch : ℕ)
  /-- A segment of the drive of a dispatch. -/
  | run (a : Workflow.Action V)
  /-- `signal` looks up the job. -/
  | signalGetJob (call : ℕ) (name : String) (payload : Option V)
  /-- `signal` loads the run. -/
  | signalLoad (call : ℕ)
  /-- `signal` saves the run with the signal. -/
  | signalSave (call : ℕ) (now : Time)
  /-- `signal` wakes the job. -/
  | signalWake (call : ℕ) (now : Time)

variable (jobId : String)

/-- The id of the run of a durable job: `dispatchJob` makes it up, and `markWaiting` records it. -/
def jobRunId : String := "job-" ++ jobId

/-- The dispatch that a segment belongs to: as a drive, a handle or a pending `resume` it has its
number. -/
def dispatchOf : Workflow.Action V → Option ℕ
  | .start h d _ _ _ _ => if h = d then some d else none
  | .resumeGet c h _ => if c = h then some c else none
  | .resumeRun c d => if c = d then some d else none
  | .write d _ | .request d _ | .stepEnds d _ _ _ | .completeGet d | .completeSet d _ |
    .settle d _ _ => some d
  | _ => none

variable (s : Durable V)

/-- The dispatch `k` is one of the job, and its processor is running. -/
def Durable.Runs (k : ℕ) : Prop :=
  ∃ d, s.jobs.dispatches.get k = some d ∧ d.running = true ∧ d.job.id = jobId

instance (jobId : String) (s : Durable V) (k : ℕ) : Decidable (s.Runs jobId k) := by
  unfold Durable.Runs
  infer_instance

/-- A run is started by a dispatch that has seen none, and resumed by one that has. -/
def Durable.Proceeds (k : ℕ) : Workflow.Action V → Prop
  | .start .. => s.Runs jobId k ∧ s.existing.get k = some false
  | .resumeGet .. => s.Runs jobId k ∧ s.existing.get k = some true
  | _ => True

instance (jobId : String) (s : Durable V) (k : ℕ) (a : Workflow.Action V) :
    Decidable (s.Proceeds jobId k a) := by
  induction a using Workflow.Action.casesOn <;> unfold Durable.Proceeds <;> infer_instance

def JobsWireResult.wait : JobsWireResult V → Option WorkflowWait
  | .parked _ waitingOn => some waitingOn
  | _ => none

/-- `dispatchJob` reports a park when the drive has ended in a state that waits; its other results
are left open. -/
def Durable.Reports (k : ℕ) : JobsWireResult V → Prop
  | .parked runId waitingOn => s.Runs jobId k → runId = jobRunId jobId ∧
    ∃ drive, s.run.drives.get k = some drive ∧ drive.ended = true ∧
      drive.captured.status = .waiting ∧ drive.captured.waitingOn = some waitingOn
  | _ => True

instance (jobId : String) (s : Durable V) (k : ℕ) (result : JobsWireResult V) :
    Decidable (s.Reports jobId k result) := by
  induction result using JobsWireResult.casesOn <;> unfold Durable.Reports <;> infer_instance

/-- The run without the drive and the pending `resume` of a dispatch that is gone. -/
def forget (run : Workflow.Sys V) (k : ℕ) : Workflow.Sys V :=
  { run with drives := run.drives.erase k, calls := run.calls.erase k }

/-- The first check of `signal`: the job is there, and has a run. -/
def signalTarget : Option (JobRecord V) → Except JsError String
  | none => .error (.new ("job " ++ jobId ++ " not found"))
  | some job =>
    match job.workflowRunId with
    | none => .error (.new ("job " ++ jobId ++ " has no durable run to signal"))
    | some runId => .ok runId

/-- The other checks of `signal`, on the run that it has loaded. -/
def signalRunCheck (jobId runId name : String) :
    Option (WorkflowState V) → Except JsError (WorkflowState V)
  | none => .error (.new ("workflow run " ++ runId ++ " not found"))
  | some st =>
    match st.status, st.waitingOn with
    | .waiting, some (.signal _ waitName _ _) =>
      if waitName = name then .ok st
      else
        .error (.new ("job " ++ jobId ++ " is waiting for signal \"" ++ waitName ++ "\", not \"" ++
          name ++ "\""))
    | _, _ => .error (.new ("job " ++ jobId ++ " is not waiting for a signal"))

/-- The state that an action leads to, or `none` if the party is not there. A call of `signal` that
throws is over. -/
def Durable.step : DurableAction V → Option (Durable V)
  | .jobs (.finish k now random result) =>
    if s.Reports jobId k result then
      (Jobs.step s.jobs (.finish k now random result)).map fun t => { s with jobs := t }
    else none
  | .jobs (.crash k) =>
    -- The process of a dispatch is gone, and the drive with it.
    (Jobs.step s.jobs (.crash k)).map fun t => { s with jobs := t, run := forget s.run k }
  | .jobs a => (Jobs.step s.jobs a).map fun t => { s with jobs := t }
  | .load k =>
    if s.Runs jobId k then some { s with existing := s.existing.set k s.run.store.isSome } else none
  | .run a =>
    match dispatchOf a with
    | some k =>
      if s.Proceeds jobId k a then
        (Workflow.step (jobRunId jobId) s.run a).map fun t => { s with run := t }
      else none
    | none => none
  | .signalGetJob c name payload =>
    if (s.signals.get c).isSome then none
    else
      match signalTarget jobId (s.jobs.table.row jobId) with
      | .ok runId => some { s with signals := s.signals.set c (.found runId name payload) }
      -- No such job, or one whose first park is not recorded yet.
      | .error _ => some s
  | .signalLoad c =>
    match s.signals.get c with
    | some (.found runId name payload) =>
      let read := if runId = jobRunId jobId then s.run.store else none
      some { s with signals := s.signals.set c (.loaded runId name payload read) }
    | _ => none
  | .signalSave c now =>
    match s.signals.get c with
    | some (.loaded runId name payload read) =>
      match signalRunCheck jobId runId name read with
      | .ok st =>
        some { s with
          run := { s.run with store := some (st.deliver ⟨name, payload, now⟩) }
          signals := s.signals.set c .saved }
      | .error _ => some { s with signals := s.signals.erase c }
    | _ => none
  | .signalWake c now =>
    match s.signals.get c with
    | some .saved =>
      (Jobs.step s.jobs (.wake jobId now)).map fun t =>
        { s with jobs := t, signals := s.signals.erase c }
    | _ => none

/-- What an action can do to the jobs and to the durable run. -/
inductive DurableStep (jobId : String) (s : Durable V) : DurableAction V → Durable V → Prop
  | jobs {a : Action V} {t : Sys V} (hstep : Step s.jobs a t) (hcrash : ∀ k, a ≠ .crash k) :
      DurableStep jobId s (.jobs a) { s with jobs := t }
  | crash {k : ℕ} {t : Sys V} (hstep : Step s.jobs (.crash k) t) :
      DurableStep jobId s (.jobs (.crash k)) { s with jobs := t, run := forget s.run k }
  | load {k : ℕ} {existing : SparseArray Bool} :
      DurableStep jobId s (.load k) { s with existing := existing }
  | run {a : Workflow.Action V} {k : ℕ} {t : Workflow.Sys V} (hk : dispatchOf a = some k)
      (hproceeds : s.Proceeds jobId k a) (hstep : Workflow.Step (jobRunId jobId) s.run a t) :
      DurableStep jobId s (.run a) { s with run := t }
  | asks {a : DurableAction V} {signals : SparseArray (SignalCall V)}
      (hsaved : ∀ c, s.signals.get c = some .saved → signals.get c = some .saved) :
      DurableStep jobId s a { s with signals := signals }
  | saves {c : ℕ} {now : Time} {st : WorkflowState V} {signal : WorkflowSignal V} :
      DurableStep jobId s (.signalSave c now)
        { s with
          run := { s.run with store := some (st.deliver signal) }
          signals := s.signals.set c .saved }
  | wakes {c : ℕ} {now : Time} {t : JobsTable V}
      (hwrites : Writes s.jobs.table (wake jobId now) t) :
      DurableStep jobId s (.signalWake c now)
        { s with
          jobs := { s.jobs with table := t }
          signals := s.signals.erase c }

variable {signals : SparseArray (SignalCall V)}

/-- A call that goes on from a phase in which it has saved nothing leaves those that have. -/
lemma saved_of_set {c : ℕ} {call : SignalCall V} (hc : signals.get c ≠ some .saved) :
    ∀ i, signals.get i = some .saved → (signals.set c call).get i = some .saved := by
  intro i hi
  rw [get_set_ne _ _ (by rintro rfl; exact hc hi)]
  exact hi

lemma saved_of_erase {c : ℕ} (hc : signals.get c ≠ some .saved) :
    ∀ i, signals.get i = some .saved → (signals.erase c).get i = some .saved := by
  intro i hi
  rw [get_erase, if_neg (by rintro rfl; exact hc hi)]
  exact hi

variable {s : Durable V} {jobId : String}

/-- Every action has one of these forms. -/
lemma DurableStep.of_step {t : Durable V} {a : DurableAction V} (h : s.step jobId a = some t) :
    DurableStep jobId s a t := by
  cases a with
  | jobs a =>
    cases a with
    | finish k now random result =>
      simp only [Durable.step, ite_none_right_eq_some, map_eq_some_iff] at h
      obtain ⟨-, t', hstep, rfl⟩ := h
      exact .jobs (.of_step hstep) (by simp)
    | crash k =>
      simp only [Durable.step, map_eq_some_iff] at h
      obtain ⟨t', hstep, rfl⟩ := h
      exact .crash (.of_step hstep)
    | _ =>
      simp only [Durable.step, map_eq_some_iff] at h
      obtain ⟨t', hstep, rfl⟩ := h
      exact .jobs (.of_step hstep) (by simp)
  | load k =>
    simp only [Durable.step, ite_none_right_eq_some, some.injEq] at h
    obtain ⟨-, rfl⟩ := h
    exact .load
  | run a =>
    simp only [Durable.step] at h
    split at h
    · rename_i k hk
      simp only [ite_none_right_eq_some, map_eq_some_iff] at h
      obtain ⟨hproceeds, t', hstep, rfl⟩ := h
      exact .run hk hproceeds (.of_step hstep)
    · simp at h
  | signalGetJob c name payload =>
    simp only [Durable.step, ite_none_left_eq_some, not_isSome_iff_eq_none] at h
    obtain ⟨hc, h⟩ := h
    split at h
    · exact (some.inj h) ▸ .asks (saved_of_set (by simp [hc]))
    · exact (some.inj h) ▸ .asks fun _ hi => hi
  | signalLoad c =>
    simp only [Durable.step] at h
    split at h
    · rename_i runId name payload hc
      exact (some.inj h) ▸ .asks (saved_of_set (by simp [hc]))
    · simp at h
  | signalSave c now =>
    simp only [Durable.step] at h
    split at h
    · rename_i runId name payload read hc
      split at h
      · exact (some.inj h) ▸ .saves
      · exact (some.inj h) ▸ .asks (saved_of_erase (by simp [hc]))
    · simp at h
  | signalWake c now =>
    simp only [Durable.step] at h
    split at h
    · -- The update of `wake` does not fail, so it has its effect.
      obtain ⟨t', hupdate⟩ := isSome_iff_exists.mp (wake_isSome jobId now s.jobs.table)
      simp only [step, Sys.withTable, reporting, hupdate, map_some, getD_some, some.injEq] at h
      exact h ▸ .wakes (Table.row_update hupdate)
    · simp at h

/-! ## Who is at work while the job waits -/

/-- The job is parked until the signal comes. -/
def JobRecord.WaitsFor (name : String) (r : JobRecord V) : Prop :=
  r.status = .waiting ∧ ∃ id index timeoutAt, r.waitingOn = some (.signal id name index timeoutAt)

variable {a : Action V} {t : Sys V} {r : JobRecord V}

/-- A row that is `waiting` after an operation was so before, or it has just been parked. -/
lemma Step.waiting_cases {s : Sys V} (h : Step s a t) {id : String} (hr : t.table.row id = some r)
    (hst : r.status = .waiting) :
    s.table.row id = some r ∨ ∃ k now random runId w d, a = .finish k now random (.parked runId w) ∧
      s.dispatches.get k = some d ∧ d.running ∧ d.job.id = id ∧ r.waitingOn = some w := by
  cases h with
  | stays | ends => exact .inl hr
  | inserts hnew hrow =>
    rw [hrow] at hr
    split_ifs at hr
    · cases hr
      exact absurd hst (by simp [InsertJob.toRow])
    · exact .inl hr
  | claims hwrites hjobs =>
    obtain ⟨q, hq, ⟨-, rfl⟩ | ⟨hf, rfl⟩⟩ := hwrites.row_inv hr
    · exact .inl hq
    · exact absurd hst (by simp [claim])
  | writes ha hwrites =>
    obtain ⟨q, hq, ⟨-, rfl⟩ | ⟨hf, rfl⟩⟩ := hwrites.row_inv hr
    · exact .inl hq
    · -- The statements that set a status set another one, and `heartbeat` selects no waiting row.
      rcases statement_lifecycle ha hf with hsame | ⟨e, he, hmove⟩
      · rw [hst] at hsame
        cases a <;> simp only [Action.statement, reduceCtorEq, some.injEq] at ha <;>
          subst ha <;>
            simp [sweep, heartbeat, cancel, retry, wake, JobRecord.expired, ← hsame] at hf hst
      · rw [hst] at hmove
        obtain rfl := hmove.event_of_waiting
        cases a <;> simp [Action.event, Action.statement] at he ha
  | begins hk hfirst hwrites =>
    obtain ⟨q, hq, ⟨-, rfl⟩ | ⟨hf, rfl⟩⟩ := hwrites.row_inv hr
    · exact .inl hq
    · exact absurd hst (by simp [markRunning, update, JobRecord.touched])
  | finishes hk hrun hwrites =>
    rename_i k now random result d t
    obtain ⟨q, hq, ⟨-, rfl⟩ | ⟨hf, rfl⟩⟩ := hwrites.row_inv hr
    · exact .inl hq
    · have hid : q.id = d.job.id := by simpa using hf
      cases result with
      | parked runId w =>
        exact .inr ⟨k, now, random, runId, w, d, rfl, hk, hrun,
          hid.symm.trans (Table.key_of_row hq), rfl⟩
      | ok output =>
        exact absurd hst (by simp [Dispatch.outcome, markDone, update, JobRecord.touched])
      | failed error retryable =>
        simp only [Dispatch.outcome] at hst
        split_ifs at hst <;>
          exact absurd hst (by simp [markRetry, markDead, update, JobRecord.touched])

variable {k : ℕ}

/-- A dispatch at work is still so after an operation, unless it has written its outcome or is
gone. -/
lemma Step.runs (h : Step s.jobs a t) (hk : s.Runs jobId k)
    (hfinish : ∀ now random result, a ≠ .finish k now random result) (hcrash : a ≠ .crash k) :
    ∃ d, t.dispatches.get k = some d ∧ d.running ∧ d.job.id = jobId := by
  obtain ⟨d, hd, hrun, hid⟩ := hk
  -- What erases a dispatch erases another one.
  have herase : ∀ l, k ≠ l → (s.jobs.dispatches.erase l).get k = some d := by
    intro l hkl
    rw [get_erase, if_neg fun h => hkl h.symm, hd]
  cases h with
  | stays | inserts | writes => exact ⟨d, hd, hrun, hid⟩
  | claims hwrites hjobs =>
    refine ⟨d, ?_, hrun, hid⟩
    rw [get_extend, if_pos (lt_length_of_get _ hd), hd]
  | begins hl hfirst hwrites =>
    refine ⟨d, ?_, hrun, hid⟩
    rw [get_set_ne, hd]
    rintro rfl
    obtain rfl := some.inj (hd.symm.trans hl)
    exact absurd hrun (by simp [hfirst])
  | finishes hl hrun' hwrites =>
    rename_i l now random result e t
    exact ⟨d, herase l (by rintro rfl; exact hfinish _ _ _ rfl), hrun, hid⟩
  | ends ha hfirst =>
    rename_i l
    refine ⟨d, herase l ?_, hrun, hid⟩
    rintro rfl
    cases a with
    | markRunning k' now =>
      cases ha
      exact absurd hrun (by simp [hfirst now rfl d hd])
    | finish k' now random result =>
      cases ha
      exact hfinish _ _ _ rfl
    | crash k' =>
      cases ha
      exact hcrash rfl
    | _ => exact absurd ha (by simp [Action.dispatch])

/-- The drives of the run that are not over, and the `resume`s under way, are those of dispatches of
the job that are at work. -/
structure Attended (jobId : String) (s : Durable V) : Prop where
  drives : ∀ k drive, s.run.drives.get k = some drive → ¬ drive.Over → s.Runs jobId k
  calls : ∀ k call, s.run.calls.get k = some call → s.Runs jobId k

/-- When a dispatch records that the run waits, the stored run still waits for the same; when it
records its outcome, nothing of its drive is under way. A drive that has ended makes no more calls,
and no dispatched job is disturbed. -/
def ParksInTime (jobId : String) (s : Durable V) : DurableAction V → Prop
  | .jobs (.finish k _ _ result) => s.Runs jobId k →
    (∀ drive ∈ s.run.drives.get k, drive.Over) ∧ (s.run.calls.get k).isNone ∧
      ∀ w ∈ result.wait, s.run.store.bind (·.waitingOn) = some w
  | .jobs a => Undisturbed s.jobs a
  | .run (.request d _) => ∀ drive ∈ s.run.drives.get d, drive.ended = false
  | _ => True

lemma ParksInTime.ne_request {a : Workflow.Action V} {d : ℕ} {drive : Drive V}
    (h : ParksInTime jobId s (.run a)) (hd : s.run.drives.get d = some drive) (hover : drive.Over) :
    ∀ req, a ≠ .request d req := by
  rintro req rfl
  exact absurd hover.1 (by simp [h drive hd])

lemma ParksInTime.undisturbed (h : ParksInTime jobId s (.jobs a)) : Undisturbed s.jobs a := by
  cases a with
  | finish => trivial
  | _ => exact h

lemma Leased.not_runs (hs : Leased s.jobs) (hr : s.jobs.table.row jobId = some r)
    (hst : r.status = .waiting) (k : ℕ) :
    ¬ s.Runs jobId k := by
  rintro ⟨d, hd, -, rfl⟩
  rcases hs.busy hd hr with h | h <;> exact absurd (hst.symm.trans h) (by simp)

lemma Attended.run {a : Workflow.Action V} {t : Workflow.Sys V} (hs : Attended jobId s)
    (hok : ParksInTime jobId s (.run a)) (hk : dispatchOf a = some k)
    (hproceeds : s.Proceeds jobId k a) (hstep : Workflow.Step (jobRunId jobId) s.run a t) :
    Attended jobId { s with run := t } where
  drives l drive' hl hover := by
    rcases hstep.drive_cases hl with hl | ⟨drive, saved, kept, hl, hmove, -⟩ |
      ⟨h, w, now, input, key, rfl, -⟩ | ⟨c, h, w, loaded, rfl, hc, -, -⟩
    · exact hs.drives l drive' hl hover
    · -- A drive that moves to where it is not over was not over before.
      exact hs.drives l drive hl fun hover' =>
        hover (hmove.of_over hover' (hok.ne_request hl hover')).1
    · simp only [dispatchOf, ite_none_right_eq_some, some.injEq] at hk
      exact hk.2 ▸ hproceeds.1
    · simp only [dispatchOf, ite_none_right_eq_some, some.injEq] at hk
      exact hk.1 ▸ hs.calls c _ hc
  calls l call hl := by
    have herase : ∀ c, (s.run.calls.erase c).get l = some call → s.Runs jobId l :=
      fun c h => hs.calls l call (get_of_get_erase _ h).2
    cases hstep with
    | resumeGet hc =>
      simp only [dispatchOf, ite_none_right_eq_some, some.injEq] at hk
      rw [get_set] at hl
      split_ifs at hl with hcl
      · exact hcl ▸ hk.2.symm ▸ hproceeds.1
      · exact hs.calls l call hl
    | resumeDrives => exact herase _ hl
    | resumeEnds => exact herase _ (by simpa using hl)
    | start => exact hs.calls l call hl
    | moves hd hmove => exact hs.calls l call (by simpa using hl)
    | _ => exact absurd hk (by simp [dispatchOf])

lemma Attended.store_eq {a : Workflow.Action V} {t : Workflow.Sys V} (hs : Attended jobId s)
    (hok : ParksInTime jobId s (.run a)) (hk : dispatchOf a = some k)
    (hproceeds : s.Proceeds jobId k a) (hstep : Workflow.Step (jobRunId jobId) s.run a t)
    (hidle : ∀ k, ¬ s.Runs jobId k) :
    t.store = s.run.store := by
  cases hstep with
  | start | resumeGet => exact absurd hproceeds.1 (hidle _)
  | resumeDrives hc | resumeEnds hc => exact absurd (hs.calls _ _ hc) (hidle _)
  | moves hd hmove =>
    rename_i d drive drive' saved kept
    have hover : drive.Over := by
      by_contra h
      exact hidle d (hs.drives d drive hd h)
    rw [Workflow.Sys.moved_store, (hmove.of_over hover (hok.ne_request hd hover)).2, none_or]
  | _ => exact absurd hk (by simp [dispatchOf])

/-! ## No wake-up is lost -/

/-- While the row waits for a signal, the stored run has none of its name, unless a `signal` has
just saved one and is about to wake the job. -/
structure Awake (jobId : String) (s : Durable V) : Prop where
  leased : Leased s.jobs
  clean : s.run.All WorkflowState.Clean
  attended : Attended jobId s
  woken : ∀ r name, s.jobs.table.row jobId = some r → r.WaitsFor name →
    (∀ p, s.run.store = some p → p.NoSignal name) ∨ ∃ c, s.signals.get c = some .saved

lemma Awake.jobs (hs : Awake jobId s) (hok : ParksInTime jobId s (.jobs a))
    (hstep : Step s.jobs a t) (hcrash : ∀ k, a ≠ .crash k) :
    Awake jobId { s with jobs := t } where
  leased := hstep.leased hok.undisturbed hs.leased
  clean := hs.clean
  attended := by
    constructor
    · intro k drive hk hover
      have hruns := hs.attended.drives k drive hk hover
      refine hstep.runs hruns ?_ (hcrash k)
      rintro now random result rfl
      exact hover ((hok hruns).1 drive hk)
    · intro k call hk
      have hruns := hs.attended.calls k call hk
      refine hstep.runs hruns ?_ (hcrash k)
      rintro now random result rfl
      exact absurd (hok hruns).2.1 (by simp [hk])
  woken r name hr hw := by
    rcases hstep.waiting_cases hr hw.1 with
      hold | ⟨k, now, random, runId, w, d, rfl, hd, hrun, hid, hwait⟩
    · exact hs.woken r name hold hw
    · -- The row is parked on what the stored run waits for, so there is no signal of that name.
      obtain ⟨-, id, index, timeoutAt, hw⟩ := hw
      obtain rfl := some.inj (hwait.symm.trans hw)
      refine .inl fun p hp => hs.clean.store p hp id name index timeoutAt ?_
      have hstill := (hok ⟨d, hd, hrun, hid⟩).2.2 _ rfl
      rwa [hp] at hstill

lemma Awake.crash (hs : Awake jobId s) (hstep : Step s.jobs (.crash k) t) :
    Awake jobId { s with jobs := t, run := forget s.run k } where
  leased := hstep.leased trivial hs.leased
  clean := (hs.clean.withoutDrive k).withoutCall k
  attended := by
    constructor
    · intro l drive hl hover
      obtain ⟨hlk, hl⟩ := get_of_get_erase _ hl
      exact hstep.runs (hs.attended.drives l drive hl hover) (by simp) (by simpa using hlk.symm)
    · intro l call hl
      obtain ⟨hlk, hl⟩ := get_of_get_erase _ hl
      exact hstep.runs (hs.attended.calls l call hl) (by simp) (by simpa using hlk.symm)
  woken r name hr hw := by
    rcases hstep.waiting_cases hr hw.1 with hold | ⟨_, _, _, _, _, _, ha, -⟩
    · exact hs.woken r name hold hw
    · simp at ha

lemma DurableStep.awake {t : Durable V} {a : DurableAction V} (h : DurableStep jobId s a t)
    (hok : ParksInTime jobId s a) (hs : Awake jobId s) :
    Awake jobId t := by
  cases h with
  | jobs hstep hcrash => exact hs.jobs hok hstep hcrash
  | crash hstep => exact hs.crash hstep
  | load => exact ⟨hs.leased, hs.clean, ⟨hs.attended.drives, hs.attended.calls⟩, hs.woken⟩
  | run hk hproceeds hstep =>
    refine ⟨hs.leased, hstep.clean hs.clean, hs.attended.run hok hk hproceeds hstep,
      fun r name hr hw => ?_⟩
    have hstore := hs.attended.store_eq hok hk hproceeds hstep (hs.leased.not_runs hr hw.1)
    simpa only [hstore] using hs.woken r name hr hw
  | asks hsaved =>
    refine ⟨hs.leased, hs.clean, ⟨hs.attended.drives, hs.attended.calls⟩, fun r name hr hw => ?_⟩
    exact (hs.woken r name hr hw).imp_right fun ⟨c, hc⟩ => ⟨c, hsaved c hc⟩
  | saves =>
    rename_i c now st signal
    have hclean : (st.deliver signal).Clean :=
      fun _ _ _ _ hw => absurd hw (by simp [WorkflowState.deliver])
    exact ⟨hs.leased, hs.clean.withStore hclean, ⟨hs.attended.drives, hs.attended.calls⟩,
      fun r name hr hw => .inr ⟨c, get_set_self _ _ _⟩⟩
  | wakes hwrites =>
    rename_i c now t
    have hstep : Step s.jobs (.wake jobId now) { s.jobs with table := t } := .writes rfl hwrites
    refine ⟨hstep.leased trivial hs.leased, hs.clean, ⟨hs.attended.drives, hs.attended.calls⟩,
      fun r name hr hw => ?_⟩
    -- The job does not wait any more.
    obtain ⟨q, hq, ⟨hf, rfl⟩ | ⟨-, rfl⟩⟩ := hwrites.row_inv hr
    · simp [wake, Table.key_of_row hq, hw.1] at hf
    · exact absurd hw.1 (by simp [wake])

lemma run_awake (h : Run (Durable.step jobId) (ParksInTime jobId) .empty s) : Awake jobId s :=
  h.invariant
    (fun _ _ _ hs hok hstep => (DurableStep.of_step hstep).awake hok hs)
    ⟨leased_empty, Workflow.Sys.all_empty _,
      ⟨by simp [Durable.empty, Workflow.Sys.empty], by simp [Durable.empty, Workflow.Sys.empty]⟩,
      by simp [Durable.empty, Sys.empty]⟩

/-- A signal is what a wait is for, and the run has not recorded the wait's end. -/
def Awaits (p : WorkflowState V) (signal : WorkflowSignal V) : WorkflowWait → Prop
  | .signal _ name index _ => signal.name = name ∧ (p.steps.get index).isNone
  | .timer .. => False

/-- No dispatch of the job is left and every `signal` that saved is over, but the run has a signal
that the job waits for, and the row is `waiting`. -/
def Durable.LostWakeup (jobId : String) (s : Durable V) : Prop :=
  (s.jobs.dispatches.All fun d => d.job.id ≠ jobId) ∧
  (s.signals.All fun call => call.isSaved = false) ∧
  ∃ r ∈ s.jobs.table.row jobId, ∃ p ∈ s.run.store, ∃ signal ∈ p.signals,
    r.status = .waiting ∧ (∃ w ∈ r.waitingOn, Awaits p signal w) ∧ signal.receivedAt < r.runAt

/-- No wake-up is lost in a run in which each dispatch parks its job in time. -/
theorem no_lost_wakeup {jobId : String} {s : Durable V}
    (h : Run (Durable.step jobId) (ParksInTime jobId) .empty s) : ¬ s.LostWakeup jobId := by
  rintro ⟨-, hsignals, r, hr, p, hp, signal, hmem, hst, ⟨w, hw, hawaits⟩, -⟩
  cases w with
  | timer => exact hawaits
  | signal id name index timeoutAt =>
    rcases (run_awake h).woken r name hr ⟨hst, id, index, timeoutAt, hw⟩ with hnone | ⟨c, hc⟩
    · exact hnone p hp signal hmem hawaits.1
    · exact absurd (hsignals c _ hc) (by simp [SignalCall.isSaved])

instance (p : WorkflowState V) (signal : WorkflowSignal V) (w : WorkflowWait) :
    Decidable (Awaits p signal w) := by
  unfold Awaits
  split <;> infer_instance

instance (jobId : String) (s : Durable V) : Decidable (s.LostWakeup jobId) :=
  inferInstanceAs (Decidable (_ ∧ _ ∧ _))

instance (jobId : String) (s : Durable V) (a : DurableAction V) :
    Decidable (ParksInTime jobId s a) := by
  unfold ParksInTime
  split <;> infer_instance

/-- The job sleeps, and its row is parked until the time is due. -/
def sleeps : List (DurableAction ℕ) :=
  [.jobs (.insertJob "j" 0 someJob), .jobs (.claimReady "a" 1000 1 1 none),
    .jobs (.markRunning 0 2),
    .load 0, .run (.start 0 0 "w" 3 none none), .run (.request 0 (.sleep 3 "nap" (.millis 10))),
    .run (.settle 0 4 (.error .waitSignal)),
    .jobs (.finish 0 5 0 (.parked "job-j" (.timer "nap" 13 0)))]

/-- The job is dispatched again, and its run comes to wait for a signal. -/
def comesToWait : List (DurableAction ℕ) :=
  [.jobs (.claimReady "a" 1000 1 20 none), .jobs (.markRunning 1 21), .load 1,
    .run (.resumeGet 1 1 "w"), .run (.resumeRun 1 1),
    .run (.request 1 (.sleep 22 "nap" (.millis 10))),
    .run (.completeGet 1), .run (.completeSet 1 23),
    .run (.request 1 (.waitForSignal 24 "ok" none)),
    .run (.settle 1 25 (.error .waitSignal))]

def parksAt (now : Time) : List (DurableAction ℕ) :=
  [.jobs (.finish 1 now 0 (.parked "job-j" (.signal "ok" "ok" 1 none)))]

def signalsAt (now : Time) : List (DurableAction ℕ) :=
  [.signalGetJob 0 "ok" (some 7), .signalLoad 0, .signalSave 0 now, .signalWake 0 now]

/-- A signal that comes between the end of the drive and `markWaiting` does not wake the job. -/
theorem signal_before_park_lost :
    ∃ s, exec (Durable.step "j") (.empty : Durable ℕ)
        (sleeps ++ comesToWait ++ signalsAt 26 ++ parksAt 27) = some s ∧
      Run (Durable.step "j") Any .empty s ∧ s.LostWakeup "j" := by
  have hs : (exec (Durable.step "j") (.empty : Durable ℕ)
      (sleeps ++ comesToWait ++ signalsAt 26 ++ parksAt 27)).bind
        (fun s => some (decide (s.LostWakeup "j"))) = some true := by decide +kernel
  obtain ⟨s, hexec, hlost⟩ := bind_eq_some_iff.mp hs
  exact ⟨s, hexec, Run.of_exec_any hexec, of_decide_eq_true (some.inj hlost)⟩

/-- A signal that comes after `markWaiting` does. -/
theorem signal_after_park_wakes :
    ∃ s : Durable ℕ, Run (Durable.step "j") (ParksInTime "j") .empty s ∧
      s.jobs.statusOf "j" = some .pending ∧ ¬ s.LostWakeup "j" := by
  have hs : (exec (restrict (Durable.step "j") (ParksInTime "j")) (.empty : Durable ℕ)
      (sleeps ++ comesToWait ++ parksAt 26 ++ signalsAt 27)).bind (·.jobs.statusOf "j") =
        some .pending := by decide +kernel
  obtain ⟨s, -, hrun, hs⟩ := Run.exists_of_exec hs
  exact ⟨s, hrun, hs, no_lost_wakeup hrun⟩

end Fino.Jobs
