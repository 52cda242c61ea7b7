import Fino.Jobs.Service

/-!
# The lifecycle of a job

`Lifecycle` is the automaton of the documentation of `JobStatus`. The table follows it as long as no
job is disturbed while it is dispatched (`Step.lifecycle`), so terminal statuses are absorbing then
(`terminal_absorbing`). In general the outcome of a dispatch is written over a cancellation
(`cancelled_job_done`).
-/

namespace Fino.Jobs

open Lib
open Workflow (Time)

variable {V : Type}

inductive Event
  | claim
  | run
  | finish
  | sweep
  | cancel
  | retry
  | wake
deriving DecidableEq

/-- The lifecycle of a job: the statuses that an event leads from and to. -/
inductive Lifecycle : Event → JobStatus → JobStatus → Prop
  | claims {st : JobStatus} : st = .pending ∨ st = .waiting → Lifecycle .claim st .claimed
  | runs : Lifecycle .run .claimed .running
  | parks : Lifecycle .finish .running .waiting
  | completes : Lifecycle .finish .running .done
  | requeues : Lifecycle .finish .running .pending
  | fails : Lifecycle .finish .running .dead
  | recovers {st : JobStatus} : st = .claimed ∨ st = .running → Lifecycle .sweep st .pending
  | expires {st : JobStatus} : st = .claimed ∨ st = .running → Lifecycle .sweep st .dead
  | cancels {st : JobStatus} : st.Active → Lifecycle .cancel st .cancelled
  | retries {st : JobStatus} :
      st = .dead ∨ st = .error ∨ st = .cancelled → Lifecycle .retry st .pending
  | wakes : Lifecycle .wake .waiting .pending

variable {e : Event} {st st' : JobStatus}

lemma Lifecycle.retry_of_finished (h : Lifecycle e st st')
    (hst : ¬ st.Active) : e = .retry ∧ (st = .dead ∨ st = .error ∨ st = .cancelled) := by
  cases h with
  | retries h => exact ⟨rfl, h⟩
  | cancels h => exact absurd h hst
  | claims h | recovers h | expires h => rcases h with rfl | rfl <;> exact absurd (by decide) hst
  | _ => exact absurd (by decide) hst

/-- A job comes to be `claimed` or `running` by a claim, or by the dispatch that it was claimed
for. -/
lemma Lifecycle.event_of_busy (h : Lifecycle e st st')
    (hst : st' = .claimed ∨ st' = .running) : e = .claim ∨ e = .run := by
  cases h <;> simp at hst ⊢

lemma Lifecycle.event_of_waiting (h : Lifecycle e st .waiting) : e = .finish := by
  cases h
  rfl

/-! ## The table follows the lifecycle -/

/-- What an action is for the job `id`. -/
def Action.event (id : String) : Action V → Option Event
  | .claimReady .. => some .claim
  | .markRunning .. => some .run
  | .finish .. => some .finish
  | .sweepLeases .. => some .sweep
  | .cancel id' _ => if id' = id then some .cancel else none
  | .retry id' _ => if id' = id then some .retry else none
  | .wake id' _ => if id' = id then some .wake else none
  | _ => none

variable {a : Action V} {id : String} {r : JobRecord V}

lemma Action.eq_retry_of_event (h : a.event id = some .retry) : ∃ now, a = .retry id now := by
  cases a with
  | retry id' now =>
    simp only [event, Option.ite_none_right_eq_some] at h
    exact ⟨now, by rw [h.1]⟩
  | cancel id' now | wake id' now =>
    simp [event] at h
  | _ => simp [event] at h

/-- The status of the row after the outcome of a dispatch is one that a running job can come to. -/
lemma Dispatch.outcome_lifecycle (d : Dispatch V) (now : Time) (random : ℚ)
    (result : JobsWireResult V) (r : JobRecord V) :
    Lifecycle .finish .running ((d.outcome now random result).set r).status := by
  cases result with
  | parked workflowRunId waitingOn => exact .parks
  | ok output => exact .completes
  | failed error retryable =>
    simp only [outcome]
    split_ifs
    · exact .requeues
    · exact .fails

lemma statement_lifecycle {u : JobsUpdate V} (ha : a.statement = some u)
    (hf : u.filter r) :
    (u.set r).status = r.status ∨
      ∃ e, a.event r.id = some e ∧ Lifecycle e r.status (u.set r).status := by
  cases a with
  | sweepLeases now random =>
    cases ha
    simp only [sweep, JobRecord.expired, Bool.and_eq_true, decide_eq_true_eq] at hf
    -- Whether the job goes back to the queue depends on the attempts that it has left.
    refine .inr ⟨.sweep, rfl, ?_⟩
    show Lifecycle .sweep r.status ((recover now random r).set r).status
    unfold recover
    split_ifs
    · exact .expires hf.1
    · exact .recovers hf.1
  | heartbeat service ids leaseMs now =>
    cases ha
    exact .inl rfl
  | cancel id now =>
    cases ha
    simp only [cancel, Bool.and_eq_true, decide_eq_true_eq] at hf
    exact .inr ⟨.cancel, if_pos hf.1.symm, .cancels hf.2⟩
  | retry id now =>
    cases ha
    simp only [retry, Bool.and_eq_true, decide_eq_true_eq] at hf
    exact .inr ⟨.retry, if_pos hf.1.symm, .retries hf.2⟩
  | wake id now =>
    cases ha
    simp only [wake, Bool.and_eq_true, decide_eq_true_eq] at hf
    exact .inr ⟨.wake, if_pos hf.1.symm, hf.2 ▸ .wakes⟩
  | _ => exact absurd ha (by simp [Action.statement])

lemma Step.lifecycle {s t : Sys V} (h : Step s a t) (hs : Leased s)
    (hr : s.table.row id = some r) :
    ∃ r', t.table.row id = some r' ∧ (r'.status = r.status ∨
      ∃ e, a.event id = some e ∧ Lifecycle e r.status r'.status) := by
  cases h with
  | stays | ends => exact ⟨r, hr, .inl rfl⟩
  | inserts hnew hrow =>
    refine ⟨r, ?_, .inl rfl⟩
    rw [hrow, if_neg, hr]
    rintro rfl
    exact absurd (hr.symm.trans hnew) (by simp)
  | claims hwrites hjobs =>
    rcases hwrites.row_cases hr with hr' | ⟨hf, hr'⟩
    · exact ⟨r, hr', .inl rfl⟩
    · simp only [claim, Bool.and_eq_true, decide_eq_true_eq] at hf
      exact ⟨_, hr', .inr ⟨.claim, rfl, .claims hf.2⟩⟩
  | writes ha hwrites =>
    rcases hwrites.row_cases hr with hr' | ⟨hf, hr'⟩
    · exact ⟨r, hr', .inl rfl⟩
    · exact ⟨_, hr', Table.key_of_row hr ▸ statement_lifecycle ha hf⟩
  | begins hk hfirst hwrites =>
    rcases hwrites.row_cases hr with hr' | ⟨hf, hr'⟩
    · exact ⟨r, hr', .inl rfl⟩
    · -- The row that is written is the one of the dispatch, which is still `claimed`.
      have hphase := hs.status_eq hk hr (of_decide_eq_true hf)
      rw [Dispatch.phase, hfirst] at hphase
      exact ⟨_, hr', .inr ⟨.run, rfl, hphase ▸ .runs⟩⟩
  | finishes hk hrun hwrites =>
    rename_i k now random result d t
    rcases hwrites.row_cases hr with hr' | ⟨hf, hr'⟩
    · exact ⟨r, hr', .inl rfl⟩
    · -- Here it is `running`.
      have hphase := hs.status_eq hk hr (by simpa using hf)
      rw [Dispatch.phase, if_pos hrun] at hphase
      refine ⟨_, hr', .inr ⟨.finish, rfl, ?_⟩⟩
      rw [hphase]
      exact d.outcome_lifecycle now random result r

/-- In a run in which no job is disturbed while it is dispatched, a finished job keeps its status at
every step, but for a `retry` of a job that is `dead`, `error` or `cancelled`. -/
theorem terminal_absorbing {s t : Sys V} {a : Action V} {id : String} {r : JobRecord V}
    (h : Run step Undisturbed .empty s) (hstep : step s a = some t) (hr : s.table.row id = some r)
    (hfinished : r.status = .done ∨ r.status = .error ∨ r.status = .dead ∨ r.status = .cancelled) :
    ∃ r', t.table.row id = some r' ∧ (r'.status = r.status ∨
      (∃ now, a = .retry id now) ∧
        (r.status = .dead ∨ r.status = .error ∨ r.status = .cancelled)) := by
  have hinactive : ¬ r.status.Active := by
    rcases hfinished with h | h | h | h <;> rw [h] <;> decide
  obtain ⟨r', hr', hsame | ⟨e, he, hmove⟩⟩ := (Step.of_step hstep).lifecycle (run_leased h) hr
  · exact ⟨r', hr', .inl hsame⟩
  · obtain ⟨rfl, hst⟩ := hmove.retry_of_finished hinactive
    exact ⟨r', hr', .inr ⟨Action.eq_retry_of_event he, hst⟩⟩

instance (s : Sys V) (a : Action V) : Decidable (Undisturbed s a) := by
  unfold Undisturbed
  split <;> infer_instance

/-- A job that is due at once and may be tried three times. -/
def someJob : InsertJob ℕ where
  queue := "default"
  task := "work"
  input := none
  runAt := 0
  priority := none
  maxAttempts := none
  backoff := none
  timeoutMs := none
  dedupeKey := none
  scheduleId := none

/-- The status of the job `j` in a state. -/
def Sys.statusOf (s : Sys ℕ) (id : String) : Option JobStatus := (s.table.row id).map (·.status)

/-- The job `j` is pushed, claimed and begun. -/
def dispatched : List (Action ℕ) :=
  [.insertJob "j" 0 someJob, .claimReady "a" 1000 1 1 none, .markRunning 0 2]

/-- An operator cancels the job, and its dispatch goes on to record its success. -/
theorem cancelled_job_done :
    (exec step .empty (dispatched ++ [.cancel "j" 3])).bind (·.statusOf "j") = some .cancelled ∧
      (exec step .empty (dispatched ++ [.cancel "j" 3, .finish 0 4 0 (.ok (some 7))])).bind
        (·.statusOf "j") = some .done := by
  decide +kernel

/-- A job that failed for good stays `dead` when it is cancelled and woken up late. -/
theorem dead_job_stays_dead :
    ∃ s t r, Run step Undisturbed (.empty : Sys ℕ) s ∧ step s (.cancel "j" 5) = some t ∧
      s.table.row "j" = some r ∧ r.status = .dead ∧
      ∃ r', t.table.row "j" = some r' ∧ (r'.status = r.status ∨
        (∃ now, Action.cancel (V := ℕ) "j" 5 = .retry "j" now) ∧
          (r.status = .dead ∨ r.status = .error ∨ r.status = .cancelled)) := by
  have hs : (exec (restrict step Undisturbed) .empty
      (dispatched ++ [.finish 0 3 0 (.failed ⟨"no", none⟩ false), .wake "j" 4])).bind
      (·.statusOf "j") = some .dead := by decide +kernel
  obtain ⟨s, -, hrun, hs⟩ := Run.exists_of_exec hs
  obtain ⟨r, hr, hdead⟩ := Option.map_eq_some_iff.mp hs
  exact ⟨s, _, r, hrun, rfl, hr, hdead,
    terminal_absorbing (a := .cancel "j" 5) hrun rfl hr (.inr (.inr (.inl hdead)))⟩

end Fino.Jobs
