import Fino.Workflow.System

/-!
# The deadline of a durable wait

`Deadlines` remembers the deadline that the wait of each call index was first persisted with.
`#sleep` takes the deadline from the persisted wait only while the run still waits on this very
timer, and `#waitForSignal` counts its timeout anew. The first deadline is kept when each repeated
call finds its own timer persisted or passes an absolute date (`KeepsDeadlines`); then a repeated
wait ends exactly when its first deadline has passed (`deadline_law`).
-/

namespace Fino.Workflow

open Lib Option WorkflowRuntime

variable {V : Type}

/-- The first persisted deadline of the `sleep`, and of the `waitForSignal`, at each call index. -/
structure Deadlines where
  timers : SparseArray Time
  timeouts : SparseArray Time

/-- An array with a value at a position, unless there is one already. -/
def setFirst (a : SparseArray Time) (i : ℕ) (x : Time) : SparseArray Time :=
  if (a.get i).isSome then a else a.set i x

/-- The deadlines after a wait has been persisted. -/
def Deadlines.note (g : Deadlines) : Option WorkflowWait → Deadlines
  | some (.timer _ dueAt stepIndex) => { g with timers := setFirst g.timers stepIndex dueAt }
  | some (.signal _ _ stepIndex (some timeoutAt)) =>
    { g with timeouts := setFirst g.timeouts stepIndex timeoutAt }
  | some (.signal _ _ _ none) | none => g

def parkedWait (s : Sys V) : Action V → Option WorkflowWait
  | .request d req => (s.drives.get d).bind fun drive =>
    match req.first drive.runtime with
    | (rt, .parked) => rt.state.waitingOn
    | _ => none
  | _ => none

/-- The system, with the deadlines that waits were first persisted with. -/
def stepNoting (runId : String) : Sys V × Deadlines → Action V → Option (Sys V × Deadlines) :=
  watch (step runId) fun g s a _ => g.note (parkedWait s a)

def noDeadlines : Sys V × Deadlines := (.empty, ⟨[], []⟩)

variable {a : SparseArray Time}

lemma setFirst_of_some {j : ℕ} {y : Time} (h : a.get j = some y) (i : ℕ)
    (x : Time) : (setFirst a i x).get j = some y := by
  unfold setFirst
  split_ifs with hi
  · exact h
  · have hne : i ≠ j := by
      rintro rfl
      exact hi (by simp [h])
    rw [SparseArray.get_set_ne _ _ hne, h]

variable {i : ℕ}

lemma setFirst_of_none (h : a.get i = none) (x : Time) : (setFirst a i x).get i = some x := by
  simp [setFirst, h]

variable {dueAt : Time} (g : Deadlines)

lemma Deadlines.note_timers (w : Option WorkflowWait)
    (h : g.timers.get i = some dueAt) : (g.note w).timers.get i = some dueAt := by
  unfold Deadlines.note
  split
  · exact setFirst_of_some h _ _
  all_goals exact h

lemma Deadlines.note_timeouts (w : Option WorkflowWait) {timeoutAt : Time}
    (h : g.timeouts.get i = some timeoutAt) : (g.note w).timeouts.get i = some timeoutAt := by
  unfold Deadlines.note
  split
  · exact h
  · exact setFirst_of_some h _ _
  all_goals exact h

/-- The wait has the deadline that it was first persisted with. -/
def WorkflowWait.Kept : WorkflowWait → Prop
  | .timer _ dueAt stepIndex => g.timers.get stepIndex = some dueAt
  | .signal _ _ stepIndex timeoutAt => ∀ t ∈ timeoutAt, g.timeouts.get stepIndex = some t

/-- A snapshot waits, if it does, with the deadline that the wait was first persisted with. -/
def WorkflowState.KeepsDeadline (st : WorkflowState V) : Prop :=
  ∀ w ∈ st.waitingOn, w.Kept g

variable {g : Deadlines}

lemma WorkflowWait.Kept.note {w : WorkflowWait} (h : w.Kept g) (w' : Option WorkflowWait) :
    w.Kept (g.note w') := by
  cases w with
  | timer id dueAt stepIndex => exact g.note_timers w' h
  | signal id name stepIndex timeoutAt => exact fun t ht => g.note_timeouts w' (h t ht)

/-- The deadline of a `sleep` is the persisted one, when the run still waits on its timer, or else
is counted from now. -/
lemma WorkflowRuntime.sleepDueAt_cases (rt : WorkflowRuntime V) (now : Time)
    (duration : Duration) :
    (∃ id dueAt, rt.state.waitingOn = some (.timer id dueAt rt.callIndex) ∧
      rt.sleepDueAt now duration = .ok dueAt) ∨
    (∀ id dueAt, rt.state.waitingOn ≠ some (.timer id dueAt rt.callIndex)) ∧
      rt.sleepDueAt now duration = toDueAt now duration := by
  unfold sleepDueAt
  split
  · rename_i id dueAt stepIndex hw
    split_ifs with hi
    · exact .inl ⟨id, dueAt, hi ▸ hw, rfl⟩
    · refine .inr ⟨fun id' dueAt' h => hi ?_, rfl⟩
      rw [hw, Option.some.injEq, WorkflowWait.timer.injEq] at h
      exact h.2.2
  · rename_i hw
    exact .inr ⟨fun id dueAt h => hw id dueAt _ h, rfl⟩

/-! ## Calls that keep their deadline -/

/-- Whether a wait is a timer of the call at an index. -/
def WorkflowWait.isTimerOf (i : ℕ) : WorkflowWait → Bool
  | .timer _ _ stepIndex => stepIndex == i
  | .signal .. => false

/-- The run still waits on the timer of the call about to be made. -/
def WorkflowRuntime.TimerHeld (rt : WorkflowRuntime V) : Prop :=
  rt.state.waitingOn.any (·.isTimerOf rt.callIndex) = true

variable {rt : WorkflowRuntime V}

lemma WorkflowRuntime.TimerHeld.exists_timer (h : rt.TimerHeld) :
    ∃ id dueAt, rt.state.waitingOn = some (.timer id dueAt rt.callIndex) := by
  unfold TimerHeld at h
  rw [any_eq_true] at h
  obtain ⟨w, hw, hof⟩ := h
  cases w with
  | timer id dueAt stepIndex =>
    obtain rfl : stepIndex = rt.callIndex := by simpa [WorkflowWait.isTimerOf] using hof
    exact ⟨id, dueAt, hw⟩
  | signal => simp [WorkflowWait.isTimerOf] at hof

/-- A wait that was persisted before, and is neither recorded nor satisfied, is called again with
its first deadline: a `sleep` finds its own timer or is given a date, and a `waitForSignal` is given
its timeout as a date. -/
def KeepsDeadlines (p : Sys V × Deadlines) : Action V → Prop
  | .request d (.sleep _ id duration) => ∀ drive ∈ p.1.drives.get d, ¬ drive.runtime.Replays id →
    ∀ dueAt ∈ p.2.timers.get drive.runtime.callIndex,
      drive.runtime.TimerHeld ∨ duration = .date dueAt
  | .request d (.waitForSignal _ name timeout) => ∀ drive ∈ p.1.drives.get d,
    ¬ drive.runtime.Replays name → drive.runtime.state.findSignal name = none →
      ∀ timeoutAt ∈ p.2.timeouts.get drive.runtime.callIndex, timeout = some (.date timeoutAt)
  | _ => True

variable {duration : Duration}

lemma sleepDueAt_of_keeps (now : Time) (hstate : rt.state.KeepsDeadline g)
    (hfirst : g.timers.get rt.callIndex = some dueAt)
    (hkeeps : rt.TimerHeld ∨ duration = .date dueAt) : rt.sleepDueAt now duration = .ok dueAt := by
  rcases rt.sleepDueAt_cases now duration with ⟨id, dueAt', hw, hdue⟩ | ⟨hw, hdue⟩
  · -- The persisted timer has the first deadline.
    have hkept : g.timers.get rt.callIndex = some dueAt' := hstate _ hw
    rw [hdue, Option.some.inj (hfirst.symm.trans hkept)]
  · rcases hkeeps with hheld | rfl
    · obtain ⟨id, dueAt', h⟩ := hheld.exists_timer
      exact absurd h (hw id dueAt')
    · rw [hdue, toDueAt]

variable {drive : Drive V} {s : Sys V} {d : ℕ} {id : String} {now : Time} {a : Action V}

lemma parkedWait_sleep (hd : s.drives.get d = some drive) (hnew : ¬ drive.runtime.Replays id)
    (hdue : drive.runtime.sleepDueAt now duration = .ok dueAt) (hlt : now < dueAt) :
    parkedWait s (.request d (.sleep now id duration)) =
      some (.timer id dueAt drive.runtime.callIndex) := by
  simp only [parkedWait, hd, bind_some, Request.first, sleep, hnew, if_false, hdue, hlt, if_true]
  rfl

lemma parkedWait_waitForSignal {name : String} {timeout : Option Duration}
    {timeoutAt : Option Time} (hd : s.drives.get d = some drive)
    (hnew : ¬ drive.runtime.Replays name) (hnone : drive.runtime.state.findSignal name = none)
    (htime : signalTimeoutAt now timeout = .ok timeoutAt)
    (hopen : timeoutAt.any (· ≤ now) = false) :
    parkedWait s (.request d (.waitForSignal now name timeout)) =
      some (.signal name name drive.runtime.callIndex timeoutAt) := by
  simp only [parkedWait, hd, bind_some, Request.first, waitForSignal, hnew,
    if_false, hnone, htime, hopen]
  rfl

/-- Every operation of a call that keeps its deadline makes a snapshot that waits, if it does, with
the first deadline. -/
lemma Derives.keepsDeadline {st st' : WorkflowState V} (h : Derives s a st st')
    (hok : KeepsDeadlines (s, g) a) (hst : st.KeepsDeadline g) :
    st'.KeepsDeadline (g.note (parkedWait s a)) := by
  have hsame : st.KeepsDeadline (g.note (parkedWait s a)) := fun w hw => (hst w hw).note _
  have hnone : ∀ st'' : WorkflowState V, st''.waitingOn = none →
      st''.KeepsDeadline (g.note (parkedWait s a)) := fun st'' h w hw => by simp [h] at hw
  cases h with
  | resumed | wrote | dropSignal => exact hsame
  | parkTimer hd hnew hdue hlt =>
    rename_i d drive now id duration dueAt
    rintro w ⟨⟩
    rw [parkedWait_sleep hd hnew hdue hlt]
    cases hfirst : g.timers.get drive.runtime.callIndex with
    | none => exact setFirst_of_none hfirst dueAt
    | some dueAt' =>
      -- The wait was persisted before: its deadline is the one computed now.
      have hdue' := sleepDueAt_of_keeps now hst hfirst (hok drive hd hnew dueAt' hfirst)
      rw [hdue, Except.ok.injEq] at hdue'
      exact hdue' ▸ setFirst_of_some hfirst _ _
  | parkSignal hd hnew hsignal htime hopen =>
    rename_i d drive now name timeout timeoutAt
    rintro w ⟨⟩ t rfl
    rw [parkedWait_waitForSignal hd hnew hsignal htime hopen]
    cases hfirst : g.timeouts.get drive.runtime.callIndex with
    | none => exact setFirst_of_none hfirst t
    | some timeoutAt' =>
      obtain rfl := hok drive hd hnew hsignal timeoutAt' hfirst
      have ht : timeoutAt' = t := by simpa [signalTimeoutAt, toDueAt, Except.map] using htime
      exact ht ▸ setFirst_of_some hfirst _ _
  | complete | done | cancelled | deliver => exact hnone _ rfl
  | failed =>
    unfold settled
    dsimp only
    split_ifs
    · exact hsame
    · exact hnone _ rfl
    · exact hnone _ rfl

variable {runId : String}

lemma Step.keepsDeadline {t : Sys V} (h : Step runId s a t) (hok : KeepsDeadlines (s, g) a)
    (hs : s.All (WorkflowState.KeepsDeadline g)) :
    t.All (WorkflowState.KeepsDeadline (g.note (parkedWait s a))) :=
  h.all hs (fun _ hst w hw => (hst w hw).note _)
    (fun _ _ _ _ _ _ _ w hw => by simp [startState] at hw)
    (fun _ _ hst hd => hd.keepsDeadline hok hst) fun _ _ hst => hst

/-- In a run whose calls keep their deadlines, every snapshot that waits has the deadline that its
wait was first persisted with. -/
lemma run_keepsDeadline {p : Sys V × Deadlines}
    (h : Run (stepNoting runId) KeepsDeadlines noDeadlines p) :
    p.1.All (WorkflowState.KeepsDeadline p.2) := by
  refine h.invariant (I := fun p => p.1.All (WorkflowState.KeepsDeadline p.2)) ?_ (Sys.all_empty _)
  intro p a q hp hok hstep
  obtain ⟨hstep, hnote⟩ := watch_eq_some.mp hstep
  rw [hnote]
  exact (Step.of_step hstep).keepsDeadline hok hp

/-! ## When a repeated wait ends -/

lemma completes_recorded (req : Request) {index : ℕ} {result : Option V}
    {taken : Option (WorkflowSignal V)} (hd : s.drives.get d = some drive)
    (hqueue : drive.queue = []) (hactive : drive.active = none)
    (hfirst : req.first drive.runtime = (rt, .completes index id result taken)) (now : Time) :
    ∃ t p, exec (step runId) s [.request d req, .completeGet d, .completeSet d now] = some t ∧
      t.store = some p ∧ p.steps.get index = some (stepRecord id result) := by
  simp only [exec, step, hd, map_some, bind_some, Sys.afterCall, hfirst, Drive.after,
    hqueue, hactive, SparseArray.get_set_self, List.nil_append, Drive.completed]
  exact ⟨_, _, rfl, rfl, SparseArray.get_set_self _ _ _⟩

/-- The law of deadlines, in a state with the deadlines that waits were first persisted with. -/
structure DeadlineLaw (runId : String) (s : Sys V) (g : Deadlines) : Prop where
  /-- The persisted wait has its first deadline. -/
  persisted : ∀ p, s.store = some p → p.KeepsDeadline g
  /-- A repeated `sleep` goes on to its checkpoint once its first deadline has passed; before that
  it is persisted again with the same deadline. -/
  sleep : ∀ d drive now id duration dueAt, s.drives.get d = some drive →
    KeepsDeadlines (s, g) (.request d (.sleep now id duration)) → ¬ drive.runtime.Replays id →
    g.timers.get drive.runtime.callIndex = some dueAt →
    (dueAt ≤ now →
      drive.runtime.sleep now id duration =
        (drive.runtime.next, .completes drive.runtime.callIndex id none none) ∧
      (drive.queue = [] → drive.active = none → ∀ later, ∃ t p,
        exec (step runId) s [.request d (.sleep now id duration), .completeGet d,
          .completeSet d later] = some t ∧ t.store = some p ∧
        p.steps.get drive.runtime.callIndex = some (stepRecord id none))) ∧
    (now < dueAt →
      drive.runtime.sleep now id duration =
        (drive.runtime.nextWith
          (drive.runtime.state.parkTimer id dueAt drive.runtime.callIndex), .parked))
  /-- A repeated `waitForSignal` without a signal throws once its first timeout has passed; before
  that it is persisted again with the same timeout. -/
  waitForSignal : ∀ d drive now name timeout timeoutAt, s.drives.get d = some drive →
    KeepsDeadlines (s, g) (.request d (.waitForSignal now name timeout)) →
    ¬ drive.runtime.Replays name → drive.runtime.state.findSignal name = none →
    g.timeouts.get drive.runtime.callIndex = some timeoutAt →
    (timeoutAt ≤ now →
      drive.runtime.waitForSignal now name timeout =
        (drive.runtime.next, .threw (signalTimedOut name))) ∧
    (now < timeoutAt →
      drive.runtime.waitForSignal now name timeout =
        (drive.runtime.nextWith
          (drive.runtime.state.parkSignal name (some timeoutAt) drive.runtime.callIndex), .parked))

/-- In a run whose calls keep their deadlines, the law of deadlines holds in every state. -/
theorem deadline_law {runId : String} {p : Sys V × Deadlines}
    (h : Run (stepNoting runId) KeepsDeadlines noDeadlines p) : DeadlineLaw runId p.1 p.2 := by
  have hall := run_keepsDeadline h
  refine ⟨hall.store, ?_, ?_⟩
  · intro d drive now id duration dueAt hd hok hnew hfirst
    have hdue := sleepDueAt_of_keeps now (hall.current d drive hd) hfirst
      (hok drive hd hnew dueAt hfirst)
    constructor
    · intro hle
      have hsleep : drive.runtime.sleep now id duration =
          (drive.runtime.next, .completes drive.runtime.callIndex id none none) := by
        rw [sleep, if_neg hnew, hdue]
        exact if_neg (not_lt.mpr hle)
      exact ⟨hsleep, fun hqueue hactive later =>
        completes_recorded (.sleep now id duration) hd hqueue hactive hsleep later⟩
    · intro hlt
      rw [sleep, if_neg hnew, hdue]
      exact if_pos hlt
  · intro d drive now name timeout timeoutAt hd hok hnew hsignal hfirst
    obtain rfl := hok drive hd hnew hsignal timeoutAt hfirst
    rw [waitForSignal, if_neg hnew, hsignal]
    constructor
    · intro hle
      exact if_pos (by simpa using hle)
    · intro hlt
      exact if_neg (by simpa using hlt)

instance (rt : WorkflowRuntime V) : Decidable rt.TimerHeld :=
  inferInstanceAs (Decidable (_ = true))

instance (p : Sys V × Deadlines) (a : Action V) : Decidable (KeepsDeadlines p a) := by
  induction a using Action.casesOn with
  | request d req =>
    induction req using Request.casesOn <;> unfold KeepsDeadlines <;> infer_instance
  | _ => unfold KeepsDeadlines; infer_instance

def waitAfter (as : List (Action ℕ)) : Option WorkflowWait :=
  (exec (step "r") .empty as).bind fun s => s.store.bind (·.waitingOn)

/-- A body sleeps for 100 ms beside a step: the sleep parks and ends the drive, and then the step is
recorded. -/
def napBesideWork : List (Action ℕ) :=
  [.start 0 0 "w" 0 none none, .request 0 (.sleep 0 "nap" (.millis 100)), .request 0 (.step "work"),
    .settle 0 1 (.error .waitSignal)]

/-- The run is resumed at 150, after the step was recorded. -/
def napAgain : List (Action ℕ) :=
  [.stepEnds 0 1 "work" (.ok (some 7)), .completeGet 0, .completeSet 0 2, .resumeGet 0 1 "w",
    .resumeRun 0 1, .request 1 (.sleep 150 "nap" (.millis 100))]

def waitForOk : List (Action ℕ) :=
  [.start 0 0 "w" 0 none none, .request 0 (.waitForSignal 0 "ok" (some (.millis 100))),
    .settle 0 1 (.error .waitSignal)]

/-- The run is resumed at 100, and no signal has come. -/
def waitForOkAgain : List (Action ℕ) :=
  [.resumeGet 0 1 "w", .resumeRun 0 1, .request 1 (.waitForSignal 100 "ok" (some (.millis 100)))]

/-- The sleep that was due at 100 does not end at 150, nor the wait whose timeout was at 100 at 100.
-/
theorem deadlines_move :
    waitAfter napBesideWork = some (.timer "nap" 100 0) ∧
      waitAfter (napBesideWork ++ napAgain) = some (.timer "nap" 250 0) ∧
      waitAfter waitForOk = some (.signal "ok" "ok" 0 (some 100)) ∧
      waitAfter (waitForOk ++ waitForOkAgain) = some (.signal "ok" "ok" 0 (some 200)) := by
  decide +kernel

/-- A body sleeps for 100 ms and nothing else, and is resumed. -/
def napAlone : List (Action ℕ) :=
  [.start 0 0 "w" 0 none none, .request 0 (.sleep 0 "nap" (.millis 100)),
    .settle 0 1 (.error .waitSignal), .resumeGet 0 1 "w", .resumeRun 0 1]

/-- The law at work: the sleep was first persisted with the deadline 100, and it is about to be
called again. -/
theorem deadline_law_nap_alone :
    ∃ s g drive, Run (stepNoting "r") KeepsDeadlines (noDeadlines : Sys ℕ × Deadlines) (s, g) ∧
      s.drives.get 1 = some drive ∧ drive.runtime.callIndex = 0 ∧ g.timers.get 0 = some 100 ∧
      DeadlineLaw "r" s g := by
  have h : (exec (restrict (stepNoting "r") KeepsDeadlines) noDeadlines napAlone).bind
      (fun p => (p.1.drives.get 1).map fun drive =>
        (drive.runtime.callIndex, p.2.timers.get 0)) = some (0, some 100) := by decide +kernel
  obtain ⟨⟨s, g⟩, -, hrun, h⟩ := Run.exists_of_exec h
  obtain ⟨drive, hd, h⟩ := map_eq_some_iff.mp h
  obtain ⟨hi, hg⟩ := Prod.mk.inj h
  exact ⟨s, g, drive, hrun, hd, hi, hg, deadline_law hrun⟩

end Fino.Workflow
