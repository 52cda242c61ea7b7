import Fino.Workflow.System

/-!
# The cursor and the replay of recorded steps

In every snapshot the cursor is the length of the longest prefix of `steps` without a hole
(`run_cursorExact`). In `Serial` runs, with one drive at a time, the copies of a drive have the
steps of the store (`run_coherent`). But `#step` returns a record only below the cursor, so one
behind a hole is made again (`step_replays_iff_no_hole`).
-/

namespace Fino.Workflow

open Lib Option WorkflowStepState SparseArray

variable {V : Type}

/-- The cursor is the length of the longest prefix of `steps` whose entries are all present and
done. -/
def WorkflowState.CursorExact (st : WorkflowState V) : Prop :=
  st.cursor = st.steps.prefixLength isDone

variable {st : WorkflowState V}

lemma WorkflowState.CursorExact.filled (h : st.CursorExact) :
    st.steps.Filled isDone st.cursor := by
  rw [h]
  exact filled_prefixLength _ _

/-- A position lies below an exact cursor exactly when it and all positions before it hold a
record. -/
lemma WorkflowState.CursorExact.lt_cursor_iff (h : st.CursorExact) (i : ℕ) :
    i < st.cursor ↔ ∀ j ≤ i, (st.steps.get j).isSome := by
  constructor
  · intro hi j hj
    have := h.filled j (by omega)
    cases hget : st.steps.get j with
    | none => simp [hget] at this
    | some r => rfl
  · intro hall
    by_contra hle
    have hstop := not_any_prefixLength st.steps isDone
    rw [← h] at hstop
    obtain ⟨r, hr⟩ := isSome_iff_exists.mp (hall st.cursor (by omega))
    simp [hr] at hstop

lemma WorkflowState.CursorExact.complete (h : st.CursorExact) (now : Time) (index : ℕ)
    (id : String) (result : Option V) : (st.complete now index id result).CursorExact :=
  advance_eq_of_filled _ _ _ (h.filled.set _ index (isDone_eq_true _))

variable {a : Action V} {s : Sys V}

lemma Derives.cursorExact {st' : WorkflowState V} (h : Derives s a st st') (hst : st.CursorExact)
    : st'.CursorExact := by
  cases h with
  | complete hd hactive => exact hst.complete _ _ _ _
  | failed hd =>
    unfold settled
    dsimp only
    split_ifs <;> exact hst
  | _ => exact hst

variable {runId : String} {t : Sys V}

lemma Step.cursorExact (h : Step runId s a t) (hs : s.All WorkflowState.CursorExact) :
    t.All WorkflowState.CursorExact :=
  h.all hs (fun _ h => h) (fun _ _ _ _ _ _ _ => rfl) (fun _ _ hst hd => hd.cursorExact hst)
    fun _ _ h => h

lemma run_cursorExact {ok : Sys V → Action V → Prop} (h : Run (step runId) ok .empty s) :
    s.All WorkflowState.CursorExact :=
  h.invariant (fun _ _ _ hs _ hstep => (Step.of_step hstep).cursorExact hs) (Sys.all_empty _)

/-! ## One drive at a time -/

def WorkflowState.progress (st : WorkflowState V) : SparseArray (WorkflowStepState V) × ℕ :=
  (st.steps, st.cursor)

/-- A snapshot, if there is one, has the steps and the cursor of the store. -/
def Sys.Current (s : Sys V) (read : Option (WorkflowState V)) : Prop :=
  ∀ st ∈ read, s.store.map WorkflowState.progress = some st.progress

/-- One drive at a time, and no write from a snapshot whose steps are behind the store: `start`
finds no run, `resume` drives when no other drive is left, and `resume`, `cancel` and `signal` go on
from the steps of the store. -/
def Serial (s : Sys V) : Action V → Prop
  | .start .. => s.store = none
  | .resumeRun c _ =>
    s.drives.All (fun _ => False) ∧ s.Current ((s.calls.get c).bind Pending.read)
  | .cancel h _ => s.Current (s.handles.get h)
  | .cancelSet c _ | .signalSet c _ => s.Current ((s.calls.get c).bind Pending.read)
  | _ => True

lemma Serial.startsOnce (h : Serial s a) : StartsOnce s a := by
  cases a <;> first | exact h | trivial

/-- The drive's copies of the state all have the steps and the cursor of the record `p`. -/
structure Drive.Follows (p : WorkflowState V) (drive : Drive V) : Prop where
  current : drive.runtime.state.progress = p.progress
  captured : drive.captured.progress = p.progress
  latest : ∀ c read, drive.active = some (c, read) → ∃ q, read = some q ∧ q.progress = p.progress

variable {drive : Drive V} {p : WorkflowState V}

lemma Drive.Follows.congr {q : WorkflowState V} (h : drive.Follows p)
    (hq : q.progress = p.progress) : drive.Follows q where
  current := h.current.trans hq.symm
  captured := h.captured.trans hq.symm
  latest c read ha :=
    let ⟨r, hr, hp⟩ := h.latest c read ha
    ⟨r, hr, hp.trans hq.symm⟩

lemma Drive.Follows.begin (h : ℕ) (workflowId : String) (hst : st.progress = p.progress) :
    (Drive.begin h workflowId st).Follows p :=
  ⟨hst, hst, by simp [Drive.begin]⟩

lemma settled_progress {captured current : WorkflowState V}
    (hcap : captured.progress = p.progress) (hcur : current.progress = p.progress)
    (outcome : Except JsError (Option V)) :
    (settled captured current outcome).progress = p.progress := by
  cases outcome with
  | ok output => exact hcap
  | error err =>
    unfold settled
    dsimp only
    split_ifs <;> exact hcur

/-- A segment that is not the write of `#complete` leaves the steps alone, in the drive and in what
it saves. -/
lemma Drive.Moves.follows {d : ℕ} {drive' : Drive V} {saved kept : Option (WorkflowState V)}
    (h : drive.Moves (some p) d a drive' saved kept) (hf : drive.Follows p)
    (hne : ∀ now, a ≠ .completeSet d now) :
    drive'.Follows p ∧ ∀ q, saved = some q → q.progress = p.progress := by
  cases h with
  | write | replies | runs | due | takes =>
    exact ⟨⟨hf.current, hf.captured, hf.latest⟩, by simp⟩
  | parksTimer _ _ _ hst | parksSignal _ _ _ _ hst =>
    subst hst
    exact ⟨⟨hf.current, hf.captured, hf.latest⟩, fun q hq => some.inj hq ▸ hf.current⟩
  | stepEnds hrun =>
    rename_i reply
    cases reply <;> exact ⟨⟨hf.current, hf.captured, hf.latest⟩, by simp⟩
  | completeGet hactive hqueue =>
    refine ⟨⟨hf.current, hf.captured, fun c read ha => ?_⟩, by simp⟩
    simp only [some.injEq, Prod.mk.injEq] at ha
    exact ⟨p, ha.2.symm, rfl⟩
  | completeSet => exact absurd rfl (hne _)
  | settle hended hst =>
    have hst := hst ▸ settled_progress hf.captured hf.current _
    exact ⟨⟨hf.current, hst, hf.latest⟩, fun q hq => some.inj hq ▸ hst⟩

/-- What serial runs keep: there is at most one drive, and it follows the store. -/
structure Coherent (s : Sys V) : Prop where
  one : s.OneWorkflow
  single : ∀ d d' drive drive', s.drives.get d = some drive → s.drives.get d' = some drive' → d = d'
  follows : ∀ d drive p, s.drives.get d = some drive → s.store = some p → drive.Follows p

lemma Coherent.of_no_drive (one : t.OneWorkflow) (h : ∀ d drive, t.drives.get d ≠ some drive) :
    Coherent t :=
  ⟨one, fun d _ drive _ hd => absurd hd (h d drive), fun d drive _ hd => absurd hd (h d drive)⟩

lemma Coherent.of_drive (one : t.OneWorkflow) (d : ℕ) (drive : Drive V)
    (h : ∀ d' drive', t.drives.get d' = some drive' → d' = d ∧ drive' = drive)
    (hf : ∀ p, t.store = some p → drive.Follows p) : Coherent t where
  one := one
  single d₁ d₂ drive₁ drive₂ h₁ h₂ := (h d₁ drive₁ h₁).1.trans (h d₂ drive₂ h₂).1.symm
  follows d' drive' p hd hp := (h d' drive' hd).2 ▸ hf p hp

lemma Coherent.of_same_drives (hs : Coherent s) (one : t.OneWorkflow)
    (hdrives : ∀ d drive, t.drives.get d = some drive → s.drives.get d = some drive)
    (hstore : ∀ p q, s.store = some p → t.store = some q → q.progress = p.progress) :
    Coherent t where
  one := one
  single d d' drive drive' hd hd' := hs.single d d' _ _ (hdrives d _ hd) (hdrives d' _ hd')
  follows d drive q hd hq := by
    obtain ⟨p, hp⟩ := isSome_iff_exists.mp (hs.one.isOf (hdrives d _ hd)).stored
    exact (hs.follows d drive p (hdrives d _ hd) hp).congr (hstore p q hp hq)

lemma Drive.completed_follows (drive : Drive V) (next : WorkflowState V) :
    (drive.completed next).Follows next :=
  ⟨rfl, rfl, by simp [Drive.completed]⟩

lemma Sys.Current.progress_eq {read : Option (WorkflowState V)} (h : s.Current read)
    (hst : read = some st) (hp : s.store = some p) :
    st.progress = p.progress := by
  have := h st hst
  rw [hp, map_some, some.injEq] at this
  exact this.symm

/-- In a serial run, no step but the write of `#complete` changes the steps in the store. -/
lemma Step.progress_eq (h : Step runId s a t) (hok : Serial s a) (hs : Coherent s)
    (hne : ∀ d now, a ≠ .completeSet d now) :
    ∀ p q, s.store = some p → t.store = some q → q.progress = p.progress := by
  intro p q hp hq
  -- Whoever else writes has the steps of the store in its snapshot: the run is serial.
  cases h with
  | start hd hst => exact absurd (hp.symm.trans (show s.store = none from hok)) (by simp)
  | moves hd hmove =>
    rename_i d drive drive' saved kept
    rw [hp] at hmove
    obtain ⟨-, hsaved⟩ := hmove.follows (hs.follows d drive p hd hp) fun now => hne d now
    rw [Sys.moved_store, hp] at hq
    cases saved with
    | none => exact some.inj hq ▸ rfl
    | some q' => exact some.inj hq ▸ hsaved q' rfl
  | cancel hh =>
    have hst := Sys.Current.progress_eq hok hh hp
    exact some.inj hq ▸ hst
  | cancelSet hc | signalSet hc =>
    have hst := Sys.Current.progress_eq hok (by rw [hc]; rfl) hp
    exact some.inj hq ▸ hst
  | resumeEnds hc =>
    rw [Sys.setHandle_store, hp] at hq
    exact some.inj hq ▸ rfl
  | _ => exact some.inj (hp.symm.trans hq) ▸ rfl

lemma Coherent.base_progress (hs : Coherent s) {d : ℕ} {c : Completion V}
    {latest : Option (WorkflowState V)} (hd : s.drives.get d = some drive) (hp : s.store = some p)
    (hactive : drive.active = some (c, latest)) :
    (drive.runtime.base latest).progress = p.progress := by
  obtain ⟨q, rfl, hq⟩ := (hs.follows d drive p hd hp).latest c latest hactive
  rw [hs.one.base_eq hd hactive, hq]

lemma only_drive_of_set {drives : SparseArray (Drive V)}
    (hnone : ∀ d drive, drives.get d ≠ some drive) (d : ℕ) (drive : Drive V) :
    ∀ d' drive', (drives.set d drive).get d' = some drive' → d' = d ∧ drive' = drive := by
  intro d' drive' hd'
  rw [get_set] at hd'
  split_ifs at hd' with hdd
  · exact ⟨hdd.symm, (some.inj hd').symm⟩
  · exact absurd hd' (hnone d' drive')

lemma Step.coherent (h : Step runId s a t) (hok : Serial s a) (hs : Coherent s) : Coherent t := by
  have one := h.oneWorkflow hok.startsOnce hs.one
  have hprogress := h.progress_eq hok hs
  cases h with
  | start hd hst =>
    -- Nothing has been started, so there is no drive but the new one.
    have hnone : ∀ d drive, s.drives.get d ≠ some drive := fun d drive hd => by
      have := (hs.one.isOf hd).stored
      rw [show s.store = none from hok] at this
      simp at this
    exact .of_drive one _ _ (only_drive_of_set hnone _ _) fun p hp =>
      .begin _ _ (congrArg _ (some.inj hp))
  | resumeDrives hc hd hopen hid =>
    obtain ⟨hnone, hcurrent⟩ := hok
    refine .of_drive one _ _ (only_drive_of_set hnone _ _) fun p hp => .begin _ _ ?_
    have hst := hcurrent.progress_eq (by rw [hc]; rfl) hp
    exact hst
  | moves hd hmove =>
    rename_i d drive drive' saved kept
    obtain ⟨p, hp⟩ := isSome_iff_exists.mp (hs.one.isOf hd).stored
    refine .of_drive one d drive' (fun d₁ drive₁ hd₁ => ?_) fun q hq => ?_
    · rw [Sys.moved_drives, get_set] at hd₁
      split_ifs at hd₁ with hdd
      · exact ⟨hdd.symm, (some.inj hd₁).symm⟩
      · exact absurd (hs.single _ _ _ _ hd hd₁) hdd
    · by_cases hset : ∃ d now, a = .completeSet d now
      · obtain ⟨_, now, rfl⟩ := hset
        cases hmove with
        | completeSet hactive hnext => exact some.inj hq ▸ drive.completed_follows _
      · have hne : ∀ d now, a ≠ .completeSet d now := fun d now ha => hset ⟨d, now, ha⟩
        rw [hp] at hmove
        exact (hmove.follows (hs.follows d drive p hd hp) (hne d)).1.congr (hprogress hne p q hp hq)
  | drop =>
    exact hs.of_same_drives one (fun d drive hd => (get_of_get_erase _ hd).2) (hprogress (by simp))
  | resumeEnds hc =>
    exact hs.of_same_drives one (fun d drive hd => by simpa using hd)
      (hprogress (by simp))
  | _ => exact hs.of_same_drives one (fun _ _ h => h) (hprogress (by simp))

lemma run_coherent (h : Run (step runId) Serial .empty s) : Coherent s :=
  h.invariant (fun _ _ _ hs hok hstep => (Step.of_step hstep).coherent hok hs)
    (.of_no_drive Sys.oneWorkflow_empty (by simp [Sys.empty]))

/-- `#step` returns a recorded result exactly when the record is its own and lies below the
cursor. -/
lemma WorkflowRuntime.step_eq_returned_iff (rt : WorkflowRuntime V) {r : WorkflowStepState V}
    (hr : rt.completed = some r) :
    rt.step r.id = (rt.next, .returned r.result) ↔ rt.callIndex < rt.state.cursor := by
  rcases rt.step_cases r.id with ⟨hrep, h⟩ | ⟨hrep, hlt, -⟩ | ⟨hle, h⟩
  · simp [h, hr, hrep.1]
  · exact absurd ⟨hlt, by simp [hr]⟩ hrep
  · simp [h, hle]

/-- A step that finds its record in the persisted `steps` returns the recorded result without
calling its function exactly when no position before it is a hole. -/
theorem step_replays_iff_no_hole {runId : String} {s : Sys V} {d : ℕ} {drive : Drive V}
    {p : WorkflowState V} {r : WorkflowStepState V} (h : Run (step runId) Serial .empty s)
    (hd : s.drives.get d = some drive) (hp : s.store = some p)
    (hr : p.steps.get drive.runtime.callIndex = some r) :
    drive.runtime.step r.id = (drive.runtime.next, .returned r.result) ↔
      ∀ i < drive.runtime.callIndex, (p.steps.get i).isSome := by
  have hf := (run_coherent h).follows d drive p hd hp
  obtain ⟨hsteps, hcursor⟩ := Prod.mk.inj hf.current
  have hexact := (run_cursorExact h).store p hp
  rw [drive.runtime.step_eq_returned_iff (by rw [WorkflowRuntime.completed, hsteps, hr]), hcursor,
    hexact.lt_cursor_iff]
  constructor
  · exact fun hall i hi => hall i (by omega)
  · intro hall i hi
    rcases Nat.lt_or_eq_of_le hi with hi | rfl
    · exact hall i hi
    · simp [hr]

/-! ## A crash between two concurrent steps -/

instance [DecidableEq V] (s : Sys V) (read : Option (WorkflowState V)) :
    Decidable (s.Current read) := by
  unfold Sys.Current
  infer_instance

instance [DecidableEq V] (s : Sys V) (a : Action V) : Decidable (Serial s a) := by
  unfold Serial
  split <;> infer_instance

/-- The checkpoint of a step whose function returns `value`. -/
def recordStep (d index : ℕ) (id : String) (value : ℕ) (now : Time) : List (Action ℕ) :=
  [.stepEnds d index id (.ok (some value)), .completeGet d, .completeSet d now]

/-- A drive starts two steps at once and crashes when only `fast` is recorded; the resumed body
starts `slow` again. -/
def crashAfterFast : List (Action ℕ) :=
  [.start 0 0 "w" 0 none none, .request 0 (.step "slow"), .request 0 (.step "fast")] ++
    recordStep 0 1 "fast" 2 1 ++
    [.drop 0, .resumeGet 0 1 "w", .resumeRun 0 1, .request 1 (.step "slow")]

/-- The same, with a crash after both steps are recorded, `fast` first. -/
def crashAfterBoth : List (Action ℕ) :=
  [.start 0 0 "w" 0 none none, .request 0 (.step "slow"), .request 0 (.step "fast")] ++
    recordStep 0 1 "fast" 2 1 ++ recordStep 0 0 "slow" 3 2 ++
    [.drop 0, .resumeGet 0 1 "w", .resumeRun 0 1, .request 1 (.step "slow")]

/-- The index of the next call of the drive 1, the cursor that it will compare it with, and the
steps in the store. -/
def nextCall (s : Sys ℕ) : Option (ℕ × ℕ × SparseArray (WorkflowStepState ℕ)) :=
  (s.drives.get 1).bind fun drive => s.store.map fun p =>
    (drive.runtime.callIndex, drive.runtime.state.cursor, p.steps)

lemma exists_of_nextCall {as : List (Action ℕ)} {i c : ℕ}
    {steps : SparseArray (WorkflowStepState ℕ)}
    (h : (exec (restrict (step "r") Serial) .empty as).bind nextCall = some (i, c, steps)) :
    ∃ s drive p, Run (step "r") Serial .empty s ∧ s.drives.get 1 = some drive ∧ s.store = some p ∧
      drive.runtime.callIndex = i ∧ drive.runtime.state.cursor = c ∧ p.steps = steps := by
  obtain ⟨s, -, hrun, h⟩ := Run.exists_of_exec h
  obtain ⟨drive, hd, h⟩ := bind_eq_some_iff.mp h
  obtain ⟨p, hp, h⟩ := map_eq_some_iff.mp h
  simp only [Prod.mk.injEq] at h
  exact ⟨s, drive, p, hrun, hd, hp, h⟩

/-- After the crash, `fast` is recorded behind the hole that `slow` left, and its function is called
again. -/
theorem crash_reruns_recorded_step :
    ∃ s drive p, Run (step "r") Serial .empty s ∧ s.drives.get 1 = some drive ∧ s.store = some p ∧
      p.steps.get drive.runtime.callIndex =
        some (⟨"fast", .done, some 2⟩ : WorkflowStepState ℕ) ∧
      drive.runtime.step "fast" = (drive.runtime.next, .runs 1 "fast") := by
  obtain ⟨s, drive, p, hrun, hd, hp, hi, hc, hsteps⟩ := exists_of_nextCall
    (show (exec _ _ crashAfterFast).bind nextCall =
      some (1, 0, [none, some ⟨"fast", .done, some 2⟩]) by decide +kernel)
  refine ⟨s, drive, p, hrun, hd, hp, by rw [hi, hsteps]; rfl, ?_⟩
  rcases drive.runtime.step_cases "fast" with ⟨hrep, -⟩ | ⟨-, hlt, -⟩ | ⟨-, h⟩
  · exact absurd hrep.1 (by omega)
  · omega
  · rw [h, hi]

/-- When both steps are recorded, a resumed drive returns the result of the second one. -/
theorem crash_replays_recorded_step :
    ∃ s drive p, Run (step "r") Serial .empty s ∧ s.drives.get 1 = some drive ∧ s.store = some p ∧
      p.steps.get drive.runtime.callIndex =
        some (⟨"fast", .done, some 2⟩ : WorkflowStepState ℕ) ∧
      drive.runtime.step "fast" = (drive.runtime.next, .returned (some 2)) := by
  obtain ⟨s, drive, p, hrun, hd, hp, hi, -, hsteps⟩ := exists_of_nextCall
    (show (exec _ _ crashAfterBoth).bind nextCall =
      some (1, 2, [some ⟨"slow", .done, some 3⟩, some ⟨"fast", .done, some 2⟩]) by decide +kernel)
  have hr : p.steps.get drive.runtime.callIndex = some ⟨"fast", .done, some 2⟩ := by
    rw [hi, hsteps]
    rfl
  refine ⟨s, drive, p, hrun, hd, hp, hr, (step_replays_iff_no_hole hrun hd hp hr).mpr ?_⟩
  intro i hlt
  obtain rfl : i = 0 := by omega
  rw [hsteps]
  rfl

end Fino.Workflow
