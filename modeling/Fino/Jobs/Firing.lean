import Fino.Jobs.Schedules

/-!
# One job at a time, one firing for an occurrence

A schedule that skips overlaps has at most one active job, each tick that finds it due advances it
to the first occurrence after the tick, and no occurrence is fired twice. `History` records the
ticks and the advances. A pass goes by the status of the job of the last firing, which a dispatch
under way can make active again (`cancelled_job_overlaps`); `Steady` excludes this, and ticks that
overlap. `OneActive` and `Recorded` are the invariants.
-/

namespace Fino.Jobs

open Lib List Option Agenda
open Workflow (Time)

variable {V : Type} {σ : String}

/-! ## Jobs of a schedule -/

instance (d : Dispatch V) (result : JobsWireResult V) : Decidable (d.LeavesActive result) := by
  induction result using JobsWireResult.casesOn <;> unfold Dispatch.LeavesActive <;> infer_instance

/-- No one retries a finished job of the schedule, and a dispatch that makes it active finds it
active. -/
def KeepsFinished (σ : String) (s : Sys V) : Action V → Prop
  | .retry id _ => ∀ r ∈ s.table.row id, r.scheduleId ≠ some σ
  | .markRunning k _ => ∀ d ∈ s.dispatches.get k, ∀ r ∈ s.table.row d.job.id,
      r.scheduleId = some σ → r.status.Active
  | .finish k _ _ result => ∀ d ∈ s.dispatches.get k, d.LeavesActive result →
      ∀ r ∈ s.table.row d.job.id, r.scheduleId = some σ → r.status.Active
  | _ => True

variable {a : Action V} {s : Sys V} {u : JobsUpdate V}

lemma Issues.scheduleId (h : Issues s a u) (r : JobRecord V) :
    (u.set r).scheduleId = r.scheduleId := by
  cases h with
  | claims | begins => rfl
  | statement ha =>
    cases a with
    | sweepLeases now random =>
      cases ha
      show ((recover now random r).set r).scheduleId = _
      unfold recover
      split_ifs <;> rfl
    | heartbeat | cancel | retry | wake =>
      cases ha
      rfl
    | _ => exact absurd ha (by simp [Action.statement])
  | finishes hk hrun =>
    rename_i k now random result d
    cases result with
    | failed error retryable =>
      simp only [Dispatch.outcome]
      split_ifs <;> rfl
    | _ => rfl

variable {id : String} {r : JobRecord V}

lemma Issues.active_inv (h : Issues s a u) (hok : KeepsFinished σ s a)
    (hr : s.table.row id = some r) (hσ : r.scheduleId = some σ) (hf : u.filter r)
    (hactive : (u.set r).status.Active) :
    r.status.Active := by
  cases h with
  | claims =>
    simp only [claim, Bool.and_eq_true, decide_eq_true_eq] at hf
    rcases hf.2 with h | h <;> rw [h] <;> decide
  | statement ha =>
    cases a with
    | sweepLeases now random =>
      cases ha
      simp only [sweep, JobRecord.expired, Bool.and_eq_true, decide_eq_true_eq] at hf
      rcases hf.1 with h | h <;> rw [h] <;> decide
    | heartbeat service ids leaseMs now =>
      cases ha
      exact hactive
    | cancel id' now =>
      cases ha
      exact absurd hactive (by simp [cancel, JobStatus.Active])
    | retry id' now =>
      cases ha
      simp only [retry, Bool.and_eq_true, decide_eq_true_eq] at hf
      have hid : id' = id := hf.1.symm.trans (Table.key_of_row hr)
      exact absurd hσ (hok r (hid ▸ hr))
    | wake id' now =>
      cases ha
      simp only [wake, Bool.and_eq_true, decide_eq_true_eq] at hf
      rw [hf.2]
      decide
    | _ => exact absurd ha (by simp [Action.statement])
  | begins hk hfirst =>
    rename_i k now d
    have hid : d.job.id = id := (of_decide_eq_true hf).symm.trans (Table.key_of_row hr)
    exact hok d hk r (hid ▸ hr) hσ
  | finishes hk hrun =>
    rename_i k now random result d
    rw [Dispatch.outcome_active_iff] at hactive
    have hid : d.job.id = id := by
      rw [Dispatch.outcome_filter] at hf
      exact (of_decide_eq_true hf).symm.trans (Table.key_of_row hr)
    exact hok d hk hactive r (hid ▸ hr) hσ

lemma Step.job_inv {t : Sys V} (h : Step s a t) (hpush : a.pushed)
    (hr : t.table.row id = some r) (hσ : r.scheduleId = some σ) :
    ∃ q, s.table.row id = some q ∧ q.scheduleId = some σ ∧
      (KeepsFinished σ s a → r.status.Active → q.status.Active) := by
  rcases h.table_cases with hsame | ⟨id', now, job, rfl, -, hrow⟩ | ⟨u, hu, hwrites⟩
  · exact ⟨r, hsame ▸ hr, hσ, fun _ h => h⟩
  · rw [hrow] at hr
    split_ifs at hr
    · -- What is pushed is of no schedule.
      cases hr
      have hnone : job.scheduleId = none := by simpa [Action.pushed] using hpush
      exact absurd (hnone.symm.trans hσ) (by simp)
    · exact ⟨r, hr, hσ, fun _ h => h⟩
  · obtain ⟨q, hq, ⟨-, rfl⟩ | ⟨hf, rfl⟩⟩ := hwrites.row_inv hr
    · exact ⟨r, hq, hσ, fun _ h => h⟩
    · rw [hu.scheduleId] at hσ
      exact ⟨q, hq, hσ, fun hok hactive => hu.active_inv hok hq hσ hf hactive⟩

/-! ## The history of a run -/

/-- A tick with the schedules that it found due. -/
structure Tick (V : Type) where
  now : Time
  due : List (ScheduleRecord V)

/-- The number of the tick, the schedule as it was read, the time that was left in the table, and
the inserted job, if any. -/
structure Advance (V : Type) where
  tick : ℕ
  read : ScheduleRecord V
  stored : Option Time
  fired : Option String

/-- The ticks, the advances, and the numbers of the ticks whose process was gone before they were
done. -/
structure History (V : Type) where
  ticks : List (Tick V)
  advances : List (Advance V)
  aborted : List ℕ

def History.none : History V := ⟨[], [], []⟩

/-- The history after a step. Ticks do not overlap in the runs that this is for, so the pass under
way is that of the last tick. -/
def note (g : History V) (s : Agenda V) (a : Op V) (t : Agenda V) : History V :=
  match a with
  | .due now => { g with ticks := g.ticks ++ [⟨now, dueSchedules now s.schedules⟩] }
  | .advance k _ =>
    match s.passes[k]? with
    | some ⟨_, r :: _, .advancing _ jobId⟩ => { g with
        advances := g.advances ++
          [⟨g.ticks.length - 1, r, (t.schedules.row r.id).map (·.nextRunAt), jobId⟩] }
    | _ => g
  | .abort k =>
    if k < s.passes.length then { g with aborted := g.aborted ++ [g.ticks.length - 1] } else g
  | _ => g

def stepNoting : Agenda V × History V → Op V → Option (Agenda V × History V) :=
  watch Agenda.step note

/-- What a pass at work on the schedule has on record about its jobs. -/
def Pass.owner (σ : String) (p : Pass V) : Option (Option String) :=
  match p.todo, p.stage with
  | r :: _, .inserting _ => if r.id = σ then some none else none
  | r :: _, .advancing _ (some id) => if r.id = σ then some (some id) else none
  | _, _ => none

/-- The pass is between the insertion of a job of the schedule and its record. -/
def Pass.Recording (σ : String) (p : Pass V) : Prop := (p.owner σ).join.isSome = true

/-- Doubles are exact for the schedule at this time. A decimal point is left out, since `1.005s` is
no whole number of milliseconds for them. -/
def ExactAt (now : Time) (text : String) : Prop :=
  '.' ∉ text.toList ∧ ∀ spec ∈ (parseCron text).toOption, spec.Exact now

/-- No finished job of the schedule is made active again; the schedule is not deleted, and replaced
only by one that skips overlaps too, by a call that is not older than an earlier tick; ticks do not
overlap, and each due schedule has a next occurrence within five years; intervals are whole numbers
of milliseconds; the ids of jobs are new; and no process ends between the insertion of a job and its
record. -/
def Steady (σ : String) (x : Agenda V × History V) : Op V → Prop
  | .job a => KeepsFinished σ x.1.jobs a
  | .schedule name _ _ opts calledAt _ => name = σ →
      opts.overlap.getD .skip = .skip ∧ (∀ tick ∈ x.2.ticks, tick.now ≤ calledAt) ∧
        ∀ text ∈ opts.specText, ExactAt calledAt text
  | .unschedule name => name ≠ σ
  | .due now => x.1.passes = [] ∧ ∀ r ∈ dueSchedules now x.1.schedules, ExactAt now r.spec ∧
      ∀ spec ∈ (parseCron r.spec).toOption, (nextOccurrence spec now).isSome
  | .insert _ id _ => x.1.jobs.table.row id = none
  | .abort k => ∀ p ∈ x.1.passes[k]?, ¬ p.Recording σ
  | .decide _ | .advance .. => True

/-! ## The job that can be active -/

def Agenda.lastJob (σ : String) (s : Agenda V) : Option String :=
  (s.schedules.row σ).bind (·.lastJobId)

/-- The only job that can be active: the one that the pass at work has on record, or else the one
that the schedule has. -/
def Agenda.owner (σ : String) (s : Agenda V) : Option String :=
  (s.passes.head?.bind (·.owner σ)).getD (s.lastJob σ)

/-- The invariant about the jobs of the schedule. -/
structure OneActive (σ : String) (s : Agenda V) : Prop where
  alone : s.passes.length ≤ 1
  skips : ∀ r, s.schedules.row σ = some r → r.overlap = .skip
  read : ∀ p ∈ s.passes, ∀ r ∈ p.todo, r.id = σ → r.overlap = .skip ∧
    ∃ q, s.schedules.row σ = some q ∧ q.lastJobId = r.lastJobId
  nodup : ∀ p ∈ s.passes, (p.todo.map (·.id)).Nodup
  active : ∀ id job, s.jobs.table.row id = some job → job.scheduleId = some σ →
    job.status.Active → s.owner σ = some id

variable {s : Agenda V} {p : Pass V} {k : ℕ}

lemma OneActive.passes_eq (hs : OneActive σ s) (hk : s.passes[k]? = some p) :
    k = 0 ∧ s.passes = [p] := by
  obtain ⟨hlt, hget⟩ := List.getElem?_eq_some_iff.mp hk
  have hlength : s.passes.length = 1 := by
    have := hs.alone
    omega
  obtain ⟨q, hq⟩ := length_eq_one_iff.mp hlength
  have hk0 : k = 0 := by omega
  subst hk0
  refine ⟨rfl, ?_⟩
  rw [hq, List.getElem?_cons_zero, some.injEq] at hk
  rw [hq, hk]

lemma Agenda.owner_of_none (hp : s.passes = [p]) (h : p.owner σ = none) :
    s.owner σ = s.lastJob σ := by
  simp [owner, hp, h]

lemma Agenda.owner_of_some {o : Option String} (hp : s.passes = [p]) (h : p.owner σ = some o) :
    s.owner σ = o := by
  simp [owner, hp, h]

lemma Agenda.owner_of_nil (hp : s.passes = []) : s.owner σ = s.lastJob σ := by
  simp [owner, hp]

variable {t : SchedulesTable V} {now : Time}

/-- What the upsert leaves in the table. -/
abbrev Upserts (u : UpsertSchedule V) (now : Time) (before t : SchedulesTable V) : Prop :=
  ∀ k, t.row k = if u.id = k then some ((before.row k).elim (u.toRow now) (u.replace now).set)
    else before.row k

variable {u : UpsertSchedule V}

lemma lastJob_of_upsert (σ : String)
    (hrow : Upserts u now s.schedules t) : (t.row σ).bind (·.lastJobId) = s.lastJob σ := by
  unfold lastJob
  rw [hrow]
  split_ifs
  · cases s.schedules.row σ <;> rfl
  · rfl

variable {jobs : Sys V}

section

variable (hs : OneActive σ s)

include hs

lemma OneActive.works (hpush : a.pushed) (hjobs : step s.jobs a = some jobs)
    (hok : KeepsFinished σ s.jobs a) :
    OneActive σ { s with jobs := jobs } := by
  refine ⟨hs.alone, hs.skips, hs.read, hs.nodup, fun id job hr hσ hactive => ?_⟩
  obtain ⟨q, hq, hqσ, hback⟩ := (Step.of_step hjobs).job_inv hpush hr hσ
  exact hs.active id q hq hqσ (hback hok hactive)

lemma OneActive.schedules (hrow : Upserts u now s.schedules t)
    (hskip : u.id = σ → u.overlap = .skip) : OneActive σ { s with schedules := t } := by
  have hlast := lastJob_of_upsert σ hrow
  refine ⟨hs.alone, fun r hr => ?_, fun p hp r hr hid => ?_, hs.nodup,
    fun id job hr hσ hactive => ?_⟩
  · show r.overlap = .skip
    rw [hrow] at hr
    split_ifs at hr with h
    · cases hr
      cases s.schedules.row σ <;> exact hskip h
    · exact hs.skips r hr
  · obtain ⟨hoverlap, q, hq, hjob⟩ := hs.read p hp r hr hid
    refine ⟨hoverlap, ?_⟩
    rw [hrow, hq]
    split_ifs
    · exact ⟨_, rfl, hjob⟩
    · exact ⟨q, rfl, hjob⟩
  · have hbefore := hs.active id job hr hσ hactive
    unfold owner at hbefore ⊢
    rwa [← hlast] at hbefore

lemma OneActive.unschedules {name : String} (hne : name ≠ σ) :
    OneActive σ { s with schedules := deleteSchedule name s.schedules } := by
  have hrow : (deleteSchedule name s.schedules).row σ = s.schedules.row σ := by
    rw [deleteSchedule, Table.row_delete]
    cases hr : s.schedules.row σ with
    | none => rfl
    | some r =>
      have hkeep : decide (r.id = name) = false :=
        decide_eq_false fun h => hne (h.symm.trans (Table.key_of_row hr))
      simp [hkeep]
  refine ⟨hs.alone, fun r hr => hs.skips r (hrow ▸ hr), fun p hp r hr hid => ?_, hs.nodup,
    fun id job hr hσ hactive => ?_⟩
  · show _ ∧ ∃ q, (deleteSchedule name s.schedules).row σ = some q ∧ _
    rw [hrow]
    exact hs.read p hp r hr hid
  · have hbefore := hs.active id job hr hσ hactive
    unfold owner lastJob at hbefore ⊢
    rwa [hrow]

lemma OneActive.reads (hnone : s.passes = []) :
    OneActive σ { s with
      passes := s.passes ++ [⟨now, dueSchedules now s.schedules, .deciding⟩] } := by
  have hp : s.passes ++ [⟨now, dueSchedules now s.schedules, .deciding⟩] =
      [⟨now, dueSchedules now s.schedules, .deciding⟩] := by rw [hnone, nil_append]
  refine ⟨by simp [hnone], hs.skips, fun p hp' r hr hid => ?_, fun p hp' => ?_,
    fun id job hr hσ hactive => ?_⟩
  · obtain rfl := mem_singleton.mp (hp ▸ hp')
    -- What it reads is what the table has.
    obtain ⟨hrow, -⟩ := mem_dueSchedules.mp hr
    rw [hid] at hrow
    exact ⟨hs.skips r hrow, r, hrow, rfl⟩
  · obtain rfl := mem_singleton.mp (hp ▸ hp')
    exact dueSchedules_nodup now s.schedules
  · have hbefore := hs.active id job hr hσ hactive
    rw [owner_of_nil hnone] at hbefore
    rw [owner_of_none hp (by unfold Pass.owner; split <;> simp_all)]
    exact hbefore

/-- The pass goes on to another stage with the same schedule. -/
lemma OneActive.restage {p' : Pass V} (hp : s.passes = [p]) (htodo : p'.todo = p.todo)
    (hactive : ∀ id job, jobs.table.row id = some job → job.scheduleId = some σ →
      job.status.Active → owner σ { s with jobs := jobs, passes := [p'] } = some id) :
    OneActive σ { s with jobs := jobs, passes := [p'] } := by
  have hmem : p ∈ s.passes := by simp [hp]
  refine ⟨by simp, hs.skips, fun q hq r hr hid => ?_, fun q hq => ?_, hactive⟩
  · obtain rfl := mem_singleton.mp hq
    exact hs.read p hmem r (htodo ▸ hr) hid
  · obtain rfl := mem_singleton.mp hq
    rw [htodo]
    exact hs.nodup p hmem

variable {rest : List (ScheduleRecord V)} {r : ScheduleRecord V} {nextRunAt : Time}

/-- A pass decides. If it decides to fire the schedule, none of the schedule's jobs is active. -/
lemma OneActive.decides (hk : s.passes[k]? = some ⟨now, r :: rest, .deciding⟩) :
    OneActive σ { s with
      passes := s.passes.set k ⟨now, r :: rest, s.decision now r nextRunAt⟩ } := by
  obtain ⟨rfl, hp⟩ := hs.passes_eq hk
  rw [hp, set_cons_zero]
  refine hs.restage hp rfl fun id job hrow hσ hactive => ?_
  have hbefore := hs.active id job hrow hσ hactive
  rw [owner_of_none hp rfl] at hbefore
  by_cases hid : r.id = σ
  · -- The job on record is active, and the pass sees it.
    obtain ⟨hskip, q, hq, hjob⟩ := hs.read _ (by rw [hp]; exact mem_singleton_self _) r
      (by simp) hid
    have hlast : r.lastJobId = some id := by
      rw [← hjob]
      simpa [lastJob, hq] using hbefore
    have hdecision : s.decision now r nextRunAt = .advancing nextRunAt none := by
      unfold decision
      split_ifs with h₁ h₂
      · rfl
      · rfl
      · exact absurd ⟨hskip, by simp [hlast, hrow, hactive]⟩ h₂
    rw [hdecision, owner_of_none rfl rfl]
    exact hbefore
  · rw [owner_of_none rfl ?_]
    · exact hbefore
    · unfold Pass.owner
      split <;> simp_all

/-- A pass is over before it was at work on the schedule, or before it had inserted a job. -/
lemma OneActive.drops (hk : s.passes[k]? = some p) (hp : ¬ p.Recording σ) :
    OneActive σ { s with passes := s.passes.eraseIdx k } := by
  obtain ⟨rfl, hpasses⟩ := hs.passes_eq hk
  have hnil : s.passes.eraseIdx 0 = [] := by rw [hpasses]; rfl
  rw [hnil]
  refine ⟨by simp, hs.skips, by simp, by simp, fun id job hrow hσ hactive => ?_⟩
  have hbefore := hs.active id job hrow hσ hactive
  cases howner : p.owner σ with
  | none =>
    rw [owner_of_none hpasses howner] at hbefore
    exact hbefore
  | some o =>
    -- It was about to insert one, so no job was active.
    rw [owner_of_some hpasses howner] at hbefore
    rw [Pass.Recording, howner, hbefore] at hp
    exact absurd rfl hp

variable {tickAt : Time}

lemma OneActive.inserts {t : JobsTable V}
    (hk : s.passes[k]? = some ⟨tickAt, r :: rest, .inserting nextRunAt⟩)
    (hrow : ∀ k, t.row k =
      if id = k then some ((r.toJob tickAt).toRow id now) else s.jobs.table.row k) :
    OneActive σ { s with
      jobs := { s.jobs with table := t }
      passes := s.passes.set k ⟨tickAt, r :: rest, .advancing nextRunAt (some id)⟩ } := by
  obtain ⟨rfl, hp⟩ := hs.passes_eq hk
  rw [hp, set_cons_zero]
  refine hs.restage hp rfl fun id' job hjob hσ hactive => ?_
  rw [hrow] at hjob
  by_cases hid : r.id = σ
  · rw [owner_of_some rfl (o := some id) (by simp [Pass.owner, hid])]
    split_ifs at hjob with h
    · rw [h]
    · -- No other job was active.
      have hbefore := hs.active id' job hjob hσ hactive
      rw [owner_of_some hp (o := none) (by simp [Pass.owner, hid])] at hbefore
      cases hbefore
  · rw [owner_of_none rfl (by simp [Pass.owner, hid])]
    split_ifs at hjob with h
    · -- The new job is of another schedule.
      cases hjob
      exact absurd (some.inj hσ) hid
    · have hbefore := hs.active id' job hjob hσ hactive
      rw [owner_of_none hp (by simp [Pass.owner, hid])] at hbefore
      exact hbefore

lemma OneActive.handled_eq (hk : s.passes[k]? = some p) (now : Time)
    (rest : List (ScheduleRecord V)) :
    rest = [] ∧ s.handled k now rest = [] ∨ s.handled k now rest = [⟨now, rest, .deciding⟩] := by
  obtain ⟨rfl, hp⟩ := hs.passes_eq hk
  unfold handled
  split_ifs with hrest
  · exact .inl ⟨isEmpty_iff.mp hrest, by rw [hp]; rfl⟩
  · exact .inr (by rw [hp, set_cons_zero])

lemma OneActive.of_mem_handled {q : Pass V} (hk : s.passes[k]? = some p)
    (hq : q ∈ s.handled k now rest) : q.todo = rest ∧ q.now = now := by
  rcases hs.handled_eq hk now rest with ⟨-, h⟩ | h <;> rw [h] at hq
  · cases hq
  · rw [mem_singleton.mp hq]
    exact ⟨rfl, rfl⟩

variable {jobId : Option String} {g : History V}

lemma OneActive.advances
    (hk : s.passes[k]? = some ⟨tickAt, r :: rest, .advancing nextRunAt jobId⟩)
    (hrow : ∀ i, t.row i = (s.schedules.row i).map
      (advanceSchedule r.id nextRunAt (jobId.map (tickAt, ·)) now).effect) :
    OneActive σ { s with schedules := t, passes := s.handled k tickAt rest } := by
  have hmem := mem_of_getElem? hk
  have hp := (hs.passes_eq hk).2
  have hnodup : r.id ∉ rest.map (·.id) ∧ (rest.map (·.id)).Nodup := by
    have h := hs.nodup _ hmem
    rwa [map_cons, nodup_cons] at h
  have howner : owner σ { s with schedules := t, passes := s.handled k tickAt rest } =
      (t.row σ).bind (·.lastJobId) := by
    rcases hs.handled_eq hk tickAt rest with ⟨-, h⟩ | h
    · exact owner_of_nil h
    · exact owner_of_none h (by unfold Pass.owner; split <;> simp_all)
  refine ⟨?_, fun q hq => ?_, fun p hp' r' hr' hid => ?_, fun p hp' => ?_,
    fun id job hjob hσ hactive => ?_⟩
  · rcases hs.handled_eq hk tickAt rest with ⟨-, h⟩ | h <;> simp [h]
  · have hq : t.row σ = some q := hq
    rw [hrow] at hq
    obtain ⟨q', hq', ⟨-, rfl⟩ | ⟨-, rfl⟩⟩ := advance_row hq
    · exact hs.skips _ hq'
    · rw [(advanceSchedule_set ..).2.1]
      exact hs.skips _ hq'
  · -- The schedules that are left are others than the one that was advanced.
    rw [(hs.of_mem_handled hk hp').1] at hr'
    obtain ⟨hskip, q, hq, hjob⟩ := hs.read _ hmem r' (mem_cons_of_mem _ hr') hid
    refine ⟨hskip, q, ?_, hjob⟩
    have hne : σ ≠ r.id := by
      rintro rfl
      exact hnodup.1 (hid ▸ mem_map_of_mem hr')
    rw [hrow, hq, map_some, Update.effect_of_not_filter]
    exact decide_eq_false fun h => hne ((Table.key_of_row hq).symm.trans h)
  · rw [(hs.of_mem_handled hk hp').1]
    exact hnodup.2
  · have hbefore := hs.active id job hjob hσ hactive
    rw [howner]
    by_cases hid : r.id = σ
    · obtain ⟨-, q, hq, -⟩ := hs.read _ hmem r (by simp) hid
      have hf : (advanceSchedule r.id nextRunAt (jobId.map (tickAt, ·)) now).filter q :=
        decide_eq_true ((Table.key_of_row hq).trans hid.symm)
      rw [hrow, hq, map_some, Update.effect_of_filter hf, bind_some, (advanceSchedule_set ..).2.2.2]
      -- A firing is put on record by the advance; otherwise the record stays.
      cases jobId with
      | some fired =>
        rw [owner_of_some hp (o := some fired) (by simp [Pass.owner, hid])] at hbefore
        exact hbefore
      | none =>
        rw [owner_of_none hp rfl, lastJob, hq] at hbefore
        exact hbefore
    · have hpowner : Pass.owner σ (⟨tickAt, r :: rest, .advancing nextRunAt jobId⟩ : Pass V) =
          none := by
        cases jobId <;> simp [Pass.owner, hid]
      rw [owner_of_none hp hpowner, lastJob] at hbefore
      rw [hrow]
      cases hq : s.schedules.row σ with
      | none =>
        rw [hq] at hbefore
        cases hbefore
      | some q =>
        have hf : (advanceSchedule r.id nextRunAt (jobId.map (tickAt, ·)) now).filter q = false :=
          decide_eq_false fun h => hid (h.symm.trans (Table.key_of_row hq))
        rw [map_some, Update.effect_of_not_filter hf]
        rw [hq] at hbefore
        exact hbefore

end

lemma OpStep.oneActive {t : Agenda V} {a : Op V} (h : OpStep s a t) (hok : Steady σ (s, g) a)
    (hs : OneActive σ s) : OneActive σ t := by
  cases h with
  | throws | idles => exact hs
  | works hpush hjobs => exact hs.works hpush hjobs hok
  | schedules hcalled hu hrow =>
    obtain ⟨hname, hoverlap, -⟩ := scheduleRequest_spec hcalled hu
    exact hs.schedules hrow fun hid => hoverlap.trans (hok (hname.symm.trans hid)).1
  | unschedules => exact hs.unschedules hok
  | reads hnow hdue => exact hs.reads hok.1
  | decides hk hspec hnext => exact hs.decides hk
  | fails hk hnone => exact hs.drops hk (by simp [Pass.Recording, Pass.owner])
  | inserts hk hnew hrow => exact hs.inserts hk hrow
  | refuses hk hold => exact absurd hok hold
  | advances hk hrow => exact hs.advances hk hrow
  | aborts =>
    rename_i k
    cases hk : s.passes[k]? with
    | some p => exact hs.drops hk (hok p hk)
    | none =>
      have hsame : s.passes.eraseIdx k = s.passes :=
        eraseIdx_of_length_le (List.getElem?_eq_none_iff.mp hk)
      rw [hsame]
      exact hs

/-! ## What the history records -/

lemma OpStep.parsed {t : Agenda V} {a : Op V} (h : OpStep s a t)
    (hs : ∀ id r, s.schedules.row id = some r → ∃ spec, parseCron r.spec = .ok spec) :
    ∀ id r, t.schedules.row id = some r → ∃ spec, parseCron r.spec = .ok spec := by
  cases h with
  | throws | idles | works | reads | decides | fails | inserts | refuses | aborts => exact hs
  | schedules hcalled hu hrow =>
    intro id r hr
    rw [hrow] at hr
    split_ifs at hr
    · obtain ⟨-, -, spec, hspec, -⟩ := scheduleRequest_spec hcalled hu
      cases hr
      exact ⟨spec, by cases s.schedules.row id <;> exact hspec⟩
    · exact hs id r hr
  | unschedules =>
    intro id r hr
    rw [deleteSchedule, Table.row_delete] at hr
    exact hs id r (filter_eq_some_iff.mp hr).1
  | advances hk hrow =>
    intro id q' hq'
    rw [hrow] at hq'
    obtain ⟨q, hq, ⟨-, rfl⟩ | ⟨-, rfl⟩⟩ := advance_row hq'
    · exact hs id _ hq
    · rw [(advanceSchedule_set ..).1]
      exact hs id q hq

def Advance.of (σ : String) (e : Advance V) : Bool := decide (e.read.id = σ)

/-- What the history says of a schedule, and what the pass under way will add. -/
structure Recorded (σ : String) (s : Agenda V) (g : History V) : Prop where
  /-- The pass under way is that of the last tick. -/
  current : ∀ p ∈ s.passes, ∃ n tick, g.ticks.length = n + 1 ∧ g.ticks[n]? = some tick ∧
    tick.now = p.now ∧ ∀ r ∈ p.todo, r ∈ tick.due
  /-- What it still has to do, it can do. -/
  ready : ∀ p ∈ s.passes, ∀ r ∈ p.todo, ∃ spec nextRunAt, parseCron r.spec = .ok spec ∧
    nextOccurrence spec p.now = some nextRunAt
  /-- A tick finds due what is due. -/
  timely : ∀ tick ∈ g.ticks, ∀ r ∈ tick.due, r.nextRunAt ≤ tick.now
  /-- An advance of the schedule leaves the first occurrence after its tick. -/
  exact : ∀ e ∈ g.advances, e.read.id = σ → ∃ tick spec nextRunAt, g.ticks[e.tick]? = some tick ∧
    e.read ∈ tick.due ∧ parseCron e.read.spec = .ok spec ∧ spec.IsNext tick.now nextRunAt ∧
    e.stored = some nextRunAt
  /-- No schedule that a tick found due is passed over. -/
  complete : ∀ n tick, g.ticks[n]? = some tick → ∀ r ∈ tick.due,
    (∃ e ∈ g.advances, e.tick = n ∧ e.read = r) ∨ n ∈ g.aborted ∨
      n + 1 = g.ticks.length ∧ ∃ p ∈ s.passes, r ∈ p.todo
  /-- The advances of the schedule belong to later and later ticks and occurrences. -/
  ordered : (g.advances.filter (·.of σ)).Pairwise fun a b =>
    a.tick < b.tick ∧ a.read.nextRunAt < b.read.nextRunAt
  /-- So does the one that the pass under way will make. -/
  fresh : ∀ p ∈ s.passes, ∀ r ∈ p.todo, r.id = σ → ∀ e ∈ g.advances, e.read.id = σ →
    e.tick + 1 < g.ticks.length ∧ e.read.nextRunAt < r.nextRunAt
  /-- What the table has is later than what was advanced. -/
  ahead : ∀ q, s.schedules.row σ = some q → ∀ e ∈ g.advances, e.read.id = σ →
    e.read.nextRunAt < q.nextRunAt
  /-- A job of the schedule is that of a firing. -/
  fired : ∀ id job, s.jobs.table.row id = some job → job.scheduleId = some σ →
    (∃ e ∈ g.advances, e.read.id = σ ∧ e.fired = some id) ∨
      ∃ p ∈ s.passes, p.owner σ = some (some id)

namespace Recorded

variable {s : Agenda V} {g : History V}

variable (hr : Recorded σ s g)

include hr

lemma works (hpush : a.pushed)
    (hjobs : step s.jobs a = some jobs) : Recorded σ { s with jobs := jobs } g where
  __ := hr
  fired id job hrow hσ := by
    obtain ⟨q, hq, hqσ, -⟩ := (Step.of_step hjobs).job_inv hpush hrow hσ
    exact hr.fired id q hq hqσ

variable {now : Time}

lemma schedules {calledAt : Time} (hrow : Upserts u now s.schedules t)
    (hlater : u.id = σ → calledAt < u.nextRunAt ∧ ∀ tick ∈ g.ticks, tick.now ≤ calledAt) :
    Recorded σ { s with schedules := t } g where
  __ := hr
  ahead q hq e he hid := by
    rw [hrow] at hq
    split_ifs at hq with hσ
    · have hnext : q.nextRunAt = u.nextRunAt := by
        cases hq
        cases s.schedules.row σ <;> rfl
      obtain ⟨hlt, hticks⟩ := hlater hσ
      obtain ⟨tick, -, -, htick, hdue, -⟩ := hr.exact e he hid
      have hmem := mem_of_getElem? htick
      rw [hnext]
      exact ((hr.timely tick hmem _ hdue).trans (hticks tick hmem)).trans_lt hlt
    · exact hr.ahead q hq e he hid

lemma unschedules (name : String) :
    Recorded σ { s with schedules := deleteSchedule name s.schedules } g where
  __ := hr
  ahead q hq := by
    rw [deleteSchedule, Table.row_delete] at hq
    exact hr.ahead q (filter_eq_some_iff.mp hq).1

lemma ticks (hnone : s.passes = []) {passes : List (Pass V)}
    (hpasses : passes = [] ∧ dueSchedules now s.schedules = [] ∨
      passes = [⟨now, dueSchedules now s.schedules, .deciding⟩])
    (hready : ∀ r ∈ dueSchedules now s.schedules, ∃ spec nextRunAt, parseCron r.spec = .ok spec ∧
      nextOccurrence spec now = some nextRunAt) :
    Recorded σ { s with passes := passes }
      { g with ticks := g.ticks ++ [⟨now, dueSchedules now s.schedules⟩] } := by
  have hpass : ∀ p ∈ passes, p = ⟨now, dueSchedules now s.schedules, .deciding⟩ := by
    intro p hp
    rcases hpasses with ⟨h, -⟩ | h <;> rw [h] at hp
    · cases hp
    · exact mem_singleton.mp hp
  have hold : ∀ {n : ℕ} {tick : Tick V}, g.ticks[n]? = some tick →
      (g.ticks ++ [⟨now, dueSchedules now s.schedules⟩])[n]? = some tick := by
    intro n tick h
    rw [List.getElem?_append_left (List.getElem?_eq_some_iff.mp h).1, h]
  refine
    { current := fun p hp => ?_
      ready := fun p hp => ?_
      timely := fun tick htick r hdue => ?_
      exact := fun e he hid => ?_
      complete := fun n tick htick r hdue => ?_
      ordered := hr.ordered
      fresh := fun p hp r hmem hid e he hide => ?_
      ahead := hr.ahead
      fired := fun id job hrow hσ => ?_ }
  · obtain rfl := hpass p hp
    exact ⟨g.ticks.length, ⟨now, dueSchedules now s.schedules⟩, by simp, by simp, rfl,
      fun _ h => h⟩
  · obtain rfl := hpass p hp
    exact hready
  · rcases mem_append.mp htick with htick | htick
    · exact hr.timely tick htick r hdue
    · obtain rfl := mem_singleton.mp htick
      exact (mem_dueSchedules.mp hdue).2.2
  · obtain ⟨tick, spec, next, htick, hrest⟩ := hr.exact e he hid
    exact ⟨tick, spec, next, hold htick, hrest⟩
  · rcases lt_or_ge n g.ticks.length with hn | hn
    · -- No pass was under way, so the ticks before are done.
      rw [List.getElem?_append_left hn] at htick
      rcases hr.complete n tick htick r hdue with h | h | ⟨-, p, hp, -⟩
      · exact .inl h
      · exact .inr (.inl h)
      · rw [hnone] at hp
        cases hp
    · rw [List.getElem?_append_right hn, List.getElem?_singleton] at htick
      split_ifs at htick with hzero
      cases htick
      refine .inr (.inr ⟨by simp; omega, ?_⟩)
      rcases hpasses with ⟨-, hempty⟩ | h
      · rw [hempty] at hdue
        cases hdue
      · exact ⟨_, by rw [h]; exact mem_singleton_self _, hdue⟩
  · -- The schedule was ahead of what was advanced when it was read.
    obtain rfl := hpass p hp
    obtain ⟨hrow, -⟩ := mem_dueSchedules.mp hmem
    obtain ⟨tick, -, -, htick, -⟩ := hr.exact e he hide
    have hlt := (List.getElem?_eq_some_iff.mp htick).1
    refine ⟨by simp; omega, hr.ahead r (hid ▸ hrow) e he hide⟩
  · rcases hr.fired id job hrow hσ with h | ⟨p, hp, -⟩
    · exact .inl h
    · rw [hnone] at hp
      cases hp

/-- The pass goes on to another stage with the same schedule, and has nothing more on record. -/
lemma restage (p' : Pass V) (hp : s.passes = [p]) (hnow : p'.now = p.now)
    (htodo : p'.todo = p.todo)
    (hfired : ∀ id job, jobs.table.row id = some job → job.scheduleId = some σ →
      (∃ e ∈ g.advances, e.read.id = σ ∧ e.fired = some id) ∨ p'.owner σ = some (some id)) :
    Recorded σ { s with jobs := jobs, passes := [p'] } g := by
  have hmem : p ∈ s.passes := by simp [hp]
  refine { hr with
      current := fun q hq => ?_
      ready := fun q hq => ?_
      complete := fun n tick htick r hdue => ?_
      fresh := fun q hq => ?_
      fired := fun id job hrow hσ => ?_ }
  · obtain rfl := mem_singleton.mp hq
    rw [hnow, htodo]
    exact hr.current p hmem
  · obtain rfl := mem_singleton.mp hq
    rw [hnow, htodo]
    exact hr.ready p hmem
  · rcases hr.complete n tick htick r hdue with h | h | ⟨hn, q, hq, hrq⟩
    · exact .inl h
    · exact .inr (.inl h)
    · rw [hp, mem_singleton] at hq
      refine .inr (.inr ⟨hn, p', mem_singleton_self _, ?_⟩)
      rw [htodo, ← hq]
      exact hrq
  · obtain rfl := mem_singleton.mp hq
    rw [htodo]
    exact hr.fresh p hmem
  · rcases hfired id job hrow hσ with h | h
    · exact .inl h
    · exact .inr ⟨p', mem_singleton_self _, h⟩

variable {rest : List (ScheduleRecord V)} {r : ScheduleRecord V} {nextRunAt : Time} {k : ℕ}

variable (hs : OneActive σ s)

include hs

lemma decides (hk : s.passes[k]? = some ⟨now, r :: rest, .deciding⟩) :
    Recorded σ { s with
      passes := s.passes.set k ⟨now, r :: rest, s.decision now r nextRunAt⟩ } g := by
  obtain ⟨rfl, hp⟩ := hs.passes_eq hk
  rw [hp, set_cons_zero]
  refine hr.restage ⟨now, r :: rest, s.decision now r nextRunAt⟩ hp rfl rfl
    fun id job hrow hσ => .inl ?_
  rcases hr.fired id job hrow hσ with h | ⟨p, hp', howner⟩
  · exact h
  · rw [hp, mem_singleton] at hp'
    rw [hp'] at howner
    cases howner

lemma inserts {t : JobsTable V}
    (hk : s.passes[k]? = some ⟨tickAt, r :: rest, .inserting nextRunAt⟩)
    (hrow : ∀ k, t.row k =
      if id = k then some ((r.toJob tickAt).toRow id now) else s.jobs.table.row k) :
    Recorded σ { s with
      jobs := { s.jobs with table := t }
      passes := s.passes.set k ⟨tickAt, r :: rest, .advancing nextRunAt (some id)⟩ } g := by
  obtain ⟨rfl, hp⟩ := hs.passes_eq hk
  rw [hp, set_cons_zero]
  refine hr.restage ⟨tickAt, r :: rest, .advancing nextRunAt (some id)⟩ hp rfl rfl
    fun id' job hjob hσ => ?_
  rw [hrow] at hjob
  split_ifs at hjob with h
  · cases hjob
    have hid : r.id = σ := some.inj hσ
    exact .inr (by simp [Pass.owner, hid, h])
  · rcases hr.fired id' job hjob hσ with h | ⟨p, hp', howner⟩
    · exact .inl h
    · rw [hp, mem_singleton] at hp'
      rw [hp'] at howner
      simp [Pass.owner] at howner

lemma aborts (hk : s.passes[k]? = some p) (hp : ¬ p.Recording σ) :
    Recorded σ { s with passes := s.passes.eraseIdx k }
      { g with aborted := g.aborted ++ [g.ticks.length - 1] } := by
  obtain ⟨rfl, hpasses⟩ := hs.passes_eq hk
  have hnil : s.passes.eraseIdx 0 = [] := by rw [hpasses]; rfl
  rw [hnil]
  refine { hr with
      current := by simp
      ready := by simp
      complete := fun n tick htick r hdue => ?_
      fresh := by simp
      fired := fun id job hrow hσ => ?_ }
  · rcases hr.complete n tick htick r hdue with h | h | ⟨hn, -⟩
    · exact .inl h
    · exact .inr (.inl (mem_append_left _ h))
    · have hlast : n = g.ticks.length - 1 := by omega
      exact .inr (.inl (mem_append_right _ (mem_singleton.mpr hlast)))
  · rcases hr.fired id job hrow hσ with h | ⟨q, hq, howner⟩
    · exact .inl h
    · rw [hpasses, mem_singleton] at hq
      rw [hq] at howner
      exact absurd (by rw [Pass.Recording, howner]; rfl) hp

section

variable (hpasses : ∀ p ∈ s.passes, p.Computed)
  (hk : s.passes[k]? = some ⟨tickAt, r :: rest, .advancing nextRunAt jobId⟩)
  (hrow : ∀ i, t.row i = (s.schedules.row i).map
    (advanceSchedule r.id nextRunAt (jobId.map (tickAt, ·)) now).effect)

include hpasses hk hrow

/-- The table has the row of the schedule, and its time is the one that was computed. -/
lemma exact_advance (hid : r.id = σ) : ∃ tick spec nextRunAt,
    g.ticks[g.ticks.length - 1]? = some tick ∧ r ∈ tick.due ∧ parseCron r.spec = .ok spec ∧
      spec.IsNext tick.now nextRunAt ∧ (t.row r.id).map (·.nextRunAt) = some nextRunAt := by
  have hmem := mem_of_getElem? hk
  obtain ⟨n, tick, hlength, htick, hnow, hdue⟩ := hr.current _ hmem
  obtain ⟨spec, hspec, hnext⟩ := (hpasses _ hmem).head rfl
  obtain ⟨-, q, hq, -⟩ := hs.read _ hmem r (by simp) hid
  have hf : (advanceSchedule r.id nextRunAt (jobId.map (tickAt, ·)) now).filter q :=
    decide_eq_true ((Table.key_of_row hq).trans hid.symm)
  refine ⟨tick, spec, nextRunAt, by simpa [hlength] using htick, hdue r (by simp), hspec, ?_, ?_⟩
  · rw [hnow]
    exact hnext
  · rw [hrow, hid, hq, map_some, ← hid, Update.effect_of_filter hf, map_some,
      (advanceSchedule_set ..).2.2.1]

omit hs in
/-- The schedule is then ahead of this advance and of those before it. -/
lemma ahead_advance {q : ScheduleRecord V} (hq : t.row σ = some q) :
    (∀ e ∈ g.advances, e.read.id = σ → e.read.nextRunAt < q.nextRunAt) ∧
      (r.id = σ → r.nextRunAt < q.nextRunAt) := by
  have hmem := mem_of_getElem? hk
  rw [hrow] at hq
  obtain ⟨q', hq', ⟨hne, rfl⟩ | ⟨hσ, rfl⟩⟩ := advance_row hq
  · exact ⟨hr.ahead _ hq', fun hid => absurd hid.symm hne⟩
  · obtain ⟨n, tick, -, htick, hnow, hdue⟩ := hr.current _ hmem
    obtain ⟨spec, -, hnext⟩ := (hpasses _ hmem).head rfl
    have hlt : r.nextRunAt < nextRunAt := by
      refine lt_of_le_of_lt ?_ hnext.after_lt
      have h := hr.timely tick (mem_of_getElem? htick) r (hdue r (by simp))
      rwa [hnow] at h
    rw [(advanceSchedule_set ..).2.2.1]
    exact ⟨fun e he hid => ((hr.fresh _ hmem r (by simp) hσ.symm e he hid).2).trans hlt,
      fun _ => hlt⟩

/-- The pass advances a schedule, and the history records it. -/
lemma advances :
    Recorded σ { s with schedules := t, passes := s.handled k tickAt rest }
      { g with advances := g.advances ++
        [⟨g.ticks.length - 1, r, (t.row r.id).map (·.nextRunAt), jobId⟩] } := by
  have hmem := mem_of_getElem? hk
  have hp := (hs.passes_eq hk).2
  obtain ⟨n, tick, hlength, htick, hnow, hdue⟩ := hr.current _ hmem
  refine
    { current := fun p hp' => ?_
      ready := fun p hp' r' hr' => ?_
      timely := hr.timely
      exact := fun e he hid => ?_
      complete := fun m tick' htick' r' hdue' => ?_
      ordered := ?_
      fresh := fun p hp' r' hr' hid e he hide => ?_
      ahead := fun q hq e he hid => ?_
      fired := fun id job hjob hσ => ?_ }
  · obtain ⟨htodo, hnow'⟩ := hs.of_mem_handled hk hp'
    refine ⟨n, tick, hlength, htick, hnow.trans hnow'.symm, fun r' hr' => hdue r' ?_⟩
    rw [htodo] at hr'
    exact mem_cons_of_mem _ hr'
  · obtain ⟨htodo, hnow'⟩ := hs.of_mem_handled hk hp'
    rw [htodo] at hr'
    rw [hnow']
    exact hr.ready _ hmem r' (mem_cons_of_mem _ hr')
  · rcases mem_append.mp he with he | he
    · exact hr.exact e he hid
    · obtain rfl := mem_singleton.mp he
      exact hr.exact_advance hs hpasses hk hrow hid
  · rcases hr.complete m tick' htick' r' hdue' with ⟨e, he, h⟩ | h | ⟨hm, p, hp', hr'⟩
    · exact .inl ⟨e, mem_append_left _ he, h⟩
    · exact .inr (.inl h)
    · rw [hp, mem_singleton] at hp'
      rw [hp', mem_cons] at hr'
      rcases hr' with rfl | hr'
      · -- This is the schedule that is advanced.
        exact .inl ⟨_, mem_append_right _ (mem_singleton_self _), by simp; omega, rfl⟩
      · refine .inr (.inr ⟨hm, ?_⟩)
        rcases hs.handled_eq hk tickAt rest with ⟨hrest, -⟩ | h
        · rw [hrest] at hr'
          cases hr'
        · exact ⟨_, by rw [h]; exact mem_singleton_self _, hr'⟩
  · rw [filter_append, pairwise_append]
    refine ⟨hr.ordered, List.Pairwise.filter _ (pairwise_singleton _ _), ?_⟩
    intro a ha b hb
    obtain ⟨ha, hσa⟩ := mem_filter.mp ha
    obtain ⟨hb, hσb⟩ := mem_filter.mp hb
    obtain rfl := mem_singleton.mp hb
    obtain ⟨hlt, hocc⟩ := hr.fresh _ hmem r (by simp) (of_decide_eq_true hσb) a ha
      (of_decide_eq_true hσa)
    exact ⟨by simp; omega, hocc⟩
  · obtain ⟨htodo, -⟩ := hs.of_mem_handled hk hp'
    rw [htodo] at hr'
    rcases mem_append.mp he with he | he
    · exact hr.fresh _ hmem r' (mem_cons_of_mem _ hr') hid e he hide
    · -- The schedules that are left are others.
      obtain rfl := mem_singleton.mp he
      have hnodup := hs.nodup _ hmem
      rw [map_cons, nodup_cons] at hnodup
      have hsame : r'.id = r.id := hid.trans (show r.id = σ from hide).symm
      exact absurd (hsame ▸ mem_map_of_mem hr') hnodup.1
  · obtain ⟨hbefore, hnew⟩ := hr.ahead_advance hpasses hk hrow hq
    rcases mem_append.mp he with he | he
    · exact hbefore e he hid
    · obtain rfl := mem_singleton.mp he
      exact hnew hid
  · rcases hr.fired id job hjob hσ with ⟨e, he, h⟩ | ⟨p, hp', howner⟩
    · exact .inl ⟨e, mem_append_left _ he, h⟩
    · -- The pass had the job on record, and now the history has it.
      rw [hp, mem_singleton] at hp'
      rw [hp'] at howner
      refine .inl ⟨_, mem_append_right _ (mem_singleton_self _), ?_⟩
      cases jobId with
      | none => cases howner
      | some fired =>
        simp only [Pass.owner, ite_none_right_eq_some, some.injEq] at howner
        exact ⟨howner.1, congrArg some howner.2⟩

end

end Recorded

lemma OpStep.recorded {t : Agenda V} {a : Op V} (h : OpStep s a t) (hok : Steady σ (s, g) a)
    (hs : OneActive σ s) (hpasses : ∀ p ∈ s.passes, p.Computed)
    (hparsed : ∀ id r, s.schedules.row id = some r → ∃ spec, parseCron r.spec = .ok spec)
    (hr : Recorded σ s g) : Recorded σ t (note g s a t) := by
  have hready : ∀ now, Steady σ (s, g) (.due now) → ∀ r ∈ dueSchedules now s.schedules,
      ∃ spec nextRunAt, parseCron r.spec = .ok spec ∧ nextOccurrence spec now = some nextRunAt := by
    intro now hdue r hmem
    obtain ⟨spec, hspec⟩ := hparsed r.id r (mem_dueSchedules.mp hmem).1
    obtain ⟨next, hnext⟩ := isSome_iff_exists.mp ((hdue.2 r hmem).2 spec (by rw [hspec]; rfl))
    exact ⟨spec, next, hspec, hnext⟩
  cases h with
  | throws => exact hr
  | works hpush hjobs => exact hr.works hpush hjobs
  | schedules hcalled hu hrow =>
    obtain ⟨hname, -, spec, -, hnext⟩ := scheduleRequest_spec hcalled hu
    exact hr.schedules hrow fun hid => ⟨hnext.after_lt, (hok (hname.symm.trans hid)).2.1⟩
  | unschedules => exact hr.unschedules _
  | idles hdue => exact hr.ticks hok.1 (.inl ⟨hok.1, hdue⟩) (hready _ hok)
  | reads hnow hdue => exact hr.ticks hok.1 (.inr (by rw [hok.1]; rfl)) (hready _ hok)
  | decides hk hspec hnext => exact hr.decides hs hk
  | fails hk hnone =>
    -- The pass had found that it can do what it has to do.
    obtain ⟨spec, next, hspec, hnext⟩ := hr.ready _ (mem_of_getElem? hk) _ mem_cons_self
    exact absurd (hnext.symm.trans (hnone spec hspec)) (by simp)
  | inserts hk hnew hrow => exact hr.inserts hs hk hrow
  | refuses hk hold => exact absurd hok hold
  | advances hk hrow =>
    simp only [note, hk]
    exact hr.advances hs hpasses hk hrow
  | aborts =>
    rename_i k
    cases hk : s.passes[k]? with
    | some p =>
      have hlt := (List.getElem?_eq_some_iff.mp hk).1
      simp only [note, if_pos hlt]
      exact hr.aborts hs hk (hok p hk)
    | none =>
      have hle := List.getElem?_eq_none_iff.mp hk
      simp only [note, if_neg (not_lt.mpr hle), eraseIdx_of_length_le hle]
      exact hr

lemma run_recorded {x : Agenda V × History V}
    (h : Run stepNoting (Steady σ) (.empty, .none) x) : OneActive σ x.1 ∧ Recorded σ x.1 x.2 := by
  have hinv := h.invariant (I := fun x : Agenda V × History V => OneActive σ x.1 ∧
    Recorded σ x.1 x.2 ∧ (∀ p ∈ x.1.passes, p.Computed) ∧
      ∀ id r, x.1.schedules.row id = some r → ∃ spec, parseCron r.spec = .ok spec) ?_ ?_
  · exact ⟨hinv.1, hinv.2.1⟩
  · rintro ⟨s, g⟩ a ⟨t, g'⟩ ⟨hs, hr, hpasses, hparsed⟩ hok hstep
    obtain ⟨hstep, hnote⟩ := watch_eq_some.mp hstep
    have hstep := OpStep.of_step hstep
    obtain rfl : g' = note g s a t := hnote
    exact ⟨hstep.oneActive hok hs, hstep.recorded hok hs hpasses hparsed hr,
      hstep.computed hpasses, hstep.parsed hparsed⟩
  · refine ⟨⟨by simp [empty], by simp [empty], by simp [empty],
      by simp [empty], by simp [empty, Sys.empty]⟩, ?_, by simp [empty],
      by simp [empty]⟩
    constructor <;> simp [empty, Sys.empty, History.none]

/-- In steady runs: at most one job of the schedule is active; each tick that found the schedule due
has advanced it to the first occurrence after the tick, unless its process was gone before, or is
still at it; the advances belong to later and later ticks and occurrences, so there is at most one
for each; and every job of the schedule is that of one of them, or of the pass under way. -/
theorem fires_once {x : Agenda V × History V} (h : Run stepNoting (Steady σ) (.empty, .none) x) :
    (∀ id id' job job', x.1.jobs.table.row id = some job → x.1.jobs.table.row id' = some job' →
        job.scheduleId = some σ → job'.scheduleId = some σ → job.status.Active →
        job'.status.Active → id = id') ∧
      (∀ n tick, x.2.ticks[n]? = some tick → ∀ r ∈ tick.due, r.id = σ →
        (∃ e ∈ x.2.advances, e.tick = n ∧ e.read = r ∧ ∃ spec nextRunAt,
          parseCron r.spec = .ok spec ∧ spec.IsNext tick.now nextRunAt ∧
            e.stored = some nextRunAt) ∨
        n ∈ x.2.aborted ∨ n + 1 = x.2.ticks.length ∧ ∃ p ∈ x.1.passes, r ∈ p.todo) ∧
      ((x.2.advances.filter (·.of σ)).Pairwise fun a b =>
        a.tick < b.tick ∧ a.read.nextRunAt < b.read.nextRunAt) ∧
      ∀ id job, x.1.jobs.table.row id = some job → job.scheduleId = some σ →
        (∃ e ∈ x.2.advances, e.read.id = σ ∧ e.fired = some id) ∨
          ∃ p ∈ x.1.passes, p.owner σ = some (some id) := by
  obtain ⟨hs, hr⟩ := run_recorded h
  refine ⟨?_, ?_, hr.ordered, hr.fired⟩
  · intro id id' job job' hjob hjob' hσ hσ' hactive hactive'
    have howner := hs.active id job hjob hσ hactive
    have howner' := hs.active id' job' hjob' hσ' hactive'
    exact some.inj (howner.symm.trans howner')
  · intro n tick htick r hdue hid
    rcases hr.complete n tick htick r hdue with ⟨e, he, htickn, rfl⟩ | h | h
    · obtain ⟨tick', spec, next, htick', -, hspec, hnext, hstored⟩ := hr.exact e he hid
      rw [htickn, htick] at htick'
      obtain rfl := some.inj htick'
      exact .inl ⟨e, he, htickn, rfl, spec, next, hspec, hnext, hstored⟩
    · exact .inr (.inl h)
    · exact .inr (.inr h)

/-! ## Two active jobs -/

instance (σ : String) (s : Sys V) (a : Action V) : Decidable (KeepsFinished σ s a) := by
  induction a using Action.casesOn <;> unfold KeepsFinished <;> infer_instance

instance (σ : String) (p : Pass V) : Decidable (p.Recording σ) :=
  inferInstanceAs (Decidable (_ = true))

instance (now : Time) (text : String) : Decidable (ExactAt now text) :=
  inferInstanceAs (Decidable (_ ∧ _))

instance (σ : String) (x : Agenda V × History V) (a : Op V) : Decidable (Steady σ x a) := by
  induction a using Op.casesOn <;> unfold Steady <;> infer_instance

/-- After the first firing the job is claimed and begun. -/
def runningFirst : List (Op ℕ) :=
  firstFiring ++ firingDone ++
    [.job (.claimReady "a" 1000 1 60004 none), .job (.markRunning 0 60005)]

def nextFiring : List (Op ℕ) := [.due 120000, .decide 0, .insert 0 "k" 120001, .advance 0 120002]

/-- The statuses of the jobs `j` and `k`, the number of active jobs of the schedule, and the number
of its advances. -/
def outcome (x : Agenda ℕ × History ℕ) : Option JobStatus × Option JobStatus × ℕ × ℕ :=
  (x.1.jobs.statusOf "j", x.1.jobs.statusOf "k",
    x.1.jobs.table.rows.countP fun r => decide (r.scheduleId = some "s" ∧ r.status.Active),
    (x.2.advances.filter (·.of "s")).length)

/-- The first job succeeds before the second firing: of the two jobs one is active. -/
theorem second_firing_alone :
    ∃ x : Agenda ℕ × History ℕ, Run stepNoting (Steady "s") (.empty, .none) x ∧
      outcome x = (some .done, some .pending, 1, 2) ∧
      ((x.2.advances.filter (·.of "s")).Pairwise fun a b =>
        a.tick < b.tick ∧ a.read.nextRunAt < b.read.nextRunAt) := by
  have hx : (exec (restrict stepNoting (Steady "s")) (.empty, .none) (runningFirst ++
      [.job (.finish 0 60006 0 (.ok none))] ++ nextFiring)).bind (fun x => some (outcome x)) =
      some (some .done, some .pending, 1, 2) := by decide +kernel
  obtain ⟨x, -, hrun, hx⟩ := Run.exists_of_exec hx
  exact ⟨x, hrun, some.inj hx, (fires_once hrun).2.2.1⟩

/-- The first job is cancelled while it runs, the schedule is fired again, and `markRetry` makes the
first job pending: both are active. -/
theorem cancelled_job_overlaps :
    (exec stepNoting (.empty, .none) (runningFirst ++ [.job (.cancel "j" 60006)] ++ nextFiring ++
      [.job (.finish 0 120003 0 (.failed ⟨"no", none⟩ true))])).map outcome =
      some (some .pending, some .pending, 2, 2) := by
  decide +kernel

end Fino.Jobs
