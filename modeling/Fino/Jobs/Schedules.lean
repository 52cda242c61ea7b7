import Fino.Jobs.CronText
import Fino.Jobs.Dedupe

/-!
# Schedules, and the ticks that fire them

The `schedules` table of `js/internal/jobs/store.ts`, with `schedule`, `unschedule` and
`#fireDueSchedules`. A tick reads the due schedules and handles them one by one; other operations
come in between, so a pass is kept with the records that it read and its stage. A tick writes the
occurrence of the specification that it read, which is wrong if the schedule was replaced meanwhile
(`replaced_schedule_overwritten`); otherwise the stored time is an occurrence of the stored
specification (`stored_occurs`).
-/

namespace Fino.Jobs

open Lib List Option Table
open Workflow (Time)

variable {V : Type}

/-! ## The table -/

inductive Overlap
  | skip
  | allow
deriving DecidableEq

inductive Catchup
  | skip
  | one
deriving DecidableEq

structure ScheduleRecord (V : Type) where
  id : String
  task : String
  input : Option V
  queue : String
  spec : String
  enabled : Bool
  overlap : Overlap
  catchup : Catchup
  retry : Option JobRetryPolicy
  nextRunAt : Time
  lastRunAt : Option Time
  lastJobId : Option String
  createdAt : Time
  updatedAt : Time

/-- The table has no unique index beside its primary key. -/
def ScheduleRecord.Clash (_ _ : ScheduleRecord V) : Prop := False

instance : DecidableRel (ScheduleRecord.Clash (V := V)) := fun _ _ => .isFalse id

instance : Std.Symm (ScheduleRecord.Clash (V := V)) := ⟨fun _ _ h => h⟩

/-- The `schedules` table. -/
abbrev SchedulesTable (V : Type) := Table (ScheduleRecord V) ScheduleRecord.id ScheduleRecord.Clash

/-- An update of the `schedules` table. -/
abbrev SchedulesUpdate (V : Type) := Update (ScheduleRecord.id (V := V))

lemma SchedulesTable.update_isSome (t : SchedulesTable V) (u : SchedulesUpdate V) :
    (t.update u).isSome := by
  rw [update_isSome_iff]
  rintro ⟨_, _, _, _, _, hclash⟩
  exact hclash

/-- What the caller of `upsertSchedule` supplies. -/
structure UpsertSchedule (V : Type) where
  id : String
  task : String
  input : Option V
  queue : String
  spec : String
  overlap : Overlap
  catchup : Catchup
  retry : Option JobRetryPolicy
  nextRunAt : Time

variable (u : UpsertSchedule V) (now : Time)

def UpsertSchedule.toRow : ScheduleRecord V where
  id := u.id
  task := u.task
  input := u.input
  queue := u.queue
  spec := u.spec
  enabled := true
  overlap := u.overlap
  catchup := u.catchup
  retry := u.retry
  nextRunAt := u.nextRunAt
  lastRunAt := none
  lastJobId := none
  createdAt := now
  updatedAt := now

/-- The update of a schedule that is there. It keeps the record of the last firing. -/
def UpsertSchedule.replace : SchedulesUpdate V where
  filter r := decide (r.id = u.id)
  set r := { r with
    task := u.task
    input := u.input
    queue := u.queue
    spec := u.spec
    enabled := true
    overlap := u.overlap
    catchup := u.catchup
    retry := u.retry
    nextRunAt := u.nextRunAt
    updatedAt := now }

variable (t : SchedulesTable V)

def upsertSchedule : Option (SchedulesTable V) :=
  match t.row u.id with
  | none => t.insert (u.toRow now)
  | some _ => t.update (u.replace now)

variable (id : String)

def deleteSchedule (t : SchedulesTable V) : SchedulesTable V :=
  t.delete fun r => decide (r.id = id)

def dueSchedules : List (ScheduleRecord V) :=
  (t.rows.filter fun r => r.enabled && decide (r.nextRunAt ≤ now)).insertionSort
    fun a b => a.nextRunAt ≤ b.nextRunAt

/-- `advanceSchedule`; `firing` is the time and the job of a firing, if there was one. -/
def advanceSchedule (nextRunAt : Time) (firing : Option (Time × String))
    (now : Time) : SchedulesUpdate V where
  filter r := decide (r.id = id)
  set r :=
    match firing with
    | some (lastRunAt, lastJobId) => { r with
        nextRunAt := nextRunAt
        lastRunAt := some lastRunAt
        lastJobId := some lastJobId
        updatedAt := now }
    | none => { r with nextRunAt := nextRunAt, updatedAt := now }
  key_eq r := by cases firing <;> rfl

lemma upsertSchedule_spec :
    ∃ t', upsertSchedule u now t = some t' ∧ ∀ k, t'.row k =
      if u.id = k then some ((t.row k).elim (u.toRow now) (u.replace now).set) else t.row k := by
  unfold upsertSchedule
  cases hrow : t.row u.id with
  | none =>
    obtain ⟨t', ht'⟩ := isSome_iff_exists.mp (insert_isSome (r := u.toRow now) hrow fun _ _ h => h)
    refine ⟨t', ht', fun k => ?_⟩
    rw [row_insert ht']
    show (if u.id = k then _ else _) = _
    split_ifs with hk
    · rw [← hk, hrow, elim_none]
    · rfl
  | some r =>
    obtain ⟨t', ht'⟩ := isSome_iff_exists.mp (t.update_isSome (u.replace now))
    refine ⟨t', ht', fun k => ?_⟩
    rw [row_update ht']
    split_ifs with hk
    · rw [← hk, hrow, elim_some, map_some, Update.effect_of_filter]
      exact decide_eq_true (key_of_row hrow)
    · cases hq : t.row k with
      | none => rfl
      | some q =>
        rw [map_some, Update.effect_of_not_filter]
        exact decide_eq_false fun h => hk (h.symm.trans (key_of_row hq))

variable {r : ScheduleRecord V} {now : Time}

lemma mem_dueSchedules {t : SchedulesTable V} :
    r ∈ dueSchedules now t ↔ t.row r.id = some r ∧ r.enabled ∧ r.nextRunAt ≤ now := by
  unfold dueSchedules
  rw [(perm_insertionSort _ _).mem_iff, mem_filter, row_eq_some]
  simp

lemma dueSchedules_nodup (now : Time) (t : SchedulesTable V) :
    ((dueSchedules now t).map (·.id)).Nodup := by
  unfold dueSchedules
  rw [((perm_insertionSort _ _).map ScheduleRecord.id).nodup_iff]
  exact t.keys_nodup.sublist (filter_sublist.map ScheduleRecord.id)

/-- `Partial<JobRetryPolicy>`. -/
structure PartialRetryPolicy where
  maxAttempts : Option ℤ := none
  baseMs : Option Time := none
  factor : Option ℚ := none
  maxMs : Option Time := none
  jitter : Option Bool := none

def defaultRetry : JobRetryPolicy := ⟨3, 1000, 2, 60000, true⟩

def retryPolicy (p : PartialRetryPolicy) : JobRetryPolicy where
  maxAttempts := p.maxAttempts.getD defaultRetry.maxAttempts
  baseMs := p.baseMs.getD defaultRetry.baseMs
  factor := p.factor.getD defaultRetry.factor
  maxMs := p.maxMs.getD defaultRetry.maxMs
  jitter := p.jitter.getD defaultRetry.jitter

structure ScheduleOptions (V : Type) where
  cron : Option String := none
  every : Option String := none
  queue : Option String := none
  input : Option V := none
  overlap : Option Overlap := none
  catchup : Option Catchup := none
  retry : Option PartialRetryPolicy := none

/-- The text of the specification that the options have. -/
def ScheduleOptions.specText (opts : ScheduleOptions V) : Option String :=
  opts.cron <|> opts.every.map ("every:" ++ ·)

/-- What `schedule` asks the store to write, from a call at `calledAt`, or the message of what it
throws. -/
def scheduleRequest (name task : String) (input : Option V) (opts : ScheduleOptions V)
    (calledAt : Time) : Except String (UpsertSchedule V) :=
  match opts.specText with
  | none => .error "schedule requires either cron or every"
  | some specText =>
    match parseCron specText with
    | .error message => .error message
    | .ok spec =>
      match nextOccurrence spec calledAt with
      | none => .error "cron expression has no occurrence within five years"
      | some nextRunAt => .ok
        { id := name
          task := task
          input := input <|> opts.input
          queue := opts.queue.getD "default"
          spec := specText
          overlap := opts.overlap.getD .skip
          catchup := opts.catchup.getD .skip
          retry := opts.retry.map retryPolicy
          nextRunAt := nextRunAt }

def ScheduleRecord.toJob (r : ScheduleRecord V) (now : Time) : InsertJob V :=
  let retry := r.retry.getD defaultRetry
  { queue := r.queue
    task := r.task
    input := r.input
    runAt := now
    priority := none
    maxAttempts := some retry.maxAttempts
    backoff := some retry
    timeoutMs := none
    dedupeKey := none
    scheduleId := some r.id }

/-! ## Ticks -/

/-- A pass is about to decide, to insert a job, or to advance the schedule. -/
inductive Stage
  | deciding
  | inserting (nextRunAt : Time)
  | advancing (nextRunAt : Time) (jobId : Option String)

/-- A call of `#fireDueSchedules`: its time, the due schedules that are left, and the stage. -/
structure Pass (V : Type) where
  now : Time
  todo : List (ScheduleRecord V)
  stage : Stage

/-- The jobs, the schedules, and the passes under way. -/
structure Agenda (V : Type) where
  jobs : Sys V
  schedules : SchedulesTable V
  passes : List (Pass V)

def Agenda.empty : Agenda V := ⟨.empty, .empty, []⟩

/-- One operation of the store, or the end of a tick's process. Passes are named by their
position. -/
inductive Op (V : Type)
  /-- An operation on jobs that is not one of a firing. -/
  | job (a : Action V)
  | schedule (name task : String) (input : Option V) (opts : ScheduleOptions V)
      (calledAt now : Time)
  | unschedule (name : String)
  /-- A tick reads the due schedules. -/
  | due (now : Time)
  /-- A pass decides whether to fire; it reads the job of the last firing if it has to. -/
  | decide (pass : ℕ)
  | insert (pass : ℕ) (id : String) (now : Time)
  | advance (pass : ℕ) (now : Time)
  /-- The process of a pass is gone. -/
  | abort (pass : ℕ)

/-- A job that is pushed is of no schedule: `push` does not set one. -/
def Action.pushed : Action V → Bool
  | .insertJob _ _ job => job.scheduleId.isNone
  | _ => true

/-- The decision of a pass about a schedule: what it goes on to do. -/
def Agenda.decision (s : Agenda V) (now : Time) (r : ScheduleRecord V) (nextRunAt : Time) : Stage :=
  if r.catchup = .skip ∧ 60000 < now - r.nextRunAt then .advancing nextRunAt none
  else if r.overlap = .skip ∧
      r.lastJobId.any (fun id => (s.jobs.table.row id).any fun job => job.status.Active) then
    .advancing nextRunAt none
  else .inserting nextRunAt

/-- The passes when one of them has handled a schedule: it goes on with the rest, if there is
any. -/
def Agenda.handled (s : Agenda V) (k : ℕ) (now : Time) (rest : List (ScheduleRecord V)) :
    List (Pass V) :=
  if rest.isEmpty then s.passes.eraseIdx k else s.passes.set k ⟨now, rest, .deciding⟩

/-- The state that an operation leads to, or `none` if there is no pass that makes it. A pass that
throws is over. -/
def Agenda.step (s : Agenda V) : Op V → Option (Agenda V)
  | .job a =>
    if a.pushed then (Jobs.step s.jobs a).map fun jobs => { s with jobs := jobs } else none
  | .schedule name task input opts calledAt now =>
    -- The clock does not read a time before 1970.
    if calledAt < 0 then none
    else
      match scheduleRequest name task input opts calledAt with
      | .error _ => some s
      | .ok u => (upsertSchedule u now s.schedules).map fun t => { s with schedules := t }
  | .unschedule name => some { s with schedules := deleteSchedule name s.schedules }
  | .due now =>
    if now < 0 then none
    else if (dueSchedules now s.schedules).isEmpty then some s
    else some { s with passes := s.passes ++ [⟨now, dueSchedules now s.schedules, .deciding⟩] }
  | .decide k =>
    match s.passes[k]? with
    | some ⟨now, r :: rest, .deciding⟩ =>
      match (parseCron r.spec).toOption.bind fun spec => nextOccurrence spec now with
      | some nextRunAt => some { s with
          passes := s.passes.set k ⟨now, r :: rest, s.decision now r nextRunAt⟩ }
      | none => some { s with passes := s.passes.eraseIdx k }
    | _ => none
  | .insert k id now =>
    match s.passes[k]? with
    | some ⟨tickAt, r :: rest, .inserting nextRunAt⟩ =>
      match insertJob id now (r.toJob tickAt) s.jobs.table with
      | some (t, job, _) => some { s with
          jobs := { s.jobs with table := t }
          passes := s.passes.set k ⟨tickAt, r :: rest, .advancing nextRunAt (some job.id)⟩ }
      | none => some { s with passes := s.passes.eraseIdx k }
    | _ => none
  | .advance k now =>
    match s.passes[k]? with
    | some ⟨tickAt, r :: rest, .advancing nextRunAt jobId⟩ =>
      (s.schedules.update (advanceSchedule r.id nextRunAt (jobId.map (tickAt, ·)) now)).map fun t =>
        { s with schedules := t, passes := s.handled k tickAt rest }
    | _ => none
  | .abort k => some { s with passes := s.passes.eraseIdx k }

/-! ## What a step can do -/

/-- The insertion of a job of a schedule: it has no dedupe key, so it goes through if its id is
new. -/
lemma insertJob_toJob (r : ScheduleRecord V) (tickAt : Time) (id : String) (now : Time)
    (t : JobsTable V) :
    (∃ t', insertJob id now (r.toJob tickAt) t = some (t', (r.toJob tickAt).toRow id now, false) ∧
        t.row id = none ∧
        ∀ k, t'.row k = if id = k then some ((r.toJob tickAt).toRow id now) else t.row k) ∨
      insertJob id now (r.toJob tickAt) t = none ∧ t.row id ≠ none := by
  have hfree : ∀ q ∈ t.rows, ¬ (r.toJob tickAt).TakenBy q := fun _ _ h =>
    absurd h.1 (by simp [ScheduleRecord.toJob])
  cases hrow : t.row id with
  | none =>
    obtain ⟨t', ht', hrows⟩ := insertJob_of_free hrow hfree now
    refine .inl ⟨t', ht', rfl, ?_⟩
    exact row_insert (commit_eq_some.mpr hrows)
  | some q =>
    refine .inr ⟨?_, by simp⟩
    rw [eq_none_iff_forall_ne_some]
    rintro ⟨t', job, deduped⟩ h
    have hany : (t.rows.any fun q => decide (q.SameSlot ((r.toJob tickAt).toRow id now))) =
        false := by
      rw [List.any_eq_false]
      intro q hq
      rw [decide_eq_true_eq, sameSlot_toRow_iff]
      exact hfree q hq
    simp only [insertJob, hany, Bool.false_eq_true, if_false, map_eq_some_iff] at h
    obtain ⟨t₁, ht₁, -⟩ := h
    exact absurd (hrow.symm.trans (row_of_insert ht₁)) (by simp)

/-- What an operation on schedules and jobs can do. -/
inductive OpStep (s : Agenda V) : Op V → Agenda V → Prop
  | throws {name task : String} {input : Option V} {opts : ScheduleOptions V}
      {calledAt now : Time} : OpStep s (.schedule name task input opts calledAt now) s
  | idles {now : Time} (hdue : dueSchedules now s.schedules = []) : OpStep s (.due now) s
  | works {a : Action V} {jobs : Sys V} (hpush : a.pushed = true)
      (hjobs : step s.jobs a = some jobs) : OpStep s (.job a) { s with jobs := jobs }
  | schedules {name task : String} {input : Option V} {opts : ScheduleOptions V}
      {calledAt now : Time} {u : UpsertSchedule V} {t : SchedulesTable V} (hcalled : 0 ≤ calledAt)
      (hu : scheduleRequest name task input opts calledAt = .ok u)
      (hrow : ∀ k, t.row k = if u.id = k then
        some ((s.schedules.row k).elim (u.toRow now) (u.replace now).set) else s.schedules.row k) :
      OpStep s (.schedule name task input opts calledAt now) { s with schedules := t }
  | unschedules {name : String} :
      OpStep s (.unschedule name) { s with schedules := deleteSchedule name s.schedules }
  | reads {now : Time} (hnow : 0 ≤ now) (hdue : dueSchedules now s.schedules ≠ []) :
      OpStep s (.due now)
        { s with passes := s.passes ++ [⟨now, dueSchedules now s.schedules, .deciding⟩] }
  | decides {k : ℕ} {now nextRunAt : Time} {r : ScheduleRecord V} {rest : List (ScheduleRecord V)}
      {spec : ScheduleSpec} (hk : s.passes[k]? = some ⟨now, r :: rest, .deciding⟩)
      (hspec : parseCron r.spec = .ok spec) (hnext : nextOccurrence spec now = some nextRunAt) :
      OpStep s (.decide k)
        { s with passes := s.passes.set k ⟨now, r :: rest, s.decision now r nextRunAt⟩ }
  | fails {k : ℕ} {now : Time} {r : ScheduleRecord V} {rest : List (ScheduleRecord V)}
      (hk : s.passes[k]? = some ⟨now, r :: rest, .deciding⟩)
      (hnone : ∀ spec, parseCron r.spec = .ok spec → nextOccurrence spec now = none) :
      OpStep s (.decide k) { s with passes := s.passes.eraseIdx k }
  | inserts {k : ℕ} {id : String} {now tickAt nextRunAt : Time} {r : ScheduleRecord V}
      {rest : List (ScheduleRecord V)} {t : JobsTable V}
      (hk : s.passes[k]? = some ⟨tickAt, r :: rest, .inserting nextRunAt⟩)
      (hnew : s.jobs.table.row id = none)
      (hrow : ∀ k, t.row k =
        if id = k then some ((r.toJob tickAt).toRow id now) else s.jobs.table.row k) :
      OpStep s (.insert k id now)
        { s with
          jobs := { s.jobs with table := t }
          passes := s.passes.set k ⟨tickAt, r :: rest, .advancing nextRunAt (some id)⟩ }
  | refuses {k : ℕ} {id : String} {now tickAt nextRunAt : Time} {r : ScheduleRecord V}
      {rest : List (ScheduleRecord V)}
      (hk : s.passes[k]? = some ⟨tickAt, r :: rest, .inserting nextRunAt⟩)
      (hold : s.jobs.table.row id ≠ none) :
      OpStep s (.insert k id now) { s with passes := s.passes.eraseIdx k }
  | advances {k : ℕ} {now tickAt nextRunAt : Time} {jobId : Option String} {r : ScheduleRecord V}
      {rest : List (ScheduleRecord V)} {t : SchedulesTable V}
      (hk : s.passes[k]? = some ⟨tickAt, r :: rest, .advancing nextRunAt jobId⟩)
      (hrow : ∀ i, t.row i = (s.schedules.row i).map
        (advanceSchedule r.id nextRunAt (jobId.map (tickAt, ·)) now).effect) :
      OpStep s (.advance k now) { s with schedules := t, passes := s.handled k tickAt rest }
  | aborts {k : ℕ} : OpStep s (.abort k) { s with passes := s.passes.eraseIdx k }

variable {s t : Agenda V} {a : Op V}

/-- Every operation has one of these forms. -/
lemma OpStep.of_step (h : s.step a = some t) : OpStep s a t := by
  cases a with
  | job a =>
    simp only [Agenda.step] at h
    split_ifs at h with hpush
    obtain ⟨jobs, hjobs, rfl⟩ := map_eq_some_iff.mp h
    exact .works hpush hjobs
  | schedule name task input opts calledAt now =>
    simp only [Agenda.step] at h
    split_ifs at h with hcalled
    split at h
    · exact some.inj h ▸ .throws
    · rename_i u hu
      obtain ⟨t', ht', hrow⟩ := upsertSchedule_spec u now s.schedules
      rw [ht', map_some] at h
      exact some.inj h ▸ .schedules (not_lt.mp hcalled) hu hrow
  | unschedule name => exact some.inj h ▸ .unschedules
  | due now =>
    simp only [Agenda.step] at h
    split_ifs at h with hnow hempty
    · exact some.inj h ▸ .idles (isEmpty_iff.mp hempty)
    · exact some.inj h ▸ .reads (not_lt.mp hnow) fun h => hempty (isEmpty_iff.mpr h)
  | decide k =>
    simp only [Agenda.step] at h
    split at h
    · rename_i now r rest hk
      split at h
      · rename_i nextRunAt hnext
        obtain ⟨spec, hspec, hnext⟩ := bind_eq_some_iff.mp hnext
        have hspec : parseCron r.spec = .ok spec := by
          cases hparse : parseCron r.spec with
          | error message =>
            rw [hparse] at hspec
            cases hspec
          | ok spec' =>
            rw [hparse] at hspec
            exact congrArg Except.ok (some.inj hspec)
        exact some.inj h ▸ .decides hk hspec hnext
      · rename_i hnone
        refine some.inj h ▸ .fails hk fun spec hspec => ?_
        rw [hspec] at hnone
        exact hnone
    · cases h
  | insert k id now =>
    simp only [Agenda.step] at h
    split at h
    · rename_i tickAt r rest nextRunAt hk
      rcases insertJob_toJob r tickAt id now s.jobs.table with ⟨t', ht', hnew, hrow⟩ | ⟨hnone, hold⟩
      · rw [ht'] at h
        exact some.inj h ▸ .inserts hk hnew hrow
      · rw [hnone] at h
        exact some.inj h ▸ .refuses hk hold
    · cases h
  | advance k now =>
    simp only [Agenda.step] at h
    split at h
    · rename_i tickAt r rest nextRunAt jobId hk
      obtain ⟨t', ht', rfl⟩ := map_eq_some_iff.mp h
      exact .advances hk (row_update ht')
    · cases h
  | abort k => exact some.inj h ▸ .aborts

variable {rest : List (ScheduleRecord V)}

lemma Agenda.mem_handled {k : ℕ} {p : Pass V}
    (hp : p ∈ s.handled k now rest) : p ∈ s.passes ∨ p = ⟨now, rest, .deciding⟩ := by
  unfold handled at hp
  split_ifs at hp
  · exact .inl (mem_of_mem_eraseIdx hp)
  · exact mem_or_eq_of_mem_set hp

/-- The occurrence that a pass has computed for the schedule that it handles. -/
def Stage.nextRunAt : Stage → Option Time
  | .deciding => none
  | .inserting nextRunAt | .advancing nextRunAt _ => some nextRunAt

lemma Agenda.decision_nextRunAt (s : Agenda V) (now : Time) (r : ScheduleRecord V)
    (nextRunAt : Time) : (s.decision now r nextRunAt).nextRunAt = some nextRunAt := by
  unfold decision
  split_ifs <;> rfl

/-- The occurrence that a pass has computed is the next one of the specification that it has read,
after the time of its tick. -/
structure Pass.Computed (p : Pass V) : Prop where
  now_nonneg : 0 ≤ p.now
  isNext : ∀ nextRunAt, p.stage.nextRunAt = some nextRunAt → ∃ r rest spec, p.todo = r :: rest ∧
    parseCron r.spec = .ok spec ∧ spec.IsNext p.now nextRunAt

variable {nextRunAt : Time}

lemma Pass.Computed.head {stage : Stage} (h : Pass.Computed ⟨now, r :: rest, stage⟩)
    (hstage : stage.nextRunAt = some nextRunAt) :
    ∃ spec, parseCron r.spec = .ok spec ∧ spec.IsNext now nextRunAt := by
  obtain ⟨r', rest', spec, htodo, hspec, hnext⟩ := h.isNext nextRunAt hstage
  obtain ⟨rfl, -⟩ := List.cons.inj htodo
  exact ⟨spec, hspec, hnext⟩

lemma OpStep.computed (h : OpStep s a t) (hs : ∀ p ∈ s.passes, p.Computed) :
    ∀ p ∈ t.passes, p.Computed := by
  cases h with
  | throws | idles | works | schedules | unschedules => exact hs
  | reads hnow hdue =>
    intro p hp
    rcases mem_append.mp hp with hp | hp
    · exact hs p hp
    · obtain rfl := mem_singleton.mp hp
      exact ⟨hnow, fun _ h => absurd h (by simp [Stage.nextRunAt])⟩
  | decides hk hspec hnext =>
    intro p hp
    rcases mem_or_eq_of_mem_set hp with hp | rfl
    · exact hs p hp
    · have hnow := (hs _ (mem_of_getElem? hk)).now_nonneg
      refine ⟨hnow, fun next h => ?_⟩
      rw [Agenda.decision_nextRunAt, some.injEq] at h
      exact ⟨_, _, _, rfl, hspec, h ▸ nextOccurrence_isNext hnow hnext⟩
  | inserts hk hnew hrow =>
    intro p hp
    rcases mem_or_eq_of_mem_set hp with hp | rfl
    · exact hs p hp
    · have hold := hs _ (mem_of_getElem? hk)
      exact ⟨hold.now_nonneg, hold.isNext⟩
  | advances hk hrow =>
    intro p hp
    rcases Agenda.mem_handled hp with hp | rfl
    · exact hs p hp
    · exact ⟨(hs _ (mem_of_getElem? hk)).now_nonneg,
        fun _ h => absurd h (by simp [Stage.nextRunAt])⟩
  | fails | refuses | aborts => exact fun p hp => hs p (mem_of_mem_eraseIdx hp)

/-- The time that is stored for the schedule is an occurrence of the specification that is stored
for it. -/
def ScheduleRecord.OnTime (r : ScheduleRecord V) : Prop :=
  ∃ spec, parseCron r.spec = .ok spec ∧ spec.Occurs r.nextRunAt

/-- When a pass advances the schedule `id`, the specification that is stored is still the one that
the pass has read. -/
def KeepsSpec (s : Agenda V) : Op V → Prop
  | .advance k _ => ∀ p ∈ s.passes[k]?, ∀ r ∈ p.todo.head?, r.id = id →
      ∀ q ∈ s.schedules.row id, q.spec = r.spec
  | _ => True

lemma scheduleRequest_spec {name task : String} {input : Option V} {opts : ScheduleOptions V}
    {calledAt : Time} {u : UpsertSchedule V} (hcalled : 0 ≤ calledAt)
    (h : scheduleRequest name task input opts calledAt = .ok u) :
    u.id = name ∧ u.overlap = opts.overlap.getD .skip ∧
      ∃ spec, parseCron u.spec = .ok spec ∧ spec.IsNext calledAt u.nextRunAt := by
  unfold scheduleRequest at h
  split at h
  · cases h
  · split at h
    · cases h
    · rename_i spec hspec
      split at h
      · cases h
      · rename_i nextRunAt hnext
        cases h
        exact ⟨rfl, rfl, spec, hspec, nextOccurrence_isNext hcalled hnext⟩

lemma advance_row {t : SchedulesTable V} {id i : String} {firing : Option (Time × String)}
    (h : (t.row i).map (advanceSchedule id nextRunAt firing now).effect = some r) :
    ∃ q, t.row i = some q ∧ (i ≠ id ∧ r = q ∨
      i = id ∧ r = (advanceSchedule id nextRunAt firing now).set q) := by
  obtain ⟨q, hq, rfl⟩ := map_eq_some_iff.mp h
  refine ⟨q, hq, ?_⟩
  by_cases hid : i = id
  · refine .inr ⟨hid, Update.effect_of_filter ?_⟩
    exact decide_eq_true ((key_of_row hq).trans hid)
  · refine .inl ⟨hid, Update.effect_of_not_filter ?_⟩
    exact decide_eq_false fun h => hid ((key_of_row hq).symm.trans h)

lemma advanceSchedule_set (nextRunAt : Time) (firing : Option (Time × String))
    (now : Time) (q : ScheduleRecord V) :
    ((advanceSchedule id nextRunAt firing now).set q).spec = q.spec ∧
      ((advanceSchedule id nextRunAt firing now).set q).overlap = q.overlap ∧
      ((advanceSchedule id nextRunAt firing now).set q).nextRunAt = nextRunAt ∧
      ((advanceSchedule id nextRunAt firing now).set q).lastJobId =
        (firing.map (·.2)).or q.lastJobId := by
  cases firing <;> exact ⟨rfl, rfl, rfl, rfl⟩

lemma OpStep.onTime {id : String} (h : OpStep s a t) (hok : KeepsSpec id s a)
    (hpasses : ∀ p ∈ s.passes, p.Computed) (hs : ∀ r, s.schedules.row id = some r → r.OnTime) :
    ∀ r, t.schedules.row id = some r → r.OnTime := by
  cases h with
  | throws | idles | works | reads | decides | fails | inserts | refuses | aborts => exact hs
  | schedules hcalled hu hrow =>
    intro r hr
    rw [hrow] at hr
    split_ifs at hr with hid
    · obtain ⟨-, -, spec, hspec, hnext⟩ := scheduleRequest_spec hcalled hu
      -- Whether the row is new or not, it has the specification and the time of the request.
      cases hr
      refine ⟨spec, ?_, ?_⟩ <;> cases s.schedules.row id <;>
        first | exact hspec | exact hnext.occurs
    · exact hs r hr
  | unschedules =>
    intro r hr
    rw [deleteSchedule, row_delete] at hr
    exact hs r (filter_eq_some_iff.mp hr).1
  | advances hk hrow =>
    rename_i k now tickAt nextRunAt jobId r rest t
    intro q' hq'
    rw [hrow] at hq'
    obtain ⟨q, hq, ⟨-, rfl⟩ | ⟨hid, rfl⟩⟩ := advance_row hq'
    · exact hs _ hq
    · obtain ⟨hspec, -, hnext, -⟩ :=
        advanceSchedule_set r.id nextRunAt (jobId.map (tickAt, ·)) now q
      obtain ⟨spec, hparse, hisnext⟩ := (hpasses _ (mem_of_getElem? hk)).head rfl
      have hsame : q.spec = r.spec := hok _ hk r rfl hid.symm q hq
      exact ⟨spec, by rw [hspec, hsame, hparse], by rw [hnext]; exact hisnext.occurs⟩

/-- In every run in which the schedule is not replaced between its reading by a pass and its
advance, the stored time is an occurrence of the stored specification. -/
theorem stored_occurs {id : String} {s : Agenda V} {r : ScheduleRecord V}
    (h : Run Agenda.step (KeepsSpec id) .empty s) (hr : s.schedules.row id = some r) :
    r.OnTime := by
  have hinv : (∀ p ∈ s.passes, p.Computed) ∧ ∀ r, s.schedules.row id = some r → r.OnTime := by
    refine h.invariant (I := fun s : Agenda V => (∀ p ∈ s.passes, p.Computed) ∧
      ∀ r, s.schedules.row id = some r → r.OnTime) ?_ ?_
    · rintro s a t ⟨hpasses, hrow⟩ hok hstep
      have hstep := OpStep.of_step hstep
      exact ⟨hstep.computed hpasses, hstep.onTime hok hpasses hrow⟩
    · exact ⟨by simp [Agenda.empty], by simp [Agenda.empty]⟩
  exact hinv.2 r hr

instance (id : String) (s : Agenda V) (a : Op V) : Decidable (KeepsSpec id s a) := by
  unfold KeepsSpec
  split <;> infer_instance

/-- A schedule is made for every minute, and after a minute a tick reads it and decides to fire. -/
def firstFiring : List (Op ℕ) :=
  [.schedule "s" "work" none { every := some "60s" } 0 0, .due 60000, .decide 0]

/-- The job is inserted, and the schedule is advanced. -/
def firingDone : List (Op ℕ) := [.insert 0 "j" 60002, .advance 0 60003]

/-- What is stored for the schedule `s`, when no pass is under way. -/
def Agenda.stored (s : Agenda ℕ) : Option (String × Time) :=
  if s.passes.isEmpty then (s.schedules.row "s").map fun r => (r.spec, r.nextRunAt) else none

/-- The schedule after its first firing. -/
theorem fired_schedule_on_time :
    ∃ s : Agenda ℕ, ∃ r, Run Agenda.step (KeepsSpec "s") .empty s ∧
      s.schedules.row "s" = some r ∧ r.nextRunAt = 120000 ∧ r.OnTime := by
  have hs : (exec (restrict Agenda.step (KeepsSpec "s")) .empty (firstFiring ++ firingDone)).bind
      Agenda.stored = some ("every:60s", 120000) := by decide +kernel
  obtain ⟨s, -, hrun, hs⟩ := Run.exists_of_exec hs
  unfold Agenda.stored at hs
  split_ifs at hs
  obtain ⟨r, hr, hs⟩ := map_eq_some_iff.mp hs
  exact ⟨s, r, hrun, hr, (Prod.mk.inj hs).2, stored_occurs hrun hr⟩

/-- The schedule is replaced while the tick is under way, and the stored time is no multiple of its
seven seconds. -/
theorem replaced_schedule_overwritten :
    (exec Agenda.step .empty (firstFiring ++
      [.schedule "s" "work" none { every := some "7s" } 60001 60001] ++ firingDone)).bind
      Agenda.stored = some ("every:7s", 120000) ∧
      ∀ spec, parseCron "every:7s" = .ok spec → ¬ spec.Occurs 120000 := by
  refine ⟨by decide +kernel, fun spec hspec => ?_⟩
  have hparse : parseCron "every:7s" = .ok (.every ⟨7000, by norm_num⟩) := by
    decide +kernel
  rw [hparse] at hspec
  cases hspec
  rintro ⟨n, hn⟩
  have hn : (120000 : ℚ) = n * 7000 := hn
  have hn : (120000 : ℤ) = n * 7000 := by exact_mod_cast hn
  omega

end Fino.Jobs
