import Mathlib.Data.List.Sort
import Fino.Lib.Table
import Fino.Workflow.Types

/-!
# The table of jobs

The `jobs` table of `js/internal/jobs/store.ts` and the operations of `JobsStore` that write it. A
`null` column is `none`. An operation is one statement or transaction: a function from the table to
the new table and a result, or `none` where it throws and leaves the table as it was; clock readings
and random numbers are arguments. `claimReady`, `heartbeat`, `cancel`, `retry`, `wake` and
`sweepLeases` look at the status; the `mark*` operations go by the id alone.
-/

namespace Fino.Jobs

open Lib Workflow List Option Table

inductive JobStatus
  | pending
  | claimed
  | running
  | waiting
  | done
  | error
  | dead
  | cancelled
deriving DecidableEq, Repr

/-- `ACTIVE_STATUSES`. -/
def JobStatus.Active (status : JobStatus) : Prop :=
  status ∈ [.pending, .claimed, .running, .waiting]

instance (status : JobStatus) : Decidable status.Active :=
  inferInstanceAs (Decidable (status ∈ [.pending, .claimed, .running, .waiting]))

structure JobRetryPolicy where
  maxAttempts : ℤ
  baseMs : Time
  factor : ℚ
  maxMs : Time
  jitter : Bool
deriving DecidableEq

/-- `JobRecord`: a row of the table. -/
structure JobRecord (V : Type) where
  id : String
  queue : String
  task : String
  input : Option V
  status : JobStatus
  priority : ℤ
  runAt : Time
  attempts : ℕ
  maxAttempts : ℤ
  backoff : Option JobRetryPolicy
  timeoutMs : Option Time
  dedupeKey : Option String
  claimedBy : Option String
  claimedUntil : Option Time
  workflowRunId : Option String
  waitingOn : Option WorkflowWait
  scheduleId : Option String
  result : Option V
  error : Option WorkflowFailure
  createdAt : Time
  updatedAt : Time
  finishedAt : Option Time

/-- `InsertJob`: what the caller of `insertJob` supplies. -/
structure InsertJob (V : Type) where
  queue : String
  task : String
  input : Option V
  runAt : Time
  priority : Option ℤ
  maxAttempts : Option ℤ
  backoff : Option JobRetryPolicy
  timeoutMs : Option Time
  dedupeKey : Option String
  scheduleId : Option String

variable {V : Type}

/-- The two rows would both have an entry in `idx_jobs_dedupe`, and the same one. -/
def JobRecord.SameSlot (a b : JobRecord V) : Prop :=
  a.dedupeKey.isSome ∧ a.queue = b.queue ∧ a.dedupeKey = b.dedupeKey ∧ a.status.Active ∧
    b.status.Active

instance : DecidableRel (JobRecord.SameSlot (V := V)) :=
  fun _ _ => inferInstanceAs (Decidable (_ ∧ _))

/-- The `jobs` table, with its primary key and its unique index. -/
abbrev JobsTable (V : Type) := Table (JobRecord V) JobRecord.id JobRecord.SameSlot

/-- An update of the `jobs` table. -/
abbrev JobsUpdate (V : Type) := Update (JobRecord.id (V := V))

def changes (u : JobsUpdate V) (t : JobsTable V) : ℕ := (t.rows.filter u.filter).length

/-- `backoffDelayMs`; `random` is what `Math.random()` returns. -/
def backoffDelayMs (policy : Option JobRetryPolicy) (attempts : ℕ) (random : ℚ) : Time :=
  let base := (policy.map (·.baseMs)).getD 1000
  let factor := (policy.map (·.factor)).getD 2
  let maxMs := (policy.map (·.maxMs)).getD 60000
  let jitter := (policy.map (·.jitter)).getD true
  let cap := min maxMs (base * factor ^ (attempts - 1))
  if jitter then cap / 2 + random * (cap / 2) else cap

/-- The row that `insertJob` inserts. -/
def InsertJob.toRow (job : InsertJob V) (id : String) (now : Time) : JobRecord V where
  id := id
  queue := job.queue
  task := job.task
  input := job.input
  status := .pending
  priority := job.priority.getD 0
  runAt := job.runAt
  attempts := 0
  maxAttempts := job.maxAttempts.getD 3
  backoff := job.backoff
  timeoutMs := job.timeoutMs
  dedupeKey := job.dedupeKey
  claimedBy := none
  claimedUntil := none
  workflowRunId := none
  waitingOn := none
  scheduleId := job.scheduleId
  result := none
  error := none
  createdAt := now
  updatedAt := now
  finishedAt := none

def findActiveByDedupe (queue dedupeKey : String) (t : JobsTable V) : Option (JobRecord V) :=
  t.rows.find? fun r =>
    decide (r.queue = queue ∧ r.dedupeKey = some dedupeKey ∧ r.status.Active)

variable (id : String)

/-- `insertJob`, with the id that it generates; it returns the inserted job or the one that has the
key. -/
def insertJob (now : Time) (job : InsertJob V) (t : JobsTable V) :
    Option (JobsTable V × JobRecord V × Bool) :=
  let row := job.toRow id now
  if t.rows.any fun r => decide (r.SameSlot row) then
    -- `ON CONFLICT … DO NOTHING`, and `changes` is 0.
    (findActiveByDedupe job.queue (job.dedupeKey.getD "") t).map fun existing => (t, existing, true)
  else (t.insert row).map fun t' => (t', row, false)

/-- `ORDER BY priority DESC, run_at ASC, id ASC`. -/
def JobRecord.Before (a b : JobRecord V) : Prop :=
  b.priority < a.priority ∨ (a.priority = b.priority ∧
    (a.runAt < b.runAt ∨ (a.runAt = b.runAt ∧ a.id ≤ b.id)))

instance : DecidableRel (JobRecord.Before (V := V)) :=
  fun _ _ => inferInstanceAs (Decidable (_ ∨ _))

/-- The rows that `claimReady` may claim. -/
def JobRecord.ready (now : Time) (tasks : Option (List String)) (r : JobRecord V) : Bool :=
  decide (r.status = .pending ∨ r.status = .waiting) && decide (r.runAt ≤ now) &&
    tasks.all fun names => decide (r.task ∈ names)

/-- The ids that the subquery of `claimReady` selects. -/
def readyIds (limit : ℕ) (now : Time) (tasks : Option (List String)) (t : JobsTable V) :
    List String :=
  (((t.rows.filter (·.ready now tasks)).insertionSort JobRecord.Before).take limit).map (·.id)

variable (claimedBy : String)

/-- The update of `claimReady`, with the ids that its subquery selects. Only a claim from `pending`
counts as an attempt. -/
def claim (leaseMs now : Time) (ids : List String) : JobsUpdate V where
  filter r := decide (r.id ∈ ids) && decide (r.status = .pending ∨ r.status = .waiting)
  set r := { r with
    status := .claimed
    claimedBy := some claimedBy
    claimedUntil := some (now + leaseMs)
    attempts := r.attempts + if r.status = .pending then 1 else 0
    updatedAt := now }

def claimReady (leaseMs : Time) (limit : ℕ) (now : Time)
    (tasks : Option (List String)) (t : JobsTable V) : Option (JobsTable V × List (JobRecord V)) :=
  if limit = 0 ∨ tasks = some [] then some (t, [])
  else
    let u := claim claimedBy leaseMs now (readyIds limit now tasks t)
    -- `RETURNING` does not keep the order of the subquery, so the rows are sorted again.
    (t.update u).map fun t' =>
      (t', ((t.rows.filter u.filter).map u.set).insertionSort JobRecord.Before)

def heartbeat (ids : List String) (leaseMs now : Time) : JobsUpdate V where
  filter r := decide (r.claimedBy = some claimedBy) &&
    decide (r.status = .claimed ∨ r.status = .running) && decide (r.id ∈ ids)
  set r := { r with claimedUntil := some (now + leaseMs), updatedAt := now }

/-! ## Outcomes -/

def JobRecord.touched (r : JobRecord V) (now : Time) : JobRecord V := { r with updatedAt := now }

/-- `#update`: patch columns of one job. -/
def update (now : Time) (patch : JobRecord V → JobRecord V)
    (hpatch : ∀ r, (patch r).id = r.id := by intro _; rfl) : JobsUpdate V where
  filter r := decide (r.id = id)
  set r := (patch r).touched now
  key_eq := hpatch

def markRunning (now : Time) : JobsUpdate V :=
  update id now fun r => { r with status := .running }

def markDone (result : Option V) (now : Time) : JobsUpdate V :=
  update id now fun r => { r with
    status := .done
    result := result
    claimedBy := none
    claimedUntil := none
    finishedAt := some now }

def markWaiting (id workflowRunId : String) (waitingOn : WorkflowWait) (runAt now : Time) :
    JobsUpdate V :=
  update id now fun r => { r with
    status := .waiting
    workflowRunId := some workflowRunId
    waitingOn := some waitingOn
    runAt := runAt
    claimedBy := none
    claimedUntil := none }

def markRetry (runAt : Time) (error : WorkflowFailure) (now : Time) : JobsUpdate V :=
  update id now fun r => { r with
    status := .pending
    runAt := runAt
    error := some error
    claimedBy := none
    claimedUntil := none }

def markDead (error : WorkflowFailure) (now : Time) : JobsUpdate V :=
  update id now fun r => { r with
    status := .dead
    error := some error
    claimedBy := none
    claimedUntil := none
    finishedAt := some now }

/-- The rows that `sweepLeases` selects. -/
def JobRecord.expired (now : Time) (r : JobRecord V) : Bool :=
  decide (r.status = .claimed ∨ r.status = .running) && r.claimedUntil.any (· ≤ now)

/-- The update that `sweepLeases` makes for a row that it selected: a job that has attempts left
goes back to the queue. -/
def recover (now : Time) (random : String → ℚ) (job : JobRecord V) : JobsUpdate V :=
  if job.maxAttempts ≤ job.attempts then
    update job.id now fun r => { r with
      status := .dead
      claimedBy := none
      claimedUntil := none
      error := some ⟨"lease expired after attempt " ++ toString job.attempts ++ "/" ++
        toString job.maxAttempts, none⟩
      finishedAt := some now }
  else
    update job.id now fun r => { r with
      status := .pending
      claimedBy := none
      claimedUntil := none
      runAt := now + backoffDelayMs job.backoff job.attempts (random job.id) }

/-- `sweepLeases`; `random` gives the number drawn for each job. The result is the jobs affected, as
they are then. -/
def sweepLeases (now : Time) (random : String → ℚ) (t : JobsTable V) :
    Option (JobsTable V × List (JobRecord V)) :=
  let jobs := t.rows.filter (·.expired now)
  (t.updateEach (recover now random) jobs).map fun t' =>
    (t', jobs.filterMap fun job => t'.row job.id)

/-- The update of `cancel`. -/
def cancel (now : Time) : JobsUpdate V where
  filter r := decide (r.id = id) && decide r.status.Active
  set r := { r with
    status := .cancelled
    claimedBy := none
    claimedUntil := none
    finishedAt := some now
    updatedAt := now }

/-- The update of `retry`. -/
def retry (now : Time) : JobsUpdate V where
  filter r := decide (r.id = id) &&
    decide (r.status = .dead ∨ r.status = .error ∨ r.status = .cancelled)
  set r := { r with
    status := .pending
    attempts := 0
    runAt := now
    error := none
    finishedAt := none
    updatedAt := now }

/-- The update of `wake`. -/
def wake (now : Time) : JobsUpdate V where
  filter r := decide (r.id = id) && decide (r.status = .waiting)
  set r := { r with status := .pending, runAt := now, updatedAt := now }

/-- What `cancel`, `retry` and `wake` return, with the table: whether their update changed a row. -/
def reporting (u : JobsUpdate V) (t : JobsTable V) : Option (JobsTable V × Bool) :=
  (t.update u).map fun t' => (t', decide (0 < changes u t))

/-! ## Rows after an operation -/

/-- Two rows that would have the same entry in the index would have it the other way round. -/
instance : Std.Symm (JobRecord.SameSlot (V := V)) where
  symm a b := by
    rintro ⟨hsome, hq, hk, ha, hb⟩
    exact ⟨hk ▸ hsome, hq.symm, hk.symm, hb, ha⟩

/-- An update that keeps the columns of `idx_jobs_dedupe`. -/
structure KeepsSlot (u : JobsUpdate V) : Prop where
  queue_eq : ∀ r, (u.set r).queue = r.queue
  key_eq : ∀ r, (u.set r).dedupeKey = r.dedupeKey

variable {u : JobsUpdate V} {t t' : JobsTable V} {now : Time}

lemma KeepsSlot.effect (h : KeepsSlot u) (r : JobRecord V) :
    (u.effect r).queue = r.queue ∧ (u.effect r).dedupeKey = r.dedupeKey := by
  unfold Update.effect
  split_ifs
  · exact ⟨h.queue_eq r, h.key_eq r⟩
  · exact ⟨rfl, rfl⟩

/-- An update that keeps the columns of `idx_jobs_dedupe` and makes no finished job active does not
fail. -/
lemma update_isSome_of_active (hslot : KeepsSlot u)
    (hactive : ∀ r ∈ t.rows, u.filter r → (u.set r).status.Active → r.status.Active) :
    (t.update u).isSome := by
  have hback : ∀ r ∈ t.rows, (u.effect r).status.Active → r.status.Active := by
    intro r hr
    cases hf : u.filter r with
    | true =>
      rw [Update.effect_of_filter hf]
      exact hactive r hr hf
    | false =>
      rw [Update.effect_of_not_filter hf]
      exact id
  rw [update_isSome_iff]
  rintro ⟨a, ha, b, hb, hne, hsome, hq, hk, hactivea, hactiveb⟩
  obtain ⟨hqa, hka⟩ := hslot.effect a
  obtain ⟨hqb, hkb⟩ := hslot.effect b
  rw [hka] at hsome
  rw [hqa, hqb] at hq
  rw [hka, hkb] at hk
  exact t.not_clash ha hb hne ⟨hsome, hq, hk, hback a ha hactivea, hback b hb hactiveb⟩

lemma wake_isSome (now : Time) (t : JobsTable V) : (t.update (wake id now)).isSome := by
  refine update_isSome_of_active ⟨fun _ => rfl, fun _ => rfl⟩ fun r _ hf _ => ?_
  simp only [wake, Bool.and_eq_true, decide_eq_true_eq] at hf
  simp [hf.2, JobStatus.Active]

lemma recover_filter (now : Time) (random : String → ℚ) (job r : JobRecord V) :
    (recover now random job).filter r = decide (r.id = job.id) := by
  unfold recover
  split_ifs <;> rfl

lemma recover_keepsSlot (now : Time) (random : String → ℚ) (job : JobRecord V) :
    KeepsSlot (recover now random job) := by
  unfold recover
  split_ifs <;> exact ⟨fun _ => rfl, fun _ => rfl⟩

/-- The loop of `sweepLeases` over some active jobs, each under its own id, does not fail. -/
lemma updateEach_recover_isSome (now : Time) (random : String → ℚ) (jobs : List (JobRecord V))
    (hnodup : (jobs.map (·.id)).Nodup) (t : JobsTable V)
    (hactive : ∀ job ∈ jobs, ∀ r ∈ t.rows, r.id = job.id → r.status.Active) :
    (t.updateEach (recover now random) jobs).isSome := by
  induction jobs generalizing t with
  | nil => rfl
  | cons job jobs ih =>
    rw [map_cons, nodup_cons] at hnodup
    have hfirst : (t.update (recover now random job)).isSome := by
      refine update_isSome_of_active (recover_keepsSlot now random job) fun r hr hf _ => ?_
      rw [recover_filter] at hf
      exact hactive job (by simp) r hr (of_decide_eq_true hf)
    obtain ⟨t₁, ht₁⟩ := isSome_iff_exists.mp hfirst
    rw [updateEach, ht₁, bind_some]
    apply ih hnodup.2
    intro job' hjob' r' hr' hid
    -- The rows of the jobs that are left are as they were.
    have hrows : t₁.rows = t.rows.map (recover now random job).effect :=
      commit_eq_some.mp ht₁
    rw [hrows, List.mem_map] at hr'
    obtain ⟨r, hr, rfl⟩ := hr'
    have hkey := (recover now random job).key_effect r
    rw [hkey] at hid
    have hne : r.id ≠ job.id := by
      rw [hid]
      intro h
      exact hnodup.1 (h ▸ mem_map_of_mem hjob')
    rw [Update.effect_of_not_filter (by rw [recover_filter]; exact decide_eq_false hne)]
    exact hactive job' (by simp [hjob']) r hr hid

lemma sweepLeases_isSome (now : Time) (random : String → ℚ) (t : JobsTable V) :
    (sweepLeases now random t).isSome := by
  simp only [sweepLeases, isSome_map]
  apply updateEach_recover_isSome
  · exact t.keys_nodup.sublist (List.filter_sublist.map JobRecord.id)
  · intro job hjob r hr hid
    obtain ⟨hmem, hexpired⟩ := mem_filter.mp hjob
    obtain rfl := inj_on_of_nodup_map t.keys_nodup hr hmem hid
    simp only [JobRecord.expired, Bool.and_eq_true, decide_eq_true_eq] at hexpired
    rcases hexpired.1 with h | h <;> simp [h, JobStatus.Active]

lemma row_insertJob {id : String} {job : InsertJob V} {existing : JobRecord V} {deduped : Bool}
    (h : insertJob id now job t = some (t', existing, deduped)) :
    t' = t ∨ t.row id = none ∧
      ∀ k, t'.row k = if id = k then some (job.toRow id now) else t.row k := by
  simp only [insertJob] at h
  split_ifs at h
  · obtain ⟨_, _, h⟩ := map_eq_some_iff.mp h
    simp only [Prod.mk.injEq] at h
    exact .inl h.1.symm
  · obtain ⟨t₁, hinsert, h⟩ := map_eq_some_iff.mp h
    obtain ⟨rfl, -, -⟩ := h
    exact .inr ⟨row_of_insert hinsert, row_insert hinsert⟩

/-- The rows that the `RETURNING *` of an update yields, in some order. -/
structure Returning (t : JobsTable V) (u : JobsUpdate V) (jobs : List (JobRecord V)) : Prop where
  nodup : (jobs.map (·.id)).Nodup
  mem_iff : ∀ job, job ∈ jobs ↔ ∃ r, t.row r.id = some r ∧ u.filter r = true ∧ job = u.set r

variable {jobs : List (JobRecord V)}

lemma claimReady_spec {claimedBy : String} {leaseMs : Time} {limit : ℕ}
    {tasks : Option (List String)}
    (h : claimReady claimedBy leaseMs limit now tasks t = some (t', jobs)) :
    ∃ ids, (∀ k, t'.row k = (t.row k).map (claim claimedBy leaseMs now ids).effect) ∧
      Returning t (claim claimedBy leaseMs now ids) jobs := by
  unfold claimReady at h
  split_ifs at h
  · simp only [Option.some.injEq, Prod.mk.injEq] at h
    obtain ⟨rfl, rfl⟩ := h
    have hnone : ∀ r : JobRecord V, (claim claimedBy leaseMs now []).filter r = false := by
      simp [claim]
    refine ⟨[], fun k => ?_, by simp, fun job => by simp [hnone]⟩
    cases t.row k with
    | none => rfl
    | some r => simp [Update.effect_of_not_filter (hnone r)]
  · obtain ⟨t₁, hupdate, h⟩ := map_eq_some_iff.mp h
    obtain ⟨rfl, rfl⟩ := h
    refine ⟨_, row_update hupdate, ?_, fun job => ?_⟩
    · -- The jobs returned are in another order, and have the ids of the rows selected.
      have hperm := (List.perm_insertionSort JobRecord.Before ((t.rows.filter
        (claim claimedBy leaseMs now (readyIds limit now tasks t)).filter).map
        (claim claimedBy leaseMs now (readyIds limit now tasks t)).set)).map JobRecord.id
      rw [hperm.nodup_iff, List.map_map]
      exact t.keys_nodup.sublist (List.filter_sublist.map JobRecord.id)
    · rw [(List.perm_insertionSort _ _).mem_iff, List.mem_map]
      constructor
      · rintro ⟨r, hr, rfl⟩
        obtain ⟨hmem, hf⟩ := mem_filter.mp hr
        exact ⟨r, row_eq_some.mpr ⟨hmem, rfl⟩, hf, rfl⟩
      · rintro ⟨r, hr, hf, rfl⟩
        exact ⟨r, mem_filter.mpr ⟨(row_eq_some.mp hr).1, hf⟩, rfl⟩

/-- The effect of `sweepLeases` as one update. -/
def sweep (now : Time) (random : String → ℚ) : JobsUpdate V where
  filter r := r.expired now
  set r := (recover now random r).set r
  key_eq r := (recover now random r).key_eq r

lemma sweep_status (now : Time) (random : String → ℚ) (r : JobRecord V) :
    ((sweep now random).set r).status = if r.maxAttempts ≤ r.attempts then .dead else .pending := by
  show ((recover now random r).set r).status = _
  unfold recover
  split_ifs <;> rfl

lemma row_sweepLeases {random : String → ℚ} (h : sweepLeases now random t = some (t', jobs))
    (k : String) :
    t'.row k = (t.row k).map (sweep now random).effect := by
  simp only [sweepLeases, map_eq_some_iff, Prod.mk.injEq] at h
  obtain ⟨t₁, hloop, rfl, -⟩ := h
  have hnodup : ((t.rows.filter (·.expired now)).map JobRecord.id).Nodup :=
    t.keys_nodup.sublist (List.filter_sublist.map JobRecord.id)
  rw [row_updateEach (recover_filter now random) hnodup hloop]
  cases hrow : t.row k with
  | none => rfl
  | some q =>
    obtain ⟨hmem, hid⟩ := row_eq_some.mp hrow
    simp only [map_some]
    cases hf : (t.rows.filter (·.expired now)).find? fun r => decide (r.id = k) with
    | none =>
      -- The row was not selected.
      have hq : (sweep now random).filter q = false := by
        by_contra hq
        have hin := mem_filter.mpr ⟨hmem, (Bool.not_eq_false _).mp hq⟩
        exact absurd (List.find?_eq_none.mp hf q hin) (by simp [hid])
      rw [Update.effect_of_not_filter hq]
    | some r =>
      obtain ⟨hr, hexpired⟩ := mem_filter.mp (mem_of_find?_eq_some hf)
      have hrk : r.id = k := by simpa using List.find?_some hf
      obtain rfl := inj_on_of_nodup_map t.keys_nodup hr hmem (hrk.trans hid.symm)
      rw [Update.effect_of_filter hexpired]
      rfl

end Fino.Jobs
