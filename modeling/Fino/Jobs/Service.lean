import Fino.Lib.Transition
import Fino.Jobs.Store

/-!
# Services that share a table of jobs

`JobsService` of `js/internal/jobs/service.ts`, any number of them on one store, with the operators
of jobs. A state has the table and the dispatches under way, each with the record that `claimReady`
returned; an action is one operation of the store, and `crash` removes a dispatch whose process is
gone.

Nothing ties a dispatch to its claim: its writes go by the job's id alone. `Undisturbed` says that
no row is cancelled or swept meanwhile; then a dispatch is the only one of its job, which is
`claimed` or `running` (`run_leased`).
-/

namespace Fino.Jobs

open Lib Option SparseArray Update Table
open Workflow (Time WorkflowWait WorkflowFailure)

variable {V : Type}

/-- A call of `#dispatch`: the service that makes it, the record of the job as it was claimed, and
whether `markRunning` is done. -/
structure Dispatch (V : Type) where
  service : String
  job : JobRecord V
  running : Bool

/-- The status that the row of a job has while a dispatch of it is under way. -/
def Dispatch.phase (d : Dispatch V) : JobStatus := if d.running then .running else .claimed

lemma Dispatch.phase_eq (d : Dispatch V) : d.phase = .claimed ∨ d.phase = .running := by
  unfold phase
  split_ifs
  · exact .inr rfl
  · exact .inl rfl

/-- The dispatch after `markRunning`. -/
def Dispatch.begun (d : Dispatch V) : Dispatch V := { d with running := true }

/-- `JobsWireResult`: what a processor returns. -/
inductive JobsWireResult (V : Type)
  | parked (workflowRunId : String) (waitingOn : WorkflowWait)
  | ok (output : Option V)
  | failed (error : WorkflowFailure) (retryable : Bool)

def maxRunAt : Time := 8640000000000000

def parkRunAt : WorkflowWait → Time
  | .timer _ dueAt _ => dueAt
  | .signal _ _ _ timeoutAt => timeoutAt.getD maxRunAt

/-- The write with which `#dispatch` persists the outcome; it decides by the record that was
claimed. -/
def Dispatch.outcome (d : Dispatch V) (now : Time) (random : ℚ) : JobsWireResult V → JobsUpdate V
  | .parked workflowRunId waitingOn =>
    markWaiting d.job.id workflowRunId waitingOn (parkRunAt waitingOn) now
  | .ok output => markDone d.job.id output now
  | .failed error retryable =>
    if retryable ∧ (d.job.attempts : ℤ) < d.job.maxAttempts then
      markRetry d.job.id (now + backoffDelayMs d.job.backoff d.job.attempts random) error now
    else markDead d.job.id error now

/-- The table of jobs, and the dispatches under way. -/
structure Sys (V : Type) where
  table : JobsTable V
  dispatches : SparseArray (Dispatch V)

def Sys.empty : Sys V := ⟨.empty, []⟩

/-- One operation of the store, by a service or by an operator. Dispatches are named by numbers. -/
inductive Action (V : Type)
  | insertJob (id : String) (now : Time) (job : InsertJob V)
  /-- A service claims jobs, and begins to dispatch them. -/
  | claimReady (service : String) (leaseMs : Time) (limit : ℕ) (now : Time)
      (tasks : Option (List String))
  /-- The first write of a dispatch. -/
  | markRunning (dispatch : ℕ) (now : Time)
  /-- The processor has returned, and the dispatch writes the outcome. -/
  | finish (dispatch : ℕ) (now : Time) (random : ℚ) (result : JobsWireResult V)
  /-- A dispatch is gone. -/
  | crash (dispatch : ℕ)
  | sweepLeases (now : Time) (random : String → ℚ)
  | heartbeat (service : String) (ids : List String) (leaseMs now : Time)
  | cancel (id : String) (now : Time)
  | retry (id : String) (now : Time)
  | wake (id : String) (now : Time)

def Action.dispatch : Action V → Option ℕ
  | .markRunning k _ | .finish k _ _ _ | .crash k => some k
  | _ => none

/-- The update of an action that belongs to no dispatch and is one. -/
def Action.statement : Action V → Option (JobsUpdate V)
  | .sweepLeases now random => some (sweep now random)
  | .heartbeat service ids leaseMs now => some (Jobs.heartbeat service ids leaseMs now)
  | .cancel id now => some (Jobs.cancel id now)
  | .retry id now => some (Jobs.retry id now)
  | .wake id now => some (Jobs.wake id now)
  | _ => none

/-- The system with the table that an operation leaves, or as it was if the operation throws. -/
def Sys.withTable (s : Sys V) (t : Option (JobsTable V)) : Sys V :=
  { s with table := t.getD s.table }

/-- The state that an action leads to, or `none` if the dispatch is not there. -/
def step (s : Sys V) : Action V → Option (Sys V)
  | .insertJob id now job => some (s.withTable ((insertJob id now job s.table).map (·.1)))
  | .claimReady service leaseMs limit now tasks =>
    match claimReady service leaseMs limit now tasks s.table with
    | some (t, jobs) =>
      some ⟨t, s.dispatches.extend (jobs.map fun job => ⟨service, job, false⟩)⟩
    | none => some s
  | .markRunning k now =>
    match s.dispatches.get k with
    | some d =>
      if d.running then none
      else
        match s.table.update (markRunning d.job.id now) with
        | some t => some ⟨t, s.dispatches.set k d.begun⟩
        -- `#dispatch` rejects, and its `finally` takes the job out of `#inFlight`.
        | none => some { s with dispatches := s.dispatches.erase k }
    | none => none
  | .finish k now random result =>
    match s.dispatches.get k with
    | some d =>
      -- The dispatch is over also when the write of its outcome throws.
      if d.running then
        some { s.withTable (s.table.update (d.outcome now random result)) with
          dispatches := s.dispatches.erase k }
      else none
    | none => none
  | .crash k => some { s with dispatches := s.dispatches.erase k }
  | .sweepLeases now random => some (s.withTable ((sweepLeases now random s.table).map (·.1)))
  | .heartbeat service ids leaseMs now =>
    some (s.withTable (s.table.update (heartbeat service ids leaseMs now)))
  | .cancel id now => some (s.withTable ((reporting (cancel id now) s.table).map (·.1)))
  | .retry id now => some (s.withTable ((reporting (retry id now) s.table).map (·.1)))
  | .wake id now => some (s.withTable ((reporting (wake id now) s.table).map (·.1)))

/-! ## What a step can do -/

/-- The table `t'` has the rows of `t` after the update `u`. -/
def Writes (t : JobsTable V) (u : JobsUpdate V) (t' : JobsTable V) : Prop :=
  ∀ k, t'.row k = (t.row k).map u.effect

variable {r : JobRecord V} {t t' : JobsTable V} {u : JobsUpdate V} {k id : String}

section

variable (h : Writes t u t')

include h

lemma Writes.row_of_filter (hr : t.row k = some r) (hf : u.filter r) :
    t'.row k = some (u.set r) := by
  rw [h k, hr, map_some, effect_of_filter hf]

lemma Writes.row_of_not_filter (hr : t.row k = some r) (hf : u.filter r = false) :
    t'.row k = some r := by
  rw [h k, hr, map_some, effect_of_not_filter hf]

lemma Writes.row_cases (hr : t.row k = some r) :
    t'.row k = some r ∨ u.filter r ∧ t'.row k = some (u.set r) := by
  cases hf : u.filter r with
  | true => exact .inr ⟨rfl, h.row_of_filter hr hf⟩
  | false => exact .inl (h.row_of_not_filter hr hf)

lemma Writes.row_inv (hr : t'.row k = some r) :
    ∃ q, t.row k = some q ∧ (u.filter q = false ∧ r = q ∨ u.filter q ∧ r = u.set q) := by
  rw [h k, map_eq_some_iff] at hr
  obtain ⟨q, hq, rfl⟩ := hr
  refine ⟨q, hq, ?_⟩
  cases hf : u.filter q with
  | true => exact .inr ⟨rfl, effect_of_filter hf⟩
  | false => exact .inl ⟨rfl, effect_of_not_filter hf⟩

end

@[simp]
lemma Dispatch.outcome_filter (d : Dispatch V) (now : Time) (random : ℚ)
    (result : JobsWireResult V) (r : JobRecord V) :
    (d.outcome now random result).filter r = decide (r.id = d.job.id) := by
  cases result with
  | failed error retryable =>
    simp only [outcome]
    split_ifs <;> rfl
  | _ => rfl

lemma Writes.row_of_ne (h : Writes t u t') (hu : ∀ r, u.filter r = decide (r.id = id))
    (hk : k ≠ id) : t'.row k = t.row k := by
  cases hr : t.row k with
  | none => rw [h k, hr, map_none]
  | some r =>
    apply h.row_of_not_filter hr
    rw [hu, key_of_row hr]
    exact decide_eq_false hk

/-- An operation that throws leaves the table alone, but ends the dispatch that it belongs to. -/
inductive Step (s : Sys V) : Action V → Sys V → Prop
  | stays {a : Action V} (ha : a.dispatch = none) : Step s a s
  | inserts {id : String} {now : Time} {job : InsertJob V} {t : JobsTable V}
      (hnew : s.table.row id = none)
      (hrow : ∀ k, t.row k = if id = k then some (job.toRow id now) else s.table.row k) :
      Step s (.insertJob id now job) { s with table := t }
  | claims {service : String} {leaseMs now : Time} {limit : ℕ} {tasks : Option (List String)}
      {ids : List String} {t : JobsTable V} {jobs : List (JobRecord V)}
      (hwrites : Writes s.table (claim service leaseMs now ids) t)
      (hjobs : Returning s.table (claim service leaseMs now ids) jobs) :
      Step s (.claimReady service leaseMs limit now tasks)
        ⟨t, s.dispatches.extend (jobs.map fun job => ⟨service, job, false⟩)⟩
  | writes {a : Action V} {u : JobsUpdate V} {t : JobsTable V} (ha : a.statement = some u)
      (hwrites : Writes s.table u t) : Step s a { s with table := t }
  | begins {k : ℕ} {now : Time} {d : Dispatch V} {t : JobsTable V}
      (hk : s.dispatches.get k = some d) (hfirst : d.running = false)
      (hwrites : Writes s.table (markRunning d.job.id now) t) :
      Step s (.markRunning k now) ⟨t, s.dispatches.set k d.begun⟩
  | finishes {k : ℕ} {now : Time} {random : ℚ} {result : JobsWireResult V} {d : Dispatch V}
      {t : JobsTable V} (hk : s.dispatches.get k = some d) (hrun : d.running = true)
      (hwrites : Writes s.table (d.outcome now random result) t) :
      Step s (.finish k now random result) ⟨t, s.dispatches.erase k⟩
  | ends {a : Action V} {k : ℕ} (ha : a.dispatch = some k)
      (hfirst : ∀ now, a = .markRunning k now →
        ∀ d, s.dispatches.get k = some d → d.running = false) :
      Step s a { s with dispatches := s.dispatches.erase k }

variable {a : Action V} {s : Sys V}

lemma Step.of_statement {o : Option (JobsTable V)} (ha : a.statement = some u)
    (hd : a.dispatch = none) (ho : ∀ t ∈ o, Writes s.table u t) :
    Step s a (s.withTable o) := by
  cases o with
  | none => exact .stays hd
  | some t => exact .writes ha (ho t rfl)

lemma writes_of_reporting (h : (reporting u t).map (·.1) = some t') : Writes t u t' := by
  simp only [reporting, map_map, map_eq_some_iff, Function.comp_apply] at h
  obtain ⟨t₁, hupdate, rfl⟩ := h
  exact row_update hupdate

lemma Step.of_step {t : Sys V} (h : step s a = some t) : Step s a t := by
  cases a with
  | insertJob id now job =>
    cases h
    cases hinsert : insertJob id now job s.table with
    | none => exact .stays rfl
    | some out =>
      obtain ⟨t', existing, deduped⟩ := out
      rcases row_insertJob hinsert with rfl | ⟨hnew, hrow⟩
      · exact .stays rfl
      · exact .inserts hnew hrow
  | claimReady service leaseMs limit now tasks =>
    simp only [step] at h
    split at h
    · rename_i t' jobs hclaim
      obtain ⟨ids, hwrites, hjobs⟩ := claimReady_spec hclaim
      exact (some.inj h) ▸ .claims hwrites hjobs
    · exact (some.inj h) ▸ .stays rfl
  | markRunning k now =>
    simp only [step] at h
    split at h
    · rename_i d hk
      split_ifs at h with hrun
      split at h
      · rename_i t' hupdate
        exact (some.inj h) ▸ .begins hk (by simpa using hrun) (row_update hupdate)
      · refine (some.inj h) ▸ .ends rfl fun _ _ e he => ?_
        obtain rfl := some.inj (hk.symm.trans he)
        simpa using hrun
    · simp at h
  | finish k now random result =>
    simp only [step] at h
    split at h
    · rename_i d hk
      split_ifs at h with hrun
      cases h
      cases hupdate : s.table.update (d.outcome now random result) with
      | none => exact .ends rfl (by simp)
      | some t' => exact .finishes hk hrun (row_update hupdate)
    · simp at h
  | crash k => exact (some.inj h) ▸ .ends rfl (by simp)
  | sweepLeases now random =>
    cases h
    refine .of_statement rfl rfl fun t' ht' => ?_
    obtain ⟨⟨t₁, jobs⟩, hsweep, rfl⟩ := map_eq_some_iff.mp ht'
    exact row_sweepLeases hsweep
  | heartbeat service ids leaseMs now =>
    exact (some.inj h) ▸ .of_statement rfl rfl fun _ ht' => row_update ht'
  | cancel id now | retry id now | wake id now =>
    exact (some.inj h) ▸ .of_statement rfl rfl fun _ ht' => writes_of_reporting ht'

/-- The update that an action comes to, if it is not an insertion and does not throw. -/
inductive Issues (s : Sys V) : Action V → JobsUpdate V → Prop
  | claims {service : String} {leaseMs now : Time} {limit : ℕ} {tasks : Option (List String)}
      {ids : List String} :
      Issues s (.claimReady service leaseMs limit now tasks) (claim service leaseMs now ids)
  | statement {a : Action V} {u : JobsUpdate V} (ha : a.statement = some u) : Issues s a u
  | begins {k : ℕ} {now : Time} {d : Dispatch V} (hk : s.dispatches.get k = some d)
      (hfirst : d.running = false) : Issues s (.markRunning k now) (markRunning d.job.id now)
  | finishes {k : ℕ} {now : Time} {random : ℚ} {result : JobsWireResult V} {d : Dispatch V}
      (hk : s.dispatches.get k = some d) (hrun : d.running = true) :
      Issues s (.finish k now random result) (d.outcome now random result)

/-- A step leaves the table alone, inserts a row, or makes the update that its action comes to. -/
lemma Step.table_cases {t : Sys V} (h : Step s a t) :
    t.table = s.table ∨ (∃ id now job, a = .insertJob id now job ∧ s.table.row id = none ∧
        ∀ k, t.table.row k = if id = k then some (job.toRow id now) else s.table.row k) ∨
      ∃ u, Issues s a u ∧ Writes s.table u t.table := by
  cases h with
  | stays | ends => exact .inl rfl
  | inserts hnew hrow => exact .inr (.inl ⟨_, _, _, rfl, hnew, hrow⟩)
  | claims hwrites hjobs => exact .inr (.inr ⟨_, .claims, hwrites⟩)
  | writes ha hwrites => exact .inr (.inr ⟨_, .statement ha, hwrites⟩)
  | begins hk hfirst hwrites => exact .inr (.inr ⟨_, .begins hk hfirst, hwrites⟩)
  | finishes hk hrun hwrites => exact .inr (.inr ⟨_, .finishes hk hrun, hwrites⟩)

/-- The rule for what holds of every row: it holds of the row that is inserted, and each update
that the action comes to keeps it. -/
lemma Step.forall_rows {t : Sys V} (h : Step s a t) {P : JobRecord V → Prop}
    (hs : ∀ id r, s.table.row id = some r → P r)
    (hinsert : ∀ id now job, a = .insertJob id now job → P (job.toRow id now))
    (hissue : ∀ u, Issues s a u → ∀ id r, s.table.row id = some r → P r → u.filter r →
      P (u.set r)) :
    ∀ id r, t.table.row id = some r → P r := by
  intro id r hr
  rcases h.table_cases with hsame | ⟨id', now, job, ha, -, hrow⟩ | ⟨u, hu, hwrites⟩
  · exact hs id r (hsame ▸ hr)
  · rw [hrow] at hr
    split_ifs at hr
    · exact some.inj hr ▸ hinsert id' now job ha
    · exact hs id r hr
  · obtain ⟨q, hq, ⟨-, rfl⟩ | ⟨hf, rfl⟩⟩ := hwrites.row_inv hr
    · exact hs id r hq
    · exact hissue u hu id q hq (hs id q hq) hf

/-! ## One dispatch for one claim -/

/-- An operator cancels a job only when no dispatch of it is under way, and the leases that a sweep
finds run out are of jobs without a dispatch. -/
def Undisturbed (s : Sys V) : Action V → Prop
  | .cancel id _ => s.dispatches.All fun d => d.job.id ≠ id
  | .sweepLeases now _ =>
    s.dispatches.All fun d => ∀ r ∈ s.table.row d.job.id, r.expired now = false
  | _ => True

/-- The row of a dispatched job is in the dispatch's phase, and no two dispatches are of the same
job. -/
structure Leased (s : Sys V) : Prop where
  holds : ∀ k d, s.dispatches.get k = some d →
    ∃ r, s.table.row d.job.id = some r ∧ r.status = d.phase
  unique : ∀ k l d e, s.dispatches.get k = some d → s.dispatches.get l = some e →
    d.job.id = e.job.id → k = l

variable {k : ℕ}

namespace Leased

variable {s : Sys V} {d : Dispatch V}

variable (hs : Leased s)

include hs

lemma status_eq (hk : s.dispatches.get k = some d) (hr : s.table.row id = some r)
    (hid : r.id = d.job.id) :
    r.status = d.phase := by
  obtain ⟨r', hr', hphase⟩ := hs.holds k d hk
  rw [← hid, key_of_row hr] at hr'
  rw [some.inj (hr.symm.trans hr'), hphase]

lemma busy (hk : s.dispatches.get k = some d) (hr : s.table.row d.job.id = some r) :
    r.status = .claimed ∨ r.status = .running := by
  rw [hs.status_eq hk hr (key_of_row hr)]
  exact d.phase_eq

lemma withTable (hkeep : ∀ k d r, s.dispatches.get k = some d → s.table.row d.job.id = some r →
      ∃ r', t.row d.job.id = some r' ∧ r'.status = r.status) : Leased { s with table := t } where
  holds k d hk := by
    obtain ⟨r, hr, hphase⟩ := hs.holds k d hk
    obtain ⟨r', hr', hstatus⟩ := hkeep k d r hk hr
    exact ⟨r', hr', hstatus.trans hphase⟩
  unique := hs.unique

lemma erase (k : ℕ) : Leased { s with dispatches := s.dispatches.erase k } where
  holds l e hl := hs.holds l e (get_of_get_erase _ hl).2
  unique l m e f hl hm h :=
    hs.unique l m e f (get_of_get_erase _ hl).2 (get_of_get_erase _ hm).2 h

end Leased

variable {d : Dispatch V}

lemma status_of_statement (ha : a.statement = some u) (hok : Undisturbed s a)
    (hk : s.dispatches.get k = some d) (hr : s.table.row d.job.id = some r)
    (hbusy : r.status = .claimed ∨ r.status = .running) : (u.effect r).status = r.status := by
  have hid : r.id = d.job.id := key_of_row hr
  cases a with
  | sweepLeases now random =>
    cases ha
    rw [effect_of_not_filter (hok k d hk r hr)]
  | heartbeat service ids leaseMs now =>
    cases ha
    unfold effect
    split_ifs <;> rfl
  | cancel id now =>
    cases ha
    rw [effect_of_not_filter]
    simp [cancel, hid, hok k d hk]
  | retry id now | wake id now =>
    cases ha
    rw [effect_of_not_filter]
    rcases hbusy with h | h <;> simp [retry, wake, h]
  | _ => exact absurd ha (by simp [Action.statement])

variable {ids : List String} {service : String} {leaseMs now : Time}

lemma claim_filter_of_busy (hbusy : r.status = .claimed ∨ r.status = .running) :
    (claim service leaseMs now ids).filter r = false := by
  rcases hbusy with h | h <;> simp [claim, h]

variable {jobs : List (JobRecord V)}

lemma get_extend_cases {a : SparseArray (Dispatch V)}
    (hk : (a.extend (jobs.map fun job => ⟨service, job, false⟩)).get k = some d) :
    a.get k = some d ∨
      ∃ i job, k = a.length + i ∧ jobs[i]? = some job ∧ d = ⟨service, job, false⟩ := by
  rw [get_extend] at hk
  split_ifs at hk with hlt
  · exact .inl hk
  · rw [List.getElem?_map, map_eq_some_iff] at hk
    obtain ⟨job, hjob, rfl⟩ := hk
    exact .inr ⟨k - a.length, job, by omega, hjob, rfl⟩

lemma Leased.ne_of_claims (hs : Leased s)
    (hjobs : Returning s.table (claim service leaseMs now ids) jobs)
    (hk : s.dispatches.get k = some d) : ∀ job ∈ jobs, job.id ≠ d.job.id := by
  intro job hjob h
  obtain ⟨r, hr, hf, rfl⟩ := (hjobs.mem_iff job).mp hjob
  have hrow : s.table.row d.job.id = some r := h ▸ hr
  rw [claim_filter_of_busy (hs.busy hk hrow)] at hf
  exact Bool.false_ne_true hf

lemma Leased.claims (hs : Leased s) (hwrites : Writes s.table (claim service leaseMs now ids) t)
    (hjobs : Returning s.table (claim service leaseMs now ids) jobs) :
    Leased ⟨t, s.dispatches.extend (jobs.map fun job => ⟨service, job, false⟩)⟩ := by
  constructor
  · -- An old dispatch keeps its row, which a claim does not select; a new one has just got it.
    intro k d hk
    rcases get_extend_cases hk with hk | ⟨i, job, -, hjob, rfl⟩
    · obtain ⟨r, hr, hphase⟩ := hs.holds k d hk
      exact ⟨r, hwrites.row_of_not_filter hr (claim_filter_of_busy (hs.busy hk hr)), hphase⟩
    · obtain ⟨r, hr, hf, rfl⟩ := (hjobs.mem_iff job).mp (List.mem_of_getElem? hjob)
      exact ⟨_, hwrites.row_of_filter hr hf, rfl⟩
  · intro k l d e hk hl h
    rcases get_extend_cases hk with hk | ⟨i, job, rfl, hjob, rfl⟩ <;>
      rcases get_extend_cases hl with hl | ⟨j, job', rfl, hjob', rfl⟩
    · exact hs.unique k l d e hk hl h
    · exact absurd h.symm (hs.ne_of_claims hjobs hk job' (List.mem_of_getElem? hjob'))
    · exact absurd h (hs.ne_of_claims hjobs hl job (List.mem_of_getElem? hjob))
    · -- Two new dispatches of one job are at the same position.
      have hlt : i < (jobs.map (·.id)).length := by
        rw [List.length_map]
        exact (List.getElem?_eq_some_iff.mp hjob).1
      have hget : (jobs.map (·.id))[i]? = (jobs.map (·.id))[j]? := by
        rw [List.getElem?_map, List.getElem?_map, hjob, hjob']
        exact congrArg some h
      rw [(List.getElem?_inj hlt hjobs.nodup).mp hget]

/-- A dispatch that is there when one of them has begun was there before, for the same job. -/
lemma get_set_begun {a : SparseArray (Dispatch V)} {l : ℕ} {e : Dispatch V}
    (hk : a.get k = some d) (hl : (a.set k d.begun).get l = some e) :
    ∃ e', a.get l = some e' ∧ e'.job.id = e.job.id := by
  rw [get_set] at hl
  split_ifs at hl with hkl
  · cases hl
    exact ⟨d, hkl ▸ hk, rfl⟩
  · exact ⟨e, hl, rfl⟩

lemma Step.leased {t : Sys V} (h : Step s a t) (hok : Undisturbed s a) (hs : Leased s) :
    Leased t := by
  cases h with
  | stays => exact hs
  | inserts hnew hrow =>
    refine hs.withTable fun k d r hk hr => ⟨r, ?_, rfl⟩
    rw [hrow, if_neg, hr]
    rintro rfl
    exact absurd (hr.symm.trans hnew) (by simp)
  | claims hwrites hjobs => exact hs.claims hwrites hjobs
  | writes ha hwrites =>
    refine hs.withTable fun k d r hk hr => ⟨_, ?_, status_of_statement ha hok hk hr (hs.busy hk hr)⟩
    rw [hwrites, hr, map_some]
  | begins hk hfirst hwrites =>
    rename_i k now d t
    constructor
    · intro l e hl
      rw [get_set] at hl
      split_ifs at hl with hkl
      · cases hl
        obtain ⟨r, hr, -⟩ := hs.holds k d hk
        have hf : (markRunning d.job.id now).filter r := decide_eq_true (key_of_row hr)
        exact ⟨_, hwrites.row_of_filter hr hf, rfl⟩
      · obtain ⟨r, hr, hphase⟩ := hs.holds l e hl
        have hne : e.job.id ≠ d.job.id := fun h => hkl (hs.unique k l d e hk hl h.symm)
        exact ⟨r, (hwrites.row_of_ne (fun _ => rfl) hne).trans hr, hphase⟩
    · intro l m e f hl hm h
      obtain ⟨e', hl', he⟩ := get_set_begun hk hl
      obtain ⟨f', hm', hf⟩ := get_set_begun hk hm
      exact hs.unique l m e' f' hl' hm' (by rw [he, hf, h])
  | finishes hk hrun hwrites =>
    rename_i k now random result d t
    -- The other dispatches are of other jobs.
    have hrest := hs.erase k
    refine hrest.withTable fun l e r hl hr => ⟨r, ?_, rfl⟩
    obtain ⟨hlk, hl⟩ := get_of_get_erase _ hl
    have hne : e.job.id ≠ d.job.id := fun h => hlk (hs.unique l k e d hl hk h)
    exact (hwrites.row_of_ne (d.outcome_filter now random result) hne).trans hr
  | ends => exact hs.erase _

lemma leased_empty : Leased (Sys.empty : Sys V) := ⟨by simp [Sys.empty], by simp [Sys.empty]⟩

/-- In undisturbed runs a dispatch is the only one of its job, and the job's row is in its phase. -/
lemma run_leased (h : Run step Undisturbed .empty s) : Leased s :=
  h.invariant (fun _ _ _ hs hok hstep => (Step.of_step hstep).leased hok hs) leased_empty

end Fino.Jobs
