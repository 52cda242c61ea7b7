import Fino.Jobs.Lifecycle

/-!
# Counting attempts

A claim counts as an attempt if the row is `pending`, and not if it is `waiting`. `Account`
remembers whether the job was parked and how often its body was started. But `wake` makes a parked
job `pending`, so a woken job is charged for going on (`woken_job_charged`), and `#dispatch` decides
on a retry by the record it was given, though the job may have been claimed anew. Without the two
(`Chargeable`), attempts are counted as they should be (`attempts_accounted`).
-/

namespace Fino.Jobs

open Lib List Option
open Workflow (Time)

variable {V : Type}

structure Account where
  /-- The job was parked, and has not been claimed, recovered or finished since. -/
  resuming : Bool
  /-- The job was parked at some time. -/
  parked : Bool
  /-- The number of times that the processor was called. -/
  starts : ℕ
deriving DecidableEq

abbrev Accounts := String → Account

def noAccounts : Accounts := fun _ => ⟨false, false, 0⟩

/-- The job is in this status. -/
def Sys.Has (s : Sys V) (id : String) (status : JobStatus) : Prop :=
  (s.table.row id).map (·.status) = some status

instance (s : Sys V) (id : String) (status : JobStatus) : Decidable (s.Has id status) :=
  inferInstanceAs (Decidable (_ = _))

/-- The action is the outcome of a dispatch of the job. -/
def Action.Returns (s : Sys V) (id : String) : Action V → Prop
  | .finish k _ _ _ => ∃ d ∈ s.dispatches.get k, d.job.id = id
  | _ => False

instance (s : Sys V) (id : String) (a : Action V) : Decidable (a.Returns s id) := by
  induction a using Action.casesOn <;> unfold Action.Returns <;> infer_instance

def Action.isWake : Action V → Bool
  | .wake .. => true
  | _ => false

/-- The action has just started the body of the job. -/
def Action.startsBody (t : Sys V) (id : String) : Action V → Bool
  | .markRunning k _ => (t.dispatches.get k).any fun d => d.job.id = id
  | _ => false

/-- The accounts after a step. A wake-up leaves a parked job one that goes on. -/
def noteAccounts (g : Accounts) (s : Sys V) (a : Action V) (t : Sys V) : Accounts := fun id =>
  { resuming := t.Has id .waiting ∨ (g id).resuming ∧ (a.isWake ∨
      (t.table.row id).map (·.status) = (s.table.row id).map (·.status) ∧ ¬ a.Returns s id)
    parked := (g id).parked ∨ t.Has id .waiting
    starts := (g id).starts + if a.startsBody t id then 1 else 0 }

def stepAccounting : Sys V × Accounts → Action V → Option (Sys V × Accounts) :=
  watch step noteAccounts

/-- No wake-up finds its job waiting, a dispatch that puts its job back because it has attempts left
finds that the row has too, and operators retry no job. -/
def Chargeable (s : Sys V) : Action V → Prop
  | .retry .. => False
  | .wake id _ => ¬ s.Has id .waiting
  | .finish k _ _ (.failed _ retryable) => ∀ d ∈ s.dispatches.get k,
      retryable ∧ (d.job.attempts : ℤ) < d.job.maxAttempts →
        ∀ r ∈ s.table.row d.job.id, (r.attempts : ℤ) < r.maxAttempts
  | _ => True

/-! ## The bound -/

/-- The attempts of a job, of which a pending one has some left. -/
def JobRecord.WithinBudget (r : JobRecord V) : Prop :=
  1 ≤ r.maxAttempts → (r.attempts : ℤ) ≤ r.maxAttempts ∧
    (r.status = .pending → (r.attempts : ℤ) < r.maxAttempts)

variable {r : JobRecord V} {now : Time}

/-- An update that counts no attempt, and leaves the job pending only with attempts left. -/
lemma JobRecord.WithinBudget.of_eq {r' : JobRecord V} (h : r.WithinBudget)
    (hattempts : r'.attempts = r.attempts) (hmax : r'.maxAttempts = r.maxAttempts)
    (hpending : r'.status = .pending → (r.attempts : ℤ) < r.maxAttempts) : r'.WithinBudget := by
  intro hpos
  rw [hattempts, hmax]
  exact ⟨(h (hmax ▸ hpos)).1, hpending⟩

lemma sweep_attempts (now : Time) (random : String → ℚ) (r : JobRecord V) :
    ((sweep now random).set r).attempts = r.attempts ∧
      ((sweep now random).set r).maxAttempts = r.maxAttempts := by
  show ((recover now random r).set r).attempts = _ ∧ ((recover now random r).set r).maxAttempts = _
  unfold recover
  split_ifs <;> exact ⟨rfl, rfl⟩

lemma Dispatch.outcome_attempts (d : Dispatch V) (now : Time) (random : ℚ)
    (result : JobsWireResult V) (r : JobRecord V) :
    ((d.outcome now random result).set r).attempts = r.attempts ∧
      ((d.outcome now random result).set r).maxAttempts = r.maxAttempts := by
  cases result with
  | failed error retryable =>
    simp only [outcome]
    split_ifs <;> exact ⟨rfl, rfl⟩
  | _ => exact ⟨rfl, rfl⟩

/-- A job is pending after the outcome of a dispatch only if the dispatch puts it back for another
attempt. -/
lemma Dispatch.outcome_pending {d : Dispatch V} {random : ℚ} {result : JobsWireResult V}
    (h : ((d.outcome now random result).set r).status = .pending) :
    ∃ error retryable, result = .failed error retryable ∧ retryable ∧
      (d.job.attempts : ℤ) < d.job.maxAttempts := by
  cases result with
  | failed error retryable =>
    simp only [outcome] at h
    split_ifs at h with hleft
    · exact ⟨error, retryable, rfl, hleft⟩
    · cases h
  | _ => cases h

variable {a : Action V} {u : JobsUpdate V} {s : Sys V}

lemma statement_attempts (ha : a.statement = some u) (hok : Chargeable s a) (r : JobRecord V) :
    (u.set r).attempts = r.attempts ∧ (u.set r).maxAttempts = r.maxAttempts := by
  cases a with
  | sweepLeases now random =>
    cases ha
    exact sweep_attempts now random r
  | heartbeat | cancel | wake =>
    cases ha
    exact ⟨rfl, rfl⟩
  | retry => exact hok.elim
  | _ => exact absurd ha (by simp [Action.statement])

variable {id : String}

/-- A statement that belongs to no dispatch leaves a job pending only if it has attempts left. -/
lemma statement_withinBudget (ha : a.statement = some u) (hok : Chargeable s a)
    (hr : s.table.row id = some r) (hbudget : r.WithinBudget) (hf : u.filter r) :
    (u.set r).WithinBudget := by
  obtain ⟨hattempts, hmax⟩ := statement_attempts ha hok r
  refine hbudget.of_eq hattempts hmax fun hpending => ?_
  cases a with
  | sweepLeases now random =>
    cases ha
    rw [sweep_status] at hpending
    split_ifs at hpending with hleft
    exact not_le.mp hleft
  | heartbeat service ids leaseMs now =>
    cases ha
    simp only [heartbeat, Bool.and_eq_true, decide_eq_true_eq] at hf
    have hst : r.status = .pending := hpending
    rcases hf.1.2 with h | h <;> rw [h] at hst <;> cases hst
  | cancel id now =>
    cases ha
    cases hpending
  | retry => exact hok.elim
  | wake id' now =>
    -- The row would have to be waiting.
    cases ha
    simp only [wake, Bool.and_eq_true, decide_eq_true_eq] at hf
    have hid : id' = id := hf.1.symm.trans (Table.key_of_row hr)
    exact absurd (by rw [Sys.Has, hid, hr, map_some, hf.2]) hok
  | _ => exact absurd ha (by simp [Action.statement])

lemma Issues.withinBudget (h : Issues s a u) (hok : Chargeable s a) (hr : s.table.row id = some r)
    (hbudget : r.WithinBudget) (hf : u.filter r) :
    (u.set r).WithinBudget := by
  cases h with
  | claims =>
    intro hpos
    obtain ⟨hle, hlt⟩ := hbudget hpos
    refine ⟨?_, fun h => by cases h⟩
    show ((r.attempts + if r.status = .pending then 1 else 0 : ℕ) : ℤ) ≤ r.maxAttempts
    split_ifs with hst
    · have := hlt hst
      omega
    · simpa using hle
  | statement ha => exact statement_withinBudget ha hok hr hbudget hf
  | begins hk hfirst => exact hbudget.of_eq rfl rfl fun h => by cases h
  | finishes hk hrun =>
    rename_i k now random result d
    obtain ⟨hattempts, hmax⟩ := d.outcome_attempts now random result r
    refine hbudget.of_eq hattempts hmax fun hpending => ?_
    obtain ⟨error, retryable, rfl, hleft⟩ := Dispatch.outcome_pending hpending
    have hid : id = d.job.id := by
      rw [← Table.key_of_row hr]
      simpa using hf
    exact hok d hk hleft r (hid ▸ hr)

variable {t : Sys V}

lemma Step.withinBudget (h : Step s a t) (hok : Chargeable s a)
    (hs : ∀ id r, s.table.row id = some r → r.WithinBudget) :
    ∀ id r, t.table.row id = some r → r.WithinBudget := by
  refine h.forall_rows hs (fun id now job _ hpos => ?_) fun u hu id r hr hbudget hf => ?_
  · exact ⟨le_trans zero_le_one hpos, fun _ => lt_of_lt_of_le zero_lt_one hpos⟩
  · exact hu.withinBudget hok hr hbudget hf

/-! ## The accounts are balanced -/

variable (dispatches : SparseArray (Dispatch V))

/-- The number of dispatches of the job that have not called the processor yet. -/
def unstarted (id : String) : ℕ :=
  dispatches.count fun d => decide (d.job.id = id) && !d.running

def attemptsOf (t : JobsTable V) (id : String) : ℕ := ((t.row id).map (·.attempts)).getD 0

/-- A job goes on from a park exactly while it is waiting, and the starts of a job that was never
parked have each been counted. -/
structure Balanced (p : Sys V × Accounts) : Prop where
  budget : ∀ id r, p.1.table.row id = some r → r.WithinBudget
  resuming : ∀ id, (p.2 id).resuming = true ↔ p.1.Has id .waiting
  parked : ∀ id, p.1.Has id .waiting → (p.2 id).parked = true
  starts : ∀ id, (p.2 id).parked = false →
    (p.2 id).starts + unstarted p.1.dispatches id ≤ attemptsOf p.1.table id

lemma Writes.attemptsOf_eq {t t' : JobsTable V} (h : Writes t u t')
    (hu : ∀ r, (u.set r).attempts = r.attempts) (id : String) :
    attemptsOf t' id = attemptsOf t id := by
  have heffect : ∀ r, (u.effect r).attempts = r.attempts := by
    intro r
    unfold Update.effect
    split_ifs
    · exact hu r
    · rfl
  simp only [attemptsOf, h id, Option.map_map, Function.comp_def, heffect]

lemma unstarted_extend (service : String) (jobs : List (JobRecord V)) (id : String) :
    unstarted (dispatches.extend (jobs.map fun job => ⟨service, job, false⟩)) id =
      unstarted dispatches id + (jobs.map (·.id)).count id := by
  rw [unstarted, SparseArray.count_extend, countP_map, List.count, countP_map]
  congr 1
  apply countP_congr
  simp

/-- A claim counts one attempt for each job that it claims, if none of them is waiting. -/
lemma claims_attemptsOf_ge {t t' : JobsTable V} {service : String} {leaseMs : Time}
    {ids : List String} {jobs : List (JobRecord V)}
    (hwrites : Writes t (claim service leaseMs now ids) t')
    (hjobs : Returning t (claim service leaseMs now ids) jobs)
    (hwaiting : (t.row id).map (·.status) ≠ some .waiting) :
    attemptsOf t id + (jobs.map (·.id)).count id ≤ attemptsOf t' id := by
  by_cases hmem : id ∈ jobs.map (·.id)
  · -- The job is claimed. It was pending, so the claim counts.
    obtain ⟨job, hjob, rfl⟩ := mem_map.mp hmem
    obtain ⟨r, hr, hf, rfl⟩ := (hjobs.mem_iff job).mp hjob
    have hst : r.status = .pending := by
      have hf' := hf
      simp only [claim, Bool.and_eq_true, decide_eq_true_eq] at hf'
      refine hf'.2.resolve_right fun h => hwaiting ?_
      show (t.row r.id).map (·.status) = _
      rw [hr, map_some, h]
    have hold : attemptsOf t r.id = r.attempts := by
      rw [attemptsOf, hr]
      rfl
    have hnew : attemptsOf t' r.id = r.attempts + 1 := by
      rw [attemptsOf, hwrites.row_of_filter hr hf]
      show r.attempts + (if r.status = .pending then 1 else 0) = _
      rw [if_pos hst]
    have hone := nodup_iff_count_le_one.mp hjobs.nodup r.id
    show attemptsOf t r.id + (jobs.map (·.id)).count r.id ≤ attemptsOf t' r.id
    omega
  · -- The job is not claimed, and its row is as it was.
    have hsame : t'.row id = t.row id := by
      cases hr : t.row id with
      | none => rw [hwrites id, hr, map_none]
      | some r =>
        apply hwrites.row_of_not_filter hr
        by_contra hf
        rw [Bool.not_eq_false] at hf
        have hid : r.id = id := Table.key_of_row hr
        have hjob := (hjobs.mem_iff _).mpr ⟨r, hid ▸ hr, hf, rfl⟩
        exact hmem (mem_map.mpr ⟨_, hjob, hid⟩)
    rw [count_eq_zero_of_not_mem hmem, attemptsOf, attemptsOf, hsame, Nat.add_zero]

lemma Action.startsBody_of_dispatch (ha : a.dispatch = none) (t : Sys V) (id : String) :
    a.startsBody t id = false := by
  cases a with
  | markRunning => exact absurd ha (by simp [Action.dispatch])
  | _ => rfl

lemma Action.startsBody_of_ended {k : ℕ} (ha : a.dispatch = some k) (t : Sys V)
    (hend : t.dispatches.get k = none) (id : String) : a.startsBody t id = false := by
  cases a with
  | markRunning l now =>
    obtain rfl : l = k := Option.some.inj ha
    simp [startsBody, hend]
  | _ => rfl

lemma Step.starts_le (h : Step s a t) (hok : Chargeable s a) {starts : ℕ}
    (hwaiting : ¬ s.Has id .waiting)
    (hstarts : starts + unstarted s.dispatches id ≤ attemptsOf s.table id) :
    (starts + if a.startsBody t id then 1 else 0) + unstarted t.dispatches id ≤
      attemptsOf t.table id := by
  cases h with
  | stays ha =>
    rw [Action.startsBody_of_dispatch ha]
    exact hstarts
  | inserts hnew hrow =>
    rename_i id' now job t
    have hattempts : attemptsOf t id = attemptsOf s.table id := by
      simp only [attemptsOf, hrow]
      split_ifs with hid
      · rw [← hid, hnew]
        rfl
      · rfl
    rw [Action.startsBody_of_dispatch rfl, hattempts]
    exact hstarts
  | claims hwrites hjobs =>
    have hclaim := claims_attemptsOf_ge hwrites hjobs hwaiting
    rw [Action.startsBody_of_dispatch rfl, unstarted_extend]
    simp only [Bool.false_eq_true, if_false]
    omega
  | writes ha hwrites =>
    have hdispatch : a.dispatch = none := by
      cases a <;> first | rfl | exact absurd ha (by simp [Action.statement])
    rw [Action.startsBody_of_dispatch hdispatch,
      hwrites.attemptsOf_eq fun r => (statement_attempts ha hok r).1]
    exact hstarts
  | begins hk hfirst hwrites =>
    rename_i k now d t
    have hset := s.dispatches.count_set (fun d => decide (d.job.id = id) && !d.running) d.begun hk
    have hstart : Action.startsBody ⟨t, s.dispatches.set k d.begun⟩ id
        (.markRunning k now) = decide (d.job.id = id) := by
      simp [Action.startsBody, Dispatch.begun]
    rw [hwrites.attemptsOf_eq fun _ => rfl, hstart]
    -- The dispatch is one of those that have not started, and then one of those that have.
    have hbegun : (decide (d.begun.job.id = id) && !d.begun.running) = false := by
      simp [Dispatch.begun]
    rw [hbegun, hfirst] at hset
    simp only [Bool.not_false, Bool.and_true, Bool.false_eq_true, if_false] at hset
    show (starts + if decide (d.job.id = id) then 1 else 0) +
      unstarted (s.dispatches.set k d.begun) id ≤ attemptsOf s.table id
    unfold unstarted at hstarts ⊢
    omega
  | finishes hk hrun hwrites =>
    rename_i k now random result d t
    have hle := s.dispatches.count_erase_le (fun d => decide (d.job.id = id) && !d.running) k
    rw [hwrites.attemptsOf_eq fun r => (d.outcome_attempts now random result r).1]
    unfold unstarted at hstarts ⊢
    simp only [Action.startsBody, Bool.false_eq_true, if_false]
    omega
  | ends ha hfirst =>
    rename_i k
    have hle := s.dispatches.count_erase_le (fun d => decide (d.job.id = id) && !d.running) k
    rw [Action.startsBody_of_ended ha _ (by simp [SparseArray.get_erase])]
    unfold unstarted at hstarts ⊢
    simp only [Bool.false_eq_true, if_false]
    omega

lemma Step.status_of_wake {id' : String} (h : Step s (.wake id' now) t)
    (hok : Chargeable s (.wake id' now)) (id : String) :
    (t.table.row id).map (·.status) = (s.table.row id).map (·.status) := by
  rcases h.table_cases with hsame | ⟨_, _, _, ha, -⟩ | ⟨u, hu, hwrites⟩
  · rw [hsame]
  · cases ha
  · cases hu with
    | statement ha =>
      cases ha
      cases hr : s.table.row id with
      | none => rw [hwrites id, hr, map_none]
      | some r =>
        rw [hwrites.row_of_not_filter hr]
        by_contra hf
        simp only [wake, Bool.not_eq_false, Bool.and_eq_true, decide_eq_true_eq] at hf
        have hid : id' = id := hf.1.symm.trans (Table.key_of_row hr)
        exact hok (by rw [Sys.Has, hid, hr, map_some, hf.2])

lemma Step.balanced {g : Accounts} (h : Step s a t) (hok : Chargeable s a)
    (hs : Balanced (s, g)) : Balanced (t, noteAccounts g s a t) where
  budget := h.withinBudget hok hs.budget
  resuming id := by
    simp only [noteAccounts, decide_eq_true_eq]
    refine ⟨?_, .inl⟩
    rintro (hwaiting | ⟨hresuming, hwake | ⟨hsame, -⟩⟩)
    · exact hwaiting
    · have hsame : (t.table.row id).map (·.status) = (s.table.row id).map (·.status) := by
        cases a with
        | wake id' now => exact h.status_of_wake hok id
        | _ => cases hwake
      exact hsame.trans ((hs.resuming id).mp hresuming)
    · exact hsame.trans ((hs.resuming id).mp hresuming)
  parked id hwaiting := by simp [noteAccounts, hwaiting]
  starts id hparked := by
    simp only [noteAccounts, decide_eq_false_iff_not, not_or, Bool.not_eq_true] at hparked
    have hwaiting : ¬ s.Has id .waiting := fun hw =>
      absurd (hs.parked id hw) (by simp [hparked.1])
    exact h.starts_le hok hwaiting (hs.starts id hparked.1)

lemma run_balanced {p : Sys V × Accounts}
    (h : Run stepAccounting (fun p => Chargeable p.1) (.empty, noAccounts) p) : Balanced p := by
  refine h.invariant (fun p a q hp hok hstep => ?_) ?_
  · obtain ⟨hstep, hq⟩ := watch_eq_some.mp hstep
    rw [show q = (q.1, noteAccounts p.2 p.1 a q.1) from Prod.ext rfl hq]
    exact (Step.of_step hstep).balanced hok hp
  · exact ⟨by simp [Sys.empty], by simp [noAccounts, Sys.Has, Sys.empty],
      by simp [Sys.Has, Sys.empty], by simp [noAccounts, unstarted, Sys.empty, SparseArray.count]⟩

/-- In a run without `retry` in which no wake-up finds its job waiting, and no dispatch puts a job
back without attempts left, a job has at most the attempts that it may have; a claim counts one,
unless the job goes on from a park; and the body of a job that is never parked is started at most as
often as it may be tried. -/
theorem attempts_accounted {p : Sys V × Accounts}
    (h : Run stepAccounting (fun p => Chargeable p.1) (.empty, noAccounts) p) :
    (∀ id r, p.1.table.row id = some r → 1 ≤ r.maxAttempts → (r.attempts : ℤ) ≤ r.maxAttempts) ∧
      (∀ service leaseMs limit now tasks t, step p.1 (.claimReady service leaseMs limit now tasks) =
        some t → ∀ id r, p.1.table.row id = some r → t.table.row id = some r ∨
          ∃ r', t.table.row id = some r' ∧ r'.status = .claimed ∧
            r'.attempts = if (p.2 id).resuming then r.attempts else r.attempts + 1) ∧
      ∀ id r, p.1.table.row id = some r → 1 ≤ r.maxAttempts → (p.2 id).parked = false →
        ((p.2 id).starts : ℤ) ≤ r.maxAttempts := by
  have hp := run_balanced h
  refine ⟨fun id r hr hpos => (hp.budget id r hr hpos).1, ?_, fun id r hr hpos hparked => ?_⟩
  · intro service leaseMs limit now tasks t hstep id r hr
    rcases (Step.of_step hstep).table_cases with hsame | ⟨_, _, _, ha, -⟩ | ⟨u, hu, hwrites⟩
    · exact .inl (hsame ▸ hr)
    · cases ha
    · cases hu with
      | statement ha => exact absurd ha (by simp [Action.statement])
      | claims =>
        rcases hwrites.row_cases hr with hr' | ⟨hf, hr'⟩
        · exact .inl hr'
        · -- What the claim goes by is the status, and the account says the same.
          refine .inr ⟨_, hr', rfl, ?_⟩
          simp only [claim, Bool.and_eq_true, decide_eq_true_eq] at hf
          have hresuming : (p.2 id).resuming = true ↔ r.status = .waiting := by
            rw [hp.resuming id, Sys.Has, hr, map_some, Option.some.injEq]
          show r.attempts + (if r.status = .pending then 1 else 0) = _
          rcases hf.2 with hst | hst
          · rw [if_pos hst, if_neg]
            rw [hresuming, hst]
            decide
          · rw [if_pos (hresuming.mpr hst), if_neg (by rw [hst]; decide), Nat.add_zero]
  · have hstarts := hp.starts id hparked
    have hattempts : attemptsOf p.1.table id = r.attempts := by
      rw [attemptsOf, hr]
      rfl
    have hbound := (hp.budget id r hr hpos).1
    omega

instance (s : Sys V) (a : Action V) : Decidable (Chargeable s a) := by
  induction a using Action.casesOn with
  | finish k now random result =>
    induction result using JobsWireResult.casesOn <;> unfold Chargeable <;> infer_instance
  | _ => unfold Chargeable; infer_instance

/-- Whether the job goes on from a park, its attempts, how many it may have, and its starts. -/
def counted (p : Sys ℕ × Accounts) : Option (Bool × ℕ × ℤ × ℕ) :=
  (p.1.table.row "j").map fun r =>
    ((p.2 "j").resuming, r.attempts, r.maxAttempts, (p.2 "j").starts)

/-- A durable job that may be tried once is parked, and a signal wakes it up. -/
def wokenUp : List (Action ℕ) :=
  [.insertJob "j" 0 { someJob with maxAttempts := some 1 }, .claimReady "a" 1000 1 1 none,
    .markRunning 0 2, .finish 0 3 0 (.parked "job-j" (.signal "ok" "ok" 0 none)), .wake "j" 4]

/-- The claim with which the job goes on counts as an attempt, which is one more than it has. -/
theorem woken_job_charged :
    (exec stepAccounting (.empty, noAccounts) wokenUp).bind counted = some (true, 1, 1, 1) ∧
      (exec stepAccounting (.empty, noAccounts)
        (wokenUp ++ [.claimReady "a" 1000 1 5 none])).bind counted = some (false, 2, 1, 1) := by
  decide +kernel

/-- A job that is tried twice is started twice, and may be tried three times. -/
theorem failed_job_counted :
    ∃ p : Sys ℕ × Accounts, ∃ r,
      Run stepAccounting (fun p => Chargeable p.1) (.empty, noAccounts) p ∧
      p.1.table.row "j" = some r ∧ r.attempts = 2 ∧ (p.2 "j").starts = 2 ∧ r.maxAttempts = 3 ∧
      (r.attempts : ℤ) ≤ r.maxAttempts ∧ ((p.2 "j").starts : ℤ) ≤ r.maxAttempts := by
  have hp : (exec (restrict stepAccounting fun p => Chargeable p.1) (.empty, noAccounts)
      (dispatched ++ [.finish 0 3 0 (.failed ⟨"no", none⟩ true), .claimReady "a" 1000 1 5000 none,
        .markRunning 1 5001])).bind (fun p => (counted p).map fun c => (c, (p.2 "j").parked)) =
      some ((false, 2, 3, 2), false) := by decide +kernel
  obtain ⟨p, -, hrun, hp⟩ := Run.exists_of_exec hp
  obtain ⟨c, hc, hp⟩ := map_eq_some_iff.mp hp
  obtain ⟨r, hr, rfl⟩ := map_eq_some_iff.mp hc
  simp only [Prod.mk.injEq] at hp
  obtain ⟨⟨-, hattempts, hmax, hstarts⟩, hparked⟩ := hp
  obtain ⟨hbound, -, hbody⟩ := attempts_accounted hrun
  exact ⟨p, r, hrun, hr, hattempts, hstarts, hmax, hbound "j" r hr (by omega),
    hbody "j" r hr (by omega) hparked⟩

end Fino.Jobs
