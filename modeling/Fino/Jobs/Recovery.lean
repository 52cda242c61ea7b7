import Fino.Jobs.Lifecycle

/-!
# Leases and the recovery of jobs

`sweepLeases` finds the jobs of dead workers if every job in flight has a lease. `markRunning`
writes the status alone, so a job that was cancelled before it is left `running` without a lease
(`cancelled_job_stranded`). If every dispatch finds its job still in flight when it marks it
(`StillClaimed`), a sweep after the lease's end takes the job out of flight
(`in_flight_recoverable`).
-/

namespace Fino.Jobs

open Lib Option
open Workflow (Time)

variable {V : Type} {r : JobRecord V} {a : Action V} {s : Sys V} {u : JobsUpdate V} {id : String}

/-- A worker has the job, or had it when it died. -/
def JobStatus.InFlight (status : JobStatus) : Prop := status = .claimed ∨ status = .running

instance (status : JobStatus) : Decidable status.InFlight :=
  inferInstanceAs (Decidable (status = .claimed ∨ status = .running))

/-- The row has a lease exactly while its job is in flight. -/
structure JobRecord.LeaseExact (r : JobRecord V) : Prop where
  held : r.status.InFlight → r.claimedBy.isSome ∧ r.claimedUntil.isSome
  free : ¬ r.status.InFlight → r.claimedBy = none ∧ r.claimedUntil = none

lemma JobRecord.LeaseExact.of_cleared (hst : ¬ r.status.InFlight) (hby : r.claimedBy = none)
    (huntil : r.claimedUntil = none) : r.LeaseExact where
  held h := absurd h hst
  free _ := ⟨hby, huntil⟩

/-- Every dispatch that marks its job as running finds it in flight. -/
def StillClaimed (s : Sys V) : Action V → Prop
  | .markRunning k _ =>
    ∀ d ∈ s.dispatches.get k, ∀ r ∈ s.table.row d.job.id, r.status.InFlight
  | _ => True

/-! ## Every operation keeps the leases exact -/

lemma statement_leaseExact (ha : a.statement = some u) (hr : r.LeaseExact)
    (hf : u.filter r) :
    (u.set r).LeaseExact := by
  cases a with
  | sweepLeases now random =>
    cases ha
    show ((recover now random r).set r).LeaseExact
    unfold recover
    split_ifs <;> exact .of_cleared (by rintro (h | h) <;> cases h) rfl rfl
  | heartbeat service ids leaseMs now =>
    -- The claimant is the one that the filter asks for; only the end of the lease moves.
    cases ha
    simp only [heartbeat, Bool.and_eq_true, decide_eq_true_eq] at hf
    exact ⟨fun hst => ⟨(hr.held hst).1, rfl⟩, fun hst => absurd hf.1.2 hst⟩
  | cancel id now =>
    cases ha
    exact .of_cleared (by rintro (h | h) <;> cases h) rfl rfl
  | retry id now =>
    -- `retry` and `wake` leave the lease alone: there is none.
    cases ha
    simp only [retry, Bool.and_eq_true, decide_eq_true_eq] at hf
    have hidle : ¬ r.status.InFlight := by
      rcases hf.2 with h | h | h <;> rw [h] <;> decide
    obtain ⟨hby, huntil⟩ := hr.free hidle
    exact .of_cleared (by rintro (h | h) <;> cases h) hby huntil
  | wake id now =>
    cases ha
    simp only [wake, Bool.and_eq_true, decide_eq_true_eq] at hf
    have hidle : ¬ r.status.InFlight := by
      rw [hf.2]
      decide
    obtain ⟨hby, huntil⟩ := hr.free hidle
    exact .of_cleared (by rintro (h | h) <;> cases h) hby huntil
  | _ => exact absurd ha (by simp [Action.statement])

lemma Dispatch.outcome_leaseExact (d : Dispatch V) (now : Time) (random : ℚ)
    (result : JobsWireResult V) (r : JobRecord V) :
    ((d.outcome now random result).set r).LeaseExact := by
  cases result with
  | failed error retryable =>
    simp only [outcome]
    split_ifs <;> exact .of_cleared (by rintro (h | h) <;> cases h) rfl rfl
  | _ => exact .of_cleared (by rintro (h | h) <;> cases h) rfl rfl

lemma Issues.leaseExact (h : Issues s a u) (hok : StillClaimed s a) (hr : s.table.row id = some r)
    (hexact : r.LeaseExact) (hf : u.filter r) : (u.set r).LeaseExact := by
  cases h with
  | claims => exact ⟨fun _ => ⟨rfl, rfl⟩, fun h => absurd (.inl rfl) h⟩
  | statement ha => exact statement_leaseExact ha hexact hf
  | begins hk hfirst =>
    rename_i k now d
    -- The row that is written is the one of the dispatch's job, which still has its lease.
    have hid : d.job.id = id := (of_decide_eq_true hf).symm.trans (Table.key_of_row hr)
    have hflight : r.status.InFlight := hok d hk r (hid ▸ hr)
    exact ⟨fun _ => hexact.held hflight, fun h => absurd (.inr rfl) h⟩
  | finishes hk hrun => exact Dispatch.outcome_leaseExact _ _ _ _ r

lemma Step.leaseExact {t : Sys V} (h : Step s a t) (hok : StillClaimed s a)
    (hs : ∀ id r, s.table.row id = some r → r.LeaseExact) :
    ∀ id r, t.table.row id = some r → r.LeaseExact := by
  refine h.forall_rows hs (fun id now job _ => ?_) fun u hu id r hr hexact hf => ?_
  · exact .of_cleared (by rintro (h | h) <;> cases h) rfl rfl
  · exact hu.leaseExact hok hr hexact hf

/-- In runs in which every dispatch finds its job in flight when it marks it, the leases are
exact. -/
lemma run_leaseExact (h : Run step StillClaimed .empty s) :
    ∀ id r, s.table.row id = some r → r.LeaseExact :=
  h.invariant
    (fun _ _ _ hs hok hstep => (Step.of_step hstep).leaseExact hok hs) (by simp [Sys.empty])

lemma sweep_recovers (s : Sys V) {now : Time} (random : String → ℚ) (hr : s.table.row id = some r)
    (hexpired : r.expired now) :
    ∃ t r', step s (.sweepLeases now random) = some t ∧ t.table.row id = some r' ∧
      (r'.status = .pending ∨ r'.status = .dead) := by
  obtain ⟨⟨t, jobs⟩, hsweep⟩ :=
    isSome_iff_exists.mp (sweepLeases_isSome now random s.table)
  refine ⟨{ s with table := t }, (sweep now random).set r, ?_, ?_, ?_⟩
  · simp only [step, hsweep, Sys.withTable, map_some, getD_some]
  · have hwrites : Writes s.table (sweep now random) t := row_sweepLeases hsweep
    exact hwrites.row_of_filter hr hexpired
  · rw [sweep_status]
    split_ifs
    · exact .inr rfl
    · exact .inl rfl

/-- In a run in which every dispatch finds its job in flight when it marks it as running, a job has
a claimant and a lease exactly while it is `claimed` or `running`, and the next sweep after the
lease's end picks it up. -/
theorem in_flight_recoverable {s : Sys V} (h : Run step StillClaimed .empty s) {id : String}
    {r : JobRecord V} (hr : s.table.row id = some r) :
    (r.status = .claimed ∨ r.status = .running → r.claimedBy.isSome ∧ r.claimedUntil.isSome) ∧
      (r.status = .pending ∨ r.status = .waiting ∨ r.status = .done ∨ r.status = .error ∨
        r.status = .dead ∨ r.status = .cancelled → r.claimedBy = none ∧ r.claimedUntil = none) ∧
      (r.status = .claimed ∨ r.status = .running →
        ∃ claimedUntil, r.claimedUntil = some claimedUntil ∧
          ∀ now random, claimedUntil ≤ now →
            ∃ t r', step s (.sweepLeases now random) = some t ∧ t.table.row id = some r' ∧
              (r'.status = .pending ∨ r'.status = .dead)) := by
  have hexact := run_leaseExact h id r hr
  refine ⟨hexact.held, fun hst => hexact.free ?_, fun hst => ?_⟩
  · rcases hst with h | h | h | h | h | h <;> rw [h] <;> decide
  · obtain ⟨claimedUntil, huntil⟩ := isSome_iff_exists.mp (hexact.held hst).2
    refine ⟨claimedUntil, huntil, fun now random hnow => sweep_recovers s random hr ?_⟩
    rw [JobRecord.expired, huntil, decide_eq_true hst]
    simpa using hnow

instance (s : Sys V) (a : Action V) : Decidable (StillClaimed s a) := by
  induction a using Action.casesOn <;> unfold StillClaimed <;> infer_instance

def Sys.leaseOf (s : Sys ℕ) (id : String) : Option (JobStatus × Option String × Option Time) :=
  (s.table.row id).map fun r => (r.status, r.claimedBy, r.claimedUntil)

/-- A job is cancelled between its claim and `markRunning`: it is `running` without a lease, and no
sweep picks it up. -/
theorem cancelled_job_stranded :
    (exec step .empty [.insertJob "j" 0 someJob, .claimReady "a" 1000 1 1 none, .cancel "j" 2,
        .markRunning 0 3, .crash 0]).bind (·.leaseOf "j") = some (.running, none, none) ∧
      (exec step .empty [.insertJob "j" 0 someJob, .claimReady "a" 1000 1 1 none, .cancel "j" 2,
        .markRunning 0 3, .crash 0, .sweepLeases 1000000000 fun _ => 0]).bind (·.leaseOf "j") =
          some (.running, none, none) := by
  decide +kernel

/-- The job of a worker that died while it ran is recovered. -/
theorem crashed_job_recovered :
    ∃ s r, Run step StillClaimed (.empty : Sys ℕ) s ∧ s.table.row "j" = some r ∧
      r.status = .running ∧ r.claimedUntil = some 1001 ∧
      ∃ t r', step s (.sweepLeases 2000 fun _ => 0) = some t ∧ t.table.row "j" = some r' ∧
        (r'.status = .pending ∨ r'.status = .dead) := by
  have hs : (exec (restrict step StillClaimed) .empty (dispatched ++ [.crash 0])).bind
      (·.leaseOf "j") = some (.running, some "a", some 1001) := by decide +kernel
  obtain ⟨s, -, hrun, hs⟩ := Run.exists_of_exec hs
  obtain ⟨r, hr, hlease⟩ := map_eq_some_iff.mp hs
  simp only [Prod.mk.injEq] at hlease
  obtain ⟨hst, -, huntil⟩ := hlease
  obtain ⟨claimedUntil, huntil', hsweep⟩ :=
    (in_flight_recoverable hrun hr).2.2 (.inr hst)
  obtain rfl := some.inj (huntil.symm.trans huntil')
  exact ⟨s, r, hrun, hr, hst, huntil, hsweep 2000 (fun _ => 0) (by norm_num)⟩

end Fino.Jobs
