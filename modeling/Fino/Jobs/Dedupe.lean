import Fino.Jobs.Lifecycle

/-!
# Dedupe keys

`idx_jobs_dedupe` lets at most one active job have a key in a queue. `insertJob` gives way to the
job that has the key; the operations that run into the index are those that make a finished job
active again, `retry` and the writes of a dispatch whose job was finished by someone else
(`retry_collides`). `dedupe_exact` says that these are all.
-/

namespace Fino.Jobs

open Lib Option JobStatus Table
open Workflow (Time)

variable {V : Type}

/-- Another job is active under the dedupe key of the row. -/
def KeyTaken (t : JobsTable V) (r : JobRecord V) : Prop :=
  ∃ q ∈ t.rows, q.id ≠ r.id ∧ r.dedupeKey.isSome ∧ q.queue = r.queue ∧
    q.dedupeKey = r.dedupeKey ∧ q.status.Active

/-- With this result, a dispatch leaves its job active: parked, or put back for another attempt. -/
def Dispatch.LeavesActive (d : Dispatch V) : JobsWireResult V → Prop
  | .parked .. => True
  | .ok _ => False
  | .failed _ retryable => retryable = true ∧ (d.job.attempts : ℤ) < d.job.maxAttempts

/-- No finished job is made active under a key that another active job has. -/
def KeyFree (s : Sys V) : Action V → Prop
  | .retry id _ => ∀ r ∈ s.table.row id,
      r.status = .dead ∨ r.status = .error ∨ r.status = .cancelled → ¬ KeyTaken s.table r
  | .markRunning k _ => ∀ d ∈ s.dispatches.get k, d.running = false →
      ∀ r ∈ s.table.row d.job.id, ¬ r.status.Active → ¬ KeyTaken s.table r
  | .finish k _ _ result => ∀ d ∈ s.dispatches.get k, d.running = true → d.LeavesActive result →
      ∀ r ∈ s.table.row d.job.id, ¬ r.status.Active → ¬ KeyTaken s.table r
  | _ => True

/-- The operation throws: the database refuses the rows that it would leave. -/
def Throws (s : Sys V) : Action V → Prop
  | .insertJob id now job => insertJob id now job s.table = none
  | .claimReady service leaseMs limit now tasks =>
    claimReady service leaseMs limit now tasks s.table = none
  | .markRunning k now => ∃ d ∈ s.dispatches.get k, d.running = false ∧
      s.table.update (markRunning d.job.id now) = none
  | .finish k now random result => ∃ d ∈ s.dispatches.get k, d.running = true ∧
      s.table.update (d.outcome now random result) = none
  | .crash _ => False
  | .sweepLeases now random => sweepLeases now random s.table = none
  | .heartbeat service ids leaseMs now => s.table.update (heartbeat service ids leaseMs now) = none
  | .cancel id now => reporting (cancel id now) s.table = none
  | .retry id now => reporting (retry id now) s.table = none
  | .wake id now => reporting (wake id now) s.table = none

/-! ## Updates of one row -/

variable {t : JobsTable V} {u : JobsUpdate V} {r : JobRecord V}

/-- An update of one row runs into the index exactly when it makes a finished job active whose key
is taken. -/
lemma collides_iff (hslot : KeepsSlot u)
    (hone : ∀ r q, u.filter r → u.filter q → r.id = q.id) :
    t.Collides u ↔ ∃ r ∈ t.rows, u.filter r ∧ (u.set r).status.Active ∧
      ¬ r.status.Active ∧ KeyTaken t r := by
  constructor
  · rintro ⟨a, ha, b, hb, hne, hsame⟩
    have hbefore := t.not_clash ha hb hne
    -- One of the two has become active, so it is the row that is updated, and the other is not.
    have key : ∀ a ∈ t.rows, ∀ b ∈ t.rows, a.id ≠ b.id → (u.effect a).SameSlot (u.effect b) →
        u.filter a → ¬ a.SameSlot b → ∃ r ∈ t.rows, u.filter r ∧
          (u.set r).status.Active ∧ ¬ r.status.Active ∧ KeyTaken t r := by
      rintro a ha b hb hne ⟨hsome, hq, hk, hactivea, hactiveb⟩ hf hbefore
      obtain ⟨hqa, hka⟩ := hslot.effect a
      have hfb : u.filter b = false := by
        by_contra h
        exact hne (hone a b hf (by simpa using h))
      rw [hka] at hsome hk
      rw [hqa] at hq
      rw [Update.effect_of_not_filter hfb] at hq hk hactiveb
      rw [Update.effect_of_filter hf] at hactivea
      refine ⟨a, ha, hf, hactivea, fun hact => hbefore ⟨hsome, hq, hk, hact, hactiveb⟩, b, hb, ?_⟩
      exact ⟨hne.symm, hsome, hq.symm, hk.symm, hactiveb⟩
    cases hfa : u.filter a with
    | true => exact key a ha b hb hne hsame hfa hbefore
    | false =>
      cases hfb : u.filter b with
      | true =>
        exact key b hb a ha hne.symm (Std.Symm.symm _ _ hsame) hfb fun h =>
          hbefore (Std.Symm.symm _ _ h)
      | false =>
        rw [Update.effect_of_not_filter hfa, Update.effect_of_not_filter hfb] at hsame
        exact absurd hsame hbefore
  · rintro ⟨r, hr, hf, hactive, -, q, hq, hne, hsome, hqueue, hkey, hqactive⟩
    have hfq : u.filter q = false := by
      by_contra h
      exact hne (hone q r (by simpa using h) hf)
    obtain ⟨hqr, hkr⟩ := hslot.effect r
    refine ⟨r, hr, q, hq, hne.symm, ?_⟩
    rw [Update.effect_of_not_filter hfq]
    refine ⟨by rw [hkr]; exact hsome, by rw [hqr, hqueue], by rw [hkr, hkey], ?_, hqactive⟩
    rw [Update.effect_of_filter hf]
    exact hactive

lemma update_eq_none_iff (id : String) (hslot : KeepsSlot u)
    (hid : ∀ r, u.filter r → r.id = id) :
    t.update u = none ↔ ∃ r, t.row id = some r ∧ u.filter r ∧ (u.set r).status.Active ∧
      ¬ r.status.Active ∧ KeyTaken t r := by
  have hone : ∀ r q, u.filter r → u.filter q → r.id = q.id :=
    fun r q hr hq => (hid r hr).trans (hid q hq).symm
  rw [← not_isSome_iff_eq_none, update_isSome_iff, not_not, collides_iff hslot hone]
  constructor
  · rintro ⟨r, hr, hf, hrest⟩
    exact ⟨r, row_eq_some.mpr ⟨hr, hid r hf⟩, hf, hrest⟩
  · rintro ⟨r, hr, hrest⟩
    exact ⟨r, (row_eq_some.mp hr).1, hrest⟩

variable (d : Dispatch V)

lemma Dispatch.outcome_keepsSlot (now : Time) (random : ℚ)
    (result : JobsWireResult V) : KeepsSlot (d.outcome now random result) := by
  cases result with
  | failed error retryable =>
    simp only [outcome]
    split_ifs <;> exact ⟨fun _ => rfl, fun _ => rfl⟩
  | _ => exact ⟨fun _ => rfl, fun _ => rfl⟩

lemma Dispatch.outcome_active_iff (now : Time) (random : ℚ) (result : JobsWireResult V)
    (r : JobRecord V) :
    ((d.outcome now random result).set r).status.Active ↔ d.LeavesActive result := by
  cases result with
  | parked => exact iff_of_true (by simp [outcome, markWaiting, update, JobRecord.touched,
      Active]) trivial
  | ok => exact iff_of_false (by simp [outcome, markDone, update, JobRecord.touched,
      Active]) id
  | failed error retryable =>
    simp only [outcome, LeavesActive]
    split_ifs with h
    · exact iff_of_true (by simp [markRetry, update, JobRecord.touched, Active]) h
    · exact iff_of_false (by simp [markDead, update, JobRecord.touched, Active]) h

/-! ## Which operations throw -/

lemma claimReady_isSome (claimedBy : String) (leaseMs : Time) (limit : ℕ) (now : Time)
    (tasks : Option (List String)) (t : JobsTable V) :
    (claimReady claimedBy leaseMs limit now tasks t).isSome := by
  unfold claimReady
  split_ifs
  · rfl
  · rw [isSome_map]
    refine update_isSome_of_active ⟨fun _ => rfl, fun _ => rfl⟩ fun r _ hf _ => ?_
    simp only [claim, Bool.and_eq_true, decide_eq_true_eq] at hf
    rcases hf.2 with h | h <;> simp [h, Active]

lemma heartbeat_isSome (claimedBy : String) (ids : List String) (leaseMs now : Time)
    (t : JobsTable V) : (t.update (heartbeat claimedBy ids leaseMs now)).isSome :=
  update_isSome_of_active ⟨fun _ => rfl, fun _ => rfl⟩ fun _ _ _ h => h

variable (id : String) (now : Time)

lemma cancel_isSome (t : JobsTable V) : (t.update (cancel id now)).isSome := by
  refine update_isSome_of_active ⟨fun _ => rfl, fun _ => rfl⟩ fun r _ _ hactive => ?_
  exact absurd hactive (by simp [cancel, Active])

lemma retry_eq_none_iff (t : JobsTable V) :
    t.update (retry id now) = none ↔ ∃ r, t.row id = some r ∧
      (r.status = .dead ∨ r.status = .error ∨ r.status = .cancelled) ∧ KeyTaken t r := by
  rw [update_eq_none_iff id ⟨fun _ => rfl, fun _ => rfl⟩
    (fun r hf => by simp only [retry, Bool.and_eq_true, decide_eq_true_eq] at hf; exact hf.1)]
  constructor
  · rintro ⟨r, hr, hf, -, -, htaken⟩
    simp only [retry, Bool.and_eq_true, decide_eq_true_eq] at hf
    exact ⟨r, hr, hf.2, htaken⟩
  · rintro ⟨r, hr, hst, htaken⟩
    refine ⟨r, hr, ?_, by simp [retry, Active], ?_, htaken⟩
    · simp only [retry, Bool.and_eq_true, decide_eq_true_eq]
      exact ⟨key_of_row hr, hst⟩
    · rcases hst with h | h | h <;> rw [h] <;> decide

lemma markRunning_eq_none_iff (t : JobsTable V) :
    t.update (markRunning id now) = none ↔
      ∃ r, t.row id = some r ∧ ¬ r.status.Active ∧ KeyTaken t r := by
  rw [update_eq_none_iff id ⟨fun _ => rfl, fun _ => rfl⟩ fun _ hf => of_decide_eq_true hf]
  constructor
  · rintro ⟨r, hr, -, -, hrest⟩
    exact ⟨r, hr, hrest⟩
  · rintro ⟨r, hr, hrest⟩
    exact ⟨r, hr, decide_eq_true (key_of_row hr), .tail _ (.tail _ (.head _)), hrest⟩

lemma outcome_eq_none_iff (random : ℚ) (result : JobsWireResult V) (t : JobsTable V) :
    t.update (d.outcome now random result) = none ↔ d.LeavesActive result ∧
      ∃ r, t.row d.job.id = some r ∧ ¬ r.status.Active ∧ KeyTaken t r := by
  rw [update_eq_none_iff d.job.id (d.outcome_keepsSlot now random result)
    fun r hf => by simpa using hf]
  constructor
  · rintro ⟨r, hr, -, hactive, hrest⟩
    exact ⟨(d.outcome_active_iff now random result r).mp hactive, r, hr, hrest⟩
  · rintro ⟨hleaves, r, hr, hrest⟩
    refine ⟨r, hr, ?_, (d.outcome_active_iff now random result r).mpr hleaves, hrest⟩
    rw [Dispatch.outcome_filter]
    exact decide_eq_true (key_of_row hr)

/-- The operations other than an insertion throw exactly when a finished job would become active
under a key that is taken. -/
lemma not_throws_iff_keyFree (s : Sys V) (a : Action V)
    (ha : ∀ id now job, a ≠ .insertJob id now job) : ¬ Throws s a ↔ KeyFree s a := by
  cases a with
  | insertJob id now job => exact absurd rfl (ha id now job)
  | claimReady service leaseMs limit now tasks =>
    have hsome := isSome_iff_ne_none.mp (claimReady_isSome service leaseMs limit now tasks s.table)
    exact iff_of_true (fun h => hsome h) trivial
  | markRunning k now =>
    simp only [Throws, KeyFree, markRunning_eq_none_iff]
    push Not
    rfl
  | finish k now random result =>
    simp only [Throws, KeyFree, outcome_eq_none_iff]
    push Not
    rfl
  | crash k => exact iff_of_true id trivial
  | sweepLeases now random =>
    exact iff_of_true (fun h => isSome_iff_ne_none.mp (sweepLeases_isSome now random s.table) h)
      trivial
  | heartbeat service ids leaseMs now =>
    have hsome := isSome_iff_ne_none.mp (heartbeat_isSome service ids leaseMs now s.table)
    exact iff_of_true (fun h => hsome h) trivial
  | cancel id now =>
    have hsome := isSome_iff_ne_none.mp (cancel_isSome id now s.table)
    exact iff_of_true (fun h => hsome (map_eq_none_iff.mp h)) trivial
  | retry id now =>
    simp only [Throws, KeyFree, reporting, map_eq_none_iff, retry_eq_none_iff]
    push Not
    rfl
  | wake id now =>
    have hsome := isSome_iff_ne_none.mp (wake_isSome id now s.table)
    exact iff_of_true (fun h => hsome (map_eq_none_iff.mp h)) trivial

/-- Some active job has the key of a job that is pushed. -/
def InsertJob.TakenBy (job : InsertJob V) (r : JobRecord V) : Prop :=
  job.dedupeKey.isSome ∧ r.queue = job.queue ∧ r.dedupeKey = job.dedupeKey ∧ r.status.Active

lemma sameSlot_toRow_iff (job : InsertJob V) (id : String) (now : Time) (r : JobRecord V) :
    r.SameSlot (job.toRow id now) ↔ job.TakenBy r := by
  constructor
  · rintro ⟨hsome, hqueue, hkey, hactive, -⟩
    have hkey : r.dedupeKey = job.dedupeKey := hkey
    exact ⟨hkey ▸ hsome, hqueue, hkey, hactive⟩
  · rintro ⟨hsome, hqueue, hkey, hactive⟩
    exact ⟨hkey ▸ hsome, hqueue, hkey, hactive, .head _⟩

lemma eq_of_sameSlot {q : JobRecord V} (hq : q ∈ t.rows) (hr : r ∈ t.rows)
    (h : q.SameSlot r) : q = r := by
  by_contra hne
  have hid : q.id ≠ r.id := fun h' => hne (List.inj_on_of_nodup_map t.keys_nodup hq hr h')
  exact t.not_clash hq hr hid h

variable {job : InsertJob V}

lemma insertJob_of_taken (hr : r ∈ t.rows) (htaken : job.TakenBy r) (id : String) (now : Time) :
    insertJob id now job t = some (t, r, true) := by
  obtain ⟨key, hkey⟩ := isSome_iff_exists.mp htaken.1
  have hany : (t.rows.any fun q => decide (q.SameSlot (job.toRow id now))) :=
    List.any_eq_true.mpr ⟨r, hr, decide_eq_true ((sameSlot_toRow_iff job id now r).mpr htaken)⟩
  obtain ⟨hsome, hqueue, hrkey, hactive⟩ := htaken
  -- The row that the lookup finds has the same entry in the index as `r`.
  have hfind : findActiveByDedupe job.queue (job.dedupeKey.getD "") t = some r := by
    rw [hkey, getD_some]
    cases hf : findActiveByDedupe job.queue key t with
    | none =>
      refine absurd (List.find?_eq_none.mp hf r hr) ?_
      simp [hqueue, hrkey, hkey, hactive]
    | some q =>
      have hmem : q ∈ t.rows := List.mem_of_find?_eq_some hf
      have hfound := List.find?_some hf
      obtain ⟨hq, hk, ha⟩ := of_decide_eq_true hfound
      rw [eq_of_sameSlot hmem hr ⟨by rw [hk]; rfl, hq.trans hqueue.symm, ?_, ha, hactive⟩]
      rw [hk, hrkey, hkey]
  simp only [insertJob]
  rw [if_pos hany, hfind, map_some]

lemma insertJob_of_free {id : String} (hid : t.row id = none)
    (hfree : ∀ r ∈ t.rows, ¬ job.TakenBy r) (now : Time) :
    ∃ t', insertJob id now job t = some (t', job.toRow id now, false) ∧
      t'.rows = t.rows ++ [job.toRow id now] := by
  have hclash : ∀ q ∈ t.rows, ¬ q.SameSlot (job.toRow id now) := by
    intro q hq h
    exact hfree q hq ((sameSlot_toRow_iff job id now q).mp h)
  have hany : (t.rows.any fun q => decide (q.SameSlot (job.toRow id now))) = false := by
    rw [List.any_eq_false]
    intro q hq
    rw [decide_eq_true_eq]
    exact hclash q hq
  obtain ⟨t', ht'⟩ := isSome_iff_exists.mp (insert_isSome hid hclash)
  refine ⟨t', ?_, commit_eq_some.mp ht'⟩
  simp only [insertJob]
  rw [if_neg (by simp [hany]), ht', map_some]

/-- At most one job is active under a key; a push under a taken key returns its job, and one under a
free key inserts one pending row; every other operation goes through exactly when it does not make a
finished job active under a key that another active job has. -/
theorem dedupe_exact (s : Sys V) :
    (∀ q ∈ s.table.rows, ∀ r ∈ s.table.rows, q.dedupeKey.isSome → q.queue = r.queue →
        q.dedupeKey = r.dedupeKey → q.status.Active → r.status.Active → q = r) ∧
      (∀ id now job, s.table.row id = none →
        (∀ r ∈ s.table.rows, job.TakenBy r →
          insertJob id now job s.table = some (s.table, r, true)) ∧
        ((∀ r ∈ s.table.rows, ¬ job.TakenBy r) →
          ∃ t, insertJob id now job s.table = some (t, job.toRow id now, false) ∧
            t.rows = s.table.rows ++ [job.toRow id now])) ∧
      ∀ a, (∀ id now job, a ≠ .insertJob id now job) → (¬ Throws s a ↔ KeyFree s a) := by
  refine ⟨?_, ?_, not_throws_iff_keyFree s⟩
  · intro q hq r hr hsome hqueue hkey hactiveq hactiver
    exact eq_of_sameSlot hq hr ⟨hsome, hqueue, hkey, hactiveq, hactiver⟩
  · intro id now job hid
    exact ⟨fun r hr htaken => insertJob_of_taken hr htaken id now,
      fun hfree => insertJob_of_free hid hfree now⟩

def keyedJob : InsertJob ℕ := { someJob with dedupeKey := some "k" }

/-- The job `j` is pushed under the key, claimed and begun. -/
def keyedDispatched : List (Action ℕ) :=
  [.insertJob "j" 0 keyedJob, .claimReady "a" 1000 1 1 none, .markRunning 0 2]

/-- A second push under the key returns the first job, which the table has once. -/
theorem second_push_returns_first :
    ∃ s : Sys ℕ, ∃ r, exec step .empty keyedDispatched = some s ∧
      s.table.row "j" = some r ∧ r.status = .running ∧
      insertJob "j2" 3 keyedJob s.table = some (s.table, r, true) := by
  have hs : (exec step .empty keyedDispatched).bind (fun s => (s.table.row "j").bind fun r =>
      if keyedJob.dedupeKey.isSome ∧ r.queue = keyedJob.queue ∧ r.dedupeKey = keyedJob.dedupeKey ∧
        s.table.row "j2" = none then some r.status else none) = some .running := by
    decide +kernel
  obtain ⟨s, hs, h⟩ := bind_eq_some_iff.mp hs
  obtain ⟨r, hr, h⟩ := bind_eq_some_iff.mp h
  obtain ⟨⟨hsome, hqueue, hkey, hnew⟩, hst⟩ := ite_none_right_eq_some.mp h
  have hrunning : r.status = .running := Option.some.inj hst
  refine ⟨s, r, hs, hr, hrunning, ?_⟩
  exact ((dedupe_exact s).2.1 "j2" 3 keyedJob hnew).1 r (row_eq_some.mp hr).1
    ⟨hsome, hqueue, hkey, by rw [hrunning]; decide⟩

/-- A job fails for good, its key goes to another, and `retry` throws. A job is cancelled while it
runs, its key goes to another, and `markRetry` throws. -/
theorem retry_collides :
    (exec step .empty (keyedDispatched ++ [.finish 0 3 0 (.failed ⟨"no", none⟩ false),
        .insertJob "j2" 4 keyedJob])).map (fun s =>
          (s.statusOf "j", s.statusOf "j2", (reporting (retry "j" 5) s.table).isNone)) =
        some (some .dead, some .pending, true) ∧
      (exec step .empty (keyedDispatched ++ [.cancel "j" 3, .insertJob "j2" 4 keyedJob])).map
        (fun s => (s.statusOf "j", s.statusOf "j2", (s.dispatches.get 0).map fun d =>
          (s.table.update (d.outcome 5 0 (.failed ⟨"no", none⟩ true))).isNone)) =
        some (some .cancelled, some .pending, some true) := by
  decide +kernel

end Fino.Jobs
