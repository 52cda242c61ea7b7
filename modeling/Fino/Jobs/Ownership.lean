import Fino.Jobs.Lifecycle

/-!
# Who writes the row of a claimed job

A claim does not name the dispatch that it was made for, and the `mark*` operations compare nothing;
`Claim` remembers the dispatch and those that have written the row since. Once a lease is swept and
the job claimed again, the dispatch that lost it can still write the row
(`stale_outcome_overwrites`). In undisturbed runs it cannot (`lease_ownership`).
-/

namespace Fino.Jobs

open Lib Option
open Workflow (Time)

variable {V : Type}

/-! ## Claims and their writers -/

/-- The last claim of a job: the dispatch that it was made for, and the dispatches that have written
the row since. -/
structure Claim where
  owner : ℕ
  writers : List ℕ
deriving DecidableEq

/-- The claim after a write by the dispatch `k`. -/
def Claim.writtenBy (c : Claim) (k : ℕ) : Claim := { c with writers := c.writers ++ [k] }

/-- The last claim of each job that has been claimed. -/
abbrev Claims := String → Option Claim

/-- The new claims, by the dispatches that a step has added. -/
def newOwner (s t : Sys V) (id : String) : Option ℕ :=
  ((t.dispatches.drop s.dispatches.length).findIdx? fun o =>
    o.any fun d => decide (d.job.id = id)).map
    (s.dispatches.length + ·)

def noteClaims (g : Claims) (s : Sys V) (a : Action V) (t : Sys V) : Claims := fun id =>
  match a with
  | .claimReady .. =>
    match newOwner s t id with
    | some k => some ⟨k, []⟩
    | none => g id
  | .markRunning k _ | .finish k _ _ _ =>
    if (s.dispatches.get k).any fun d => decide (d.job.id = id) then (g id).map (·.writtenBy k)
    else g id
  | _ => g id

def stepNotingClaims : Sys V × Claims → Action V → Option (Sys V × Claims) := watch step noteClaims

def noClaims : Sys V × Claims := (.empty, fun _ => none)

/-- The condition `Undisturbed` on the system, whatever the history. -/
def UndisturbedClaims (p : Sys V × Claims) (a : Action V) : Prop := Undisturbed p.1 a

/-! ## A dispatch holds the claim of its job -/

/-- A dispatch is the owner of its job's claim, a `claimed` or `running` job has a claim, and only
the owner has written since. -/
structure Owned (p : Sys V × Claims) : Prop where
  leased : Leased p.1
  owner : ∀ k d, p.1.dispatches.get k = some d → ∃ c, p.2 d.job.id = some c ∧ c.owner = k
  claimed : ∀ id r, p.1.table.row id = some r → r.status = .claimed ∨ r.status = .running →
    (p.2 id).isSome
  writers : ∀ id c, p.2 id = some c → ∀ w ∈ c.writers, w = c.owner

variable {jobs : List (JobRecord V)} {s : Sys V} {service : String}

/-- The job that is at position `i` of those claimed is dispatched as number `i` of the new ones. -/
lemma newOwner_of_claims {t : JobsTable V} (service : String) (hnodup : (jobs.map (·.id)).Nodup)
    {i : ℕ} {job : JobRecord V} (hi : jobs[i]? = some job) :
    newOwner s ⟨t, s.dispatches.extend (jobs.map fun job => ⟨service, job, false⟩)⟩ job.id =
      some (s.dispatches.length + i) := by
  obtain ⟨hlt, hget⟩ := List.getElem?_eq_some_iff.mp hi
  unfold newOwner SparseArray.extend
  rw [List.drop_left, List.map_map, List.findIdx?_map, map_eq_some_iff]
  refine ⟨i, List.findIdx?_eq_some_iff_getElem.mpr ⟨hlt, by simp [hget], fun j hj => ?_⟩, rfl⟩
  -- Another job at an earlier position would have the same id.
  have hne : jobs[j].id ≠ job.id := by
    intro h
    have hidx := (List.getElem?_inj (j := i) (by simpa using hj.trans hlt) hnodup).mp (by
      rw [List.getElem?_map, List.getElem?_map, hi, List.getElem?_eq_getElem (hj.trans hlt)]
      exact congrArg some h)
    omega
  simpa using hne

lemma newOwner_eq_none {t : JobsTable V} {id : String} (h : ∀ job ∈ jobs, job.id ≠ id) :
    newOwner s ⟨t, s.dispatches.extend (jobs.map fun job => ⟨service, job, false⟩)⟩ id = none := by
  unfold newOwner SparseArray.extend
  rw [List.drop_left, List.map_map, List.findIdx?_map, map_eq_none_iff, List.findIdx?_eq_none_iff]
  intro job hjob
  simpa using h job hjob

variable {a : Action V} {g : Claims}

lemma noteClaims_of_stays (ha : a.dispatch = none) : noteClaims g s a s = g := by
  funext id
  cases a with
  | claimReady => simp [noteClaims, newOwner]
  | markRunning | finish | crash => exact absurd ha (by simp [Action.dispatch])
  | _ => rfl

variable {t : Sys V} {k : ℕ} {u : JobsUpdate V}

lemma noteClaims_of_statement (ha : a.statement = some u) : noteClaims g s a t = g := by
  cases a with
  | claimReady | markRunning | finish => exact absurd ha (by simp [Action.statement])
  | _ => rfl

/-- A step of the dispatch `k` leaves the claims as they are, or adds `k` to the writers of its
job's. -/
lemma noteClaims_of_dispatch (ha : a.dispatch = some k) (id : String) :
    noteClaims g s a t id = g id ∨ ∃ d, s.dispatches.get k = some d ∧ d.job.id = id ∧
        noteClaims g s a t id = (g id).map (·.writtenBy k) := by
  cases a with
  | markRunning l now | finish l now random result =>
    obtain rfl := Option.some.inj ha
    simp only [noteClaims]
    cases hd : s.dispatches.get l with
    | none => exact .inl rfl
    | some d =>
      split_ifs with h
      · exact .inr ⟨d, rfl, of_decide_eq_true h, rfl⟩
      · exact .inl rfl
  | crash l => exact .inl rfl
  | _ => exact absurd ha (by simp [Action.dispatch])

variable {p : Sys V × Claims}

/-- A step of a dispatch keeps the claims and their owners, and no one but an owner has written. -/
lemma Owned.claims_of_dispatch (hp : Owned p) (ha : a.dispatch = some k) (id : String) :
    (noteClaims p.2 p.1 a t id).map (·.owner) = (p.2 id).map (·.owner) ∧
      ∀ c, noteClaims p.2 p.1 a t id = some c → ∀ w ∈ c.writers, w = c.owner := by
  rcases noteClaims_of_dispatch ha id with h | ⟨d, hd, rfl, h⟩
  · rw [h]
    exact ⟨rfl, hp.writers id⟩
  · obtain ⟨c, hc, hown⟩ := hp.owner k d hd
    rw [h, hc]
    refine ⟨rfl, fun c' hc' w hw => ?_⟩
    cases hc'
    rcases List.mem_append.mp hw with hw | hw
    · exact hp.writers _ c hc w hw
    · exact (List.mem_singleton.mp hw).trans hown.symm

/-- A step of a dispatch, after which every dispatch is of a job that it was of before, and no job
is claimed anew. -/
lemma Owned.of_dispatch (hp : Owned p) (ha : a.dispatch = some k) (hleased : Leased t)
    (hdisp : ∀ l e, t.dispatches.get l = some e →
      ∃ e', p.1.dispatches.get l = some e' ∧ e'.job.id = e.job.id)
    (hbusy : ∀ id r, t.table.row id = some r → r.status = .claimed ∨ r.status = .running →
      ∃ r', p.1.table.row id = some r' ∧ (r'.status = .claimed ∨ r'.status = .running)) :
    Owned (t, noteClaims p.2 p.1 a t) where
  leased := hleased
  owner l e hl := by
    obtain ⟨e', hl', hid⟩ := hdisp l e hl
    obtain ⟨c, hc, hown⟩ := hp.owner l e' hl'
    have hkeep := (hp.claims_of_dispatch (t := t) ha e.job.id).1
    rw [← hid, hc, map_some, map_eq_some_iff] at hkeep
    obtain ⟨c', hc', hsame⟩ := hkeep
    exact ⟨c', hid ▸ hc', hsame.trans hown⟩
  claimed id r hr hst := by
    obtain ⟨r', hr', hst'⟩ := hbusy id r hr hst
    have hsome := hp.claimed id r' hr' hst'
    have hkeep := (hp.claims_of_dispatch (t := t) ha id).1
    rw [← isSome_map, ← hkeep, isSome_map] at hsome
    exact hsome
  writers id c hc := (hp.claims_of_dispatch ha id).2 c hc

lemma busy_of_statement {q : JobRecord V} (ha : a.statement = some u) (hf : u.filter q)
    (hst : (u.set q).status = .claimed ∨ (u.set q).status = .running) :
    q.status = .claimed ∨ q.status = .running := by
  rcases statement_lifecycle ha hf with hsame | ⟨e, he, hmove⟩
  · exact hsame ▸ hst
  · exfalso
    rcases hmove.event_of_busy hst with rfl | rfl <;> cases a <;>
      simp [Action.event, Action.statement] at he ha

lemma Owned.claims (hp : Owned (s, g)) {leaseMs now : Time} {limit : ℕ}
    {tasks : Option (List String)} {ids : List String} {t : JobsTable V}
    (hwrites : Writes s.table (claim service leaseMs now ids) t)
    (hjobs : Returning s.table (claim service leaseMs now ids) jobs) :
    Owned (⟨t, s.dispatches.extend (jobs.map fun job => ⟨service, job, false⟩)⟩,
      noteClaims g s (.claimReady service leaseMs limit now tasks)
        ⟨t, s.dispatches.extend (jobs.map fun job => ⟨service, job, false⟩)⟩) where
  leased := hp.leased.claims hwrites hjobs
  owner k d hk := by
    rcases get_extend_cases hk with hk | ⟨i, job, rfl, hjob, rfl⟩
    · obtain ⟨c, hc, hown⟩ := hp.owner k d hk
      refine ⟨c, ?_, hown⟩
      simp only [noteClaims, newOwner_eq_none (hp.leased.ne_of_claims hjobs hk)]
      exact hc
    · simp only [noteClaims, newOwner_of_claims service hjobs.nodup hjob]
      exact ⟨_, rfl, rfl⟩
  claimed id r hr hst := by
    obtain ⟨q, hq, ⟨-, rfl⟩ | ⟨hf, rfl⟩⟩ := hwrites.row_inv hr
    · -- A job that was claimed before.
      have hsome := hp.claimed id _ hq hst
      simp only [noteClaims]
      split
      · rfl
      · exact hsome
    · -- A job that is claimed now is dispatched at its position.
      have hid : q.id = id := Table.key_of_row hq
      have hmem := (hjobs.mem_iff _).mpr ⟨q, hid ▸ hq, hf, rfl⟩
      obtain ⟨i, hi⟩ := List.getElem?_of_mem hmem
      have hown := newOwner_of_claims (s := s) (t := t) service hjobs.nodup hi
      have hjid : ((claim service leaseMs now ids).set q).id = id := hid
      rw [hjid] at hown
      simp [noteClaims, hown]
  writers id c hc := by
    simp only [noteClaims] at hc
    split at hc
    · cases hc
      simp
    · exact hp.writers id c hc

lemma Step.owned (h : Step p.1 a t) (hok : Undisturbed p.1 a) (hp : Owned p) :
    Owned (t, noteClaims p.2 p.1 a t) := by
  have hleased := h.leased hok hp.leased
  cases h with
  | stays ha => exact (noteClaims_of_stays ha).symm ▸ hp
  | inserts hnew hrow =>
    refine ⟨hleased, hp.owner, fun id r hr hst => ?_, hp.writers⟩
    rw [hrow] at hr
    split_ifs at hr
    · cases hr
      exact absurd hst (by simp [InsertJob.toRow])
    · exact hp.claimed id r hr hst
  | claims hwrites hjobs => exact hp.claims hwrites hjobs
  | writes ha hwrites =>
    rw [noteClaims_of_statement ha]
    refine ⟨hleased, hp.owner, fun id r hr hst => ?_, hp.writers⟩
    obtain ⟨q, hq, ⟨-, rfl⟩ | ⟨hf, rfl⟩⟩ := hwrites.row_inv hr
    · exact hp.claimed id _ hq hst
    · exact hp.claimed id q hq (busy_of_statement ha hf hst)
  | begins hk hfirst hwrites =>
    rename_i k now d t
    refine hp.of_dispatch rfl hleased (fun l e hl => get_set_begun hk hl) fun id r hr hst => ?_
    obtain ⟨q, hq, ⟨-, rfl⟩ | ⟨hf, rfl⟩⟩ := hwrites.row_inv hr
    · exact ⟨_, hq, hst⟩
    · -- The row that is written is that of the job, which is `claimed`.
      have hid : q.id = d.job.id := of_decide_eq_true hf
      rw [Table.key_of_row hq] at hid
      exact ⟨q, hq, hp.leased.busy hk (hid ▸ hq)⟩
  | finishes hk hrun hwrites =>
    rename_i k now random result d t
    refine hp.of_dispatch rfl hleased
      (fun l e hl => ⟨e, (SparseArray.get_of_get_erase _ hl).2, rfl⟩) fun id r hr hst => ?_
    obtain ⟨q, hq, ⟨-, rfl⟩ | ⟨hf, rfl⟩⟩ := hwrites.row_inv hr
    · exact ⟨_, hq, hst⟩
    · exact absurd ((d.outcome_lifecycle now random result q).event_of_busy hst) (by simp)
  | ends ha =>
    exact hp.of_dispatch ha hleased (fun l e hl => ⟨e, (SparseArray.get_of_get_erase _ hl).2, rfl⟩)
      fun id r hr hst => ⟨r, hr, hst⟩

lemma run_owned (h : Run stepNotingClaims UndisturbedClaims noClaims p) : Owned p := by
  refine h.invariant (fun p a q hp hok hstep => ?_)
    ⟨leased_empty, by simp [noClaims, Sys.empty], by simp [noClaims, Sys.empty], by simp [noClaims]⟩
  obtain ⟨hstep, hnote⟩ := watch_eq_some.mp hstep
  have hq := (Step.of_step hstep).owned hok hp
  rwa [← hnote] at hq

/-- In a run in which no job is disturbed while it is dispatched, the row of a `claimed` or
`running` job has been written since its claim by the dispatch of that claim alone; and no dispatch
changes a row whose last claim is not its own. -/
theorem lease_ownership {p : Sys V × Claims}
    (h : Run stepNotingClaims UndisturbedClaims noClaims p) :
    (∀ id r, p.1.table.row id = some r → r.status = .claimed ∨ r.status = .running →
      ∃ c, p.2 id = some c ∧ ∀ w ∈ c.writers, w = c.owner) ∧
    ∀ a k t, a.dispatch = some k → step p.1 a = some t →
      ∀ id, (p.2 id).map (·.owner) ≠ some k → t.table.row id = p.1.table.row id := by
  have hp := run_owned h
  constructor
  · intro id r hr hst
    obtain ⟨c, hc⟩ := isSome_iff_exists.mp (hp.claimed id r hr hst)
    exact ⟨c, hc, hp.writers id c hc⟩
  · intro a k t ha hstep id hother
    -- The job of the dispatch is one that it holds, so it is not `id`.
    have hne : ∀ d, p.1.dispatches.get k = some d → id ≠ d.job.id := by
      rintro d hd rfl
      obtain ⟨c, hc, hown⟩ := hp.owner k d hd
      exact hother (by rw [hc, map_some, hown])
    cases Step.of_step hstep with
    | stays | ends => rfl
    | inserts | claims => exact absurd ha (by simp [Action.dispatch])
    | writes hu => cases a <;> simp [Action.dispatch, Action.statement] at ha hu
    | begins hk hfirst hwrites =>
      obtain rfl := Option.some.inj ha
      exact hwrites.row_of_ne (fun _ => rfl) (hne _ hk)
    | finishes hk hrun hwrites =>
      obtain rfl := Option.some.inj ha
      exact hwrites.row_of_ne (fun r => Dispatch.outcome_filter _ _ _ _ r) (hne _ hk)

instance (p : Sys V × Claims) (a : Action V) : Decidable (UndisturbedClaims p a) :=
  inferInstanceAs (Decidable (Undisturbed p.1 a))

/-- The status of the job `j`, who holds its lease, and its last claim. -/
def leaseOf (p : Sys ℕ × Claims) : Option (JobStatus × Option String × Claim) :=
  (p.1.table.row "j").bind fun r => (p.2 "j").map fun c => (r.status, r.claimedBy, c)

/-- A dispatch outlives its lease (`#tick` sweeps before its heartbeat), and the same service claims
the job again. -/
def reclaimed : List (Action ℕ) :=
  dispatched ++ [.sweepLeases 2000 fun _ => 0, .claimReady "a" 1000 1 5000 none]

/-- The outcome of the first dispatch then ends the job that the second one has. -/
theorem stale_outcome_overwrites :
    (exec stepNotingClaims noClaims reclaimed).bind leaseOf = some (.claimed, some "a", ⟨1, []⟩) ∧
      (exec stepNotingClaims noClaims (reclaimed ++ [.finish 0 5001 0 (.ok (some 7))])).bind
        leaseOf = some (.done, none, ⟨1, [0]⟩) := by
  decide +kernel

/-- A dispatch whose lease is extended in time is the only one to have written the row. -/
theorem heartbeat_keeps_lease :
    ∃ p : Sys ℕ × Claims, Run stepNotingClaims UndisturbedClaims noClaims p ∧
      leaseOf p = some (.running, some "a", ⟨0, [0]⟩) ∧
      (∀ id r, p.1.table.row id = some r → r.status = .claimed ∨ r.status = .running →
        ∃ c, p.2 id = some c ∧ ∀ w ∈ c.writers, w = c.owner) ∧
      ∀ a k t, a.dispatch = some k → step p.1 a = some t →
        ∀ id, (p.2 id).map (·.owner) ≠ some k → t.table.row id = p.1.table.row id := by
  have hp : (exec (restrict stepNotingClaims UndisturbedClaims) noClaims
      (dispatched ++ [.heartbeat "a" ["j"] 1000 900, .sweepLeases 1100 fun _ => 0,
        .claimReady "b" 1000 1 1100 none])).bind leaseOf = some (.running, some "a", ⟨0, [0]⟩) := by
    decide +kernel
  obtain ⟨p, -, hrun, hp⟩ := Run.exists_of_exec hp
  exact ⟨p, hrun, hp, lease_ownership hrun⟩

end Fino.Jobs
