import Mathlib.Algebra.Order.BigOperators.Group.List
import Fino.Jobs.Lifecycle

/-!
# Processors and their capacity

A tick of `#claimAndDispatch` adds up the free slots of the processors, claims that many jobs of any
task with a free slot, and dispatches each to the processor of its task. The sum is taken before the
claim, so `claiming` holds it in between. The counters are right (`Counted`), but the slots of one
processor are spent on the tasks of another (`slots_spent_elsewhere`). The bound holds as long as no
processor with a free slot has more due jobs than free slots, unless it alone has free slots
(`capacity_respected`).
-/

namespace Fino.Jobs

open Lib List SparseArray
open Workflow (Time)

variable {V : Type}

/-- `JobProcessor`: the tasks that it runs, and the number of jobs that it runs at once. -/
structure JobProcessor where
  taskNames : List String
  capacity : ℕ
deriving DecidableEq

/-- A processor, with its entry in `#inFlightByProcessor`. -/
structure Registered where
  processor : JobProcessor
  inFlight : ℕ
deriving DecidableEq

def Registered.handles (task : String) (e : Registered) : Bool :=
  decide (task ∈ e.processor.taskNames)

/-- The free slots of the processor. -/
def Registered.room (e : Registered) : ℕ := e.processor.capacity - e.inFlight

/-- The entry after its counter is changed, if the processor runs the task. -/
def Registered.charged (task : String) (f : ℕ → ℕ) (e : Registered) : Registered :=
  if e.handles task then { e with inFlight := f e.inFlight } else e

@[simp]
lemma Registered.charged_processor (task : String) (f : ℕ → ℕ) (e : Registered) :
    (e.charged task f).processor = e.processor := by
  unfold charged
  split_ifs <;> rfl

lemma Registered.inFlight_lowered_le (task : String) (e : Registered) :
    (e.charged task (· - 1)).inFlight ≤ e.inFlight := by
  unfold charged
  split_ifs
  · exact Nat.sub_le _ _
  · exact le_rfl

/-- `#processors`, with their counters. No task has two. -/
structure Processors where
  entries : List Registered
  disjoint : entries.Pairwise fun a b => a.processor.taskNames.Disjoint b.processor.taskNames

namespace Processors

def none : Processors := ⟨[], .nil⟩

variable {p : JobProcessor} {ps : Processors}

lemma disjoint_append (h : ∀ name ∈ p.taskNames, ∀ e ∈ ps.entries, e.handles name = false) :
    (ps.entries ++ [Registered.mk p 0]).Pairwise fun a b =>
      a.processor.taskNames.Disjoint b.processor.taskNames := by
  rw [pairwise_append]
  refine ⟨ps.disjoint, pairwise_singleton _ _, fun e he x hx name hname hp => ?_⟩
  obtain rfl := mem_singleton.mp hx
  exact of_decide_eq_false (h name hp e he) hname

/-- `#addProcessor`, which throws if a task has a processor already. -/
def addProcessor (p : JobProcessor) (ps : Processors) : Option Processors :=
  if h : ∀ name ∈ p.taskNames, ∀ e ∈ ps.entries, e.handles name = false then
    some ⟨ps.entries ++ [⟨p, 0⟩], disjoint_append h⟩
  else Option.none

/-- Change the counter of the first processor that runs the task. -/
def chargeFirst (task : String) (f : ℕ → ℕ) : List Registered → List Registered
  | [] => []
  | e :: es =>
    if e.handles task then { e with inFlight := f e.inFlight } :: es
    else e :: chargeFirst task f es

variable (task : String) (f : ℕ → ℕ)

lemma chargeFirst_eq_map {es : List Registered}
    (h : es.Pairwise fun a b => a.processor.taskNames.Disjoint b.processor.taskNames) :
    chargeFirst task f es = es.map (·.charged task f) := by
  induction es with
  | nil => rfl
  | cons e es ih =>
    rw [pairwise_cons] at h
    by_cases he : e.handles task
    · -- The processors behind it do not run the task, so `charged` leaves them alone.
      have hrest : es.map (·.charged task f) = es := by
        conv_rhs => rw [← map_id es]
        apply map_congr_left
        intro e' he'
        have hne : e'.handles task = false := by
          simp only [Registered.handles, decide_eq_true_eq, decide_eq_false_iff_not] at he ⊢
          exact fun h' => h.1 e' he' he h'
        rw [Registered.charged, if_neg (by simp [hne]), id]
      rw [chargeFirst, if_pos he, map_cons, hrest, Registered.charged, if_pos he]
    · rw [chargeFirst, if_neg he, map_cons, ih h.2, Registered.charged, if_neg he]

/-- Change the counter of the processor that runs the task: `#processorFor` and
`#inFlightByProcessor.set`. -/
def charge (task : String) (f : ℕ → ℕ) (ps : Processors) : Processors where
  entries := chargeFirst task f ps.entries
  disjoint := by
    rw [chargeFirst_eq_map task f ps.disjoint, pairwise_map]
    simpa using ps.disjoint

lemma entries_charge (ps : Processors) :
    (ps.charge task f).entries = ps.entries.map (·.charged task f) :=
  chargeFirst_eq_map task f ps.disjoint

/-- Some processor takes jobs of the task. -/
def Handles (ps : Processors) (task : String) : Prop :=
  ∃ e ∈ ps.entries, task ∈ e.processor.taskNames

lemma handles_charge (ps : Processors) (name : String) :
    (ps.charge task f).Handles name ↔ ps.Handles name := by
  simp [Handles, entries_charge]

lemma addProcessor_eq_some {ps' : Processors} (h : ps.addProcessor p = some ps') :
    (∀ name ∈ p.taskNames, ∀ e ∈ ps.entries, e.handles name = false) ∧
      ps'.entries = ps.entries ++ [⟨p, 0⟩] := by
  unfold addProcessor at h
  split_ifs at h with hnew
  cases h
  exact ⟨hnew, rfl⟩

/-- The counters go up for each job that is dispatched. -/
def dispatch (jobs : List (JobRecord V)) (ps : Processors) : Processors :=
  jobs.foldl (fun ps job => ps.charge job.task (· + 1)) ps

variable (jobs : List (JobRecord V)) (ps : Processors)

lemma entries_dispatch :
    (ps.dispatch jobs).entries = ps.entries.map fun e =>
      { e with inFlight := e.inFlight + jobs.countP fun job => e.handles job.task } := by
  induction jobs generalizing ps with
  | nil => simp [dispatch]
  | cons job jobs ih =>
    have hfirst : dispatch (job :: jobs) ps = (ps.charge job.task (· + 1)).dispatch jobs := rfl
    rw [hfirst, ih, entries_charge, map_map]
    apply map_congr_left
    intro e _
    rw [Function.comp_apply, countP_cons, Registered.charged]
    by_cases he : e.handles job.task
    · rw [if_pos he, if_pos he]
      have hsame : ∀ n, Registered.handles n { e with inFlight := e.inFlight + 1 } = e.handles n :=
        fun _ => rfl
      simp only [hsame, Registered.mk.injEq, true_and]
      omega
    · rw [if_neg he, if_neg he, Nat.add_zero]

lemma handles_dispatch (name : String) : (ps.dispatch jobs).Handles name ↔ ps.Handles name := by
  simp [Handles, entries_dispatch]

def withRoom : List Registered :=
  ps.entries.filter fun e => decide (e.inFlight < e.processor.capacity)

def free : ℕ := (ps.withRoom.map Registered.room).sum

/-- The tasks of the processors with a free slot. -/
def eligible : List String := ps.withRoom.flatMap (·.processor.taskNames)

end Processors

/-! ## The scheduler of a service -/

/-- What a tick has found when it is about to claim jobs. -/
structure Claiming where
  free : ℕ
  eligible : List String
  now : Time

/-- A service among others: its processors, and where its tick is. -/
structure Scheduler (V : Type) where
  id : String
  leaseMs : Time
  jobs : Sys V
  processors : Processors
  claiming : Option Claiming

def Scheduler.idle (id : String) (leaseMs : Time) (jobs : Sys V) : Scheduler V :=
  ⟨id, leaseMs, jobs, .none, none⟩

inductive Move (V : Type)
  | addProcessor (p : JobProcessor)
  /-- A tick comes to `#claimAndDispatch`, and adds up the free slots. -/
  | count (now : Time)
  /-- It claims that many jobs, and dispatches them. -/
  | claim
  /-- Any other operation of the store: of a dispatch, of the tick, of an operator, of another
  service. -/
  | store (a : Action V)

def Action.claimsFor (id : String) : Action V → Bool
  | .claimReady service .. => decide (service = id)
  | _ => false

variable (s : Scheduler V)

/-- If the action ended a dispatch of this service, its `finally` has lowered the counter, though
not below zero. -/
def Scheduler.released (a : Action V) (jobs : Sys V) : Processors :=
  match a.dispatch with
  | none => s.processors
  | some k =>
    match s.jobs.dispatches.get k with
    | none => s.processors
    | some d =>
      if d.service = s.id ∧ (jobs.dispatches.get k).isNone then
        s.processors.charge d.job.task (· - 1)
      else s.processors

lemma Scheduler.released_cases (a : Action V) (jobs : Sys V) :
    s.released a jobs = s.processors ∨
      ∃ task, s.released a jobs = s.processors.charge task (· - 1) := by
  unfold released
  split
  · exact .inl rfl
  · split
    · exact .inl rfl
    · split_ifs
      · exact .inr ⟨_, rfl⟩
      · exact .inl rfl

lemma Scheduler.handles_released (a : Action V) (jobs : Sys V) (name : String) :
    (s.released a jobs).Handles name ↔ s.processors.Handles name := by
  rcases s.released_cases a jobs with h | ⟨task, h⟩
  · rw [h]
  · rw [h, Processors.handles_charge]

def Scheduler.step : Move V → Option (Scheduler V)
  | .addProcessor p => some { s with processors := (s.processors.addProcessor p).getD s.processors }
  | .count now =>
    -- At most one tick runs at a time.
    if s.claiming.isSome then none
    else if s.processors.free = 0 ∨ s.processors.eligible = [] then some s
    else some { s with claiming := some ⟨s.processors.free, s.processors.eligible, now⟩ }
  | .claim =>
    match s.claiming with
    | none => none
    | some c =>
      match claimReady s.id s.leaseMs c.free c.now (some c.eligible) s.jobs.table with
      | some (t, jobs) => some { s with
          jobs := ⟨t, s.jobs.dispatches.extend (jobs.map fun job => ⟨s.id, job, false⟩)⟩
          processors := s.processors.dispatch jobs
          claiming := none }
      | none => some { s with claiming := none }
  | .store a =>
    if a.claimsFor s.id then none
    else (Jobs.step s.jobs a).map fun jobs =>
      { s with jobs := jobs, processors := s.released a jobs }

/-- What a move can do to the scheduler. -/
inductive Moved (s : Scheduler V) : Move V → Scheduler V → Prop
  | stays {m : Move V} : Moved s m s
  | adds {p : JobProcessor} {ps : Processors} (hadd : s.processors.addProcessor p = some ps) :
      Moved s (.addProcessor p) { s with processors := ps }
  | counts {now : Time} :
      Moved s (.count now)
        { s with claiming := some ⟨s.processors.free, s.processors.eligible, now⟩ }
  | claims {c : Claiming} {t : JobsTable V} {jobs : List (JobRecord V)} (hc : s.claiming = some c)
      (hclaim : claimReady s.id s.leaseMs c.free c.now (some c.eligible) s.jobs.table =
        some (t, jobs)) :
      Moved s .claim { s with
        jobs := ⟨t, s.jobs.dispatches.extend (jobs.map fun job => ⟨s.id, job, false⟩)⟩
        processors := s.processors.dispatch jobs
        claiming := none }
  | fails : Moved s .claim { s with claiming := none }
  | stores {a : Action V} {jobs : Sys V} (hother : a.claimsFor s.id = false)
      (hjobs : step s.jobs a = some jobs) :
      Moved s (.store a) { s with jobs := jobs, processors := s.released a jobs }

variable {m : Move V} {s t : Scheduler V}

lemma Moved.of_step (h : s.step m = some t) : Moved s m t := by
  cases m with
  | addProcessor p =>
    cases h
    cases hadd : s.processors.addProcessor p with
    | none => exact .stays
    | some ps => exact .adds hadd
  | count now =>
    simp only [Scheduler.step] at h
    split_ifs at h
    · exact Option.some.inj h ▸ .stays
    · exact Option.some.inj h ▸ .counts
  | claim =>
    simp only [Scheduler.step] at h
    split at h
    · cases h
    · rename_i c hc
      split at h
      · rename_i t' jobs hclaim
        exact Option.some.inj h ▸ .claims hc hclaim
      · exact Option.some.inj h ▸ .fails
  | store a =>
    simp only [Scheduler.step] at h
    split_ifs at h with hown
    obtain ⟨jobs, hjobs, rfl⟩ := Option.map_eq_some_iff.mp h
    exact .stores (by simpa using hown) hjobs

/-- The rows that the subquery of `claimReady` selects. -/
def readyJobs (limit : ℕ) (now : Time) (tasks : Option (List String)) (t : JobsTable V) :
    List (JobRecord V) :=
  ((t.rows.filter (·.ready now tasks)).insertionSort JobRecord.Before).take limit

variable {now : Time} {limit : ℕ} {tasks : Option (List String)}

lemma mem_readyJobs {t : JobsTable V} {r : JobRecord V} (h : r ∈ readyJobs limit now tasks t) :
    r ∈ t.rows ∧ r.ready now tasks :=
  mem_filter.mp ((perm_insertionSort _ _).mem_iff.mp (mem_of_mem_take h))

lemma filter_claim_perm (claimedBy : String) (leaseMs : Time) (limit : ℕ) (now : Time)
    (tasks : Option (List String)) (t : JobsTable V) :
    (t.rows.filter (claim claimedBy leaseMs now (readyIds limit now tasks t)).filter).Perm
      (readyJobs limit now tasks t) := by
  have hrows : t.rows.Nodup := List.Nodup.of_map JobRecord.id t.keys_nodup
  have hready : (readyJobs limit now tasks t).Nodup := by
    refine List.Nodup.sublist (take_sublist _ _) ?_
    rw [(perm_insertionSort _ _).nodup_iff]
    exact hrows.filter _
  rw [perm_ext_iff_of_nodup (hrows.filter _) hready]
  intro r
  simp only [mem_filter, claim, Bool.and_eq_true, decide_eq_true_eq]
  constructor
  · rintro ⟨hr, hid, -⟩
    obtain ⟨q, hq, hid⟩ := mem_map.mp hid
    -- A row is selected by its id, and there is one row of that id.
    rwa [← inj_on_of_nodup_map t.keys_nodup (mem_readyJobs hq).1 hr hid]
  · intro hr
    obtain ⟨hmem, hdue⟩ := mem_readyJobs hr
    simp only [JobRecord.ready, Bool.and_eq_true, decide_eq_true_eq] at hdue
    exact ⟨hmem, mem_map_of_mem hr, hdue.1.1⟩

variable {leaseMs : Time} {jobs : List (JobRecord V)} {claimedBy : String}

/-- The jobs that `claimReady` returns are the rows that its subquery selects, as claimed. -/
lemma claimReady_perm {t t' : JobsTable V}
    (h : claimReady claimedBy leaseMs limit now tasks t = some (t', jobs)) :
    jobs.Perm ((readyJobs limit now tasks t).map
      (claim claimedBy leaseMs now (readyIds limit now tasks t)).set) := by
  unfold claimReady at h
  split_ifs at h with hnone
  · -- Without a slot or without a task, the subquery would select nothing either.
    have hempty : readyJobs limit now tasks t = [] := by
      rcases hnone with rfl | rfl
      · rfl
      · simp [readyJobs, JobRecord.ready]
    simp only [Option.some.injEq, Prod.mk.injEq] at h
    rw [hempty, ← h.2]
    exact .nil
  · obtain ⟨t₁, -, h⟩ := Option.map_eq_some_iff.mp h
    simp only [Prod.mk.injEq] at h
    rw [← h.2]
    exact (perm_insertionSort _ _).trans ((filter_claim_perm ..).map _)

/-! ## The counters are right -/

/-- The number of jobs that the service has dispatched to the processor. -/
def Sys.dispatchedTo (s : Sys V) (id : String) (p : JobProcessor) : ℕ :=
  s.dispatches.count fun d => decide (d.service = id) && decide (d.job.task ∈ p.taskNames)

/-- The counters are right, and every task that the service runs or is about to claim has a
processor. -/
structure Counted (s : Scheduler V) : Prop where
  exact : ∀ e ∈ s.processors.entries, e.inFlight = s.jobs.dispatchedTo s.id e.processor
  handled : ∀ k d, s.jobs.dispatches.get k = some d → d.service = s.id →
    s.processors.Handles d.job.task
  known : ∀ c ∈ s.claiming, ∀ name ∈ c.eligible, s.processors.Handles name

lemma task_mem_of_claimReady {names : List String} {t t' : JobsTable V}
    (h : claimReady claimedBy leaseMs limit now (some names) t = some (t', jobs)) :
    ∀ job ∈ jobs, job.task ∈ names := by
  intro job hjob
  rw [(claimReady_perm h).mem_iff, mem_map] at hjob
  obtain ⟨r, hr, rfl⟩ := hjob
  have hready := (mem_readyJobs hr).2
  simp only [JobRecord.ready, Option.all_some, Bool.and_eq_true, decide_eq_true_eq] at hready
  exact hready.2

variable {a : Action V}

lemma Action.dispatch_of_statement {u : JobsUpdate V} (h : a.statement = some u) :
    a.dispatch = none := by
  cases a <;> first | rfl | cases h

variable {id : String}

/-- A dispatch of the service that is there after an operation was there before, for the same job,
unless the operation was a claim of the service. -/
lemma Step.dispatch_inv {s t : Sys V} (h : Step s a t) (hother : a.claimsFor id = false) {k : ℕ}
    {d : Dispatch V} (hk : t.dispatches.get k = some d) (hd : d.service = id) :
    ∃ d', s.dispatches.get k = some d' ∧ d'.service = id ∧ d'.job = d.job := by
  cases h with
  | stays | inserts | writes => exact ⟨d, hk, hd, rfl⟩
  | claims hwrites hjobs =>
    rcases get_extend_cases hk with hk | ⟨i, job, -, -, rfl⟩
    · exact ⟨d, hk, hd, rfl⟩
    · exact absurd hd (of_decide_eq_false hother)
  | begins hk' hfirst hwrites =>
    rename_i k' now d' t'
    rw [get_set] at hk
    split_ifs at hk with hkl
    · cases hk
      exact ⟨d', hkl ▸ hk', hd, rfl⟩
    · exact ⟨d, hk, hd, rfl⟩
  | finishes | ends => exact ⟨d, (get_of_get_erase _ hk).2, hd, rfl⟩

variable {jobs : Sys V}

lemma Counted.released_of_erase (hs : Counted s) {k : ℕ} (ha : a.dispatch = some k)
    (hjobs : jobs.dispatches = s.jobs.dispatches.erase k) :
    ∀ e ∈ (s.released a jobs).entries, e.inFlight = jobs.dispatchedTo s.id e.processor := by
  have hgone : (jobs.dispatches.get k).isNone := by
    rw [hjobs, get_erase, if_pos rfl]
    rfl
  unfold Sys.dispatchedTo
  rw [hjobs]
  cases hk : s.jobs.dispatches.get k with
  | none =>
    intro e he
    rw [count_erase_of_none _ _ hk]
    simp only [Scheduler.released, ha, hk] at he
    exact hs.exact e he
  | some d =>
    have hreleased : s.released a jobs = if d.service = s.id then
        s.processors.charge d.job.task (· - 1) else s.processors := by
      simp only [Scheduler.released, ha, hk, hgone, and_true]
    rw [hreleased]
    split_ifs with hd
    · intro e' he'
      rw [Processors.entries_charge, mem_map] at he'
      obtain ⟨e, he, rfl⟩ := he'
      have hcount := count_erase s.jobs.dispatches
        (fun d => decide (d.service = s.id) && decide (d.job.task ∈ e.processor.taskNames)) hk
      have hexact := hs.exact e he
      unfold Sys.dispatchedTo at hexact
      unfold Registered.charged Registered.handles
      by_cases htask : d.job.task ∈ e.processor.taskNames
      · simp only [hd, htask, decide_true, Bool.and_self, if_true] at hcount ⊢
        omega
      · simp only [hd, htask, decide_true, decide_false, Bool.and_false, Bool.false_eq_true,
          if_false] at hcount ⊢
        omega
    · -- It is a dispatch of another service, which no counter of this one has counted.
      intro e he
      have hcount := count_erase s.jobs.dispatches
        (fun d => decide (d.service = s.id) && decide (d.job.task ∈ e.processor.taskNames)) hk
      simp only [hd, decide_false, Bool.false_and, Bool.false_eq_true, if_false] at hcount
      rw [hs.exact e he, Sys.dispatchedTo, ← hcount, Nat.add_zero]

lemma Counted.released_exact (hs : Counted s) (h : Step s.jobs a jobs)
    (hother : a.claimsFor s.id = false) :
    ∀ e ∈ (s.released a jobs).entries, e.inFlight = jobs.dispatchedTo s.id e.processor := by
  cases h with
  | stays ha =>
    simp only [Scheduler.released, ha]
    exact hs.exact
  | inserts => exact hs.exact
  | writes ha =>
    simp only [Scheduler.released, Action.dispatch_of_statement ha]
    exact hs.exact
  | claims hwrites hjobs =>
    rename_i service leaseMs now limit tasks ids t jobs
    intro e he
    have hzero : (jobs.map fun job => (⟨service, job, false⟩ : Dispatch V)).countP
        (fun d => decide (d.service = s.id) && decide (d.job.task ∈ e.processor.taskNames)) =
          0 := by
      rw [countP_eq_zero]
      intro d hd
      obtain ⟨job, -, rfl⟩ := mem_map.mp hd
      simp [of_decide_eq_false hother]
    rw [Sys.dispatchedTo, count_extend, hzero, Nat.add_zero]
    exact hs.exact e he
  | begins hk hfirst hwrites =>
    rename_i k now d t
    have hstays : ((s.jobs.dispatches.set k d.begun).get k).isNone = false := by
      rw [get_set_self]
      rfl
    simp only [Scheduler.released, Action.dispatch, hk, hstays, Bool.false_eq_true, and_false,
      if_false]
    intro e he
    have hcount := count_set s.jobs.dispatches
      (fun d => decide (d.service = s.id) && decide (d.job.task ∈ e.processor.taskNames)) d.begun hk
    rw [hs.exact e he]
    exact (Nat.add_right_cancel hcount).symm
  | finishes => exact hs.released_of_erase rfl rfl
  | ends ha => exact hs.released_of_erase ha rfl

lemma Moved.counted (h : Moved s m t) (hs : Counted s) : Counted t := by
  cases h with
  | stays => exact hs
  | adds hadd =>
    rename_i p ps
    obtain ⟨hnew, hentries⟩ := Processors.addProcessor_eq_some hadd
    have hkeep : ∀ name, s.processors.Handles name → ps.Handles name := by
      rintro name ⟨e, he, hname⟩
      exact ⟨e, by simp [hentries, he], hname⟩
    refine ⟨fun e he => ?_, fun k d hk hd => hkeep _ (hs.handled k d hk hd),
      fun c hc name hname => hkeep _ (hs.known c hc name hname)⟩
    rw [hentries, mem_append, mem_singleton] at he
    rcases he with he | rfl
    · exact hs.exact e he
    · -- No dispatch under way is of a task of the new processor.
      refine (count_eq_zero _ fun k d hk => ?_).symm
      by_cases hd : d.service = s.id
      · obtain ⟨e, he, htask⟩ := hs.handled k d hk hd
        have hfree : d.job.task ∉ p.taskNames := by
          intro hp
          exact of_decide_eq_false (hnew _ hp e he) htask
        simp [hfree]
      · simp [hd]
  | counts =>
    refine ⟨hs.exact, hs.handled, fun c hc name hname => ?_⟩
    cases hc
    simp only [Processors.eligible, mem_flatMap] at hname
    obtain ⟨e, he, hname⟩ := hname
    exact ⟨e, (mem_filter.mp he).1, hname⟩
  | claims hc hclaim =>
    rename_i c t' jobs
    refine ⟨fun e' he' => ?_, fun k d hk hd => ?_, by simp⟩
    · rw [Processors.entries_dispatch, mem_map] at he'
      obtain ⟨e, he, rfl⟩ := he'
      rw [Sys.dispatchedTo, count_extend, countP_map, hs.exact e he]
      simp [Sys.dispatchedTo, Function.comp_def, Registered.handles]
    · rw [Processors.handles_dispatch]
      rcases get_extend_cases hk with hk | ⟨i, job, -, hjob, rfl⟩
      · exact hs.handled k d hk hd
      · exact hs.known c hc _ (task_mem_of_claimReady hclaim job (mem_of_getElem? hjob))
  | fails => exact ⟨hs.exact, hs.handled, by simp⟩
  | stores hother hjobs =>
    have hstep := Step.of_step hjobs
    refine ⟨hs.released_exact hstep hother, fun k d hk hd => ?_, fun c hc name hname => ?_⟩
    · obtain ⟨d', hk', hd', hjob⟩ := hstep.dispatch_inv hother hk hd
      rw [s.handles_released, ← hjob]
      exact hs.handled k d' hk' hd'
    · rw [s.handles_released]
      exact hs.known c hc name hname

lemma counted_idle (h : jobs.dispatches.All fun d => d.service ≠ id) :
    Counted (.idle id leaseMs jobs) where
  exact _ he := by cases he
  handled k d hk hd := absurd hd (h k d hk)
  known _ hc := by cases hc

/-! ## The bound -/

/-- The due jobs of the processor's tasks. -/
def Scheduler.due (s : Scheduler V) (now : Time) (e : Registered) : ℕ :=
  s.jobs.table.rows.countP fun r => r.ready now none && e.handles r.task

/-- When a tick claims, each processor that has a free slot has no more due jobs than free slots, or
no other processor has a free slot. -/
def Fits (s : Scheduler V) : Move V → Prop
  | .claim => ∀ c ∈ s.claiming, ∀ e ∈ s.processors.entries,
      e.room = 0 ∨ s.due c.now e ≤ e.room ∨ s.processors.free ≤ e.room
  | _ => True

lemma Processors.free_eq_sum (ps : Processors) :
    ps.free = (ps.entries.map Registered.room).sum := by
  unfold free withRoom
  induction ps.entries with
  | nil => rfl
  | cons e es ih =>
    by_cases h : e.inFlight < e.processor.capacity
    · rw [filter_cons_of_pos (by simpa using h), map_cons, map_cons, sum_cons, sum_cons, ih]
    · rw [filter_cons_of_neg (by simpa using h), map_cons, sum_cons, ih,
        Registered.room]
      omega

lemma Processors.free_le_charge (task : String) (ps : Processors) :
    ps.free ≤ (ps.charge task (· - 1)).free := by
  rw [free_eq_sum, free_eq_sum, entries_charge, map_map]
  apply sum_le_sum
  intro e _
  rw [Function.comp_apply, Registered.room, Registered.room, Registered.charged_processor]
  have hle := e.inFlight_lowered_le task
  omega

lemma Scheduler.inFlight_released_le {e' : Registered} (h : e' ∈ (s.released a jobs).entries) :
    ∃ e ∈ s.processors.entries, e'.processor = e.processor ∧ e'.inFlight ≤ e.inFlight := by
  rcases s.released_cases a jobs with hsame | ⟨task, hcharge⟩
  · exact ⟨e', hsame ▸ h, rfl, le_rfl⟩
  · rw [hcharge, Processors.entries_charge, mem_map] at h
    obtain ⟨e, he, rfl⟩ := h
    exact ⟨e, he, Registered.charged_processor _ _ _, e.inFlight_lowered_le task⟩

/-- No processor has more jobs than it has slots. What a tick has added up is still free when it
claims, and no processor without a free slot has a task that it claims: in between, slots are only
given back. -/
structure Bounded (s : Scheduler V) : Prop extends Counted s where
  within : ∀ e ∈ s.processors.entries, e.inFlight ≤ e.processor.capacity
  free : ∀ c ∈ s.claiming, c.free ≤ s.processors.free
  full : ∀ c ∈ s.claiming, ∀ e ∈ s.processors.entries, e.room = 0 →
    ∀ name ∈ c.eligible, e.handles name = false

/-- Of the jobs that a claim selects, a processor gets no more than are due. -/
lemma countP_readyJobs_le_due (s : Scheduler V) (limit : ℕ) (now : Time)
    (tasks : Option (List String)) (e : Registered) :
    (readyJobs limit now tasks s.jobs.table).countP (fun job => e.handles job.task) ≤
      s.due now e := by
  refine (take_sublist _ _).countP_le.trans ?_
  rw [(perm_insertionSort _ _).countP_eq, countP_filter, Scheduler.due]
  refine countP_mono_left fun r _ hr => ?_
  simp only [JobRecord.ready, Bool.and_eq_true] at hr ⊢
  exact ⟨⟨hr.2.1, rfl⟩, hr.1⟩

/-- The jobs that a claim selects fit. -/
lemma Bounded.countP_le (hs : Bounded s) (hok : Fits s .claim) {c : Claiming}
    (hc : c ∈ s.claiming) {e : Registered} (he : e ∈ s.processors.entries) :
    (readyJobs c.free c.now (some c.eligible) s.jobs.table).countP
      (fun job => e.handles job.task) ≤ e.room := by
  rcases hok c hc e he with hfull | hdue | halone
  · rw [hfull, Nat.le_zero, countP_eq_zero]
    intro job hjob
    have hready := (mem_readyJobs hjob).2
    simp only [JobRecord.ready, Option.all_some, Bool.and_eq_true, decide_eq_true_eq] at hready
    simp [hs.full c hc e he hfull _ hready.2]
  · exact (countP_readyJobs_le_due ..).trans hdue
  · calc _ ≤ c.free := countP_le_length.trans (length_take_le _ _)
      _ ≤ s.processors.free := hs.free c hc
      _ ≤ e.room := halone

/-- Two processors with one task are one. -/
lemma Processors.eq_of_handles {ps : Processors} {e e' : Registered} (he : e ∈ ps.entries)
    (he' : e' ∈ ps.entries) {name : String} (hname : e.handles name) (hname' : e'.handles name) :
    e = e' := by
  by_contra hne
  have hsymm : Std.Symm fun a b : Registered =>
    a.processor.taskNames.Disjoint b.processor.taskNames := ⟨fun _ _ h _ hb ha => h ha hb⟩
  exact ps.disjoint.forall he he' hne (of_decide_eq_true hname) (of_decide_eq_true hname')

/-- Every move keeps the processors within their capacities. -/
lemma Moved.bounded (h : Moved s m t) (hs : Bounded s) (hok : Fits s m) : Bounded t := by
  have hcounted := h.counted hs.toCounted
  cases h with
  | stays => exact hs
  | adds hadd =>
    rename_i p ps
    obtain ⟨hnew, hentries⟩ := Processors.addProcessor_eq_some hadd
    have hcases {P : Registered → Prop} (hold : ∀ e ∈ s.processors.entries, P e)
        (hadded : P ⟨p, 0⟩) : ∀ e ∈ ps.entries, P e := by
      rw [hentries, forall_mem_append, forall_mem_singleton]
      exact ⟨hold, hadded⟩
    refine ⟨hcounted, hcases hs.within (Nat.zero_le _), fun c hc => (hs.free c hc).trans ?_,
      fun c hc => hcases (hs.full c hc) fun _ name hname => ?_⟩
    · rw [Processors.free_eq_sum, Processors.free_eq_sum, hentries, map_append, sum_append]
      exact Nat.le_add_right _ _
    · -- A task that is about to be claimed has a processor, which the new one is not.
      obtain ⟨e, he, htask⟩ := hs.known c hc name hname
      refine decide_eq_false fun hp => ?_
      exact of_decide_eq_false (hnew name hp e he) htask
  | counts =>
    refine ⟨hcounted, hs.within, ?_, ?_⟩
    · rintro c ⟨⟩
      exact le_rfl
    · rintro c ⟨⟩ e he hfull name hname
      obtain ⟨e', he', hname'⟩ := mem_flatMap.mp hname
      obtain ⟨he', hroom⟩ := mem_filter.mp he'
      by_contra htask
      obtain rfl := Processors.eq_of_handles he he' (eq_true_of_ne_false htask)
        (decide_eq_true hname')
      rw [Registered.room] at hfull
      simp only [decide_eq_true_eq] at hroom
      omega
  | claims hc hclaim =>
    rename_i c t' jobs
    refine ⟨hcounted, fun e' he' => ?_, by simp, by simp⟩
    rw [Processors.entries_dispatch, mem_map] at he'
    obtain ⟨e, he, rfl⟩ := he'
    have hcount : jobs.countP (fun job => e.handles job.task) ≤ e.room := by
      rw [(claimReady_perm hclaim).countP_eq, countP_map]
      exact hs.countP_le hok hc he
    have hle := hs.within e he
    rw [Registered.room] at hcount
    change e.inFlight + _ ≤ e.processor.capacity
    omega
  | fails => exact ⟨hcounted, hs.within, by simp, by simp⟩
  | stores hother hjobs =>
    rename_i a jobs
    refine ⟨hcounted, fun e' he' => ?_, fun c hc => (hs.free c hc).trans ?_,
      fun c hc e' he' hfull name hname => ?_⟩
    · obtain ⟨e, he, hp, hle⟩ := Scheduler.inFlight_released_le he'
      rw [hp]
      exact hle.trans (hs.within e he)
    · rcases s.released_cases a jobs with hsame | ⟨task, hcharge⟩
      · exact le_of_eq (congrArg Processors.free hsame.symm)
      · exact (s.processors.free_le_charge task).trans_eq (congrArg Processors.free hcharge.symm)
    · obtain ⟨e, he, hp, hle⟩ := Scheduler.inFlight_released_le he'
      rw [Registered.room, hp] at hfull
      rw [Registered.handles, hp]
      exact hs.full c hc e he (by rw [Registered.room]; omega) name hname

lemma bounded_idle (h : jobs.dispatches.All fun d => d.service ≠ id) :
    Bounded (.idle id leaseMs jobs) where
  toCounted := counted_idle h
  within _ he := by cases he
  free _ hc := by cases hc
  full _ hc := by cases hc

/-- In every run in which, at each claim, a processor with free slots has no more due jobs than
these or is the only one with free slots, the jobs dispatched to a processor are at most its
capacity, whatever others do to the table. -/
theorem capacity_respected {id : String} {leaseMs : Time} {jobs : Sys V} {s : Scheduler V}
    (hidle : jobs.dispatches.All fun d => d.service ≠ id)
    (h : Run Scheduler.step Fits (.idle id leaseMs jobs) s) :
    ∀ e ∈ s.processors.entries, s.jobs.dispatchedTo s.id e.processor ≤ e.processor.capacity := by
  have hbounded : Bounded s :=
    h.invariant (fun _ _ _ hs hok hstep => (Moved.of_step hstep).bounded hs hok)
      (bounded_idle hidle)
  intro e he
  rw [← hbounded.exact e he]
  exact hbounded.within e he

instance (s : Scheduler V) (m : Move V) : Decidable (Fits s m) := by
  unfold Fits
  split <;> infer_instance

def twoProcessors : List (Move ℕ) :=
  [.addProcessor ⟨["resize"], 1⟩, .addProcessor ⟨["mail"], 1⟩]

def pushedAndClaimed (task task' : String) : List (Move ℕ) :=
  [.store (.insertJob "j" 0 { someJob with task := task }),
    .store (.insertJob "k" 0 { someJob with task := task' }), .count 1, .claim]

/-- The jobs that are dispatched to each processor, and how many it may have. -/
def Scheduler.load (s : Scheduler ℕ) : List (ℕ × ℕ) :=
  s.processors.entries.map fun e => (s.jobs.dispatchedTo s.id e.processor, e.processor.capacity)

/-- One job for each of two processors. -/
theorem one_job_each :
    ∃ s : Scheduler ℕ, Run Scheduler.step Fits (.idle "a" 1000 .empty) s ∧
      s.load = [(1, 1), (1, 1)] ∧
      ∀ e ∈ s.processors.entries, s.jobs.dispatchedTo s.id e.processor ≤ e.processor.capacity := by
  have hs : (exec (restrict Scheduler.step Fits) (.idle "a" 1000 .empty)
      (twoProcessors ++ pushedAndClaimed "resize" "mail")).bind (fun s => some s.load) =
      some [(1, 1), (1, 1)] := by decide +kernel
  obtain ⟨s, -, hrun, hs⟩ := Run.exists_of_exec hs
  exact ⟨s, hrun, Option.some.inj hs,
    capacity_respected (by simp [All, Sys.empty]) hrun⟩

/-- Two jobs of one task: the slot of the other processor is spent on the second. -/
theorem slots_spent_elsewhere :
    (exec Scheduler.step (.idle "a" 1000 .empty)
      (twoProcessors ++ pushedAndClaimed "resize" "resize")).map (·.load) =
      some [(2, 1), (0, 1)] := by
  decide +kernel

/-- The only processor has all the free slots. -/
lemma fits_of_alone (halone : s.processors.entries.length ≤ 1) (m : Move V) : Fits s m := by
  cases m with
  | claim =>
    intro c hc e he
    obtain ⟨e', he'⟩ := length_eq_one_iff.mp (le_antisymm halone (length_pos_of_mem he))
    rw [he', mem_singleton] at he
    rw [Processors.free_eq_sum, he', he, map_singleton, sum_singleton]
    exact .inr (.inr le_rfl)
  | _ => trivial

lemma Moved.alone (h : Moved s m t) (hs : s.processors.entries.length ≤ 1)
    (hok : ∀ p, m = .addProcessor p → s.processors.entries = []) :
    t.processors.entries.length ≤ 1 := by
  cases h with
  | stays | counts | fails => exact hs
  | adds hadd => simp [(Processors.addProcessor_eq_some hadd).2, hok _ rfl]
  | claims hc hclaim => rwa [Processors.entries_dispatch, length_map]
  | stores hother hjobs =>
    rename_i a jobs
    rcases s.released_cases a jobs with hsame | ⟨task, hcharge⟩
    · rwa [hsame]
    · rwa [hcharge, Processors.entries_charge, length_map]

theorem alone_within_capacity (hidle : jobs.dispatches.All fun d => d.service ≠ id)
    (h : Run Scheduler.step (fun s m => ∀ p, m = .addProcessor p → s.processors.entries = [])
      (.idle id leaseMs jobs) s) :
    ∀ e ∈ s.processors.entries, s.jobs.dispatchedTo s.id e.processor ≤ e.processor.capacity := by
  have hbound := (h.invariant (I := fun s : Scheduler V => Bounded s ∧
    s.processors.entries.length ≤ 1) ?_ ⟨bounded_idle hidle, Nat.zero_le _⟩).1
  · exact fun e he => hbound.exact e he ▸ hbound.within e he
  · rintro s m t ⟨hs, halone⟩ hok hstep
    have hmoved := Moved.of_step hstep
    exact ⟨hmoved.bounded hs (fits_of_alone halone m), hmoved.alone halone hok⟩

theorem one_of_two_jobs :
    ∃ s : Scheduler ℕ, s.load = [(1, 1)] ∧
      ∀ e ∈ s.processors.entries, s.jobs.dispatchedTo s.id e.processor ≤ e.processor.capacity := by
  have hs : (exec Scheduler.step (.idle "a" 1000 .empty) (.addProcessor ⟨["resize"], 1⟩ ::
      pushedAndClaimed "resize" "resize")).map (·.load) = some [(1, 1)] := by decide +kernel
  obtain ⟨s, hs, hload⟩ := Option.map_eq_some_iff.mp hs
  obtain ⟨t, ht, hs⟩ := Option.bind_eq_some_iff.mp hs
  refine ⟨s, hload, alone_within_capacity (by simp [All, Sys.empty])
    (((Run.refl _).tail (fun _ _ => rfl) ht).trans (.of_exec_forall ?_ hs))⟩
  simp [pushedAndClaimed]

end Fino.Jobs
