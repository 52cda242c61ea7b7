import Fino.Workflow.Sequential

/-!
# What a drive persists of the durable bag

`ctx.state.set` changes the runtime's copy, but `#complete` rebuilds the state from the store, and a
finished body saves the copy captured at the last checkpoint. So every checkpoint and the final save
persist the bag that the drive loaded (`durable_state_eq_loaded`), and no write is lost exactly when
the writes leave it as it is.
-/

namespace Fino.Workflow

open Lib List

variable {V W : Type}

def Event.bagWrite : Event V → Option (BagWrite V)
  | .wrote w => some w
  | _ => none

/-- The writes to the bag among the events, in order. -/
def bagWrites (tr : List (Event V)) : List (BagWrite V) := tr.filterMap Event.bagWrite

/-- The state persisted by a completed checkpoint, or by the end of a body that returned. -/
def Event.durable : Event V → Option (WorkflowState V)
  | .checkpoint _ _ _ st => some st
  | .settled (.ok _) st => some st
  | _ => none

variable (loaded : Bag V)

/-- The bag persisted by each checkpoint, and by the end of a body that returned, is the loaded one
with every earlier write applied. -/
def KeepsWrites (tr : List (Event V)) : Prop :=
  ∀ pre e post st, tr = pre ++ e :: post → e.durable = some st →
    st.state = applyWrites loaded (bagWrites pre)

/-- The writes issued before each checkpoint, and before the body returned, leave the loaded bag as
it is. -/
def WritesNetOut (tr : List (Event V)) : Prop :=
  ∀ pre e post, tr = pre ++ e :: post → e.durable.isSome →
    applyWrites loaded (bagWrites pre) = loaded

/-- A drive of the workflow `wid` whose store and captured state still have the loaded bag. -/
structure Machine.BagIs (wid : String) (loaded : Bag V) (m : Machine V W) : Prop where
  runtimeId : m.runtime.workflowId = wid
  captured : m.captured.state = loaded
  store : ∃ st, m.store = some st ∧ st.workflowId = wid ∧ st.state = loaded

/-- An event that persists no other bag than the loaded one at a checkpoint or at the end. -/
def Event.BagIs (e : Event V) : Prop :=
  ∀ st, e.durable = some st → st.state = loaded

lemma Event.bagIs_wrote (w : BagWrite V) : (Event.wrote w).BagIs loaded := by
  simp [Event.BagIs, Event.durable]

section Drive

variable {wid : String} {loaded : Bag V} (clock : Clock W) {m : Machine V W}

lemma Machine.complete_bagIs (hid : m.runtime.workflowId = wid)
    (hstore : ∃ st, m.store = some st ∧ st.workflowId = wid ∧ st.state = loaded) (index : ℕ)
    (id : String) (result : Option V) (taken : Option (WorkflowSignal V)) :
    (m.complete clock index id result taken).1.BagIs loaded ∧
      (m.complete clock index id result taken).2.BagIs wid loaded := by
  obtain ⟨st, hst, hwid, hbag⟩ := hstore
  have hbase : m.runtime.base m.store = st := by
    rw [hst, WorkflowRuntime.base, if_pos (hwid.trans hid.symm)]
  unfold Machine.complete
  rw [hbase]
  refine ⟨?_, ⟨hid, hbag, _, rfl, hwid, hbag⟩⟩
  intro st' hst'
  simp only [Event.durable, Option.some.injEq] at hst'
  exact hst' ▸ hbag

lemma Machine.perform_bagIs (hm : m.BagIs wid loaded) {first : WorkflowRuntime V × Call V}
    (hid : first.1.workflowId = wid) (effect : Effect V W) :
    (∀ e ∈ (m.perform clock first effect).1, e.BagIs loaded) ∧
      ((m.perform clock first effect).2.2.isSome →
        (m.perform clock first effect).2.1.BagIs wid loaded) := by
  obtain ⟨rt, call⟩ := first
  have hm' : ({ m with runtime := rt } : Machine V W).BagIs wid loaded :=
    ⟨hid, hm.captured, hm.store⟩
  unfold Machine.perform
  cases call with
  | returned value | threw err => exact ⟨by simp, fun _ => hm'⟩
  | runs index id' =>
    dsimp only
    rcases effect rt.state.state m.world with ⟨ws, _ | value, w⟩
    · exact ⟨Event.forall_mem_wrote (Event.bagIs_wrote loaded) ws,
        fun _ => ⟨hid, hm.captured, hm.store⟩⟩
    · obtain ⟨he, hc⟩ := Machine.complete_bagIs clock
        (m := { m with runtime := rt.write ws, world := clock.tick w }) hid hm.store index id' value
        none
      exact ⟨Event.forall_mem_wrote_append (Event.bagIs_wrote loaded) ws he, fun _ => hc⟩
  | completes index id' result taken =>
    obtain ⟨he, hc⟩ := Machine.complete_bagIs clock
      (m := ({ m with runtime := rt } : Machine V W).tick clock) hid hm.store index id' result taken
    exact ⟨by simpa using he, fun _ => hc⟩
  | parked => exact ⟨by simp [Event.BagIs, Event.durable], by simp⟩

/-- Every drive persists the loaded bag. After a pause the store has the runtime's bag, but the
drive is over. -/
lemma bagIs_rule (wid : String) (loaded : Bag V) :
    DriveRule clock (Machine.BagIs wid loaded) (fun _ : Machine V W => True) (Event.BagIs loaded)
      (fun _ => True) where
  tick _ hm := ⟨hm.runtimeId, hm.captured, hm.store⟩
  write _ _ hm := ⟨hm.runtimeId, hm.captured, hm.store⟩
  wrote w := Event.bagIs_wrote loaded w
  perform m first effect hm hf := by
    have hid : first.1.workflowId = wid := by
      rcases hf.cases with ⟨h, -⟩ | ⟨_, _, rfl⟩ | ⟨_, _, rfl⟩ | ⟨_, _, _, -, -, -, rfl⟩
      · rw [h]
        exact hm.runtimeId
      all_goals exact hm.runtimeId
    obtain ⟨he, hnext⟩ := Machine.perform_bagIs clock hm hid effect
    exact ⟨he, hnext, fun _ => trivial⟩
  settle m outcome hm := by
    refine ⟨?_, trivial⟩
    intro e he st hst
    simp only [Machine.settle, mem_singleton] at he
    subst he
    cases outcome with
    | ok output =>
      simp only [Event.durable, Option.some.injEq] at hst
      exact hst ▸ hm.captured
    | error err => simp [Event.durable] at hst
  paused m _ := by
    refine ⟨?_, trivial⟩
    intro e he st hst
    simp only [Machine.settle, mem_singleton] at he
    subst he
    simp [Event.durable] at hst

end Drive

/-- In one drive, every checkpoint and the end of a body that returned persist the loaded bag,
whatever the body wrote. -/
lemma durable_state_eq_loaded (wf : WorkflowDef V W) (clock : Clock W) {runId : String}
    {loaded st : WorkflowState V} (h : resumeWith runId wf.id (some loaded) = .drives st)
    (world : W) :
    ∀ e ∈ (wf.drive clock st (some loaded) world).1, e.BagIs loaded.state := by
  obtain ⟨-, hwid, rfl⟩ := resumeWith_eq_drives.mp h
  exact ((bagIs_rule clock wf.id loaded.state).drive wf.outputSchema _ _
    ⟨rfl, rfl, _, rfl, hwid, rfl⟩).1

/-- Events whose durable states all have the loaded bag keep the writes exactly when these net
out. -/
lemma keepsWrites_iff_netOut {loaded : Bag V} {tr : List (Event V)}
    (h : ∀ e ∈ tr, e.BagIs loaded) : KeepsWrites loaded tr ↔ WritesNetOut loaded tr := by
  constructor
  · intro hkeep pre e post heq hdur
    obtain ⟨st, hst⟩ := Option.isSome_iff_exists.mp hdur
    rw [← hkeep pre e post st heq hst]
    exact h e (by simp [heq]) st hst
  · intro hnet pre e post st heq hst
    rw [hnet pre e post heq (by simp [hst])]
    exact h e (by simp [heq]) st hst

/-- The durable bag loses no write in a drive exactly when the writes before each checkpoint, and
before the body returns, leave the loaded bag as it is. -/
theorem state_bag_keeps_writes_iff (wf : WorkflowDef V W) (clock : Clock W) (runId : String)
    (loaded st : WorkflowState V) (world : W)
    (h : resumeWith runId wf.id (some loaded) = .drives st) :
    KeepsWrites loaded.state (wf.drive clock st (some loaded) world).1 ↔
      WritesNetOut loaded.state (wf.drive clock st (some loaded) world).1 :=
  keepsWrites_iff_netOut (durable_state_eq_loaded wf clock h world)

/-- A body that counts an attempt in its bag and then does its work. -/
def counting : WorkflowDef ℕ ℕ where
  id := "counting"
  inputSchema := none
  outputSchema := none
  run _ := .write (.set "attempts" (some 1)) <|
    .step "work" (fun _ w => ([], .ok (some w), w)) none fun _ => .ret none

/-- A run of `counting` as `start` saves it. -/
def countingStart : WorkflowState ℕ := startState "r" "counting" 0 none none

/-- The same run with the attempt in its bag already. -/
def countingAgain : WorkflowState ℕ :=
  { countingStart with state := applyWrites countingStart.state [.set "attempts" (some 1)] }

/-- The events of a drive of `counting` before its step is recorded: the write, the checkpoint and
the end. -/
lemma counting_drive_events (st : WorkflowState ℕ) (h : st.cursor = 0)
    (store : Option (WorkflowState ℕ)) (world : ℕ) :
    ∃ st' st'', (counting.drive tickClock st store world).1 =
      [.wrote (.set "attempts" (some 1)), .checkpoint 0 "work" none st',
        .settled (.ok none) st''] := by
  obtain ⟨_, _, _, cursor⟩ := st
  subst h
  exact ⟨_, _, rfl⟩

/-- The first attempt is counted in the runtime's copy of the bag only: the checkpoint that follows
persists an empty bag. -/
theorem counting_loses_write :
    resumeWith "r" counting.id (some countingStart) = .drives countingStart ∧
      ¬ KeepsWrites countingStart.state
        (counting.drive tickClock countingStart (some countingStart) 0).1 := by
  have hres : resumeWith "r" counting.id (some countingStart) = .drives countingStart := rfl
  refine ⟨hres, fun hkeep => ?_⟩
  obtain ⟨st', st'', hev⟩ := counting_drive_events countingStart rfl (some countingStart) 0
  have hbag := durable_state_eq_loaded counting tickClock hres 0
    (.checkpoint 0 "work" none st') (by simp [hev]) st' rfl
  have hwrite := hkeep [.wrote (.set "attempts" (some 1))] (.checkpoint 0 "work" none st')
    [.settled (.ok none) st''] st' hev rfl
  have hkey := congrFun (hbag.symm.trans hwrite) "attempts"
  exact absurd hkey (by decide)

/-- A drive that loads the attempt writes it again, and loses nothing. -/
theorem counting_again_keeps_writes :
    resumeWith "r" counting.id (some countingAgain) = .drives countingAgain ∧
      KeepsWrites countingAgain.state
        (counting.drive tickClock countingAgain (some countingAgain) 0).1 := by
  have hres : resumeWith "r" counting.id (some countingAgain) = .drives countingAgain := rfl
  refine ⟨hres, (state_bag_keeps_writes_iff counting tickClock "r" countingAgain countingAgain 0
    hres).mpr ?_⟩
  obtain ⟨st', st'', hev⟩ := counting_drive_events countingAgain rfl (some countingAgain) 0
  -- Writing the attempt to a bag that has it changes nothing.
  have hset : applyWrites countingAgain.state [.set "attempts" (some 1)] = countingAgain.state := by
    funext k
    simp only [countingAgain, applyWrites, foldl_cons, foldl_nil, BagWrite.apply]
    split_ifs <;> rfl
  intro pre e post heq hdur
  rw [hev] at heq
  rcases pre with _ | ⟨e₁, _ | ⟨e₂, _ | ⟨e₃, pre⟩⟩⟩ <;>
    simp only [nil_append, cons_append, List.cons.injEq, nil_eq, reduceCtorEq,
      append_eq_nil_iff, and_false] at heq
  · obtain ⟨rfl, -⟩ := heq
    exact absurd hdur (by simp [Event.durable])
  · obtain ⟨rfl, -⟩ := heq
    exact hset
  · obtain ⟨rfl, rfl, -⟩ := heq
    exact hset

end Fino.Workflow
