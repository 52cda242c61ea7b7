import Mathlib.Data.List.Perm.Subperm
import Fino.Workflow.Sequential

/-!
# A signal that a wait returned stays in the queue

`#waitForSignal` takes a signal out of the runtime's copy of the queue, but `#complete` rebuilds the
state from the store, where it still is. So the persisted queue is the list of all signals
delivered, and a wait returns the first of its name (`trace_accumulates`), also a second time
(`takes_first_named`): consumption is once only exactly in the runs in which no wait takes a
signal (`consumedOnce_iff_taken_eq_nil`).
-/

namespace Fino.Workflow

open Lib List Event Machine

variable {V W : Type}

def Event.deliveredSignal : Event V → Option (WorkflowSignal V)
  | .delivered signal _ => some signal
  | _ => none

/-- The signal that the wait completed by an event returned. -/
def Event.takenSignal : Event V → Option (WorkflowSignal V)
  | .checkpoint _ _ taken _ => taken
  | _ => none

variable (tr : List (Event V))

def deliveredSignals : List (WorkflowSignal V) :=
  tr.filterMap deliveredSignal

def takenSignals : List (WorkflowSignal V) :=
  tr.filterMap takenSignal

/-- Whenever a state is persisted, the signals returned so far and those queued in it are, with
multiplicity, among those delivered. So a delivered signal is the payload of at most one wait, and a
returned one is no longer queued. -/
def ConsumedOnce : Prop :=
  ∀ pre e post st, tr = pre ++ e :: post → e.persisted = some st →
    (takenSignals (pre ++ [e]) ++ st.signals).Subperm (deliveredSignals (pre ++ [e]))

variable (queue : List (WorkflowSignal V))

def firstNamed (name : String) : Option (WorkflowSignal V) :=
  queue.find? fun signal => signal.name == name

lemma deliveredSignals_append (tr tr' : List (Event V)) :
    deliveredSignals (tr ++ tr') = deliveredSignals tr ++ deliveredSignals tr' :=
  filterMap_append

/-! ## One drive -/

/-- A state of the workflow `wid` whose queue is `queue`. -/
def WorkflowState.QueueIs (wid : String) (queue : List (WorkflowSignal V)) (st : WorkflowState V) :
    Prop :=
  st.workflowId = wid ∧ st.signals = queue

/-- A drive of the workflow `wid` in which the three copies of the state all have the queue
`queue`. -/
structure Machine.QueueIs (wid : String) (queue : List (WorkflowSignal V)) (m : Machine V W) :
    Prop where
  runtimeId : m.runtime.workflowId = wid
  current : m.runtime.state.QueueIs wid queue
  captured : m.captured.QueueIs wid queue
  store : ∃ st, m.store = some st ∧ st.QueueIs wid queue

/-- An event of a drive that leaves this queue in the store, delivers nothing, and returns the first
signal of a name in that queue. -/
structure Event.QueueIs (queue : List (WorkflowSignal V)) (e : Event V) : Prop where
  delivered : e.deliveredSignal = none
  persisted : ∀ st, e.persisted = some st → st.signals = queue
  taken : ∀ signal, e.takenSignal = some signal → firstNamed queue signal.name = some signal

lemma Event.queueIs_wrote (w : BagWrite V) : (wrote w).QueueIs queue :=
  ⟨rfl, by simp [persisted], by simp [takenSignal]⟩

section Drive

variable {wid : String} {queue : List (WorkflowSignal V)} (clock : Clock W)

variable {m : Machine V W}

lemma Machine.complete_queueIs (hid : m.runtime.workflowId = wid)
    (hstore : ∃ st, m.store = some st ∧ st.QueueIs wid queue) (index : ℕ) (id : String)
    (result : Option V) (taken : Option (WorkflowSignal V))
    (htaken : ∀ signal, taken = some signal → firstNamed queue signal.name = some signal) :
    (m.complete clock index id result taken).1.QueueIs queue ∧
      (m.complete clock index id result taken).2.QueueIs wid queue := by
  obtain ⟨st, hst, hwid, hq⟩ := hstore
  have hbase : m.runtime.base m.store = st := by
    rw [hst, WorkflowRuntime.base, if_pos (hwid.trans hid.symm)]
  unfold complete
  rw [hbase]
  have hnext : (st.complete (clock.now m.world) index id result).QueueIs wid queue := ⟨hwid, hq⟩
  refine ⟨⟨rfl, ?_, htaken⟩, ⟨hid, hnext, hnext, _, rfl, hnext⟩⟩
  intro st' hst'
  simp only [persisted, Option.some.injEq] at hst'
  exact hst' ▸ hq

lemma Machine.parked_queueIs (hm : m.QueueIs wid queue) {rt : WorkflowRuntime V}
    (hid : rt.workflowId = wid) (hst : rt.state.QueueIs wid queue) (effect : Effect V W) :
    (∀ e ∈ (m.perform clock (rt, .parked) effect).1, e.QueueIs queue) ∧
      (m.perform clock (rt, .parked) effect).2.1.QueueIs wid queue := by
  refine ⟨?_, hid, hst, hm.captured, _, rfl, hst⟩
  intro e he
  simp only [perform, mem_singleton] at he
  subst he
  refine ⟨rfl, fun st h => ?_, fun _ h => absurd h (by simp [takenSignal])⟩
  simp only [persisted, Option.some.injEq] at h
  exact h ▸ hst.2

lemma Machine.perform_queueIs (hm : m.QueueIs wid queue) {first : WorkflowRuntime V × Call V}
    (hf : FirstSegment m.runtime first) (effect : Effect V W) :
    (∀ e ∈ (m.perform clock first effect).1, e.QueueIs queue) ∧
      (m.perform clock first effect).2.1.QueueIs wid queue := by
  rcases hf.cases with ⟨hrt, hnp, hnt⟩ | ⟨id, dueAt, rfl⟩ | ⟨name, timeoutAt, rfl⟩ |
    ⟨name, k, signal, hk, hsignal, hname, rfl⟩
  · -- The runtime's state is as it was, and the call returns, throws, or completes.
    obtain ⟨rt, call⟩ := first
    subst hrt
    have hm' : ({ m with runtime := m.runtime.next } : Machine V W).QueueIs wid queue :=
      ⟨hm.runtimeId, hm.current, hm.captured, hm.store⟩
    unfold perform
    cases call with
    | returned value | threw err => exact ⟨by simp, hm'⟩
    | runs index id =>
      dsimp only
      rcases effect m.runtime.next.state.state m.world with ⟨ws, _ | value, w⟩
      · exact ⟨forall_mem_wrote (queueIs_wrote queue) ws,
          ⟨hm.runtimeId, hm.current, hm.captured, hm.store⟩⟩
      · obtain ⟨he, hc⟩ := complete_queueIs clock
          (m := { m with runtime := m.runtime.next.write ws, world := clock.tick w }) hm.runtimeId
          hm.store index id value none (by simp)
        exact ⟨forall_mem_wrote_append (queueIs_wrote queue) ws he, hc⟩
    | completes index id result taken =>
      obtain ⟨he, hc⟩ := complete_queueIs clock
        (m := ({ m with runtime := m.runtime.next } : Machine V W).tick clock) hm.runtimeId hm.store
        index id result taken (by rintro signal rfl; exact absurd rfl (hnt index id result signal))
      exact ⟨by simpa using he, hc⟩
    | parked => exact absurd rfl hnp
  · refine parked_queueIs clock hm ?_ ?_ effect
    · exact hm.runtimeId
    · exact hm.current
  · refine parked_queueIs clock hm ?_ ?_ effect
    · exact hm.runtimeId
    · exact hm.current
  · -- The signal is gone from the runtime's copy until `#complete` reads the store.
    have hfirst : firstNamed queue signal.name = some signal := by
      rw [hname, ← hm.current.2, firstNamed, List.find?_eq_bind_findIdx?_getElem?]
      exact (congrArg (·.bind (m.runtime.state.signals[·]?)) hk).trans hsignal
    obtain ⟨he, hc⟩ := complete_queueIs clock
      (m := ({ m with runtime := m.runtime.nextWith (m.runtime.state.dropSignal k) } :
        Machine V W).tick clock) hm.runtimeId hm.store m.runtime.callIndex name signal.payload
        (some signal) (by rintro _ ⟨⟩; exact hfirst)
    exact ⟨by simpa [perform] using he, hc⟩

lemma settled_queueIs {captured current : WorkflowState V} (hcap : captured.QueueIs wid queue)
    (hcur : current.QueueIs wid queue) (outcome : Except JsError (Option V)) :
    (settled captured current outcome).QueueIs wid queue := by
  cases outcome with
  | ok output => exact hcap
  | error err =>
    unfold settled
    dsimp only
    split_ifs <;> exact hcur

lemma Machine.settle_queueIs (hm : m.QueueIs wid queue) (outcome : Except JsError (Option V)) :
    (∀ e ∈ (m.settle clock outcome).1, e.QueueIs queue) ∧
      ∃ st, (m.settle clock outcome).2.store = some st ∧ st.QueueIs wid queue := by
  have hs := settled_queueIs hm.captured hm.current outcome
  refine ⟨?_, _, rfl, hs⟩
  intro e he
  simp only [settle, mem_singleton] at he
  subst he
  refine ⟨rfl, fun st h => ?_, fun _ h => absurd h (by simp [takenSignal])⟩
  simp only [persisted, Option.some.injEq] at h
  exact h ▸ hs.2

lemma queueIs_rule (wid : String) (queue : List (WorkflowSignal V)) :
    DriveRule clock (QueueIs wid queue) (QueueIs wid queue) (QueueIs queue)
      (fun m : Machine V W => ∃ st, m.store = some st ∧ st.QueueIs wid queue) where
  tick _ hm := ⟨hm.runtimeId, hm.current, hm.captured, hm.store⟩
  write _ _ hm := ⟨hm.runtimeId, hm.current, hm.captured, hm.store⟩
  wrote w := queueIs_wrote queue w
  perform _ _ effect hm hf :=
    have hp := perform_queueIs clock hm hf effect
    ⟨hp.1, fun _ => hp.2, fun _ => hp.2⟩
  settle _ outcome hm := settle_queueIs clock hm outcome
  paused _ hm := settle_queueIs clock hm _

end Drive

/-! ## Whole runs -/

variable (before : List (WorkflowSignal V))

/-- The queue of every persisted state is what was queued before with what was delivered since, and
a wait returns the first signal of its name. -/
def Accumulates (tr : List (Event V)) : Prop :=
  ∀ pre e post, tr = pre ++ e :: post →
    (∀ st, e.persisted = some st → st.signals = before ++ deliveredSignals (pre ++ [e])) ∧
    ∀ signal, e.takenSignal = some signal →
      firstNamed (before ++ deliveredSignals pre) signal.name = some signal

lemma Accumulates.nil : Accumulates before [] := by
  intro pre e post h
  simp at h

variable {before : List (WorkflowSignal V)}

lemma Accumulates.singleton {e : Event V}
    (h : ∀ st, e.persisted = some st → st.signals = before ++ deliveredSignals [e])
    (htaken : e.takenSignal = none) : Accumulates before [e] := by
  intro pre e' post heq
  cases pre with
  | nil =>
    obtain ⟨rfl, -⟩ := cons_eq_cons.mp heq
    exact ⟨h, by simp [htaken]⟩
  | cons e'' pre => simp at heq

variable {tr : List (Event V)}

/-- Two stretches of events, the second of which starts from what the first delivered. -/
lemma Accumulates.append {tr' : List (Event V)} (h : Accumulates before tr)
    (h' : Accumulates (before ++ deliveredSignals tr) tr') :
    Accumulates before (tr ++ tr') := by
  intro pre e post heq
  rcases append_eq_append_iff.mp heq with ⟨mid, rfl, htr'⟩ | ⟨mid, htr, hpost⟩
  · have hmid := h' mid e post htr'
    rwa [append_assoc, ← deliveredSignals_append, append_assoc, ← deliveredSignals_append,
      ← append_assoc] at hmid
  · cases mid with
    | nil =>
      subst htr
      simpa [deliveredSignals_append, deliveredSignals] using h' [] e post hpost.symm
    | cons e' mid =>
      obtain ⟨rfl, rfl⟩ := cons_eq_cons.mp hpost
      exact h pre e mid htr

variable {queue : List (WorkflowSignal V)}

lemma Accumulates.of_queueIs (h : ∀ e ∈ tr, e.QueueIs queue) :
    Accumulates queue tr ∧ deliveredSignals tr = [] := by
  have hnone : ∀ tr' : List (Event V), (∀ e ∈ tr', e ∈ tr) → deliveredSignals tr' = [] :=
    fun tr' h' => filterMap_eq_nil_iff.mpr fun e he => (h e (h' e he)).delivered
  refine ⟨?_, hnone tr fun _ he => he⟩
  rintro pre e post rfl
  rw [hnone pre fun e' he' => by simp [he'], hnone (pre ++ [e]) fun e' he' => by
    rcases mem_append.mp he' with he' | he'
    · simp [he']
    · simp [mem_singleton.mp he'], append_nil]
  have he := h e (by simp)
  exact ⟨he.persisted, he.taken⟩

variable {st : WorkflowState V} (wf : WorkflowDef V W) (clock : Clock W)

/-- A drive of a run in the store accumulates nothing, and leaves the run's queue in the store. -/
lemma WorkflowDef.drive_accumulates {st' : WorkflowState V} (hst : st.QueueIs wf.id queue)
    (hst' : st'.QueueIs wf.id queue) (world : W) :
    Accumulates queue (wf.drive clock st (some st') world).1 ∧
      deliveredSignals (wf.drive clock st (some st') world).1 = [] ∧
      ∃ st'', (wf.drive clock st (some st') world).2.1 = some st'' ∧ st''.QueueIs wf.id queue := by
  obtain ⟨hq, hR⟩ := (queueIs_rule clock wf.id queue).drive wf.outputSchema (wf.run st.input)
    (.begin wf.id st (some st') world) ⟨rfl, hst, hst, _, rfl, hst'⟩
  obtain ⟨hacc, hnone⟩ := Accumulates.of_queueIs hq
  exact ⟨hacc, hnone, hR⟩

variable (runId : String)

lemma WorkflowDef.op_accumulates (hst : st.QueueIs wf.id queue) (world : W) (op : Op V) :
    Accumulates queue (wf.op clock runId (some st) world op).1 ∧
      ∃ st', (wf.op clock runId (some st) world op).2.1 = some st' ∧
        st'.QueueIs wf.id (queue ++ deliveredSignals (wf.op clock runId (some st) world op).1) := by
  have hstay : Accumulates queue ([] : List (Event V)) ∧ ∃ st', some st = some st' ∧
      st'.QueueIs wf.id (queue ++ deliveredSignals ([] : List (Event V))) :=
    ⟨.nil _, st, rfl, by simpa [deliveredSignals] using hst⟩
  cases op with
  | resume =>
    simp only [WorkflowDef.op]
    cases hr : resumeWith runId wf.id (some st) with
    | threw err => exact hstay
    | finished _ => exact hstay
    | drives loaded =>
      obtain ⟨-, -, rfl⟩ := resumeWith_eq_drives.mp hr
      have hloaded : st.resumed.QueueIs wf.id queue := hst
      obtain ⟨hacc, hnone, hstore⟩ := wf.drive_accumulates clock hloaded hst world
      rw [hnone, append_nil]
      exact ⟨hacc, hstore⟩
  | signal name payload =>
    simp only [WorkflowDef.op]
    cases hc : signalCheck runId name (some st) with
    | error err => exact hstay
    | ok st' =>
      obtain ⟨rfl, -⟩ : st = st' ∧ _ := by simpa using signalCheck_eq_ok.mp hc
      have hdeliver : ∀ signal : WorkflowSignal V, (st.deliver signal).signals =
          queue ++ deliveredSignals [delivered signal (st.deliver signal)] := by
        simp [WorkflowState.deliver, hst.2, deliveredSignals, deliveredSignal]
      refine ⟨.singleton (fun st' hst' => ?_) rfl, _, rfl, hst.1, hdeliver _⟩
      simp only [persisted, Option.some.injEq] at hst'
      exact hst' ▸ hdeliver _

lemma WorkflowDef.ops_accumulates (ops : List (Op V)) (hst : st.QueueIs wf.id queue) (world : W) :
    Accumulates queue (wf.ops clock runId ops (some st) world).1 := by
  induction ops generalizing st queue world with
  | nil => exact .nil _
  | cons op ops ih =>
    obtain ⟨hacc, st', hstore, hst'⟩ := wf.op_accumulates clock runId hst world op
    simp only [WorkflowDef.ops, hstore]
    exact hacc.append (ih hst' _)

/-- Throughout every run, the queue of each persisted state is the list of all signals delivered up
to it, and a wait returns the first of its name. -/
lemma WorkflowDef.trace_accumulates (input : Option V) (key : Option String) (ops : List (Op V))
    (world : W) :
    Accumulates [] (wf.trace clock runId input key ops world) := by
  unfold WorkflowDef.trace
  cases validateValue wf.inputSchema input "Workflow input validation failed" with
  | error err => exact .nil _
  | ok =>
    set st := startState runId wf.id (clock.now (clock.tick world)) input key
    have hq : st.QueueIs wf.id [] := ⟨rfl, rfl⟩
    obtain ⟨hacc, hnone, st', hstore, hst'⟩ := wf.drive_accumulates clock hq hq (clock.tick world)
    have hstart : Accumulates [] [started st] := by
      refine .singleton (fun st' h => ?_) rfl
      simp only [persisted, Option.some.injEq] at h
      exact h ▸ rfl
    refine hstart.append (Accumulates.append hacc ?_)
    rw [hstore, hnone]
    exact wf.ops_accumulates clock runId ops hst' _

/-- Waits return the first signal of their name in the run. -/
theorem takes_first_named (input : Option V) (key : Option String) (ops : List (Op V))
    (world : W) :
    let tr := wf.trace clock runId input key ops world
    (takenSignals tr).map (fun s => firstNamed (deliveredSignals tr) s.name) =
      (takenSignals tr).map some := by
  refine map_congr_left fun s hs => ?_
  obtain ⟨e, he, htaken⟩ := mem_filterMap.mp hs
  obtain ⟨pre, post, htr⟩ := append_of_mem he
  have hfirst := (wf.trace_accumulates _ _ _ _ _ _ pre e post htr).2 s htaken
  rw [nil_append, firstNamed] at hfirst
  rw [htr, deliveredSignals_append, firstNamed, List.find?_append, hfirst]
  rfl

/-- Consumption is once only exactly in the runs in which no wait takes a signal. -/
lemma consumedOnce_iff_taken_eq_nil (h : Accumulates [] tr)
    (hpersists : ∀ e ∈ tr, e.takenSignal.isSome → e.persisted.isSome) :
    ConsumedOnce tr ↔ takenSignals tr = [] := by
  constructor
  · intro honce
    by_contra hne
    obtain ⟨signal, hsignal⟩ := exists_mem_of_ne_nil _ hne
    obtain ⟨e, he, htaken⟩ := mem_filterMap.mp hsignal
    obtain ⟨st, hst⟩ := Option.isSome_iff_exists.mp (hpersists e he (by simp [htaken]))
    obtain ⟨pre, post, rfl⟩ := append_of_mem he
    -- At the checkpoint, the queue alone is already all that was delivered.
    have hle := (honce pre e post st rfl hst).length_le
    rw [(h pre e post rfl).1 st hst, length_append, nil_append] at hle
    have hpos : 0 < (takenSignals (pre ++ [e])).length :=
      length_pos_of_mem (mem_filterMap.mpr ⟨e, by simp, htaken⟩)
    omega
  · intro hnil pre e post st heq hst
    have hsub : takenSignals (pre ++ [e]) = [] := by
      subst heq
      rw [takenSignals, filterMap_eq_nil_iff] at hnil ⊢
      intro e' he'
      rcases mem_append.mp he' with he' | he'
      · exact hnil e' (by simp [he'])
      · exact hnil e' (by simp [mem_singleton.mp he'])
    rw [hsub, (h pre e post heq).1 st hst]
    exact List.Subperm.refl _

lemma Event.persisted_isSome_of_taken (e : Event V) (h : e.takenSignal.isSome) :
    e.persisted.isSome := by
  cases e <;> simp_all [takenSignal, persisted]

/-- Signals are consumed once only in a run exactly when no `waitForSignal` of the run finds a
signal of its name in the queue. -/
theorem signals_consumed_once_iff (wf : WorkflowDef V W) (clock : Clock W) (runId : String)
    (input : Option V) (key : Option String) (ops : List (Op V)) (world : W) :
    ConsumedOnce (wf.trace clock runId input key ops world) ↔
      takenSignals (wf.trace clock runId input key ops world) = [] :=
  consumedOnce_iff_taken_eq_nil (wf.trace_accumulates clock runId input key ops world)
    fun e _ => e.persisted_isSome_of_taken

/-- A body that waits for two approvals and returns the second. -/
def twoApprovals : WorkflowDef ℕ ℕ where
  id := "approvals"
  inputSchema := none
  outputSchema := none
  run _ := .waitForSignal "approval" none fun _ =>
    .waitForSignal "approval" none fun reply =>
      match reply with
      | .ok second => .ret second
      | .error err => .throw err

/-- One approval completes both waits: the run starts, receives a single signal, and is resumed. -/
theorem twoApprovals_one_signal :
    let tr := twoApprovals.trace tickClock "r" none none [.signal "approval" (some 7), .resume] 0
    deliveredSignals tr = [⟨"approval", some 7, 4⟩] ∧
      takenSignals tr = [⟨"approval", some 7, 4⟩, ⟨"approval", some 7, 4⟩] ∧ ¬ ConsumedOnce tr := by
  have hdel : deliveredSignals (twoApprovals.trace tickClock "r" none none
      [.signal "approval" (some 7), .resume] 0) = [⟨"approval", some 7, 4⟩] := by decide +kernel
  have htaken : takenSignals (twoApprovals.trace tickClock "r" none none
      [.signal "approval" (some 7), .resume] 0) =
        [⟨"approval", some 7, 4⟩, ⟨"approval", some 7, 4⟩] := by decide +kernel
  refine ⟨hdel, htaken, fun honce => ?_⟩
  have hnil := (consumedOnce_iff_taken_eq_nil (twoApprovals.trace_accumulates tickClock "r" none
    none [.signal "approval" (some 7), .resume] 0) fun e _ => e.persisted_isSome_of_taken).mp
    honce
  rw [htaken] at hnil
  exact absurd hnil (by simp)

end Fino.Workflow
