import Mathlib.Data.List.Perm.Subperm
import Fino.Workflow.System

/-!
# Delivered signals

`signal` reads the run and later saves the whole snapshot with one more entry, so an entry whose
call has resolved can be overwritten by another `signal` or a drive (`second_signal_overwrites`).
`History` remembers what was delivered and returned. Nothing is lost when each `signal` delivers
alone (`DeliversAlone`): every drive is over, no other call holds a snapshot, and no body has taken
a signal that is not persisted as taken (`run_delivering`).
-/

namespace Fino.Workflow

open Lib Option SparseArray

variable {V : Type}

/-- No signal of the name is queued. -/
def WorkflowState.NoSignal (name : String) (st : WorkflowState V) : Prop :=
  ∀ signal ∈ st.signals, signal.name ≠ name

/-- A state that waits for a signal has none of its name in the queue. -/
def WorkflowState.Clean (st : WorkflowState V) : Prop :=
  ∀ id name index timeoutAt,
    st.waitingOn = some (.signal id name index timeoutAt) → st.NoSignal name

variable {a : Action V} {s : Sys V} {st : WorkflowState V}

/-- A wait parks only when it finds no signal, and every later change of the queue ends the wait or
removes a signal. -/
lemma Derives.clean {st' : WorkflowState V} (h : Derives s a st st') (hst : st.Clean) :
    st'.Clean := by
  have hnone : ∀ st : WorkflowState V, st.waitingOn = none → st.Clean := by
    rintro st h _ _ _ _ hw
    exact absurd (h.symm.trans hw) (by simp)
  cases h with
  | resumed | wrote => exact hst
  | parkTimer => exact fun _ _ _ _ hw => absurd hw (by simp [WorkflowState.parkTimer])
  | parkSignal hd hnew hfind htime hopen =>
    intro id name index timeoutAt hw signal hmem hname
    obtain ⟨-, rfl, -, -⟩ := hw
    exact absurd (List.findIdx?_eq_none_iff.mp hfind signal hmem) (by simpa using hname)
  | dropSignal =>
    exact fun _ _ _ _ hw signal hmem => hst _ _ _ _ hw signal (List.mem_of_mem_eraseIdx hmem)
  | complete | done | cancelled | deliver => exact hnone _ rfl
  | failed hd =>
    unfold settled
    dsimp only
    split_ifs
    · exact hst
    · exact hnone _ rfl
    · exact hnone _ rfl

variable {runId : String} {t : Sys V}

lemma Step.clean (h : Step runId s a t) (hs : s.All WorkflowState.Clean) :
    t.All WorkflowState.Clean := by
  refine h.all hs (fun _ h => h) ?_ (fun _ _ hst hd => hd.clean hst) fun _ _ h => h
  rintro _ _ _ _ _ _ - _ _ _ _ hw
  exact absurd hw (by simp [startState])

/-- The signals that `signal` calls delivered, and those that completed waits returned. -/
structure History (V : Type) where
  delivered : List (WorkflowSignal V)
  consumed : List (WorkflowSignal V)

/-- The signal that an action delivers: its `signal` call resolves. -/
def deliveredBy (runId : String) (s : Sys V) : Action V → Option (WorkflowSignal V)
  | .signalSet c now =>
    match s.calls.get c with
    | some (.signal name payload read) =>
      match signalCheck runId name read with
      | .ok _ => some ⟨name, payload, now⟩
      | .error _ => none
    | _ => none
  | _ => none

/-- The signal that was the payload of the wait whose checkpoint an action persists. -/
def consumedBy (s : Sys V) : Action V → Option (WorkflowSignal V)
  | .completeSet d _ => (s.drives.get d).bind fun drive => drive.active.bind fun c => c.1.taken
  | _ => none

def stepRemembering (runId : String) : Sys V × History V → Action V → Option (Sys V × History V) :=
  watch (step runId) fun g s a _ =>
    ⟨g.delivered ++ (deliveredBy runId s a).toList, g.consumed ++ (consumedBy s a).toList⟩

def noHistory : Sys V × History V := (.empty, ⟨[], []⟩)

/-- A checkpoint that took a signal is under way. -/
def Drive.holding (drive : Drive V) : Bool :=
  drive.queue.any (·.taken.isSome) || drive.active.any (·.1.taken.isSome)

/-- A signal is delivered when every drive is over and no other call holds a snapshot. A drive that
has ended makes no more calls, and while a checkpoint that took a signal is under way, its drive
neither pauses nor fails. `cancel` goes through a handle that has the stored queue, and `start`
finds no run. -/
def DeliversAlone (s : Sys V) : Action V → Prop
  | .signalSet c _ => s.drives.All Drive.Over ∧ (s.calls.erase c).All fun call => call.read = none
  | .request d req => ∀ drive ∈ s.drives.get d,
    drive.ended = false ∧ (req.isStep = false → drive.holding = false)
  | .settle d _ (.error _) => ∀ drive ∈ s.drives.get d, drive.holding = false
  | .cancel h _ => ∀ st ∈ s.handles.get h, s.store.map (·.signals) = some st.signals
  | .start .. => s.store = none
  | _ => True

lemma DeliversAlone.startsOnce (h : DeliversAlone s a) : StartsOnce s a := by
  cases a <;> first | exact h | trivial

/-! ## The queue that everyone sees -/

/-- The snapshots that a drive may still save have this queue; the runtime's own copy lacks the
signals of checkpoints under way. -/
structure Drive.Sees (queue : List (WorkflowSignal V)) (drive : Drive V) : Prop where
  current : drive.holding = false → drive.runtime.state.signals = queue
  captured : drive.captured.signals = queue
  latest : ∀ c read, drive.active = some (c, read) → ∃ q, read = some q ∧ q.signals = queue

variable {queue : List (WorkflowSignal V)}

lemma Drive.Sees.begin (h : ℕ) (workflowId : String) (hst : st.signals = queue) :
    (Drive.begin h workflowId st).Sees queue :=
  ⟨fun _ => hst, hst, by simp [Drive.begin]⟩

/-- One segment of a drive leaves the queue as it is, in the drive and in what it saves. -/
lemma Drive.Moves.sees {d : ℕ} {drive drive' : Drive V} {saved kept : Option (WorkflowState V)}
    {p : WorkflowState V} (h : drive.Moves (some p) d a drive' saved kept) (hp : p.signals = queue)
    (hs : drive.Sees queue)
    (hbase : ∀ c q, drive.active = some (c, some q) → drive.runtime.base (some q) = q)
    (hreq : ∀ req, a = .request d req → req.isStep = false → drive.holding = false)
    (hend : ∀ now err, a = .settle d now (.error err) → drive.holding = false) :
    drive'.Sees queue ∧ ∀ q, saved = some q → q.signals = queue := by
  cases h with
  | write | replies | runs => exact ⟨⟨hs.current, hs.captured, hs.latest⟩, by simp⟩
  | due =>
    refine ⟨⟨fun hfree => hs.current ?_, hs.captured, hs.latest⟩, by simp⟩
    simpa [Drive.holding] using hfree
  | takes hnew hk hname =>
    -- From here on the drive holds a signal, which its runtime's copy lacks.
    refine ⟨⟨fun hfree => absurd hfree ?_, hs.captured, hs.latest⟩, by simp⟩
    simp [Drive.holding]
  | parksTimer hnew hdue hlt hst | parksSignal hnew hnone htime hopen hst =>
    subst hst
    have hcur := hs.current (hreq _ rfl rfl)
    exact ⟨⟨fun _ => hcur, hs.captured, hs.latest⟩, fun q hq => some.inj hq ▸ hcur⟩
  | stepEnds hrun =>
    rename_i reply
    cases reply with
    | ok value =>
      refine ⟨⟨fun hfree => hs.current ?_, hs.captured, hs.latest⟩, by simp⟩
      simpa [Drive.holding, Drive.stepEnds] using hfree
    | error err => exact ⟨⟨hs.current, hs.captured, hs.latest⟩, by simp⟩
  | completeGet hactive hqueue =>
    refine ⟨⟨fun hfree => hs.current ?_, hs.captured, fun c read ha => ?_⟩, by simp⟩
    · rw [← hfree]
      simp [Drive.holding, hactive, hqueue, Bool.or_comm]
    · simp only [some.injEq, Prod.mk.injEq] at ha
      exact ⟨p, ha.2.symm, hp⟩
  | completeSet hactive hnext =>
    -- `#complete` starts from what it read, so the signals under way are back in every copy.
    rename_i now c latest next
    obtain ⟨q, rfl, hq⟩ := hs.latest c latest hactive
    have hsignals : next.signals = queue := by
      rw [hnext, hbase c q hactive]
      exact hq
    exact ⟨⟨fun _ => hsignals, hsignals, by simp [Drive.completed]⟩,
      fun r hr => some.inj hr ▸ hsignals⟩
  | settle hended hst =>
    rename_i now outcome st
    have hsignals : st.signals = queue := by
      cases outcome with
      | ok output => exact hst ▸ hs.captured
      | error err =>
        have hcur := hs.current (hend now err rfl)
        rw [hst]
        unfold settled
        dsimp only
        split_ifs <;> exact hcur
    exact ⟨⟨hs.current, hsignals, hs.latest⟩, fun r hr => some.inj hr ▸ hsignals⟩

/-- The stored queue, and that of everyone who may still save one, is the list of delivered signals.
-/
structure Delivering (s : Sys V) (queue : List (WorkflowSignal V)) : Prop where
  one : s.OneWorkflow
  unstarted : s.store = none → queue = []
  stored : ∀ p, s.store = some p → p.signals = queue
  read : ∀ c call p, s.calls.get c = some call → call.read = some p → p.signals = queue
  drives : ∀ d drive, s.drives.get d = some drive → ¬ drive.Over → drive.Sees queue

section

variable (hs : Delivering s queue)

include hs

lemma Delivering.read_set {c : ℕ} {call : Pending V} (hcall : call.read = s.store) :
    ∀ i call' p, (s.calls.set c call).get i = some call' → call'.read = some p →
      p.signals = queue := by
  intro i call' p hi hp
  rw [get_set] at hi
  split_ifs at hi
  · rw [← some.inj hi, hcall] at hp
    exact hs.stored p hp
  · exact hs.read i call' p hi hp

lemma Delivering.read_erase (c : ℕ) :
    ∀ i call p, (s.calls.erase c).get i = some call → call.read = some p → p.signals = queue :=
  fun i call p hi hp => hs.read i call p (get_of_get_erase _ hi).2 hp

lemma Delivering.moved {d : ℕ} {drive drive' : Drive V} {saved kept : Option (WorkflowState V)}
    (hok : DeliversAlone s a) (one : (s.moved d drive' saved kept).OneWorkflow)
    (hd : s.drives.get d = some drive) (hmove : drive.Moves s.store d a drive' saved kept) :
    Delivering (s.moved d drive' saved kept) queue := by
  obtain ⟨p, hp⟩ := isSome_iff_exists.mp (hs.one.isOf hd).stored
  -- A drive that is over only writes to its bag, and any other one leaves the queue.
  have key : (¬ drive'.Over → drive'.Sees queue) ∧ ∀ q, saved = some q → q.signals = queue := by
    by_cases hover : drive.Over
    · have hreq : ∀ req, a ≠ .request d req := by
        rintro req rfl
        exact absurd hover.1 (by simp [(hok drive hd).1])
      obtain ⟨hover', rfl⟩ := hmove.of_over hover hreq
      exact ⟨fun h => absurd hover' h, by simp⟩
    · rw [hp] at hmove
      have hsees := hmove.sees (hs.stored p hp) (hs.drives d drive hd hover)
        (fun c q ha => hs.one.base_eq hd ha) (by rintro req rfl; exact (hok drive hd).2)
        (by rintro now err rfl; exact hok drive hd)
      exact ⟨fun _ => hsees.1, hsees.2⟩
  refine ⟨one, ?_, ?_, by simpa using hs.read, ?_⟩
  · intro hnone
    rw [Sys.moved_store, hp] at hnone
    cases saved <;> simp at hnone
  · intro q hq
    rw [Sys.moved_store] at hq
    cases saved with
    | none => exact hs.stored q hq
    | some q' => exact some.inj hq ▸ key.2 q' rfl
  · intro i drive₁ hi
    rw [Sys.moved_drives, get_set] at hi
    split_ifs at hi
    · exact some.inj hi ▸ key.1
    · exact hs.drives i drive₁ hi

lemma Delivering.drives_begin (d h : ℕ) (workflowId : String) (hst : st.signals = queue) :
    ∀ i drive, (s.drives.set d (.begin h workflowId st)).get i = some drive → ¬ drive.Over →
      drive.Sees queue := by
  intro i drive hi
  rw [get_set] at hi
  split_ifs at hi
  · exact some.inj hi ▸ fun _ => .begin h workflowId hst
  · exact hs.drives i drive hi

end

lemma deliveredBy_eq_none (h : ∀ c now, a ≠ .signalSet c now) : deliveredBy runId s a = none := by
  cases a with
  | signalSet c now => exact absurd rfl (h c now)
  | _ => rfl

/-- A step of anything but a `signal` call that goes on leaves the queue that everyone sees. -/
lemma Step.delivering_same (h : Step runId s a t) (hok : DeliversAlone s a)
    (hs : Delivering s queue) (hne : ∀ c now, a ≠ .signalSet c now) : Delivering t queue := by
  have one := h.oneWorkflow hok.startsOnce hs.one
  cases h with
  | start hd hst =>
    have hq : queue = [] := hs.unstarted hok
    subst hq hst
    exact ⟨one, by simp, fun p hp => some.inj hp ▸ rfl, hs.read,
      hs.drives_begin _ _ _ rfl⟩
  | resumeGet hc | cancelGet hc hh | signalGet hc =>
    exact ⟨one, hs.unstarted, hs.stored, hs.read_set rfl, hs.drives⟩
  | resumeDrives hc hd hopen hid =>
    have hst := hs.read _ _ _ hc rfl
    exact ⟨one, hs.unstarted, hs.stored, hs.read_erase _, hs.drives_begin _ _ _ hst⟩
  | resumeEnds hc =>
    refine ⟨one, ?_, ?_, ?_, ?_⟩
    · simpa using hs.unstarted
    · simpa using hs.stored
    · simpa using hs.read_erase _
    · simpa using hs.drives
  | moves hd hmove => exact hs.moved hok one hd hmove
  | cancel hh =>
    rename_i h now st
    have hst : s.store.map (·.signals) = some st.signals := hok st hh
    obtain ⟨p, hp, hsame⟩ := map_eq_some_iff.mp hst
    have hqueue : st.signals = queue := hsame.symm.trans (hs.stored p hp)
    exact ⟨one, by simp, fun q hq => some.inj hq ▸ hqueue, hs.read, hs.drives⟩
  | cancelSet hc =>
    have hqueue := hs.read _ _ _ hc rfl
    exact ⟨one, by simp, fun q hq => some.inj hq ▸ hqueue, hs.read_erase _, hs.drives⟩
  | signalSet | signalFails => exact absurd rfl (hne _ _)
  | cancelSkips | dropCall => exact ⟨one, hs.unstarted, hs.stored, hs.read_erase _, hs.drives⟩
  | drop =>
    exact ⟨one, hs.unstarted, hs.stored, hs.read,
      fun i drive hi => hs.drives i drive (get_of_get_erase _ hi).2⟩

lemma Step.delivering (h : Step runId s a t) (hok : DeliversAlone s a) (hs : Delivering s queue) :
    Delivering t (queue ++ (deliveredBy runId s a).toList) := by
  by_cases hsig : ∃ c now, a = .signalSet c now
  · obtain ⟨c, now, rfl⟩ := hsig
    have one := h.oneWorkflow hok.startsOnce hs.one
    cases h with
    | signalSet hc hwaiting hwait =>
      rename_i name payload st
      obtain ⟨hover, hcalls⟩ := hok
      have hby : deliveredBy runId s (.signalSet c now) = some ⟨name, payload, now⟩ := by
        have hcheck : signalCheck runId name (some st) = .ok st :=
          signalCheck_eq_ok.mpr ⟨rfl, hwaiting, hwait⟩
        simp only [deliveredBy, hc, hcheck]
      have hst := hs.read _ _ _ hc rfl
      rw [hby]
      -- Everyone else is over or holds nothing, so only the store has a queue to speak of.
      refine ⟨one, by simp, fun q hq => ?_, fun i call p hi hp => ?_, fun d drive hd hlive => ?_⟩
      · rw [← some.inj hq, WorkflowState.deliver, hst]
        rfl
      · exact absurd hp (by simp [hcalls i call hi])
      · exact absurd (hover d drive hd) hlive
    | signalFails hc herr =>
      have hby : deliveredBy runId s (.signalSet c now) = none := by
        simp only [deliveredBy, hc, herr]
      rw [hby, toList_none, List.append_nil]
      exact ⟨one, hs.unstarted, hs.stored, hs.read_erase _, hs.drives⟩
    | moves hd hmove => cases hmove
  · have hne : ∀ c now, a ≠ .signalSet c now := fun c now ha => hsig ⟨c, now, ha⟩
    rw [deliveredBy_eq_none hne, toList_none, List.append_nil]
    exact h.delivering_same hok hs hne

/-- In a run in which signals are delivered alone, everyone who may still save a queue has the list
of delivered signals. -/
lemma run_delivering {p : Sys V × History V}
    (h : Run (stepRemembering runId) (fun p => DeliversAlone p.1) noHistory p) :
    Delivering p.1 p.2.delivered := by
  refine h.invariant (I := fun p => Delivering p.1 p.2.delivered) ?_ ?_
  · intro p a q hp hok hstep
    obtain ⟨hstep, hnote⟩ := watch_eq_some.mp hstep
    rw [hnote]
    exact (Step.of_step hstep).delivering hok hp
  · exact ⟨Sys.oneWorkflow_empty, fun _ => rfl, by simp [noHistory, Sys.empty],
      by simp [noHistory, Sys.empty], by simp [noHistory, Sys.empty]⟩

/-- In a run in which signals are delivered alone, each delivered signal is still in the stored
queue, or was the payload of a completed wait. -/
theorem delivered_signals_not_lost {runId : String} {s : Sys V} {g : History V}
    {p : WorkflowState V}
    (h : Run (stepRemembering runId) (fun p => DeliversAlone p.1) noHistory (s, g))
    (hp : s.store = some p) : g.delivered.Subperm (g.consumed ++ p.signals) := by
  have hstored : p.signals = g.delivered := (run_delivering h).stored p hp
  rw [hstored]
  exact (List.sublist_append_right _ _).subperm

/-! ## A signal that is lost -/

instance (s : Sys V) [DecidableEq V] (a : Action V) : Decidable (DeliversAlone s a) := by
  induction a using Action.casesOn with
  | settle d now outcome =>
    induction outcome using Except.casesOn <;> unfold DeliversAlone <;> infer_instance
  | _ => unfold DeliversAlone; infer_instance

/-- A body waits for `ok`, and its drive ends. -/
def parkedForOk : List (Action ℕ) :=
  [.start 0 0 "w" 0 none none, .request 0 (.waitForSignal 0 "ok" none),
    .settle 0 1 (.error .waitSignal)]

/-- Two `signal` calls read the waiting run, and then both save it. -/
def twoSignals : List (Action ℕ) :=
  [.signalGet 0 "ok" (some 1), .signalGet 1 "ok" (some 2), .signalSet 0 2, .signalSet 1 3]

/-- One `signal` call, after which the run is resumed and its wait returns. -/
def oneSignal : List (Action ℕ) :=
  [.signalGet 0 "ok" (some 1), .signalSet 0 2, .resumeGet 0 1 "w", .resumeRun 0 1,
    .request 1 (.waitForSignal 3 "ok" none), .completeGet 1, .completeSet 1 4]

def queueHistory (p : Sys ℕ × History ℕ) :
    Option (List (WorkflowSignal ℕ) × List (WorkflowSignal ℕ) × List (WorkflowSignal ℕ)) :=
  p.1.store.map fun st => (p.2.delivered, p.2.consumed, st.signals)

lemma exists_of_queueHistory {p : Sys ℕ × History ℕ}
    {delivered consumed queue : List (WorkflowSignal ℕ)}
    (h : queueHistory p = some (delivered, consumed, queue)) :
    ∃ st, p.1.store = some st ∧ p.2.delivered = delivered ∧ p.2.consumed = consumed ∧
      st.signals = queue := by
  obtain ⟨st, hst, h⟩ := map_eq_some_iff.mp h
  simp only [Prod.mk.injEq] at h
  exact ⟨st, hst, h⟩

/-- Both calls resolve, and the second overwrites what the first delivered before any wait has
returned it. -/
theorem second_signal_overwrites :
    ∃ s g p, Run (stepRemembering "r") Any (noHistory : Sys ℕ × History ℕ) (s, g) ∧
      s.store = some p ∧ g.delivered = [⟨"ok", some 1, 2⟩, ⟨"ok", some 2, 3⟩] ∧ g.consumed = [] ∧
      p.signals = [⟨"ok", some 2, 3⟩] ∧ ¬ g.delivered.Subperm (g.consumed ++ p.signals) := by
  have h : (exec (stepRemembering "r") noHistory (parkedForOk ++ twoSignals)).bind queueHistory =
      some ([⟨"ok", some 1, 2⟩, ⟨"ok", some 2, 3⟩], [], [⟨"ok", some 2, 3⟩]) := by decide +kernel
  obtain ⟨⟨s, g⟩, hexec, h⟩ := bind_eq_some_iff.mp h
  obtain ⟨p, hp, hdelivered, hconsumed, hqueue⟩ := exists_of_queueHistory h
  refine ⟨s, g, p, Run.of_exec_any hexec, hp, hdelivered, hconsumed, hqueue, fun hsub => ?_⟩
  have hle := hsub.length_le
  rw [hdelivered, hconsumed, hqueue] at hle
  simp at hle

/-- A signal that is delivered alone is returned by the wait, and nothing is lost. -/
theorem one_signal_not_lost :
    ∃ s g p, Run (stepRemembering "r") (fun p => DeliversAlone p.1)
        (noHistory : Sys ℕ × History ℕ) (s, g) ∧
      s.store = some p ∧ g.delivered = [⟨"ok", some 1, 2⟩] ∧ g.consumed = [⟨"ok", some 1, 2⟩] ∧
      g.delivered.Subperm (g.consumed ++ p.signals) := by
  have h : (exec (restrict (stepRemembering "r") fun p => DeliversAlone p.1) noHistory
      (parkedForOk ++ oneSignal)).bind queueHistory =
        some ([⟨"ok", some 1, 2⟩], [⟨"ok", some 1, 2⟩], [⟨"ok", some 1, 2⟩]) := by decide +kernel
  obtain ⟨⟨s, g⟩, -, hrun, h⟩ := Run.exists_of_exec h
  obtain ⟨p, hp, hdelivered, hconsumed, -⟩ := exists_of_queueHistory h
  exact ⟨s, g, p, hrun, hp, hdelivered, hconsumed, delivered_signals_not_lost hrun hp⟩

end Fino.Workflow
