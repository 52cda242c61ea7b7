import Mathlib.Data.Nat.Notation
import Mathlib.Tactic.SplitIfs
import Fino.Lib.Transition

/-!
# The approval of a tool call

`approveTool`, `rejectTool` and `resume` of the `Session` objects of `js/ai/session.ts`, all with
the token of one run that is suspended for the approval of a tool. `#decideTool` checks the token
against the `#state` of its own object, loads the thread, executes the tool, and only then commits.
So two decisions that overlap both execute it, on one object or on two, and so does an approval that
overlaps a rejection (`overlapping_decisions`). If a decision begins only when no other is under
way, and none has executed the tool and then failed to commit, the token is used once
(`decided_once`).
-/

namespace Fino.Ai

open Lib List Option

/-- Where a call of `#decideTool` is: checked, with the thread loaded, or about to commit. -/
inductive Stage
  | loading | invoking | committing
  deriving DecidableEq

/-- A call of `#decideTool` that is under way. -/
structure Decision where
  session : ℕ
  approved : Bool
  stage : Stage

/-- The store has the head of the thread (revision 0 is the one that the run was suspended at) and
whether the run is suspended on the token; each object has the latter for its `#state`. Revision ids
are used once. -/
structure Approval where
  head : ℕ
  nextRevision : ℕ
  runSuspended : Bool
  suspended : ℕ → Bool
  decisions : List Decision
  /-- How often the tool was executed. -/
  executed : ℕ
  /-- The decisions that were committed, `true` for an approval. -/
  committed : List Bool

inductive Event
  /-- An object is made from the stored run, as `approveSuspended` does. -/
  | restore (session : ℕ)
  /-- `approveTool` or `rejectTool` is called. -/
  | decide (session : ℕ) (approved : Bool)
  /-- `resume` is called, and refuses a tool approval. -/
  | resume (session : ℕ)
  /-- `#loadExpectedThread`. -/
  | load (k : ℕ)
  /-- `execution.approveTool`, which executes the tool if approved; it may throw after that. -/
  | invoke (k : ℕ) (throws : Bool)
  /-- `commitAgentSession`. -/
  | commit (k : ℕ)
  /-- The process of a call is gone, or the store fails it. -/
  | fail (k : ℕ)
  /-- Someone commits another revision to the thread. -/
  | advance

variable (s : Approval)

def Approval.drop (k : ℕ) : Approval :=
  { s with decisions := s.decisions.eraseIdx k }

def Approval.stepDecision (k : ℕ) (d : Decision) : Event → Option Approval
  | .load _ =>
    if d.stage = .loading then
      -- Otherwise it throws a `SessionConflictError`, here as in `commitAgentSession`.
      if s.head = 0 then
        some { s with decisions := s.decisions.set k { d with stage := .invoking } }
      else some (s.drop k)
    else none
  | .invoke _ throws =>
    if d.stage = .invoking then
      let s := { s with executed := s.executed + d.approved.toNat }
      if throws then some (s.drop k)
      else some { s with
        -- `#setState(approvedState)`
        suspended := Function.update s.suspended d.session false
        decisions := s.decisions.set k { d with stage := .committing } }
    else none
  | .commit _ =>
    if d.stage = .committing then
      if s.head = 0 then some { s.drop k with
        head := s.nextRevision
        nextRevision := s.nextRevision + 1
        runSuspended := false
        committed := s.committed ++ [d.approved] }
      else some (s.drop k)
    else none
  | .fail _ => some (s.drop k)
  | _ => none

def step (e : Event) : Option Approval :=
  match e with
  | .restore i => some { s with suspended := Function.update s.suspended i s.runSuspended }
  | .decide i approved =>
    if s.suspended i then some { s with decisions := s.decisions ++ [⟨i, approved, .loading⟩] }
    else some s
  | .resume _ => some s
  | .advance => some { s with head := s.nextRevision, nextRevision := s.nextRevision + 1 }
  | .load k | .invoke k _ | .commit k | .fail k =>
    (s.decisions[k]?).bind fun d => s.stepDecision k d e

/-- The run is suspended, and any number of objects have it as their `#state`. -/
def init (suspended : ℕ → Bool) : Approval := ⟨0, 1, true, suspended, [], 0, []⟩

/-- A decision begins when no other is under way, and none has executed the tool uncommitted. -/
def Alone : Event → Prop
  | .decide .. => s.decisions = [] ∧ (s.committed = [] → s.executed = 0)
  | _ => True

/-- What such runs keep: one decision at a time, which is past loading only if none was committed,
and has executed the tool if it is an approval that is about to commit. -/
structure Single (s : Approval) : Prop where
  alone : s.decisions.length ≤ 1
  fresh : 0 < s.nextRevision
  moved : s.committed ≠ [] → s.head ≠ 0 ∧ ∀ d ∈ s.decisions, d.stage = .loading
  executed : s.committed = [] → ∀ d ∈ s.decisions,
    s.executed = if d.stage = .committing then d.approved.toNat else 0
  once : s.executed ≤ 1
  rejected : false ∈ s.committed → s.executed = 0

variable {s t : Approval} {d : Decision} {k : ℕ} {e : Event}

section

variable (h : Single s)

include h

lemma Single.decisions_eq (hk : s.decisions[k]? = some d) : k = 0 ∧ s.decisions = [d] := by
  have hlength := h.alone
  match hs : s.decisions, k with
  | [], _ => simp [hs] at hk
  | [d'], 0 => simpa [hs] using hk
  | [_], k + 1 => simp [hs] at hk
  | _ :: _ :: _, _ => simp [hs] at hlength

/-- A decision that is past loading is the only one, and none was committed. -/
lemma Single.committed_eq_nil (hs : s.decisions = [d]) (hd : d.stage ≠ .loading) :
    s.committed = [] := by
  by_contra hne
  exact hd ((h.moved hne).2 d (by simp [hs]))

lemma Single.drop (hs : s.decisions = [d]) : Single (s.drop 0) := by
  refine ⟨?_, h.fresh, fun hne => ⟨(h.moved hne).1, ?_⟩, fun _ => ?_, h.once, h.rejected⟩ <;>
    simp [Approval.drop, hs]

lemma Single.stepDecision (hs : s.decisions = [d]) (hstep : s.stepDecision 0 d e = some t) :
    Single t ∧ (s.committed ≠ [] → t.executed = s.executed ∧ t.committed = s.committed) := by
  have hdrop := h.drop hs
  cases e with
  | load k =>
    simp only [Approval.stepDecision] at hstep
    split_ifs at hstep with hstage hhead <;> cases hstep
    · refine ⟨⟨?_, h.fresh, fun hne => absurd hhead (h.moved hne).1, fun hnil => ?_, h.once,
        h.rejected⟩, fun _ => ⟨rfl, rfl⟩⟩
      · simp [hs]
      · have := h.executed hnil d (by simp [hs])
        simpa [hs, hstage] using this
    · exact ⟨hdrop, fun _ => ⟨rfl, rfl⟩⟩
  | invoke k throws =>
    simp only [Approval.stepDecision] at hstep
    split_ifs at hstep with hstage hthrows <;> cases hstep
    all_goals
      -- Nothing was committed, so the tool has not been executed before.
      have hnil := h.committed_eq_nil hs (by simp [hstage])
      have hzero : s.executed = 0 := by
        simpa [hstage] using h.executed hnil d (by simp [hs])
      have hle : d.approved.toNat ≤ 1 := Bool.toNat_le _
      refine ⟨⟨?_, h.fresh, fun hne => absurd hnil hne, fun _ => ?_, ?_, ?_⟩,
        fun hne => absurd hnil hne⟩ <;>
        simp [Approval.drop, hs, hzero, hle, hnil]
  | commit k =>
    simp only [Approval.stepDecision] at hstep
    split_ifs at hstep with hstage hhead <;> cases hstep
    · have hnil := h.committed_eq_nil hs (by simp [hstage])
      have hexec : s.executed = d.approved.toNat := by
        simpa [hstage] using h.executed hnil d (by simp [hs])
      refine ⟨⟨hdrop.alone, Nat.succ_pos _, fun _ => ⟨Nat.ne_of_gt h.fresh, ?_⟩, fun hne => ?_,
        h.once, fun hmem => ?_⟩, fun hne => absurd hnil hne⟩
      · simp [Approval.drop, hs]
      · simp at hne
      · have hd : d.approved = false := by simpa [hnil] using hmem
        show s.executed = 0
        rw [hexec, hd]
        rfl
    · exact ⟨hdrop, fun _ => ⟨rfl, rfl⟩⟩
  | fail k =>
    cases hstep
    exact ⟨hdrop, fun _ => ⟨rfl, rfl⟩⟩
  | _ => cases hstep

lemma Single.step (hok : Alone s e) (hstep : Ai.step s e = some t) :
    Single t ∧ (s.committed ≠ [] → t.executed = s.executed ∧ t.committed = s.committed) := by
  have hdecision : ∀ k, (s.decisions[k]?).bind (fun d => s.stepDecision k d e) = some t →
      Single t ∧ (s.committed ≠ [] → t.executed = s.executed ∧ t.committed = s.committed) := by
    intro k hk
    obtain ⟨d, hd, hk⟩ := bind_eq_some_iff.mp hk
    obtain ⟨rfl, hs⟩ := h.decisions_eq hd
    exact h.stepDecision hs hk
  cases e with
  | restore i =>
    cases hstep
    exact ⟨⟨h.alone, h.fresh, h.moved, h.executed, h.once, h.rejected⟩, fun _ => ⟨rfl, rfl⟩⟩
  | decide i approved =>
    simp only [Ai.step] at hstep
    split_ifs at hstep <;> cases hstep
    · refine ⟨⟨?_, h.fresh, fun hne => ⟨(h.moved hne).1, ?_⟩, fun hnil => ?_, h.once,
        h.rejected⟩, fun _ => ⟨rfl, rfl⟩⟩
      · simp [hok.1]
      · simp [hok.1]
      · simp [hok.1, hok.2 hnil]
    · exact ⟨h, fun _ => ⟨rfl, rfl⟩⟩
  | resume i =>
    cases hstep
    exact ⟨h, fun _ => ⟨rfl, rfl⟩⟩
  | advance =>
    cases hstep
    exact ⟨⟨h.alone, Nat.succ_pos _, fun hne => ⟨Nat.ne_of_gt h.fresh, (h.moved hne).2⟩, h.executed,
      h.once, h.rejected⟩, fun _ => ⟨rfl, rfl⟩⟩
  | load k | invoke k throws | commit k | fail k => exact hdecision k hstep

end

/-- In every run in which each decision begins alone, the tool is executed at most once, and never
if a rejection was committed; and once a decision was committed, no other is, and the tool is not
executed any more. -/
theorem decided_once {suspended : ℕ → Bool} (h : Run step Alone (init suspended) s)
    (h' : Run step Alone s t) :
    s.executed ≤ 1 ∧ (false ∈ s.committed → s.executed = 0) ∧
      (s.committed ≠ [] → t.executed = s.executed ∧ t.committed = s.committed) := by
  have hinit : Single (init suspended) := by
    constructor <;> simp [init]
  have hs : Single s := h.invariant (fun _ _ _ hi hok hstep => (hi.step hok hstep).1) hinit
  refine ⟨hs.once, hs.rejected, ?_⟩
  refine h'.relate (I := Single) (R := fun s t => s.committed ≠ [] →
    t.executed = s.executed ∧ t.committed = s.committed) (fun _ _ => ⟨rfl, rfl⟩) ?_
    (fun _ _ _ hi hok hstep => hi.step hok hstep) hs
  intro s t u hst htu hne
  obtain ⟨hexec, hcomm⟩ := hst hne
  obtain ⟨hexec', hcomm'⟩ := htu (hcomm ▸ hne)
  exact ⟨hexec'.trans hexec, hcomm'.trans hcomm⟩

instance (s : Approval) (e : Event) : Decidable (Alone s e) := by
  unfold Alone
  split <;> infer_instance

/-- One object approves while another has the same state, and this one is refused afterwards. -/
theorem approved_once :
    ∃ s t, Run step Alone (init fun _ => true) s ∧ Run step Alone s t ∧ s.committed = [true] ∧
      t.executed = 1 ∧ t.committed = [true] := by
  have hs : ((exec (restrict step Alone) (init fun _ => true)
      [.resume 0, .decide 0 true, .load 0, .invoke 0 false, .commit 0]).bind fun s =>
        (exec (restrict step Alone) s [.decide 1 false, .load 0]).bind fun t =>
          some (s.executed, s.committed, t.decisions.length)) = some (1, [true], 0) := by
    decide +kernel
  obtain ⟨s, -, hrun, h⟩ := Run.exists_of_exec hs
  obtain ⟨t, -, hrun', h⟩ := Run.exists_of_exec h
  obtain ⟨hexec, hcomm, -⟩ : s.executed = 1 ∧ s.committed = [true] ∧ t.decisions.length = 0 := by
    simpa using h
  obtain ⟨hexec', hcomm'⟩ := (decided_once hrun hrun').2.2 (by simp [hcomm])
  exact ⟨s, t, hrun, hrun', hcomm, hexec'.trans hexec, hcomm'.trans hcomm⟩

/-- Two approvals on one object overlap, and both execute the tool; and an approval executes it
after a rejection on another object was committed. -/
theorem overlapping_decisions :
    (exec step (init fun _ => true) [.decide 0 true, .decide 0 true, .load 0, .load 1,
        .invoke 0 false, .invoke 1 false]).map (·.executed) = some 2 ∧
      (exec step (init fun _ => true) [.decide 0 true, .decide 1 false, .load 0, .load 1,
        .invoke 1 false, .commit 1, .invoke 0 false]).map
          (fun s => (s.committed, s.executed)) = some ([false], 1) := by
  refine ⟨?_, ?_⟩ <;> decide +kernel

end Fino.Ai
