import Fino.Workflow.System

/-!
# Runs that are done or cancelled

Only `resume` looks at the stored status, so a final status is overwritten by whoever was at work
when it was saved (`checkpoint_revives_cancelled`). It is absorbing when it is saved by someone who
is alone (`Sys.Alone`): every drive has ended with nothing under way, and no `resume` or `signal`
holds a snapshot to go on from (`FinalAlone`, `final_absorbing`).
-/

namespace Fino.Workflow

open Lib WorkflowStatus WorkflowState

variable {V : Type}

/-- The stored status is `done` or `cancelled`. -/
def Sys.Final (s : Sys V) : Prop := ∃ p, s.store = some p ∧ p.status.Final

/-- A call that cannot go on to a write: a `resume` that will not drive, a `cancel`, or a `signal`
that will be refused. -/
def Pending.Harmless : Pending V → Prop
  | .resume _ _ read => ∀ st ∈ read, st.status.Final
  | .cancel .. => True
  | .signal _ _ read => ∀ st ∈ read, st.status ≠ .waiting

/-- No drive goes on, and no call that is under way can write. -/
def Sys.Alone (s : Sys V) : Prop := s.drives.All Drive.Over ∧ s.calls.All Pending.Harmless

/-- The outcomes of a body for which `#drive` saves `done` or `cancelled`. -/
def SavesFinal : Except JsError (Option V) → Prop
  | .ok _ => True
  | .error err => err.name = "AbortError"

/-- A final status is saved by the end of a drive that has nothing under way, when all other drives
are over and no pending call can go on, or by `cancel` when no one is at work. After that the bodies
make no more checkpoint calls, and the run is not started again. -/
def FinalAlone (s : Sys V) : Action V → Prop
  | .settle d _ outcome => SavesFinal outcome →
    (∀ drive ∈ s.drives.get d, drive.Idle) ∧ (s.drives.erase d).All Drive.Over ∧
      s.calls.All Pending.Harmless
  | .cancel .. | .cancelSet .. => s.Alone
  | .request .. | .start .. => ¬ s.Final
  | _ => True

/-! ## Final states stay final -/

/-- The runtime's own copy of the state is never final. -/
def Drive.Open (drive : Drive V) : Prop := ¬ drive.runtime.state.status.Final

variable {a : Action V}

lemma Drive.Moves.open {store : Option (WorkflowState V)} {d : ℕ} {drive drive' : Drive V}
    {saved kept : Option (WorkflowState V)} (h : drive.Moves store d a drive' saved kept)
    (ho : drive.Open) : drive'.Open := by
  cases h with
  | parksTimer _ _ _ hst | parksSignal _ _ _ _ hst =>
    subst hst
    exact fun h => absurd h (by simp [WorkflowRuntime.nextWith, parkTimer,
      parkSignal, Final])
  | stepEnds hrun =>
    rename_i reply
    cases reply <;> exact ho
  | completeSet hactive hnext =>
    subst hnext
    exact fun h =>
      absurd h (by simp [Drive.completed, complete, Final])
  | _ => exact ho

/-- What runs under `FinalAlone` keep: no drive has a final copy to save, and once the stored status
is final, no one is at work. -/
structure Quiet (s : Sys V) : Prop where
  opens : ∀ d drive, s.drives.get d = some drive → drive.Open
  alone : s.Final → s.Alone

variable {runId : String} {s t : Sys V}

lemma Step.opens (h : Step runId s a t)
    (hs : ∀ d drive, s.drives.get d = some drive → drive.Open) :
    ∀ d drive, t.drives.get d = some drive → drive.Open := by
  have hbegin : ∀ h w (st : WorkflowState V), st.status = .running → (Drive.begin h w st).Open :=
    fun h w st hst hf => absurd hf (by simp [Drive.begin, hst, Final])
  intro d drive' hd
  rcases h.drive_cases hd with hd | ⟨drive, _, _, hd, hmove, -⟩ | ⟨_, _, _, _, _, -, rfl⟩ |
    ⟨_, _, _, _, -, -, -, rfl⟩
  · exact hs d drive' hd
  · exact hmove.open (hs d drive hd)
  · exact hbegin _ _ _ rfl
  · exact hbegin _ _ _ rfl

lemma savesFinal_of_settled {captured current : WorkflowState V}
    {outcome : Except JsError (Option V)} (hopen : ¬ current.status.Final)
    (h : (settled captured current outcome).status.Final) : SavesFinal outcome := by
  cases outcome with
  | ok output => trivial
  | error err =>
    unfold settled at h
    dsimp only at h
    split_ifs at h with hwait habort
    · exact absurd h hopen
    · exact habort
    · exact absurd h (by simp [Final])

lemma Step.final_of_alone (h : Step runId s a t) (hok : FinalAlone s a) (hf : s.Final)
    (halone : s.Alone) : t.Final ∧ t.Alone := by
  obtain ⟨p, hp, hfinal⟩ := hf
  obtain ⟨hdrives, hcalls⟩ := halone
  have hnot : p.status ≠ .waiting := by
    rintro hw
    exact absurd hfinal (by simp [hw, Final])
  cases h with
  | start => exact absurd ⟨p, hp, hfinal⟩ hok
  | resumeGet hc =>
    refine ⟨⟨p, hp, hfinal⟩, hdrives, hcalls.set _ _ ?_⟩
    rintro st hst
    exact Option.some.inj (hp.symm.trans hst) ▸ hfinal
  | resumeDrives hc hd hopen hid => exact absurd (hcalls _ _ hc _ rfl) hopen
  | resumeEnds hc =>
    exact ⟨⟨p, by simpa using hp, hfinal⟩, by simpa using hdrives,
      by simpa using hcalls.erase _ _⟩
  | moves hd hmove =>
    -- A drive that is over does not come back but for a call of its body, which is excluded.
    rename_i d drive drive' saved kept
    have hreq : ∀ req, a ≠ .request d req := by
      rintro req rfl
      exact hok ⟨p, hp, hfinal⟩
    obtain ⟨hover, rfl⟩ := hmove.of_over (hdrives _ _ hd) hreq
    refine ⟨⟨p, ?_, hfinal⟩, ?_, ?_⟩
    · simpa using hp
    · simpa using hdrives.set _ _ hover
    · simpa using hcalls
  | cancel hh => exact ⟨⟨_, rfl, .inr rfl⟩, hdrives, hcalls⟩
  | cancelGet hc hh => exact ⟨⟨p, hp, hfinal⟩, hdrives, hcalls.set _ _ trivial⟩
  | cancelSet hc => exact ⟨⟨_, rfl, .inr rfl⟩, hdrives, hcalls.erase _ _⟩
  | cancelSkips hc | signalFails hc herr | dropCall =>
    exact ⟨⟨p, hp, hfinal⟩, hdrives, hcalls.erase _ _⟩
  | signalGet hc =>
    refine ⟨⟨p, hp, hfinal⟩, hdrives, hcalls.set _ _ ?_⟩
    rintro st hst
    exact Option.some.inj (hp.symm.trans hst) ▸ hnot
  | signalSet hc hwaiting hwait => exact absurd hwaiting (hcalls _ _ hc _ rfl)
  | drop => exact ⟨⟨p, hp, hfinal⟩, hdrives.erase _ _, hcalls⟩

lemma Step.alone_of_final (h : Step runId s a t) (hok : FinalAlone s a) (hs : Quiet s)
    (hnot : ¬ s.Final) (hf : t.Final) : t.Alone := by
  obtain ⟨q, hq, hfinal⟩ := hf
  cases h with
  | start hd hst =>
    cases hq
    subst hst
    exact absurd hfinal (by simp [startState, Final])
  | resumeEnds hc => exact absurd ⟨q, by simpa using hq, hfinal⟩ hnot
  | moves hd hmove =>
    rename_i d drive drive' saved kept
    cases hmove with
    | settle hended hst =>
      cases hq
      have hsaves := savesFinal_of_settled (hs.opens d drive hd) (hst ▸ hfinal)
      obtain ⟨hidle, hothers, hcalls⟩ := hok hsaves
      refine ⟨?_, ?_⟩
      · rw [Sys.moved_drives]
        exact hothers.set_of_erase _ ⟨rfl, hidle drive hd⟩
      · rw [Sys.moved_calls]
        exact hcalls
    | parksTimer _ _ _ hst | parksSignal _ _ _ _ hst =>
      cases hq
      subst hst
      exact absurd hfinal (by simp [parkTimer, parkSignal,
        Final])
    | completeSet hactive hnext =>
      cases hq
      subst hnext
      exact absurd hfinal (by simp [complete, Final])
    | _ => exact absurd ⟨q, hq, hfinal⟩ hnot
  | cancel hh => exact hok
  | cancelSet hc => exact ⟨hok.1, hok.2.erase _ _⟩
  | signalSet hc hwaiting hwait =>
    cases hq
    exact absurd hfinal (by simp [deliver, Final])
  | _ => exact absurd ⟨q, hq, hfinal⟩ hnot

lemma Step.quiet (h : Step runId s a t) (hok : FinalAlone s a) (hs : Quiet s) :
    Quiet t ∧ (s.Final → t.Final) := by
  by_cases hf : s.Final
  · obtain ⟨hf', halone⟩ := h.final_of_alone hok hf (hs.alone hf)
    exact ⟨⟨h.opens hs.opens, fun _ => halone⟩, fun _ => hf'⟩
  · exact ⟨⟨h.opens hs.opens, h.alone_of_final hok hs hf⟩, fun h => absurd h hf⟩

lemma run_quiet (h : Run (step runId) FinalAlone .empty s) : Quiet s :=
  h.invariant (fun _ _ _ hs hok hstep => ((Step.of_step hstep).quiet hok hs).1)
    ⟨by simp [Sys.empty], by simp [Sys.Final, Sys.empty]⟩

/-- In a run in which a final status is saved only by someone who is alone, the stored status stays
final once it is. -/
theorem final_absorbing {runId : String} {s t : Sys V} {p : WorkflowState V}
    (h : Run (step runId) FinalAlone .empty s) (hp : s.store = some p) (hfinal : p.status.Final)
    (ht : Run (step runId) FinalAlone s t) :
    ∃ q, t.store = some q ∧ (q.status = .done ∨ q.status = .cancelled) := by
  have habsorb := ht.relate (I := Quiet) (R := fun s t => s.Final → t.Final) (fun _ h => h)
    (fun _ _ _ h h' hf => h' (h hf)) (fun _ _ _ hs hok hstep => (Step.of_step hstep).quiet hok hs)
    (run_quiet h)
  exact habsorb ⟨p, hp, hfinal⟩

instance (s : Sys V) : Decidable s.Final :=
  decidable_of_iff (∃ p ∈ s.store, p.status.Final) Iff.rfl

instance (c : Pending V) : Decidable c.Harmless := by
  unfold Pending.Harmless
  split <;> infer_instance

instance (s : Sys V) : Decidable s.Alone := inferInstanceAs (Decidable (_ ∧ _))

instance (outcome : Except JsError (Option V)) : Decidable (SavesFinal outcome) := by
  induction outcome using Except.casesOn <;> unfold SavesFinal <;> infer_instance

instance (s : Sys V) (a : Action V) : Decidable (FinalAlone s a) := by
  induction a using Action.casesOn <;> unfold FinalAlone <;> infer_instance

def statusAfter (as : List (Action ℕ)) : Option WorkflowStatus :=
  (exec (step "r") .empty as).bind fun s => s.store.map (·.status)

/-- The checkpoint of a step has read the store when the run is cancelled through its handle. -/
def cancelledAtCheckpoint : List (Action ℕ) :=
  [.start 0 0 "w" 0 none none, .request 0 (.step "work"), .stepEnds 0 0 "work" (.ok (some 7)),
    .completeGet 0, .cancel 0 1]

/-- The checkpoint then saves the run as `running`. -/
theorem checkpoint_revives_cancelled :
    statusAfter cancelledAtCheckpoint = some .cancelled ∧
      statusAfter (cancelledAtCheckpoint ++ [.completeSet 0 2]) = some .running := by
  decide +kernel

def drivenToEnd : List (Action ℕ) :=
  [.start 0 0 "w" 0 none none, .request 0 (.step "work"), .stepEnds 0 0 "work" (.ok (some 7)),
    .completeGet 0, .completeSet 0 1, .settle 0 2 (.ok none)]

/-- A `resume` and a `signal` come late, and the run is cancelled through its handle. -/
def afterEnd : List (Action ℕ) :=
  [.resumeGet 0 1 "w", .signalGet 1 "ok" none, .resumeRun 0 1, .signalSet 1 3, .cancel 0 4]

/-- Nothing of this makes the run less than final. -/
theorem driven_to_end_stays_final :
    ∃ s t p, Run (step "r") FinalAlone (.empty : Sys ℕ) s ∧ s.store = some p ∧ p.status = .done ∧
      Run (step "r") FinalAlone s t ∧
      ∃ q, t.store = some q ∧ (q.status = .done ∨ q.status = .cancelled) := by
  have hs : (exec (restrict (step "r") FinalAlone) .empty drivenToEnd).bind
      (fun s => s.store.map (·.status)) = some .done := by decide +kernel
  have ht : (exec (restrict (step "r") FinalAlone) .empty (drivenToEnd ++ afterEnd)).bind
      (fun s => s.store.map (·.status)) = some .cancelled := by decide +kernel
  obtain ⟨s, hexec, hrun, hs⟩ := Run.exists_of_exec hs
  rw [exec_append, hexec, Option.bind_some] at ht
  obtain ⟨t, -, hrun', -⟩ := Run.exists_of_exec ht
  obtain ⟨p, hp, hdone⟩ := Option.map_eq_some_iff.mp hs
  exact ⟨s, t, p, hrun, hp, hdone, hrun', final_absorbing hrun hp (.inl hdone) hrun'⟩

end Fino.Workflow
