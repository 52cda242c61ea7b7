import Mathlib.Data.List.Perm.Subperm
import Fino.Workflow.Cursor

/-!
# Records below the cursor

Every writer saves a whole snapshot, `#step` makes again what lies behind a hole, and `#sleep` and
`#waitForSignal` do not compare ids. `Orderly` runs are serial, and each call finds no record or one
below the cursor, with the call's own id unless it is a `step`. Then the checkpoints under way are
for indices without a record (`Drive.Fresh`), and the stored record only moves forward
(`orderly_storeAdvances`).
-/

namespace Fino.Workflow

open Lib List Option Drive WorkflowState

variable {V : Type} {rt : WorkflowRuntime V} {req : Request}

/-- What a call may find at its index: no record, or one below the cursor, which has the call's id
unless the call is a `step`. -/
def WorkflowRuntime.Finds (rt : WorkflowRuntime V) (req : Request) : Prop :=
  ∀ r ∈ rt.completed, rt.callIndex < rt.state.cursor ∧ (req.isStep ∨ r.id = req.id)

/-- Every call finds at its index what it may. -/
def CallsInOrder (s : Sys V) : Action V → Prop
  | .request d req => ∀ drive ∈ s.drives.get d, drive.runtime.Finds req
  | _ => True

/-- Serial runs of bodies whose calls find what they may. -/
def Orderly (s : Sys V) (a : Action V) : Prop := Serial s a ∧ CallsInOrder s a

/-- A call that finds what it may and does not replay finds no record, unless it is a `step` below
the cursor. -/
lemma WorkflowRuntime.Finds.completed_eq_none (h : rt.Finds req) (hnew : ¬ rt.Replays req.id)
    (hstep : req.isStep → rt.state.cursor ≤ rt.callIndex) : rt.completed = none := by
  rw [eq_none_iff_forall_ne_some]
  intro r hr
  obtain ⟨hlt, hkind⟩ := h r hr
  rcases hkind with hkind | hid
  · exact absurd (hstep hkind) (by omega)
  · exact hnew ⟨hlt, by simp [hr, hid]⟩

def Drive.pending (drive : Drive V) : List ℕ :=
  drive.running.map (·.1) ++ (drive.queue.map (·.index) ++ (drive.active.map (·.1.index)).toList)

/-- The checkpoints under way have different indices, all taken by earlier calls, and none of them
is recorded yet. -/
structure Drive.Fresh (drive : Drive V) : Prop where
  nodup : drive.pending.Nodup
  taken : ∀ i ∈ drive.pending, i < drive.runtime.callIndex
  unrecorded : ∀ i ∈ drive.pending, drive.runtime.state.steps.get i = none

variable {drive drive' : Drive V} {a : Action V} {index : ℕ}

lemma Drive.Fresh.of_subperm (h : drive.Fresh) (hp : drive'.pending.Subperm drive.pending)
    (hindex : drive.runtime.callIndex ≤ drive'.runtime.callIndex)
    (hsteps : drive'.runtime.state.steps = drive.runtime.state.steps) : drive'.Fresh where
  nodup := by
    obtain ⟨l, hl, hsub⟩ := hp
    exact hl.nodup_iff.mp (h.nodup.sublist hsub)
  taken i hi := (h.taken i (hp.subset hi)).trans_le hindex
  unrecorded i hi := hsteps ▸ h.unrecorded i (hp.subset hi)

lemma Drive.Fresh.push (h : drive.Fresh)
    (hp : drive'.pending.Perm (drive.runtime.callIndex :: drive.pending))
    (hindex : drive'.runtime.callIndex = drive.runtime.callIndex + 1)
    (hsteps : drive'.runtime.state.steps = drive.runtime.state.steps)
    (hnone : drive.runtime.completed = none) : drive'.Fresh where
  nodup := hp.nodup_iff.mpr (nodup_cons.mpr ⟨fun hmem => Nat.lt_irrefl _ (h.taken _ hmem), h.nodup⟩)
  taken i hi := by
    rcases mem_cons.mp (hp.subset hi) with rfl | hi
    · omega
    · have := h.taken i hi
      omega
  unrecorded i hi := by
    rw [hsteps]
    rcases mem_cons.mp (hp.subset hi) with rfl | hi
    · exact hnone
    · exact h.unrecorded i hi

lemma Drive.pending_queue_append (drive : Drive V) (rt : WorkflowRuntime V) (c : Completion V) :
    ({ drive with runtime := rt, queue := drive.queue ++ [c] } : Drive V).pending.Perm
      (c.index :: drive.pending) := by
  simp only [pending, map_append, map_cons, map_nil]
  rw [append_assoc, singleton_append]
  exact (perm_middle.append_left _).trans perm_middle

lemma Drive.pending_running_append (drive : Drive V) (rt : WorkflowRuntime V) (r : ℕ × String) :
    ({ drive with runtime := rt, running := drive.running ++ [r] } : Drive V).pending.Perm
      (r.1 :: drive.pending) := by
  simp only [pending, map_append, map_cons, map_nil, append_assoc]
  exact perm_middle

lemma Drive.pending_stepEnds {id : String} (h : (index, id) ∈ drive.running)
    (reply : Except JsError (Option V)) :
    (drive.stepEnds index id reply).pending.Subperm drive.pending := by
  have hperm : (drive.running.map (·.1)).Perm
      (index :: (drive.running.erase (index, id)).map (·.1)) :=
    (perm_cons_erase h).map _
  cases reply with
  | ok value =>
    refine (List.Perm.trans ?_ (hperm.append_right _).symm).subperm
    exact pending_queue_append { drive with running := drive.running.erase (index, id) } _ _
  | error err =>
    have hsub := (erase_sublist (a := (index, id)) (l := drive.running)).map (·.1)
    exact (hsub.append_right _).subperm

lemma Drive.Moves.fresh {store : Option (WorkflowState V)} {d : ℕ}
    {saved kept : Option (WorkflowState V)} (h : drive.Moves store d a drive' saved kept)
    (hfinds : ∀ req, a = .request d req → drive.runtime.Finds req)
    (hbase : ∀ c latest, drive.active = some (c, latest) →
      (drive.runtime.base latest).progress = drive.runtime.state.progress) (hfresh : drive.Fresh) :
    drive'.Fresh := by
  cases h with
  | write | settle => exact hfresh.of_subperm (.refl _) le_rfl rfl
  | replies => exact hfresh.of_subperm (.refl _) (Nat.le_succ _) rfl
  | parksTimer _ _ _ hst | parksSignal _ _ _ _ hst =>
    exact hfresh.of_subperm (.refl _) (Nat.le_succ _) (hst ▸ rfl)
  | runs hcursor =>
    refine hfresh.push (drive.pending_running_append _ _) rfl rfl ?_
    refine (hfinds _ rfl).completed_eq_none (fun hrep => ?_) fun _ => hcursor
    exact absurd hrep.1 (by omega)
  | due hnew | takes hnew =>
    exact hfresh.push (drive.pending_queue_append _ _) rfl rfl
      ((hfinds _ rfl).completed_eq_none hnew (by simp [Request.isStep]))
  | stepEnds hrun =>
    rename_i reply
    refine hfresh.of_subperm (pending_stepEnds hrun reply) ?_ ?_ <;> cases reply <;> rfl
  | completeGet hactive hqueue =>
    refine hfresh.of_subperm (List.Perm.subperm ?_) le_rfl rfl
    simp only [pending, hactive, hqueue, map_some, toList_some, map_none,
      toList_none, map_cons, append_nil]
    exact perm_append_singleton _ _ |>.append_left _
  | completeSet hactive hnext =>
    rename_i now c latest next
    -- What is written is the drive's steps with one more record, at an index that had none.
    have hsteps :
        next.steps = drive.runtime.state.steps.set c.index (stepRecord c.id c.result) := by
      rw [hnext]
      exact congrArg (SparseArray.set · c.index _) (Prod.mk.inj (hbase c latest hactive)).1
    have hperm : drive.pending.Perm (c.index :: (drive.completed next).pending) := by
      simp only [pending, hactive, completed, map_some, toList_some,
        map_none, toList_none, append_nil]
      rw [← append_assoc]
      exact perm_append_singleton _ _
    obtain ⟨hnot, hnodup⟩ := nodup_cons.mp (hperm.nodup_iff.mp hfresh.nodup)
    have hmem : ∀ i ∈ (drive.completed next).pending, i ∈ drive.pending :=
      fun i hi => hperm.symm.subset (mem_cons_of_mem _ hi)
    refine ⟨hnodup, fun i hi => hfresh.taken i (hmem i hi), fun i hi => ?_⟩
    have hne : c.index ≠ i := fun h => hnot (h ▸ hi)
    have hget : next.steps.get i = none := by
      rw [hsteps, SparseArray.get_set_ne _ _ hne]
      exact hfresh.unrecorded i (hmem i hi)
    exact hget

/-- A record moves forward: the cursor does not move back, and what was recorded below it stays. -/
def WorkflowState.Advances (p q : WorkflowState V) : Prop :=
  p.cursor ≤ q.cursor ∧ ∀ i < p.cursor, q.steps.get i = p.steps.get i

/-- The stored run is kept, and goes on. -/
def StoreAdvances (s t : Sys V) : Prop :=
  ∀ p, s.store = some p → ∃ q, t.store = some q ∧ p.Advances q

lemma WorkflowState.Advances.of_progress_eq {p q : WorkflowState V}
    (h : q.progress = p.progress) : p.Advances q := by
  obtain ⟨hsteps, hcursor⟩ := Prod.mk.inj h
  exact ⟨hcursor.ge, fun i _ => by rw [hsteps]⟩

lemma WorkflowState.CursorExact.complete_advances {p : WorkflowState V} (h : p.CursorExact)
    (hnone : p.steps.get index = none) (now : Time) (id : String) (result : Option V) :
    p.Advances (p.complete now index id result) := by
  refine ⟨SparseArray.le_advance _ _ _, fun i hi => SparseArray.get_set_ne _ _ ?_⟩
  rintro rfl
  have := (h.lt_cursor_iff index).mp hi index le_rfl
  simp [hnone] at this

/-- The invariant of the recorded steps. -/
structure Tidy (s : Sys V) : Prop where
  coherent : Coherent s
  cursor : s.All CursorExact
  fresh : ∀ d drive, s.drives.get d = some drive → drive.Fresh

variable {runId : String} {s t : Sys V}

/-- In a serial run whose checkpoints under way are fresh, the record in the store moves forward. -/
lemma Step.storeAdvances (h : Step runId s a t) (hok : Serial s a) (hs : Tidy s) :
    StoreAdvances s t := by
  intro p hp
  obtain ⟨q, hq⟩ := isSome_iff_exists.mp (h.store_isSome (by simp [hp]))
  refine ⟨q, hq, ?_⟩
  by_cases hset : ∃ d now, a = .completeSet d now
  · obtain ⟨_, now, rfl⟩ := hset
    cases h with
    | moves hd hmove =>
      cases hmove with
      | completeSet hactive hnext =>
        rename_i d drive c latest next
        have hbase := hs.coherent.base_progress hd hp hactive
        have hcurrent := (hs.coherent.follows d drive p hd hp).current
        -- No one has completed this index, for the drive still holds its completion.
        have hnone : p.steps.get c.index = none := by
          rw [← (Prod.mk.inj hcurrent).1]
          exact (hs.fresh d drive hd).unrecorded _ (by simp [pending, hactive])
        have hprogress : q.progress = (p.complete now c.index c.id c.result).progress := by
          obtain ⟨hsteps, hcursor⟩ := Prod.mk.inj hbase
          rw [← Option.some.inj hq, hnext]
          simp only [progress, complete, hsteps, hcursor]
        obtain ⟨hle, hkeep⟩ :=
          (hs.cursor.store p hp).complete_advances hnone now c.id c.result
        obtain ⟨hsteps, hcursor⟩ := Prod.mk.inj hprogress
        exact ⟨hcursor ▸ hle, fun i hi => hsteps ▸ hkeep i hi⟩
  · exact .of_progress_eq
      (h.progress_eq hok hs.coherent (fun d now ha => hset ⟨d, now, ha⟩) p q hp hq)

lemma Step.tidy (h : Step runId s a t) (hok : Orderly s a) (hs : Tidy s) : Tidy t where
  coherent := h.coherent hok.1 hs.coherent
  cursor := h.cursorExact hs.cursor
  fresh d drive' hd := by
    have hbegin : ∀ h workflowId (st : WorkflowState V), (begin h workflowId st).Fresh :=
      fun _ _ _ => ⟨by simp [pending, begin], by simp [pending, begin],
        by simp [pending, begin]⟩
    rcases h.drive_cases hd with hd | ⟨drive, saved, kept, hd, hmove, -⟩ |
      ⟨_, _, _, _, _, -, rfl⟩ | ⟨_, _, _, _, -, -, -, rfl⟩
    · exact hs.fresh d drive' hd
    · refine hmove.fresh ?_ (fun c latest hactive => ?_) (hs.fresh d drive hd)
      · rintro req rfl
        exact hok.2 drive hd
      · obtain ⟨p, hp⟩ := isSome_iff_exists.mp (hs.coherent.one.isOf hd).stored
        rw [hs.coherent.base_progress hd hp hactive, (hs.coherent.follows d drive p hd hp).current]
    · exact hbegin _ _ _
    · exact hbegin _ _ _

lemma tidy_empty : Tidy (Sys.empty : Sys V) :=
  ⟨.of_no_drive Sys.oneWorkflow_empty (by simp [Sys.empty]), Sys.all_empty _, by simp [Sys.empty]⟩

lemma run_tidy (h : Run (step runId) Orderly .empty s) : Tidy s :=
  h.invariant (fun _ _ _ hs hok hstep => (Step.of_step hstep).tidy hok hs) tidy_empty

lemma orderly_storeAdvances (hs : Tidy s) (h : Run (step runId) Orderly s t) :
    StoreAdvances s t := by
  refine h.relate (I := Tidy) ?_ ?_ ?_ hs
  · exact fun s p hp => ⟨p, hp, .of_progress_eq rfl⟩
  · intro s t u hst htu p hp
    obtain ⟨q, hq, hpq⟩ := hst p hp
    obtain ⟨r, hr, hqr⟩ := htu q hq
    exact ⟨r, hr, hpq.1.trans hqr.1, fun i hi => (hqr.2 i (hi.trans_le hpq.1)).trans (hpq.2 i hi)⟩
  · intro s a t hs hok hstep
    have h := Step.of_step hstep
    exact ⟨h.tidy hok hs, h.storeAdvances hok.1 hs⟩

/-- A call below the cursor that finds what it may and does not replay fails, and takes nothing but
its index. -/
lemma WorkflowRuntime.Finds.first_threw (h : rt.Finds req) (hexact : rt.state.CursorExact)
    (hlt : rt.callIndex < rt.state.cursor)
    (hnew : ¬ rt.Replays req.id) : ∃ err, req.first rt = (rt.next, .threw err) := by
  -- Below the cursor there is a record, so only a `step` can find it under another id.
  obtain ⟨r, hr⟩ := isSome_iff_exists.mp
    ((hexact.lt_cursor_iff rt.callIndex).mp hlt rt.callIndex le_rfl)
  rcases (h r hr).2 with hkind | hid
  · cases req with
    | step id =>
      rcases rt.step_cases id with ⟨hrep, -⟩ | ⟨-, -, h⟩ | ⟨hle, -⟩
      · exact absurd hrep hnew
      · exact ⟨_, h⟩
      · omega
    | sleep now id duration | waitForSignal now name timeout =>
      exact absurd hkind (by simp [Request.isStep])
  · exact absurd ⟨hlt, by simp [WorkflowRuntime.completed, hr, hid]⟩ hnew

/-- The law of the cursor, in a state and along the orderly runs from it. -/
structure CursorLaw (runId : String) (s : Sys V) : Prop where
  /-- The cursor is the length of the longest prefix of `steps` without a hole. -/
  prefixLength : ∀ p, s.store = some p → p.cursor = p.steps.prefixLength WorkflowStepState.isDone
  /-- It never moves back, and a record below it never changes. -/
  advances : ∀ t, Run (step runId) Orderly s t → StoreAdvances s t
  /-- A call below it that does not repeat the recorded one fails, and leaves the store as it is. -/
  mismatch : ∀ d drive req t, s.drives.get d = some drive → CallsInOrder s (.request d req) →
    drive.runtime.callIndex < drive.runtime.state.cursor → ¬ drive.runtime.Replays req.id →
    step runId s (.request d req) = some t →
    (∃ err, req.first drive.runtime = (drive.runtime.next, .threw err)) ∧ t.store = s.store

/-- The law of the cursor holds in every state that an orderly run reaches. -/
theorem cursor_law_of_orderly {runId : String} {s : Sys V}
    (h : Run (step runId) Orderly .empty s) : CursorLaw runId s where
  prefixLength := (run_tidy h).cursor.store
  advances _ ht := orderly_storeAdvances (run_tidy h) ht
  mismatch d drive req t hd hfinds hlt hnew hstep := by
    obtain ⟨err, herr⟩ := (hfinds drive hd).first_threw ((run_tidy h).cursor.current d drive hd) hlt
      hnew
    refine ⟨⟨err, herr⟩, ?_⟩
    simp only [step, hd, map_some, Option.some.injEq] at hstep
    rw [← hstep, Sys.afterCall, herr]

/-! ## A sleep in the place of a recorded step -/

instance (rt : WorkflowRuntime V) (req : Request) : Decidable (rt.Finds req) := by
  unfold WorkflowRuntime.Finds
  infer_instance

instance (s : Sys V) (a : Action V) : Decidable (CallsInOrder s a) := by
  induction a using Action.casesOn <;> unfold CallsInOrder <;> infer_instance

instance [DecidableEq V] (s : Sys V) (a : Action V) : Decidable (Orderly s a) :=
  inferInstanceAs (Decidable (_ ∧ _))

/-- The step `charge` is recorded, the drive crashes, and the run is resumed. -/
def resumedAfterCharge : List (Action ℕ) :=
  [.start 0 0 "w" 0 none none, .request 0 (.step "charge")] ++ recordStep 0 0 "charge" 7 1 ++
    [.drop 0, .resumeGet 0 1 "w", .resumeRun 0 1]

/-- The resumed body is a newer one, which begins with a sleep that is due at once. -/
def sleepsInstead : List (Action ℕ) :=
  [.request 1 (.sleep 5 "pause" (.millis 0)), .completeGet 1, .completeSet 1 5]

/-- The sleep does not fail. It overwrites the record of the step, which lies below the cursor. -/
theorem sleep_overwrites_record :
    ∃ s t p q, Run (step "r") Serial .empty s ∧ Run (step "r") Serial s t ∧ s.store = some p ∧
      t.store = some q ∧ p.cursor = 1 ∧
      p.steps.get 0 = some (⟨"charge", .done, some 7⟩ : WorkflowStepState ℕ) ∧
      q.steps.get 0 = some (⟨"pause", .done, none⟩ : WorkflowStepState ℕ) := by
  have hs : (exec (restrict (step "r") Serial) .empty resumedAfterCharge).bind
      (fun s => s.store.map progress) =
        some ([some ⟨"charge", .done, some 7⟩], 1) := by decide +kernel
  have ht : (exec (restrict (step "r") Serial) .empty (resumedAfterCharge ++ sleepsInstead)).bind
      (fun t => t.store.map progress) =
        some ([some ⟨"pause", .done, none⟩], 1) := by decide +kernel
  obtain ⟨s, hexec, hrun, hs⟩ := Run.exists_of_exec hs
  rw [exec_append, hexec, bind_some] at ht
  obtain ⟨t, -, hrun', ht⟩ := Run.exists_of_exec ht
  obtain ⟨p, hp, hprogress⟩ := map_eq_some_iff.mp hs
  obtain ⟨q, hq, hprogress'⟩ := map_eq_some_iff.mp ht
  obtain ⟨hsteps, hcursor⟩ := Prod.mk.inj hprogress
  refine ⟨s, t, p, q, hrun, hrun', hp, hq, hcursor, ?_, ?_⟩
  · rw [show p.steps = _ from hsteps]
    rfl
  · rw [show q.steps = _ from (Prod.mk.inj hprogress').1]
    rfl

/-- The law at work: after the crash, the newer body's first call fails if it is a step. -/
theorem cursor_law_after_charge :
    ∃ s p, Run (step "r") Orderly .empty s ∧ s.store = some p ∧
      p.progress = ([some (⟨"charge", .done, some 7⟩ : WorkflowStepState ℕ)], 1) ∧
      CursorLaw "r" s := by
  have hs : (exec (restrict (step "r") Orderly) .empty resumedAfterCharge).bind
      (fun s => s.store.map progress) =
        some ([some ⟨"charge", .done, some 7⟩], 1) := by decide +kernel
  obtain ⟨s, -, hrun, h⟩ := Run.exists_of_exec hs
  obtain ⟨p, hp, h⟩ := map_eq_some_iff.mp h
  exact ⟨s, p, hrun, hp, h, cursor_law_of_orderly hrun⟩

end Fino.Workflow
