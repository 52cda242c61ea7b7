import Fino.Http2.Settling

/-!
# Streams that a GOAWAY accepts

`handleGoaway` keeps the streams up to the last one that the peer has accepted. The frame callback
hands it 0 in place of that stream, so each stream in flight is rejected. The rest of the promise is
kept: no stream is accepted from then on, and the connection is closed when none is left.
-/

namespace Fino.Http2.Entry

open Lib List

variable {e e' : Entry} {s : Stream} {id : ℕ} {exempt : Prop} (last code : ℕ)

/-- What `handleGoaway` does with one stream. -/
def rejectAbove (e : Entry) (id : ℕ) : Entry :=
  if last < id ∧ (e.objects.lookup id).elim false (·.done = false) then
    e.failAndDelete id (.goaway id last code)
  else e

lemma rejectAbove_keeps (ids : List ℕ) (hs : e.objects.lookup id = some s)
    (h : last < id → id ∈ ids → s.done) :
    let e' := ids.foldl (rejectAbove last code) e
    e'.objects.lookup id = some s ∧ (id ∈ e'.streams ↔ id ∈ e.streams) := by
  refine foldlRecOn (motive := fun e' : Entry => e'.objects.lookup id = some s ∧
    (id ∈ e'.streams ↔ id ∈ e.streams)) ids _ ⟨hs, Iff.rfl⟩ fun e' he id' hid' => ?_
  unfold rejectAbove
  split_ifs with hrejects
  · have hne : id ≠ id' := by
      rintro rfl
      simp [he.1, h hrejects.1 hid'] at hrejects
    exact ⟨by rw [failAndDelete, delete, lookup_update, if_neg hne, he.1],
      by simp [failAndDelete, delete, update, hne, he.2]⟩
  · exact he

lemma rejectAbove_rejects {ids : List ℕ} (hs : e.objects.lookup id = some s)
    (hdone : s.done = false) (hlast : last < id) (hid : id ∈ ids) :
    let e' := ids.foldl (rejectAbove last code) e
    e'.objects.lookup id = some (s.fail (.goaway id last code)) ∧ id ∉ e'.streams := by
  obtain ⟨before, after, rfl, hbefore⟩ := eq_append_cons_of_mem hid
  have hkept := rejectAbove_keeps last code before hs fun _ hmem => absurd hmem hbefore
  rw [foldl_append, foldl_cons]
  generalize before.foldl (rejectAbove last code) e = e₁ at hkept ⊢
  have hreject : rejectAbove last code e₁ id = e₁.failAndDelete id (.goaway id last code) :=
    if_pos ⟨hlast, by simp [hkept.1, hdone]⟩
  have hfailed : (rejectAbove last code e₁ id).objects.lookup id =
      some (s.fail (.goaway id last code)) := by
    rw [hreject, failAndDelete, delete, lookup_update, if_pos rfl, hkept.1, Option.map_some]
  -- Once the stream has failed it is done, and the rest of the loop leaves it.
  have hafter := rejectAbove_keeps last code after hfailed fun _ _ => Stream.done_fail _ _
  refine ⟨hafter.1, fun hmem => ?_⟩
  simpa [hreject, failAndDelete, delete] using hafter.2.mp hmem

/-- The connection is being closed, or closed. -/
def Ending (e : Entry) : Prop := e.closing ∨ e.closeWaits ∨ e.closed

/-- The connection goes away; unless it is `exempt`, it is only closed without streams. -/
def Leaving (exempt : Prop) (e : Entry) : Prop :=
  e.goingAway ∧ e.idleTimer = false ∧ (e.Ending → exempt ∨ e.streams = [])

/-- What is promised of the entry `e'` after a GOAWAY for the streams above `last` came to `e`. -/
structure KeepsAccepted (o : Options) (last : ℕ) (e e' : Entry) : Prop where
  rejected : ∀ id s, e.get id = some s → s.done = false → last < id →
    e'.get id = none ∧ ∃ reason, e'.objects.lookup id = some (s.fail reason)
  kept : ∀ id s, e.get id = some s → s.done = false → id ≤ last → e'.get id = some s
  /-- Until its owner closes it, the connection takes no stream, and is not closed with one. -/
  leaving : ∀ t, Run (step o) (fun _ a => a ≠ .close ∧ a ≠ .evict) e' t →
    (∀ method hasBody aborted refused, t.send method hasBody aborted refused = t) ∧
      (t.Ending → e.Ending ∨ t.streams = [])

/-! ## The connection -/

section

variable (h : Leaving exempt e)

include h

lemma Leaving.keep (hgoing : e'.goingAway = e.goingAway) (htimer : e'.idleTimer = e.idleTimer)
    (hending : e'.Ending → e.Ending) (hstreams : e.streams = [] → e'.streams = []) :
    Leaving exempt e' :=
  ⟨hgoing ▸ h.1, htimer ▸ h.2.1, fun he => (h.2.2 (hending he)).imp_right hstreams⟩

lemma Leaving.update (id : ℕ) (f : Stream → Stream) : Leaving exempt (e.update id f) := h

lemma Leaving.delete (id : ℕ) : Leaving exempt (e.delete id) :=
  h.keep rfl rfl (fun he => he) fun hnil => by simp [Entry.delete, hnil]

/-- The timer is not started again. -/
lemma Leaving.resetIdleTimer : Leaving exempt e.resetIdleTimer :=
  ⟨h.1, by simp [Entry.resetIdleTimer, h.1], h.2.2⟩

lemma Leaving.close (hnil : e.streams = []) : Leaving exempt e.close := by
  unfold Entry.close
  split_ifs
  · exact h
  · exact ⟨rfl, rfl, fun _ => .inr hnil⟩

lemma Leaving.closeIfUnused : Leaving exempt e.closeIfUnused := by
  unfold Entry.closeIfUnused
  split_ifs with hunused
  · exact h.close hunused.2
  · exact h

lemma Leaving.failAndDelete (id : ℕ) (reason : Reason) :
    Leaving exempt (e.failAndDelete id reason) :=
  (h.update id (Stream.fail · reason)).delete id

lemma Leaving.cancelStream (id : ℕ) (reason : Option Reason) :
    Leaving exempt (e.cancelStream id reason) := by
  unfold Entry.cancelStream
  split
  · exact h
  · split_ifs
    · exact h
    · exact (h.failAndDelete id _).keep rfl rfl (fun he => he) fun hnil => hnil

lemma Leaving.finishStream (s : Stream) (built : Option String) :
    Leaving exempt (e.finishStream s built) := by
  unfold Entry.finishStream
  split_ifs
  · exact h
  · have hresolved := h.update s.streamId (·.resolveResponse built)
    dsimp only
    split_ifs
    · exact hresolved
    · exact ((hresolved.update _ _).delete _).resetIdleTimer.closeIfUnused

lemma Leaving.teardown (reason : Reason) : Leaving exempt (e.teardown reason) := by
  unfold Entry.teardown
  split_ifs
  · exact h
  · exact ⟨rfl, rfl, fun _ => .inr rfl⟩

lemma Leaving.handleDataChunk (o : Options) (id : ℕ) (data : List UInt8) :
    Leaving exempt (e.handleDataChunk o id data) := by
  unfold Entry.handleDataChunk
  split
  · exact h
  · dsimp only
    split_ifs
    · exact h
    · exact h.update id _
    · exact h.keep rfl rfl (fun he => he) fun hnil => hnil

lemma Leaving.handleStreamClose (id errorCode : ℕ) (built : Option String) :
    Leaving exempt (e.handleStreamClose id errorCode built) := by
  refine (Leaving.delete ?_ id).resetIdleTimer
  split
  · exact h
  · split_ifs
    · exact h
    · exact h.finishStream _ built
    · exact h.update id _

end

lemma leaving_handleGoaway (h : e.Ending → exempt ∨ e.streams = []) :
    Leaving exempt (e.handleGoaway last code) := by
  have hloop : Leaving exempt (e.streams.foldl (rejectAbove last code)
      { e with goingAway := true, idleTimer := false }) := by
    refine foldlRecOn _ _ ⟨rfl, rfl, h⟩ fun e' he id _ => ?_
    unfold rejectAbove
    split_ifs
    · exact he.failAndDelete id _
    · exact he
  unfold handleGoaway
  dsimp only
  split_ifs with hnil
  · exact hloop.close hnil
  · exact hloop

lemma Leaving.handleFrameRecv (h : Leaving exempt e) (id frameType frameFlags : ℕ)
    (built : Option String) : Leaving exempt (e.handleFrameRecv id frameType frameFlags built) := by
  unfold Entry.handleFrameRecv
  by_cases hgoaway : frameType = 7
  · rw [if_pos hgoaway]
    exact leaving_handleGoaway 0 0 h.2.2
  · rw [if_neg hgoaway]
    have hresolved := h.update id (·.resolveResponse built)
    cases e.get id with
    | none => exact h
    | some s =>
      dsimp only
      split_ifs
      · exact h
      · exact hresolved.finishStream _ built
      · exact h.finishStream _ built
      · exact hresolved
      · exact h
      · exact h.finishStream _ built
      · exact h

/-- Once the connection goes away an action ends streams, or closes it when none is left. -/
lemma Leaving.step (o : Options) {a : Action} (h : Leaving exempt e)
    (hok : a ≠ .close ∧ a ≠ .evict) (hstep : e.step o a = some e') : Leaving exempt e' := by
  cases a with
  | send =>
    cases hstep
    rw [send, if_pos (.inl h.1)]
    exact h
  | sendCancelled id | sendDrained id | uploadEnds id =>
    obtain ⟨s, -, hstep⟩ := Option.bind_eq_some_iff.mp hstep
    split_ifs at hstep
    cases hstep
    exact h.update id _
  | sendSettles id =>
    obtain ⟨s, -, hstep⟩ := Option.bind_eq_some_iff.mp hstep
    split at hstep
    · cases hstep
      exact h.update id _
    · cases hstep
  | abort id reason =>
    obtain ⟨s, -, hstep⟩ := Option.bind_eq_some_iff.mp hstep
    split_ifs at hstep
    cases hstep
    exact (h.update id _).cancelStream id reason
  | uploadFails id message =>
    obtain ⟨s, -, hstep⟩ := Option.bind_eq_some_iff.mp hstep
    have hends := h.update id fun s => { s with uploading := false }
    split_ifs at hstep
    · cases hstep
      exact hends
    · cases hstep
      exact hends.failAndDelete id _
  | beginHeaders id | header id =>
    cases hstep
    split_ifs
    · exact h.update id _
    · exact h
  | frameRecv id frameType frameFlags built =>
    cases hstep
    exact h.handleFrameRecv id frameType frameFlags built
  | dataChunk id data =>
    cases hstep
    exact h.handleDataChunk o id data
  | streamClose id errorCode built =>
    cases hstep
    exact h.handleStreamClose id errorCode built
  | goaway last code =>
    cases hstep
    exact leaving_handleGoaway last code h.2.2
  | overrun id =>
    rw [Entry.step] at hstep
    split_ifs at hstep
    cases hstep
    refine Leaving.cancelStream ?_ id _
    exact h
  | cancelEnds =>
    rw [Entry.step] at hstep
    split_ifs at hstep
    cases hstep
    refine Leaving.closeIfUnused (Leaving.resetIdleTimer ?_)
    exact h
  | bodyNext id =>
    cases hstep
    exact h.update id _
  | bodyCancel id reason =>
    obtain ⟨s, -, hstep⟩ := Option.bind_eq_some_iff.mp hstep
    cases hstep
    split_ifs
    · exact (h.update id _).cancelStream id reason
    · exact h.update id _
  | close => exact absurd rfl hok.1
  | evict => exact absurd rfl hok.2
  | idle =>
    -- The timer does not run any more.
    rw [Entry.step] at hstep
    split_ifs at hstep with htimer
    simp [h.2.1] at htimer
  | closeDrained =>
    rw [Entry.step] at hstep
    split_ifs at hstep with hwaits
    cases hstep
    exact h.keep rfl rfl (fun _ => .inr (.inl hwaits)) fun hnil => hnil
  | transportError message =>
    cases hstep
    exact h.teardown _
  | recvEnd =>
    rw [Entry.step] at hstep
    split_ifs at hstep
    cases hstep
    exact (h.teardown _).keep rfl rfl (fun he => he) fun hnil => hnil

lemma lookup_handleGoaway (h : e.get id = some s) (hdone : s.done = false) :
    (last < id → (e.handleGoaway last code).get id = none ∧
      (e.handleGoaway last code).objects.lookup id = some (s.fail (.goaway id last code))) ∧
    (id ≤ last → (e.handleGoaway last code).get id = some s) := by
  have hs := lookup_of_get h
  have hid : id ∈ e.streams := by
    by_contra hnot
    simp [get, hnot] at h
  let going := { e with goingAway := true, idleTimer := false }
  constructor
  · intro hlast
    have hrejected := rejectAbove_rejects last code (e := going) hs hdone hlast hid
    unfold rejectAbove at hrejected
    grind [handleGoaway, Entry.close, get]
  · intro hlast
    have hkept := rejectAbove_keeps last code e.streams (e := going) hs
      fun hgt => absurd hlast hgt.not_ge
    unfold rejectAbove at hkept
    grind [handleGoaway, Entry.close, get]

/-- The streams that the peer has accepted are kept if there are none in flight. -/
theorem keepsAccepted_iff (o : Options) (last : ℕ) (e : Entry) (id flags : ℕ)
    (built : Option String) :
    KeepsAccepted o last e (e.handleFrameRecv id 7 flags built) ↔
      ∀ id s, e.get id = some s → s.done = false → id ≤ last → id = 0 := by
  rw [handleFrameRecv, if_pos rfl]
  constructor
  · intro h id s hs hdone hid
    by_contra hne
    have hnone := ((lookup_handleGoaway 0 0 hs hdone).1 (Nat.pos_of_ne_zero hne)).1
    simp [h.kept id s hs hdone hid] at hnone
  · intro h
    refine ⟨fun id s hs hdone hid => ?_, fun id s hs hdone hid => ?_, fun t ht => ?_⟩
    · obtain ⟨hnone, hfailed⟩ := (lookup_handleGoaway 0 0 hs hdone).1 (by omega)
      exact ⟨hnone, _, hfailed⟩
    · obtain rfl := h id s hs hdone hid
      exact (lookup_handleGoaway 0 0 hs hdone).2 le_rfl
    · have hleaving := ht.invariant (fun _ _ _ he hok hstep => he.step o hok hstep)
        (leaving_handleGoaway 0 0 (e := e) .inl)
      refine ⟨fun method hasBody aborted refused => ?_, hleaving.2.2⟩
      rw [send, if_pos (.inl hleaving.1)]

/-- A GOAWAY for the streams above 1 comes while the response to stream 1 is awaited. -/
theorem accepted_stream_rejected :
    let e := ({} : Entry).send "GET" false none none
    ¬ KeepsAccepted {} 1 e (e.handleFrameRecv 0 7 0 none) := by
  intro e h
  have hkept := h.kept 1 _ rfl rfl le_rfl
  revert hkept
  decide +kernel

end Fino.Http2.Entry
