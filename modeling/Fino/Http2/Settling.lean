import Fino.Http2.PoolEntry

/-!
# Every request on a pooled connection is settled once

The promises of a stream are settled at most once. If `close` ends with streams in flight, some
never are: it sets `#closed` without failing them, and the teardown then returns at once. The idle
timer comes to this too, since `send` arms it before the stream is registered. Where `close` finds
no such stream, none is left (`settles_once`).
-/

namespace Fino.Http2

open Lib Option

/-! ## One stream -/

/-- How often each promise of a stream was settled. -/
structure Stream.Counted (s : Stream) : Prop where
  response : s.responseCalls.length = if s.done ∨ s.responseResolved then 1 else 0
  trailers : s.trailerCalls.length = if s.done then 1 else 0
  send : s.sendCalls.length = if s.phase = .settled then 1 else 0

/-- A stream goes on without a second settlement, and stays done once it is. -/
structure Stream.Advances (s s' : Stream) : Prop where
  counted : s'.Counted
  streamId : s'.streamId = s.streamId
  done : s.done = true → s'.done = true

variable {s' : Stream}

namespace Stream

variable {s : Stream}

lemma Counted.fail (h : s.Counted) (reason : Reason) : s.Advances (s.fail reason) := by
  unfold Stream.fail
  by_cases hdone : s.done
  · rw [if_pos hdone]
    exact ⟨h, rfl, id⟩
  · rw [if_neg hdone]
    refine ⟨⟨?_, ?_, h.send⟩, rfl, fun _ => rfl⟩
    · have hresponse := h.response
      by_cases hresolved : s.responseResolved
      · simpa [hresolved] using hresponse
      · simpa [hresolved, hdone] using hresponse
    · simpa [hdone] using h.trailers

@[simp]
lemma done_fail (s : Stream) (reason : Reason) : (s.fail reason).done := by
  unfold Stream.fail
  by_cases hdone : s.done
  · rw [if_pos hdone]
    exact hdone
  · rw [if_neg hdone]

lemma Counted.resolveResponse (h : s.Counted) (built : Option String) :
    s.Advances (s.resolveResponse built) := by
  unfold Stream.resolveResponse
  by_cases hpast : s.responseResolved ∨ s.done
  · rw [if_pos hpast]
    exact ⟨h, rfl, id⟩
  · rw [if_neg hpast]
    obtain ⟨hresolved, hdone⟩ := not_or.mp hpast
    cases s.status with
    | none => exact h.fail _
    | some status =>
      dsimp only
      split_ifs
      · exact h.fail _
      · cases built with
        | some message => exact h.fail _
        | none =>
          refine ⟨⟨?_, h.trailers, h.send⟩, rfl, id⟩
          simpa [hresolved, hdone] using h.response

lemma responseResolved_of_resolveResponse (built : Option String)
    (h : (s.resolveResponse built).done = false) :
    (s.resolveResponse built).responseResolved := by
  unfold Stream.resolveResponse at h ⊢
  by_cases hpast : s.responseResolved ∨ s.done
  · rw [if_pos hpast] at h ⊢
    exact hpast.resolve_right (by simp [h])
  · rw [if_neg hpast] at h ⊢
    cases hstatus : s.status with
    | none => simp [hstatus] at h
    | some status =>
      rw [hstatus] at h
      dsimp only at h ⊢
      split_ifs at h ⊢
      · simp at h
      · cases built with
        | some message => simp at h
        | none => rfl

variable (h : s.Counted)

include h

lemma Counted.finish (hdone : s.done = false)
    (hresolved : s.responseResolved) : s.Advances s.finish := by
  refine ⟨⟨?_, ?_, h.send⟩, rfl, fun _ => rfl⟩
  · simpa [Stream.finish, hresolved] using h.response
  · simpa [Stream.finish, hdone] using h.trailers

lemma Counted.settleSend (hphase : s.phase ≠ .settled) (settlement : Settlement) :
    s.Advances (s.settleSend settlement) := by
  refine ⟨⟨h.response, h.trailers, ?_⟩, rfl, id⟩
  simpa [Stream.settleSend, hphase] using h.send

lemma Counted.keep (hid : s'.streamId = s.streamId) (hdone : s'.done = s.done)
    (hresolved : s'.responseResolved = s.responseResolved)
    (hphase : s'.phase = .settled ↔ s.phase = .settled)
    (hcalls : s'.responseCalls = s.responseCalls ∧ s'.trailerCalls = s.trailerCalls ∧
      s'.sendCalls = s.sendCalls) : s.Advances s' := by
  obtain ⟨hresponse, htrailers, hsend⟩ := hcalls
  refine ⟨⟨?_, ?_, ?_⟩, hid, fun h' => hdone.trans h'⟩
  · rw [hresponse, hdone, hresolved, h.response]
  · rw [htrailers, hdone, h.trailers]
  · rw [hsend, h.send]
    exact if_congr hphase.symm rfl rfl

lemma Counted.beginHeaders (isTrailers : Bool) : s.Advances (s.beginHeaders isTrailers) := by
  unfold Stream.beginHeaders
  dsimp only
  split_ifs <;> exact h.keep rfl rfl rfl Iff.rfl ⟨rfl, rfl, rfl⟩

lemma Counted.header (name value : String) : s.Advances (s.header name value) := by
  unfold Stream.header
  split_ifs <;> exact h.keep rfl rfl rfl Iff.rfl ⟨rfl, rfl, rfl⟩

end Stream

/-! ## One step -/

namespace Entry

variable {e e' : Entry} {quiet : Prop}

/-- A stream that is not done is registered. With `quiet` there is none once the connection is
closed. -/
structure Sound (quiet : Prop) (e : Entry) : Prop where
  counted : ∀ id s, e.objects.lookup id = some s → s.Counted
  streamId : ∀ id s, e.objects.lookup id = some s → s.streamId = id
  fresh : ∀ id s, e.objects.lookup id = some s → id < e.nextId
  registered : ∀ id s, e.objects.lookup id = some s → s.done = false → id ∈ e.streams
  settled : quiet → e.closed = true → ∀ id s, e.objects.lookup id = some s → s.done = true

lemma Sound.keep (h : Sound quiet e) (hobjects : e'.objects = e.objects)
    (hstreams : e'.streams = e.streams) (hid : e'.nextId = e.nextId)
    (hclosed : e'.closed = e.closed) : Sound quiet e' := by
  constructor
  · rw [hobjects]; exact h.counted
  · rw [hobjects]; exact h.streamId
  · rw [hobjects, hid]; exact h.fresh
  · rw [hobjects, hstreams]; exact h.registered
  · rw [hobjects, hclosed]; exact h.settled

lemma lookup_update (e : Entry) (id : ℕ) (f : Stream → Stream) (id' : ℕ) :
    (e.update id f).objects.lookup id' =
      if id' = id then (e.objects.lookup id).map f else e.objects.lookup id' :=
  AList.lookup_modify _ _ _ _

variable {id : ℕ} {f : Stream → Stream}

lemma exists_of_lookup_update {id' : ℕ} (h : (e.update id f).objects.lookup id' = some s') :
    ∃ s, e.objects.lookup id' = some s ∧ (id' = id ∧ s' = f s ∨ id' ≠ id ∧ s' = s) := by
  rw [lookup_update] at h
  split_ifs at h with heq
  · obtain ⟨s, hs, rfl⟩ := map_eq_some_iff.mp h
    exact ⟨s, heq ▸ hs, .inl ⟨heq, rfl⟩⟩
  · exact ⟨s', h, .inr ⟨heq, rfl⟩⟩

section

variable (h : Sound quiet e)

include h

/-- A stream may change as long as it advances. -/
lemma Sound.update (hf : ∀ s, e.objects.lookup id = some s → s.Counted → s.Advances (f s)) :
    Sound quiet (e.update id f) := by
  have hadvances : ∀ id' s', (e.update id f).objects.lookup id' = some s' →
      ∃ s, e.objects.lookup id' = some s ∧ s.Advances s' := by
    intro id' s' hs'
    obtain ⟨s, hs, ⟨rfl, rfl⟩ | ⟨-, rfl⟩⟩ := exists_of_lookup_update hs'
    · exact ⟨s, hs, hf s hs (h.counted _ s hs)⟩
    · exact ⟨s', hs, h.counted _ s' hs, rfl, fun hdone => hdone⟩
  constructor
  · intro id' s' hs'
    obtain ⟨s, -, hadv⟩ := hadvances id' s' hs'
    exact hadv.counted
  · intro id' s' hs'
    obtain ⟨s, hs, hadv⟩ := hadvances id' s' hs'
    exact hadv.streamId.trans (h.streamId _ s hs)
  · intro id' s' hs'
    obtain ⟨s, hs, -⟩ := hadvances id' s' hs'
    exact h.fresh _ s hs
  · intro id' s' hs' hdone
    obtain ⟨s, hs, hadv⟩ := hadvances id' s' hs'
    refine h.registered _ s hs ?_
    by_contra hs''
    exact absurd (hadv.done (by simpa using hs'')) (by simp [hdone])
  · intro hquiet hclosed id' s' hs'
    obtain ⟨s, hs, hadv⟩ := hadvances id' s' hs'
    exact hadv.done (h.settled hquiet hclosed _ s hs)

lemma Sound.delete
    (hdone : ∀ s, e.objects.lookup id = some s → s.done) : Sound quiet (e.delete id) := by
  refine ⟨h.counted, h.streamId, h.fresh, fun id' s hs hs' => ?_, h.settled⟩
  refine List.mem_filter.mpr ⟨h.registered id' s hs hs', decide_eq_true ?_⟩
  rintro rfl
  exact absurd (hdone s hs) (by simp [hs'])

lemma Sound.resetIdleTimer : Sound quiet e.resetIdleTimer :=
  h.keep rfl rfl rfl rfl

lemma Sound.close : Sound quiet e.close := by
  unfold Entry.close
  split_ifs
  · exact h
  · exact h.keep rfl rfl rfl rfl

lemma Sound.closeIfUnused : Sound quiet e.closeIfUnused := by
  unfold Entry.closeIfUnused
  split_ifs
  · exact h.close
  · exact h

lemma Sound.fail (id : ℕ) (reason : Reason) : Sound quiet (e.update id (Stream.fail · reason)) :=
  h.update fun _ _ hs => hs.fail reason

end

lemma done_of_fail {reason : Reason} (s : Stream)
    (h : (e.update id (Stream.fail · reason)).objects.lookup id = some s) : s.done := by
  obtain ⟨s', -, ⟨-, rfl⟩ | ⟨hne, -⟩⟩ := exists_of_lookup_update h
  · exact Stream.done_fail _ _
  · exact absurd rfl hne

lemma Sound.failAndDelete (h : Sound quiet e) (id : ℕ) (reason : Reason) :
    Sound quiet (e.failAndDelete id reason) :=
  (h.fail id reason).delete done_of_fail

lemma Sound.cancelStream (h : Sound quiet e) (id : ℕ) (reason : Option Reason) :
    Sound quiet (e.cancelStream id reason) := by
  unfold Entry.cancelStream
  split
  · exact h
  · split_ifs
    · exact h
    · exact (h.failAndDelete id _).keep rfl rfl rfl rfl

lemma Sound.resolveResponse (h : Sound quiet e) (id : ℕ) (built : Option String) :
    Sound quiet (e.update id (·.resolveResponse built)) :=
  h.update fun _ _ hs => hs.resolveResponse built

variable {s : Stream}

lemma lookup_of_get (h : e.get id = some s) : e.objects.lookup id = some s := by
  unfold Entry.get at h
  split_ifs at h
  exact h

lemma lookup_resolveResponse (hs : e.objects.lookup id = some s) (built : Option String) :
    (e.update id (·.resolveResponse built)).objects.lookup id =
      some (s.resolveResponse built) := by
  rw [lookup_update, if_pos rfl, hs]
  rfl

lemma Sound.finishStream (h : Sound quiet e) (hs : e.objects.lookup id = some s)
    (built : Option String) :
    Sound quiet (e.finishStream s built) := by
  unfold Entry.finishStream
  split_ifs with hdone
  · exact h
  · rw [h.streamId id s hs]
    have hresolve := h.resolveResponse id built
    dsimp only
    split_ifs with hfailed
    · exact hresolve
    · have hnot : (s.resolveResponse built).done = false := by simpa using hfailed
      have hfinish : Sound quiet
          ((e.update id (·.resolveResponse built)).update id Stream.finish) := by
        refine hresolve.update fun s' hs' hcounted => ?_
        rw [lookup_resolveResponse hs] at hs'
        cases hs'
        exact hcounted.finish hnot (Stream.responseResolved_of_resolveResponse built hnot)
      refine (hfinish.delete fun s' hs' => ?_).resetIdleTimer.closeIfUnused
      obtain ⟨s'', -, ⟨-, rfl⟩ | ⟨hne, -⟩⟩ := exists_of_lookup_update hs'
      · rfl
      · exact absurd rfl hne

@[simp]
lemma objects_closeIfUnused (e : Entry) : e.closeIfUnused.objects = e.objects := by
  unfold Entry.closeIfUnused Entry.close
  split_ifs <;> rfl

lemma done_finishStream (hs : e.objects.lookup s.streamId = some s) (built : Option String)
    (h : (e.finishStream s built).objects.lookup s.streamId = some s') : s'.done := by
  unfold Entry.finishStream at h
  by_cases hdone : s.done
  · rw [if_pos hdone, hs] at h
    cases h
    exact hdone
  · rw [if_neg hdone] at h
    by_cases hfailed : (s.resolveResponse built).done
    · rw [if_pos hfailed, lookup_update, if_pos rfl, hs] at h
      cases h
      exact hfailed
    · rw [if_neg hfailed, objects_closeIfUnused] at h
      obtain ⟨s'', -, ⟨-, rfl⟩ | ⟨hne, -⟩⟩ := exists_of_lookup_update h
      · rfl
      · exact absurd rfl hne

/-- A new stream is registered and not settled. -/
lemma Sound.register (h : Sound quiet e) (method : String) (hasBody : Bool)
    (aborted : Option (Option Reason)) (hopen : e.closed = false) :
    Sound quiet { e.resetIdleTimer with
      nextId := e.nextId + 2
      streams := e.streams ++ [e.nextId]
      objects := e.objects.set e.nextId
        { streamId := e.nextId, method, hasBody, listening := aborted.isNone
          phase := if aborted.isSome then .cancelling else .draining } } := by
  have hlookup : ∀ {id : ℕ} {s new : Stream}, (e.objects.set e.nextId new).lookup id = some s →
      id = e.nextId ∧ s = new ∨ id ≠ e.nextId ∧ e.objects.lookup id = some s := by
    intro id s new hs
    rw [AList.lookup_set] at hs
    split_ifs at hs with hid
    · exact .inl ⟨hid, (Option.some.inj hs).symm⟩
    · exact .inr ⟨hid, hs⟩
  constructor
  · intro id s hs
    obtain ⟨rfl, rfl⟩ | ⟨-, hs⟩ := hlookup hs
    · refine ⟨rfl, rfl, ?_⟩
      cases aborted <;> rfl
    · exact h.counted id s hs
  · intro id s hs
    obtain ⟨rfl, rfl⟩ | ⟨-, hs⟩ := hlookup hs
    · rfl
    · exact h.streamId id s hs
  · intro id s hs
    obtain ⟨rfl, -⟩ | ⟨-, hs⟩ := hlookup hs
    · exact Nat.lt_add_of_pos_right (by decide)
    · exact Nat.lt_add_right 2 (h.fresh id s hs)
  · intro id s hs hdone
    obtain ⟨rfl, -⟩ | ⟨-, hs⟩ := hlookup hs
    · exact List.mem_append_right _ (List.mem_singleton_self _)
    · exact List.mem_append_left _ (h.registered id s hs hdone)
  · intro _ hclosed
    exact absurd (hopen.symm.trans hclosed) (by simp)

lemma sound_failAll (ids : List ℕ) (reason : Reason) (h : Sound quiet e) :
    let failed := ids.foldl (fun e id => e.update id (Stream.fail · reason)) e
    Sound quiet failed ∧ ∀ id s, failed.objects.lookup id = some s → s.done = false →
        id ∉ ids ∧ e.objects.lookup id = some s := by
  induction ids generalizing e with
  | nil => exact ⟨h, fun id s hs _ => ⟨List.not_mem_nil, hs⟩⟩
  | cons first ids ih =>
    obtain ⟨hsound, hrest⟩ := ih (h.fail first reason)
    refine ⟨hsound, fun id s hs hdone => ?_⟩
    obtain ⟨hnot, hs'⟩ := hrest id s hs hdone
    obtain ⟨s', hs'', ⟨-, rfl⟩ | ⟨hne, rfl⟩⟩ := exists_of_lookup_update hs'
    · exact absurd ((Stream.done_fail s' reason).symm.trans hdone) (by simp)
    · exact ⟨List.not_mem_cons_of_ne_of_not_mem hne hnot, hs''⟩

section

variable (h : Sound quiet e)

include h

lemma Sound.teardown (reason : Reason) : Sound quiet (e.teardown reason) := by
  unfold Entry.teardown
  split_ifs
  · exact h
  · obtain ⟨hsound, hrest⟩ := sound_failAll e.streams reason h
    -- Every stream that is not done is registered, and so it was failed.
    have hdone : ∀ id s, (e.streams.foldl (fun e id => e.update id (Stream.fail · reason))
        e).objects.lookup id = some s → s.done := by
      intro id s hs
      by_contra hnot
      obtain ⟨hnot', hs'⟩ := hrest id s hs (by simpa using hnot)
      exact hnot' (h.registered id s hs' (by simpa using hnot))
    refine ⟨hsound.counted, hsound.streamId, hsound.fresh, fun id s hs hs' => ?_, fun _ _ => hdone⟩
    exact absurd (hdone id s hs) (by simp [hs'])

lemma Sound.handleGoaway (lastStreamId errorCode : ℕ) :
    Sound quiet (e.handleGoaway lastStreamId errorCode) := by
  unfold Entry.handleGoaway
  have hgoing : Sound quiet { e with goingAway := true, idleTimer := false } :=
    h.keep rfl rfl rfl rfl
  dsimp only
  split_ifs
  on_goal 1 => refine Sound.close ?_
  all_goals
    refine List.foldlRecOn _ _ hgoing fun e' he id _ => ?_
    split_ifs
    · exact he.failAndDelete id _
    · exact he

lemma Sound.handleFrameRecv (id frameType frameFlags : ℕ)
    (built : Option String) : Sound quiet (e.handleFrameRecv id frameType frameFlags built) := by
  unfold Entry.handleFrameRecv
  by_cases hgoaway : frameType = 7
  · rw [if_pos hgoaway]
    exact h.handleGoaway 0 0
  · rw [if_neg hgoaway]
    cases hget : e.get id with
    | none => exact h
    | some s =>
      have hs := lookup_of_get hget
      have hresolve := h.resolveResponse id built
      dsimp only
      split_ifs
      · exact h
      · exact hresolve.finishStream (lookup_resolveResponse hs built) built
      · exact h.finishStream hs built
      · exact hresolve
      · exact h
      · exact h.finishStream hs built
      · exact h

lemma Sound.body (id : ℕ) (f : Stream → Body) :
    Sound quiet (e.update id fun s => { s with body := f s }) :=
  h.update fun _ _ hs => hs.keep rfl rfl rfl Iff.rfl ⟨rfl, rfl, rfl⟩

lemma Sound.handleDataChunk (o : Options) (id : ℕ) (data : List UInt8) :
    Sound quiet (e.handleDataChunk o id data) := by
  unfold Entry.handleDataChunk
  cases e.get id with
  | none => exact h
  | some s =>
    dsimp only
    split_ifs
    · exact h
    · exact h.body id fun _ => _
    · exact (h.body id fun _ => (s.body.push o.maxBufferedBodyBytes data).1).keep rfl rfl rfl rfl

lemma Sound.handleStreamClose (id errorCode : ℕ) (built : Option String) :
    Sound quiet (e.handleStreamClose id errorCode built) := by
  refine Sound.resetIdleTimer ?_
  cases hget : e.get id with
  | none =>
    refine h.delete fun s hs => ?_
    -- A stream that is not registered is done.
    by_contra hnot
    have hmem := h.registered id s hs (by simpa using hnot)
    simp [Entry.get, hmem, hs] at hget
  | some s =>
    have hs := lookup_of_get hget
    dsimp only
    split_ifs with hdone hcode
    · refine h.delete fun s' hs' => ?_
      cases hs.symm.trans hs'
      exact hdone
    · refine (h.finishStream hs built).delete fun s' hs' => ?_
      obtain rfl := h.streamId id s hs
      exact done_finishStream hs built hs'
    · exact (h.fail id _).delete done_of_fail

lemma Sound.send (method : String) (hasBody : Bool) (aborted : Option (Option Reason))
    (refused : Option String) :
    Sound quiet (e.send method hasBody aborted refused) := by
  unfold Entry.send
  by_cases hrefuses : e.goingAway ∨ e.closed
  · rw [if_pos hrefuses]
    exact h
  · rw [if_neg hrefuses]
    cases refused with
    | some message => exact h.resetIdleTimer
    | none =>
      have hregistered := h.register method hasBody aborted (by simpa using (not_or.mp hrefuses).2)
      cases aborted with
      | none => exact hregistered
      | some reason => exact hregistered.cancelStream _ reason

end

/-- When the wait of `close` may end: after a teardown, or with every registered stream done. -/
def Allowed (e : Entry) : Action → Prop
  | .closeDrained => e.closed = true ∨
      ∀ id ∈ e.streams, (e.objects.lookup id).elim true (·.done) = true
  | _ => True

instance (e : Entry) (a : Action) : Decidable (Allowed e a) := by
  unfold Allowed
  split <;> infer_instance

lemma Sound.closeDrained (h : Sound quiet e) (hok : quiet → Allowed e .closeDrained) :
    Sound quiet { e with closeWaits := false, closed := true } := by
  refine ⟨h.counted, h.streamId, h.fresh, h.registered, fun hquiet _ id s hs => ?_⟩
  rcases hok hquiet with hclosed | hdone
  · exact h.settled hquiet hclosed id s hs
  · by_contra hnot
    have hmem := h.registered id s hs (by simpa using hnot)
    exact hnot (by simpa [hs] using hdone id hmem)

section

variable (h : Sound quiet e)

include h

/-- `send` returns or throws, which it has not done before. -/
lemma Sound.settleSend (hs : e.objects.lookup id = some s) (hphase : s.phase ≠ .settled)
    (settlement : Settlement) : Sound quiet (e.update id (·.settleSend settlement)) := by
  refine h.update fun s' hs' hcounted => hcounted.settleSend ?_ _
  cases hs.symm.trans hs'
  exact hphase

/-- After the request is written `send` throws, or waits for the response. -/
lemma Sound.sendDrained {o : Options} {failed : Option String}
    (hstep : e.step o (.sendDrained id failed) = some e') : Sound quiet e' := by
  obtain ⟨s, hs, hstep⟩ := bind_eq_some_iff.mp hstep
  split_ifs at hstep with hphase
  cases hstep
  cases failed with
  | some message => exact h.settleSend hs (by simp [hphase]) _
  | none =>
    refine h.update fun s' hs' hcounted => ?_
    cases hs.symm.trans hs'
    exact hcounted.keep rfl rfl rfl (by simp [hphase]) ⟨rfl, rfl, rfl⟩

lemma Sound.uploadEnds (id : ℕ) :
    Sound quiet (e.update id fun s => { s with uploading := false }) :=
  h.update fun _ _ hcounted => hcounted.keep rfl rfl rfl Iff.rfl ⟨rfl, rfl, rfl⟩

/-- The listener is taken off before the stream is cancelled. -/
lemma Sound.abort {o : Options} {reason : Option Reason}
    (hstep : e.step o (.abort id reason) = some e') : Sound quiet e' := by
  obtain ⟨s, hs, hstep⟩ := bind_eq_some_iff.mp hstep
  split_ifs at hstep
  cases hstep
  refine Sound.cancelStream ?_ id reason
  exact h.update fun _ _ hcounted => hcounted.keep rfl rfl rfl Iff.rfl ⟨rfl, rfl, rfl⟩

end

/-- Every action keeps each promise settled at most once. -/
lemma sound_step (o : Options) {a : Action} (h : Sound quiet e) (hok : quiet → Allowed e a)
    (hstep : e.step o a = some e') : Sound quiet e' := by
  cases a with
  | send method hasBody aborted refused =>
    cases hstep
    exact h.send method hasBody aborted refused
  | sendCancelled id reason =>
    obtain ⟨s, hs, hstep⟩ := bind_eq_some_iff.mp hstep
    split_ifs at hstep with hphase
    cases hstep
    exact h.settleSend hs (by simp [hphase]) _
  | sendDrained id failed => exact h.sendDrained hstep
  | sendSettles id =>
    obtain ⟨s, hs, hstep⟩ := bind_eq_some_iff.mp hstep
    split at hstep
    · next settlement more hphase hcalls =>
      cases hstep
      exact h.settleSend hs (by simp [hphase]) _
    · cases hstep
  | abort id reason => exact h.abort hstep
  | uploadEnds id =>
    obtain ⟨s, hs, hstep⟩ := bind_eq_some_iff.mp hstep
    split_ifs at hstep
    cases hstep
    exact h.uploadEnds id
  | uploadFails id message =>
    obtain ⟨s, hs, hstep⟩ := bind_eq_some_iff.mp hstep
    split_ifs at hstep
    · cases hstep
      exact h.uploadEnds id
    · cases hstep
      exact (h.uploadEnds id).failAndDelete id _
  | beginHeaders id isTrailers =>
    cases hstep
    split_ifs
    · exact h.update fun _ _ hcounted => hcounted.beginHeaders isTrailers
    · exact h
  | header id name value =>
    cases hstep
    split_ifs
    · exact h.update fun _ _ hcounted => hcounted.header name value
    · exact h
  | frameRecv id frameType frameFlags built =>
    cases hstep
    exact h.handleFrameRecv id frameType frameFlags built
  | dataChunk id data =>
    cases hstep
    exact h.handleDataChunk o id data
  | streamClose id errorCode built =>
    cases hstep
    exact h.handleStreamClose id errorCode built
  | goaway lastStreamId errorCode =>
    cases hstep
    exact h.handleGoaway lastStreamId errorCode
  | overrun id =>
    rw [step] at hstep
    split_ifs at hstep
    cases hstep
    refine Sound.cancelStream ?_ id _
    exact h.keep rfl rfl rfl rfl
  | cancelEnds =>
    rw [step] at hstep
    split_ifs at hstep
    cases hstep
    refine Sound.closeIfUnused ?_
    exact h.keep rfl rfl rfl rfl
  | bodyNext id =>
    cases hstep
    exact h.body id fun s => s.body.next
  | bodyCancel id reason =>
    obtain ⟨s, hs, hstep⟩ := bind_eq_some_iff.mp hstep
    cases hstep
    split_ifs
    · exact (h.body id fun _ => _).cancelStream id reason
    · exact h.body id fun _ => _
  | close | evict =>
    cases hstep
    exact h.close
  | idle =>
    rw [step] at hstep
    split_ifs at hstep
    cases hstep
    refine Sound.close ?_
    exact h.keep rfl rfl rfl rfl
  | closeDrained =>
    rw [step] at hstep
    split_ifs at hstep
    cases hstep
    exact h.closeDrained hok
  | transportError message =>
    cases hstep
    exact h.teardown _
  | recvEnd =>
    rw [step] at hstep
    split_ifs at hstep
    cases hstep
    exact (h.teardown _).keep rfl rfl rfl rfl

/-! ## Every run -/

lemma sound_new : Sound quiet {} where
  counted := by simp
  streamId := by simp
  fresh := by simp
  registered := by simp
  settled := by simp

/-- In every run each promise is settled at most once; and if `close` never ends with a stream that
is not done, all promises are settled when the connection is closed and its receive loop has ended.
-/
theorem settles_once (o : Options) :
    (∀ e, Run (Entry.step o) Any {} e → ∀ id s, e.objects.lookup id = some s →
      s.sendCalls.length ≤ 1 ∧ s.responseCalls.length ≤ 1 ∧ s.trailerCalls.length ≤ 1) ∧
    ∀ e, Run (Entry.step o) Allowed {} e → e.closed = true → e.loopEnded = true →
      ∀ id s, e.objects.lookup id = some s →
        s.responseCalls.length = 1 ∧ s.trailerCalls.length = 1 := by
  constructor
  · intro e hrun id s hs
    have hsound : Sound False e := hrun.invariant
      (fun e a e' he _ hstep => sound_step o he False.elim hstep) sound_new
    have hcounted := hsound.counted id s hs
    rw [hcounted.send, hcounted.response, hcounted.trailers]
    refine ⟨?_, ?_, ?_⟩ <;> split_ifs <;> simp
  · intro e hrun hclosed _ id s hs
    have hsound : Sound True e := hrun.invariant
      (fun e a e' he hok hstep => sound_step o he (fun _ => hok) hstep) sound_new
    have hcounted := hsound.counted id s hs
    have hdone := hsound.settled trivial hclosed id s hs
    exact ⟨by simp [hcounted.response, hdone], by simp [hcounted.trailers, hdone]⟩

/-- How often the promises of a stream were settled. -/
def counts (e : Entry) (id : ℕ) : Option (ℕ × ℕ × ℕ) :=
  (e.objects.lookup id).map fun s =>
    (s.sendCalls.length, s.responseCalls.length, s.trailerCalls.length)

/-- A response is received up to its first bytes, and the connection breaks. -/
theorem broken_response_settled :
    ∃ e, Run (Entry.step {}) Allowed {} e ∧ e.closed = true ∧ e.loopEnded = true ∧
      ∃ s, e.objects.lookup 1 = some s ∧ s.sendCalls.length ≤ 1 ∧
        s.responseCalls.length = 1 ∧ s.trailerCalls.length = 1 := by
  have hexec : ((exec (restrict (Entry.step {}) Allowed) {}
      [.send "GET" false none none, .sendDrained 1 none, .beginHeaders 1 false,
        .header 1 ":status" "200", .frameRecv 1 1 4 none, .sendSettles 1, .dataChunk 1 [104, 105],
        .close, .recvEnd, .closeDrained]).bind fun e =>
          some (e.closed, e.loopEnded, e.counts 1)) = some (true, true, some (1, 1, 1)) := by
    decide +kernel
  obtain ⟨e, -, hrun, he⟩ := Run.exists_of_exec hexec
  simp only [counts, Option.some.injEq, Prod.mk.injEq, map_eq_some_iff] at he
  obtain ⟨hclosed, hended, s, hs, hsend, -, -⟩ := he
  obtain ⟨hresponse, htrailers⟩ := (settles_once {}).2 e hrun hclosed hended 1 s hs
  exact ⟨e, hrun, hclosed, hended, s, hs, hsend.le, hresponse, htrailers⟩

/-- A request in flight when `close` is called, or the timer of `send` goes off, is never settled.
-/
theorem request_left_unsettled :
    ((exec (Entry.step {}) {} [.send "GET" false none none, .sendDrained 1 none, .close,
      .closeDrained, .recvEnd]).map fun e => (e.closed, e.loopEnded, e.counts 1)) =
        some (true, true, some (0, 0, 0)) ∧
    ((exec (Entry.step {}) {} [.send "GET" false none none, .sendDrained 1 none, .idle,
      .closeDrained, .recvEnd]).map fun e => (e.closed, e.loopEnded, e.counts 1)) =
        some (true, true, some (0, 0, 0)) := by
  constructor <;> decide +kernel

end Entry

end Fino.Http2
