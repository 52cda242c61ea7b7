import Fino.Http1.Driver

/-!
# Responses in the order of their requests

`Driver.transcript` is what should have been written for the responses taken from the queue. What
has been written is an initial part of it along every run in which a request is read only while no
response has been settled to close, only the last request read is settled to close, a request that
expects `100-continue` is read once every earlier response is written, and nothing is taken from the
queue after a failed write. A client that pipelines can violate each of these.
-/

namespace Fino.Http1

open Lib Option List Exchange

namespace Driver

variable (s : Driver)

/-- Everything written for a request. -/
def pieces (seq : ℕ) : List Piece :=
  s.interim seq ++ s.final seq

/-- What is due for the first `k` requests, and the interim response of the next. -/
def due (k : ℕ) : List Piece :=
  (range k).flatMap s.pieces ++ s.interim k

def transcript : List Piece :=
  s.due s.nextWriteSeq

/-- The writes that the flush in progress still has to make. -/
def rest : List Piece :=
  match s.flush with
  | .writing rest _ => rest
  | _ => []

/-- The steps under which the order is kept. -/
def Allowed : Action → Prop
  | .parsed .failed | .parsed .idleTimeout | .parsed .nothing => True
  | .parsed (.request .continue _ _) => (∀ e ∈ s.exchanges, e.keepAlive = true) ∧
      s.nextWriteSeq = s.nextSeq ∧ s.flush = .idle ∧ s.connectionFailed = false
  | .parsed _ => ∀ e ∈ s.exchanges, e.keepAlive = true
  | .drained seq ok => seq + 1 = s.nextSeq ∨
      ok = true ∧ s.exchanges[seq]?.map phase ≠ some (.draining true)
  | .prepared seq writes => seq + 1 = s.nextSeq ∨ writes ≠ none
  | .flushResponses => s.connectionFailed = false
  | _ => True

instance (s : Driver) (a : Action) : Decidable (Allowed s a) := by
  unfold Allowed
  split <;> infer_instance

/-- The request that a pump in this state has in hand is the last one numbered. -/
def Holds (pump : Pump) : Prop :=
  ∀ q, pump.seq? = some q → q + 1 = s.nextSeq ∧ ∃ e, s.exchanges[q]? = some e ∧
    e.phase = .opening ∧ (pump = .closing q → e.keepAlive = false)

/-- What is written and what is still to be written make up the transcript, in its order. -/
structure Inv (s : Driver) : Prop where
  /-- `lost` is what a failed write left out. -/
  order : ∃ lost, s.written ++ s.rest ++ lost = s.transcript ∧
    (s.connectionFailed = false → lost = [])
  le : s.nextWriteSeq ≤ s.nextSeq
  single : ∀ (i : ℕ) e, s.exchanges[i]? = some e → s.nextWriteSeq < i → e.expects = false
  taken : ∀ (i : ℕ) e, s.exchanges[i]? = some e → i < s.nextWriteSeq →
    ∃ entry, e.phase = .queued entry
  close : ∀ (i : ℕ) e, s.exchanges[i]? = some e → e.keepAlive = false → i + 1 = s.nextSeq
  closed : ∀ (i : ℕ) e, s.exchanges[i]? = some e → e.saysClose = true → e.keepAlive = false
  opened : s.Holds s.pump

variable {s t : Driver} {pump : Pump}

lemma transcript_congr (hw : t.nextWriteSeq = s.nextWriteSeq)
    (hi : ∀ i ≤ s.nextWriteSeq, t.interim i = s.interim i)
    (hf : ∀ i < s.nextWriteSeq, t.final i = s.final i) : t.transcript = s.transcript := by
  rw [transcript, transcript, due, due, hw, hi _ le_rfl]
  congr 1
  refine flatMap_congr fun i h => ?_
  have hlt := mem_range.mp h
  rw [pieces, pieces, hi i hlt.le, hf i hlt]

lemma holds_of_none (h : pump.seq? = none) : s.Holds pump := by
  intro q hq
  simp [h] at hq

section

variable (h : Inv s)

include h

/-- The counters, the flags and the state of the pump may change. -/
lemma Inv.keep {n b : ℕ} {stop : Option ℕ} {active done stopped : Bool} (hp : s.Holds pump) :
    Inv { s with
      inFlight := n, bodyDrainCount := b, stopAfterSeq := stop, readPumpActive := active
      parserDone := done, stopped := stopped, pump := pump } where
  order := h.order
  le := h.le
  single := h.single
  taken := h.taken
  close := h.close
  closed := h.closed
  opened := hp

variable {e : Exchange} {i : ℕ} {a : Action}

/-- The pump or a handler goes on with one exchange. -/
lemma Inv.put {e' : Exchange} (he : s.exchanges[i]? = some e)
    (hp : e.phase ≠ .opening ∨ s.pump.seq? = none) (hx : e'.expects = e.expects)
    (hq : ∀ y, e.phase = .queued y → e'.writes = e.writes ∧ ∃ z, e'.phase = .queued z)
    (hk : e'.keepAlive = false → i + 1 = s.nextSeq)
    (hs : e'.saysClose → e'.keepAlive = false) :
    Inv (s.put i e') := by
  have hi : i < s.exchanges.length := (List.getElem?_eq_some_iff.mp he).1
  have hget : ∀ j, (s.exchanges.set i e')[j]? = if i = j then some e' else s.exchanges[j]? := by
    simp [List.getElem?_set, hi]
  have hold : ∀ j x, (s.exchanges.set i e')[j]? = some x →
      j = i ∧ x = e' ∨ s.exchanges[j]? = some x := by
    intro j x hx
    rw [hget] at hx
    split at hx
    · next hij => exact .inl ⟨hij.symm, (some.inj hx).symm⟩
    · exact .inr hx
  refine ⟨?_, by simpa [Driver.put, nextSeq] using h.le, fun j x hj hlt => ?_, fun j x hj hlt => ?_,
    fun j x hj hc => ?_, fun j x hj hc => ?_, fun q hpump => ?_⟩
  · -- The writes due below `nextWriteSeq` are those of queued responses, which stay as they are.
    obtain ⟨lost, ho, hl⟩ := h.order
    refine ⟨lost, ho.trans (transcript_congr (s := s) (t := s.put i e') rfl ?_ ?_).symm, hl⟩
    · intro j _
      simp only [interim, Driver.put, hget]
      split
      · next hij => simp [← hij, he, hx]
      · rfl
    · intro j hj
      simp only [final, Driver.put, hget]
      split
      · next hij =>
        obtain ⟨y, hy⟩ := h.taken i e he (hij ▸ hj)
        simp [← hij, he, (hq y hy).1]
      · rfl
  · obtain ⟨rfl, rfl⟩ | hj := hold j x hj
    · exact hx.trans (h.single _ e he hlt)
    · exact h.single j x hj hlt
  · obtain ⟨rfl, rfl⟩ | hj := hold j x hj
    · obtain ⟨y, hy⟩ := h.taken _ e he hlt
      exact (hq y hy).2
    · exact h.taken j x hj hlt
  · simp only [Driver.put, nextSeq, length_set]
    obtain ⟨rfl, rfl⟩ | hj := hold j x hj
    · exact hk hc
    · exact h.close j x hj hc
  · obtain ⟨rfl, rfl⟩ | hj := hold j x hj
    · exact hs hc
    · exact h.closed j x hj hc
  · -- The request in the hand of the pump is another one.
    obtain ⟨hn, x, hx, hph, hcl⟩ := h.opened q hpump
    have hne : i ≠ q := by
      rintro rfl
      rw [he, some.injEq] at hx
      obtain hp | hp := hp
      · exact hp (hx ▸ hph)
      · exact absurd (hp.symm.trans hpump) (by simp)
    refine ⟨by simpa [Driver.put, nextSeq] using hn, x, ?_, hph, hcl⟩
    simpa [Driver.put, hget, hne] using hx

/-- The pump numbers a request. -/
lemma Inv.push (hp : s.pump.seq? = none) (hall : ∀ x ∈ s.exchanges, x.keepAlive)
    (hx : e.expects = false ∨
      s.nextWriteSeq = s.nextSeq ∧ s.flush = .idle ∧ s.connectionFailed = false)
    (hs : e.saysClose = false) : Inv (s.push e) := by
  have hget : ∀ j, (s.exchanges ++ [e])[j]? =
      if j = s.nextSeq then some e else s.exchanges[j]? := by
    intro j
    rw [nextSeq]
    rcases lt_trichotomy j s.exchanges.length with hj | rfl | hj
    · rw [if_neg hj.ne, List.getElem?_append_left hj]
    · simp
    · rw [if_neg hj.ne', List.getElem?_append_right hj.le, List.getElem?_eq_none (by simp; omega),
        List.getElem?_eq_none hj.le]
  have hold : ∀ j x, (s.exchanges ++ [e])[j]? = some x →
      j = s.nextSeq ∧ x = e ∨ s.exchanges[j]? = some x := by
    intro j x hj
    rw [hget] at hj
    split at hj
    · next hij => exact .inl ⟨hij, (some.inj hj).symm⟩
    · exact .inr hj
  have hle := h.le
  refine ⟨?_, by simp only [Driver.push, nextSeq, length_append]; unfold nextSeq at hle; omega,
    fun j x hj hlt => ?_, fun j x hj hlt => ?_, fun j x hj hc => ?_, fun j x hj hc => ?_,
    fun q hq => ?_⟩
  · obtain ⟨lost, ho, hl⟩ := h.order
    cases hex : e.expects with
    | false =>
      -- Nothing is written, and nothing more is due.
      refine ⟨lost, ?_, hl⟩
      rw [show (s.push e).written = s.written by simp [Driver.push, hex]]
      refine ho.trans (transcript_congr (s := s) (t := s.push e) rfl ?_ ?_).symm
      · intro j _
        simp only [interim, Driver.push, hget]
        split
        · next hij => simp [hij, nextSeq, hex]
        · rfl
      · intro j hj
        simp only [final, Driver.push, hget, if_neg (show j ≠ s.nextSeq by omega)]
    | true =>
      -- Everything before has been written, so the interim response is the next piece due.
      obtain ⟨hw, hidle, hc⟩ := hx.resolve_left (by simp [hex])
      refine ⟨[], ?_, fun _ => rfl⟩
      have hint : s.interim s.nextWriteSeq = [] := by simp [interim, hw, nextSeq]
      rw [hl hc, rest, hidle, transcript, due, hint] at ho
      simp only [append_nil] at ho
      simp only [rest, Driver.push, hidle, hex, if_true, append_nil, transcript, due, ho]
      congr 1
      · refine flatMap_congr fun i hi => ?_
        have hlt := mem_range.mp hi
        simp only [pieces, interim, final, hget, if_neg (show i ≠ s.nextSeq by omega)]
      · simp [interim, hget, hw, hex]
  · obtain ⟨rfl, rfl⟩ | hj := hold j x hj
    · exact hx.resolve_right fun hw => Nat.ne_of_lt hlt hw.1
    · exact h.single j x hj hlt
  · obtain ⟨rfl, rfl⟩ | hj := hold j x hj
    · exact absurd hlt (Nat.not_lt.mpr hle)
    · exact h.taken j x hj hlt
  · simp only [Driver.push, nextSeq, length_append, length_singleton]
    obtain ⟨rfl, rfl⟩ | hj := hold j x hj
    · rfl
    · exact absurd (hall x (mem_of_getElem? hj)) (by simp [hc])
  · obtain ⟨rfl, rfl⟩ | hj := hold j x hj
    · exact absurd hc (by simp [hs])
    · exact h.closed j x hj hc
  · exact absurd (hp.symm.trans hq) (by simp)

lemma due_add (n : ℕ) : s.due (s.nextWriteSeq + n) =
    s.transcript ++ (range' s.nextWriteSeq n).flatMap s.final := by
  induction n with
  | zero => simp [transcript]
  | succ n ih =>
    have hnone : s.interim (s.nextWriteSeq + n + 1) = [] := by
      cases he : s.exchanges[s.nextWriteSeq + n + 1]? with
      | none => simp [interim, he]
      | some e => simp [interim, he, h.single _ e he (by omega)]
    rw [range'_1_concat, flatMap_append, ← append_assoc, ← ih, ← Nat.add_assoc]
    simp [due, range_succ, pieces, hnone]

/-- A turn of the flush takes the next `n` queued entries. -/
lemma Inv.advance (hidle : s.flush = .idle) (hc : s.connectionFailed = false) {n : ℕ}
    {flush : Flush}
    (hrest : ({ s with flush } : Driver).rest = (range' s.nextWriteSeq n).flatMap s.final)
    (ht : ∀ j < n, ∃ e y, s.exchanges[s.nextWriteSeq + j]? = some e ∧ e.phase = .queued y) :
    Inv { s with nextWriteSeq := s.nextWriteSeq + n, flush } := by
  refine ⟨?_, ?_, fun i e he hi => h.single i e he (by simp only at hi; omega), ?_, h.close,
    h.closed, h.opened⟩
  · obtain ⟨lost, ho, hl⟩ := h.order
    refine ⟨[], ?_, fun _ => rfl⟩
    rw [hl hc, rest, hidle, append_nil, append_nil] at ho
    exact (append_nil _).trans ((congrArg₂ _ ho hrest).trans (due_add h n).symm)
  · cases n with
    | zero => exact h.le
    | succ n =>
      obtain ⟨e, -, he, -⟩ := ht n n.lt_succ_self
      exact (List.getElem?_eq_some_iff.mp he).1
  · intro i e he hi
    by_cases hlt : i < s.nextWriteSeq
    · exact h.taken i e he hlt
    · obtain ⟨x, y, hx, hy⟩ := ht (i - s.nextWriteSeq) (by simp only at hi; omega)
      rw [Nat.add_sub_cancel' (Nat.le_of_not_lt hlt), he, some.injEq] at hx
      exact ⟨y, hx ▸ hy⟩

end

lemma batch_queued (room : ℕ) (es : List Exchange) {j : ℕ} (hj : j < (batch room es).1) :
    ∃ e y, es[j]? = some e ∧ e.phase = .queued y := by
  induction room, es using batch.induct generalizing j with
  | case1 room e es n c he =>
    simp only [batch, he, Nat.lt_one_iff] at hj
    exact ⟨e, _, by simp [hj], he⟩
  | case2 room e es n c he ih =>
    cases j with
    | zero => exact ⟨e, _, rfl, he⟩
    | succ j =>
      simp only [batch, he, Nat.add_lt_add_iff_right] at hj
      exact ih hj
  | case3 room e es hno hno' | case4 room es hno => exact absurd hj (by simp [batch])

lemma Inv.take (h : Inv s) (o : Options) (hidle : s.flush = .idle)
    (hc : s.connectionFailed = false) : Inv (s.take o) := by
  unfold Driver.take
  split
  · next hup =>
    obtain ⟨e, he, hph⟩ := map_eq_some_iff.mp hup
    refine h.advance hidle hc (by simp [rest, final, he, writes, hph]) fun j hj => ?_
    obtain rfl : j = 0 := by omega
    exact ⟨e, _, he, hph⟩
  · refine h.advance hidle hc rfl fun j hj => ?_
    simpa using batch_queued _ _ hj

lemma Inv.endPump (h : Inv s) : Inv s.endPump :=
  h.keep (holds_of_none rfl)

lemma Inv.dispatch (h : Inv s.endPump) (o : Options) (seq : ℕ) (k b : Bool) :
    Inv (s.dispatch o seq k b) := by
  unfold Driver.dispatch
  dsimp only
  split <;> exact h.keep (holds_of_none rfl)

/-- The flush goes on: what it has to write is written, or lost. -/
lemma Inv.flush (h : Inv s) {written : List Piece} {flush : Flush} {failed done : Bool}
    (ho : ∃ lost, written ++ ({ s with flush } : Driver).rest ++ lost = s.transcript ∧
      (failed = false → lost = [])) :
    Inv { s with written, flush, connectionFailed := failed, parserDone := done } :=
  ⟨ho, h.le, h.single, h.taken, h.close, h.closed, h.opened⟩

lemma Inv.onParsed (h : Inv s) (o : Options) {p : Parsed} (hp : s.pump.seq? = none)
    (hok : Allowed s (.parsed p)) : Inv (s.onParsed o p) := by
  -- The request just numbered is the last one, and nothing has been done with it.
  have last {e : Exchange} {pump : Pump} (hph : e.phase = .opening)
      (hq : pump.seq? = some s.nextSeq) (hc : pump ≠ .closing s.nextSeq ∨ e.keepAlive = false) :
      (s.push e).Holds pump := by
    intro q hq'
    obtain rfl : s.nextSeq = q := some.inj (hq.symm.trans hq')
    exact ⟨by simp [Driver.push, nextSeq], e, by simp [Driver.push, nextSeq], hph,
      hc.resolve_left ∘ not_not.mpr⟩
  cases p with
  | failed | idleTimeout | nothing => exact h.keep (holds_of_none rfl)
  | headersTimeout =>
    exact (h.push hp hok (.inl rfl) rfl).keep (last rfl rfl (.inr rfl))
  | h2c => exact (h.push hp hok (.inl rfl) rfl).keep (holds_of_none rfl)
  | request x k b =>
    cases x with
    | absent => exact (h.push hp hok (.inl rfl) rfl).endPump.dispatch o _ k b
    | «continue» =>
      exact (h.push hp hok.1 (.inr hok.2) rfl).keep (last rfl rfl (.inl (by simp)))
    | other =>
      exact (h.push hp hok (.inl rfl) rfl).keep (last rfl rfl (.inr rfl))

lemma Inv.onHandler (h : Inv s) (he : s.exchanges[i]? = some e) (ha : a.seq? = some i)
    (hok : Allowed s a) (hstep : s.onHandler i e a = some t) : Inv t := by
  -- A handler acts on a request that the pump has let go of.
  have put {x : Exchange} {n b : ℕ} {stop : Option ℕ} {active done : Bool}
      (hph : e.phase ≠ .opening) (hx : x.expects = e.expects)
      (hq : ∀ y, e.phase = .queued y → x.writes = e.writes ∧ ∃ z, x.phase = .queued z)
      (hk : x.keepAlive = false → e.keepAlive = false ∨ i + 1 = s.nextSeq)
      (hs : x.saysClose → x.keepAlive = false) :
      Inv { s.put i x with
        inFlight := n, bodyDrainCount := b, stopAfterSeq := stop, readPumpActive := active
        parserDone := done } := by
    have hput := h.put he (.inl hph) hx hq (fun hf => (hk hf).elim (h.close i e he) fun h => h) hs
    exact hput.keep hput.opened
  cases a with
  | takeover q =>
    simp only [Driver.onHandler, ite_none_right_eq_some, some.injEq] at hstep
    obtain ⟨hph, rfl⟩ := hstep
    exact put (by simp [hph]) rfl (by simp [hph]) .inl (by simp [saysClose])
  | responds q c u =>
    simp only [Driver.onHandler, ite_none_right_eq_some] at hstep
    obtain ⟨hph, hstep⟩ := hstep
    split at hstep
    all_goals
      cases hstep
      exact put (by simp [hph]) rfl (by simp [hph]) .inl (by simp [saysClose])
  | drained q ok =>
    obtain rfl : q = i := some.inj ha
    simp only [Driver.onHandler] at hstep
    split at hstep
    · next close hph =>
      cases hstep
      refine put (by simp [hph]) rfl (by simp [hph]) (fun hf => ?_) (by simp [saysClose])
      -- What turns it off here is a failed drain or the response itself.
      obtain hlast | ⟨rfl, hno⟩ := hok
      · exact .inr hlast
      · cases close with
        | true => exact absurd (by simp [he, hph]) hno
        | false => exact .inl (by simpa using hf)
    · simp at hstep
  | prepared q n =>
    obtain rfl : q = i := some.inj ha
    simp only [Driver.onHandler, ite_none_right_eq_some] at hstep
    obtain ⟨hph, hstep⟩ := hstep
    cases n with
    | some n =>
      cases hstep
      exact put (by simp [hph]) rfl (by simp [hph]) .inl (by simp [saysClose])
    | none =>
      cases hstep
      exact put (by simp [hph]) rfl (by simp [hph]) (fun _ => .inr (hok.resolve_right (by simp)))
        (fun _ => rfl)
  | lateDrained q ok =>
    simp only [Driver.onHandler] at hstep
    split at hstep
    · next entry _ hph =>
      cases hstep
      -- The head of the response is settled; only `closeAfter` changes.
      have hsays := h.closed i e he
      cases entry with
      | response n c after =>
        exact put (by simp [hph]) rfl (by simp [hph, writes]) .inl
          (by simpa [hph, saysClose] using hsays)
      | upgrade =>
        exact put (by simp [hph]) rfl (by simp [hph, writes]) .inl (by simp [saysClose])
    · simp at hstep
  | _ => exact absurd ha (by simp [Action.seq?])

/-- Every action that meets the condition keeps the order. -/
lemma Inv.step (h : Inv s) {o : Options} (hok : Allowed s a)
    (hstep : s.step o a = some t) : Inv t := by
  cases a with
  | pumpReads =>
    simp only [Driver.step, ite_none_right_eq_some, some.injEq] at hstep
    obtain ⟨-, rfl⟩ := hstep
    exact h.keep (holds_of_none rfl)
  | parsed p =>
    simp only [Driver.step] at hstep
    split at hstep
    · next b hb =>
      obtain ⟨-, hstep⟩ := ite_none_right_eq_some.mp hstep
      cases hstep
      exact h.onParsed o (by simp [hb, Pump.seq?]) hok
    · simp at hstep
  | interimSent ok =>
    simp only [Driver.step] at hstep
    split at hstep
    · next q k b hpump =>
      obtain ⟨hlast, e, he, hph, -⟩ := h.opened q (by simp [hpump, Pump.seq?])
      cases ok with
      | true =>
        simp only [he, if_true, map_some, some.injEq] at hstep
        obtain rfl := hstep
        refine Inv.dispatch ?_ o q k b
        exact h.endPump.put he (.inr rfl) rfl (by simp [hph]) (fun _ => hlast) (by simp [saysClose])
      | false => exact some.inj hstep ▸ h.endPump
    · simp at hstep
  | closeResponse =>
    simp only [Driver.step] at hstep
    split at hstep
    · next q hpump =>
      obtain ⟨hlast, e, he, hph, hk⟩ := h.opened q (by simp [hpump, Pump.seq?])
      simp only [he, map_some, some.injEq] at hstep
      obtain rfl := hstep
      exact h.endPump.put he (.inr rfl) rfl (by simp [hph]) (fun _ => hlast) fun _ => hk hpump
    · simp at hstep
  | flushResponses =>
    simp only [Driver.step, ite_none_right_eq_some, some.injEq, Bool.and_eq_true,
      beq_iff_eq] at hstep
    obtain ⟨⟨⟨-, hidle⟩, -⟩, rfl⟩ := hstep
    exact h.take o hidle hok
  | write =>
    simp only [Driver.step] at hstep
    split at hstep
    · next p rest c hf =>
      cases hstep
      obtain ⟨lost, ho, hl⟩ := h.order
      exact h.flush ⟨lost, by simpa [Driver.rest, hf] using ho, hl⟩
    · simp at hstep
  | flushed =>
    simp only [Driver.step] at hstep
    split at hstep
    · next c hf =>
      cases hstep
      obtain ⟨lost, ho, hl⟩ := h.order
      exact h.flush ⟨lost, by simpa [Driver.rest, hf] using ho, hl⟩
    · simp at hstep
  | writeFails =>
    simp only [Driver.step] at hstep
    split at hstep
    · next rest c hf =>
      cases hstep
      obtain ⟨lost, ho, -⟩ := h.order
      exact h.flush ⟨rest ++ lost, by simpa [Driver.rest, hf] using ho, by simp⟩
    · simp at hstep
  | tookOver =>
    simp only [Driver.step, ite_none_right_eq_some, some.injEq] at hstep
    obtain ⟨hf, rfl⟩ := hstep
    obtain ⟨lost, ho, hl⟩ := h.order
    exact h.flush ⟨lost, by simpa [Driver.rest, hf] using ho, hl⟩
  | stop =>
    simp only [Driver.step, ite_none_right_eq_some, some.injEq] at hstep
    obtain ⟨-, rfl⟩ := hstep
    exact h.keep h.opened
  | takeover q | responds q c u | drained q ok | prepared q n | lateDrained q ok =>
    obtain ⟨e, he, hstep⟩ := bind_eq_some_iff.mp hstep
    exact h.onHandler he rfl hok hstep

lemma seq_of_mem_pieces {p : Piece} (h : p ∈ s.pieces i) : p.seq = i ∧ i < s.nextSeq := by
  cases he : s.exchanges[i]? with
  | none => simp [pieces, interim, final, he] at h
  | some e =>
    refine ⟨?_, (List.getElem?_eq_some_iff.mp he).1⟩
    obtain h | h := mem_append.mp h
    · unfold interim at h
      split at h
      · rw [mem_singleton.mp h, Piece.seq]
      · cases h
    · obtain ⟨part, -, rfl⟩ := mem_map.mp h
      rfl

lemma nodup_due (s : Driver) (k : ℕ) : (s.due k).Nodup := by
  have hinterim (i : ℕ) : (s.interim i).Nodup := by
    unfold interim
    split <;> simp
  refine nodup_append.mpr ⟨nodup_flatMap.mpr ⟨fun i _ => ?_, ?_⟩, hinterim k, ?_⟩
  · refine nodup_append.mpr ⟨hinterim i, nodup_range.map fun a b => by simp, ?_⟩
    intro p hp q hq
    obtain ⟨part, -, rfl⟩ := mem_map.mp hq
    unfold interim at hp
    split at hp <;> simp_all
  · refine nodup_range.imp fun hne p hp hq => hne ?_
    exact (seq_of_mem_pieces hp).1.symm.trans (seq_of_mem_pieces hq).1
  · rintro p hp q hq rfl
    obtain ⟨i, hi, hp⟩ := mem_flatMap.mp hp
    have hk := (seq_of_mem_pieces (mem_append_left _ hq)).1
    exact (mem_range.mp hi).ne ((seq_of_mem_pieces hp).1.symm.trans hk)

/-- In every run of allowed steps the writes are an initial part of the transcript, all of it when
no write is in progress and none has failed; none is made twice, and none after a response that
carries `Connection: close`. -/
theorem responses_in_order (o : Options) (t : Driver) (h : Run (step o) Allowed {} t) :
    (∃ rest, t.written ++ rest = t.transcript) ∧
    (t.flush = .idle → t.connectionFailed = false → t.written = t.transcript) ∧
    t.written.Nodup ∧
    ∀ (i : ℕ) e, t.exchanges[i]? = some e → e.saysClose = true → ∀ p ∈ t.written, p.seq ≤ i := by
  have hnew : Inv {} := by
    refine ⟨⟨[], rfl, fun _ => rfl⟩, le_rfl, ?_, ?_, ?_, ?_,
      holds_of_none rfl⟩
    all_goals
      intro i e he
      simp at he
  have ht : Inv t := h.invariant (fun s a u hs hok hstep => hs.step hok hstep) hnew
  obtain ⟨lost, ho, hl⟩ := ht.order
  have hinit : t.written ++ (t.rest ++ lost) = t.transcript := by rw [← ho, append_assoc]
  refine ⟨⟨_, hinit⟩, fun hidle hc => ?_, ?_, fun i e he hc p hp => ?_⟩
  · simpa [Driver.rest, hidle, hl hc] using ho
  · have hnodup : t.transcript.Nodup := nodup_due t t.nextWriteSeq
    exact (nodup_append.mp (hinit ▸ hnodup)).1
  · have hlast := ht.close i e he (ht.closed i e he hc)
    have hmem : p ∈ t.transcript := hinit ▸ mem_append_left _ hp
    have hlt : p.seq < t.nextSeq := by
      obtain hmem | hmem := mem_append.mp hmem
      · obtain ⟨j, -, hj⟩ := mem_flatMap.mp hmem
        exact (seq_of_mem_pieces hj).1 ▸ (seq_of_mem_pieces hj).2
      · have hj := seq_of_mem_pieces (mem_append_left (t.final _) hmem)
        exact hj.1 ▸ hj.2
    omega

/-- A request that expects `100-continue`, then two pipelined ones, the last of which closes; the
handlers finish in the opposite order. -/
theorem pipelined_in_order :
    ∃ t, Run (step { maxConcurrent := 4 }) Allowed {} t ∧
      t.written = [.interim 0, .final 0 0, .final 1 0, .final 1 1, .final 2 0] ∧
      ∀ p ∈ t.written, p.seq ≤ 2 := by
  have ht : ((exec (restrict (step { maxConcurrent := 4 }) Allowed) {}
      [.pumpReads, .parsed (.request .continue true true), .interimSent true,
        .responds 0 (some false) true, .drained 0 true, .prepared 0 (some 1), .pumpReads,
        .parsed (.request .absent true false), .parsed (.request .absent true false),
        .parsed .nothing, .responds 2 (some true) false, .drained 2 true, .prepared 2 (some 1),
        .responds 1 (some false) false, .drained 1 true, .prepared 1 (some 2), .flushResponses,
        .write, .write, .write, .write, .flushed, .stop]).bind fun t =>
      some (t.written, t.exchanges[2]?.map saysClose)) =
      some ([.interim 0, .final 0 0, .final 1 0, .final 1 1, .final 2 0], some true) := by
    decide +kernel
  obtain ⟨t, -, hrun, hend⟩ := Run.exists_of_exec ht
  obtain ⟨hwritten, hclose⟩ := Prod.mk.inj (some.inj hend)
  obtain ⟨e, he, hsays⟩ := map_eq_some_iff.mp hclose
  exact ⟨t, hrun, hwritten, (responses_in_order _ t hrun).2.2.2 2 e he hsays⟩

/-- Without these conditions: an interim response goes out before an earlier response, a response
follows one that closes, and one follows a streamed response that broke off. -/
theorem responses_out_of_order :
    ((exec (step { maxConcurrent := 4 }) {}
      [.pumpReads, .parsed (.request .absent true false), .parsed (.request .continue true false),
        .responds 0 (some false) false, .drained 0 true, .prepared 0 (some 1), .flushResponses,
        .write]).map written) = some [.interim 1, .final 0 0] ∧
    ((exec (step { maxConcurrent := 4 }) {}
      [.pumpReads, .parsed (.request .absent true false), .parsed (.request .absent true false),
        .parsed .nothing, .responds 0 (some true) false, .drained 0 true, .prepared 0 (some 1),
        .responds 1 (some false) false, .drained 1 true, .prepared 1 (some 1), .flushResponses,
        .write, .flushed, .flushResponses, .write]).map fun t =>
          (t.written, t.exchanges[0]?.map saysClose)) =
      some ([.final 0 0, .final 1 0], some true) ∧
    ((exec (step { maxConcurrent := 4 }) {}
      [.pumpReads, .parsed (.request .absent true false), .parsed (.request .absent true false),
        .parsed .nothing, .responds 0 (some false) false, .drained 0 true, .prepared 0 (some 3),
        .flushResponses, .write, .responds 1 (some false) false, .drained 1 true,
        .prepared 1 (some 1), .writeFails, .flushResponses, .write]).map fun t =>
          (t.written, t.transcript)) =
      some ([.final 0 0, .final 1 0], [.final 0 0, .final 0 1, .final 0 2, .final 1 0]) := by
  refine ⟨?_, ?_, ?_⟩ <;> decide +kernel

end Driver

end Fino.Http1
