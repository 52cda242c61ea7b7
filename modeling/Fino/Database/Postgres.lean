import Fino.Lib.Transition
import Mathlib.Data.List.Basic

/-!
# Replies of a PostgreSQL server

The read loops of `PostgresDatabase` in `js/database/postgres.ts`. `_serialize` runs the calls of a
connection one after the other in the order in which they are made, also while others run
(`settled_in_order`), so a session is a list of calls, those that `transaction` makes among them,
and all read from one stream. A read loop ends at `ReadyForQuery`, but it throws at an
`ErrorResponse` without reading on, and `copyFrom` throws when its source does without reading the
server's answer, and does not stop at `ReadyForQuery` while it waits for `CopyInResponse`. What is
left of a reply is then read by the next call (`error_answers_next_call`). `replies_belong_iff` says
that this is all that goes wrong.
-/

namespace Fino.Postgres

open List Lib

variable {F R D : Type}

/-- `BackendMessage`, with fields, rows and data of any types; `other` is for `#handleAsync`. -/
inductive Message (F R D : Type)
  | rowDescription (fields : F)
  | dataRow (values : R)
  | commandComplete (tag : String)
  | copyInResponse
  | copyData (data : D)
  | errorResponse (text : String)
  | other
  | readyForQuery

/-- What the loops collect: rows with the fields they are decoded with, the command, and chunks. -/
structure Result (F R D : Type) where
  fields : Option F := none
  rows : List (Option F × R) := []
  command : Option String := none
  chunks : List D := []

/-- The method that is called, for `copyFrom` with the error that its source throws, if any. -/
inductive Method
  | simple | execute | copyTo
  | copyFrom (sourceError : Option String)

/-- A call with the messages of the server's reply before its `ReadyForQuery`. -/
structure Call (F R D : Type) where
  method : Method
  reply : List (Message F R D)

/-- What the body of a loop does with a message that does not end it. -/
def Method.collect (r : Result F R D) : Method → Message F R D → Result F R D
  | .execute, .rowDescription fields => { r with fields := some fields }
  | .execute, .dataRow values => { r with rows := r.rows ++ [(r.fields, values)] }
  | .execute, .commandComplete tag | .copyFrom _, .commandComplete tag =>
    { r with command := some tag }
  | .copyTo, .copyData data => { r with chunks := r.chunks ++ [data] }
  | _, _ => r

/-- The loop that ends with `ReadyForQuery`: what the call settles with and what is left unread, or
`none` if it waits for more. -/
def read (method : Method) (r : Result F R D) :
    List (Message F R D) → Option (Except String (Result F R D) × List (Message F R D))
  | [] => none
  | .errorResponse text :: stream => some (.error text, stream)
  | .readyForQuery :: stream => some (.ok r, stream)
  | message :: stream => read method (method.collect r message) stream

/-- The first loop of `copyFrom`. -/
def awaitCopyIn : List (Message F R D) → Option (Except String Unit × List (Message F R D))
  | [] => none
  | .copyInResponse :: stream => some (.ok (), stream)
  | .errorResponse text :: stream => some (.error text, stream)
  | _ :: stream => awaitCopyIn stream

variable (c : Call F R D)

/-- A call, from what is left unread of earlier replies: its own reply follows. -/
def Call.settle (unread : List (Message F R D)) :
    Option (Except String (Result F R D) × List (Message F R D)) :=
  let stream := unread ++ c.reply ++ [.readyForQuery]
  match c.method with
  | .copyFrom sourceError =>
    (awaitCopyIn stream).bind fun (result, stream) =>
      match result, sourceError with
      | .error text, _ | .ok _, some text => some (.error text, stream)
      | .ok _, none => read c.method {} stream
  | _ => read c.method {} stream

/-- The calls of a session, each with what it settles with and what is left unread, up to one that
does not settle. -/
def session (unread : List (Message F R D)) :
    List (Call F R D) → List (Except String (Result F R D) × List (Message F R D))
  | [] => []
  | c :: calls =>
    match c.settle unread with
    | none => []
    | some (result, unread) => (result, unread) :: session unread calls

/-- A connection with the `SerialExecutor` of `js/internal/serial-executor.ts` that its calls go
through: those that wait, the one that is active, what is unread and what has settled. `issued`
records the order in which the calls were made. -/
structure Connection (F R D : Type) where
  queue : List (Call F R D) := []
  active : Option (Call F R D) := none
  unread : List (Message F R D) := []
  settled : List (Except String (Result F R D) × List (Message F R D)) := []
  issued : List (Call F R D) := []

/-- A call is made, `#pump` has its turn after `run`, or the active call settles. -/
inductive Event (F R D : Type)
  | run (c : Call F R D)
  | pump
  | finish

def Connection.pump (s : Connection F R D) : Connection F R D :=
  match s.active, s.queue with
  | none, c :: queue => { s with queue := queue, active := some c }
  | _, _ => s

def Connection.step (s : Connection F R D) : Event F R D → Option (Connection F R D)
  | .run c => some { s with queue := s.queue ++ [c], issued := s.issued ++ [c] }
  | .pump => some s.pump
  | .finish => do
    let c ← s.active
    let (result, unread) ← c.settle s.unread
    return pump { s with
      active := none, unread := unread, settled := s.settled ++ [(result, unread)] }

/-! ### What a reply says -/

def Message.error? : Message F R D → Option String
  | .errorResponse text => some text
  | _ => none

def Message.isReady : Message F R D → Bool
  | .readyForQuery => true
  | _ => false

def Message.isCopyIn : Message F R D → Bool
  | .copyInResponse => true
  | _ => false

/-- The messages that the call collects from. -/
def Call.body : List (Message F R D) :=
  match c.method with
  | .copyFrom _ => c.reply.dropWhile (!·.isCopyIn)
  | _ => c.reply

/-- What a call should settle with, by its own reply and its own source: the first error, or what
there is to collect. -/
def Call.result : Except String (Result F R D) :=
  let sourceError := match c.method with
    | .copyFrom e => e
    | _ => none
  match (c.reply.takeWhile (!·.isCopyIn)).findSome? (·.error?) <|> sourceError <|>
    c.reply.findSome? (·.error?) with
  | some text => .error text
  | none => .ok (c.body.foldl c.method.collect {})

/-- The reply has no error, and for `copyFrom` nor has the source, and it is asked for. -/
def Call.Succeeds : Prop :=
  (∀ m ∈ c.reply, m.error? = none) ∧
    ∀ e, c.method = .copyFrom e → e = none ∧ ∃ m ∈ c.reply, m.isCopyIn

variable {l stream : List (Message F R D)} {method : Method} {r : Result F R D}

lemma read_of_no_error (hready : ∀ m ∈ l, m.isReady = false) (h : ∀ m ∈ l, m.error? = none) :
    read method r (l ++ [.readyForQuery]) = some (.ok (l.foldl method.collect r), []) := by
  induction l generalizing r with
  | nil => rfl
  | cons m l ih =>
    obtain ⟨hm, hready⟩ := forall_mem_cons.mp hready
    obtain ⟨hm', h⟩ := forall_mem_cons.mp h
    have ih := ih (r := method.collect r m) hready h
    cases m with
    | errorResponse text => cases hm'
    | readyForQuery => cases hm
    | _ => exact ih

/-- A loop that leaves nothing unread has met no error. -/
lemma no_error_of_read {result : Except String (Result F R D)}
    (h : read method r (l ++ [.readyForQuery]) = some (result, [])) :
    (∀ m ∈ l, m.error? = none) ∨ ∃ m ∈ l, m.isReady := by
  induction l generalizing r with
  | nil => exact .inl (by simp)
  | cons m l ih =>
    cases m with
    | errorResponse text => simp [read] at h
    | readyForQuery => exact .inr ⟨_, mem_cons_self, rfl⟩
    | _ => exact (ih h).imp (forall_mem_cons.mpr ⟨rfl, ·⟩) fun ⟨m, hm, h⟩ =>
        ⟨m, mem_cons_of_mem _ hm, h⟩

lemma awaitCopyIn_of_no_error (h : ∀ m ∈ l, m.error? = none) (hcopy : ∃ m ∈ l, m.isCopyIn) :
    ∃ tail, l.dropWhile (!·.isCopyIn) = .copyInResponse :: tail ∧ (∀ m ∈ tail, m ∈ l) ∧
      ∀ stream, awaitCopyIn (l ++ stream) = some (.ok (), tail ++ stream) := by
  induction l with
  | nil => simp at hcopy
  | cons m l ih =>
    obtain ⟨hm, h⟩ := forall_mem_cons.mp h
    have hnext : m.isCopyIn = false → ∃ tail, l.dropWhile (!·.isCopyIn) = .copyInResponse :: tail ∧
        (∀ m ∈ tail, m ∈ l) ∧ ∀ stream, awaitCopyIn (l ++ stream) = some (.ok (), tail ++ stream) :=
      fun hne => ih h (by simpa [hne] using hcopy)
    cases m with
    | copyInResponse => exact ⟨l, rfl, fun m hm => mem_cons_of_mem _ hm, fun _ => rfl⟩
    | errorResponse text => cases hm
    | _ =>
      obtain ⟨tail, hdrop, hmem, hawait⟩ := hnext rfl
      exact ⟨tail, hdrop, fun m hm => mem_cons_of_mem _ (hmem m hm), hawait⟩

/-- Where the first loop of `copyFrom` stops, something is left unread; what it has read before has
no error. -/
lemma awaitCopyIn_inv {result : Except String Unit}
    (h : awaitCopyIn (l ++ [.readyForQuery]) = some (result, stream)) :
    ∃ tail, stream = tail ++ [.readyForQuery] ∧ (∀ m ∈ tail, m ∈ l) ∧
      (result = .ok () → (∃ m ∈ l, m.isCopyIn) ∧
        ((∀ m ∈ tail, m.error? = none) → ∀ m ∈ l, m.error? = none)) := by
  induction l with
  | nil => simp [awaitCopyIn] at h
  | cons m l ih =>
    cases m with
    | copyInResponse =>
      cases h
      exact ⟨l, rfl, fun m hm => mem_cons_of_mem _ hm, fun _ => ⟨⟨_, mem_cons_self, rfl⟩,
        (forall_mem_cons.mpr ⟨rfl, ·⟩)⟩⟩
    | errorResponse text =>
      cases h
      exact ⟨l, rfl, fun m hm => mem_cons_of_mem _ hm, fun h => by cases h⟩
    | _ =>
      obtain ⟨tail, rfl, hmem, hok⟩ := ih h
      refine ⟨tail, rfl, fun m hm => mem_cons_of_mem _ (hmem m hm), fun hresult => ?_⟩
      obtain ⟨⟨m, hm, hcopy⟩, herror⟩ := hok hresult
      exact ⟨⟨m, mem_cons_of_mem _ hm, hcopy⟩, fun h => forall_mem_cons.mpr ⟨rfl, herror h⟩⟩

lemma Call.result_of_succeeds {c : Call F R D} (h : c.Succeeds) :
    c.result = .ok (c.body.foldl c.method.collect {}) := by
  have hnone : c.reply.findSome? (·.error?) = none := findSome?_eq_none_iff.mpr h.1
  have hbefore : (c.reply.takeWhile (!·.isCopyIn)).findSome? (·.error?) = none :=
    findSome?_eq_none_iff.mpr fun m hm => h.1 m ((takeWhile_sublist _).subset hm)
  unfold Call.result
  cases hm : c.method with
  | copyFrom e => simp [hnone, hbefore, (h.2 e hm).1]
  | _ => simp [hnone, hbefore]

/-- From a stream with nothing unread, a call settles by its own reply and leaves nothing unread
exactly if it succeeds. -/
lemma Call.settle_iff (hready : ∀ m ∈ c.reply, m.isReady = false) :
    c.settle [] = some (c.result, []) ↔ c.Succeeds := by
  constructor
  · intro h
    have hread : ∀ {l : List (Message F R D)} {x}, (∀ m ∈ l, m ∈ c.reply) →
        read c.method {} (l ++ [.readyForQuery]) = some (x, []) → ∀ m ∈ l, m.error? = none := by
      intro l x hl hx
      refine (no_error_of_read hx).resolve_right ?_
      rintro ⟨m, hm, hr⟩
      rw [hready m (hl m hm)] at hr
      cases hr
    cases hm : c.method with
    | copyFrom e =>
      simp only [Call.settle, hm, nil_append] at h
      obtain ⟨⟨result, stream⟩, hawait, h⟩ := Option.bind_eq_some_iff.mp h
      obtain ⟨tail, rfl, hmem, hok⟩ := awaitCopyIn_inv hawait
      cases result with
      | error text => simp at h
      | ok u =>
        cases e with
        | some text => simp at h
        | none =>
          obtain ⟨hcopy, herror⟩ := hok rfl
          refine ⟨herror (hread hmem (by rw [hm]; exact h)), fun e he => ?_⟩
          cases hm.symm.trans he
          exact ⟨rfl, hcopy⟩
    | _ =>
      simp only [Call.settle, hm, nil_append] at h
      exact ⟨hread (fun _ h => h) (by rw [hm]; exact h), fun e he => by simp [hm] at he⟩
  · intro h
    rw [Call.result_of_succeeds h]
    unfold Call.settle Call.body
    cases hm : c.method with
    | copyFrom e =>
      obtain ⟨rfl, hcopy⟩ := h.2 e hm
      obtain ⟨tail, hdrop, hmem, hawait⟩ := awaitCopyIn_of_no_error h.1 hcopy
      simp only [nil_append, hawait, hdrop, Option.bind_some, foldl_cons]
      exact read_of_no_error (fun m hm => hready m (hmem m hm)) fun m hm => h.1 m (hmem m hm)
    | _ =>
      exact read_of_no_error hready h.1

/-- Every call of a session settles by its own reply, with the stream just after the reply, exactly
if every call succeeds. -/
theorem replies_belong_iff (calls : List (Call F R D))
    (hready : ∀ c ∈ calls, ∀ m ∈ c.reply, m.isReady = false) :
    session [] calls = calls.map (fun c => (c.result, [])) ↔ ∀ c ∈ calls, c.Succeeds := by
  induction calls with
  | nil => simp [session]
  | cons c calls ih =>
    obtain ⟨hc, hready⟩ := forall_mem_cons.mp hready
    rw [forall_mem_cons, ← c.settle_iff hc, ← ih hready, session, map_cons]
    cases hs : c.settle [] with
    | none => simp
    | some x =>
      obtain ⟨result, unread⟩ := x
      constructor
      · intro h
        obtain ⟨hhead, htail⟩ := cons.inj h
        cases hhead
        exact ⟨rfl, htail⟩
      · rintro ⟨h, htail⟩
        cases h
        exact congrArg _ htail

/-! ### Calls that are made while others run -/

/-- A session goes on from what its last call has left unread. -/
lemma session_append {unread : List (Message F R D)} {calls : List (Call F R D)}
    (h : (session unread calls).length = calls.length) (more : List (Call F R D)) :
    session unread (calls ++ more) = session unread calls ++
      session (((session unread calls).getLast?.map Prod.snd).getD unread) more := by
  induction calls generalizing unread with
  | nil => rfl
  | cons c calls ih =>
    rw [cons_append, session, session]
    rw [session] at h
    cases hs : c.settle unread with
    | none => simp [hs] at h
    | some x =>
      simp only [hs, length_cons, Nat.add_right_cancel_iff] at h
      simp only [ih h, cons_append, getLast?_cons, Option.map_some, Option.getD_some]
      cases (session x.2 calls).getLast? <;> rfl

/-- The calls `done` have settled as a session, and the others wait behind them. -/
structure Connection.Serial (s : Connection F R D) (done : List (Call F R D)) : Prop where
  issued : s.issued = done ++ (s.active.toList ++ s.queue)
  settled : s.settled = session [] done
  all : (session [] done).length = done.length
  unread : s.unread = ((session [] done).getLast?.map Prod.snd).getD []

variable {s t : Connection F R D} {done : List (Call F R D)}

lemma Connection.Serial.pump (h : s.Serial done) : s.pump.Serial done := by
  unfold Connection.pump
  split
  case h_1 c queue hactive hqueue =>
    refine ⟨?_, h.settled, h.all, h.unread⟩
    rw [h.issued, hactive, hqueue]
    rfl
  case h_2 => exact h

lemma Connection.Serial.step {e : Event F R D} (h : s.Serial done) (hstep : s.step e = some t) :
    ∃ done, t.Serial done := by
  cases e with
  | run c =>
    cases hstep
    exact ⟨done, by simp [h.issued], h.settled, h.all, h.unread⟩
  | pump =>
    cases hstep
    exact ⟨done, h.pump⟩
  | finish =>
    obtain ⟨c, hactive, hstep⟩ := Option.bind_eq_some_iff.mp hstep
    obtain ⟨⟨result, unread⟩, hsettle, hstep⟩ := Option.bind_eq_some_iff.mp hstep
    cases hstep
    -- The call is the next one of the session, and reads what the calls before it have left.
    have hnext : session [] (done ++ [c]) = session [] done ++ [(result, unread)] := by
      rw [session_append h.all, ← h.unread, session, hsettle]
      rfl
    refine ⟨done ++ [c], Connection.Serial.pump ⟨?_, ?_, ?_, ?_⟩⟩
    · simp [h.issued, hactive]
    · rw [hnext, h.settled]
    · simp [hnext, h.all]
    · simp [hnext]

/-- Whenever the calls are made, those that have settled are the first ones, and have settled as in
a session of these calls; when no call is active or waits, all have settled. -/
theorem settled_in_order (h : Run Connection.step Any {} s) :
    s.settled = session [] (s.issued.take s.settled.length) ∧
      (s.active = none → s.queue = [] → s.settled = session [] s.issued) := by
  have hinit : ∃ done, Connection.Serial ({} : Connection F R D) done := ⟨[], rfl, rfl, rfl, rfl⟩
  have hstep : ∀ (s : Connection F R D) e t, (∃ done, s.Serial done) → Any s e →
      s.step e = some t → ∃ done, t.Serial done := fun _ _ _ ⟨_, hi⟩ _ hstep => hi.step hstep
  obtain ⟨done, hs⟩ := h.invariant hstep hinit
  refine ⟨?_, fun hactive hqueue => ?_⟩
  · rw [hs.issued, hs.settled, hs.all, take_left]
  · rw [hs.issued, hs.settled, hactive, hqueue]
    simp

/-- A query that fails, and then one with a row: the second call returns no row. -/
theorem error_answers_next_call :
    session [] [⟨.simple, [.errorResponse "failed"]⟩,
        (⟨.execute, [.rowDescription "n", .dataRow 1, .commandComplete "SELECT 1"]⟩ :
          Call String ℕ Unit)] =
      [(.error "failed", [.readyForQuery]),
        (.ok {}, [.rowDescription "n", .dataRow 1, .commandComplete "SELECT 1", .readyForQuery])] :=
  rfl

theorem queries_answered : session [] [(⟨.simple, []⟩ : Call String ℕ Unit),
      ⟨.execute, [.rowDescription "n", .dataRow 1]⟩, ⟨.copyFrom none, [.copyInResponse]⟩] =
    [(.ok {}, []), (.ok { fields := some "n", rows := [(some "n", 1)] }, []), (.ok {}, [])] :=
  (replies_belong_iff _ (by simp [Message.isReady])).mpr
    (by simp [Call.Succeeds, Message.error?, Message.isCopyIn])

end Fino.Postgres
